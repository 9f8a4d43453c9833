import Lash.FinalCommits
import Lash.RlmStates

/-!
# Appending nodes to a session

One call appends the nodes to the graph in memory, hands their events to the protocol and
commits the nodes to the store. The graph has changed before the protocol is asked, the
protocol has taken the earlier events before it refuses one, and a commit that fails is only
logged. What the protocol has accepted is replayed by another function when the session is
loaded again.
-/

namespace NodeAppends

open StoreTypes SessionGraphs RuntimeCommits
open SqliteStore RuntimeStates TurnBoundaries RlmStates

variable {Json V Ref : Type}

/-! ## The runtime -/

/-- What a runtime reads of its session. -/
structure LiveSession (Json V Ref : Type) where
  plugin : RlmRuntimeState V Ref
  reads : PluginReads Json
  hasHistoryStore : Bool

structure LashRuntime (Json V Ref : Type) where
  state : RuntimeSessionState Json
  residency : Residency
  session : Option (LiveSession Json V Ref)

structure AppendSessionNodesRequest (Json : Type) where
  nodes : List (SessionNodeDraft Json)
  requiresAncestorNodeId : Option String

inductive AppendSessionNodesResult where
  | appended (nodeIds : List String) (leafNodeId : String)
  | staleBranch (currentLeafNodeId : Option String)
  deriving DecidableEq

/-- The surroundings of one call. A load, the claim of a lease or a commit may fail before it
has done anything. The blobs are what the references of a checkpoint stand for. -/
structure AppendCall (Json V Ref : Type) where
  host : TurnHost Json
  rlm : RlmHost Json V Ref
  sqlite : SqliteHost Json
  blobs : BlobRef → Option Json
  owner : LeaseOwnerIdentity
  tick : Tick
  loadFailure : Option String
  claimFailure : Option StoreError
  commitFailure : Option StoreError

def runtimeTurnLeaseTtlMs : Nat := 30 * 1000

namespace AppendCall

variable (call : AppendCall Json V Ref)

/-- The parts of a checkpoint that were written by earlier commits come from the blobs. -/
def hydrated (checkpoint : HydratedSessionCheckpoint Json) : HydratedSessionCheckpoint Json :=
  { checkpoint with
    toolState := checkpoint.toolState <|> checkpoint.toolStateRef.bind call.blobs
    pluginSnapshot := checkpoint.pluginSnapshot <|> checkpoint.pluginSnapshotRef.bind call.blobs
    executionState := checkpoint.executionState <|> checkpoint.executionStateRef.bind call.blobs }

/-- The store as it is read, with whole checkpoints. -/
def stored (db : Store Json) : Store Json :=
  { db with checkpoints := fun ref => (db.checkpoints ref).map call.hydrated }

def tryAcquire (sessionId : String) (db : Store Json) :
    Answer Json (Option SessionExecutionLease) :=
  match call.claimFailure with
  | some e => (.error e, db)
  | none =>
    match db.tryClaimSessionExecutionLease call.sqlite.toHost sessionId call.owner
        runtimeTurnLeaseTtlMs with
    | (.error e, db) => (.error e, db)
    | (.ok (.acquired lease), db) => (.ok (some lease), db)
    | (.ok (.busy holder), db) =>
      if holder.owner.isDefinitelyDeadForClaimant call.sqlite.toHost call.owner then
        match db.reclaimSessionExecutionLease call.sqlite.toHost sessionId call.owner
            holder.fence runtimeTurnLeaseTtlMs with
        | (.error e, db) => (.error e, db)
        | (.ok (.acquired lease), db) => (.ok (some lease), db)
        | (.ok (.busy _), db) => (.ok none, db)
      else (.ok none, db)

def busyMessage (sessionId : String) : String :=
  s!"session execution lease for session `{sessionId}` is busy"

def commitWithFreshSessionExecutionLease (commit : RuntimeCommit Json) (db : Store Json) :
    Answer Json (RuntimeCommitResult Json) :=
  match call.tryAcquire commit.sessionId db with
  | (.error e, db) => (.error e, db)
  | (.ok none, db) => (.error (.backend (busyMessage commit.sessionId)), db)
  | (.ok (some lease), db) =>
    match call.commitFailure with
    | some e => (.error e, db)
    | none =>
      db.commitRuntimeState call.sqlite { commit with
        sessionExecutionLease := some lease.fence
        releaseSessionExecutionLease := some lease.completion }

end AppendCall

/-! ## The call -/

/-- Whether the required ancestor is on the active path, and the state with the cache that
this was read from. -/
def activePathContains (state : RuntimeSessionState Json) (required : Option String) :
    Option (Bool × RuntimeSessionState Json) :=
  match required with
  | none => some (true, state)
  | some nodeId =>
    state.sessionGraph.activePathNodes.map fun (path, graph) =>
      (path.any (·.nodeId == nodeId), { state with sessionGraph := graph })

def stampLivePluginState (host : TurnHost Json) (session : Option (LiveSession Json V Ref))
    (state : RuntimeSessionState Json) : RuntimeSessionState Json :=
  match session with
  | some session =>
    { state with
      toolStateGeneration := some (host.toolStateGeneration session.reads.toolState)
      toolStateSnapshot := some session.reads.toolState
      pluginSnapshot := session.reads.snapshot <|> state.pluginSnapshot
      pluginSnapshotRevision := some session.reads.revision }
  | none =>
    { state with
      toolStateGeneration := none
      toolStateSnapshot := none
      pluginSnapshot := none
      pluginSnapshotRevision := none }

/-- The nodes that are found of these ids; the first look builds the cache. -/
def findNodes : List String → SessionGraph Json →
    Option (List (SessionNodeRecord Json) × SessionGraph Json)
  | [], graph => some ([], graph)
  | nodeId :: nodeIds, graph =>
    (graph.findNode nodeId).bind fun (found, graph) =>
      (findNodes nodeIds graph).map fun (nodes, graph) => (found.toList ++ nodes, graph)

def appendToPlugin (host : RlmHost Json V Ref) (nodes : List (SessionNodeDraft Json))
    (session : Option (LiveSession Json V Ref)) :
    Except String Unit × Option (LiveSession Json V Ref) :=
  match session with
  | none => (.ok (), none)
  | some session =>
    let (reply, plugin) := session.plugin.appendSessionNodes host nodes
    (reply, some { session with plugin := plugin })

/-- How far a call comes before the protocol is asked. -/
inductive Prepared (Json : Type) where
  | failed (message : String)
  | stale (found : RuntimeSessionState Json)
  | appended (found : RuntimeSessionState Json) (nodeIds : List String)
      (state : RuntimeSessionState Json)

/-- The commit of the appended nodes, and the state that it is made from. -/
structure AppendCommit (Json : Type) where
  state : RuntimeSessionState Json
  nodes : List (SessionNodeRecord Json)

def AppendCommit.commit (host : TurnHost Json) (planned : AppendCommit Json) :
    RuntimeCommit Json :=
  persistedStateWithGraphCommit host planned.state
    (.append planned.nodes planned.state.sessionGraph.leafNodeId) []

namespace LashRuntime

variable (runtime : LashRuntime Json V Ref)

def hasHistoryStore : Bool := runtime.session.any (·.hasHistoryStore)

def refreshSessionGraphFromStore (call : AppendCall Json V Ref) (db : Store Json) :
    Option (Except String (RuntimeSessionState Json)) :=
  if runtime.state.graphReplaceRequired && runtime.state.headRevision.isNone then
    some (.ok runtime.state)
  else if !runtime.hasHistoryStore then some (.ok runtime.state)
  else
    match call.loadFailure with
    | some e => some (.error s!"failed to refresh session graph from store: {e}")
    | none =>
      (runtime.state.refreshSessionGraphFromStore call.host call.tick.timestamp
        runtime.residency (call.stored db)).map .ok

def prepare (call : AppendCall Json V Ref) (request : AppendSessionNodesRequest Json)
    (db : Store Json) : Option (Prepared Json) :=
  (runtime.refreshSessionGraphFromStore call db).bind fun refreshed =>
    match refreshed with
    | .error e => some (.failed e)
    | .ok state =>
      (activePathContains state request.requiresAncestorNodeId).bind fun (current, found) =>
        if current then
          (found.appendSessionNodes call.host request.nodes call.tick).map
            fun (nodeIds, state) => .appended found nodeIds state
        else some (.stale found)

def planCommit (call : AppendCall Json V Ref) (session : Option (LiveSession Json V Ref))
    (nodeIds : List String) (state : RuntimeSessionState Json) : Option (AppendCommit Json) :=
  (findNodes nodeIds state.sessionGraph).map fun (nodes, graph) =>
    { state := { stampLivePluginState call.host session state with sessionGraph := graph }
      nodes := nodes }

/-- The state after a commit; one that fails leaves it as it was. -/
def persisted (call : AppendCall Json V Ref) (planned : AppendCommit Json) (db : Store Json) :
    RuntimeSessionState Json × Store Json :=
  match call.commitWithFreshSessionExecutionLease (planned.commit call.host) db with
  | (.ok result, db) => (planned.state.applyPersistedCommitResult call.host result, db)
  | (.error _, db) => (planned.state, db)

def appendSessionNodes (call : AppendCall Json V Ref)
    (request : AppendSessionNodesRequest Json) (db : Store Json) :
    Option (Except String AppendSessionNodesResult × LashRuntime Json V Ref × Store Json) :=
  (runtime.prepare call request db).bind fun prepared =>
    match prepared with
    | .failed message => some (.error message, runtime, db)
    | .stale found =>
      some (.ok (.staleBranch found.sessionGraph.leafNodeId),
        { runtime with state := found }, db)
    | .appended _ nodeIds state =>
      let (reply, session) := appendToPlugin call.rlm request.nodes runtime.session
      match reply with
      | .error e => some (.error e, { runtime with state := state, session := session }, db)
      | .ok () =>
        if runtime.hasHistoryStore then
          (planCommit call session nodeIds state).map fun planned =>
            let (state, db) := persisted call planned db
            (.ok (.appended nodeIds (state.sessionGraph.leafNodeId.getD "")),
              { runtime with state := state, session := session }, db)
        else
          let state := stampLivePluginState call.host session state
          some (.ok (.appended nodeIds (state.sessionGraph.leafNodeId.getD "")),
            { runtime with state := state, session := session }, db)

end LashRuntime

/-! ## All or nothing -/

def executionStateSnapshot (state : RuntimeSessionState Json) : Option Json :=
  state.currentAgentFrame.bind (·.executionStateSnapshot) <|> state.executionStateSnapshot

/-- A new plugin restores its state from the session. -/
def Restores (call : AppendCall Json V Ref) (state : RuntimeSessionState Json) : Prop :=
  ∃ model, state.readModel = some model ∧
    (RlmRuntimeState.new.restore call.rlm state.currentAgentFrameId
      (executionStateSnapshot state) model.activeEvents).1 = .ok ()

/-- A load of the session gives a path that ends with nodes of these ids, and a new plugin
restores its state from it. -/
def Shows (call : AppendCall Json V Ref) (db : Store Json) (nodeIds : List String) : Prop :=
  ∀ timestamp, ∃ loaded path,
    RuntimeSessionState.loadPersistedSessionState call.host timestamp .fullGraph
      (call.stored db) = some (some loaded) ∧
    loaded.sessionGraph.activePathNodes.map Prod.fst = some path ∧
    nodeIds <:+ path.map (·.nodeId) ∧ Restores call loaded

/-- What the protocol plugin has of globals and projected bindings. -/
def namespaceOf (runtime : LashRuntime Json V Ref) :
    Option (RlmProjectedBindings V Ref × Option (Globals V)) :=
  runtime.session.map fun session =>
    (session.plugin.sessionProjectedBindings, session.plugin.execution)

def AsBefore (before after : LashRuntime Json V Ref) : Prop :=
  after.state.sessionGraph.inner = before.state.sessionGraph.inner ∧
    namespaceOf after = namespaceOf before

/-- Whatever the call answers, it has appended everything or nothing. -/
def AllOrNothing (call : AppendCall Json V Ref) (request : AppendSessionNodesRequest Json)
    (runtime : LashRuntime Json V Ref) (db : Store Json) : Prop :=
  ∀ reply after db', runtime.appendSessionNodes call request db = some (reply, after, db') →
    match reply with
    | .ok (.appended nodeIds _) => runtime.hasHistoryStore = true → Shows call db' nodeIds
    | .ok (.staleBranch _) | .error _ => AsBefore runtime after

end NodeAppends
