import Lash.RuntimeStates
import Lash.ToolPairing
import Lash.TurnGraphEditors

/-!
# Turn boundaries

While a turn runs a draft edits the graph and may commit its progress; at the end the draft
becomes the final state, the hooks of the plugins have their say and one last commit is made.
Each of these commits decides for itself whether it appends nodes or replaces the graph. An
operation that reads a graph whose walk to the root does not end gives `none`.
-/

namespace TurnBoundaries

open ScriptNumbers StoreTypes SessionGraphs QueuedWork TurnInputs RuntimeCommits
open TurnGraphEditors SqliteStore RuntimeStates
open TurnProtocols (Part PartKind)
open SessionEventRecord (protocolEvent)

variable {Json : Type}

/-! ## Drafts -/

/-- The messages after the current ones, if these come first, id by id. -/
def preservedDelta : List (Message Json) → List (Message Json) → Option (List (Message Json))
  | [], next => some next
  | _ :: _, [] => none
  | current :: rest, message :: next =>
    if current.id ≠ message.id then none else preservedDelta rest next

def messageDeltaIfCurrentPreserved (editor : TurnGraphEditor Json)
    (next : List (Message Json)) : Option (List (Message Json)) :=
  preservedDelta editor.activeMessages (next.filter fun message => !message.isTransient)

/-- The state of a draft has no graph: the editor holds it. -/
structure TurnCommitDraft (Json : Type) where
  graph : TurnGraphEditor Json
  state : RuntimeSessionState Json

namespace TurnCommitDraft

def fromState (state : RuntimeSessionState Json) : Option (TurnCommitDraft Json) :=
  (TurnGraphEditor.fromState state.sessionGraph state.currentAgentFrameId
      state.currentAgentFrameIsInitial).map fun graph =>
    { graph := graph, state := { state with sessionGraph := SessionGraph.default } }

variable (draft : TurnCommitDraft Json)

def applyMessageProjection (messages : List (Message Json)) (tick : Tick) :
    Option (TurnCommitDraft Json) :=
  match messageDeltaIfCurrentPreserved draft.graph messages with
  | some appended =>
    (draft.graph.appendActiveConversationMessages appended tick.timestamp tick.draws).map
      ({ draft with graph := · })
  | none =>
    (draft.graph.replaceActiveReadState messages tick.timestamp).map
      ({ draft with graph := · })

def appendEvents (events : List (SessionEventRecord Json)) (tick : Tick) :
    Option (TurnCommitDraft Json) :=
  (draft.graph.appendEvents events tick.timestamp tick.draws).map ({ draft with graph := · })

/-- A cancelled turn without messages keeps what it shows. -/
def finalizeTurnReadState (newMessages : List (Message Json)) (cancelled : Bool) (tick : Tick) :
    Option (TurnCommitDraft Json) :=
  draft.applyMessageProjection
    (if newMessages.isEmpty && cancelled then draft.graph.activeMessages else newMessages) tick

def intoFinalState : RuntimeSessionState Json :=
  { draft.state with sessionGraph := draft.graph.intoSessionGraph }

def graphCommit (graphReplaceRequired : Bool) : GraphCommitDelta Json :=
  draft.graph.graphCommit graphReplaceRequired

def markPersisted (graph : GraphCommitDelta Json) : TurnCommitDraft Json :=
  { draft with
    graph :=
      match graph with
      | .unchanged _ => draft.graph
      | .append nodes _ => draft.graph.markNodeIdsPersisted (nodes.map (·.nodeId))
      | .replaceFull graph => draft.graph.replacePersistedNodeIds (graph.nodes.map (·.nodeId)) }

end TurnCommitDraft

/-! ## Commits -/

inductive TurnCommitStage (Json : Type) where
  | drafting (draft : TurnCommitDraft Json)
  | finalized (state : RuntimeSessionState Json) (progressGraphCommit : GraphCommitDelta Json)

structure TurnBoundary (Json : Type) where
  stage : TurnCommitStage Json
  sessionExecutionLease : Option SessionExecutionLeaseFence

/-- What a boundary adds to the state that it commits. -/
structure CommitRequest (Json : Type) where
  graph : GraphCommitDelta Json
  usageDeltas : List TokenLedgerEntry
  turnId : Option String
  completedQueueClaims : List QueuedWorkCompletion
  completedTurnInputClaims : List TurnInputCompletion
  interruptedTurnInputTurnId : Option String
  releaseSessionExecutionLease : Option SessionExecutionLeaseCompletion

/-- A commit of the graph alone. -/
def CommitRequest.progress (graph : GraphCommitDelta Json) : CommitRequest Json where
  graph := graph
  usageDeltas := []
  turnId := none
  completedQueueClaims := []
  completedTurnInputClaims := []
  interruptedTurnInputTurnId := none
  releaseSessionExecutionLease := none

/-- The store that a boundary writes to, which may fail before it has done anything. -/
structure StoreCall (Json : Type) where
  host : SqliteHost Json
  failure : Option StoreError

def StoreCall.commitRuntimeState (call : StoreCall Json) (commit : RuntimeCommit Json)
    (db : Store Json) : Answer Json (RuntimeCommitResult Json) :=
  match call.failure with
  | some e => (.error e, db)
  | none => db.commitRuntimeState call.host commit

variable (host : TurnHost Json)

def buildCheckpointFromPersistedState (state : RuntimeSessionState Json) :
    HydratedSessionCheckpoint Json where
  turnState := host.writeTurnState state.turnState
  toolStateRef := state.toolStateRef
  toolState := state.toolStateSnapshot
  pluginSnapshotRef := state.pluginSnapshotRef
  pluginSnapshotRevision := state.pluginSnapshotRevision
  pluginSnapshot := state.pluginSnapshot
  executionStateRef := state.executionStateRef
  executionState := state.executionStateSnapshot

def persistedStateWithGraphCommit (state : RuntimeSessionState Json) (graph : GraphCommitDelta Json)
    (usageDeltas : List TokenLedgerEntry) : RuntimeCommit Json where
  sessionId := state.sessionId
  expectedHeadRevision := state.headRevision
  sessionExecutionLease := none
  releaseSessionExecutionLease := none
  config := host.configOfPolicy state.policy
  agentFrames := state.agentFrames.map host.writeFrame
  currentAgentFrameId := state.currentAgentFrameId
  graph := graph
  checkpoint := buildCheckpointFromPersistedState host state
  usageDeltas := usageDeltas
  turnCommit := none
  completedQueueClaims := []
  completedTurnInputClaims := []
  interruptedTurnInputTurnId := none

namespace TurnBoundary

def fromState (state : RuntimeSessionState Json) (lease : Option SessionExecutionLeaseFence) :
    Option (TurnBoundary Json) :=
  (TurnCommitDraft.fromState state).map fun draft =>
    { stage := .drafting draft, sessionExecutionLease := lease }

variable (boundary : TurnBoundary Json)

def state : RuntimeSessionState Json :=
  match boundary.stage with
  | .drafting draft => draft.state
  | .finalized state _ => state

def modifyState (f : RuntimeSessionState Json → RuntimeSessionState Json) : TurnBoundary Json :=
  { boundary with
    stage :=
      match boundary.stage with
      | .drafting draft => .drafting { draft with state := f draft.state }
      | .finalized state progressGraphCommit => .finalized (f state) progressGraphCommit }

/-- Once the state is final there is no draft. -/
def modifyDraft (f : TurnCommitDraft Json → Option (TurnCommitDraft Json)) :
    Option (TurnBoundary Json) :=
  match boundary.stage with
  | .drafting draft => (f draft).map fun draft => { boundary with stage := .drafting draft }
  | .finalized _ _ => none

def intoFinalState : RuntimeSessionState Json :=
  match boundary.stage with
  | .drafting draft => draft.intoFinalState
  | .finalized state _ => state

/-- The delta that would commit the progress so far is kept beside the final state. -/
def finalized : TurnBoundary Json :=
  { boundary with
    stage :=
      match boundary.stage with
      | .drafting draft =>
        .finalized draft.intoFinalState (draft.graphCommit draft.state.graphReplaceRequired)
      | .finalized state progressGraphCommit => .finalized state progressGraphCommit }

/-- The hash of a turn commit is taken before its stamp is set. -/
def commitOf (host : TurnHost Json) (request : CommitRequest Json) : RuntimeCommit Json :=
  let commit := { persistedStateWithGraphCommit host boundary.state request.graph
      request.usageDeltas with
    sessionExecutionLease := boundary.sessionExecutionLease
    releaseSessionExecutionLease := request.releaseSessionExecutionLease
    completedQueueClaims := request.completedQueueClaims
    completedTurnInputClaims := request.completedTurnInputClaims
    interruptedTurnInputTurnId := request.interruptedTurnInputTurnId }
  { commit with
    turnCommit := request.turnId.map fun turnId =>
      ⟨commit.sessionId, turnId, host.turnCommitHash commit⟩ }

/-- The boundary after a commit of `graph` that the store has answered. -/
def committed (host : TurnHost Json) (graph : GraphCommitDelta Json)
    (result : RuntimeCommitResult Json) : TurnBoundary Json :=
  let after := boundary.modifyState (·.applyPersistedCommitResult host result)
  { after with
    stage :=
      match after.stage with
      | .drafting draft => .drafting (draft.markPersisted graph)
      | .finalized state progressGraphCommit => .finalized state progressGraphCommit }

def applyCommit (host : TurnHost Json) (call : StoreCall Json) (request : CommitRequest Json)
    (db : Store Json) : Except StoreError Unit × TurnBoundary Json × Store Json :=
  match call.commitRuntimeState (boundary.commitOf host request) db with
  | (.error e, db) => (.error e, boundary, db)
  | (.ok result, db) => (.ok (), boundary.committed host request.graph result, db)

/-- The delta of the progress so far. -/
def progressGraphCommit : GraphCommitDelta Json :=
  match boundary.stage with
  | .drafting draft => draft.graphCommit draft.state.graphReplaceRequired
  | .finalized _ progressGraphCommit => progressGraphCommit

def commitProgressGraph (host : TurnHost Json) (call : StoreCall Json) (db : Store Json) :
    Except StoreError Unit × TurnBoundary Json × Store Json :=
  boundary.applyCommit host call (.progress boundary.progressGraphCommit) db

end TurnBoundary

/-! ## Progress boundaries -/

variable (message : Message Json)

/-- The messages as they are shown to a model. -/
def readMessage : TurnProtocols.Message where
  id := message.id
  role := message.role
  parts := message.parts.map host.readPart
  origin := message.origin

def messagesArePromptResumeSafe (messages : List (Message Json)) : Bool :=
  ToolPairing.messagesArePromptResumeSafe (messages.map (readMessage host))

/-- What a boundary takes from the live session: a dirty execution state and the plugins. -/
structure SessionReads (Json : Type) where
  executionStateSnapshot : Option (Option Json)
  plugins : Option (PluginReads Json)

def refreshedState (policy : Json) (turnIndex : Nat) (reads : SessionReads Json)
    (state : RuntimeSessionState Json) : RuntimeSessionState Json :=
  let state := { state with policy := policy, turnIndex := turnIndex }
  let state := reads.executionStateSnapshot.elim state state.setExecutionStateSnapshot
  reads.plugins.elim state (state.refreshPluginSnapshots host)

structure PreparedCheckpoint (Json : Type) where
  store : Option (StoreCall Json)
  policy : Json
  turnIndex : Nat
  messages : List (Message Json)
  reads : SessionReads Json
  tick : Tick

structure ProgressBoundary (Json : Type) where
  store : Option (StoreCall Json)
  policy : Json
  turnIndex : Nat
  messages : List (Message Json)
  messageTick : Tick
  eventDelta : List (SessionEventRecord Json)
  eventTick : Tick
  reads : SessionReads Json

structure ProgressBoundaryCommit (Json : Type) where
  protocolEvents : List (ProtocolEvent Json)
  persisted : Bool

namespace TurnBoundary

variable (boundary : TurnBoundary Json)

def applyEventDelta (eventDelta : List (SessionEventRecord Json)) (tick : Tick) :
    Option (TurnBoundary Json) :=
  boundary.modifyDraft (·.appendEvents eventDelta tick)

/-- Without a store the messages are taken over and nothing else is. -/
def preparedCheckpoint (host : TurnHost Json) (input : PreparedCheckpoint Json)
    (db : Store Json) : Option (Except StoreError Unit × TurnBoundary Json × Store Json) :=
  if !messagesArePromptResumeSafe host input.messages then some (.ok (), boundary, db)
  else
    (boundary.modifyDraft (·.applyMessageProjection input.messages input.tick)).map fun prepared =>
      match input.store with
      | none => (.ok (), prepared, db)
      | some call =>
        (prepared.modifyState
          (refreshedState host input.policy input.turnIndex input.reads)).commitProgressGraph
          host call db

/-- The draft after the events and messages of a boundary. -/
def progressed (host : TurnHost Json) (input : ProgressBoundary Json) :
    Option (TurnBoundary Json) := do
  let boundary ← boundary.applyEventDelta input.eventDelta input.eventTick
  let boundary ← boundary.modifyDraft (·.applyMessageProjection input.messages input.messageTick)
  some (boundary.modifyState (refreshedState host input.policy input.turnIndex input.reads))

/-- A lost lease ends the turn; any other failure leaves the progress to the next boundary. -/
def progressBoundaryWithSnapshot (host : TurnHost Json) (input : ProgressBoundary Json)
    (db : Store Json) :
    Option (Except StoreError (ProgressBoundaryCommit Json) × TurnBoundary Json × Store Json) :=
  if !messagesArePromptResumeSafe host input.messages then some (.ok ⟨[], false⟩, boundary, db)
  else
    let protocolEvents := input.eventDelta.filterMap protocolEvent
    (boundary.progressed host input).map fun progressed =>
      match input.store with
      | none => (.ok ⟨protocolEvents, false⟩, progressed, db)
      | some call =>
        match progressed.commitProgressGraph host call db with
        | (.ok (), committed, db) => (.ok ⟨protocolEvents, true⟩, committed, db)
        | (.error (.sessionExecutionLeaseExpired sessionId), committed, db) =>
          (.error (.sessionExecutionLeaseExpired sessionId), committed, db)
        | (.error _, committed, db) => (.ok ⟨protocolEvents, false⟩, committed, db)

end TurnBoundary

/-! ## The final commit -/

inductive TurnFinish (Json : Type) where
  | assistantMessage (text : String)
  | finalValue (value : Json)
  | toolValue (toolName : String) (value : Json)

inductive TurnOutcome (Json : Type) where
  | finished (finish : TurnFinish Json)
  | agentFrameSwitch (frameId task : String)
  | stopped (stop : Json)

inductive ToolControl (Json : Type) where
  | switchAgentFrame (frameId : String) (initialNodes : List Json) (task : Option String)
  | finish (value : Json)
  | fail (failure : Json)

def messageRenderedText : String :=
  String.join (((readMessage host message).parts.filter fun part =>
    part.kind = .prose || part.kind = .text || part.kind = .image ||
      part.kind = .toolResult).map (·.content))

/-- The message of the assistant that carries the output of a turn. -/
def terminalMessage (id text : String) : Message Json where
  id := id
  role := .assistant
  parts := [host.writePart (.plain s!"{id}.p0" .prose text)]
  origin := none

variable (outcome : TurnOutcome Json)

/-- An output that the last message already shows is not written again. -/
def materializeTerminalOutput (tick : Tick) (state : RuntimeSessionState Json) :
    Option (RuntimeSessionState Json) :=
  match outcome with
  | .finished (.assistantMessage text) =>
    state.readModel.bind fun readModel =>
      if (readModel.messages.reverse.find? fun message => !message.isTransient).any
          fun message => message.role = .assistant && messageRenderedText host message = text then
        some state
      else
        (freshNodeId "m" tick.draws).bind fun (id, draws) =>
          (state.appendActiveConversationMessages [terminalMessage host id text]
            { tick with draws := draws }).map ({ · with graphReplaceRequired := true })
  | _ => some state

variable (toolCalls : List (Option (ToolControl Json)))

/-- The nodes that the first switch to this frame among the tool calls brings. -/
def initialNodes (frameId : String) : List Json :=
  (toolCalls.findSome? fun control =>
    match control with
    | some (.switchAgentFrame controlFrameId nodes _) =>
      if controlFrameId = frameId then some nodes else none
    | _ => none).getD []

def materializeAgentFrameSwitch (tick : Tick) (state : RuntimeSessionState Json) :
    Option (RuntimeSessionState Json) :=
  match outcome with
  | .agentFrameSwitch frameId _ =>
    if (trimText frameId).isEmpty || state.currentAgentFrameId == frameId then some state
    else
      state.openAgentFrame host frameId "continue_as"
        ((initialNodes toolCalls frameId).filterMap host.readAppendNode) none tick
  | _ => some state

/-- A graph that the progress commits have written whole, and one for which there was nothing
to write, is replaced. -/
def finalGraphCommit (state : RuntimeSessionState Json)
    (progressGraphCommit : GraphCommitDelta Json) : GraphCommitDelta Json :=
  if state.graphReplaceRequired then .replaceFull state.sessionGraph
  else
    match state.headRevision, progressGraphCommit with
    | none, .append nodes leafNodeId =>
      if state.sessionGraph.nodes.isEmpty then .replaceFull (.fromNodes nodes leafNodeId)
      else .replaceFull state.sessionGraph
    | none, _ => .replaceFull state.sessionGraph
    | some _, .unchanged leafNodeId =>
      if state.sessionGraph.nodes.isEmpty then .unchanged leafNodeId
      else .replaceFull state.sessionGraph
    | some _, graph => graph

structure FinalCommitInput (Json : Type) where
  toolCalls : List (Option (ToolControl Json))
  reads : SessionReads Json
  store : Option (StoreCall Json)
  usageDeltas : List TokenLedgerEntry
  outcome : TurnOutcome Json
  turnId : Option String
  completedQueueClaims : List QueuedWorkCompletion
  completedTurnInputClaims : List TurnInputCompletion
  interruptedTurnInputTurnId : Option String
  releaseSessionExecutionLease : Option SessionExecutionLeaseCompletion
  tick : Tick
  messageTick : Tick
  nodeTick : Tick

def FinalCommitInput.request (input : FinalCommitInput Json) (graph : GraphCommitDelta Json) :
    CommitRequest Json where
  graph := graph
  usageDeltas := input.usageDeltas
  turnId := input.turnId
  completedQueueClaims := input.completedQueueClaims
  completedTurnInputClaims := input.completedTurnInputClaims
  interruptedTurnInputTurnId := input.interruptedTurnInputTurnId
  releaseSessionExecutionLease := input.releaseSessionExecutionLease

/-- The state that the final commit writes. -/
def finalState (input : FinalCommitInput Json) (returnedState : SessionSnapshot Json)
    (state : RuntimeSessionState Json) : Option (RuntimeSessionState Json) :=
  let state := state.applySnapshot host input.tick.timestamp returnedState
  let state := { state with
    tokenLedger := input.usageDeltas.foldl mergeLedgerEntry state.tokenLedger }
  let state := input.reads.plugins.elim state (state.refreshPluginSnapshots host)
  let state := input.reads.executionStateSnapshot.elim state state.setExecutionStateSnapshot
  (materializeTerminalOutput host input.outcome input.messageTick state).bind
    (materializeAgentFrameSwitch host input.outcome input.toolCalls input.nodeTick)

namespace TurnBoundary

variable (boundary : TurnBoundary Json)

def finalCommitWithSnapshots (host : TurnHost Json) (input : FinalCommitInput Json)
    (returnedState : SessionSnapshot Json) (db : Store Json) :
    Option (Except StoreError Unit × TurnBoundary Json × Store Json) :=
  let boundary := boundary.finalized
  (finalState host input returnedState boundary.state).map fun state =>
    let boundary := boundary.modifyState fun _ => state
    match input.store with
    | none => (.ok (), boundary.modifyState (·.discardRuntimeSnapshots), db)
    | some call =>
      boundary.applyCommit host call
        (input.request (finalGraphCommit state boundary.progressGraphCommit)) db

end TurnBoundary

/-- The turn that is returned carries the state after the commit. -/
structure TurnFinishInput (Json : Type) extends FinalCommitInput Json where
  policy : Json
  turnIndex : Nat
  newMessages : List (Message Json)
  cancelled : Bool
  readTick : Tick
  tokenUsage : Option TokenUsage
  lastPromptUsage : Option Json
  /-- What the after-turn hooks of the plugins enqueue. -/
  enqueued : Option (List (Message Json))
  hookTick : Tick

variable (snapshot : SessionSnapshot Json)

def SessionSnapshot.readModel : Option (SessionReadModel Json) :=
  let initial := (snapshot.agentFrames.find? (·.frameId == snapshot.currentAgentFrameId)).elim
    true (·.previousFrameId.isNone)
  (snapshot.sessionGraph.readModelForAgentFrame snapshot.currentAgentFrameId initial).map Prod.fst

def SessionSnapshot.replaceActiveReadState (messages : List (Message Json)) (tick : Tick) :
    Option (SessionSnapshot Json) :=
  (snapshot.sessionGraph.replaceActiveReadStateScoped (some snapshot.currentAgentFrameId)
    messages tick.timestamp).map ({ snapshot with sessionGraph := · })

/-- Messages that a hook enqueues come after those that the snapshot shows. -/
def finalizeTurn (enqueued : Option (List (Message Json))) (tick : Tick)
    (snapshot : SessionSnapshot Json) : Option (SessionSnapshot Json) :=
  match enqueued with
  | none => some snapshot
  | some messages =>
    (SessionSnapshot.readModel snapshot).bind fun readModel =>
      SessionSnapshot.replaceActiveReadState snapshot (readModel.messages ++ messages) tick

variable (input : TurnFinishInput Json)

/-- The draft at the end of a turn, before it becomes the final state. -/
def TurnBoundary.readFinalized (boundary : TurnBoundary Json) : Option (TurnBoundary Json) :=
  let boundary := boundary.modifyState fun state =>
    { state with policy := input.policy, turnIndex := input.turnIndex }
  (boundary.modifyDraft
      (·.finalizeTurnReadState input.newMessages input.cancelled input.readTick)).map
    (·.modifyState fun state => { state with
      tokenUsage := input.tokenUsage.getD state.tokenUsage
      lastPromptUsage := input.lastPromptUsage })

/-- The boundary after the final commit, and what the turn returns if it was accepted. -/
def TurnBoundary.finishTurn (boundary : TurnBoundary Json) (db : Store Json) :
    Option (Except StoreError (SessionSnapshot Json) × TurnBoundary Json × Store Json) := do
  let boundary := (← boundary.readFinalized input).finalized
  let returnedState ← finalizeTurn input.enqueued input.hookTick boundary.state.toSnapshot
  let (answer, boundary, db) ←
    boundary.finalCommitWithSnapshots host input.toFinalCommitInput returnedState db
  some (answer.map fun () => boundary.state.toSnapshot, boundary, db)

/-! ## One operation on a boundary -/

inductive BoundaryOp (Json : Type) where
  | applyEventDelta (eventDelta : List (SessionEventRecord Json)) (tick : Tick)
  | recordUsage (tokenUsage : TokenUsage) (lastPromptUsage : Option Json)
  | preparedCheckpoint (input : PreparedCheckpoint Json)
  | progressBoundary (input : ProgressBoundary Json)
  | finishTurn (input : TurnFinishInput Json)

inductive BoundaryReply (Json : Type) where
  | done (answer : Except StoreError Unit)
  | progress (answer : Except StoreError (ProgressBoundaryCommit Json))
  | finished (answer : Except StoreError (SessionSnapshot Json))

/-- The stream of a turn reports its usage as it goes. -/
def TurnBoundary.recordUsage (tokenUsage : TokenUsage) (lastPromptUsage : Option Json)
    (boundary : TurnBoundary Json) : TurnBoundary Json :=
  boundary.modifyState fun state =>
    { state with tokenUsage := tokenUsage, lastPromptUsage := lastPromptUsage }

def BoundaryOp.apply (boundary : TurnBoundary Json) (db : Store Json) :
    BoundaryOp Json → Option (BoundaryReply Json × TurnBoundary Json × Store Json)
  | .applyEventDelta eventDelta tick =>
    (boundary.applyEventDelta eventDelta tick).map (.done (.ok ()), ·, db)
  | .recordUsage tokenUsage lastPromptUsage =>
    some (.done (.ok ()), boundary.recordUsage tokenUsage lastPromptUsage, db)
  | .preparedCheckpoint input =>
    (boundary.preparedCheckpoint host input db).map (·.map .done id)
  | .progressBoundary input =>
    (boundary.progressBoundaryWithSnapshot host input db).map (·.map .progress id)
  | .finishTurn input => (boundary.finishTurn host input db).map (·.map .finished id)

/-- The commit that an operation is about to make: the boundary and the call it makes. -/
structure PlannedCommit (Json : Type) where
  boundary : TurnBoundary Json
  call : StoreCall Json
  request : CommitRequest Json

def PlannedCommit.commit (planned : PlannedCommit Json) : RuntimeCommit Json :=
  planned.boundary.commitOf host planned.request

/-- The boundary whose state a final commit writes, and the delta of the progress before. -/
def TurnBoundary.assembled (boundary : TurnBoundary Json) : Option (TurnBoundary Json) := do
  let boundary := (← boundary.readFinalized input).finalized
  let returnedState ← finalizeTurn input.enqueued input.hookTick boundary.state.toSnapshot
  let state ← finalState host input.toFinalCommitInput returnedState boundary.state
  some (boundary.modifyState fun _ => state)

/-- What an operation commits, if it commits anything. -/
def BoundaryOp.plan (boundary : TurnBoundary Json) : BoundaryOp Json → Option (PlannedCommit Json)
  | .applyEventDelta _ _ => none
  | .recordUsage _ _ => none
  | .preparedCheckpoint input => do
      guard (messagesArePromptResumeSafe host input.messages)
      let call ← input.store
      let prepared ← boundary.modifyDraft (·.applyMessageProjection input.messages input.tick)
      let prepared := prepared.modifyState
        (refreshedState host input.policy input.turnIndex input.reads)
      some ⟨prepared, call, .progress prepared.progressGraphCommit⟩
  | .progressBoundary input => do
      guard (messagesArePromptResumeSafe host input.messages)
      let call ← input.store
      let progressed ← boundary.progressed host input
      some ⟨progressed, call, .progress progressed.progressGraphCommit⟩
  | .finishTurn input => do
      let call ← input.store
      let assembled ← boundary.assembled host input
      some ⟨assembled, call, input.request
        (finalGraphCommit assembled.state assembled.progressGraphCommit)⟩

/-! ## A plain host -/

/-- Values among which frames can be written. -/
inductive Value where
  | null
  | frame (record : AgentFrameRecord Value)

def Value.frame? : Value → Option (AgentFrameRecord Value)
  | .null => none
  | .frame record => some record

/-- A host without settings, whose parts and snapshots are all the same. -/
def hostOf {V : Type} (null : V) (frame : AgentFrameRecord V → V)
    (frame? : V → Option (AgentFrameRecord V)) (frame?_frame : ∀ record, frame? (frame record) =
      some record) : TurnHost V where
  defaultPolicy := null
  defaultPluginOptions := null
  defaultToolAccess := null
  defaultTurnOptions := null
  configOfPolicy policy := policy
  applyConfig config _ := config
  withRecordedProvider policy _ := policy
  policyIsUnconfigured _ := false
  writeFrame := frame
  readFrame := frame?
  readFrame_writeFrame := frame?_frame
  writeTurnState _ := null
  readTurnState _ := none
  toolStateGeneration _ := 0
  readAppendNode _ := none
  readPart _ := .plain "p" .text ""
  writePart _ := null
  turnCommitHash _ := "hash"

def plainHost : TurnHost Value := hostOf .null .frame Value.frame? fun _ => rfl

end TurnBoundaries
