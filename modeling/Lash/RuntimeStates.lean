import Lash.ScriptNumbers
import Lash.SqliteStore
import Lash.TurnProtocols

/-!
# The state that a runtime keeps of its session

Beside what is written to the store the state holds snapshots that the next commit will
write, the head revision that the runtime has seen last, and a mark that the next commit has
to write the graph whole. A snapshot of the state leaves these out; a load from the store
starts without them.
-/

namespace RuntimeStates

open ScriptNumbers SessionGraphs RuntimeCommits SqliteStore
open TurnProtocols (Part)

inductive Residency where
  | keepAll | activePathOnly
  deriving DecidableEq

inductive SessionPluginSource where
  | currentHostFresh | currentSessionFork
  deriving DecidableEq

structure AgentFrameAssignment (Json : Type) where
  policy : Json
  pluginOptions : Json
  pluginSource : SessionPluginSource
  toolAccess : Json
  subagent : Option Json
  usageSource : Option String
  deriving DecidableEq

structure AgentFrameRecord (Json : Type) where
  frameId : String
  sessionId : String
  previousFrameId : Option String
  status : AgentFrameStatus
  reason : String
  causedBy : Option CausalRef
  createdAt : String
  assignment : AgentFrameAssignment Json
  protocolTurnOptions : Json
  executionStateRef : Option BlobRef
  executionStateSnapshot : Option Json
  deriving DecidableEq

structure PersistedTurnState (Json : Type) where
  turnIndex : Nat
  tokenUsage : TokenUsage
  lastPromptUsage : Option Json
  protocolTurnOptions : Json
  deriving DecidableEq

structure RuntimeSessionState (Json : Type) where
  sessionId : String
  policy : Json
  agentFrames : List (AgentFrameRecord Json)
  currentAgentFrameId : String
  sessionGraph : SessionGraph Json
  turnIndex : Nat
  tokenUsage : TokenUsage
  lastPromptUsage : Option Json
  protocolTurnOptions : Json
  toolStateRef : Option BlobRef
  toolStateGeneration : Option Nat
  toolStateSnapshot : Option Json
  pluginSnapshotRef : Option BlobRef
  pluginSnapshotRevision : Option Nat
  pluginSnapshot : Option Json
  executionStateRef : Option BlobRef
  executionStateSnapshot : Option Json
  tokenLedger : List TokenLedgerEntry
  checkpointRef : Option BlobRef
  headRevision : Option Nat
  graphReplaceRequired : Bool

structure SessionSnapshot (Json : Type) where
  sessionId : String
  policy : Json
  agentFrames : List (AgentFrameRecord Json)
  currentAgentFrameId : String
  sessionGraph : SessionGraph Json
  turnIndex : Nat
  tokenUsage : TokenUsage
  lastPromptUsage : Option Json
  protocolTurnOptions : Json
  toolStateRef : Option BlobRef
  toolStateGeneration : Option Nat
  pluginSnapshotRef : Option BlobRef
  pluginSnapshotRevision : Option Nat
  executionStateRef : Option BlobRef
  tokenLedger : List TokenLedgerEntry
  checkpointRef : Option BlobRef

/-- Defaults, JSON encodings and digests from outside. What is written as an agent frame is
read as the same frame. -/
structure TurnHost (Json : Type) where
  defaultPolicy : Json
  defaultPluginOptions : Json
  defaultToolAccess : Json
  defaultTurnOptions : Json
  configOfPolicy : Json → Json
  /-- The policy with the model and the provider of a config. -/
  applyConfig : Json → Json → Json
  /-- The policy with the provider that another policy records. -/
  withRecordedProvider : Json → Json → Json
  policyIsUnconfigured : Json → Bool
  writeFrame : AgentFrameRecord Json → Json
  readFrame : Json → Option (AgentFrameRecord Json)
  readFrame_writeFrame : ∀ frame, readFrame (writeFrame frame) = some frame
  writeTurnState : PersistedTurnState Json → Json
  readTurnState : Json → Option (PersistedTurnState Json)
  toolStateGeneration : Json → Nat
  readAppendNode : Json → Option (SessionNodeDraft Json)
  readPart : Json → Part
  writePart : Part → Json
  turnCommitHash : RuntimeCommit Json → String

/-- The clock and the random ids of one call. -/
structure Tick where
  timestamp : String
  draws : List String

/-- What a turn reads from the plugins of its session. -/
structure PluginReads (Json : Type) where
  toolGeneration : Nat
  toolState : Json
  revision : Nat
  snapshot : Option Json

variable {Json : Type}

/-! ## Agent frames -/

def AgentFrameAssignment.fromPolicy (host : TurnHost Json) (policy : Json) :
    AgentFrameAssignment Json where
  policy := policy
  pluginOptions := host.defaultPluginOptions
  pluginSource := .currentHostFresh
  toolAccess := host.defaultToolAccess
  subagent := none
  usageSource := none

def AgentFrameRecord.newAt (frameId sessionId : String) (previousFrameId : Option String)
    (reason : String) (causedBy : Option CausalRef) (assignment : AgentFrameAssignment Json)
    (protocolTurnOptions : Json) (createdAt : String) : AgentFrameRecord Json where
  frameId := frameId
  sessionId := sessionId
  previousFrameId := previousFrameId
  status := .active
  reason := reason
  causedBy := causedBy
  createdAt := createdAt
  assignment := assignment
  protocolTurnOptions := protocolTurnOptions
  executionStateRef := none
  executionStateSnapshot := none

def defaultAgentFrameId (sessionId : String) : String := s!"{sessionId}:frame:initial"

def defaultAgentFrame (host : TurnHost Json) (sessionId : String) (policy : Json)
    (timestamp : String) : AgentFrameRecord Json :=
  .newAt (defaultAgentFrameId sessionId) sessionId none "initial" none
    (.fromPolicy host policy) host.defaultTurnOptions timestamp

/-- Change the first element that satisfies `p`. -/
def modifyFirst {A : Type} (p : A → Bool) (f : A → A) : List A → List A
  | [] => []
  | a :: as => if p a then f a :: as else a :: modifyFirst p f as

namespace RuntimeSessionState

variable (state : RuntimeSessionState Json)

def currentAgentFrame : Option (AgentFrameRecord Json) :=
  state.agentFrames.find? (·.frameId == state.currentAgentFrameId)

def modifyCurrentAgentFrame (f : AgentFrameRecord Json → AgentFrameRecord Json) :
    RuntimeSessionState Json :=
  { state with
    agentFrames := modifyFirst (·.frameId == state.currentAgentFrameId) f state.agentFrames }

def currentAgentFrameIsInitial : Bool :=
  state.currentAgentFrame.elim true (·.previousFrameId.isNone)

variable (host : TurnHost Json)

variable (timestamp : String)

def ensureAgentFrameInitialized : RuntimeSessionState Json :=
  let frameId :=
    if state.currentAgentFrameId.isEmpty then defaultAgentFrameId state.sessionId
    else state.currentAgentFrameId
  if state.agentFrames.any (·.frameId == frameId) then
    { state with currentAgentFrameId := frameId }
  else
    let frame := { defaultAgentFrame host state.sessionId state.policy timestamp with
      frameId := frameId
      protocolTurnOptions := state.protocolTurnOptions
      executionStateRef := state.executionStateRef
      executionStateSnapshot := state.executionStateSnapshot }
    { state with currentAgentFrameId := frameId, agentFrames := state.agentFrames ++ [frame] }

def appendAgentFrame (frame : AgentFrameRecord Json) : RuntimeSessionState Json :=
  let previous := state.currentAgentFrameId
  let frames := state.agentFrames.map fun existing =>
    if existing.frameId = previous then { existing with status := .superseded } else existing
  let frame := { frame with
    status := .active
    previousFrameId :=
      if frame.previousFrameId.isNone && !previous.isEmpty then some previous
      else frame.previousFrameId }
  { state with
    policy := frame.assignment.policy
    protocolTurnOptions := frame.protocolTurnOptions
    currentAgentFrameId := frame.frameId
    executionStateRef := frame.executionStateRef
    executionStateSnapshot := frame.executionStateSnapshot
    agentFrames := frames ++ [frame] }

/-! ## Snapshots and commits -/

def toSnapshot : SessionSnapshot Json where
  sessionId := state.sessionId
  policy := state.policy
  agentFrames := state.agentFrames.map fun frame => { frame with executionStateSnapshot := none }
  currentAgentFrameId := state.currentAgentFrameId
  sessionGraph := state.sessionGraph
  turnIndex := state.turnIndex
  tokenUsage := state.tokenUsage
  lastPromptUsage := state.lastPromptUsage
  protocolTurnOptions := state.protocolTurnOptions
  toolStateRef := state.toolStateRef
  toolStateGeneration := state.toolStateGeneration
  pluginSnapshotRef := state.pluginSnapshotRef
  pluginSnapshotRevision := state.pluginSnapshotRevision
  executionStateRef := state.executionStateRef
  tokenLedger := state.tokenLedger
  checkpointRef := state.checkpointRef

/-- The frames are initialized before the graph and what follows it is taken over. -/
def applySnapshot (snapshot : SessionSnapshot Json) : RuntimeSessionState Json :=
  { ({ state with
      sessionId := snapshot.sessionId
      policy := snapshot.policy
      agentFrames := snapshot.agentFrames
      currentAgentFrameId := snapshot.currentAgentFrameId } :
        RuntimeSessionState Json).ensureAgentFrameInitialized host timestamp with
    sessionGraph := snapshot.sessionGraph
    turnIndex := snapshot.turnIndex
    tokenUsage := snapshot.tokenUsage
    lastPromptUsage := snapshot.lastPromptUsage
    protocolTurnOptions := snapshot.protocolTurnOptions
    toolStateRef := snapshot.toolStateRef
    toolStateGeneration := snapshot.toolStateGeneration
    pluginSnapshotRef := snapshot.pluginSnapshotRef
    pluginSnapshotRevision := snapshot.pluginSnapshotRevision
    executionStateRef := snapshot.executionStateRef
    tokenLedger := snapshot.tokenLedger
    checkpointRef := snapshot.checkpointRef }

def turnState : PersistedTurnState Json where
  turnIndex := state.turnIndex
  tokenUsage := state.tokenUsage
  lastPromptUsage := state.lastPromptUsage
  protocolTurnOptions := state.protocolTurnOptions

def applyPersistedCommitResult (result : RuntimeCommitResult Json) : RuntimeSessionState Json :=
  { (state.modifyCurrentAgentFrame fun frame => { frame with
      executionStateRef := result.manifest.executionStateRef
      executionStateSnapshot := none }) with
    headRevision := some result.headRevision
    checkpointRef := some result.checkpointRef
    toolStateRef := result.manifest.toolStateRef
    toolStateGeneration :=
      match state.toolStateSnapshot with
      | some snapshot => some (host.toolStateGeneration snapshot)
      | none => if result.manifest.toolStateRef.isNone then none else state.toolStateGeneration
    pluginSnapshotRef := result.manifest.pluginSnapshotRef
    pluginSnapshotRevision := result.manifest.pluginSnapshotRevision
    executionStateRef := result.manifest.executionStateRef
    graphReplaceRequired := false
    toolStateSnapshot := none
    pluginSnapshot := none
    executionStateSnapshot := none }

def discardRuntimeSnapshots : RuntimeSessionState Json :=
  { (state.modifyCurrentAgentFrame fun frame => { frame with executionStateSnapshot := none }) with
    toolStateSnapshot := none
    pluginSnapshot := none
    executionStateSnapshot := none }

def setExecutionStateSnapshot (snapshot : Option Json) : RuntimeSessionState Json :=
  { (state.modifyCurrentAgentFrame fun frame => { frame with
      executionStateRef := if snapshot.isNone then none else frame.executionStateRef
      executionStateSnapshot := snapshot }) with
    executionStateRef := if snapshot.isNone then none else state.executionStateRef
    executionStateSnapshot := snapshot }

/-- A snapshot of the plugins that cannot be taken leaves the one before. -/
def refreshPluginSnapshots (plugins : PluginReads Json) : RuntimeSessionState Json :=
  let stale := state.toolStateRef.isNone || state.toolStateGeneration != some plugins.toolGeneration
  let changed := state.pluginSnapshotRef.isNone ||
    state.pluginSnapshotRevision != some plugins.revision
  { state with
    toolStateGeneration :=
      if stale then some (host.toolStateGeneration plugins.toolState)
      else state.toolStateGeneration
    toolStateSnapshot := if stale then some plugins.toolState else state.toolStateSnapshot
    pluginSnapshot := if changed then plugins.snapshot <|> state.pluginSnapshot
      else state.pluginSnapshot
    pluginSnapshotRevision := some plugins.revision }

/-! ## The graph of a state -/

/-- Heal an orphaned leaf; the healed graph has to be written whole. -/
def normalizeSessionGraph : Option (RuntimeSessionState Json) :=
  state.sessionGraph.healOrphanedLeaf.map fun (healed, graph) =>
    { state with
      sessionGraph := graph
      graphReplaceRequired := healed || state.graphReplaceRequired }

def readModel : Option (SessionReadModel Json) :=
  (state.sessionGraph.readModelForAgentFrame state.currentAgentFrameId
    state.currentAgentFrameIsInitial).map Prod.fst

def appendActiveConversationMessages (messages : List (Message Json)) (tick : Tick) :
    Option (RuntimeSessionState Json) :=
  (state.sessionGraph.appendActiveConversationMessagesScopedAt (some state.currentAgentFrameId)
    messages tick.timestamp tick.draws).map ({ state with sessionGraph := · })

/-- The ids of the new nodes, and the state with them. -/
def appendSessionNodes (drafts : List (SessionNodeDraft Json)) (tick : Tick) :
    Option (List String × RuntimeSessionState Json) := do
  let state := state.ensureAgentFrameInitialized host tick.timestamp
  let (nodeIds, graph) ← state.sessionGraph.appendNodeDraftsScopedAt
    (some state.currentAgentFrameId) drafts tick.timestamp tick.draws
  let state ← { state with sessionGraph := graph }.normalizeSessionGraph
  some (nodeIds, state)

/-- Open a frame under the current one, unless it is the current one. -/
def openAgentFrame (frameId reason : String) (initialNodes : List (SessionNodeDraft Json))
    (causedBy : Option CausalRef) (tick : Tick) : Option (RuntimeSessionState Json) :=
  let state := state.ensureAgentFrameInitialized host tick.timestamp
  if (trimText frameId).isEmpty || state.currentAgentFrameId == frameId then some state
  else
    let previous := state.currentAgentFrame
    let state := state.appendAgentFrame (.newAt frameId state.sessionId
      (previous.map (·.frameId)) reason causedBy
      (previous.elim (.fromPolicy host state.policy) (·.assignment))
      (previous.elim state.protocolTurnOptions (·.protocolTurnOptions)) tick.timestamp)
    (state.appendSessionNodes host initialNodes tick).map fun (nodeIds, state) =>
      if nodeIds.isEmpty then state else { state with graphReplaceRequired := true }

/-! ## Loading -/

def effectivePolicy : Json := state.currentAgentFrame.elim state.policy (·.assignment.policy)

def effectiveProtocolTurnOptions : Json :=
  state.currentAgentFrame.elim state.protocolTurnOptions (·.protocolTurnOptions)

def default (timestamp : String) : RuntimeSessionState Json where
  sessionId := "root"
  policy := host.defaultPolicy
  agentFrames := [defaultAgentFrame host "root" host.defaultPolicy timestamp]
  currentAgentFrameId := defaultAgentFrameId "root"
  sessionGraph := SessionGraph.default
  turnIndex := 0
  tokenUsage := ⟨0, 0, 0, 0⟩
  lastPromptUsage := none
  protocolTurnOptions := host.defaultTurnOptions
  toolStateRef := none
  toolStateGeneration := none
  toolStateSnapshot := none
  pluginSnapshotRef := none
  pluginSnapshotRevision := none
  pluginSnapshot := none
  executionStateRef := none
  executionStateSnapshot := none
  tokenLedger := []
  checkpointRef := none
  headRevision := none
  graphReplaceRequired := false

/-- The references and snapshots of a checkpoint, and its turn state if that can be read. -/
def applyCheckpoint (checkpoint : HydratedSessionCheckpoint Json) : RuntimeSessionState Json :=
  let turnState := (host.readTurnState checkpoint.turnState).getD state.turnState
  { state with
    turnIndex := turnState.turnIndex
    tokenUsage := turnState.tokenUsage
    lastPromptUsage := turnState.lastPromptUsage
    protocolTurnOptions := turnState.protocolTurnOptions
    toolStateRef := checkpoint.toolStateRef
    toolStateGeneration := checkpoint.toolState.map host.toolStateGeneration
    toolStateSnapshot := checkpoint.toolState
    pluginSnapshotRef := checkpoint.pluginSnapshotRef
    pluginSnapshotRevision := checkpoint.pluginSnapshotRevision
    pluginSnapshot := checkpoint.pluginSnapshot
    executionStateRef := checkpoint.executionStateRef
    executionStateSnapshot := checkpoint.executionState }

variable (read : PersistedSessionRead Json)

def persistedSessionStateFromRead : RuntimeSessionState Json :=
  let state : RuntimeSessionState Json :=
    { RuntimeSessionState.default host timestamp with
      sessionId := read.sessionId
      policy := host.applyConfig read.config host.defaultPolicy
      agentFrames := read.agentFrames.filterMap host.readFrame
      currentAgentFrameId := read.currentAgentFrameId
      sessionGraph := read.graph
      tokenLedger := read.tokenLedger
      checkpointRef := read.checkpointRef
      headRevision := some read.headRevision }
  (read.checkpoint.elim state (state.applyCheckpoint host)).ensureAgentFrameInitialized host
    timestamp

/-- `none` if the read does not end, `some none` before the first commit. -/
def loadPersistedSessionState (scope : SessionReadScope) (db : Store Json) :
    Option (Option (RuntimeSessionState Json)) :=
  (db.loadSession scope).map (·.map (persistedSessionStateFromRead host timestamp))

variable (residency : Residency)

/-- An empty active path is healed from the whole graph, which the next commit writes. -/
def loadPersistedStateForResidency (db : Store Json) : Option (Option (RuntimeSessionState Json)) :=
  match residency with
  | .keepAll => loadPersistedSessionState host timestamp .fullGraph db
  | .activePathOnly =>
    (loadPersistedSessionState host timestamp (.activePath none) db).bind fun active =>
      if active.any (·.sessionGraph.nodes.isEmpty) then
        (loadPersistedSessionState host timestamp .fullGraph db).map
          (·.map ({ · with graphReplaceRequired := true }))
      else some active

/-- The state of a session that is opened; a session that was never committed starts afresh. -/
def loadStateForResidency (sessionId : String) (policy : Json) (db : Store Json) :
    Option (RuntimeSessionState Json) :=
  (loadPersistedStateForResidency host timestamp residency db).bind fun loaded =>
    let state := loaded.getD
      { RuntimeSessionState.default host timestamp with sessionId := sessionId, policy := policy }
    if state.sessionId ≠ sessionId then none
    else some { state with policy := host.withRecordedProvider policy state.policy }

def applyResidencyOnLoad : Option (RuntimeSessionState Json) :=
  match residency with
  | .keepAll => some state
  | .activePathOnly =>
    state.sessionGraph.forkCurrentPath.map fun (path, _) => { state with sessionGraph := path }

def withSessionId (freshSessionId : String) : RuntimeSessionState Json :=
  if state.sessionId.isEmpty then { state with sessionId := freshSessionId } else state

variable (policy : Json)

def withPolicy : RuntimeSessionState Json :=
  if host.policyIsUnconfigured state.policy then { state with policy := policy } else state

/-- The current frame takes the policy of the state if it has none, and then gives its own. -/
def withFramePolicy : RuntimeSessionState Json :=
  let state := state.modifyCurrentAgentFrame fun frame =>
    if host.policyIsUnconfigured frame.assignment.policy then
      { frame with assignment := { frame.assignment with policy := state.policy } }
    else frame
  { state with
    policy := state.effectivePolicy
    protocolTurnOptions := state.effectiveProtocolTurnOptions }

def fromHostState (freshSessionId timestamp : String) : Option (RuntimeSessionState Json) :=
  let state := (state.withSessionId freshSessionId).withPolicy host policy
  let state := (state.ensureAgentFrameInitialized host timestamp).withFramePolicy host
  state.normalizeSessionGraph.map discardRuntimeSnapshots

/-- A graph is healed before it is trimmed to what stays resident. -/
def assemble (freshSessionId timestamp : String) : Option (RuntimeSessionState Json) :=
  (state.normalizeSessionGraph.bind (·.applyResidencyOnLoad residency)).bind
    (·.fromHostState host policy freshSessionId timestamp)

/-! ## Refreshing -/

def applySessionHead : RuntimeSessionState Json :=
  { ({ state with
      sessionGraph := read.graph
      agentFrames := read.agentFrames.filterMap host.readFrame
      currentAgentFrameId := read.currentAgentFrameId
      checkpointRef := read.checkpointRef
      tokenLedger := mergeUsageDeltaEntries read.tokenLedger
      toolStateRef := none
      toolStateGeneration := none
      toolStateSnapshot := none
      pluginSnapshotRef := none
      pluginSnapshotRevision := none
      pluginSnapshot := none
      executionStateRef := none
      executionStateSnapshot := none } :
        RuntimeSessionState Json).ensureAgentFrameInitialized host timestamp with
    headRevision := some read.headRevision
    graphReplaceRequired := false
    policy := host.applyConfig read.config state.policy }

def applySessionCheckpoint (checkpoint : Option (HydratedSessionCheckpoint Json)) :
    RuntimeSessionState Json :=
  match checkpoint with
  | none =>
    { state with
      toolStateRef := none
      toolStateGeneration := none
      toolStateSnapshot := none
      pluginSnapshotRef := none
      pluginSnapshotRevision := none
      pluginSnapshot := none
      executionStateRef := none
      executionStateSnapshot := none }.ensureAgentFrameInitialized host timestamp
  | some checkpoint =>
    ({ state.applyCheckpoint host checkpoint with executionStateSnapshot := none }
      |>.ensureAgentFrameInitialized host timestamp).modifyCurrentAgentFrame fun frame =>
        { frame with
          executionStateRef := checkpoint.executionStateRef
          executionStateSnapshot := checkpoint.executionState }

/-- A fresh session that will replace the graph does not take the old head over. -/
def refreshSessionGraphFromStore (db : Store Json) : Option (RuntimeSessionState Json) :=
  if state.graphReplaceRequired && state.headRevision.isNone then some state
  else
    let scope :=
      match residency with
      | .keepAll => .fullGraph
      | .activePathOnly => .activePath state.sessionGraph.leafNodeId
    (db.loadSession scope).map fun loaded =>
      match loaded with
      | none => state
      | some read =>
        if state.headRevision ≠ some read.headRevision ∨
            read.graph.leafNodeId ≠ state.sessionGraph.leafNodeId ∨
            read.checkpointRef ≠ state.checkpointRef then
          (state.applySessionHead host timestamp read).applySessionCheckpoint host timestamp
            read.checkpoint
        else state

end RuntimeSessionState

end RuntimeStates
