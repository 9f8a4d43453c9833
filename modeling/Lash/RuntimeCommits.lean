import Lash.QueuedWork
import Lash.SessionGraphs
import Lash.TurnInputs

/-!
# Runtime commits and the session head

What a commit carries, what the stores keep of it, and the checks that both
stores make before they touch anything: the session binding, the turn-commit
ledger and the expected head revision. Configurations, agent frames, snapshots
and turn state are values of `Json`.
-/

namespace RuntimeCommits

open StoreTypes SessionGraphs QueuedWork TurnInputs

abbrev BlobRef := String

structure TokenUsage where
  inputTokens : Int64
  outputTokens : Int64
  cachedInputTokens : Int64
  reasoningTokens : Int64
  deriving DecidableEq

/-- Sums that overflow wrap around. -/
def TokenUsage.total (usage : TokenUsage) : Int64 :=
  usage.inputTokens + usage.outputTokens + usage.reasoningTokens

def TokenUsage.add (usage other : TokenUsage) : TokenUsage where
  inputTokens := usage.inputTokens + other.inputTokens
  outputTokens := usage.outputTokens + other.outputTokens
  cachedInputTokens := usage.cachedInputTokens + other.cachedInputTokens
  reasoningTokens := usage.reasoningTokens + other.reasoningTokens

structure TokenLedgerEntry where
  source : String
  model : String
  usage : TokenUsage
  deriving DecidableEq

/-- Add the entry to the row of its source and model, or append it. -/
def addLedgerEntry : List TokenLedgerEntry → TokenLedgerEntry → List TokenLedgerEntry
  | [], entry => [entry]
  | existing :: ledger, entry =>
    if existing.source = entry.source ∧ existing.model = entry.model then
      { existing with usage := existing.usage.add entry.usage } :: ledger
    else existing :: addLedgerEntry ledger entry

def mergeLedgerEntry (ledger : List TokenLedgerEntry) (entry : TokenLedgerEntry) :
    List TokenLedgerEntry :=
  if entry.usage.total = 0 ∧ entry.usage.cachedInputTokens = 0 then ledger
  else addLedgerEntry ledger entry

variable (entries : List TokenLedgerEntry)

def mergeUsageDeltaEntries : List TokenLedgerEntry :=
  entries.foldl mergeLedgerEntry []

/-- The database merges its rows by the same rule, except that it also skips an
entry whose only tokens are cached ones. -/
def mergeTokenLedgerEntries : List TokenLedgerEntry :=
  entries.foldl
    (fun ledger entry =>
      if entry.usage.total = 0 then ledger else addLedgerEntry ledger entry) []

structure SessionMeta (Json : Type) where
  sessionId : String
  record : Json
  deriving DecidableEq

structure SessionCheckpoint (Json : Type) where
  turnState : Json
  toolStateRef : Option BlobRef
  pluginSnapshotRef : Option BlobRef
  pluginSnapshotRevision : Option Nat
  executionStateRef : Option BlobRef
  deriving DecidableEq

structure HydratedSessionCheckpoint (Json : Type) where
  turnState : Json
  toolStateRef : Option BlobRef
  toolState : Option Json
  pluginSnapshotRef : Option BlobRef
  pluginSnapshot : Option Json
  pluginSnapshotRevision : Option Nat
  executionStateRef : Option BlobRef
  executionState : Option Json
  deriving DecidableEq

inductive AgentFrameStatus where
  | active | superseded
  deriving DecidableEq

structure SessionHeadMeta (Json : Type) where
  sessionId : String
  headRevision : Nat
  config : Json
  agentFrames : List Json
  currentAgentFrameId : String
  checkpointRef : Option BlobRef
  leafNodeId : Option String
  graphNodeCount : Nat
  tokenLedger : List TokenLedgerEntry
  deriving DecidableEq

inductive GraphCommitDelta (Json : Type) where
  | unchanged (leafNodeId : Option String)
  | append (nodes : List (SessionNodeRecord Json)) (leafNodeId : Option String)
  | replaceFull (graph : SessionGraph Json)

structure RuntimeTurnCommitStamp where
  sessionId : String
  turnId : String
  turnCommitHash : String
  deriving DecidableEq

structure RuntimeCommit (Json : Type) where
  sessionId : String
  expectedHeadRevision : Option Nat
  sessionExecutionLease : Option SessionExecutionLeaseFence
  releaseSessionExecutionLease : Option SessionExecutionLeaseCompletion
  config : Json
  agentFrames : List Json
  currentAgentFrameId : String
  graph : GraphCommitDelta Json
  checkpoint : HydratedSessionCheckpoint Json
  usageDeltas : List TokenLedgerEntry
  turnCommit : Option RuntimeTurnCommitStamp
  completedQueueClaims : List QueuedWorkCompletion
  completedTurnInputClaims : List TurnInputCompletion
  interruptedTurnInputTurnId : Option String

structure RuntimeCommitResult (Json : Type) where
  headRevision : Nat
  checkpointRef : BlobRef
  manifest : SessionCheckpoint Json
  deriving DecidableEq

inductive SessionReadScope where
  | fullGraph
  | activePath (leafNodeId : Option String)
  deriving DecidableEq

structure PersistedSessionRead (Json : Type) where
  sessionId : String
  headRevision : Nat
  config : Json
  agentFrames : List Json
  currentAgentFrameId : String
  graph : SessionGraph Json
  checkpointRef : Option BlobRef
  checkpoint : Option (HydratedSessionCheckpoint Json)
  tokenLedger : List TokenLedgerEntry

/-- Turn-commit hashes and results by session and turn. -/
abbrev TurnCommitLedger (Json : Type) :=
  String × String → Option (String × RuntimeCommitResult Json)

variable {Json : Type}

def GraphCommitDelta.leafNodeId : GraphCommitDelta Json → Option String
  | .unchanged leafNodeId => leafNodeId
  | .append _ leafNodeId => leafNodeId
  | .replaceFull graph => graph.leafNodeId

def HydratedSessionCheckpoint.manifest (checkpoint : HydratedSessionCheckpoint Json) :
    SessionCheckpoint Json where
  turnState := checkpoint.turnState
  toolStateRef := checkpoint.toolStateRef
  pluginSnapshotRef := checkpoint.pluginSnapshotRef
  pluginSnapshotRevision := checkpoint.pluginSnapshotRevision
  executionStateRef := checkpoint.executionStateRef

variable (stamp : RuntimeTurnCommitStamp)

def RuntimeTurnCommitStamp.key : String × String :=
  (stamp.sessionId, stamp.turnId)

def RuntimeTurnCommitStamp.conflict : StoreError :=
  .runtimeTurnCommitConflict stamp.sessionId stamp.turnId

def headRevisionOf (head : Option (SessionHeadMeta Json)) : Nat :=
  head.elim 0 (·.headRevision)

variable (commit : RuntimeCommit Json)

def RuntimeCommit.checkBinding (head : Option (SessionHeadMeta Json)) : Except StoreError Unit :=
  match head with
  | none => .ok ()
  | some head =>
    if head.sessionId ≠ commit.sessionId then
      .error (.sessionBindingMismatch head.sessionId commit.sessionId)
    else .ok ()

/-- The stored result if this turn was committed with the same hash before. -/
def RuntimeCommit.findReplay (ledger : TurnCommitLedger Json) :
    Except StoreError (Option (RuntimeCommitResult Json)) :=
  match commit.turnCommit with
  | none => .ok none
  | some completed =>
    if completed.sessionId ≠ commit.sessionId then .error completed.conflict
    else
      match ledger completed.key with
      | none => .ok none
      | some (storedHash, result) =>
        if storedHash = completed.turnCommitHash then .ok (some result)
        else .error completed.conflict

def RuntimeCommit.checkHeadRevision (actual : Nat) : Except StoreError Unit :=
  if commit.expectedHeadRevision.isSome ∧ commit.expectedHeadRevision ≠ some actual then
    .error (.headRevisionConflict commit.expectedHeadRevision actual)
  else .ok ()

def RuntimeCommit.recordTurn (result : RuntimeCommitResult Json) (ledger : TurnCommitLedger Json) :
    TurnCommitLedger Json :=
  match commit.turnCommit with
  | none => ledger
  | some completed =>
    Function.update ledger completed.key (some (completed.turnCommitHash, result))

/-- The commit of a session under a lease that writes the head and no more. -/
def RuntimeCommit.bare (sessionId : String) (lease : SessionExecutionLeaseFence) :
    RuntimeCommit Unit where
  sessionId := sessionId
  expectedHeadRevision := none
  sessionExecutionLease := some lease
  releaseSessionExecutionLease := none
  config := ()
  agentFrames := []
  currentAgentFrameId := "main"
  graph := .unchanged none
  checkpoint :=
    { turnState := ()
      toolStateRef := none
      toolState := none
      pluginSnapshotRef := none
      pluginSnapshot := none
      pluginSnapshotRevision := none
      executionStateRef := none
      executionState := none }
  usageDeltas := []
  turnCommit := none
  completedQueueClaims := []
  completedTurnInputClaims := []
  interruptedTurnInputTurnId := none

end RuntimeCommits
