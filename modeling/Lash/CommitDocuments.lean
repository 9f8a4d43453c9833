import Lash.JsonScrubs
import Lash.TurnProtocols

/-!
# The JSON of a runtime commit

The structures of a commit, each with its JSON and with what of it is not generated. A node's
id, its parent, the leaf and a time are generated, and so are the ids of messages and of their
parts. Values that hosts, tools and plugins write are of a type `J` the structures do not look
into: plugin bodies, protocol payloads, options, the tools of a tool state and the plugins of
a snapshot, and what a provider attached to a message part. `semantic` maps them too. The
stores hand frames, message parts and turn states on whole, here their fields are read.
-/

namespace CommitDocuments

open ScriptBuiltins StoreTypes SessionGraphs QueuedWork TurnInputs RuntimeCommits JsonScrubs
open TurnProtocols (PartKind PruneState)

universe u v

variable {J : Type u} {K : Type v}

abbrev text (value : String) : Option Json := some (.string value)

abbrev int (value : Int) : Option Json := some (.number (.integer value))

abbrev nat (value : Nat) : Option Json := int value

/-! ## Causes and origins -/

def causalRefJson : CausalRef → Json
  | .turn sessionId turnId =>
    record [("type", text "turn"), ("session_id", text sessionId), ("turn_id", text turnId)]
  | .effect sessionId turnId effectId =>
    record [("type", text "effect"), ("session_id", text sessionId),
      ("turn_id", turnId.map .string), ("effect_id", text effectId)]
  | .toolCall sessionId callId =>
    record [("type", text "tool_call"), ("session_id", text sessionId),
      ("call_id", text callId)]
  | .process processId => record [("type", text "process"), ("process_id", text processId)]
  | .processEvent processId sequence =>
    record [("type", text "process_event"), ("process_id", text processId),
      ("sequence", nat sequence)]
  | .triggerOccurrence occurrenceId =>
    record [("type", text "trigger_occurrence"), ("occurrence_id", text occurrenceId)]
  | .sessionNode sessionId nodeId =>
    record [("type", text "session_node"), ("session_id", text sessionId),
      ("node_id", text nodeId)]

def causalRefSemantic : CausalRef → CausalRef
  | .sessionNode sessionId _ => .sessionNode sessionId ""
  | .turn sessionId turnId => .turn sessionId turnId
  | .effect sessionId turnId effectId => .effect sessionId turnId effectId
  | .toolCall sessionId callId => .toolCall sessionId callId
  | .process processId => .process processId
  | .processEvent processId sequence => .processEvent processId sequence
  | .triggerOccurrence occurrenceId => .triggerOccurrence occurrenceId

def messageOriginJson : MessageOrigin → Json
  | .plugin pluginId transient =>
    record [("kind", text "plugin"), ("plugin_id", text pluginId),
      ("transient", if transient then some (.bool true) else none)]
  | .process processId eventType sequence wakeId causedBy =>
    record [("kind", text "process"), ("process_id", text processId),
      ("event_type", text eventType), ("sequence", nat sequence),
      ("wake_id", wakeId.map .string), ("caused_by", causedBy.map causalRefJson)]

def messageOriginSemantic : MessageOrigin → MessageOrigin
  | .plugin pluginId transient => .plugin pluginId transient
  | .process processId eventType sequence wakeId causedBy =>
    .process processId eventType sequence wakeId (causedBy.map causalRefSemantic)

/-! ## Messages -/

def messageRoleJson : MessageRole → Json
  | .user => .string "User"
  | .assistant => .string "Assistant"
  | .system => .string "System"
  | .event => .string "Event"

def partKindJson : PartKind → Json
  | .text => .string "Text"
  | .image => .string "Image"
  | .code => .string "Code"
  | .output => .string "Output"
  | .error => .string "Error"
  | .prose => .string "Prose"
  | .toolCall => .string "ToolCall"
  | .toolResult => .string "ToolResult"
  | .reasoning => .string "Reasoning"

def pruneStateJson : PruneState → Json
  | .intact => .string "Intact"
  | .cleared => .string "Cleared"
  | .deleted breadcrumb archiveHash =>
    record [("Deleted", some (record [("breadcrumb", text breadcrumb),
      ("archive_hash", text archiveHash)]))]
  | .summarized summary archiveHash =>
    record [("Summarized", some (record [("summary", text summary),
      ("archive_hash", text archiveHash)]))]

structure Part (J : Type u) where
  id : String
  kind : PartKind
  content : String
  attachment : Option J
  toolCallId : Option String
  toolName : Option String
  toolReplay : Option J
  pruneState : PruneState
  reasoningMeta : Option J
  responseMeta : Option J
  deriving DecidableEq

def Part.toJson (part : Part Json) : Json :=
  record [("id", text part.id), ("kind", some (partKindJson part.kind)),
    ("content", text part.content), ("attachment", part.attachment),
    ("tool_call_id", part.toolCallId.map .string), ("tool_name", part.toolName.map .string),
    ("tool_replay", part.toolReplay), ("prune_state", some (pruneStateJson part.pruneState)),
    ("reasoning_meta", part.reasoningMeta), ("response_meta", part.responseMeta)]

variable (slot : J → K)

def Part.semantic (part : Part J) : Part K where
  id := ""
  kind := part.kind
  content := part.content
  attachment := part.attachment.map slot
  toolCallId := part.toolCallId
  toolName := part.toolName
  toolReplay := part.toolReplay.map slot
  pruneState := part.pruneState
  reasoningMeta := part.reasoningMeta.map slot
  responseMeta := part.responseMeta.map slot

structure ConversationRecord (J : Type u) where
  id : String
  role : MessageRole
  parts : List (Part J)
  origin : Option MessageOrigin
  deriving DecidableEq

def ConversationRecord.toJson (message : ConversationRecord Json) : Json :=
  record [("id", text message.id), ("role", some (messageRoleJson message.role)),
    ("parts", some (.array (message.parts.map Part.toJson))),
    ("origin", message.origin.map messageOriginJson)]

def ConversationRecord.semantic (message : ConversationRecord J) : ConversationRecord K where
  id := ""
  role := message.role
  parts := message.parts.map (Part.semantic slot)
  origin := message.origin.map messageOriginSemantic

/-! ## The session graph -/

structure ProtocolEvent (J : Type u) where
  pluginId : String
  payload : J
  deriving DecidableEq

def ProtocolEvent.toJson (event : ProtocolEvent Json) : Json :=
  record [("plugin_id", text event.pluginId), ("payload", some event.payload)]

def ProtocolEvent.semantic (event : ProtocolEvent J) : ProtocolEvent K where
  pluginId := event.pluginId
  payload := slot event.payload

inductive SessionEventRecord (J : Type u) where
  | conversation (message : ConversationRecord J)
  | protocol (event : ProtocolEvent J)
  deriving DecidableEq

def SessionEventRecord.toJson : SessionEventRecord Json → Json
  | .conversation message => record [("Conversation", some message.toJson)]
  | .protocol event => record [("Protocol", some event.toJson)]

def SessionEventRecord.semantic : SessionEventRecord J → SessionEventRecord K
  | .conversation message => .conversation (message.semantic slot)
  | .protocol event => .protocol (event.semantic slot)

inductive SessionNodePayload (J : Type u) where
  | event (payload : SessionEventRecord J)
  | plugin (pluginType : String) (body : J)
  deriving DecidableEq

/-- The fields of the payload stand among the fields of the node. -/
def SessionNodePayload.fields : SessionNodePayload Json → List (String × Option Json)
  | .event payload => [("kind", text "event"), ("event", some payload.toJson)]
  | .plugin pluginType body =>
    [("kind", text "plugin"), ("plugin_type", text pluginType), ("body", some body)]

def SessionNodePayload.semantic : SessionNodePayload J → SessionNodePayload K
  | .event payload => .event (payload.semantic slot)
  | .plugin pluginType body => .plugin pluginType (slot body)

structure SessionNodeRecord (J : Type u) where
  nodeId : String
  parentNodeId : Option String
  causedBy : Option CausalRef
  agentFrameId : Option String
  timestamp : String
  payload : SessionNodePayload J
  deriving DecidableEq

def SessionNodeRecord.toJson (node : SessionNodeRecord Json) : Json :=
  record (node.payload.fields ++ [("node_id", text node.nodeId),
    ("parent_node_id", node.parentNodeId.map .string),
    ("caused_by", node.causedBy.map causalRefJson),
    ("agent_frame_id", node.agentFrameId.map .string), ("timestamp", text node.timestamp)])

def SessionNodeRecord.semantic (node : SessionNodeRecord J) : SessionNodeRecord K where
  nodeId := ""
  parentNodeId := none
  causedBy := node.causedBy.map causalRefSemantic
  agentFrameId := node.agentFrameId
  timestamp := ""
  payload := node.payload.semantic slot

structure SessionGraphData (J : Type u) where
  nodes : List (SessionNodeRecord J)
  leafNodeId : Option String
  deriving DecidableEq

def SessionGraphData.toJson (graph : SessionGraphData Json) : Json :=
  record [("nodes", some (.array (graph.nodes.map SessionNodeRecord.toJson))),
    ("leaf_node_id", graph.leafNodeId.map .string)]

def SessionGraphData.semantic (graph : SessionGraphData J) : SessionGraphData K where
  nodes := graph.nodes.map (SessionNodeRecord.semantic slot)
  leafNodeId := none

inductive GraphCommitDelta (J : Type u) where
  | unchanged (leafNodeId : Option String)
  | append (nodes : List (SessionNodeRecord J)) (leafNodeId : Option String)
  | replaceFull (graph : SessionGraphData J)
  deriving DecidableEq

def GraphCommitDelta.toJson : GraphCommitDelta Json → Json
  | .unchanged leafNodeId =>
    record [("Unchanged", some (record [("leaf_node_id",
      some (leafNodeId.elim .null .string))]))]
  | .append nodes leafNodeId =>
    record [("Append", some (record [
      ("nodes", some (.array (nodes.map SessionNodeRecord.toJson))),
      ("leaf_node_id", some (leafNodeId.elim .null .string))]))]
  | .replaceFull graph => record [("ReplaceFull", some graph.toJson)]

def GraphCommitDelta.semantic : GraphCommitDelta J → GraphCommitDelta K
  | .unchanged _ => .unchanged none
  | .append nodes _ => .append (nodes.map (SessionNodeRecord.semantic slot)) none
  | .replaceFull graph => .replaceFull (graph.semantic slot)

/-! ## Frames and the checkpoint -/

def agentFrameStatusJson : AgentFrameStatus → Json
  | .active => .string "active"
  | .superseded => .string "superseded"

structure ProtocolTurnOptions (J : Type u) where
  payload : J
  deriving DecidableEq

def ProtocolTurnOptions.toJson (options : ProtocolTurnOptions Json) : Json :=
  record [("payload", some options.payload)]

def ProtocolTurnOptions.semantic (options : ProtocolTurnOptions J) : ProtocolTurnOptions K where
  payload := slot options.payload

def bytesJson (bytes : List UInt8) : Json :=
  .array (bytes.map fun byte => .number (.integer byte.toNat))

structure AgentFrameRecord (J : Type u) where
  frameId : String
  sessionId : String
  previousFrameId : Option String
  status : AgentFrameStatus
  reason : String
  causedBy : Option CausalRef
  createdAt : String
  assignment : J
  protocolTurnOptions : ProtocolTurnOptions J
  executionStateRef : Option BlobRef
  executionStateSnapshot : Option (List UInt8)
  deriving DecidableEq

def AgentFrameRecord.toJson (frame : AgentFrameRecord Json) : Json :=
  record [("frame_id", text frame.frameId), ("session_id", text frame.sessionId),
    ("previous_frame_id", frame.previousFrameId.map .string),
    ("status", some (agentFrameStatusJson frame.status)), ("reason", text frame.reason),
    ("caused_by", frame.causedBy.map causalRefJson), ("created_at", text frame.createdAt),
    ("assignment", some frame.assignment),
    ("protocol_turn_options", some frame.protocolTurnOptions.toJson),
    ("execution_state_ref", frame.executionStateRef.map .string),
    ("execution_state_snapshot", frame.executionStateSnapshot.map bytesJson)]

/-- All but generated ids. The time the frame was opened is kept, `untimed` forgets it. -/
def AgentFrameRecord.semantic (frame : AgentFrameRecord J) : AgentFrameRecord K where
  frameId := frame.frameId
  sessionId := frame.sessionId
  previousFrameId := frame.previousFrameId
  status := frame.status
  reason := frame.reason
  causedBy := frame.causedBy.map causalRefSemantic
  createdAt := frame.createdAt
  assignment := slot frame.assignment
  protocolTurnOptions := frame.protocolTurnOptions.semantic slot
  executionStateRef := frame.executionStateRef
  executionStateSnapshot := frame.executionStateSnapshot

def AgentFrameRecord.untimed (frame : AgentFrameRecord J) : AgentFrameRecord J :=
  { frame with createdAt := "" }

def tokenUsageJson (usage : TokenUsage) : Json :=
  record [("input_tokens", int usage.inputTokens.toInt),
    ("output_tokens", int usage.outputTokens.toInt),
    ("cached_input_tokens", int usage.cachedInputTokens.toInt),
    ("reasoning_tokens", int usage.reasoningTokens.toInt)]

structure PromptUsage where
  promptContextTokens : Nat
  inputTokens : Nat
  cachedInputTokens : Nat
  contextBudgetTokens : Nat
  deriving DecidableEq

def PromptUsage.toJson (usage : PromptUsage) : Json :=
  record [("prompt_context_tokens", nat usage.promptContextTokens),
    ("input_tokens", nat usage.inputTokens),
    ("cached_input_tokens", nat usage.cachedInputTokens),
    ("context_budget_tokens", nat usage.contextBudgetTokens)]

structure PersistedTurnState (J : Type u) where
  turnIndex : Nat
  tokenUsage : TokenUsage
  lastPromptUsage : Option PromptUsage
  protocolTurnOptions : ProtocolTurnOptions J
  deriving DecidableEq

def PersistedTurnState.toJson (state : PersistedTurnState Json) : Json :=
  record [("turn_index", nat state.turnIndex),
    ("token_usage", some (tokenUsageJson state.tokenUsage)),
    ("last_prompt_usage", state.lastPromptUsage.map PromptUsage.toJson),
    ("protocol_turn_options", some state.protocolTurnOptions.toJson)]

def PersistedTurnState.semantic (state : PersistedTurnState J) : PersistedTurnState K where
  turnIndex := state.turnIndex
  tokenUsage := state.tokenUsage
  lastPromptUsage := state.lastPromptUsage
  protocolTurnOptions := state.protocolTurnOptions.semantic slot

/-- The tools are a map by the ids of the tools. -/
structure ToolState (J : Type u) where
  generation : Nat
  tools : J
  deriving DecidableEq

def ToolState.toJson (state : ToolState Json) : Json :=
  record [("generation", nat state.generation), ("tools", some state.tools)]

def ToolState.semantic (state : ToolState J) : ToolState K where
  generation := state.generation
  tools := slot state.tools

/-- The plugins are a map by the ids of the plugins. -/
structure PluginSessionSnapshot (J : Type u) where
  plugins : J
  deriving DecidableEq

def PluginSessionSnapshot.toJson (snapshot : PluginSessionSnapshot Json) : Json :=
  record [("plugins", some snapshot.plugins)]

def PluginSessionSnapshot.semantic (snapshot : PluginSessionSnapshot J) :
    PluginSessionSnapshot K where
  plugins := slot snapshot.plugins

structure HydratedSessionCheckpoint (J : Type u) where
  turnState : PersistedTurnState J
  toolStateRef : Option BlobRef
  toolState : Option (ToolState J)
  pluginSnapshotRef : Option BlobRef
  pluginSnapshot : Option (PluginSessionSnapshot J)
  pluginSnapshotRevision : Option Nat
  executionStateRef : Option BlobRef
  executionState : Option (List UInt8)
  deriving DecidableEq

def natJson (n : Nat) : Json := .number (.integer n)

def HydratedSessionCheckpoint.toJson (checkpoint : HydratedSessionCheckpoint Json) : Json :=
  record [("turn_state", some checkpoint.turnState.toJson),
    ("tool_state_ref", some (checkpoint.toolStateRef.elim .null .string)),
    ("tool_state", some (checkpoint.toolState.elim .null ToolState.toJson)),
    ("plugin_snapshot_ref", some (checkpoint.pluginSnapshotRef.elim .null .string)),
    ("plugin_snapshot", some (checkpoint.pluginSnapshot.elim .null PluginSessionSnapshot.toJson)),
    ("plugin_snapshot_revision", some (checkpoint.pluginSnapshotRevision.elim .null natJson)),
    ("execution_state_ref", some (checkpoint.executionStateRef.elim .null .string)),
    ("execution_state", some (checkpoint.executionState.elim .null bytesJson))]

def HydratedSessionCheckpoint.semantic (checkpoint : HydratedSessionCheckpoint J) :
    HydratedSessionCheckpoint K where
  turnState := checkpoint.turnState.semantic slot
  toolStateRef := checkpoint.toolStateRef
  toolState := checkpoint.toolState.map (ToolState.semantic slot)
  pluginSnapshotRef := checkpoint.pluginSnapshotRef
  pluginSnapshot := checkpoint.pluginSnapshot.map (PluginSessionSnapshot.semantic slot)
  pluginSnapshotRevision := checkpoint.pluginSnapshotRevision
  executionStateRef := checkpoint.executionStateRef
  executionState := checkpoint.executionState

/-! ## The commit -/

structure ModelLimits where
  contextWindowTokens : Nat
  outputTokenCapacity : Option Nat
  deriving DecidableEq

structure ModelSpec where
  id : String
  variant : Option String
  limits : ModelLimits
  deriving DecidableEq

structure PersistedSessionConfig where
  providerId : String
  model : ModelSpec
  deriving DecidableEq

def ModelLimits.toJson (limits : ModelLimits) : Json :=
  record [("context_window_tokens", nat limits.contextWindowTokens),
    ("output_token_capacity", limits.outputTokenCapacity.map natJson)]

def ModelSpec.toJson (model : ModelSpec) : Json :=
  record [("id", text model.id), ("variant", model.variant.map .string),
    ("limits", some model.limits.toJson)]

def PersistedSessionConfig.toJson (config : PersistedSessionConfig) : Json :=
  record [("provider_id", text config.providerId), ("model", some config.model.toJson)]

def tokenLedgerEntryJson (entry : TokenLedgerEntry) : Json :=
  record [("source", text entry.source), ("model", text entry.model),
    ("usage", some (tokenUsageJson entry.usage))]

def textsJson (texts : List String) : Json := .array (texts.map .string)

def queuedWorkCompletionJson (completion : QueuedWorkCompletion) : Json :=
  record [("session_id", text completion.sessionId), ("claim_id", text completion.claimId),
    ("lease_token", text completion.leaseToken),
    ("batch_ids", some (textsJson completion.batchIds))]

def turnInputCompletionJson (completion : TurnInputCompletion) : Json :=
  record [("session_id", text completion.sessionId), ("claim_id", text completion.claimId),
    ("lease_token", text completion.leaseToken),
    ("input_ids", some (textsJson completion.inputIds))]

def leaseOwnerLivenessJson : LeaseOwnerLiveness → Json
  | .localProcess hostId bootId pid processStart =>
    record [("kind", text "local_process"), ("host_id", text hostId), ("boot_id", text bootId),
      ("pid", nat pid), ("process_start", text processStart)]
  | .opaqueOwner => record [("kind", text "opaque")]

def leaseOwnerIdentityJson (owner : LeaseOwnerIdentity) : Json :=
  record [("owner_id", text owner.ownerId), ("incarnation_id", text owner.incarnationId),
    ("liveness", some (leaseOwnerLivenessJson owner.liveness))]

def sessionExecutionLeaseFenceJson (fence : SessionExecutionLeaseFence) : Json :=
  record [("session_id", text fence.sessionId),
    ("owner", some (leaseOwnerIdentityJson fence.owner)),
    ("lease_token", text fence.leaseToken), ("fencing_token", nat fence.fencingToken)]

def runtimeTurnCommitStampJson (stamp : RuntimeTurnCommitStamp) : Json :=
  record [("session_id", text stamp.sessionId), ("turn_id", text stamp.turnId),
    ("turn_commit_hash", text stamp.turnCommitHash)]

structure RuntimeCommit (J : Type u) where
  sessionId : String
  expectedHeadRevision : Option Nat
  sessionExecutionLease : Option SessionExecutionLeaseFence
  releaseSessionExecutionLease : Option SessionExecutionLeaseCompletion
  config : PersistedSessionConfig
  agentFrames : List (AgentFrameRecord J)
  currentAgentFrameId : String
  graph : GraphCommitDelta J
  checkpoint : HydratedSessionCheckpoint J
  usageDeltas : List TokenLedgerEntry
  turnCommit : Option RuntimeTurnCommitStamp
  completedQueueClaims : List QueuedWorkCompletion
  completedTurnInputClaims : List TurnInputCompletion
  interruptedTurnInputTurnId : Option String
  committedAttachmentIds : List String
  deriving DecidableEq

def RuntimeCommit.toJson (commit : RuntimeCommit Json) : Json :=
  record [("session_id", text commit.sessionId),
    ("expected_head_revision", some (commit.expectedHeadRevision.elim .null natJson)),
    ("session_execution_lease",
      commit.sessionExecutionLease.map sessionExecutionLeaseFenceJson),
    ("release_session_execution_lease",
      commit.releaseSessionExecutionLease.map sessionExecutionLeaseFenceJson),
    ("config", some commit.config.toJson),
    ("agent_frames", some (.array (commit.agentFrames.map AgentFrameRecord.toJson))),
    ("current_agent_frame_id", text commit.currentAgentFrameId),
    ("graph", some commit.graph.toJson), ("checkpoint", some commit.checkpoint.toJson),
    ("usage_deltas", some (.array (commit.usageDeltas.map tokenLedgerEntryJson))),
    ("turn_commit", some (commit.turnCommit.elim .null runtimeTurnCommitStampJson)),
    ("completed_queue_claims",
      some (.array (commit.completedQueueClaims.map queuedWorkCompletionJson))),
    ("completed_turn_input_claims",
      some (.array (commit.completedTurnInputClaims.map turnInputCompletionJson))),
    ("interrupted_turn_input_turn_id", commit.interruptedTurnInputTurnId.map .string),
    ("committed_attachment_ids", some (textsJson commit.committedAttachmentIds))]

def RuntimeCommit.semantic (commit : RuntimeCommit J) : RuntimeCommit K where
  sessionId := commit.sessionId
  expectedHeadRevision := none
  sessionExecutionLease := none
  releaseSessionExecutionLease := none
  config := commit.config
  agentFrames := commit.agentFrames.map (AgentFrameRecord.semantic slot)
  currentAgentFrameId := commit.currentAgentFrameId
  graph := commit.graph.semantic slot
  checkpoint := commit.checkpoint.semantic slot
  usageDeltas := commit.usageDeltas
  turnCommit := none
  completedQueueClaims := commit.completedQueueClaims
  completedTurnInputClaims := commit.completedTurnInputClaims
  interruptedTurnInputTurnId := commit.interruptedTurnInputTurnId
  committedAttachmentIds := commit.committedAttachmentIds

def RuntimeCommit.untimed (commit : RuntimeCommit J) : RuntimeCommit J :=
  { commit with agentFrames := commit.agentFrames.map AgentFrameRecord.untimed }

/-- What is left of a commit without generated ids, times, the revision and the leases. -/
def RuntimeCommit.content (commit : RuntimeCommit J) : RuntimeCommit J :=
  (commit.semantic id).untimed

end CommitDocuments
