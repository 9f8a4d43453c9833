import Lash.RuntimeCommits
import Lash.ToolOutputs

/-!
# The vocabulary of a turn

What a turn machine, its driver and its host say to each other: the effects a
host must fulfil, its responses, the actions a driver answers with, and the
context a driver reads. A protocol brings its own events, termination settings
and driver states; JSON values, provider requests and results of code blocks
are opaque here. Of the settings only those that the machine reads or changes
are kept; a projector closes over the others.
-/

namespace TurnProtocols

open SessionGraphs (MessageRole MessageOrigin ConversationRecord)
open TurnInputs RuntimeCommits ToolOutputs

structure TurnProtocol where
  Event : Type
  Termination : Type
  DriverState : Type
  Json : Type
  LlmRequest : Type
  ExecResponse : Type

inductive PartKind where
  | text | image | code | output | error | prose | toolCall | toolResult | reasoning
  deriving DecidableEq

inductive PruneState where
  | intact
  | cleared
  | deleted (breadcrumb archiveHash : String)
  | summarized (summary archiveHash : String)
  deriving DecidableEq

structure ProviderReplayMeta where
  itemId : Option String
  opaqueState : Option String
  deriving DecidableEq

structure ProviderReasoningReplay where
  itemId : Option String
  encryptedContent : Option String
  signature : Option String
  redacted : Bool
  summary : List String
  deriving DecidableEq

def ProviderReasoningReplay.isEmpty (replay : ProviderReasoningReplay) : Bool :=
  replay.itemId.isNone && replay.encryptedContent.isNone && replay.signature.isNone &&
    !replay.redacted && replay.summary.isEmpty

structure ResponseTextMeta where
  id : Option String
  status : Option String
  phase : Option String
  deriving DecidableEq

structure Part where
  id : String
  kind : PartKind
  content : String
  attachment : Option AttachmentRef
  toolCallId : Option String
  toolName : Option String
  toolReplay : Option ProviderReplayMeta
  pruneState : PruneState
  reasoningMeta : Option ProviderReasoningReplay
  responseMeta : Option ResponseTextMeta
  deriving DecidableEq

/-- A part that carries its content and nothing else. -/
def Part.plain (id : String) (kind : PartKind) (content : String) : Part where
  id := id
  kind := kind
  content := content
  attachment := none
  toolCallId := none
  toolName := none
  toolReplay := none
  pruneState := .intact
  reasoningMeta := none
  responseMeta := none

abbrev Message := SessionGraphs.Message Part

def partId (messageId : String) (index : Nat) : String :=
  messageId ++ ".p" ++ toString index

def reassignPartIds (messageId : String) (parts : List Part) : List Part :=
  parts.mapIdx fun index part => { part with id := partId messageId index }

structure PluginMessage where
  role : MessageRole
  content : String
  origin : Option MessageOrigin
  parts : List Part
  deriving DecidableEq

structure TurnCause where
  id : String
  eventType : String
  origin : MessageOrigin
  text : String
  deriving DecidableEq

def TurnCause.toEventMessage (cause : TurnCause) : Message where
  id := cause.id
  role := .event
  parts := [Part.plain (partId cause.id 0) .text cause.text]
  origin := some cause.origin

structure CheckpointDelivery where
  messages : List PluginMessage
  transientMessages : List PluginMessage
  turnCauses : List TurnCause
  deriving DecidableEq

def CheckpointDelivery.isEmpty (delivery : CheckpointDelivery) : Bool :=
  delivery.messages.isEmpty && delivery.transientMessages.isEmpty &&
    delivery.turnCauses.isEmpty

inductive LlmTerminalReason where
  | stop | toolUse | outputLimit | contextOverflow | contentFilter | providerError
  | cancelled | unknown
  deriving DecidableEq

def LlmTerminalReason.code : LlmTerminalReason → String
  | .stop => "stop"
  | .toolUse => "tool_use"
  | .outputLimit => "output_limit"
  | .contextOverflow => "context_overflow"
  | .contentFilter => "content_filter"
  | .providerError => "provider_error"
  | .cancelled => "cancelled"
  | .unknown => "unknown"

def LlmTerminalReason.debug : LlmTerminalReason → String
  | .stop => "Stop"
  | .toolUse => "ToolUse"
  | .outputLimit => "OutputLimit"
  | .contextOverflow => "ContextOverflow"
  | .contentFilter => "ContentFilter"
  | .providerError => "ProviderError"
  | .cancelled => "Cancelled"
  | .unknown => "Unknown"

inductive LlmOutputPart where
  | text (text : String) (responseMeta : Option ResponseTextMeta)
  | reasoning (text : String) (replay : Option ProviderReasoningReplay)
  | toolCall (callId toolName inputJson : String) (replay : Option ProviderReplayMeta)
  deriving DecidableEq

/-- Token counts of one call, by the same four names. -/
abbrev LlmUsage := TokenUsage

structure LlmResponse (M : TurnProtocol) where
  fullText : String
  parts : List LlmOutputPart
  usage : LlmUsage
  terminalReason : LlmTerminalReason
  terminalDiagnostic : Option String
  providerUsage : Option M.Json
  requestBody : Option String

structure LlmCallError where
  message : String
  retryable : Bool
  raw : Option String
  code : Option String
  terminalReason : LlmTerminalReason
  requestBody : Option String
  deriving DecidableEq

structure ErrorEnvelope where
  kind : String
  code : Option String
  terminalReason : Option LlmTerminalReason
  userMessage : String
  raw : Option String
  deriving DecidableEq

def maxRaw : Nat := 4000

def truncateRawError (s : String) : String :=
  if s.toList.length ≤ maxRaw then s
  else
    String.ofList (s.toList.take (maxRaw / 2)) ++ "\n\n... (" ++
      toString (s.toList.length - maxRaw / 2 * 2) ++ " chars omitted) ...\n\n" ++
      String.ofList (s.toList.drop (s.toList.length - maxRaw / 2))

def isWhitespace (c : Char) : Bool :=
  (9 ≤ c.toNat && c.toNat ≤ 13) || c.toNat == 0x20 || c.toNat == 0x85 || c.toNat == 0xA0 ||
    c.toNat == 0x1680 || (0x2000 ≤ c.toNat && c.toNat ≤ 0x200A) || c.toNat == 0x2028 ||
    c.toNat == 0x2029 || c.toNat == 0x202F || c.toNat == 0x205F || c.toNat == 0x3000

def trim (s : String) : String :=
  String.ofList (((s.toList.dropWhile isWhitespace).reverse.dropWhile isWhitespace).reverse)

def makeErrorEnvelope (kind : String) (code : Option String)
    (terminalReason : Option LlmTerminalReason) (userMessage : String)
    (raw : Option String) : ErrorEnvelope where
  kind := kind
  code := code
  terminalReason := terminalReason
  userMessage := userMessage
  raw := raw.map fun s => truncateRawError (trim s)

inductive TurnFinish (M : TurnProtocol) where
  | assistantMessage (text : String)
  | finalValue (value : M.Json)
  | toolValue (toolName : String) (value : M.Json)

inductive TurnStop (M : TurnProtocol) where
  | cancelled | incomplete | invalidInput | maxTurns | toolFailure | providerError
  | pluginAbort | runtimeError
  | submittedError (value : M.Json)
  | toolError (toolName : String) (value : M.Json)

inductive TurnOutcome (M : TurnProtocol) where
  | finished (finish : TurnFinish M)
  | agentFrameSwitch (frameId task : String)
  | stopped (stop : TurnStop M)

/-- The events of a session's stream. Those that neither the machine nor a
driver of this development builds are `other`. -/
inductive SessionEvent (M : TurnProtocol) where
  | textDelta (content : String)
  | toolCall (callId : Option String) (name : String) (args : M.Json)
      (output : ToolCallOutput) (durationMs : Nat)
  | llmRequest (protocolIteration messageCount : Nat) (toolList : String)
  | llmResponse (protocolIteration : Nat) (content : String) (durationMs : Nat)
  | tokenUsage (protocolIteration : Nat) (usage cumulative : TokenUsage)
  | turnOutcome (outcome : TurnOutcome M)
  | done
  | error (message : String) (envelope : Option ErrorEnvelope)
  | other (event : M.Json)

def makeErrorEvent {M : TurnProtocol} (kind : String) (code : Option String)
    (userMessage : String) (raw : Option String) : SessionEvent M :=
  .error userMessage (some (makeErrorEnvelope kind code none userMessage raw))

inductive SessionEventRecord (M : TurnProtocol) where
  | conversation (record : ConversationRecord Part)
  | protocol (event : M.Event)

/-- What the trace shows of one part of a response. -/
inductive LlmDebugPart where
  | text (text : String)
  | reasoning (id : Option String) (summary : Option (List String)) (text : String)
      (hasEncrypted redacted : Bool)
  | toolCall (callId toolName inputJson : String) (id : Option String) (hasOpaque : Bool)
  deriving DecidableEq

inductive LogEvent (M : TurnProtocol) where
  | llmDebug (sessionId : String) (protocolIteration : Nat) (usage : TokenUsage)
      (providerUsage : Option M.Json) (requestBody : Option String) (responseText : String)
      (responseParts : Option (List LlmDebugPart))
  | llmError (sessionId : String) (protocolIteration : Nat) (requestBody : Option String)
      (message : String) (retryable : Bool) (raw code : Option String)
      (terminalReason : LlmTerminalReason)

abbrev EffectId := Nat

structure PendingToolCall (M : TurnProtocol) where
  callId : String
  toolName : String
  args : M.Json
  replay : Option ProviderReplayMeta

structure CompletedToolCall (M : TurnProtocol) where
  callId : String
  toolName : String
  args : M.Json
  output : ToolCallOutput
  modelReturn : ModelToolReturn
  durationMs : Nat
  replay : Option ProviderReplayMeta

inductive Effect (M : TurnProtocol) where
  | syncExecutionEnvironment (id : EffectId) (updateMachineConfig : Bool)
  | llmCall (id : EffectId) (request : M.LlmRequest)
  | cancelLlm (id : EffectId)
  | toolCalls (id : EffectId) (calls : List (PendingToolCall M))
  | execCode (id : EffectId) (language code : String)
  | checkpoint (id : EffectId) (checkpoint : CheckpointKind)
  | log (event : LogEvent M)
  | emit (event : SessionEvent M)
  | progress (messages : List Message) (eventDelta : List (SessionEventRecord M))
      (protocolIteration : Nat)
  | done (messages : List Message) (eventDelta : List (SessionEventRecord M))
      (protocolIteration : Nat)

variable {M : TurnProtocol}

def Effect.id : Effect M → Option EffectId
  | .syncExecutionEnvironment id _ => some id
  | .llmCall id _ => some id
  | .cancelLlm id => some id
  | .toolCalls id _ => some id
  | .execCode id _ _ => some id
  | .checkpoint id _ => some id
  | .log _ => none
  | .emit _ => none
  | .progress _ _ _ => none
  | .done _ _ _ => none

structure LlmToolSpec (M : TurnProtocol) where
  name : String
  description : String
  inputSchema : M.Json
  outputSchema : M.Json

structure ExecutionEnvironmentSync (M : TurnProtocol) where
  systemPrompt : String
  toolSpecs : List (LlmToolSpec M)

inductive Response (M : TurnProtocol) where
  | executionEnvironmentSynced (id : EffectId)
      (result : Except String (Option (ExecutionEnvironmentSync M)))
  | llmComplete (id : EffectId) (result : Except LlmCallError (LlmResponse M))
      (textStreamed : Bool)
  | toolResults (id : EffectId) (results : List (CompletedToolCall M))
  | execResult (id : EffectId) (result : Except String M.ExecResponse)
  | checkpoint (id : EffectId) (delivery : CheckpointDelivery)

inductive CheckpointResumeAction (M : TurnProtocol) where
  | prepareIteration
  | finish (outcome : TurnOutcome M)

inductive DriverAction (M : TurnProtocol) where
  | emit (event : SessionEvent M)
  | appendEvents (events : List (SessionEventRecord M))
  | startLlm (request : M.LlmRequest) (driverState : Option M.DriverState)
  | startTools (calls : List (PendingToolCall M))
  | startExec (language code : String) (driverState : M.DriverState)
  | startCheckpoint (checkpoint : CheckpointKind) (onEmpty : CheckpointResumeAction M)
  | advanceProtocolIteration
  | scheduleTurnLimitFinal (message : Message)
  | finish (outcome : TurnOutcome M)

inductive MachineState (M : TurnProtocol) where
  | preparingProtocol
  | waitingExecutionEnvironment (effectId : EffectId) (updateMachineConfig : Bool)
  | prepareIteration
  | waitingLlm (effectId : EffectId) (request : M.LlmRequest)
      (driverState : Option M.DriverState)
  | waitingTools (effectId : EffectId) (calls : List (PendingToolCall M))
  | waitingExec (effectId : EffectId) (language code : String) (driverState : M.DriverState)
  | waitingCheckpoint (effectId : EffectId) (checkpoint : CheckpointKind)
      (onEmpty : CheckpointResumeAction M)
  | finished

def MachineState.outstandingEffect : MachineState M → Option (Effect M)
  | .waitingExecutionEnvironment effectId updateMachineConfig =>
    some (.syncExecutionEnvironment effectId updateMachineConfig)
  | .waitingLlm effectId request _ => some (.llmCall effectId request)
  | .waitingTools effectId calls => some (.toolCalls effectId calls)
  | .waitingExec effectId language code _ => some (.execCode effectId language code)
  | .waitingCheckpoint effectId checkpoint _ => some (.checkpoint effectId checkpoint)
  | .preparingProtocol => none
  | .prepareIteration => none
  | .finished => none

def MachineState.outstandingEffectId : MachineState M → Option EffectId
  | .waitingExecutionEnvironment effectId _ => some effectId
  | .waitingLlm effectId _ _ => some effectId
  | .waitingTools effectId _ => some effectId
  | .waitingExec effectId _ _ _ => some effectId
  | .waitingCheckpoint effectId _ _ => some effectId
  | .preparingProtocol => none
  | .prepareIteration => none
  | .finished => none

structure WaitingLlmState (M : TurnProtocol) where
  request : M.LlmRequest
  driverState : Option M.DriverState

structure WaitingExecState (M : TurnProtocol) where
  driverState : M.DriverState

structure TurnTerminationPolicyState where
  turnLimitFinalScheduled : Bool
  deriving DecidableEq

def TurnTerminationPolicyState.new : TurnTerminationPolicyState where
  turnLimitFinalScheduled := false

variable (policy : TurnTerminationPolicyState)

def TurnTerminationPolicyState.shouldForceExitAfterGraceTurn : Bool :=
  policy.turnLimitFinalScheduled

def TurnTerminationPolicyState.turnLimitFinalToSchedule (protocolIteration protocolRunOffset : Nat)
    (maxTurns : Option Nat) : Option Nat :=
  if policy.turnLimitFinalScheduled then none
  else match maxTurns with
    | none => none
    | some max => if protocolIteration < protocolRunOffset + max then none else some max

variable {policy}

theorem turnLimitFinalToSchedule_eq (open_ : policy.turnLimitFinalScheduled = false)
    (protocolIteration protocolRunOffset : Nat) (maxTurns : Option Nat) :
    policy.turnLimitFinalToSchedule protocolIteration protocolRunOffset maxTurns =
      maxTurns.filter fun max => protocolRunOffset + max ≤ protocolIteration := by
  simp only [TurnTerminationPolicyState.turnLimitFinalToSchedule, open_, Bool.false_eq_true,
    if_false]
  cases maxTurns with
  | none => rfl
  | some max =>
    by_cases h : protocolRunOffset + max ≤ protocolIteration
    · simp [h, Nat.not_lt.mpr h, Option.filter]
    · simp [h, Nat.not_le.mp h, Option.filter]

def TurnTerminationPolicyState.markTurnLimitFinalScheduled
    (_policy : TurnTerminationPolicyState) : TurnTerminationPolicyState where
  turnLimitFinalScheduled := true

structure DriverContextView (M : TurnProtocol) where
  projectLlmRequest : Bool → M.LlmRequest
  protocolIteration : Nat
  protocolRunOffset : Nat
  maxTurns : Option Nat
  termination : M.Termination
  autonomous : Bool
  policy : TurnTerminationPolicyState
  messages : List Message
  events : List (SessionEventRecord M)
  turnCauses : List TurnCause

structure ProjectorContext (M : TurnProtocol) where
  systemPrompt : String
  toolSpecs : List (LlmToolSpec M)
  messages : List Message
  events : List (SessionEventRecord M)
  turnCauses : List TurnCause
  protocolIteration : Nat
  useTools : Bool

structure ProtocolDriver (M : TurnProtocol) where
  prepareProtocolIteration : DriverContextView M → List (DriverAction M)
  handleLlmSuccess : DriverContextView M → WaitingLlmState M → LlmResponse M → Bool →
    List (DriverAction M)
  handleToolResults : DriverContextView M → List (CompletedToolCall M) →
    List (DriverAction M)
  handleExecResult : DriverContextView M → WaitingExecState M →
    Except String M.ExecResponse → List (DriverAction M)

structure TurnMachineConfig (M : TurnProtocol) where
  protocolDriver : ProtocolDriver M
  projector : ProjectorContext M → M.LlmRequest
  syncExecutionEnvironment : Bool
  maxContextTokens : Option Nat
  maxTurns : Option Nat
  autonomous : Bool
  toolSpecs : List (LlmToolSpec M)
  systemPrompt : String
  sessionId : String
  emitLlmTrace : Bool
  termination : M.Termination
  turnLimitFinalMessage : String → Nat → Message

variable (state : MachineState M)

theorem MachineState.outstandingEffect_id :
    state.outstandingEffect.bind Effect.id = state.outstandingEffectId := by
  cases state <;> rfl

theorem MachineState.outstandingEffectId_isSome :
    state.outstandingEffectId.isSome = state.outstandingEffect.isSome := by
  cases state <;> rfl

end TurnProtocols
