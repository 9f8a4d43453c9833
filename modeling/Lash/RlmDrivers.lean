import Lash.LashlangCells
import Lash.StandardDrivers

/-!
# The RLM driver

It asks the model once an iteration, runs the cell of the answer, and hands back
what the cell printed. A turn ends by prose, by the value a cell finishes with,
or by a tool, and which of these count is up to the termination of the turn. The
reading and writing of JSON, the validator of schemas and message ids come from
outside.
-/

namespace RlmDrivers

open SessionGraphs (MessageRole MessageOrigin ConversationRecord)
open ToolOutputs TurnProtocols LashlangCells
open StandardDrivers (normalizedResponseParts appendAssistantTextPart conversationEvent)

structure RlmTrajectoryEntry (Json : Type) where
  id : String
  protocolIteration : Nat
  code : String
  output : List String
  images : List AttachmentRef
  error : Option String
  finalOutput : Option Json

structure RlmGlobalsPatchPluginBody (Json : Type) where
  setDefault : List (String × Json)

structure RlmSeedPluginBody (Json : Type) where
  globals : List (String × Json)
  projected : List (String × Json)

structure RlmDiagnosticEvent (Json : Type) where
  phase : String
  payload : Json

inductive RlmProtocolEvent (Json : Type) where
  | rlmTrajectoryEntry (entry : RlmTrajectoryEntry Json)
  | rlmGlobalsPatch (patch : RlmGlobalsPatchPluginBody Json)
  | rlmSeed (seed : RlmSeedPluginBody Json)
  | rlmDiagnostic (event : RlmDiagnosticEvent Json)

inductive RlmTermination (Json : Type) where
  | finishRequired (schema : Option Json)
  | natural

structure ToolCallRecord where
  tool : String
  output : ToolCallOutput

/-- What the driver reads of the result of a code block. -/
structure ExecResponse (Json : Type) where
  observations : List String
  toolCalls : List ToolCallRecord
  printedImages : List AttachmentRef
  error : Option String
  terminalFinish : Option Json

structure RlmDriverState (Json : Type) where
  reasoning : String
  prose : String
  images : List AttachmentRef
  output : List String
  execError : Option String
  executedCode : Option String
  terminalFinish : Option Json

def RlmDriverState.default {Json : Type} : RlmDriverState Json where
  reasoning := ""
  prose := ""
  images := []
  output := []
  execError := none
  executedCode := none
  terminalFinish := none

/-- What a host of the protocol chooses: JSON, the encoded turn options and driver
states, and the requests of its provider. -/
structure RlmTypes where
  Json : Type
  Options : Type
  DriverState : Type
  LlmRequest : Type

@[reducible] def rlmProtocol (T : RlmTypes) : TurnProtocol where
  Event := RlmProtocolEvent T.Json
  Termination := T.Options
  DriverState := T.DriverState
  Json := T.Json
  LlmRequest := T.LlmRequest
  ExecResponse := ExecResponse T.Json

structure LlmExtractionCounts where
  fullTextChars : Nat
  proseChars : Nat
  codeChars : Nat
  reasoningChars : Nat
  lashlangCellCount : Nat
  deriving DecidableEq

/-- The payload of the diagnostic that says what was made of a response. -/
structure LlmExtraction where
  decision : String
  termination : String
  counts : LlmExtractionCounts
  deriving DecidableEq

/-- What the driver does not compute itself. A compiled schema answers a value with
the errors it finds, or with none if the value is valid. -/
structure RlmHost (T : RlmTypes) where
  freshMessageId : DriverContextView (rlmProtocol T) → Nat → String
  decodeRlmTerminationOptions : T.Options → Except String (RlmTermination T.Json)
  rlmDriverState : RlmDriverState T.Json → T.DriverState
  decodeRlmDriverState : T.DriverState → Except String (RlmDriverState T.Json)
  compileSchema : T.Json → Except String (T.Json → Option (List String))
  llmExtractionPayload : LlmExtraction → T.Json
  lashlangCodeMessage : String → T.Json
  toJsonValue : ToolValue → T.Json
  failureToJsonValue : ToolFailure ToolValue → T.Json

section Messages

def pluginOrigin : MessageOrigin := .plugin "rlm_protocol" false

def turnLimitFinalMessage (messageId : String) (maxTurns : Nat) : Message where
  id := messageId
  role := .system
  parts := [Part.plain (partId messageId 0) .text
    ("Turn limit reached (" ++ toString maxTurns ++ "). You MUST reply in plain prose now " ++
      "containing:\n1. Summary of what you accomplished\n2. List of remaining tasks not yet " ++
      "completed\n3. Recommended next steps\nDo NOT emit a <lashlang> block, invoke module " ++
      "operations, or call finish/control.continue_as.")]
  origin := none

variable (id : String)

def internalAssistantProseMessage (content : String) : Message where
  id := id
  role := .assistant
  parts := [Part.plain (partId id 0) .prose content]
  origin := some pluginOrigin

def reminderMessage (content : String) : Message where
  id := id
  role := .system
  parts := [Part.plain (partId id 0) .text content]
  origin := some pluginOrigin

def finishRequiredReminderMessage (requiresSchema : Bool) : Message :=
  reminderMessage id
    (if requiresSchema then
      "Deliver the final answer from a paired `<lashlang>...</lashlang>` block by calling " ++
        "`finish <value>` with a value matching the required output schema. Plain text " ++
        "before the block is recorded only as progress."
    else
      "Your prose was recorded, but this turn requires an explicit final value. Add a paired " ++
        "`<lashlang>...</lashlang>` block containing `finish <value>`. Use `finish null` only " ++
        "when null is intentional.")

def finishSchemaMismatchMessage (errorText : String) : Message :=
  reminderMessage id
    ("The `finish` value didn't match the required output schema:\n" ++ errorText ++
      "\n\nFix the value and call `finish <corrected>` from another paired " ++
      "`<lashlang>...</lashlang>` block.")

def invalidLashlangCellMessage (errorText : String) : Message :=
  reminderMessage id
    (errorText ++ "\n\nReply again using exactly one paired `<lashlang>...</lashlang>` " ++
      "block, with no text after `</lashlang>`.")

/-- The message that keeps the reasoning and the prose around a cell. -/
def assistantContentMessage (reasoning prose : String) : Option Message :=
  let parts :=
    (if trim reasoning = "" then []
      else [Part.plain (id ++ ".r") .reasoning (trim reasoning)]) ++
    (if trim prose = "" then [] else [Part.plain (id ++ ".t") .text (trim prose)])
  if parts.isEmpty then none
  else some { id := id, role := .assistant, parts := parts, origin := some pluginOrigin }

end Messages

variable {T : RlmTypes}

section Actions

def runtimeErrorActions (category code error : String) : List (DriverAction (rlmProtocol T)) :=
  [.emit (makeErrorEvent category (some code) error (some error)),
    .finish (.stopped .runtimeError)]

def invalidDriverStateActions (error : String) : List (DriverAction (rlmProtocol T)) :=
  runtimeErrorActions "rlm_driver_state" "invalid_driver_state" error

def invalidTurnOptionsActions (error : String) : List (DriverAction (rlmProtocol T)) :=
  runtimeErrorActions "rlm_turn_options" "invalid_turn_options" error

/-- The value against the schema: what is wrong with it, or with the schema. -/
def validateFinishValue (host : RlmHost T) (value schema : T.Json) : Except String Unit :=
  match host.compileSchema schema with
  | .error error => .error ("required output schema is invalid: " ++ error)
  | .ok validate =>
    match validate value with
    | some errors => .error (String.intercalate "; " errors)
    | none => .ok ()

def terminationDiagnosticName : RlmTermination T.Json → String
  | .finishRequired _ => "finish_required"
  | .natural => "natural"

def LlmExtractionCounts.proseOnly (assistantText reasoningText : String) :
    LlmExtractionCounts where
  fullTextChars := assistantText.length
  proseChars := assistantText.length
  codeChars := 0
  reasoningChars := reasoningText.length
  lashlangCellCount := 0

def LlmExtractionCounts.cell (assistantText reasoningText : String) (cell : CellExtraction) :
    LlmExtractionCounts where
  fullTextChars := assistantText.length
  proseChars := cell.prose.length
  codeChars := cell.code.length
  reasoningChars := reasoningText.length
  lashlangCellCount := cell.lashlangCellCount

def diagnosticEvent (phase : String) (payload : T.Json) :
    SessionEventRecord (rlmProtocol T) :=
  .protocol (.rlmDiagnostic { phase := phase, payload := payload })

def extractionActions (host : RlmHost T) (decision : String)
    (termination : RlmTermination T.Json) (counts : LlmExtractionCounts) :
    DriverAction (rlmProtocol T) :=
  .appendEvents [diagnosticEvent "llm_extraction"
    (host.llmExtractionPayload
      { decision := decision
        termination := terminationDiagnosticName termination
        counts := counts })]

def trajectoryEntry (protocolIteration : Nat) (state : RlmDriverState T.Json)
    (validationError : Option String) (finalOutput : Option T.Json) :
    RlmTrajectoryEntry T.Json where
  id := "lashlang_step_" ++ toString protocolIteration
  protocolIteration := protocolIteration
  code := state.executedCode.getD ""
  output := state.output
  images := state.images
  error := validationError.orElse fun _ => state.execError
  finalOutput := finalOutput

def trajectoryEvents (messageId : String) (protocolIteration : Nat)
    (state : RlmDriverState T.Json) (validationError : Option String)
    (finalOutput : Option T.Json) : List (SessionEventRecord (rlmProtocol T)) :=
  (assistantContentMessage messageId state.reasoning state.prose).toList.map conversationEvent ++
    [.protocol (.rlmTrajectoryEntry
      (trajectoryEntry protocolIteration state validationError finalOutput))]

/-- How a successful tool of the cell ends the turn by itself. -/
def terminalOutcomeFromToolResult (host : RlmHost T) (record : ToolCallRecord) :
    Option (TurnOutcome (rlmProtocol T)) :=
  if record.output.isSuccess then
    match record.output.control with
    | some (.switchAgentFrame frameId (some task)) =>
      if trim frameId ≠ "" ∧ trim task ≠ "" then some (.agentFrameSwitch frameId task)
      else none
    | some (.finish value) =>
      some (.finished (.toolValue record.tool (host.toJsonValue value)))
    | some (.fail failure) =>
      some (.stopped (.toolError record.tool (host.failureToJsonValue failure)))
    | some (.switchAgentFrame _ none) => none
    | none => none
  else none

/-- The limit, if the iteration after this one would be past it. -/
def reachedTurnLimit (ctx : DriverContextView (rlmProtocol T)) : Option Nat :=
  ctx.maxTurns.filter fun maxTurns =>
    ctx.protocolRunOffset + maxTurns ≤ ctx.protocolIteration + 1

def afterWorkCheckpoint : DriverAction (rlmProtocol T) :=
  .startCheckpoint .afterWork .prepareIteration

/-- How the turn goes on after an iteration that does not end it. -/
def continueOrStopAfterNonterminal (host : RlmHost T)
    (ctx : DriverContextView (rlmProtocol T))
    (durableEvents retryEvents : List (SessionEventRecord (rlmProtocol T))) :
    Except String (List (DriverAction (rlmProtocol T))) :=
  let advanced := (if durableEvents.isEmpty then [] else [.appendEvents durableEvents]) ++
    [.advanceProtocolIteration]
  if ctx.policy.shouldForceExitAfterGraceTurn then
    .ok (advanced ++ [.finish (.stopped .maxTurns)])
  else match reachedTurnLimit ctx with
    | some maxTurns =>
      match host.decodeRlmTerminationOptions ctx.termination with
      | .error error => .error error
      | .ok (.finishRequired _) => .ok (advanced ++ [.finish (.stopped .maxTurns)])
      | .ok .natural =>
        .ok (advanced ++
          [.scheduleTurnLimitFinal
              (turnLimitFinalMessage (host.freshMessageId ctx 2) maxTurns),
            afterWorkCheckpoint])
    | none =>
      .ok (advanced ++ (if retryEvents.isEmpty then [] else [.appendEvents retryEvents]) ++
        [afterWorkCheckpoint])

/-- The actions so far and what follows, unless the turn options cannot be read. -/
def orInvalidTurnOptions (actions : List (DriverAction (rlmProtocol T)))
    (more : Except String (List (DriverAction (rlmProtocol T)))) :
    List (DriverAction (rlmProtocol T)) :=
  match more with
  | .ok more => actions ++ more
  | .error error => invalidTurnOptionsActions error

end Actions

section Handlers

variable (host : RlmHost T)

variable (ctx : DriverContextView (rlmProtocol T))

def prepareProtocolIteration : List (DriverAction (rlmProtocol T)) :=
  match host.decodeRlmTerminationOptions ctx.termination with
  | .error error => invalidTurnOptionsActions error
  | .ok _ =>
    [.startLlm (ctx.projectLlmRequest false) (some (host.rlmDriverState .default))]

/-- The assistant's text and the reasoning of a response. -/
structure Reading where
  assistantText : String
  reasoningText : String
  deriving DecidableEq

def Reading.next (reading : Reading) : LlmOutputPart → Reading
  | .text text _ =>
    { reading with assistantText := appendAssistantTextPart reading.assistantText text }
  | .reasoning text replay =>
    let reasoning :=
      if trim text = "" then
        (replay.map fun replay => String.intercalate "\n\n" replay.summary).getD ""
      else text
    { reading with reasoningText := appendAssistantTextPart reading.reasoningText reasoning }
  | .toolCall _ _ _ _ => reading

def readResponse (llmResponse : LlmResponse (rlmProtocol T)) : Reading :=
  (normalizedResponseParts llmResponse).foldl Reading.next ⟨"", ""⟩

def emptyResponseActions : List (DriverAction (rlmProtocol T)) :=
  [.emit (makeErrorEvent "llm_provider" (some "empty_response")
      "Model returned no assistant text." none),
    .finish (.stopped .providerError)]

variable (termination : RlmTermination T.Json)

/-- The answer to a response whose cells cannot be told apart. -/
def invalidCellActions (reading : Reading) (error : CellExtractionError)
    (actions : List (DriverAction (rlmProtocol T))) : List (DriverAction (rlmProtocol T)) :=
  orInvalidTurnOptions
    (actions ++ [extractionActions host "invalid_lashlang_cell" termination
      (.proseOnly reading.assistantText reading.reasoningText)])
    (continueOrStopAfterNonterminal host ctx []
      [conversationEvent (invalidLashlangCellMessage (host.freshMessageId ctx 0) error.message)])

/-- The answer to a response without a cell: it ends a natural turn, and in a turn that
requires a value the model is reminded of it. -/
def proseActions (reading : Reading) (actions : List (DriverAction (rlmProtocol T))) :
    List (DriverAction (rlmProtocol T)) :=
  let counts := LlmExtractionCounts.proseOnly reading.assistantText reading.reasoningText
  match termination with
  | .natural =>
    actions ++
      [extractionActions host "finish_prose" termination counts,
        .startCheckpoint .beforeCompletion
          (.finish (.finished (.assistantMessage reading.assistantText)))]
  | .finishRequired schema =>
    let prose :=
      if trim reading.assistantText = "" then []
      else [conversationEvent
        (internalAssistantProseMessage (host.freshMessageId ctx 0) reading.assistantText)]
    orInvalidTurnOptions
      (actions ++ [extractionActions host "request_finish" termination counts])
      (continueOrStopAfterNonterminal host ctx []
        (prose ++ [conversationEvent
          (finishRequiredReminderMessage (host.freshMessageId ctx 1) schema.isSome)]))

variable (waiting : WaitingLlmState (rlmProtocol T))

/-- The answer to a response with a cell: the cell is run. -/
def cellActions (termination : RlmTermination T.Json) (reading : Reading) (cell : CellExtraction)
    (actions : List (DriverAction (rlmProtocol T))) : List (DriverAction (rlmProtocol T)) :=
  match waiting.driverState with
  | none => invalidDriverStateActions "missing RLM driver state"
  | some raw =>
    match host.decodeRlmDriverState raw with
    | .error error => invalidDriverStateActions error
    | .ok state =>
      let code := String.ofList cell.code
      actions ++
        [extractionActions host "execute_lashlang" termination
            (.cell reading.assistantText reading.reasoningText cell),
          .emit (.other (host.lashlangCodeMessage code)),
          .startExec "lashlang" code
            (host.rlmDriverState
              { state with
                executedCode := some code
                reasoning := reading.reasoningText
                prose := String.ofList cell.prose })]

def handleLlmSuccess (llmResponse : LlmResponse (rlmProtocol T)) (_textStreamed : Bool) :
    List (DriverAction (rlmProtocol T)) :=
  let actions : List (DriverAction (rlmProtocol T)) :=
    [.emit (.llmResponse ctx.protocolIteration llmResponse.fullText 0)]
  let reading := readResponse llmResponse
  if trim reading.assistantText = "" ∧ trim reading.reasoningText = "" then
    actions ++ emptyResponseActions
  else match host.decodeRlmTerminationOptions ctx.termination with
    | .error error => invalidTurnOptionsActions error
    | .ok termination =>
      match extractLashlangCell reading.assistantText.toList with
      | .error error => invalidCellActions host ctx termination reading error actions
      | .ok none => proseActions host ctx termination reading actions
      | .ok (some cell) => cellActions host waiting termination reading cell actions

variable (state : RlmDriverState T.Json)

/-- The driver state with the response of a code block taken in. -/
def RlmDriverState.takeResponse (response : ExecResponse T.Json) : RlmDriverState T.Json :=
  { state with
    images := state.images ++ response.printedImages
    output := state.output ++ response.observations.filter fun observation => observation ≠ ""
    execError := response.error.orElse fun _ => state.execError
    terminalFinish := response.terminalFinish.orElse fun _ => state.terminalFinish }

def completionActions (messageId : String) (state : RlmDriverState T.Json)
    (finalOutput : Option T.Json) (outcome : TurnOutcome (rlmProtocol T)) :
    List (DriverAction (rlmProtocol T)) :=
  [.appendEvents (trajectoryEvents messageId ctx.protocolIteration state none finalOutput),
    .startCheckpoint .beforeCompletion (.finish outcome)]

/-- What the schema of the turn, if it has one, says against the value. -/
def finishValueError (finishValue : T.Json) : RlmTermination T.Json → Option String
  | .finishRequired (some schema) =>
    match validateFinishValue host finishValue schema with
    | .error errorText => some errorText
    | .ok _ => none
  | _ => none

/-- The answer to a code block that finished with a value. -/
def finishActions (finishValue : T.Json) : List (DriverAction (rlmProtocol T)) :=
  match host.decodeRlmTerminationOptions ctx.termination with
  | .error error => invalidTurnOptionsActions error
  | .ok termination =>
    match finishValueError host finishValue termination with
    | some errorText =>
      orInvalidTurnOptions []
        (continueOrStopAfterNonterminal host ctx
          (trajectoryEvents (host.freshMessageId ctx 0) ctx.protocolIteration state
            (some errorText) none)
          [conversationEvent
            (finishSchemaMismatchMessage (host.freshMessageId ctx 1) errorText)])
    | none =>
      completionActions ctx (host.freshMessageId ctx 0) state (some finishValue)
        (.finished (.finalValue finishValue))

/-- The answer to a code block that no tool of it made terminal. -/
def afterExecution : List (DriverAction (rlmProtocol T)) :=
  match state.terminalFinish with
  | some finishValue => finishActions host ctx state finishValue
  | none =>
    orInvalidTurnOptions []
      (continueOrStopAfterNonterminal host ctx
        (trajectoryEvents (host.freshMessageId ctx 0) ctx.protocolIteration state none none)
        [])

def handleExecResult (waiting : WaitingExecState (rlmProtocol T))
    (result : Except String (ExecResponse T.Json)) : List (DriverAction (rlmProtocol T)) :=
  match host.decodeRlmDriverState waiting.driverState with
  | .error error => invalidDriverStateActions error
  | .ok state =>
    match result with
    | .error error => afterExecution host ctx { state with execError := some error }
    | .ok response =>
      let state := state.takeResponse response
      match response.toolCalls.findSome? (terminalOutcomeFromToolResult host) with
      | some outcome =>
        completionActions ctx (host.freshMessageId ctx 0) state none outcome
      | none => afterExecution host ctx state

def rlmDriver : ProtocolDriver (rlmProtocol T) where
  prepareProtocolIteration := prepareProtocolIteration host
  handleLlmSuccess := handleLlmSuccess host
  handleToolResults := fun _ _ => []
  handleExecResult := handleExecResult host

end Handlers

end RlmDrivers
