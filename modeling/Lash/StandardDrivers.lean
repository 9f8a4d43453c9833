import Lash.EffectOrder

/-!
# The standard driver

It asks the model once an iteration, runs the tools the model calls, and hands
their answers back in a message of the user. Message ids, the reading of JSON
and the JSON of a tool's value come from outside.
-/

namespace StandardDrivers

open SessionGraphs (ConversationRecord)
open ToolOutputs TurnProtocols

variable {M : TurnProtocol}

/-- What the driver does not compute itself. A message id is fresh by the context
and by how many were taken there before. -/
structure DriverHost (M : TurnProtocol) where
  freshMessageId : DriverContextView M → Nat → String
  fromStr : String → Option M.Json
  emptyObject : M.Json
  toJsonValue : ToolValue → M.Json
  failureToJsonValue : ToolFailure ToolValue → M.Json

structure StandardToolCall where
  callId : String
  toolName : String
  inputJson : String
  replay : Option ProviderReplayMeta

/-- A reasoning item, with the index of the tool call it preceded. -/
structure ReasoningItem where
  toolIndex : Nat
  replay : Option ProviderReasoningReplay
  text : String

def lastMessageHasToolResult (ctx : DriverContextView M) : Bool :=
  ctx.messages.getLast?.any fun message =>
    message.role == .user && message.parts.any fun part => part.kind == .toolResult

def normalizedResponseParts (llmResponse : LlmResponse M) : List LlmOutputPart :=
  if llmResponse.parts.isEmpty ∧ llmResponse.fullText ≠ "" then
    [.text llmResponse.fullText none]
  else llmResponse.parts

variable (asstId : String)

variable (index : Nat)

def reasoningPart (item : ReasoningItem) : Part :=
  { Part.plain (partId asstId index) .reasoning item.text with reasoningMeta := item.replay }

def prosePart (content : String) (responseMeta : Option ResponseTextMeta) : Part :=
  { Part.plain (partId asstId index) .prose content with responseMeta := responseMeta }

def toolCallPart (call : StandardToolCall) : Part :=
  { Part.plain (partId asstId index) .toolCall call.inputJson with
    toolCallId := some call.callId
    toolName := some call.toolName
    toolReplay := call.replay }

variable (out : String)

def boundaryNewlines (next : String) : Nat :=
  (out.toList.reverse.takeWhile (· = '\n')).length + (next.toList.takeWhile (· = '\n')).length

/-- What `appendAssistantTextPart` adds: the text, set off by a blank line. -/
def addedText (next : String) : String :=
  if out = "" then next
  else String.ofList (List.replicate (2 - boundaryNewlines out next) '\n') ++ next

def appendAssistantTextPart (next : String) : String := out ++ addedText out next

/-- What the driver has read of a response so far. -/
structure Reading (M : TurnProtocol) where
  assistantText : String
  assistantTextParts : List (String × Option ResponseTextMeta)
  toolCalls : List StandardToolCall
  reasoningItems : List ReasoningItem
  actions : List (DriverAction M)

def Reading.empty : Reading M where
  assistantText := ""
  assistantTextParts := []
  toolCalls := []
  reasoningItems := []
  actions := []

variable (textStreamed : Bool)

def Reading.next (reading : Reading M) : LlmOutputPart → Reading M
  | .text text responseMeta =>
    if text = "" then reading
    else
      { reading with
        assistantText := appendAssistantTextPart reading.assistantText text
        assistantTextParts := reading.assistantTextParts ++
          [(addedText reading.assistantText text, responseMeta)]
        actions :=
          if textStreamed then reading.actions
          else reading.actions ++
            [.emit (.textDelta (addedText reading.assistantText text))] }
  | .reasoning text replay =>
    if trim text = "" ∧ replay.all ProviderReasoningReplay.isEmpty then reading
    else
      { reading with
        reasoningItems := reading.reasoningItems ++
          [⟨reading.toolCalls.length, replay, trim text⟩] }
  | .toolCall callId toolName inputJson replay =>
    { reading with
      toolCalls := reading.toolCalls ++ [⟨callId, toolName, inputJson, replay⟩] }

def readResponse (llmResponse : LlmResponse M) : Reading M :=
  (normalizedResponseParts llmResponse).foldl (Reading.next textStreamed) .empty

variable (parts : List Part)

/-- The pieces of text that are not blank, as parts behind those there are. -/
def pushProseParts (texts : List (String × Option ResponseTextMeta)) : List Part :=
  texts.foldl (fun parts text =>
    if trim text.1 = "" then parts
    else parts ++ [prosePart asstId parts.length text.1 text.2]) parts

def pushReasoningParts (items : List ReasoningItem) : List Part :=
  items.foldl (fun parts item => parts ++ [reasoningPart asstId parts.length item]) parts

/-- The tool calls from `toolIndex` on, each behind the reasoning it followed. -/
def pushToolCallParts (asstId : String) :
    Nat → List StandardToolCall → List ReasoningItem → List Part → List Part
  | _, [], items, parts => pushReasoningParts asstId parts items
  | toolIndex, call :: calls, items, parts =>
    let before := items.takeWhile fun item => item.toolIndex ≤ toolIndex
    let later := items.dropWhile fun item => item.toolIndex ≤ toolIndex
    let parts := pushReasoningParts asstId parts before
    pushToolCallParts asstId (toolIndex + 1) calls later
      (parts ++ [toolCallPart asstId parts.length call])

def conversationEvent (message : Message) : SessionEventRecord M :=
  .conversation (ConversationRecord.fromMessage message)

def turnLimitExhaustedMessage (messageId : String) (maxTurns : Nat) : Message where
  id := messageId
  role := .system
  parts := [Part.plain (partId messageId 0) .error
    ("Turn limit reached (" ++ toString maxTurns ++ ") before a final assistant response.")]
  origin := none

def emptyResponseActions : List (DriverAction M) :=
  [.emit (makeErrorEvent "llm_provider" (some "empty_response")
      "Model returned no assistant text or tool calls." none),
    .finish (.stopped .providerError)]

def completionCheckpoint (text : String) : DriverAction M :=
  .startCheckpoint .beforeCompletion (.finish (.finished (.assistantMessage text)))

variable (host : DriverHost M)

/-- The answer to a response without tool calls. The parts it builds decide only
whether the response counts as empty. -/
def completionActions (ctx : DriverContextView M) (reading : Reading M) : List (DriverAction M) :=
  if trim reading.assistantText = "" ∧ reading.reasoningItems.isEmpty then
    if lastMessageHasToolResult ctx then [completionCheckpoint ""] else emptyResponseActions
  else
    let asstId := host.freshMessageId ctx 0
    let partsOut := pushProseParts asstId (pushReasoningParts asstId [] reading.reasoningItems)
      reading.assistantTextParts
    if partsOut.isEmpty then emptyResponseActions
    else [completionCheckpoint reading.assistantText]

variable (reading : Reading M)

def assistantParts : List Part :=
  pushToolCallParts asstId 0 reading.toolCalls reading.reasoningItems
    (pushProseParts asstId [] reading.assistantTextParts)

def assistantMessage : Message where
  id := asstId
  role := .assistant
  parts := assistantParts asstId reading
  origin := none

def pendingToolCall (call : StandardToolCall) : PendingToolCall M where
  callId := call.callId
  toolName := call.toolName
  args := (host.fromStr call.inputJson).getD host.emptyObject
  replay := call.replay

def toolCallActions (ctx : DriverContextView M) (reading : Reading M) : List (DriverAction M) :=
  let asstId := host.freshMessageId ctx 0
  (if (assistantParts asstId reading).isEmpty then []
    else [.appendEvents [conversationEvent (assistantMessage asstId reading)]]) ++
    [.startTools (reading.toolCalls.map (pendingToolCall host))]

def handleLlmSuccess (ctx : DriverContextView M) (_waiting : WaitingLlmState M)
    (llmResponse : LlmResponse M) (textStreamed : Bool) : List (DriverAction M) :=
  let reading := readResponse textStreamed llmResponse
  reading.actions ++
    [.emit (.llmResponse ctx.protocolIteration reading.assistantText 0)] ++
    if reading.toolCalls.isEmpty then completionActions host ctx reading
    else toolCallActions host ctx reading

def prepareProtocolIteration (ctx : DriverContextView M) : List (DriverAction M) :=
  [.startLlm (ctx.projectLlmRequest true) none]

/-- How a successful tool ends the turn by itself. -/
def controlOutcome (outcome : CompletedToolCall M) : Option (TurnOutcome M) :=
  match outcome.output.control with
  | some (.switchAgentFrame frameId (some task)) =>
    if trim frameId ≠ "" ∧ trim task ≠ "" then some (.agentFrameSwitch frameId task) else none
  | some (.finish value) =>
    some (.finished (.toolValue outcome.toolName (host.toJsonValue value)))
  | some (.fail failure) =>
    some (.stopped (.toolError outcome.toolName (host.failureToJsonValue failure)))
  | _ => none

variable (completed : List (CompletedToolCall M))

/-- The first of the successful calls that ends the turn decides how. -/
def terminalOutcome : Option (TurnOutcome M) :=
  completed.findSome? fun outcome =>
    if outcome.output.isSuccess then controlOutcome host outcome else none

def modelReturnPart (modelReturn : ModelToolReturn) : ModelToolReturnPart → Option Part
  | .text text =>
    if text = "" then none
    else some
      { Part.plain "" .toolResult text with
        toolCallId := some modelReturn.callId
        toolName := some modelReturn.toolName }
  | .attachment reference =>
    some
      { Part.plain "" .image "" with
        attachment := some reference
        toolCallId := some modelReturn.callId
        toolName := some modelReturn.toolName }

def appendModelReturnParts (modelReturn : ModelToolReturn) : List Part :=
  parts ++ modelReturn.parts.filterMap (modelReturnPart modelReturn)

def resultParts : List Part :=
  completed.foldl (fun parts outcome => appendModelReturnParts parts outcome.modelReturn) []

def resultMessage (userId : String) (completed : List (CompletedToolCall M)) : Message where
  id := userId
  role := .user
  parts := reassignPartIds userId (resultParts completed)
  origin := none

/-- The message that carries the results, if there is anything to carry. -/
def resultMessages (userId : String) (completed : List (CompletedToolCall M)) : List Message :=
  if (resultParts completed).isEmpty then [] else [resultMessage userId completed]

/-- The limit, if the iteration after this one would be past it. -/
def turnsExhausted (ctx : DriverContextView M) : Option Nat :=
  ctx.maxTurns.filter fun maxTurns =>
    ctx.protocolRunOffset + maxTurns ≤ ctx.protocolIteration + 1

theorem turnsExhausted_congr {ctx ctx' : DriverContextView M}
    (limit : ctx'.maxTurns = ctx.maxTurns) (offset : ctx'.protocolRunOffset = ctx.protocolRunOffset)
    (iteration : ctx'.protocolIteration = ctx.protocolIteration) :
    turnsExhausted ctx' = turnsExhausted ctx := by
  unfold turnsExhausted
  rw [limit, offset, iteration]

/-- How the turn goes on after tools that do not end it. -/
def advanceActions (ctx : DriverContextView M) : List (DriverAction M) :=
  .advanceProtocolIteration ::
    match turnsExhausted ctx with
    | some maxTurns =>
      [.appendEvents
          [conversationEvent (turnLimitExhaustedMessage (host.freshMessageId ctx 1) maxTurns)],
        .finish (.stopped .maxTurns)]
    | none => [.startCheckpoint .afterWork .prepareIteration]

def afterResults (ctx : DriverContextView M) (completed : List (CompletedToolCall M)) :
    List (DriverAction M) :=
  match terminalOutcome host completed with
  | some outcome => [.finish outcome]
  | none => advanceActions host ctx

def handleToolResults (ctx : DriverContextView M) (completed : List (CompletedToolCall M)) :
    List (DriverAction M) :=
  (resultMessages (host.freshMessageId ctx 0) completed).map
      (fun message => .appendEvents [conversationEvent message]) ++
    afterResults host ctx completed

def standardDriver : ProtocolDriver M where
  prepareProtocolIteration := prepareProtocolIteration
  handleLlmSuccess := handleLlmSuccess host
  handleToolResults := handleToolResults host
  handleExecResult := fun _ _ _ => []

/-- The settings of a session that runs on the standard driver. -/
structure Standard (host : DriverHost M) (config : TurnMachineConfig M) : Prop where
  driver : config.protocolDriver = standardDriver host
  notice : config.turnLimitFinalMessage = turnLimitExhaustedMessage

/-- A part without its id and what is kept for a provider. -/
def outline (part : Part) : PartKind × Option String × String :=
  (part.kind, part.toolCallId, part.content)

/-- The parts but for the reasoning, which takes no part in pairing and is no prose. -/
def outlines : List (PartKind × Option String × String) :=
  (parts.filter fun part => part.kind != .reasoning).map outline

@[simp] theorem outlines_append (first second : List Part) :
    outlines (first ++ second) = outlines first ++ outlines second := by
  simp [outlines]

/-- The pieces of the assistant's text that are not blank. -/
def prosePieces : List String :=
  (reading.assistantTextParts.map Prod.fst).filter fun text => trim text ≠ ""

theorem outlines_pushReasoningParts (items : List ReasoningItem) :
    outlines (pushReasoningParts asstId parts items) = outlines parts := by
  unfold pushReasoningParts
  induction items generalizing parts with
  | nil => rfl
  | cons item items ih =>
    rw [List.foldl_cons, ih, outlines_append]
    simp [outlines, reasoningPart, Part.plain]

theorem outlines_pushProseParts (texts : List (String × Option ResponseTextMeta)) :
    outlines (pushProseParts asstId parts texts) = outlines parts ++
        ((texts.map Prod.fst).filter fun text => trim text ≠ "").map fun text =>
          (.prose, none, text) := by
  unfold pushProseParts
  induction texts generalizing parts with
  | nil => simp
  | cons text texts ih =>
    rw [List.foldl_cons]
    split
    · rename_i hblank
      rw [ih]
      simp [hblank]
    · rename_i htext
      rw [ih, outlines_append]
      simp [htext, outlines, outline, prosePart, Part.plain]

theorem outlines_pushToolCallParts (toolIndex : Nat) (calls : List StandardToolCall)
    (items : List ReasoningItem) (parts : List Part) :
    outlines (pushToolCallParts asstId toolIndex calls items parts) =
      outlines parts ++ calls.map fun call => (.toolCall, some call.callId, call.inputJson) := by
  induction calls generalizing toolIndex items parts with
  | nil => simp [pushToolCallParts, outlines_pushReasoningParts]
  | cons call calls ih =>
    simp only [pushToolCallParts]
    rw [ih, outlines_append, outlines_pushReasoningParts]
    simp [outlines, outline, toolCallPart, Part.plain]

/-- The message of a response that calls tools: its prose, then its calls. -/
theorem outlines_assistantParts : outlines (assistantParts asstId reading) =
      (prosePieces reading).map (fun text => (.prose, none, text)) ++
        reading.toolCalls.map fun call => (.toolCall, some call.callId, call.inputJson) := by
  unfold assistantParts
  rw [outlines_pushToolCallParts, outlines_pushProseParts]
  simp [outlines, prosePieces]

theorem assistantParts_ne_nil {reading : Reading M} (called : reading.toolCalls ≠ [])
    (asstId : String) : assistantParts asstId reading ≠ [] := by
  intro hnil
  have houtlines := outlines_assistantParts asstId reading
  rw [hnil] at houtlines
  have hcalls := (List.append_eq_nil_iff.mp houtlines.symm).2
  exact called (List.map_eq_nil_iff.mp hcalls)

theorem completionActions_cases (ctx : DriverContextView M) (reading : Reading M) :
    completionActions host ctx reading = emptyResponseActions ∨
      ∃ text, completionActions host ctx reading = [completionCheckpoint text] := by
  simp only [completionActions]
  split
  · split
    · exact .inr ⟨"", rfl⟩
    · exact .inl rfl
  · split
    · exact .inl rfl
    · exact .inr ⟨reading.assistantText, rfl⟩

theorem toolCallActions_eq (ctx : DriverContextView M) {reading : Reading M}
    (called : reading.toolCalls ≠ []) :
    toolCallActions host ctx reading =
      [.appendEvents [conversationEvent (assistantMessage (host.freshMessageId ctx 0) reading)],
        .startTools (reading.toolCalls.map (pendingToolCall host))] := by
  have hparts := assistantParts_ne_nil called (host.freshMessageId ctx 0)
  simp [toolCallActions, hparts]

/-- The events a reading emits come first and change nothing. -/
theorem readResponse_emits (response : LlmResponse M) :
    ∃ events : List (SessionEvent M),
      (readResponse textStreamed response).actions = events.map .emit := by
  have hnext (reading : Reading M) (part : LlmOutputPart)
      (h : ∃ events : List (SessionEvent M), reading.actions = events.map .emit) :
      ∃ events : List (SessionEvent M),
        (reading.next textStreamed part).actions = events.map .emit := by
    obtain ⟨events, hevents⟩ := h
    cases part with
    | text text responseMeta =>
      simp only [Reading.next]
      split
      · exact ⟨events, hevents⟩
      · cases textStreamed with
        | true => exact ⟨events, hevents⟩
        | false => exact ⟨events ++ [_], by rw [List.map_append, ← hevents]; rfl⟩
    | reasoning text replay =>
      simp only [Reading.next]
      split <;> exact ⟨events, hevents⟩
    | toolCall callId toolName inputJson replay => exact ⟨events, hevents⟩
  unfold readResponse
  generalize hreading : (Reading.empty : Reading M) = reading
  have hstart : ∃ events : List (SessionEvent M), reading.actions = events.map .emit :=
    ⟨[], by rw [← hreading]; rfl⟩
  clear hreading
  induction normalizedResponseParts response generalizing reading with
  | nil => exact hstart
  | cons part parts ih => exact ih _ (hnext reading part hstart)

end StandardDrivers
