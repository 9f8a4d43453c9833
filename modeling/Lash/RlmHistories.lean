import Lash.RlmDrivers

/-!
# The history the model sees, and the one it may read

One pass over the chronological view of a turn renders the earlier steps as messages, with
references such as `history[2].output[0]` under their own number in the view. Another pass
makes the list that `history` is bound to. A rendered text is kept as its pieces, so that a
reference the renderer writes is told apart from the same characters in somebody's text.
-/

namespace RlmHistories

open SessionGraphs (MessageRole MessageOrigin ConversationRecord)
open TurnProtocols (PartKind trim)
open RlmDrivers (RlmTrajectoryEntry RlmProtocolEvent)
open LashlangCells (renderLashlangCellText)
open ToolValueCodecs (AttachmentRef MediaType)

/-! ## Events and messages -/

/-- What the history reads of a part of a message. -/
structure Part where
  id : String
  kind : PartKind
  content : String
  attachment : Option AttachmentRef
deriving DecidableEq

abbrev Message := SessionGraphs.Message Part

/-- Events of protocols are stored as JSON of type `E`. -/
inductive SessionEventRecord (E : Type) where
  | conversation (record : ConversationRecord Part)
  | protocol (event : E)

structure RlmAttachmentRef where
  id : String
  mediaType : MediaType
  label : Option String
  reference : String
deriving DecidableEq

structure RlmImageRef where
  id : String
  mediaType : MediaType
  width : Option UInt32
  height : Option UInt32
  bytes : UInt64
  label : Option String
deriving DecidableEq

/-- JSON comes from outside: how events are decoded, values are written, and the preview that
is made of a printed output. -/
structure HistoryHost (E Json : Type) where
  decodeRlmProtocolEvent : E → Option (RlmProtocolEvent Json)
  attachmentJson : RlmAttachmentRef → String
  imageJson : RlmImageRef → String
  prettyJson : Json → String
  projectPrinted : String → String

variable {E Json : Type}

/-! ## The chronological view -/

inductive ChronologicalPayload (E : Type) where
  | message (message : Message)
  | protocolEvent (event : E)

structure ChronologicalEntry (E : Type) where
  index : Nat
  payload : ChronologicalPayload E

def fromRecord (record : ConversationRecord Part) : Message :=
  ⟨record.id, record.role, record.parts, record.origin⟩

def isTransient (message : Message) : Bool :=
  match message.origin with
  | some (.plugin _ transient) => transient
  | _ => false

def visitMessages : Nat → List String → List Message → List (ChronologicalEntry E)
  | _, _, [] => []
  | index, seen, message :: rest =>
    if !isTransient message && !seen.contains message.id then
      ⟨index, .message message⟩ :: visitMessages (index + 1) (message.id :: seen) rest
    else visitMessages index seen rest

/-- The events of the log, then the messages of the turn that no event brought. -/
def visitEvents (messages : List Message) :
    Nat → List String → List (SessionEventRecord E) → List (ChronologicalEntry E)
  | index, seen, [] => visitMessages index seen messages
  | index, seen, .conversation record :: rest =>
    if !isTransient (fromRecord record) && !seen.contains record.id then
      ⟨index, .message (fromRecord record)⟩ ::
        visitEvents messages (index + 1) (record.id :: seen) rest
    else visitEvents messages index seen rest
  | index, seen, .protocol event :: rest =>
    ⟨index, .protocolEvent event⟩ :: visitEvents messages (index + 1) seen rest

def visitTranscript (messages : List Message) : List (ChronologicalEntry E) :=
  (messages.filter fun message => !isTransient message).mapIdx fun index message =>
    ⟨index, .message message⟩

def visitTurnView (events : List (SessionEventRecord E)) (messages : List Message) :
    List (ChronologicalEntry E) :=
  if events.isEmpty then visitTranscript messages else visitEvents messages 0 [] events

/-! ## The projection -/

inductive RlmHistoryItem (Json : Type) where
  | message (id : String) (role : MessageRole) (content : String)
      (attachments : List RlmAttachmentRef)
  | lashlangStep (id : String) (protocolIteration : Nat) (code : String)
      (output : List String) (images : List RlmImageRef) (error : Option String)
      (finalOutput : Option Json)

/-- The text and prose of a message, part by part. -/
def messageHistoryText (parts : List Part) : String :=
  "\n\n".intercalate (((parts.filter fun part => part.kind == .text || part.kind == .prose).map
    fun part => trim part.content).filter fun text => !text.isEmpty)

def messageAttachmentRefs (parts : List Part) : List RlmAttachmentRef :=
  parts.filterMap fun part => part.attachment.map fun attachment =>
    ⟨part.id, attachment.mediaType, attachment.label, attachment.id⟩

def imageRef (image : AttachmentRef) : RlmImageRef :=
  ⟨image.id, image.mediaType, image.width, image.height, image.byteLen, image.label⟩

def historyItemFromMessage (message : Message) : Option (RlmHistoryItem Json) :=
  let content := messageHistoryText message.parts
  let attachments := messageAttachmentRefs message.parts
  if content.isEmpty && attachments.isEmpty then none
  else some (.message message.id message.role content attachments)

def historyItemFromLashlangStep (entry : RlmTrajectoryEntry Json) : RlmHistoryItem Json :=
  .lashlangStep entry.id entry.protocolIteration entry.code entry.output
    (entry.images.map imageRef) entry.error entry.finalOutput

variable (host : HistoryHost E Json)

variable (entry : ChronologicalEntry E)

def historyItem : Option (RlmHistoryItem Json) :=
  match entry.payload with
  | .message message => historyItemFromMessage message
  | .protocolEvent event =>
    match host.decodeRlmProtocolEvent event with
    | some (.rlmTrajectoryEntry step) => some (historyItemFromLashlangStep step)
    | _ => none

def fromChronological (entries : List (ChronologicalEntry E)) : List (RlmHistoryItem Json) :=
  entries.filterMap (historyItem host)

/-! ## Rendering -/

inductive HistoryField where
  | output (index : Nat)
  | content
  | attachments (index : Nat)
  | images (index : Nat)
deriving DecidableEq

structure HistoryReference where
  index : Nat
  field : HistoryField
deriving DecidableEq

def HistoryField.text : HistoryField → String
  | .output index => s!".output[{index}]"
  | .content => ".content"
  | .attachments index => s!".attachments[{index}]"
  | .images index => s!".images[{index}]"

def HistoryReference.text (reference : HistoryReference) : String :=
  s!"history[{reference.index}]" ++ reference.field.text

inductive Piece where
  | text (text : String)
  | reference (reference : HistoryReference)
deriving DecidableEq

inductive LlmRole where
  | user | assistant | system
deriving DecidableEq

inductive LlmContentBlock where
  | text (text : List Piece) (cacheBreakpoint : Bool)
  | image (attachmentIdx : Nat)
deriving DecidableEq

structure LlmMessage where
  role : LlmRole
  blocks : List LlmContentBlock
deriving DecidableEq

def textBlock (text : List Piece) (cacheBreakpoint : Bool) : LlmContentBlock :=
  .text text cacheBreakpoint

def headTailTruncate (value : String) (maxChars : Nat) : String × Nat :=
  let chars := value.toList
  let rawLen := chars.length
  if maxChars = 0 || rawLen ≤ maxChars then (value, rawLen)
  else
    let headLen := maxChars / 2
    let tailLen := maxChars - headLen
    let omitted := rawLen - (headLen + tailLen)
    (String.ofList (chars.take headLen) ++ s!"\n\n... ({omitted} characters omitted) ...\n\n" ++
      String.ofList ((chars.reverse.take tailLen).reverse), rawLen)

/-- Line by line, with a number for each. -/
def listed (items : List α) (lineOf : Nat → α → List Piece) : List Piece :=
  (items.mapIdx lineOf).flatten

variable (index : Nat)

def messageText (content : String) (attachments : List RlmAttachmentRef) (maxOutputChars : Nat) :
    List Piece :=
  let (preview, rawLen) := headTailTruncate content maxOutputChars
  .text preview ::
    (if maxOutputChars < rawLen then
      [.text "\n\n(preview only — full value retained; re-print ",
        .reference ⟨index, .content⟩, .text " for the rest)"]
    else []) ++
    (if attachments.isEmpty then []
    else
      .text "\n\nAttachments:" :: listed attachments fun attachmentIndex attachment =>
        [.text "\n- ", .reference ⟨index, .attachments attachmentIndex⟩,
          .text (": " ++ host.attachmentJson attachment)])

def containsText (text pattern : String) : Bool :=
  text.toList.tails.any fun rest => pattern.toList.isPrefixOf rest

def projectionIsLossy (original projected : String) : Bool :=
  containsText projected "truncated" || containsText projected "omitted" ||
    containsText projected "max depth" || projected.toList.length < original.toList.length

def projectedRef (projectedLossy : Bool) (reference : HistoryReference) : List Piece :=
  if projectedLossy then
    [.text " — preview only, full value retained; re-print ", .reference reference,
      .text " for the rest"]
  else []

def outputText (outputIndex : Nat) (item : String) : List Piece :=
  let reference : HistoryReference := ⟨index, .output outputIndex⟩
  (if outputIndex = 0 then [] else [.text "\n\n"]) ++
    [.reference reference, .text s!" ({item.toList.length} chars"] ++
    projectedRef (projectionIsLossy item (host.projectPrinted item)) reference ++
    [.text (s!"):\n" ++ host.projectPrinted item)]

/-- More text, apart from what is written already. -/
def apart (out more : List Piece) : List Piece :=
  (if out.isEmpty then [] else [.text "\n\n"]) ++ more

def stepOutputText (output : List String) (images : List RlmImageRef) (error : Option String)
    (finalOutput : Option Json) : List Piece :=
  let out := listed output (outputText host index)
  let out := out ++
    if images.isEmpty then []
    else apart out (.text "Images:" :: listed images fun imageIndex image =>
      [.text "\n- ", .reference ⟨index, .images imageIndex⟩,
        .text (": " ++ host.imageJson image)])
  let out := out ++
    (error.map fun error => apart out [.text "Error:\n", .text error]).getD []
  let out := out ++ (finalOutput.map fun value =>
    apart out [.text "Final output:\n", .text (host.prettyJson value)]).getD []
  if out.isEmpty then [.text "(no printed output)"] else out

/-- Assistant prose that waits for the step it belongs to, with the numbers of its images. -/
structure PendingProse where
  text : String
  imageBlocks : List Nat
deriving DecidableEq

structure Rendering where
  messages : List LlmMessage
  pending : Option PendingProse
  attachments : List AttachmentRef

structure RlmHistoryRenderInput (E : Type) where
  events : List (SessionEventRecord E)
  turnMessages : List Message
  turnCauses : List String
  maxOutputChars : Nat

def entryImages : List AttachmentRef :=
  match entry.payload with
  | .message message => message.parts.filterMap fun part => part.attachment
  | .protocolEvent event =>
    match host.decodeRlmProtocolEvent event with
    | some (.rlmTrajectoryEntry step) => step.images
    | _ => []

/-- The numbers that the images of an entry get among the attachments. -/
def imageNumbers (attachments images : List AttachmentRef) : List Nat :=
  images.mapIdx fun offset _ => attachments.length + offset

def flushPendingProse (rendering : Rendering) : Rendering :=
  match rendering.pending with
  | none => rendering
  | some prose =>
    if (trim prose.text).isEmpty && prose.imageBlocks.isEmpty then
      { rendering with pending := none }
    else
      { rendering with
        pending := none
        messages := rendering.messages ++ [⟨.assistant,
          textBlock [.text prose.text] false :: prose.imageBlocks.map .image⟩] }

def isActiveCause (turnCauses : List String) (entry : ChronologicalEntry E) : Bool :=
  match entry.payload with
  | .message message => message.role == .event && turnCauses.contains message.id
  | .protocolEvent _ => false

def renderProse (message : Message) (rendering : Rendering) : Rendering :=
  let flushed := flushPendingProse rendering
  let images := entryImages host entry
  { flushed with
    pending := some ⟨messageHistoryText message.parts, imageNumbers flushed.attachments images⟩
    attachments := flushed.attachments ++ images }

def renderStep (step : RlmTrajectoryEntry Json) (rendering : Rendering) : Rendering :=
  let proseText := (rendering.pending.map PendingProse.text).getD ""
  let proseImages := (rendering.pending.map PendingProse.imageBlocks).getD []
  let cell : LlmMessage := ⟨.assistant,
    textBlock [.text (String.ofList
      (renderLashlangCellText proseText.toList (trim step.code).toList))] false ::
      proseImages.map .image⟩
  let images := entryImages host entry
  let observed : LlmMessage := ⟨.user,
    textBlock (stepOutputText host entry.index step.output (step.images.map imageRef) step.error
      step.finalOutput) false :: (imageNumbers rendering.attachments images).map .image⟩
  { messages := rendering.messages ++ [cell, observed]
    pending := none
    attachments := rendering.attachments ++ images }

def llmRole : MessageRole → LlmRole
  | .user | .event => .user
  | .system => .system
  | .assistant => .assistant

def renderMessage (maxOutputChars : Nat) (entry : ChronologicalEntry E) (message : Message)
    (rendering : Rendering) : Rendering :=
  let flushed := flushPendingProse rendering
  let images := entryImages host entry
  { flushed with
    messages := flushed.messages ++ [⟨llmRole message.role,
      textBlock (messageText host entry.index (messageHistoryText message.parts)
        (messageAttachmentRefs message.parts) maxOutputChars) false ::
        (imageNumbers flushed.attachments images).map .image⟩]
    attachments := flushed.attachments ++ images }

variable (input : RlmHistoryRenderInput E)

def renderEntry (rendering : Rendering) (entry : ChronologicalEntry E) : Rendering :=
  if isActiveCause input.turnCauses entry then rendering
  else
    match entry.payload with
    | .protocolEvent event =>
      match host.decodeRlmProtocolEvent event with
      | some (.rlmTrajectoryEntry step) => renderStep host entry step rendering
      | _ => rendering
    | .message message =>
      if message.role = .assistant then renderProse host entry message rendering
      else renderMessage host input.maxOutputChars entry message rendering

def renderHistoryMessages (attachments : List AttachmentRef) :
    List LlmMessage × List AttachmentRef :=
  let rendering := flushPendingProse
    ((visitTurnView input.events input.turnMessages).foldl (renderEntry host input)
      ⟨[], none, attachments⟩)
  (rendering.messages, rendering.attachments)

end RlmHistories
