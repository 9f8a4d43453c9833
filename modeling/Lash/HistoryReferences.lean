import Lash.RlmHistories

/-!
# What a history reference denotes

The renderer numbers the entries of the chronological view; the list behind `history` only
has the entries that make an item. A reference that is printed for an entry reads that entry's
item exactly where every entry before it made one.
-/

namespace HistoryReferences

open RlmHistories List
open SessionGraphs (MessageRole ConversationRecord)
open ToolValueCodecs (AttachmentRef)
open RlmDrivers (RlmTrajectoryEntry RlmProtocolEvent)

variable {E Json : Type} {host : HistoryHost E Json} {input : RlmHistoryRenderInput E}
  {entry : ChronologicalEntry E}

/-! ## Printed references -/

def pieceReference : Piece → Option HistoryReference
  | .text _ => none
  | .reference reference => some reference

def references (pieces : List Piece) : List HistoryReference := pieces.filterMap pieceReference

def blockReferences : LlmContentBlock → List HistoryReference
  | .text text _ => references text
  | .image _ => []

def printedReferences (messages : List LlmMessage) : List HistoryReference :=
  messages.flatMap fun message => message.blocks.flatMap blockReferences

/-- The references that are printed for one entry. -/
def entryReferences (host : HistoryHost E Json) (input : RlmHistoryRenderInput E)
    (entry : ChronologicalEntry E) : List HistoryReference :=
  if isActiveCause input.turnCauses entry then []
  else
    match entry.payload with
    | .protocolEvent event =>
      match host.decodeRlmProtocolEvent event with
      | some (.rlmTrajectoryEntry step) =>
        references (stepOutputText host entry.index step.output (step.images.map imageRef)
          step.error step.finalOutput)
      | _ => []
    | .message message =>
      if message.role = .assistant then []
      else references (messageText host entry.index (messageHistoryText message.parts)
        (messageAttachmentRefs message.parts) input.maxOutputChars)

theorem printedReferences_append (first second : List LlmMessage) :
    printedReferences (first ++ second) = printedReferences first ++ printedReferences second :=
  List.flatMap_append

theorem imageBlocks_references (numbers : List Nat) :
    (numbers.map LlmContentBlock.image).flatMap blockReferences = [] := by
  induction numbers with
  | nil => rfl
  | cons number rest ih => exact ih

theorem message_references (role : LlmRole) (text : List Piece) (numbers : List Nat) :
    printedReferences [⟨role, textBlock text false :: numbers.map .image⟩] = references text := by
  simp only [printedReferences, flatMap_cons, flatMap_nil, imageBlocks_references, append_nil]
  rfl

theorem flush_references (rendering : Rendering) :
    printedReferences (flushPendingProse rendering).messages =
      printedReferences rendering.messages := by
  unfold flushPendingProse
  split
  · rfl
  · split
    · rfl
    · dsimp only
      rw [printedReferences_append, message_references]
      exact append_nil _

theorem renderEntry_references (rendering : Rendering) (entry : ChronologicalEntry E) :
    printedReferences (renderEntry host input rendering entry).messages =
      printedReferences rendering.messages ++ entryReferences host input entry := by
  unfold renderEntry entryReferences
  split
  · exact (append_nil _).symm
  · cases hpayload : entry.payload with
    | protocolEvent event =>
      dsimp only
      cases host.decodeRlmProtocolEvent event with
      | none => exact (append_nil _).symm
      | some decoded =>
        cases decoded with
        | rlmTrajectoryEntry step =>
          dsimp only
          unfold renderStep
          dsimp only
          rw [printedReferences_append]
          congr 1
          rw [← singleton_append, printedReferences_append, message_references, message_references]
          rfl
        | rlmGlobalsPatch patch | rlmSeed seed | rlmDiagnostic diagnostic =>
          exact (append_nil _).symm
    | message message =>
      dsimp only
      split
      · rw [renderProse]
        dsimp only
        rw [flush_references, append_nil]
      · rw [renderMessage]
        dsimp only
        rw [printedReferences_append, flush_references, message_references]

theorem foldl_references (entries : List (ChronologicalEntry E)) (rendering : Rendering) :
    printedReferences (entries.foldl (renderEntry host input) rendering).messages =
      printedReferences rendering.messages ++ entries.flatMap (entryReferences host input) := by
  induction entries generalizing rendering with
  | nil => exact (append_nil _).symm
  | cons first rest ih =>
    rw [foldl_cons, ih, renderEntry_references, append_assoc, flatMap_cons]

/-- What is printed is what is printed for the entries, one after another. -/
theorem rendered_references (attachments : List AttachmentRef) :
    printedReferences (renderHistoryMessages host input attachments).1 =
      (visitTurnView input.events input.turnMessages).flatMap (entryReferences host input) := by
  rw [renderHistoryMessages]
  dsimp only
  rw [flush_references, foldl_references]
  rfl

/-! ## Numbers of entries -/

def Numbered : Nat → List (ChronologicalEntry E) → Prop
  | _, [] => True
  | index, entry :: rest => entry.index = index ∧ Numbered (index + 1) rest

theorem visitMessages_numbered (index : Nat) (seen : List String) (messages : List Message) :
    Numbered index (@visitMessages E index seen messages) := by
  induction messages generalizing index seen with
  | nil => trivial
  | cons message rest ih =>
    unfold visitMessages
    split
    · exact ⟨rfl, ih _ _⟩
    · exact ih _ _

theorem visitEvents_numbered (messages : List Message) (index : Nat) (seen : List String)
    (events : List (SessionEventRecord E)) :
    Numbered index (visitEvents messages index seen events) := by
  induction events generalizing index seen with
  | nil => exact visitMessages_numbered _ _ _
  | cons event rest ih =>
    cases event with
    | conversation record =>
      unfold visitEvents
      split
      · exact ⟨rfl, ih _ _⟩
      · exact ih _ _
    | protocol event => exact ⟨rfl, ih _ _⟩

theorem mapIdx_numbered (start : Nat) (messages : List Message) : @Numbered E start
      (messages.mapIdx fun index message => ⟨start + index, .message message⟩) := by
  induction messages generalizing start with
  | nil => trivial
  | cons message rest ih =>
    rw [mapIdx_cons]
    refine ⟨rfl, ?_⟩
    have hrest := ih (start + 1)
    simpa only [Nat.add_assoc, Nat.add_comm 1] using hrest

theorem visitTurnView_numbered (events : List (SessionEventRecord E)) (messages : List Message) :
    Numbered 0 (visitTurnView events messages) := by
  unfold visitTurnView
  split
  · have htranscript := @mapIdx_numbered E 0
      (messages.filter fun message => !isTransient message)
    simpa only [Nat.zero_add, visitTranscript] using htranscript
  · exact visitEvents_numbered messages 0 [] events

theorem Numbered.index {start : Nat} {before after : List (ChronologicalEntry E)}
    (h : Numbered start (before ++ entry :: after)) : entry.index = start + before.length := by
  induction before generalizing start with
  | nil => exact h.1
  | cons first rest ih =>
    rw [ih h.2, length_cons]
    omega

/-! ## Values -/

inductive HistoryValue where
  | text (text : String)
  | attachment (attachment : RlmAttachmentRef)
  | image (image : RlmImageRef)
deriving DecidableEq

/-- What a field of an item of the projection holds. -/
def itemField : RlmHistoryItem Json → HistoryField → Option HistoryValue
  | .lashlangStep _ _ _ output _ _ _, .output index => output[index]?.map .text
  | .lashlangStep _ _ _ _ images _ _, .images index => images[index]?.map .image
  | .message _ _ content _, .content => some (.text content)
  | .message _ _ _ attachments, .attachments index => attachments[index]?.map .attachment
  | _, _ => none

/-- The full value of a field of an entry of the log. -/
def entryValue (host : HistoryHost E Json) (entry : ChronologicalEntry E)
    (field : HistoryField) : Option HistoryValue :=
  match entry.payload with
  | .message message =>
    match field with
    | .content => some (.text (messageHistoryText message.parts))
    | .attachments index =>
      (messageAttachmentRefs message.parts)[index]?.map HistoryValue.attachment
    | _ => none
  | .protocolEvent event =>
    match host.decodeRlmProtocolEvent event, field with
    | some (.rlmTrajectoryEntry step), .output index => step.output[index]?.map .text
    | some (.rlmTrajectoryEntry step), .images index =>
      (step.images.map imageRef)[index]?.map .image
    | _, _ => none

/-- An entry for which a reference is printed: a step that printed something, or a message of
somebody else than the assistant that is shortened or has attachments. -/
def Prints (host : HistoryHost E Json) (input : RlmHistoryRenderInput E)
    (entry : ChronologicalEntry E) : Prop :=
  isActiveCause input.turnCauses entry = false ∧
    match entry.payload with
    | .protocolEvent event => ∃ step,
        host.decodeRlmProtocolEvent event = some (.rlmTrajectoryEntry step) ∧
          (step.output ≠ [] ∨ step.images ≠ [])
    | .message message => message.role ≠ .assistant ∧
        (input.maxOutputChars < (messageHistoryText message.parts).toList.length ∨
          messageAttachmentRefs message.parts ≠ [])

/-- A reference reads the value of the entry it was printed for: the item of that entry stands
in the list at the place that is printed, and its field holds the full value. -/
def Resolves (host : HistoryHost E Json) (entries : List (ChronologicalEntry E))
    (reference : HistoryReference) : Prop :=
  ∃ before entry after item, entries = before ++ entry :: after ∧
    entry.index = reference.index ∧ historyItem host entry = some item ∧
    (fromChronological host before).length = reference.index ∧
    (fromChronological host entries)[reference.index]? = some item ∧
    ∃ value, itemField item reference.field = some value ∧
      entryValue host entry reference.field = some value

/-! ## The references of one entry -/

theorem references_append (first second : List Piece) :
    references (first ++ second) = references first ++ references second :=
  List.filterMap_append

variable {reference : HistoryReference}

theorem mem_line {before after : String} {written : HistoryReference} :
    reference ∈ references [.text before, .reference written, .text after] ↔ reference = written :=
  List.mem_singleton

theorem mem_listed {α : Type} {items : List α} {lineOf : Nat → α → List Piece} :
    reference ∈ references (listed items lineOf) ↔
      ∃ index item, items[index]? = some item ∧ reference ∈ references (lineOf index item) := by
  unfold references listed
  constructor
  · intro h
    obtain ⟨piece, hpiece, href⟩ := mem_filterMap.mp h
    obtain ⟨line, hline, hmem⟩ := mem_flatten.mp hpiece
    obtain ⟨index, hlt, heq⟩ := mem_mapIdx.mp hline
    refine ⟨index, items[index], getElem?_eq_getElem hlt, ?_⟩
    rw [heq]
    exact mem_filterMap.mpr ⟨piece, hmem, href⟩
  · rintro ⟨index, item, hitem, h⟩
    obtain ⟨piece, hpiece, href⟩ := mem_filterMap.mp h
    obtain ⟨hlt, heq⟩ := List.getElem?_eq_some_iff.mp hitem
    refine mem_filterMap.mpr ⟨piece, mem_flatten.mpr ⟨lineOf index item, ?_, hpiece⟩, href⟩
    exact mem_mapIdx.mpr ⟨index, hlt, by rw [heq]⟩

theorem headTailTruncate_length (value : String) (maxChars : Nat) :
    (headTailTruncate value maxChars).2 = value.toList.length := by
  unfold headTailTruncate
  dsimp only
  split <;> rfl

theorem mem_messageText {index maxOutputChars : Nat} {content : String}
    {attachments : List RlmAttachmentRef} :
    reference ∈ references (messageText host index content attachments maxOutputChars) ↔
      (maxOutputChars < content.toList.length ∧ reference = ⟨index, .content⟩) ∨
        ∃ place attachment, attachments[place]? = some attachment ∧
          reference = ⟨index, .attachments place⟩ := by
  have hlist : reference ∈ references (if attachments.isEmpty then []
      else .text "\n\nAttachments:" :: listed attachments fun attachmentIndex attachment =>
        [.text "\n- ", .reference ⟨index, .attachments attachmentIndex⟩,
          .text (": " ++ host.attachmentJson attachment)]) ↔
      ∃ place attachment, attachments[place]? = some attachment ∧
        reference = ⟨index, .attachments place⟩ := by
    cases attachments with
    | nil => simp [references]
    | cons first rest =>
      rw [isEmpty_cons, if_neg Bool.false_ne_true]
      refine Iff.trans mem_listed ?_
      simp only [mem_line]
  rw [messageText]
  dsimp only
  rw [headTailTruncate_length, cons_append, ← singleton_append, references_append,
    references_append, mem_append, mem_append, hlist]
  have hpreview : reference ∉ references [.text (headTailTruncate content maxOutputChars).1] :=
    fun h => nomatch h
  split
  next hlong =>
    rw [mem_line]
    simp only [hpreview, hlong, false_or, true_and]
  next hshort => simp [references, pieceReference, hshort]

theorem mem_outputText {index outputIndex : Nat} {item : String} :
    reference ∈ references (outputText host index outputIndex item) ↔
      reference = ⟨index, .output outputIndex⟩ := by
  have hfirst : references (if outputIndex = 0 then [] else [Piece.text "\n\n"]) = [] := by
    split <;> rfl
  have hlossy : ∀ lossy : Bool, reference ∈ references
      (projectedRef lossy ⟨index, .output outputIndex⟩) →
        reference = ⟨index, .output outputIndex⟩ := by
    intro lossy h
    unfold projectedRef at h
    split at h
    · exact mem_line.mp h
    · cases h
  rw [outputText, references_append, references_append, references_append, hfirst]
  constructor
  · intro h
    rcases mem_append.mp h with h | h
    · rcases mem_append.mp h with h | h
      · exact mem_singleton.mp h
      · exact hlossy _ h
    · cases h
  · rintro rfl
    exact mem_append_left _ (mem_append_left _ mem_cons_self)

theorem apart_references (out more : List Piece) :
    references (apart out more) = references more := by
  unfold apart
  split <;> rfl

theorem mem_stepOutputText {index : Nat} {output : List String} {images : List RlmImageRef}
    {error : Option String} {finalOutput : Option Json} :
    reference ∈ references (stepOutputText host index output images error finalOutput) ↔
      (∃ place item, output[place]? = some item ∧ reference = ⟨index, .output place⟩) ∨
        ∃ place image, images[place]? = some image ∧ reference = ⟨index, .images place⟩ := by
  have hout : reference ∈ references (listed output (outputText host index)) ↔
      ∃ place item, output[place]? = some item ∧ reference = ⟨index, .output place⟩ := by
    simp only [mem_listed, mem_outputText]
  have himages : ∀ out : List Piece, reference ∈ references (if images.isEmpty then []
      else apart out (.text "Images:" :: listed images fun imageIndex image =>
        [.text "\n- ", .reference ⟨index, .images imageIndex⟩,
          .text (": " ++ host.imageJson image)])) ↔
      ∃ place image, images[place]? = some image ∧ reference = ⟨index, .images place⟩ := by
    intro out
    cases images with
    | nil => simp [references]
    | cons first rest =>
      rw [isEmpty_cons, if_neg Bool.false_ne_true, apart_references]
      refine Iff.trans mem_listed ?_
      simp only [mem_line]
  have herror : ∀ out : List Piece, references
      ((error.map fun error => apart out [.text "Error:\n", .text error]).getD []) = [] := by
    intro out
    cases error with
    | none => rfl
    | some error => exact apart_references out _
  have hfinal : ∀ out : List Piece, references ((finalOutput.map fun value =>
      apart out [.text "Final output:\n", .text (host.prettyJson value)]).getD []) = [] := by
    intro out
    cases finalOutput with
    | none => rfl
    | some value => exact apart_references out _
  have hempty : ∀ out : List Piece,
      references (if out.isEmpty then [.text "(no printed output)"] else out) = references out := by
    intro out
    cases out with
    | nil | cons first rest => rfl
  unfold stepOutputText
  dsimp only
  rw [hempty, references_append, references_append, references_append, hfinal, herror,
    append_nil, append_nil, mem_append, hout, himages]

/-- An entry whose reference is printed makes an item that holds the referenced value. -/
structure Held (host : HistoryHost E Json) (entry : ChronologicalEntry E)
    (reference : HistoryReference) : Prop where
  index : reference.index = entry.index
  item : ∃ item value, historyItem host entry = some item ∧
    itemField item reference.field = some value ∧
    entryValue host entry reference.field = some value

theorem messageItem {message : Message} (h : messageHistoryText message.parts ≠ "" ∨
    messageAttachmentRefs message.parts ≠ []) :
    @historyItemFromMessage Json message = some (.message message.id message.role
      (messageHistoryText message.parts) (messageAttachmentRefs message.parts)) := by
  unfold historyItemFromMessage
  dsimp only
  rw [if_neg]
  intro hboth
  simp only [Bool.and_eq_true, String.isEmpty_iff, List.isEmpty_iff] at hboth
  rcases h with h | h
  · exact h hboth.1
  · exact h hboth.2

theorem message_held {message : Message} (hpayload : entry.payload = .message message)
    (h : reference ∈ references (messageText host entry.index (messageHistoryText message.parts)
      (messageAttachmentRefs message.parts) input.maxOutputChars)) :
    Held host entry reference ∧
      (input.maxOutputChars < (messageHistoryText message.parts).toList.length ∨
        messageAttachmentRefs message.parts ≠ []) := by
  rcases mem_messageText.mp h with ⟨hlong, rfl⟩ | ⟨place, attachment, hattachment, rfl⟩
  · have hcontent : messageHistoryText message.parts ≠ "" := by
      intro hempty
      rw [hempty] at hlong
      exact absurd hlong (Nat.not_lt_zero _)
    refine ⟨⟨rfl, .message message.id message.role (messageHistoryText message.parts)
      (messageAttachmentRefs message.parts), .text (messageHistoryText message.parts), ?_, rfl,
      ?_⟩, .inl hlong⟩
    · rw [historyItem, hpayload]
      exact messageItem (.inl hcontent)
    · rw [entryValue, hpayload]
  · have hattachments : messageAttachmentRefs message.parts ≠ [] := by
      intro hempty
      rw [hempty] at hattachment
      cases hattachment
    refine ⟨⟨rfl, .message message.id message.role (messageHistoryText message.parts)
      (messageAttachmentRefs message.parts), .attachment attachment, ?_, ?_, ?_⟩, .inr hattachments⟩
    · rw [historyItem, hpayload]
      exact messageItem (.inr hattachments)
    · rw [itemField, hattachment]
      rfl
    · rw [entryValue, hpayload]
      dsimp only
      rw [hattachment]
      rfl

theorem step_held {event : E} {step : RlmTrajectoryEntry Json}
    (hpayload : entry.payload = .protocolEvent event)
    (hdecode : host.decodeRlmProtocolEvent event = some (.rlmTrajectoryEntry step))
    (h : reference ∈ references (stepOutputText host entry.index step.output
      (step.images.map imageRef) step.error step.finalOutput)) :
    Held host entry reference ∧ (step.output ≠ [] ∨ step.images ≠ []) := by
  have hitem : historyItem host entry = some (historyItemFromLashlangStep step) := by
    rw [historyItem, hpayload]
    dsimp only
    rw [hdecode]
  rcases mem_stepOutputText.mp h with ⟨place, item, houtput, rfl⟩ | ⟨place, image, himage, rfl⟩
  · refine ⟨⟨rfl, historyItemFromLashlangStep step, .text item, hitem, ?_, ?_⟩, .inl ?_⟩
    · rw [historyItemFromLashlangStep, itemField, houtput]
      rfl
    · rw [entryValue, hpayload]
      dsimp only
      rw [hdecode]
      dsimp only
      rw [houtput]
      rfl
    · intro hempty
      rw [hempty] at houtput
      cases houtput
  · refine ⟨⟨rfl, historyItemFromLashlangStep step, .image image, hitem, ?_, ?_⟩, .inr ?_⟩
    · rw [historyItemFromLashlangStep, itemField, himage]
      rfl
    · rw [entryValue, hpayload]
      dsimp only
      rw [hdecode]
      dsimp only
      rw [himage]
      rfl
    · intro hempty
      rw [hempty] at himage
      cases himage

theorem entryReferences_held (h : reference ∈ entryReferences host input entry) :
    Held host entry reference ∧ Prints host input entry := by
  unfold entryReferences at h
  unfold Prints
  split at h
  · cases h
  next hcause =>
    rw [Bool.not_eq_true] at hcause
    cases hpayload : entry.payload with
    | message message =>
      rw [hpayload] at h
      dsimp only at h ⊢
      split at h
      · cases h
      next hrole =>
        obtain ⟨held, hprints⟩ := message_held hpayload h
        exact ⟨held, hcause, hrole, hprints⟩
    | protocolEvent event =>
      rw [hpayload] at h
      dsimp only at h ⊢
      cases hdecode : host.decodeRlmProtocolEvent event with
      | none =>
        rw [hdecode] at h
        cases h
      | some decoded =>
        rw [hdecode] at h
        cases decoded with
        | rlmTrajectoryEntry step =>
          obtain ⟨held, hprints⟩ := step_held hpayload hdecode h
          exact ⟨held, hcause, step, rfl, hprints⟩
        | rlmGlobalsPatch patch | rlmSeed seed | rlmDiagnostic diagnostic => cases h

theorem entryReferences_nonempty (h : Prints host input entry) :
    ∃ reference, reference ∈ entryReferences host input entry := by
  obtain ⟨hcause, hpayload⟩ := h
  unfold entryReferences
  rw [if_neg (by rw [hcause]; exact Bool.false_ne_true)]
  cases hentry : entry.payload with
  | message message =>
    rw [hentry] at hpayload
    obtain ⟨hrole, hprints⟩ := hpayload
    dsimp only
    rw [if_neg hrole]
    rcases hprints with hlong | hattachments
    · exact ⟨_, mem_messageText.mpr (.inl ⟨hlong, rfl⟩)⟩
    · obtain ⟨first, rest, hfirst⟩ := exists_cons_of_ne_nil hattachments
      exact ⟨_, mem_messageText.mpr (.inr ⟨0, first, by rw [hfirst]; rfl, rfl⟩)⟩
  | protocolEvent event =>
    rw [hentry] at hpayload
    obtain ⟨step, hdecode, hprints⟩ := hpayload
    dsimp only
    rw [hdecode]
    rcases hprints with houtput | himages
    · obtain ⟨first, rest, hfirst⟩ := exists_cons_of_ne_nil houtput
      exact ⟨_, mem_stepOutputText.mpr (.inl ⟨0, first, by rw [hfirst]; rfl, rfl⟩)⟩
    · obtain ⟨first, rest, hfirst⟩ := exists_cons_of_ne_nil himages
      exact ⟨_, mem_stepOutputText.mpr (.inr ⟨0, imageRef first, by rw [hfirst]; rfl, rfl⟩)⟩

/-! ## Which references resolve -/

/-- The projection makes an item of every entry before one for which a reference is printed. -/
def NothingDroppedBefore (host : HistoryHost E Json) (input : RlmHistoryRenderInput E) : Prop :=
  ∀ before entry after,
    visitTurnView input.events input.turnMessages = before ++ entry :: after →
      Prints host input entry → ∀ earlier ∈ before, (historyItem host earlier).isSome

theorem references_resolve_iff (attachments : List AttachmentRef) :
    (∀ reference ∈ printedReferences (renderHistoryMessages host input attachments).1,
      Resolves host (visitTurnView input.events input.turnMessages) reference) ↔
    NothingDroppedBefore host input := by
  have numbered := visitTurnView_numbered input.events input.turnMessages
  rw [rendered_references]
  constructor
  · intro h before entry after hview hprints
    obtain ⟨reference, hmem⟩ := entryReferences_nonempty hprints
    have hprinted : reference ∈ (visitTurnView input.events input.turnMessages).flatMap
        (entryReferences host input) := by
      rw [hview]
      exact mem_flatMap.mpr ⟨entry, mem_append_right _ mem_cons_self, hmem⟩
    obtain ⟨before', entry', after', item, hview', hindex, -, hlength, -⟩ := h reference hprinted
    have hplace : entry.index = 0 + before.length := Numbered.index (hview ▸ numbered)
    have hplace' : entry'.index = 0 + before'.length := Numbered.index (hview' ▸ numbered)
    have hheld := (entryReferences_held hmem).1.index
    have hsame : before' = before := (append_inj (hview'.symm.trans hview) (by omega)).1
    rw [hsame] at hlength
    have hall : (fromChronological host before).length = before.length := by omega
    exact filterMap_length_eq_length.mp hall
  · intro h reference hprinted
    obtain ⟨entry, hentry, hmem⟩ := mem_flatMap.mp hprinted
    obtain ⟨before, after, hview⟩ := append_of_mem hentry
    obtain ⟨held, hprints⟩ := entryReferences_held hmem
    obtain ⟨item, value, hitem, hfield, hvalue⟩ := held.item
    have hplace : entry.index = 0 + before.length := Numbered.index (hview ▸ numbered)
    have hindex := held.index
    have hall : (fromChronological host before).length = before.length :=
      filterMap_length_eq_length.mpr (h before entry after hview hprints)
    have hat : (fromChronological host
        (visitTurnView input.events input.turnMessages))[reference.index]? = some item := by
      have hnumber : reference.index = (fromChronological host before).length := by omega
      rw [hview, fromChronological, filterMap_append, filterMap_cons_some hitem,
        hnumber, fromChronological, getElem?_append_right (Nat.le_refl _), Nat.sub_self]
      rfl
    exact ⟨before, entry, after, item, hview, hindex.symm, hitem, by omega, hat, value, hfield,
      hvalue⟩

/-! ## A step after a seed -/

def plainHost : HistoryHost (RlmProtocolEvent Unit) Unit where
  decodeRlmProtocolEvent := some
  attachmentJson _ := "{}"
  imageJson _ := "{}"
  prettyJson _ := "null"
  projectPrinted text := text

def seededInput : RlmHistoryRenderInput (RlmProtocolEvent Unit) where
  events := [.protocol (.rlmSeed ⟨[("goal", ())], []⟩),
    .protocol (.rlmTrajectoryEntry ⟨"lashlang_step_0", 0, "print 1", ["1"], [], none, none⟩)]
  turnMessages := []
  turnCauses := []
  maxOutputChars := 4000

theorem step_after_seed_unresolved :
    ¬ ∀ (input : RlmHistoryRenderInput (RlmProtocolEvent Unit)) (attachments : List AttachmentRef),
      ∀ reference ∈ printedReferences (renderHistoryMessages plainHost input attachments).1,
        Resolves plainHost (visitTurnView input.events input.turnMessages) reference := by
  intro h
  have hprinted : ⟨1, .output 0⟩ ∈
      printedReferences (renderHistoryMessages plainHost seededInput []).1 := by
    decide
  obtain ⟨-, -, -, item, -, -, -, -, hat, -⟩ := h seededInput [] ⟨1, .output 0⟩ hprinted
  cases hat

end HistoryReferences
