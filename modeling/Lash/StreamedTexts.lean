import Lash.TurnProtocols

/-!
# The text of a streamed response

The parts of a response are gathered while it is streamed. A delta joins the text part that
ends the list, but a delta that starts with that text is taken for a second sending of it, and
only what follows is kept. So the gathered text is the deltas joined exactly when no delta
starts with the deltas sent just before it.
-/

namespace StreamedTexts

open TurnProtocols

structure LlmStreamAccumulator where
  parts : List LlmOutputPart
  deriving DecidableEq

def appendStreamPiece (full piece : String) : String :=
  if piece = "" then full
  else if full.toList <+: piece.toList then
    full ++ String.ofList (piece.toList.drop full.toList.length)
  else full ++ piece

def reasoningSealed (replay : Option ProviderReasoningReplay) : Bool :=
  replay.any (·.encryptedContent.isSome)

namespace LlmStreamAccumulator

def pushText (piece : String) (accumulator : LlmStreamAccumulator) : LlmStreamAccumulator :=
  if piece = "" then accumulator
  else match accumulator.parts.getLast? with
    | some (.text text responseMeta) =>
      ⟨accumulator.parts.dropLast ++ [.text (appendStreamPiece text piece) responseMeta]⟩
    | _ => ⟨accumulator.parts ++ [.text piece none]⟩

def pushToolCall (callId toolName inputJson : String) (replay : Option ProviderReplayMeta)
    (accumulator : LlmStreamAccumulator) : LlmStreamAccumulator :=
  ⟨accumulator.parts ++ [.toolCall callId toolName inputJson replay]⟩

/-- What a reasoning part becomes when another one follows it, if the two are merged. -/
def mergedReasoning (existing : String) (existingReplay : Option ProviderReasoningReplay)
    (text : String) (replay : ProviderReasoningReplay) : Option LlmOutputPart :=
  if existingReplay.all (·.isEmpty) ∧ replay.isEmpty then
    some (.reasoning (appendStreamPiece existing text) existingReplay)
  else if replay.encryptedContent.isSome ∧ ¬ reasoningSealed existingReplay ∧
      trim existing ≠ "" ∧ (trim text = "" ∨ existing.toList <:+: text.toList) then
    some (.reasoning (if trim text ≠ "" ∧ text ≠ existing then text else existing) (some replay))
  else if ¬ replay.encryptedContent.isSome ∧ reasoningSealed existingReplay ∧
      trim text ≠ "" ∧ trim existing = "" then
    some (.reasoning (appendStreamPiece existing text)
      (existingReplay.map fun kept =>
        { kept with itemId := kept.itemId.or replay.itemId,
                    summary := if kept.summary = [] then replay.summary else kept.summary }))
  else none

def pushReasoning (text : String) (itemId : Option String) (summary : List String)
    (encryptedContent : Option String) (accumulator : LlmStreamAccumulator) :
    LlmStreamAccumulator :=
  let replay : ProviderReasoningReplay := ⟨itemId, encryptedContent, none, false, summary⟩
  let fresh := LlmOutputPart.reasoning text (if replay.isEmpty then none else some replay)
  match accumulator.parts.getLast? with
  | some (.reasoning existing existingReplay) =>
    match mergedReasoning existing existingReplay text replay with
    | some merged => ⟨accumulator.parts.dropLast ++ [merged]⟩
    | none => ⟨accumulator.parts ++ [fresh]⟩
  | _ => ⟨accumulator.parts ++ [fresh]⟩

end LlmStreamAccumulator

/-- The text that a part adds to the full text. -/
def partText : LlmOutputPart → String
  | .text text _ => text
  | .reasoning _ _ => ""
  | .toolCall _ _ _ _ => ""

def LlmStreamAccumulator.fullText (accumulator : LlmStreamAccumulator) : String :=
  String.join (accumulator.parts.map partText)

/-- What is pushed while a response is streamed. -/
inductive Push where
  | text (delta : String)
  | reasoning (text : String) (itemId : Option String) (summary : List String)
      (encryptedContent : Option String)
  | toolCall (callId toolName inputJson : String) (replay : Option ProviderReplayMeta)
  deriving DecidableEq

def LlmStreamAccumulator.push (accumulator : LlmStreamAccumulator) : Push → LlmStreamAccumulator
  | .text delta => accumulator.pushText delta
  | .reasoning text itemId summary encryptedContent =>
    accumulator.pushReasoning text itemId summary encryptedContent
  | .toolCall callId toolName inputJson replay =>
    accumulator.pushToolCall callId toolName inputJson replay

def LlmStreamAccumulator.pushAll (accumulator : LlmStreamAccumulator) (pushes : List Push) :
    LlmStreamAccumulator :=
  pushes.foldl LlmStreamAccumulator.push accumulator

/-- The text deltas of a stream, joined. -/
def joinedDeltas : List Push → String
  | [] => ""
  | .text delta :: pushes => delta ++ joinedDeltas pushes
  | .reasoning _ _ _ _ :: pushes => joinedDeltas pushes
  | .toolCall _ _ _ _ :: pushes => joinedDeltas pushes

/-- No text delta starts with the text that was sent just before it. A reasoning part or a
tool call ends that text. -/
def NoDeltaResends (sent : String) : List Push → Prop
  | [] => True
  | .text delta :: pushes =>
    (sent = "" ∨ ¬ sent.toList <+: delta.toList) ∧ NoDeltaResends (sent ++ delta) pushes
  | .reasoning _ _ _ _ :: pushes => NoDeltaResends "" pushes
  | .toolCall _ _ _ _ :: pushes => NoDeltaResends "" pushes

/-- The text of the part that ends the list, which the next delta would join. -/
def LlmStreamAccumulator.openText (accumulator : LlmStreamAccumulator) : String :=
  match accumulator.parts.getLast? with
  | some (.text text _) => text
  | _ => ""

/-- What is kept of a delta after the text it joins. -/
def kept (full piece : String) : String :=
  if full.toList <+: piece.toList then String.ofList (piece.toList.drop full.toList.length)
  else piece

theorem appendStreamPiece_eq (full piece : String) :
    appendStreamPiece full piece = full ++ kept full piece := by
  by_cases hempty : piece = ""
  · subst hempty
    simp [appendStreamPiece, kept]
  · by_cases hbegins : full.toList <+: piece.toList
    · simp [appendStreamPiece, kept, hempty, hbegins]
    · simp [appendStreamPiece, kept, hempty, hbegins]

@[simp] theorem kept_nil (piece : String) : kept "" piece = piece := by
  simp [kept]

theorem length_kept_le (full piece : String) : (kept full piece).length ≤ piece.length := by
  by_cases hbegins : full.toList <+: piece.toList
  · simp only [kept, hbegins, if_true, String.length_ofList, List.length_drop, String.length_toList]
    omega
  · simp [kept, hbegins]

/-- A delta is kept whole if nothing went before or it does not start with what did. -/
theorem kept_of_new {full piece : String} (h : full = "" ∨ ¬ full.toList <+: piece.toList) :
    kept full piece = piece := by
  rcases h with rfl | hbegins
  · exact kept_nil piece
  · exact if_neg hbegins

theorem length_kept_lt {full piece : String} (hfull : full ≠ "")
    (hbegins : full.toList <+: piece.toList) : (kept full piece).length < piece.length := by
  have hpos : 0 < full.toList.length := by
    rcases Nat.eq_zero_or_pos full.toList.length with hzero | hpos
    · exact absurd (String.toList_eq_nil_iff.mp (List.length_eq_zero_iff.mp hzero)) hfull
    · exact hpos
  have hle := hbegins.length_le
  simp only [kept, hbegins, if_true, String.length_ofList, List.length_drop,
    String.length_toList] at hpos hle ⊢
  omega

open LlmStreamAccumulator

section Pushes

variable (accumulator : LlmStreamAccumulator)

theorem openText_append (parts : List LlmOutputPart) (part : LlmOutputPart) :
    openText ⟨parts ++ [part]⟩ = partText part := by
  cases part with
  | text | reasoning | toolCall => simp [openText, partText]

/-- A list of parts that does not end with a text has no open text. -/
theorem openText_of_not_text
    (h : ∀ text responseMeta, accumulator.parts.getLast? ≠ some (.text text responseMeta)) :
    accumulator.openText = "" := by
  cases hlast : accumulator.parts.getLast? with
  | none => simp [openText, hlast]
  | some part =>
    cases part with
    | text text responseMeta => exact absurd hlast (h text responseMeta)
    | reasoning | toolCall => simp [openText, hlast]

/-- A delta adds what is kept of it to the full text and to the text that is open. -/
theorem pushText_texts (delta : String) : (accumulator.pushText delta).fullText =
        accumulator.fullText ++ kept accumulator.openText delta ∧
      (accumulator.pushText delta).openText =
        accumulator.openText ++ kept accumulator.openText delta := by
  by_cases hempty : delta = ""
  · subst hempty
    simp [pushText, kept]
  by_cases htext : ∃ text responseMeta, accumulator.parts.getLast? = some (.text text responseMeta)
  · obtain ⟨text, responseMeta, hlast⟩ := htext
    obtain ⟨before, hparts⟩ := List.getLast?_eq_some_iff.mp hlast
    have hopen : accumulator.openText = text := by
      simp [openText, hlast]
    have hpushed : accumulator.pushText delta =
        ⟨before ++ [LlmOutputPart.text (text ++ kept text delta) responseMeta]⟩ := by
      simp [pushText, hempty, hparts, appendStreamPiece_eq]
    have hbefore : accumulator.fullText = fullText ⟨before⟩ ++ text := by
      simp [fullText, hparts, partText]
    rw [hpushed, hopen, hbefore]
    refine ⟨?_, openText_append before _⟩
    simp [fullText, partText, String.append_assoc]
  · have hopen : accumulator.openText = "" :=
      openText_of_not_text accumulator fun text responseMeta hlast =>
        htext ⟨text, responseMeta, hlast⟩
    have hpushed : accumulator.pushText delta =
        ⟨accumulator.parts ++ [LlmOutputPart.text delta none]⟩ := by
      rw [pushText, if_neg hempty]
      split
      · next text responseMeta hlast => exact absurd ⟨text, responseMeta, hlast⟩ htext
      · rfl
    rw [hpushed, hopen, kept_nil]
    refine ⟨?_, (openText_append _ _).trans (by simp [partText])⟩
    simp [fullText, partText]

theorem pushToolCall_texts (callId toolName inputJson : String)
    (replay : Option ProviderReplayMeta) :
    (accumulator.pushToolCall callId toolName inputJson replay).fullText = accumulator.fullText ∧
      (accumulator.pushToolCall callId toolName inputJson replay).openText = "" := by
  refine ⟨?_, openText_append _ _⟩
  simp [pushToolCall, fullText, partText]

/-- Two reasoning parts are merged to a reasoning part. -/
theorem partText_merged {existing text : String}
    {existingReplay : Option ProviderReasoningReplay} {replay : ProviderReasoningReplay}
    {merged : LlmOutputPart}
    (h : mergedReasoning existing existingReplay text replay =
      some merged) : ∃ text replay, merged = .reasoning text replay := by
  simp only [mergedReasoning] at h
  split at h
  · exact ⟨_, _, (Option.some.inj h).symm⟩
  split at h
  · exact ⟨_, _, (Option.some.inj h).symm⟩
  split at h
  · exact ⟨_, _, (Option.some.inj h).symm⟩
  · cases h

/-- Reasoning leaves the full text alone, and no text is open after it. -/
theorem pushReasoning_texts (text : String) (itemId : Option String) (summary : List String)
    (encryptedContent : Option String) :
    (accumulator.pushReasoning text itemId summary encryptedContent).fullText =
        accumulator.fullText ∧
      (accumulator.pushReasoning text itemId summary encryptedContent).openText = "" := by
  have hpushed (parts : List LlmOutputPart) (text : String)
      (replay : Option ProviderReasoningReplay) :
      fullText ⟨parts ++ [LlmOutputPart.reasoning text replay]⟩ = fullText ⟨parts⟩ ∧
        openText ⟨parts ++ [LlmOutputPart.reasoning text replay]⟩ = "" := by
    refine ⟨?_, openText_append _ _⟩
    simp [fullText, partText]
  simp only [pushReasoning]
  split
  · next existing existingReplay hlast =>
    split
    · next merged hmerged =>
      obtain ⟨joined, replay, rfl⟩ := partText_merged hmerged
      obtain ⟨before, hparts⟩ := List.getLast?_eq_some_iff.mp hlast
      have hbefore : accumulator.fullText = fullText ⟨before⟩ := by
        simp [fullText, hparts, partText]
      rw [hparts, List.dropLast_concat, hbefore]
      exact hpushed before joined replay
    · exact hpushed _ _ _
  · exact hpushed _ _ _

end Pushes

section Streams

variable (accumulator : LlmStreamAccumulator)

@[simp] theorem pushAll_cons (push : Push) (pushes : List Push) :
    accumulator.pushAll (push :: pushes) = (accumulator.push push).pushAll pushes := rfl

/-- Nothing but the deltas is added to the full text. -/
theorem length_fullText_le (pushes : List Push) : (accumulator.pushAll pushes).fullText.length ≤
      accumulator.fullText.length + (joinedDeltas pushes).length := by
  induction pushes generalizing accumulator with
  | nil => exact Nat.le_add_right _ _
  | cons push pushes ih =>
    have hrest := ih (accumulator.push push)
    cases push with
    | text delta =>
      have hdelta := length_kept_le accumulator.openText delta
      simp only [LlmStreamAccumulator.push, (pushText_texts accumulator delta).1,
        String.length_append, joinedDeltas, pushAll_cons] at hrest ⊢
      omega
    | reasoning text itemId summary encryptedContent =>
      rw [LlmStreamAccumulator.push, (pushReasoning_texts accumulator _ _ _ _).1] at hrest
      exact hrest
    | toolCall callId toolName inputJson replay =>
      rw [LlmStreamAccumulator.push, (pushToolCall_texts accumulator _ _ _ _).1] at hrest
      exact hrest

/-- The gathered text is the deltas joined exactly if no delta starts with the text that is
open when it is pushed. -/
theorem fullText_iff (pushes : List Push) :
    (accumulator.pushAll pushes).fullText = accumulator.fullText ++ joinedDeltas pushes ↔
      NoDeltaResends accumulator.openText pushes := by
  induction pushes generalizing accumulator with
  | nil => simp [pushAll, joinedDeltas, NoDeltaResends]
  | cons push pushes ih =>
    have hrest := ih (accumulator.push push)
    cases push with
    | text delta =>
      obtain ⟨hfull, hopen⟩ := pushText_texts accumulator delta
      rw [LlmStreamAccumulator.push] at hrest
      simp only [pushAll_cons, LlmStreamAccumulator.push, joinedDeltas, NoDeltaResends]
      by_cases hnew : accumulator.openText = "" ∨ ¬ accumulator.openText.toList <+: delta.toList
      · rw [hfull, hopen, kept_of_new hnew, String.append_assoc] at hrest
        exact hrest.trans (and_iff_right hnew).symm
      · -- the delta loses its beginning, and nothing that follows makes up for it
        obtain ⟨hpos, hbegins⟩ := not_or.mp hnew
        refine iff_of_false (fun hjoined => ?_) (fun h => hnew h.1)
        have hlost := length_kept_lt hpos (not_not.mp hbegins)
        have hle := length_fullText_le (accumulator.pushText delta) pushes
        have hlength := congrArg String.length hjoined
        simp only [hfull, String.length_append] at hle hlength
        omega
    | reasoning text itemId summary encryptedContent =>
      obtain ⟨hfull, hopen⟩ := pushReasoning_texts accumulator text itemId summary
        encryptedContent
      rw [LlmStreamAccumulator.push, hfull, hopen] at hrest
      exact hrest
    | toolCall callId toolName inputJson replay =>
      obtain ⟨hfull, hopen⟩ := pushToolCall_texts accumulator callId toolName inputJson
        replay
      rw [LlmStreamAccumulator.push, hfull, hopen] at hrest
      exact hrest

/-- A delta is swallowed, in whole or in part, exactly if it starts with the deltas that were
sent just before it. -/
theorem stream_keeps_deltas_iff (pushes : List Push) :
    (LlmStreamAccumulator.pushAll ⟨[]⟩ pushes).fullText = joinedDeltas pushes ↔
      NoDeltaResends "" pushes := by
  have hall := fullText_iff ⟨[]⟩ pushes
  have hempty : fullText ⟨[]⟩ = "" := rfl
  rw [hempty, String.empty_append] at hall
  exact hall

/-- Of a token that is sent twice only one is kept. -/
theorem repeated_token_is_swallowed : ¬ ∀ pushes : List Push,
      (LlmStreamAccumulator.pushAll ⟨[]⟩ pushes).fullText = joinedDeltas pushes := by
  intro h
  have hcase := h [.text "ha", .text "ha"]
  revert hcase
  decide

end Streams

end StreamedTexts
