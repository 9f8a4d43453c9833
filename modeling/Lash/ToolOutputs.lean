import Lash.ToolValueCodecs

/-!
# Tool outputs and what the model is shown of them

A tool answers with a value that may hold attachments anywhere. The model is
shown the value as compact JSON text that is cut where an attachment stands, so
how many text parts an answer has depends on its shape. Numbers are kept as the
text they are written with, and the entries of an object as a list in key order.
-/

namespace ToolOutputs

open ToolValues

abbrev AttachmentRef := ToolValueCodecs.AttachmentRef

structure Number where
  text : String
  written : text ≠ ""
  deriving DecidableEq

abbrev ToolValue := Tree Number AttachmentRef

inductive ToolFailureClass where
  | invalidRequest | unavailable | permissionDenied | timeout | execution | external
  | resourceLimit | internal
  deriving DecidableEq

inductive ToolFailureSource where
  | runtime | tool | plugin | policy | cancellation
  deriving DecidableEq

inductive ToolRetryDisposition where
  | never
  | safe (afterMs : Option Nat)
  | exhausted (attempts : Nat)
  deriving DecidableEq

structure ToolFailure (V : Type) where
  failureClass : ToolFailureClass
  code : String
  message : String
  source : ToolFailureSource
  retry : ToolRetryDisposition
  raw : Option V

structure ToolCancellation (V : Type) where
  message : String
  source : ToolFailureSource
  raw : Option V

inductive ToolCallOutcome (V : Type) where
  | success (value : V)
  | failure (failure : ToolFailure V)
  | cancelled (cancellation : ToolCancellation V)

inductive ToolControl where
  | switchAgentFrame (frameId : String) (task : Option String)
  | finish (value : ToolValue)
  | fail (failure : ToolFailure ToolValue)

structure ToolCallOutput where
  outcome : ToolCallOutcome ToolValue
  control : Option ToolControl

/-- What is awaited of a process, with values as JSON. -/
inductive ProcessAwaitOutput (Json ToolControl : Type) where
  | success (value : Json) (control : Option ToolControl)
  | failure (failureClass : ToolFailureClass) (code message : String) (raw : Option Json)
      (control : Option ToolControl)
  | cancelled (message : String) (raw : Option Json) (control : Option ToolControl)

variable (output : ToolCallOutput)

def ToolCallOutput.isSuccess : Bool :=
  match output.outcome with
  | .success _ => true
  | _ => false

abbrev ModelToolReturnPart := ToolValues.ModelToolReturnPart AttachmentRef

structure ModelToolReturn where
  callId : String
  toolName : String
  parts : List ModelToolReturnPart
  deriving DecidableEq

def ToolValue.modelParts (value : ToolValue) : List ModelToolReturnPart :=
  Tree.modelParts Number.text value

def formatFailureMessage (failure : ToolFailure ToolValue) : String :=
  if failure.message = "" then "[Tool execution failed]"
  else "[Tool execution failed]\n" ++ failure.message

def formatCancellationMessage (cancellation : ToolCancellation ToolValue) : String :=
  if cancellation.message = "" then "[Tool execution cancelled]"
  else "[Tool execution cancelled]\n" ++ cancellation.message

def rawAttachments (raw : Option ToolValue) : List ModelToolReturnPart :=
  ((raw.map Tree.attachments).getD []).map .attachment

def modelPartsFromToolOutput : List ModelToolReturnPart :=
  match output.outcome with
  | .success value => value.modelParts
  | .failure failure => .text (formatFailureMessage failure) :: rawAttachments failure.raw
  | .cancelled cancellation =>
    .text (formatCancellationMessage cancellation) :: rawAttachments cancellation.raw

def ModelToolReturn.fromOutput (callId toolName : String) (output : ToolCallOutput) :
    ModelToolReturn where
  callId := callId
  toolName := toolName
  parts := modelPartsFromToolOutput output

section Texts

variable {parts parts' : List ModelToolReturnPart}

def isText : ModelToolReturnPart → Bool
  | .text text => text ≠ ""
  | .attachment _ => false

def textCount (parts : List ModelToolReturnPart) : Nat := parts.countP isText

def endsInText (parts : List ModelToolReturnPart) : Bool := parts.getLast?.any isText

/-- The number of texts once another piece of text is pushed. -/
def textsAhead (parts : List ModelToolReturnPart) : Nat :=
  textCount parts + if endsInText parts then 0 else 1

theorem textsAhead_of_endsInText (ends : endsInText parts = true) :
    textsAhead parts = textCount parts := by
  simp [textsAhead, ends]

variable {text : String}

theorem pushTextPart_texts (parts : List ModelToolReturnPart) (nonempty : text ≠ "") :
    textsAhead (pushTextPart parts text) = textsAhead parts ∧
      endsInText (pushTextPart parts text) = true := by
  have happend (existing : String) : existing ++ text ≠ "" := by
    intro h
    exact nonempty (String.append_eq_empty_iff.mp h).2
  unfold pushTextPart
  rw [if_neg nonempty]
  cases hlast : parts.getLast? with
  | none =>
    rw [List.getLast?_eq_none_iff.mp hlast]
    simp [textsAhead, textCount, endsInText, isText, nonempty]
  | some last =>
    obtain ⟨earlier, rfl⟩ := List.getLast?_eq_some_iff.mp hlast
    cases last with
    | text existing =>
      by_cases hexisting : existing = ""
      · simp [textsAhead, textCount, endsInText, isText, hexisting, nonempty]
      · simp [textsAhead, textCount, endsInText, isText, hexisting, happend]
    | attachment reference =>
      simp [textsAhead, textCount, endsInText, isText, nonempty]

/-- What pushing a value does to the texts: it keeps to the open one, unless an
attachment cuts it. -/
structure Pushed (cut ready : Prop) (parts parts' : List ModelToolReturnPart) : Prop where
  grows : textsAhead parts ≤ textsAhead parts'
  whole : ¬ cut → ready → textsAhead parts' = textsAhead parts ∧ endsInText parts' = true
  cuts : cut → endsInText parts = true → textsAhead parts + 1 ≤ textsAhead parts'

variable {cut : Prop}

theorem pushed_text (nonempty : text ≠ "") (uncut : ¬ cut) :
    Pushed cut True parts (pushTextPart parts text) := by
  obtain ⟨hahead, hends⟩ := pushTextPart_texts parts nonempty
  exact ⟨Nat.le_of_eq hahead.symm, fun _ _ => ⟨hahead, hends⟩, fun h => absurd h uncut⟩

theorem pushed_attachment (reference : AttachmentRef) (h : cut) :
    Pushed cut True parts (parts ++ [ModelToolReturnPart.attachment reference]) := by
  have hahead :
      textsAhead (parts ++ [ModelToolReturnPart.attachment reference]) = textCount parts + 1 := by
    simp [textsAhead, textCount, endsInText, isText]
  refine ⟨?_, fun hnot => absurd h hnot, fun _ hends => ?_⟩
  · rw [hahead, textsAhead]
    split <;> omega
  · exact Nat.le_of_eq (by rw [hahead, textsAhead_of_endsInText hends])

/-- Brackets around what is pushed. -/
theorem Pushed.bracketed {opening closing : String} (h : opening ≠ "") (h' : closing ≠ "")
    (inner : Pushed cut (endsInText (pushTextPart parts opening) = true)
      (pushTextPart parts opening) parts') :
    Pushed cut True parts (pushTextPart parts' closing) := by
  obtain ⟨hopen, hends⟩ := pushTextPart_texts parts h
  obtain ⟨hclose, hends'⟩ := pushTextPart_texts parts' h'
  refine ⟨?_, fun hwhole _ => ⟨?_, hends'⟩, fun hcut hends₀ => ?_⟩
  · rw [hclose, ← hopen]
    exact inner.grows
  · rw [hclose, (inner.whole hwhole hends).1, hopen]
  · rw [hclose, ← hopen]
    exact inner.cuts hcut hends

/-- An element behind its separator, then the others. -/
theorem Pushed.cons {cut' : Prop} {separated pushed rest : List ModelToolReturnPart}
    (ahead : textsAhead separated = textsAhead parts)
    (ready : endsInText parts = true → endsInText separated = true)
    (first : Pushed cut True separated pushed)
    (others : Pushed cut' (endsInText pushed = true) pushed rest) :
    Pushed (cut ∨ cut') (endsInText parts = true) parts rest := by
  refine ⟨?_, fun hwhole hends => ?_, fun hcut hends => ?_⟩
  · rw [← ahead]
    exact Nat.le_trans first.grows others.grows
  · obtain ⟨hfirst, hends'⟩ := first.whole (fun h => hwhole (.inl h)) trivial
    obtain ⟨hothers, hends''⟩ := others.whole (fun h => hwhole (.inr h)) hends'
    exact ⟨by rw [hothers, hfirst, ahead], hends''⟩
  · rw [← ahead]
    by_cases h : cut
    · exact Nat.le_trans (first.cuts h (ready hends)) others.grows
    · obtain ⟨hfirst, hends'⟩ := first.whole h trivial
      rw [← hfirst]
      exact others.cuts (hcut.resolve_left h) hends'

theorem jsonString_ne_empty (text : String) : jsonString text ≠ "" := by
  intro h
  have hquote := (String.append_eq_empty_iff.mp h).2
  exact absurd hquote (by decide)

theorem separated_texts (first : Bool) (parts : List ModelToolReturnPart) :
    textsAhead (if first then parts else pushTextPart parts ",") = textsAhead parts ∧
      (endsInText parts = true →
        endsInText (if first then parts else pushTextPart parts ",") = true) := by
  cases first with
  | true => exact ⟨rfl, id⟩
  | false =>
    have hcomma : "," ≠ "" := by decide
    obtain ⟨hahead, hends⟩ := pushTextPart_texts parts hcomma
    exact ⟨hahead, fun _ => hends⟩

mutual

theorem pushed_value (value : ToolValue) (parts : List ModelToolReturnPart) :
    Pushed (value.attachments ≠ []) True parts (pushCompactModelParts Number.text value parts) := by
  cases value with
  | null => exact pushed_text (by decide) (fun h => h rfl)
  | bool value =>
    refine pushed_text ?_ (fun h => h rfl)
    cases value <;> decide
  | number value => exact pushed_text value.written (fun h => h rfl)
  | string text => exact pushed_text (jsonString_ne_empty text) (fun h => h rfl)
  | attachment reference => exact pushed_attachment reference (List.cons_ne_nil _ _)
  | array values =>
    exact .bracketed (by decide) (by decide) (pushed_values values true _)
  | object entries =>
    exact .bracketed (by decide) (by decide) (pushed_entries entries true _)

theorem pushed_values (values : List ToolValue) (first : Bool) (parts : List ModelToolReturnPart) :
    Pushed (attachmentsOfValues values ≠ []) (endsInText parts = true) parts
      (pushCompactValues Number.text first values parts) := by
  cases values with
  | nil =>
    exact ⟨Nat.le_refl _, fun _ hends => ⟨rfl, hends⟩, fun h => absurd rfl h⟩
  | cons value values =>
    have hcut : (attachmentsOfValues (value :: values) ≠ []) =
        (value.attachments ≠ [] ∨ attachmentsOfValues values ≠ []) := by
      simp [attachmentsOfValues, imp_iff_not_or]
    rw [hcut]
    refine .cons ?_ ?_ (pushed_value value (if first then parts else pushTextPart parts ","))
      (pushed_values values false _)
    · exact (separated_texts first parts).1
    · exact (separated_texts first parts).2

theorem pushed_entries (entries : List (String × ToolValue)) (first : Bool)
    (parts : List ModelToolReturnPart) :
    Pushed (attachmentsOfEntries entries ≠ []) (endsInText parts = true) parts
      (pushCompactEntries Number.text first entries parts) := by
  cases entries with
  | nil =>
    exact ⟨Nat.le_refl _, fun _ hends => ⟨rfl, hends⟩, fun h => absurd rfl h⟩
  | cons entry entries =>
    obtain ⟨key, value⟩ := entry
    have hcut : (attachmentsOfEntries ((key, value) :: entries) ≠ []) =
        (value.attachments ≠ [] ∨ attachmentsOfEntries entries ≠ []) := by
      simp [attachmentsOfEntries, imp_iff_not_or]
    have hmark : ":" ≠ "" := by decide
    obtain ⟨hkey, _⟩ := pushTextPart_texts
      (if first then parts else pushTextPart parts ",") (jsonString_ne_empty key)
    obtain ⟨hcolon, hends⟩ := pushTextPart_texts
      (pushTextPart (if first then parts else pushTextPart parts ",") (jsonString key)) hmark
    rw [hcut]
    refine .cons ?_ (fun _ => hends) (pushed_value value _) (pushed_entries entries false _)
    rw [hcolon, hkey, (separated_texts first parts).1]

end

theorem textCount_pushTextPart_nil (nonempty : text ≠ "") :
    textCount (pushTextPart [] text) = 1 := by
  obtain ⟨hahead, hends⟩ := pushTextPart_texts [] nonempty
  rw [textsAhead_of_endsInText hends] at hahead
  exact hahead

/-- A bracketed value is one text, or at least two if something cuts it. -/
theorem textCount_bracketed {opening closing : String} (h : opening ≠ "") (h' : closing ≠ "")
    (inner : Pushed cut (endsInText (pushTextPart [] opening) = true) (pushTextPart [] opening)
      parts') : textCount (pushTextPart parts' closing) = 1 ↔ ¬ cut := by
  obtain ⟨hopen, hends⟩ := pushTextPart_texts [] h
  obtain ⟨hclose, hends'⟩ := pushTextPart_texts parts' h'
  have hone : textsAhead ([] : List ModelToolReturnPart) = 1 := rfl
  rw [textsAhead_of_endsInText hends'] at hclose
  rw [hclose]
  constructor
  · intro hcount hcut
    have htwo := inner.cuts hcut hends
    omega
  · intro hwhole
    rw [(inner.whole hwhole hends).1, hopen, hone]

/-- A value is shown as exactly one text unless it is the empty text or holds an
attachment. -/
theorem textCount_modelParts (value : ToolValue) :
    textCount value.modelParts = 1 ↔ value ≠ .string "" ∧ value.attachments = [] := by
  have hone {text : String} (nonempty : text ≠ "") (hvalue : value ≠ .string "")
      (hnone : value.attachments = []) :
      textCount (pushTextPart [] text) = 1 ↔ value ≠ .string "" ∧ value.attachments = [] :=
    ⟨fun _ => ⟨hvalue, hnone⟩, fun _ => textCount_pushTextPart_nil nonempty⟩
  cases value with
  | null =>
    have hnull : "null" ≠ "" := by decide
    exact hone hnull (by simp) rfl
  | bool value => exact hone (by cases value <;> decide) (by simp) rfl
  | number value => exact hone value.written (by simp) rfl
  | string text =>
    by_cases htext : text = ""
    · simp [htext, ToolValue.modelParts, Tree.modelParts, pushTextPart, textCount]
    · exact hone htext (by simp [htext]) rfl
  | attachment reference =>
    simp [ToolValue.modelParts, Tree.modelParts, textCount, isText, Tree.attachments]
  | array values =>
    have hopening : "[" ≠ "" := by decide
    have hclosing : "]" ≠ "" := by decide
    have hcount := textCount_bracketed hopening hclosing
      (pushed_values values true (pushTextPart [] "["))
    refine hcount.trans ?_
    simp [Tree.attachments]
  | object entries =>
    have hopening : "\x7b" ≠ "" := by decide
    have hclosing : "\x7d" ≠ "" := by decide
    have hcount := textCount_bracketed hopening hclosing
      (pushed_entries entries true (pushTextPart [] "\x7b"))
    refine hcount.trans ?_
    simp [Tree.attachments]

theorem textCount_attachments (references : List AttachmentRef) :
    textCount (references.map .attachment) = 0 := by
  unfold textCount
  rw [List.countP_eq_zero]
  intro part hpart
  obtain ⟨reference, _, rfl⟩ := List.mem_map.mp hpart
  simp [isText]

/-- An output is shown as exactly one text unless it is a success whose value is not. -/
theorem textCount_modelPartsFromToolOutput (output : ToolCallOutput) :
    textCount (modelPartsFromToolOutput output) = 1 ↔ ∀ value, output.outcome = .success value →
        value ≠ .string "" ∧ value.attachments = [] := by
  have hmessage {text : String} (nonempty : text ≠ "") (raw : Option ToolValue) :
      textCount (.text text :: rawAttachments raw) = 1 := by
    unfold rawAttachments
    rw [textCount, List.countP_cons_of_pos (by simpa [isText] using nonempty)]
    exact congrArg (· + 1) (textCount_attachments _)
  unfold modelPartsFromToolOutput
  cases output.outcome with
  | success value =>
    refine (textCount_modelParts value).trans ⟨?_, fun h => h value rfl⟩
    intro h other hother
    cases hother
    exact h
  | failure failure =>
    refine ⟨fun _ _ h => (by cases h), fun _ => hmessage ?_ failure.raw⟩
    unfold formatFailureMessage
    split <;> simp
  | cancelled cancellation =>
    refine ⟨fun _ _ h => (by cases h), fun _ => hmessage ?_ cancellation.raw⟩
    unfold formatCancellationMessage
    split <;> simp

end Texts

end ToolOutputs
