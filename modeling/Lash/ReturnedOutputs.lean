import Lash.ToolOutputs
import Lash.ToolValueParts

/-!
# Tool outputs awaited from a process

A process keeps the output of its tool call as plain JSON and makes a tool output of it again.
The reading takes every object for an object of the user. So the output comes back as it was
exactly when its value holds no attachment and no object with the reserved key.
-/

namespace ReturnedOutputs

open ToolValues ToolValueCodecs ToolValueParts
open ToolOutputs (ToolFailureClass ToolFailure ToolCancellation ToolCallOutcome)

/-! ### Tool outputs -/

structure ToolCallOutput (ToolControl : Type) where
  outcome : ToolCallOutcome ToolValue
  control : Option ToolControl

inductive ToolCallStatus where
  | success | failure | cancelled
  deriving DecidableEq

def ToolFailure.tool (failureClass : ToolFailureClass) (code message : String) :
    ToolFailure ToolValue :=
  ⟨failureClass, code, message, .tool, .never, none⟩

def ToolCancellation.runtime (message : String) : ToolCancellation ToolValue :=
  ⟨message, .cancellation, none⟩

variable {ToolControl : Type}

namespace ToolCallOutput

def status (output : ToolCallOutput ToolControl) : ToolCallStatus :=
  match output.outcome with
  | .success _ => .success
  | .failure _ => .failure
  | .cancelled _ => .cancelled

/-- The value of a success, or the raw value of another outcome. -/
def value (output : ToolCallOutput ToolControl) : Option ToolValue :=
  match output.outcome with
  | .success value => some value
  | .failure failure => failure.raw
  | .cancelled cancellation => cancellation.raw

def attachments (output : ToolCallOutput ToolControl) : List AttachmentRef :=
  (output.value.map ToolValues.Tree.attachments).getD []

end ToolCallOutput

abbrev ProcessAwaitOutput (ToolControl : Type) := ToolOutputs.ProcessAwaitOutput Value ToolControl

mutual

/-- The source's conversion from JSON, which reads no tag. -/
def ofValue : Value → ToolValue
  | .null => .null
  | .bool value => .bool value
  | .number value => .number value
  | .string value => .string value
  | .array values => .array (ofValues values)
  | .object map => .object (ofEntries map)

def ofValues : List Value → List ToolValue
  | [] => []
  | value :: values => ofValue value :: ofValues values

def ofEntries : List (String × Value) → List (String × ToolValue)
  | [] => []
  | (key, value) :: map => (key, ofValue value) :: ofEntries map

end

namespace ProcessAwaitOutput

def fromToolOutput (output : ToolCallOutput ToolControl) : ProcessAwaitOutput ToolControl :=
  match output.outcome with
  | .success value => .success (toJsonValue value) output.control
  | .failure failed =>
    .failure failed.failureClass failed.code failed.message (failed.raw.map toJsonValue)
      output.control
  | .cancelled cancellation =>
    .cancelled cancellation.message (cancellation.raw.map toJsonValue) output.control

def intoToolOutput : ProcessAwaitOutput ToolControl → ToolCallOutput ToolControl
  | .success value control => ⟨.success (ofValue value), control⟩
  | .failure failureClass code message raw control =>
    ⟨.failure { ToolFailure.tool failureClass code message with raw := raw.map ofValue }, control⟩
  | .cancelled message raw control =>
    ⟨.cancelled { ToolCancellation.runtime message with raw := raw.map ofValue }, control⟩

end ProcessAwaitOutput

/-! ### Values read without tags -/

mutual

theorem ofValue_plain (value : Value) :
    plainJson (ofValue value) = value ∧ (ofValue value).attachments = [] := by
  cases value with
  | null | bool value | number value | string value => exact ⟨rfl, rfl⟩
  | array values =>
    obtain ⟨hvalues, hnone⟩ := ofValues_plain values
    exact ⟨congrArg Value.array hvalues, hnone⟩
  | object map =>
    obtain ⟨hmap, hnone⟩ := ofEntries_plain map
    exact ⟨congrArg Value.object hmap, hnone⟩

theorem ofValues_plain (values : List Value) :
    plainValues (ofValues values) = values ∧ attachmentsOfValues (ofValues values) = [] := by
  cases values with
  | nil => exact ⟨rfl, rfl⟩
  | cons value values =>
    simp only [ofValues, plainValues, attachmentsOfValues, ofValue_plain value,
      ofValues_plain values, List.append_nil, and_self]

theorem ofEntries_plain (map : List (String × Value)) :
    plainEntries (ofEntries map) = map ∧ attachmentsOfEntries (ofEntries map) = [] := by
  cases map with
  | nil => exact ⟨rfl, rfl⟩
  | cons entry map =>
    obtain ⟨key, value⟩ := entry
    simp only [ofEntries, plainEntries, attachmentsOfEntries, ofValue_plain value,
      ofEntries_plain map, List.append_nil, and_self]

end

mutual

theorem ofValue_plainJson (value : ToolValue) (bare : value.attachments = []) :
    ofValue (plainJson value) = value := by
  cases value with
  | null | bool value | number value | string value => rfl
  | attachment reference => cases bare
  | array values => exact congrArg Tree.array (ofValues_plainValues values bare)
  | object entries => exact congrArg Tree.object (ofEntries_plainEntries entries bare)

theorem ofValues_plainValues (values : List ToolValue) (bare : attachmentsOfValues values = []) :
    ofValues (plainValues values) = values := by
  cases values with
  | nil => rfl
  | cons value values =>
    obtain ⟨hvalue, hvalues⟩ := List.append_eq_nil_iff.mp bare
    rw [plainValues, ofValues, ofValue_plainJson value hvalue, ofValues_plainValues values hvalues]

theorem ofEntries_plainEntries (entries : List (String × ToolValue))
    (bare : attachmentsOfEntries entries = []) : ofEntries (plainEntries entries) = entries := by
  cases entries with
  | nil => rfl
  | cons entry entries =>
    obtain ⟨key, value⟩ := entry
    obtain ⟨hvalue, hentries⟩ := List.append_eq_nil_iff.mp bare
    rw [plainEntries, ofEntries, ofValue_plainJson value hvalue,
      ofEntries_plainEntries entries hentries]

end

/-- A value comes back from its JSON exactly when nothing in it is tagged there. -/
theorem ofValue_toJsonValue_iff (value : ToolValue) :
    ofValue (toJsonValue value) = value ↔ value.attachments = [] ∧ reserved value = false := by
  constructor
  · intro hback
    obtain ⟨hplain, hbare⟩ := ofValue_plain (toJsonValue value)
    rw [hback] at hplain hbare
    refine ⟨hbare, (compact_toJsonValue_iff (fun _ => "") value).mp ?_⟩
    rw [hplain]
  · rintro ⟨hbare, hfree⟩
    rw [toJsonValue_of_not_reserved value hfree, ofValue_plainJson value hbare]

/-- An output that is awaited has the status it had. It has the value and the attachments it had
exactly when its value holds no attachment and no object with the reserved key. -/
theorem await_output_returns_iff (output : ToolCallOutput ToolControl) :
    let returned := (ProcessAwaitOutput.fromToolOutput output).intoToolOutput
    (returned.status = output.status ∧ returned.value = output.value ∧
        returned.attachments = output.attachments) ↔
      ∀ value, output.value = some value → value.attachments = [] ∧ reserved value = false := by
  intro returned
  have hstatus : returned.status = output.status := by
    obtain ⟨_ | _ | _, control⟩ := output <;> rfl
  have hvalue : returned.value = output.value.map fun value => ofValue (toJsonValue value) := by
    obtain ⟨_ | failure | cancellation, control⟩ := output
    · rfl
    · exact Option.map_map ..
    · exact Option.map_map ..
  have hsame : returned.value = output.value ↔
      ∀ value, output.value = some value → value.attachments = [] ∧ reserved value = false := by
    rw [hvalue]
    cases output.value with
    | none => exact iff_of_true rfl nofun
    | some value => simp [ofValue_toJsonValue_iff]
  rw [← hsame]
  refine ⟨fun h => h.2.1, fun h => ⟨hstatus, h, ?_⟩⟩
  rw [ToolCallOutput.attachments, h, ToolCallOutput.attachments]

/-- A picture is awaited as the JSON of its tag. -/
theorem attachment_is_inlined :
    let picture : AttachmentRef := ⟨"a", .image .png, 3, none, none, none⟩
    let output : ToolCallOutput Unit := ⟨.success (.attachment picture), none⟩
    let returned := (ProcessAwaitOutput.fromToolOutput output).intoToolOutput
    output.attachments = [picture] ∧ returned.attachments = [] ∧
      returned.value = some (ofValue (taggedAttachmentJson picture)) :=
  ⟨rfl, rfl, rfl⟩

end ReturnedOutputs
