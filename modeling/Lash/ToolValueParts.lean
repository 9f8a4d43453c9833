import Mathlib.Data.List.Chain
import Lash.ToolValueCodecs

/-!
# The parts of a tool value

The model is shown a value as compact JSON that is cut where an attachment stands. Put together
again, with the JSON of each attachment in its place, the parts are the compact JSON of the
value with its objects as they are. Only an object with the reserved key is written otherwise
where the value is encoded.
-/

namespace ToolValueParts

open ToolValues ToolValueCodecs List Bool

abbrev ModelToolReturnPart := ToolValues.ModelToolReturnPart AttachmentRef

section Texts

-- the shortest decimal that reads back as the double
variable (formatFloat : Float → String)

def numberText : Number → String
  | .posInt n => toString n.toNat
  | .negInt n _ => toString n.toInt
  | .float x _ => formatFloat x

def modelParts (value : ToolValue) : List ModelToolReturnPart :=
  Tree.modelParts (numberText formatFloat) value

/-! ### Compact JSON -/

mutual

/-- The text of a JSON value without blanks. -/
def compact : Value → String
  | .null => "null"
  | .bool value => if value then "true" else "false"
  | .number value => numberText formatFloat value
  | .string value => jsonString value
  | .array values => "[" ++ compactValues true values ++ "]"
  | .object map => "\x7b" ++ compactEntries true map ++ "\x7d"

def compactValues (first : Bool) : List Value → String
  | [] => ""
  | value :: values =>
    (if first then "" else ",") ++ compact value ++ compactValues false values

def compactEntries (first : Bool) : List (String × Value) → String
  | [] => ""
  | (key, value) :: map =>
    (if first then "" else ",") ++ jsonString key ++ ":" ++ compact value ++
      compactEntries false map

end

mutual

/-- The JSON of a value with every object as it is, under the reserved key or not. -/
def plainJson : ToolValue → Value
  | .null => .null
  | .bool value => .bool value
  | .number value => .number value
  | .string value => .string value
  | .array values => .array (plainValues values)
  | .attachment reference => taggedAttachmentJson reference
  | .object entries => .object (plainEntries entries)

def plainValues : List ToolValue → List Value
  | [] => []
  | value :: values => plainJson value :: plainValues values

def plainEntries : List (String × ToolValue) → List (String × Value)
  | [] => []
  | (key, value) :: entries => (key, plainJson value) :: plainEntries entries

end

mutual

/-- An object somewhere in the value has the reserved key. -/
def reserved : ToolValue → Bool
  | .array values => reservedValues values
  | .object entries => containsKey tagKey entries || reservedEntries entries
  | .null => false
  | .bool _ => false
  | .number _ => false
  | .string _ => false
  | .attachment _ => false

def reservedValues : List ToolValue → Bool
  | [] => false
  | value :: values => reserved value || reservedValues values

def reservedEntries : List (String × ToolValue) → Bool
  | [] => false
  | (_, value) :: entries => reserved value || reservedEntries entries

end

/-- What stands for a part in the text of all parts: for an attachment the JSON it is encoded
as. -/
def partText : ModelToolReturnPart → String
  | .text text => text
  | .attachment reference => compact formatFloat (taggedAttachmentJson reference)

def partsText (parts : List ModelToolReturnPart) : String :=
  String.join (parts.map (partText formatFloat))

end Texts

def partAttachment : ModelToolReturnPart → Option AttachmentRef
  | .text _ => none
  | .attachment reference => some reference

def isText : ModelToolReturnPart → Bool
  | .text _ => true
  | .attachment _ => false

/-- No two texts stand side by side. -/
def Apart (parts : List ModelToolReturnPart) : Prop :=
  parts.IsChain fun part part' => ¬ (isText part = true ∧ isText part' = true)

/-! ### What is pushed -/

/-- Pushing writes this text and these attachments behind what is there. -/
structure Writes (formatFloat : Float → String) (text : String)
    (references : List AttachmentRef) (parts parts' : List ModelToolReturnPart) : Prop where
  text : partsText formatFloat parts' = partsText formatFloat parts ++ text
  attachments : parts'.filterMap partAttachment =
    parts.filterMap partAttachment ++ references
  apart : Apart parts → Apart parts'

section Writing

variable {formatFloat : Float → String} {text text' : String}
variable {references references' : List AttachmentRef}
variable {parts parts' parts'' : List ModelToolReturnPart}

theorem Writes.refl (parts : List ModelToolReturnPart) : Writes formatFloat "" [] parts parts :=
  ⟨String.append_empty.symm, (List.append_nil _).symm, id⟩

theorem Writes.trans (first : Writes formatFloat text references parts parts')
    (second : Writes formatFloat text' references' parts' parts'') :
    Writes formatFloat (text ++ text') (references ++ references') parts parts'' := by
  refine ⟨?_, ?_, fun apart => second.apart (first.apart apart)⟩
  · rw [second.text, first.text, String.append_assoc]
  · rw [second.attachments, first.attachments, append_assoc]

theorem writes_text (parts : List ModelToolReturnPart) (text : String) :
    Writes formatFloat text [] parts (pushTextPart parts text) := by
  by_cases hempty : text = ""
  · subst hempty
    rw [pushTextPart, if_pos rfl]
    exact .refl parts
  rw [pushTextPart, if_neg hempty]
  split
  · next existing hlast =>
    obtain ⟨before, rfl⟩ := getLast?_eq_some_iff.mp hlast
    refine ⟨?_, ?_, fun apart => ?_⟩
    · simp [partsText, partText, String.append_assoc]
    · simp [partAttachment, filterMap_cons]
    · rw [Apart, isChain_append] at apart ⊢
      simpa [isText] using apart
  · next hlast =>
    refine ⟨?_, ?_, fun apart => ?_⟩
    · simp [partsText, partText]
    · simp [partAttachment]
    · refine isChain_append.mpr ⟨apart, isChain_singleton _, ?_⟩
      intro last hfound part _ ⟨htext, _⟩
      cases last with
      | text existing => exact hlast existing hfound
      | attachment reference => cases htext

theorem writes_attachment (parts : List ModelToolReturnPart) (reference : AttachmentRef) :
    Writes formatFloat (compact formatFloat (taggedAttachmentJson reference)) [reference] parts
      (parts ++ [ModelToolReturnPart.attachment reference]) := by
  refine ⟨?_, ?_, fun apart => ?_⟩
  · simp [partsText, partText]
  · simp [partAttachment]
  · refine isChain_append.mpr ⟨apart, isChain_singleton _, ?_⟩
    intro last _ part hpart ⟨_, htext⟩
    obtain rfl := Option.some.inj hpart
    cases htext

/-- A separator before all elements but the first. -/
theorem writes_separator (first : Bool) (parts : List ModelToolReturnPart) :
    Writes formatFloat (if first then "" else ",") [] parts
      (if first then parts else pushTextPart parts ",") := by
  cases first with
  | true => exact .refl parts
  | false => exact writes_text parts ","

mutual

theorem writes_value (value : ToolValue) (parts : List ModelToolReturnPart) :
    Writes formatFloat (compact formatFloat (plainJson value)) value.attachments parts
      (pushCompactModelParts (numberText formatFloat) value parts) := by
  cases value with
  | null | bool value | number value | string text => exact writes_text parts _
  | attachment reference => exact writes_attachment parts reference
  | array values =>
    have hinner := ((writes_text parts "[").trans (writes_values values true _)).trans
      (writes_text _ "]")
    simpa [plainJson, compact, Tree.attachments, pushCompactModelParts] using hinner
  | object entries =>
    have hinner := ((writes_text parts "\x7b").trans (writes_entries entries true _)).trans
      (writes_text _ "\x7d")
    simpa [plainJson, compact, Tree.attachments, pushCompactModelParts] using hinner

theorem writes_values (values : List ToolValue) (first : Bool) (parts : List ModelToolReturnPart) :
    Writes formatFloat (compactValues formatFloat first (plainValues values))
      (attachmentsOfValues values) parts
      (pushCompactValues (numberText formatFloat) first values parts) := by
  cases values with
  | nil => exact .refl parts
  | cons value values =>
    exact ((writes_separator first parts).trans (writes_value value _)).trans
      (writes_values values false _)

theorem writes_entries (entries : List (String × ToolValue)) (first : Bool)
    (parts : List ModelToolReturnPart) :
    Writes formatFloat (compactEntries formatFloat first (plainEntries entries))
      (attachmentsOfEntries entries) parts
      (pushCompactEntries (numberText formatFloat) first entries parts) := by
  cases entries with
  | nil => exact .refl parts
  | cons entry entries =>
    obtain ⟨key, value⟩ := entry
    exact ((((writes_separator first parts).trans (writes_text _ (jsonString key))).trans
      (writes_text _ ":")).trans (writes_value value _)).trans (writes_entries entries false _)

end

end Writing

/-! ### The encoded value -/

mutual

theorem toJsonValue_of_not_reserved (value : ToolValue) (free : reserved value = false) :
    toJsonValue value = plainJson value := by
  cases value with
  | null | bool value | number value | string text | attachment reference => rfl
  | array values =>
    rw [reserved] at free
    rw [toJsonValue, plainJson, toJsonValues_of_not_reserved values free]
  | object entries =>
    rw [reserved, or_eq_false_iff] at free
    obtain ⟨hkey, hentries⟩ := free
    simp only [toJsonValue, hkey, plainJson, toJsonEntries_of_not_reserved entries hentries,
      false_eq_true, if_false]

theorem toJsonValues_of_not_reserved (values : List ToolValue)
    (free : reservedValues values = false) : toJsonValues values = plainValues values := by
  cases values with
  | nil => rfl
  | cons value values =>
    rw [reservedValues, or_eq_false_iff] at free
    rw [toJsonValues, plainValues, toJsonValue_of_not_reserved value free.1,
      toJsonValues_of_not_reserved values free.2]

theorem toJsonEntries_of_not_reserved (entries : List (String × ToolValue))
    (free : reservedEntries entries = false) : toJsonEntries entries = plainEntries entries := by
  cases entries with
  | nil => rfl
  | cons entry entries =>
    obtain ⟨key, value⟩ := entry
    rw [reservedEntries, or_eq_false_iff] at free
    rw [toJsonEntries, plainEntries, toJsonValue_of_not_reserved value free.1,
      toJsonEntries_of_not_reserved entries free.2]

end

/-- A text that is as long, or longer if the flag is set. -/
def Longer (flag : Bool) (text text' : String) : Prop :=
  text.length ≤ text'.length ∧ (flag = true → text.length < text'.length)

section Lengths

variable (formatFloat : Float → String) {flag flag' : Bool} {a a' b b' : String}

theorem Longer.refl (text : String) : Longer false text text := ⟨Nat.le_refl _, nofun⟩

theorem Longer.append (first : Longer flag a b) (second : Longer flag' a' b') :
    Longer (flag || flag') (a ++ a') (b ++ b') := by
  obtain ⟨hle, hlt⟩ := first
  obtain ⟨hle', hlt'⟩ := second
  simp only [Longer, String.length_append, or_eq_true]
  refine ⟨by omega, ?_⟩
  rintro (h | h)
  · have := hlt h
    omega
  · have := hlt' h
    omega

theorem Longer.around (longer : Longer flag a b) (before after : String) :
    Longer flag (before ++ a ++ after) (before ++ b ++ after) := by
  have h := ((Longer.refl before).append longer).append (Longer.refl after)
  simpa using h

/-- An escaped object is longer than the object. -/
theorem compact_escaped (object : Value) : (compact formatFloat object).length <
      (compact formatFloat (escapedObjectToolValueJson object)).length := by
  simp only [escapedObjectToolValueJson, compact, compactEntries, String.length_append]
  have hbrace : 0 < "\x7b".length := by decide
  omega

mutual

theorem longer_value (value : ToolValue) :
    Longer (reserved value) (compact formatFloat (plainJson value))
      (compact formatFloat (toJsonValue value)) := by
  cases value with
  | null | bool value | number value | string text | attachment reference => exact .refl _
  | array values => exact (longer_values values true).around "[" "]"
  | object entries =>
    have hobject := (longer_entries entries true).around "\x7b" "\x7d"
    cases hkey : containsKey tagKey entries with
    | false =>
      simp only [reserved, hkey, plainJson, toJsonValue, Bool.false_or, Bool.false_eq_true,
        if_false]
      exact hobject
    | true =>
      simp only [reserved, hkey, plainJson, toJsonValue, Bool.true_or, if_true]
      have hescaped := compact_escaped formatFloat (.object (toJsonEntries entries))
      have hle := Nat.lt_of_le_of_lt hobject.1 hescaped
      exact ⟨Nat.le_of_lt hle, fun _ => hle⟩

theorem longer_values (values : List ToolValue) (first : Bool) :
    Longer (reservedValues values) (compactValues formatFloat first (plainValues values))
      (compactValues formatFloat first (toJsonValues values)) := by
  cases values with
  | nil => exact .refl _
  | cons value values =>
    have h := ((Longer.refl (if first then "" else ",")).append (longer_value value)).append
      (longer_values values false)
    rw [reservedValues, plainValues, toJsonValues, compactValues, compactValues]
    simpa only [Bool.false_or] using h

theorem longer_entries (entries : List (String × ToolValue)) (first : Bool) :
    Longer (reservedEntries entries) (compactEntries formatFloat first (plainEntries entries))
      (compactEntries formatFloat first (toJsonEntries entries)) := by
  cases entries with
  | nil => exact .refl _
  | cons entry entries =>
    obtain ⟨key, value⟩ := entry
    have h := ((Longer.refl ((if first then "" else ",") ++ jsonString key ++ ":")).append
      (longer_value value)).append (longer_entries entries false)
    rw [reservedEntries, plainEntries, toJsonEntries, compactEntries, compactEntries]
    simpa only [Bool.false_or, Bool.or_assoc] using h

end

/-- The encoded value has the text of the plain one exactly if nothing in it is escaped. -/
theorem compact_toJsonValue_iff (value : ToolValue) :
    compact formatFloat (plainJson value) = compact formatFloat (toJsonValue value) ↔
      reserved value = false := by
  constructor
  · intro hsame
    cases hreserved : reserved value with
    | false => rfl
    | true =>
      have hlonger := (longer_value formatFloat value).2 hreserved
      rw [hsame] at hlonger
      exact absurd hlonger (Nat.lt_irrefl _)
  · intro free
    rw [toJsonValue_of_not_reserved value free]

end Lengths

/-- The law of the parts that the model is shown of a value, when it reads `encoded`. -/
structure PartsLaw (formatFloat : Float → String) (encoded : Value) (value : ToolValue) :
    Prop where
  text : partsText formatFloat (modelParts formatFloat value) = compact formatFloat encoded
  attachments : (modelParts formatFloat value).filterMap partAttachment = value.attachments
  apart : Apart (modelParts formatFloat value)

/-- Put together, the parts are the compact JSON of the value with its objects as they are. It
is the JSON that the value is encoded as exactly if no object in it has the reserved key. -/
theorem model_parts_are_compact_json (formatFloat : Float → String) (value : ToolValue)
    (structured : ∀ text, value ≠ .string text) :
    PartsLaw formatFloat (plainJson value) value ∧
      (PartsLaw formatFloat (toJsonValue value) value ↔ reserved value = false) := by
  have hwrites : Writes formatFloat (compact formatFloat (plainJson value)) value.attachments []
      (modelParts formatFloat value) := by
    cases value with
    | string text => exact absurd rfl (structured text)
    | null | bool | number | array | object | attachment => exact writes_value _ []
  have hplain : PartsLaw formatFloat (plainJson value) value :=
    ⟨hwrites.text.trans String.empty_append, hwrites.attachments, hwrites.apart .nil⟩
  refine ⟨hplain, fun law => ?_, fun free => ?_⟩
  · exact (compact_toJsonValue_iff formatFloat value).mp (hplain.text.symm.trans law.text)
  · rw [toJsonValue_of_not_reserved value free]
    exact hplain

/-- An attachment in an array that also holds an object with the reserved key. -/
def markedArray : ToolValue :=
  .array [.attachment ⟨"a", .image .png, 3, none, none, none⟩,
    .object [(tagKey, .string "user")]]

theorem model_parts_are_compact_json_marked :
    PartsLaw (fun _ => "0.5") (plainJson markedArray) markedArray ∧
      (PartsLaw (fun _ => "0.5") (toJsonValue markedArray) markedArray ↔
        reserved markedArray = false) :=
  model_parts_are_compact_json (fun _ => "0.5") markedArray nofun

/-- The model is shown an object with the reserved key as it is, not as it is encoded. -/
theorem reserved_keys_are_not_escaped :
    ¬ ∀ (formatFloat : Float → String) (value : ToolValue), (∀ text, value ≠ .string text) →
      PartsLaw formatFloat (toJsonValue value) value := by
  intro h
  have htext := (h (fun _ => "0.5") (.object [(tagKey, .string "user")]) nofun).text
  revert htext
  decide

end ToolValueParts
