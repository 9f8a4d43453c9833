import Mathlib.Data.UInt
import Lash.ToolValues

/-!
# The JSON of a tool value

A tool value is JSON that may hold attachments anywhere. An attachment is written as an object
with a reserved key, and an object of the user that has this key is written inside another one
that is marked as such. So what is written is read back as it was, at every depth. The entries
of an object are in the order of their keys, each key once.
-/

namespace ToolValueCodecs

/-! ### JSON -/

inductive Number where
  | posInt (n : UInt64)
  | negInt (n : Int64) (negative : n < 0)
  | float (x : Float) (finite : x.isFinite = true)

namespace Number

def fromU64 (n : UInt64) : Number := .posInt n

def fromI64 (n : Int64) : Number :=
  if negative : n < 0 then .negInt n negative else .posInt n.toUInt64

def fromF64 (x : Float) : Option Number :=
  if finite : x.isFinite = true then some (.float x finite) else none

end Number

inductive Value where
  | null
  | bool (value : Bool)
  | number (value : Number)
  | string (value : String)
  | array (values : List Value)
  | object (map : List (String × Value))

def get {A : Type} (key : String) (map : List (String × A)) : Option A :=
  (map.find? fun entry => entry.1 == key).map Prod.snd

def containsKey {A : Type} (key : String) (map : List (String × A)) : Bool :=
  map.any fun entry => entry.1 == key

/-- Why a value is not read: what the code itself rejects, and what its derived readers do. -/
inductive DecodeError where
  | custom (message : String)
  | missingField (name : String)
  | invalidType (expected : String)
  | unknownVariant (name : String)
  deriving DecidableEq

/-! ### Attachments -/

inductive ImageMediaType where
  | png | jpeg | gif | webp | bmp
  deriving DecidableEq

inductive MediaType where
  | image (type : ImageMediaType)
  deriving DecidableEq

structure AttachmentRef where
  id : String
  mediaType : MediaType
  byteLen : UInt64
  width : Option UInt32
  height : Option UInt32
  label : Option String
  deriving DecidableEq

def ImageMediaType.name : ImageMediaType → String
  | .png => "png"
  | .jpeg => "jpeg"
  | .gif => "gif"
  | .webp => "webp"
  | .bmp => "bmp"

def ImageMediaType.ofName (name : String) : Except DecodeError ImageMediaType :=
  if name = "png" then .ok .png
  else if name = "jpeg" then .ok .jpeg
  else if name = "gif" then .ok .gif
  else if name = "webp" then .ok .webp
  else if name = "bmp" then .ok .bmp
  else .error (.unknownVariant name)

def MediaType.toValue : MediaType → Value
  | .image type => .object [("kind", .string "image"), ("type", .string type.name)]

def asString : Value → Except DecodeError String
  | .string value => .ok value
  | _ => .error (.invalidType "a string")

def asU64 : Value → Except DecodeError UInt64
  | .number (.posInt n) => .ok n
  | _ => .error (.invalidType "u64")

def asU32 : Value → Except DecodeError UInt32
  | .number (.posInt n) =>
    if n.toNat < 2 ^ 32 then .ok n.toUInt32 else .error (.invalidType "u32")
  | _ => .error (.invalidType "u32")

def asMap : Value → Except DecodeError (List (String × Value))
  | .object map => .ok map
  | _ => .error (.invalidType "a map")

/-- A field that must be there. -/
def requiredField {A : Type} (name : String) (read : Value → Except DecodeError A)
    (map : List (String × Value)) : Except DecodeError A :=
  match get name map with
  | some value => read value
  | none => .error (.missingField name)

/-- A field that may be absent or null. -/
def optionalField {A : Type} (name : String) (read : Value → Except DecodeError A)
    (map : List (String × Value)) : Except DecodeError (Option A) :=
  match get name map with
  | some .null => .ok none
  | some value => (read value).map some
  | none => .ok none

def MediaType.fromValue (value : Value) : Except DecodeError MediaType := do
  let map ← asMap value
  let kind ← requiredField "kind" asString map
  if kind = "image" then
    let name ← requiredField "type" asString map
    return .image (← ImageMediaType.ofName name)
  else .error (.unknownVariant kind)

/-- The entry of a field that is left out when it is not set. -/
def optionalEntry {A : Type} (name : String) (write : A → Value) (field : Option A) :
    List (String × Value) :=
  (field.map fun value => (name, write value)).toList

def u32 (n : UInt32) : Value := .number (.posInt n.toUInt64)

def AttachmentRef.toValue (reference : AttachmentRef) : Value :=
  .object <|
    [("byte_len", .number (.posInt reference.byteLen))] ++
    optionalEntry "height" u32 reference.height ++
    [("id", .string reference.id)] ++
    optionalEntry "label" .string reference.label ++
    [("media_type", reference.mediaType.toValue)] ++
    optionalEntry "width" u32 reference.width

def AttachmentRef.fromValue (value : Value) : Except DecodeError AttachmentRef := do
  let map ← asMap value
  let id ← requiredField "id" asString map
  let mediaType ← requiredField "media_type" MediaType.fromValue map
  let byteLen ← requiredField "byte_len" asU64 map
  let width ← optionalField "width" asU32 map
  let height ← optionalField "height" asU32 map
  let label ← optionalField "label" asString map
  return ⟨id, mediaType, byteLen, width, height, label⟩

/-! ### Tool values -/

abbrev ToolValue := ToolValues.Tree Number AttachmentRef

def tagKey : String := "$lash_tool_value"

def attachmentTag : String := "attachment"

def objectTag : String := "object"

def refKey : String := "ref"

def entriesKey : String := "entries"

variable (reference : AttachmentRef)

def taggedAttachmentJson : Value :=
  .object [(tagKey, .string attachmentTag), (refKey, reference.toValue)]

def escapedObjectToolValueJson (entries : Value) : Value :=
  .object [(tagKey, .string objectTag), (entriesKey, entries)]

mutual

def toJsonValue : ToolValue → Value
  | .null => .null
  | .bool value => .bool value
  | .number value => .number value
  | .string value => .string value
  | .array values => .array (toJsonValues values)
  | .attachment reference => taggedAttachmentJson reference
  | .object entries =>
    -- the entries are written before it is known whether they are escaped
    let object := Value.object (toJsonEntries entries)
    if containsKey tagKey entries then escapedObjectToolValueJson object else object

def toJsonValues : List ToolValue → List Value
  | [] => []
  | value :: values => toJsonValue value :: toJsonValues values

def toJsonEntries : List (String × ToolValue) → List (String × Value)
  | [] => []
  | (key, value) :: entries => (key, toJsonValue value) :: toJsonEntries entries

end

mutual

def intoJsonValue : ToolValue → Value
  | .null => .null
  | .bool value => .bool value
  | .number value => .number value
  | .string value => .string value
  | .array values => .array (intoJsonValues values)
  | .attachment reference => taggedAttachmentJson reference
  | .object entries =>
    let containsReservedTag := containsKey tagKey entries
    let object := intoJsonEntries entries
    if containsReservedTag then escapedObjectToolValueJson (.object object)
    else .object object

def intoJsonValues : List ToolValue → List Value
  | [] => []
  | value :: values => intoJsonValue value :: intoJsonValues values

def intoJsonEntries : List (String × ToolValue) → List (String × Value)
  | [] => []
  | (key, value) :: entries => (key, intoJsonValue value) :: intoJsonEntries entries

end

/-- A number is handed to the serializer by its kind, which makes a number of it again. -/
def serializeNumber : Number → Value
  | .posInt n => .number (.fromU64 n)
  | .negInt n _ => .number (.fromI64 n)
  | .float x _ =>
    match Number.fromF64 x with
    | some value => .number value
    | none => .null

mutual

def serialize : ToolValue → Value
  | .null => .null
  | .bool value => .bool value
  | .number value => serializeNumber value
  | .string value => .string value
  | .array values => .array (serializeValues values)
  | .attachment reference =>
    .object [(tagKey, .string attachmentTag), (refKey, reference.toValue)]
  | .object entries =>
    if containsKey tagKey entries then
      .object [(tagKey, .string objectTag), (entriesKey, .object (serializeEntries entries))]
    else .object (serializeEntries entries)

def serializeValues : List ToolValue → List Value
  | [] => []
  | value :: values => serialize value :: serializeValues values

def serializeEntries : List (String × ToolValue) → List (String × Value)
  | [] => []
  | (key, value) :: entries => (key, serialize value) :: serializeEntries entries

end

/-- A number is visited by its kind. -/
def visitNumber : Number → Except DecodeError ToolValue
  | .posInt n => .ok (.number (.fromU64 n))
  | .negInt n _ => .ok (.number (.fromI64 n))
  | .float x _ =>
    match Number.fromF64 x with
    | some value => .ok (.number value)
    | none => .error (.custom "non-finite number is not a valid tool value")

def decodeAttachment (map : List (String × Value)) : Except DecodeError ToolValue :=
  if map.length ≠ 2 then .error (.custom "malformed attachment tool value")
  else match get refKey map with
    | none => .error (.custom "malformed attachment tool value")
    | some reference => (AttachmentRef.fromValue reference).map .attachment

mutual

def decode : Value → Except DecodeError ToolValue
  | .null => .ok .null
  | .bool value => .ok (.bool value)
  | .number value => visitNumber value
  | .string value => .ok (.string value)
  | .array values => (decodeValues values).map .array
  | .object map =>
    -- the source's `decode_object`
    match get tagKey map with
    | none => (decodeEntries map).map .object
    | some (.string tag) =>
      if tag = attachmentTag then decodeAttachment map
      else if tag = objectTag then
        if map.length ≠ 2 then .error (.custom "malformed escaped object tool value")
        else (decodeEscaped map).map .object
      else .error (.custom ("unknown reserved tool value tag \x60" ++ tag ++ "\x60"))
    | some _ => .error (.custom "reserved tool value tag must be a string")

def decodeValues : List Value → Except DecodeError (List ToolValue)
  | [] => .ok []
  | value :: values => do
      let value ← decode value
      let values ← decodeValues values
      return value :: values

def decodeEntries : List (String × Value) → Except DecodeError (List (String × ToolValue))
  | [] => .ok []
  | (key, value) :: map => do
      let value ← decode value
      let entries ← decodeEntries map
      return (key, value) :: entries

/-- A map of tool values, with none of its keys reserved. -/
def decodeMap : Value → Except DecodeError (List (String × ToolValue))
  | .object map => decodeEntries map
  | _ => .error (.invalidType "a map")

/-- The entries of an escaped object. -/
def decodeEscaped : List (String × Value) → Except DecodeError (List (String × ToolValue))
  | [] => .error (.custom "malformed escaped object tool value")
  | (key, value) :: map => if key = entriesKey then decodeMap value else decodeEscaped map

end

/-! ### The writers agree -/

theorem serializeNumber_eq (n : Number) : serializeNumber n = .number n := by
  cases n with
  | posInt n => rfl
  | negInt n negative => simp [serializeNumber, Number.fromI64, negative]
  | float x finite => simp [serializeNumber, Number.fromF64, finite]

theorem visitNumber_eq (n : Number) : visitNumber n = .ok (.number n) := by
  cases n with
  | posInt n => rfl
  | negInt n negative => simp [visitNumber, Number.fromI64, negative]
  | float x finite => simp [visitNumber, Number.fromF64, finite]

mutual

theorem intoJsonValue_eq (value : ToolValue) : intoJsonValue value = toJsonValue value := by
  cases value with
  | null | bool value | number value | string text | attachment reference => rfl
  | array values => simp only [intoJsonValue, toJsonValue, intoJsonValues_eq values]
  | object entries => simp only [intoJsonValue, toJsonValue, intoJsonEntries_eq entries]

theorem intoJsonValues_eq (values : List ToolValue) :
    intoJsonValues values = toJsonValues values := by
  cases values with
  | nil => rfl
  | cons value values =>
    simp only [intoJsonValues, toJsonValues, intoJsonValue_eq value, intoJsonValues_eq values]

theorem intoJsonEntries_eq (entries : List (String × ToolValue)) :
    intoJsonEntries entries = toJsonEntries entries := by
  cases entries with
  | nil => rfl
  | cons entry entries =>
    obtain ⟨key, value⟩ := entry
    simp only [intoJsonEntries, toJsonEntries, intoJsonValue_eq value, intoJsonEntries_eq entries]

end

mutual

theorem serialize_eq (value : ToolValue) : serialize value = toJsonValue value := by
  cases value with
  | null | bool value | string text | attachment reference => rfl
  | number value => exact serializeNumber_eq value
  | array values => simp only [serialize, toJsonValue, serializeValues_eq values]
  | object entries =>
    simp only [serialize, toJsonValue, serializeEntries_eq entries, escapedObjectToolValueJson]

theorem serializeValues_eq (values : List ToolValue) :
    serializeValues values = toJsonValues values := by
  cases values with
  | nil => rfl
  | cons value values =>
    simp only [serializeValues, toJsonValues, serialize_eq value, serializeValues_eq values]

theorem serializeEntries_eq (entries : List (String × ToolValue)) :
    serializeEntries entries = toJsonEntries entries := by
  cases entries with
  | nil => rfl
  | cons entry entries =>
    obtain ⟨key, value⟩ := entry
    simp only [serializeEntries, toJsonEntries, serialize_eq value, serializeEntries_eq entries]

end

/-! ### What is written is read back -/

theorem mediaType_fromValue (mediaType : MediaType) :
    MediaType.fromValue mediaType.toValue = .ok mediaType := by
  obtain ⟨type⟩ := mediaType
  cases type <;> rfl

theorem asU32_u32 (n : UInt32) : asU32 (u32 n) = .ok n := by
  have hlt : n.toUInt64.toNat < 2 ^ 32 := by
    rw [UInt32.toNat_toUInt64]
    exact n.toNat_lt
  rw [u32, asU32, if_pos hlt, UInt32.toUInt32_toUInt64]

section Fields

variable {A : Type} {name key : String} {read : Value → Except DecodeError A}
variable {write : A → Value} {map : List (String × Value)}

theorem get_cons_self (value : Value) : get key ((key, value) :: map) = some value := by
  simp [get]

/-- A field that was left out is read as absent, and one that was written as it was. -/
theorem optionalField_of_get (reads : ∀ a, read (write a) = .ok a)
    (visible : ∀ a, write a ≠ .null) {field : Option A}
    (h : get key map = field.map write) : optionalField key read map = .ok field := by
  cases field with
  | none => rw [optionalField, h, Option.map_none]
  | some a =>
    have hshown := visible a
    rw [optionalField, h, Option.map_some]
    cases hwrite : write a with
    | null => exact absurd hwrite hshown
    | bool | number | string | array | object =>
      have hread := reads a
      rw [hwrite] at hread
      simp only [hread]
      rfl

end Fields

theorem get_attachment : ∃ map, reference.toValue = .object map ∧
      get "id" map = some (.string reference.id) ∧
      get "media_type" map = some reference.mediaType.toValue ∧
      get "byte_len" map = some (.number (.posInt reference.byteLen)) ∧
      get "width" map = reference.width.map u32 ∧ get "height" map = reference.height.map u32 ∧
      get "label" map = reference.label.map .string := by
  obtain ⟨id, mediaType, byteLen, width, height, label⟩ := reference
  refine ⟨_, rfl, ?_⟩
  cases width <;> cases height <;> cases label <;>
    simp [get, optionalEntry]

theorem attachmentRef_fromValue : AttachmentRef.fromValue reference.toValue = .ok reference := by
  obtain ⟨map, hmap, hid, hmediaType, hbyteLen, hwidth, hheight, hlabel⟩ := get_attachment reference
  have hstring (text : String) : asString (.string text) = .ok text := rfl
  have hshown (text : String) : Value.string text ≠ .null := nofun
  have hwidth' : optionalField "width" asU32 map = .ok reference.width :=
    optionalField_of_get asU32_u32 nofun hwidth
  have hheight' : optionalField "height" asU32 map = .ok reference.height :=
    optionalField_of_get asU32_u32 nofun hheight
  have hlabel' : optionalField "label" asString map = .ok reference.label :=
    optionalField_of_get hstring hshown hlabel
  have hid' : requiredField "id" asString map = .ok reference.id := by
    rw [requiredField, hid]
    rfl
  have hmediaType' : requiredField "media_type" MediaType.fromValue map =
      .ok reference.mediaType := by
    rw [requiredField, hmediaType]
    exact mediaType_fromValue reference.mediaType
  have hbyteLen' : requiredField "byte_len" asU64 map = .ok reference.byteLen := by
    rw [requiredField, hbyteLen]
    rfl
  simp only [AttachmentRef.fromValue, hmap, asMap, bind, Except.bind, hid', hmediaType',
    hbyteLen', hwidth', hheight', hlabel']
  rfl

/-- Writing a value keeps the keys of its entries. -/
theorem get_toJsonEntries (key : String) (entries : List (String × ToolValue)) :
    get key (toJsonEntries entries) = (get key entries).map toJsonValue := by
  induction entries with
  | nil => rfl
  | cons entry entries ih =>
    obtain ⟨name, value⟩ := entry
    by_cases hname : name = key
    · simp [toJsonEntries, get, hname]
    · simpa [toJsonEntries, get, hname] using ih

theorem get_of_not_containsKey {key : String} {entries : List (String × ToolValue)}
    (h : containsKey key entries = false) : get key entries = none := by
  rw [get, Option.map_eq_none_iff, List.find?_eq_none]
  exact fun entry hentry => Bool.not_eq_true _ ▸ List.any_eq_false.mp h entry hentry

mutual

theorem decode_toJsonValue (value : ToolValue) : decode (toJsonValue value) = .ok value := by
  cases value with
  | null | bool value | string text => rfl
  | number value => exact visitNumber_eq value
  | array values =>
    rw [toJsonValue, decode, decode_toJsonValues values]
    rfl
  | attachment reference =>
    rw [toJsonValue, taggedAttachmentJson, decode, get_cons_self]
    simp only [if_true, decodeAttachment, get, List.length_cons, List.length_nil]
    simp [tagKey, refKey, attachmentRef_fromValue]
    rfl
  | object entries =>
    have hentries := decode_toJsonEntries entries
    cases htag : containsKey tagKey entries with
    | false =>
      -- the entries are read one by one, since none of them is under the reserved key
      have hget : get tagKey (toJsonEntries entries) = none := by
        rw [get_toJsonEntries, get_of_not_containsKey htag]
        rfl
      simp only [toJsonValue, htag, Bool.false_eq_true, if_false, decode, hget, hentries]
      rfl
    | true =>
      have hdiffer : objectTag ≠ attachmentTag := by decide
      have hkey : tagKey ≠ entriesKey := by decide
      simp only [toJsonValue, htag, if_true, escapedObjectToolValueJson, decode,
        get_cons_self, hdiffer, if_false, decodeEscaped, hkey, decodeMap, hentries]
      rfl

theorem decode_toJsonValues (values : List ToolValue) :
    decodeValues (toJsonValues values) = .ok values := by
  cases values with
  | nil => rfl
  | cons value values =>
    simp only [toJsonValues, decodeValues, decode_toJsonValue value, decode_toJsonValues values]
    rfl

theorem decode_toJsonEntries (entries : List (String × ToolValue)) :
    decodeEntries (toJsonEntries entries) = .ok entries := by
  cases entries with
  | nil => rfl
  | cons entry entries =>
    obtain ⟨key, value⟩ := entry
    simp only [toJsonEntries, decodeEntries, decode_toJsonValue value, decode_toJsonEntries entries]
    rfl

end

/-- Every tool value is read back from its JSON, which is the same by all three writers. -/
theorem tool_values_round_trip (value : ToolValue) :
    decode (toJsonValue value) = .ok value ∧ serialize value = toJsonValue value ∧
      intoJsonValue value = toJsonValue value :=
  ⟨decode_toJsonValue value, serialize_eq value, intoJsonValue_eq value⟩

end ToolValueCodecs
