import Lash.ScriptNumbers
import Mathlib.Data.List.Basic
import Mathlib.Order.Defs.LinearOrder

/-!
# The values of the script language

A value is plain data, an image or a handle of a host resource. A record is its
entries in the order in which the keys were first inserted, each key once: the
order is what `keys` and `values` show. A value that a host binding projects into
a program is left out.
-/

namespace ScriptValues

open ScriptNumbers

structure ImageValue where
  id : String
  label : String
  size : UInt64
  width : Option UInt32
  height : Option UInt32
deriving DecidableEq

structure ResourceHandle where
  resourceType : String
  aliasName : String
deriving DecidableEq

inductive Value where
  | null
  | bool (value : Bool)
  | number (value : Float)
  | string (value : String)
  | image (image : ImageValue)
  | resource (handle : ResourceHandle)
  | tuple (values : List Value)
  | list (values : List Value)
  | record (entries : List (String × Value))
deriving Inhabited

/-- The source's `Record`: its entries, in the order of insertion. -/
abbrev Record := List (String × Value)

namespace Record

variable (record : Record)

def get (name : String) : Option Value :=
  (record.find? fun entry => entry.1 == name).map Prod.snd

/-- A key that is there keeps its place, a new one goes to the end. -/
def insert : Record → String → Value → Record
  | [], name, value => [(name, value)]
  | (key, old) :: rest, name, value =>
    if key = name then (key, value) :: rest else (key, old) :: insert rest name value

def ofEntries (entries : List (String × Value)) : Record :=
  entries.foldl (fun record entry => record.insert entry.1 entry.2) []

def keys : List String := record.map Prod.fst

def values : List Value := record.map Prod.snd

theorem get_cons (key name : String) (value : Value) (rest : Record) :
    get ((key, value) :: rest) name = if key = name then some value else get rest name := by
  by_cases h : key = name
  · simp [get, h]
  · simp [get, h]

theorem get_insert (name other : String) (value : Value) :
    (record.insert name value).get other =
      if name = other then some value else record.get other := by
  induction record with
  | nil => rw [insert, get_cons]
  | cons entry rest ih =>
    obtain ⟨key, old⟩ := entry
    by_cases hkey : key = name
    · rw [insert, if_pos hkey, get_cons, get_cons]
      by_cases hother : name = other
      · rw [if_pos (hkey.trans hother), if_pos hother]
      · rw [if_neg (hkey ▸ hother), if_neg hother, if_neg (hkey ▸ hother)]
    · rw [insert, if_neg hkey, get_cons, get_cons, ih]
      by_cases hother : key = other
      · have hne : name ≠ other := fun h => hkey (hother.trans h.symm)
        rw [if_pos hother, if_neg hne, if_pos hother]
      · rw [if_neg hother, if_neg hother]

/-- A record keeps each key in one place. -/
theorem keys_insert_nodup {record : Record} (name : String) (value : Value)
    (h : record.keys.Nodup) : (record.insert name value).keys.Nodup := by
  have hmem : ∀ (r : Record) (k : String), k ∈ (r.insert name value).keys ↔
      k ∈ r.keys ∨ k = name := by
    intro r k
    induction r with
    | nil => simp [insert, keys]
    | cons entry rest ih =>
      by_cases hkey : entry.1 = name
      · simp [insert, keys, hkey]
        tauto
      · simp only [keys] at ih
        simp [insert, keys, hkey, ih, or_assoc]
  induction record with
  | nil => simp [insert, keys]
  | cons entry rest ih =>
    obtain ⟨hnew, hrest⟩ := List.nodup_cons.mp h
    by_cases hkey : entry.1 = name
    · simpa [insert, keys, hkey] using h
    · have hnot : entry.1 ∉ (insert rest name value).keys := by
        rw [hmem]
        rintro (hmem' | heq)
        · exact hnew hmem'
        · exact hkey heq
      have hsplit : (insert (entry :: rest) name value).keys =
          entry.1 :: (insert rest name value).keys := by
        simp [insert, keys, hkey]
      rw [hsplit]
      exact List.nodup_cons.mpr ⟨hnot, ih hrest⟩

end Record

/-! ## Equality as the program sees it -/

mutual
/-- The source's `PartialEq`: numbers as doubles compare, records without their order. -/
def Value.eq : Value → Value → Bool
  | .null, .null => true
  | .bool a, .bool b => a == b
  | .number a, .number b => a == b
  | .string a, .string b => a == b
  | .image a, .image b => a == b
  | .resource a, .resource b => a == b
  | .tuple as, .tuple bs => Value.eqAll as bs
  | .list as, .list bs => Value.eqAll as bs
  | .record as, .record bs => as.length == bs.length && Value.eqEntries as bs
  | _, _ => false
def Value.eqAll : List Value → List Value → Bool
  | [], [] => true
  | a :: as, b :: bs => Value.eq a b && Value.eqAll as bs
  | _, _ => false
def Value.eqEntries : List (String × Value) → Record → Bool
  | [], _ => true
  | (key, a) :: rest, other =>
    (match Record.get other key with
     | some b => Value.eq a b
     | none => false) && Value.eqEntries rest other
end

/-- The source's `is_truthy`. -/
def isTruthy : Value → Bool
  | .null => false
  | .bool value => value
  | .number value => !(value == 0.0) && !value.isNaN
  | .string value => !value.isEmpty
  | .image _ | .resource _ | .list _ | .record _ => true
  | .tuple values => !values.isEmpty

def valueTypeName : Value → String
  | .null => "null"
  | .bool _ => "bool"
  | .number _ => "number"
  | .string _ => "string"
  | .image _ => "image"
  | .resource _ => "resource"
  | .tuple _ => "tuple"
  | .list _ => "list"
  | .record _ => "record"

/-! ## Texts of values -/

def hexDigit (n : Nat) : Char :=
  if n < 10 then Char.ofNat ('0'.toNat + n) else Char.ofNat ('a'.toNat + n - 10)

def escapeChar (c : Char) : List Char :=
  if c = '"' then ['\\', '"']
  else if c = '\\' then ['\\', '\\']
  else if c.toNat = 8 then ['\\', 'b']
  else if c.toNat = 9 then ['\\', 't']
  else if c.toNat = 10 then ['\\', 'n']
  else if c.toNat = 12 then ['\\', 'f']
  else if c.toNat = 13 then ['\\', 'r']
  else if c.toNat < 32 then ['\\', 'u', '0', '0', hexDigit (c.toNat / 16), hexDigit (c.toNat % 16)]
  else [c]

def jsonString (text : String) : String :=
  "\"" ++ String.ofList (text.toList.flatMap escapeChar) ++ "\""

/-- A number in a JSON text. One that is not finite is written as `null`. -/
def jsonNumber (x : Float) : String :=
  if x.isFinite then
    match wholeNumber x with
    | some (.signed n) => toString n
    | some (.unsigned n) => toString n
    | none => jsonFloatText x
  else "null"

def jsonOptional : Option UInt32 → String
  | some n => toString n
  | none => "null"

/-- The entries of a record as they are written: by their keys. -/
def sortedEntries {V : Type} (entries : List (String × V)) : List (String × V) :=
  entries.mergeSort fun a b => decide (a.1 ≤ b.1)

def jsonObject (fields : List (String × String)) : String :=
  "\x7b" ++ String.intercalate "," (fields.map fun f => jsonString f.1 ++ ":" ++ f.2) ++ "\x7d"

def imageText (image : ImageValue) : String :=
  jsonObject [("height", jsonOptional image.height), ("id", jsonString image.id),
    ("label", jsonString image.label), ("size", toString image.size),
    ("type", jsonString "image"), ("width", jsonOptional image.width)]

def resourceText (handle : ResourceHandle) : String :=
  jsonObject [("__resource__", "true"), ("type", jsonString handle.resourceType),
    ("alias", jsonString handle.aliasName)]

mutual
/-- The source's `append_direct_json`. -/
def directJson : Value → String
  | .null => "null"
  | .bool value => if value then "true" else "false"
  | .number value => jsonNumber value
  | .string value => jsonString value
  | .image image => imageText image
  | .resource handle => resourceText handle
  | .tuple values | .list values => "[" ++ String.intercalate "," (directJsonAll values) ++ "]"
  | .record entries => jsonObject (sortedEntries (directJsonEntries entries))
def directJsonAll : List Value → List String
  | [] => []
  | value :: rest => directJson value :: directJsonAll rest
def directJsonEntries : List (String × Value) → List (String × String)
  | [] => []
  | (key, value) :: rest => (key, directJson value) :: directJsonEntries rest
end

mutual
/-- The source's `append_stringified_value_direct`. -/
def stringifyValue : Value → String
  | .string value => value
  | .null => "null"
  | .bool value => if value then "true" else "false"
  | .number value => writeNumber value
  | .tuple values => tupleLiteral values
  | value => directJson value
/-- The source's `append_tuple_literal_direct`. -/
def tupleLiteral : List Value → String
  | values => "(" ++ String.intercalate ", " (tupleItems values) ++
      (if values.length = 1 then "," else "") ++ ")"
/-- The source's `append_tuple_item_literal_direct`, for each item. -/
def tupleItems : List Value → List String
  | [] => []
  | .string value :: rest => jsonString value :: tupleItems rest
  | .tuple values :: rest => tupleLiteral values :: tupleItems rest
  | value :: rest => stringifyValue value :: tupleItems rest
end

end ScriptValues
