import Mathlib.Data.List.Basic

/-!
# Values with attachments and the parts the model is shown of them

A tool value is JSON that may hold attachments anywhere. The model is shown the value as compact
JSON text that is cut where an attachment stands. What a number and an attachment are is left
open, and so is the text a number is written with. The entries of an object are in the order of
their keys.
-/

namespace ToolValues

inductive Tree (N A : Type) where
  | null
  | bool (value : Bool)
  | number (value : N)
  | string (text : String)
  | array (values : List (Tree N A))
  | object (entries : List (String × Tree N A))
  | attachment (reference : A)

inductive ModelToolReturnPart (A : Type) where
  | text (text : String)
  | attachment (reference : A)
  deriving DecidableEq

variable {N A : Type}

mutual

def Tree.attachments : Tree N A → List A
  | .attachment reference => [reference]
  | .array values => attachmentsOfValues values
  | .object entries => attachmentsOfEntries entries
  | .null => []
  | .bool _ => []
  | .number _ => []
  | .string _ => []

def attachmentsOfValues : List (Tree N A) → List A
  | [] => []
  | value :: values => value.attachments ++ attachmentsOfValues values

def attachmentsOfEntries : List (String × Tree N A) → List A
  | [] => []
  | (_, value) :: entries => value.attachments ++ attachmentsOfEntries entries

end

/-- Text joins a text part that ends the list and opens a new one otherwise. -/
def pushTextPart (parts : List (ModelToolReturnPart A)) (text : String) :
    List (ModelToolReturnPart A) :=
  if text = "" then parts
  else match parts.getLast? with
    | some (.text existing) => parts.dropLast ++ [.text (existing ++ text)]
    | _ => parts ++ [.text text]

def escapeChar (c : Char) : String :=
  if c = '"' then "\\\""
  else if c = '\\' then "\\\\"
  else if c.toNat = 8 then "\\b"
  else if c.toNat = 12 then "\\f"
  else if c = '\n' then "\\n"
  else if c = '\r' then "\\r"
  else if c = '\t' then "\\t"
  else if c.toNat < 32 then
    "\\u00" ++ String.ofList [Nat.digitChar (c.toNat / 16), Nat.digitChar (c.toNat % 16)]
  else c.toString

def jsonString (text : String) : String :=
  "\"" ++ String.join (text.toList.map escapeChar) ++ "\""

section Numbers

variable (numberText : N → String)

mutual

def pushCompactModelParts : Tree N A → List (ModelToolReturnPart A) → List (ModelToolReturnPart A)
  | .null, parts => pushTextPart parts "null"
  | .bool value, parts => pushTextPart parts (if value then "true" else "false")
  | .number value, parts => pushTextPart parts (numberText value)
  | .string value, parts => pushTextPart parts (jsonString value)
  | .attachment reference, parts => parts ++ [.attachment reference]
  | .array values, parts =>
    pushTextPart (pushCompactValues true values (pushTextPart parts "[")) "]"
  | .object entries, parts =>
    pushTextPart (pushCompactEntries true entries (pushTextPart parts "\x7b")) "\x7d"

/-- The elements of an array, separated by commas. -/
def pushCompactValues (first : Bool) :
    List (Tree N A) → List (ModelToolReturnPart A) → List (ModelToolReturnPart A)
  | [], parts => parts
  | value :: values, parts =>
    pushCompactValues false values
      (pushCompactModelParts value (if first then parts else pushTextPart parts ","))

/-- The entries of an object, separated by commas. -/
def pushCompactEntries (first : Bool) :
    List (String × Tree N A) → List (ModelToolReturnPart A) → List (ModelToolReturnPart A)
  | [], parts => parts
  | (key, value) :: entries, parts =>
    pushCompactEntries false entries
      (pushCompactModelParts value
        (pushTextPart
          (pushTextPart (if first then parts else pushTextPart parts ",") (jsonString key))
          ":"))

end

def Tree.modelParts : Tree N A → List (ModelToolReturnPart A)
  | .string text => pushTextPart [] text
  | .attachment reference => [.attachment reference]
  | value => pushCompactModelParts numberText value []

end Numbers

end ToolValues
