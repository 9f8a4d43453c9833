import Lash.ScriptBuiltins

/-!
# The ways a text is formatted

A template is scanned once while it is filled in, or ahead into parts that are filled in later.
The parts keep a shape for the templates with one argument, and a lone number is written by a
path of its own. All of them give the same text or the same error.
-/

namespace FormatPaths

open ScriptNumbers ScriptValues ScriptOps List
open ScriptBuiltins (CompiledFormatPart pushFormatLiteral mixedPlaceholders)

/-! ## Texts of values, written piece by piece -/

/-- What is pushed after the text so far. -/
abbrev Push := String → String

/-- The loops that write a separator before every item but the first. -/
def pushItems (separator : String) : Nat → List Push → Push
  | _, [], output => output
  | index, push :: rest, output =>
    pushItems separator (index + 1) rest
      (push (if 0 < index then output ++ separator else output))

mutual
/-- The source's `append_runtime_json_async`. -/
def appendRuntimeJson : Value → Push
  | .null, output => output ++ "null"
  | .bool value, output => output ++ if value then "true" else "false"
  | .number value, output => output ++ jsonNumber value
  | .string value, output => output ++ jsonString value
  | .image image, output => output ++ imageText image
  | .resource handle, output => output ++ resourceText handle
  | .tuple values, output | .list values, output =>
    pushItems "," 0 (appendRuntimeJsonAll values) (output ++ "[") ++ "]"
  | .record entries, output =>
    pushItems "," 0 ((sortedEntries (appendRuntimeJsonEntries entries)).map fun entry output =>
      entry.2 (output ++ jsonString entry.1 ++ ":")) (output ++ "\x7b") ++ "\x7d"
def appendRuntimeJsonAll : List Value → List Push
  | [] => []
  | value :: rest => appendRuntimeJson value :: appendRuntimeJsonAll rest
def appendRuntimeJsonEntries : List (String × Value) → List (String × Push)
  | [] => []
  | (key, value) :: rest => (key, appendRuntimeJson value) :: appendRuntimeJsonEntries rest
end

mutual
/-- The source's `append_stringified_value_async`. -/
def appendStringified : Value → Push
  | .string value, output => output ++ value
  | .null, output => output ++ "null"
  | .bool value, output => output ++ if value then "true" else "false"
  | .number value, output => output ++ writeNumber value
  | .tuple values, output => appendTupleLiteral values output
  | value, output => appendRuntimeJson value output
/-- The source's `append_tuple_literal_async`. -/
def appendTupleLiteral : List Value → Push
  | values, output =>
    pushItems ", " 0 (appendTupleItems values) (output ++ "(") ++
      (if values.length = 1 then "," else "") ++ ")"
/-- The source's `append_tuple_item_literal_async`, for each item. -/
def appendTupleItems : List Value → List Push
  | [] => []
  | .string value :: rest => (fun output => output ++ jsonString value) :: appendTupleItems rest
  | .tuple values :: rest => appendTupleLiteral values :: appendTupleItems rest
  | value :: rest => appendStringified value :: appendTupleItems rest
end

/-! ## The placeholders -/

/-- What a scan remembers of the placeholders: the mask serves up to 64 arguments, the list more
of them. -/
structure FormatSlots where
  usesSequential : Bool
  usesIndexed : Bool
  nextSequential : Nat
  usedIndexedBits : BitVec 64
  usedIndexedArgs : Option (List Bool)

def FormatSlots.start : FormatSlots := ⟨false, false, 0, 0, none⟩

variable (slots : FormatSlots)

/-- An indexed slot is used. -/
def FormatSlots.mark (slot argc : Nat) : FormatSlots :=
  if argc ≤ slot then slots
  else if argc ≤ 64 then { slots with usedIndexedBits := slots.usedIndexedBits ||| (1#64 <<< slot) }
  else
    let used := slots.usedIndexedArgs.getD (List.replicate argc false)
    { slots with usedIndexedArgs := some (used.set slot true) }

/-- The slot that the digits between the braces stand for. -/
def FormatSlots.take (digits : List Char) (argc : Nat) : Except String (Nat × FormatSlots) :=
  if digits.isEmpty then
    if slots.usesIndexed then .error mixedPlaceholders
    else .ok (slots.nextSequential,
      { slots with usesSequential := true, nextSequential := slots.nextSequential + 1 })
  else if slots.usesSequential then .error mixedPlaceholders
  else if 2 ^ 64 ≤ digitsValue digits then .error s!"bad format slot `{String.ofList digits}`"
  else .ok (digitsValue digits,
    ({ slots with usesIndexed := true } : FormatSlots).mark (digitsValue digits) argc)

def outOfRange (digits : List Char) : String :=
  if digits.isEmpty then "format slot `\x7b\x7d` is out of range"
  else s!"format slot `{String.ofList digits}` is out of range"

def FormatSlots.unused (argc : Nat) : Option Nat :=
  if slots.usesSequential then
    if slots.nextSequential < argc then some slots.nextSequential else none
  else if slots.usesIndexed then
    if argc ≤ 64 then
      (List.range argc).find? fun slot => slots.usedIndexedBits &&& (1#64 <<< slot) == 0#64
    else slots.usedIndexedArgs.bind fun used => used.findIdx? fun used => !used
  else if 0 < argc then some 0 else none

/-! ## Filling in while scanning -/

/-- The source's `apply_format_async`. The literal text that is not yet pushed is kept beside the
output; between a brace that opens a placeholder and its end, the digits read so far are the
second argument. -/
def applyFormatFrom (args : List Value) : List Char → Option (List Char) → List Char → String →
    FormatSlots → Except String String
  | [], none, literal, output, slots =>
    match slots.unused args.length with
    | some unused => .error s!"format argument `{unused}` is unused"
    | none => .ok (output ++ String.ofList literal)
  | [], some _, _, _, _ => .error "unmatched `\x7b` in format string"
  | c :: rest, some digits, literal, output, slots =>
    if c.isDigit then applyFormatFrom args rest (some (digits ++ [c])) literal output slots
    else if c ≠ '\x7d' then .error "invalid format placeholder"
    else
      match slots.take digits args.length with
      | .error message => .error message
      | .ok (slot, slots) =>
        match args[slot]? with
        | none => .error (outOfRange digits)
        | some value =>
          applyFormatFrom args rest none [] (appendStringified value output) slots
  | '\x7b' :: '\x7b' :: rest, none, literal, output, slots =>
    applyFormatFrom args rest none [] (output ++ String.ofList literal ++ "\x7b") slots
  | '\x7d' :: '\x7d' :: rest, none, literal, output, slots =>
    applyFormatFrom args rest none [] (output ++ String.ofList literal ++ "\x7d") slots
  | c :: rest, none, literal, output, slots =>
    if c = '\x7b' then
      applyFormatFrom args rest (some []) [] (output ++ String.ofList literal) slots
    else if c = '\x7d' then .error "unmatched `\x7d` in format string"
    else applyFormatFrom args rest none (literal ++ [c]) output slots

def applyFormatAsync (template : String) (args : List Value) : Except RuntimeError String :=
  (applyFormatFrom args template.toList none [] "" .start).mapError .valueError

/-! ## Scanning ahead -/

/-- The source's `parse_format_template`. -/
def parseFormatFrom (argc : Nat) : List Char → Option (List Char) → List Char →
    List CompiledFormatPart → FormatSlots → Except String (List CompiledFormatPart)
  | [], none, literal, parts, slots =>
    match slots.unused argc with
    | some unused => .error s!"format argument `{unused}` is unused"
    | none => .ok (pushFormatLiteral parts literal)
  | [], some _, _, _, _ => .error "unmatched `\x7b` in format string"
  | c :: rest, some digits, literal, parts, slots =>
    if c.isDigit then parseFormatFrom argc rest (some (digits ++ [c])) literal parts slots
    else if c ≠ '\x7d' then .error "invalid format placeholder"
    else
      match slots.take digits argc with
      | .error message => .error message
      | .ok (slot, slots) =>
        if argc ≤ slot then .error (outOfRange digits)
        else parseFormatFrom argc rest none [] (parts ++ [.arg slot]) slots
  | '\x7b' :: '\x7b' :: rest, none, literal, parts, slots =>
    parseFormatFrom argc rest none []
      (pushFormatLiteral (pushFormatLiteral parts literal) ['\x7b']) slots
  | '\x7d' :: '\x7d' :: rest, none, literal, parts, slots =>
    parseFormatFrom argc rest none []
      (pushFormatLiteral (pushFormatLiteral parts literal) ['\x7d']) slots
  | c :: rest, none, literal, parts, slots =>
    if c = '\x7b' then
      parseFormatFrom argc rest (some []) [] (pushFormatLiteral parts literal)
        slots
    else if c = '\x7d' then .error "unmatched `\x7d` in format string"
    else parseFormatFrom argc rest none (literal ++ [c]) parts slots

def parseFormatTemplate (template : String) (argc : Nat) :
    Except String (List CompiledFormatPart) :=
  parseFormatFrom argc template.toList none [] [] .start

/-- The text before and after the argument, of a template with one. -/
structure CompiledFormatOneArg where
  before : Option String
  after : Option String
deriving DecidableEq

structure CompiledFormatTemplate where
  parts : List CompiledFormatPart
  argc : Nat
  error : Option String
  oneArg : Option CompiledFormatOneArg
deriving DecidableEq

def compiledFormatOneArg (parts : List CompiledFormatPart) (argc : Nat) :
    Option CompiledFormatOneArg :=
  if argc ≠ 1 then none
  else
    match parts with
    | [.arg 0] => some ⟨none, none⟩
    | [.literal before, .arg 0] => some ⟨some before, none⟩
    | [.arg 0, .literal after] => some ⟨none, some after⟩
    | [.literal before, .arg 0, .literal after] => some ⟨some before, some after⟩
    | _ => none

def compileFormatTemplate (template : String) (argc : Nat) : CompiledFormatTemplate :=
  match parseFormatTemplate template argc with
  | .ok parts => ⟨parts, argc, none, compiledFormatOneArg parts argc⟩
  | .error message => ⟨[], argc, some message, none⟩

/-! ## Filling in later -/

def executeParts (push : Value → Push) (args : List Value) :
    List CompiledFormatPart → String → Except RuntimeError String
  | [], output => .ok output
  | .literal text :: rest, output => executeParts push args rest (output ++ text)
  | .arg slot :: rest, output =>
    match args[slot]? with
    | none => .error (.valueError s!"format slot `{slot}` is out of range")
    | some value => executeParts push args rest (push value output)

/-- A template with one argument is filled in by its shape. -/
def executeOneArg (push : Push) (shape : CompiledFormatOneArg) : String :=
  push (shape.before.getD "") ++ shape.after.getD ""

/-- The source's `execute_compiled_format`, with the way a value is pushed as a parameter. -/
def executeCompiled (push : Value → Push) (template : CompiledFormatTemplate)
    (args : List Value) : Except RuntimeError String :=
  match template.error, template.oneArg with
  | some message, _ => .error (.valueError message)
  | none, some shape =>
    match args.head? with
    | none => .error (.valueError "format slot `0` is out of range")
    | some value => .ok (executeOneArg (push value) shape)
  | none, none => executeParts push args template.parts ""

def executeCompiledFormat : CompiledFormatTemplate → List Value → Except RuntimeError String :=
  executeCompiled appendStringified

def executeCompiledFormatDirect :
    CompiledFormatTemplate → List Value → Except RuntimeError String :=
  executeCompiled fun value output => output ++ stringifyValue value

def executeNumberParts (value : Float) :
    List CompiledFormatPart → String → Except RuntimeError String
  | [], output => .ok output
  | .literal text :: rest, output => executeNumberParts value rest (output ++ text)
  | .arg 0 :: rest, output => executeNumberParts value rest (output ++ writeNumber value)
  | .arg slot :: _, _ => .error (.valueError s!"format slot `{slot}` is out of range")

variable (template : CompiledFormatTemplate)

def executeCompiledFormatOneNumberCompactDirect (value : Float) : Except RuntimeError String :=
  match template.error, template.oneArg with
  | some message, _ => .error (.valueError message)
  | none, some shape => .ok (executeOneArg (· ++ writeNumber value) shape)
  | none, none => executeNumberParts value template.parts ""

/-! ## Both ways of writing a value -/

/-- What stands after the first of the items: each of them behind a separator. -/
def afterFirst (separator : String) : List String → String
  | [] => ""
  | text :: rest => separator ++ text ++ afterFirst separator rest

variable (separator : String)

theorem intercalate_cons (text : String) (rest : List String) :
    String.intercalate separator (text :: rest) = text ++ afterFirst separator rest := by
  induction rest generalizing text with
  | nil => rw [String.intercalate_singleton, afterFirst, String.append_empty]
  | cons next rest ih =>
    rw [String.intercalate_cons_cons, ih, afterFirst]
    simp only [String.append_assoc]

/-- What a push appends, where it appends a text. -/
def pushing (text : String) : Push := fun output => output ++ text

theorem pushItems_after (index : Nat) (texts : List String) (output : String) :
    pushItems separator (index + 1) (texts.map pushing) output =
      output ++ afterFirst separator texts := by
  induction texts generalizing index output with
  | nil => rw [afterFirst, String.append_empty]; rfl
  | cons text rest ih =>
    rw [map_cons, pushItems, ih, afterFirst, if_pos (Nat.succ_pos _), pushing]
    simp only [String.append_assoc]

theorem pushItems_eq (texts : List String) (output : String) :
    pushItems separator 0 (texts.map pushing) output =
      output ++ String.intercalate separator texts := by
  cases texts with
  | nil => rw [String.intercalate_nil, String.append_empty]; rfl
  | cons text rest =>
    rw [map_cons, pushItems, pushItems_after, intercalate_cons, if_neg (Nat.lt_irrefl 0),
      pushing, String.append_assoc]

theorem sortedEntries_map {V W : Type} (f : V → W) (entries : List (String × V)) :
    sortedEntries (entries.map fun entry => (entry.1, f entry.2)) =
      (sortedEntries entries).map fun entry => (entry.1, f entry.2) :=
  (List.map_mergeSort (f := fun entry : String × V => (entry.1, f entry.2))
    fun _ _ _ _ => rfl).symm

mutual
theorem appendRuntimeJson_eq :
    ∀ value output, appendRuntimeJson value output = output ++ directJson value
  | .null, _ | .bool _, _ | .number _, _ | .string _, _ | .image _, _ | .resource _, _ => rfl
  | .tuple values, output | .list values, output => by
      rw [appendRuntimeJson, directJson, appendRuntimeJsonAll_eq values, pushItems_eq]
      simp only [String.append_assoc]
  | .record entries, output => by
      have hpush : ∀ sorted : List (String × String),
          (sorted.map fun entry => (entry.1, pushing entry.2)).map
            (fun entry output => entry.2 (output ++ jsonString entry.1 ++ ":")) =
          (sorted.map fun entry => jsonString entry.1 ++ ":" ++ entry.2).map pushing := by
        intro sorted
        simp only [map_map]
        refine map_congr_left fun entry _ => funext fun output => ?_
        simp only [Function.comp_apply, pushing, String.append_assoc]
      rw [appendRuntimeJson, directJson, appendRuntimeJsonEntries_eq entries, sortedEntries_map,
        hpush, pushItems_eq, jsonObject]
      simp only [String.append_assoc]
theorem appendRuntimeJsonAll_eq :
    ∀ values, appendRuntimeJsonAll values = (directJsonAll values).map pushing
  | [] => rfl
  | value :: rest => by
      rw [appendRuntimeJsonAll, directJsonAll, map_cons, appendRuntimeJsonAll_eq rest]
      exact congrArg (· :: _) (funext (appendRuntimeJson_eq value))
theorem appendRuntimeJsonEntries_eq : ∀ entries, appendRuntimeJsonEntries entries =
    (directJsonEntries entries).map fun entry => (entry.1, pushing entry.2)
  | [] => rfl
  | (key, value) :: rest => by
      rw [appendRuntimeJsonEntries, directJsonEntries, map_cons, appendRuntimeJsonEntries_eq rest]
      exact congrArg (fun push => (key, push) :: _) (funext (appendRuntimeJson_eq value))
end

mutual
theorem appendStringified_eq :
    ∀ value output, appendStringified value output = output ++ stringifyValue value
  | .null, _ | .bool _, _ | .number _, _ | .string _, _ => by
      rw [appendStringified, stringifyValue]
  | .image _, output | .resource _, output | .list _, output | .record _, output => by
      rw [appendStringified, stringifyValue, appendRuntimeJson_eq]
      all_goals nofun
  | .tuple values, output => by
      rw [appendStringified, stringifyValue]
      exact appendTupleLiteral_eq values output
theorem appendTupleLiteral_eq :
    ∀ values output, appendTupleLiteral values output = output ++ tupleLiteral values
  | values, output => by
      rw [appendTupleLiteral, tupleLiteral, appendTupleItems_eq values, pushItems_eq]
      simp only [String.append_assoc]
theorem appendTupleItems_eq : ∀ values, appendTupleItems values = (tupleItems values).map pushing
  | [] => by rw [appendTupleItems, tupleItems, List.map_nil]
  | .string text :: rest => by
      rw [appendTupleItems, tupleItems, map_cons, appendTupleItems_eq rest]
      rfl
  | .tuple values :: rest => by
      rw [appendTupleItems, tupleItems, map_cons, appendTupleItems_eq rest]
      exact congrArg (· :: _) (funext (appendTupleLiteral_eq values))
  | .null :: rest | .bool _ :: rest | .number _ :: rest | .image _ :: rest | .resource _ :: rest
  | .list _ :: rest | .record _ :: rest => by
      rw [appendTupleItems, tupleItems, map_cons, appendTupleItems_eq rest]
      · exact congrArg (· :: _) (funext (appendStringified_eq _))
      all_goals nofun
end

theorem appendStringified_direct :
    appendStringified = fun value output => output ++ stringifyValue value :=
  funext fun value => funext fun output => appendStringified_eq value output

/-! ## Scanning ahead and filling in while scanning -/

section Lockstep

variable {push : Value → Push} {args : List Value} {parts more : List CompiledFormatPart}
variable {output : String}

theorem executeParts_append : executeParts push args (parts ++ more) output =
      executeParts push args parts output >>= executeParts push args more := by
  induction parts generalizing output with
  | nil => rfl
  | cons part rest ih =>
    cases part with
    | literal text => exact ih
    | arg slot =>
      rw [cons_append, executeParts, executeParts]
      cases args[slot]? with
      | none => rfl
      | some value => exact ih

theorem executeParts_literal (literal : List Char)
    (h : executeParts push args parts "" = .ok output) :
    executeParts push args (pushFormatLiteral parts literal) "" =
      .ok (output ++ String.ofList literal) := by
  unfold pushFormatLiteral
  cases literal with
  | nil => simpa using h
  | cons c rest =>
    rw [if_neg (by simp), executeParts_append, h]
    rfl

theorem executeParts_arg {slot : Nat} {value : Value} (hslot : args[slot]? = some value)
    (h : executeParts push args parts "" = .ok output) :
    executeParts push args (parts ++ [CompiledFormatPart.arg slot]) "" =
      .ok (push value output) := by
  rw [executeParts_append, h]
  simp only [bind, Except.bind, executeParts, hslot]

/-- Filling in while scanning gives what the parts of the scan give, from wherever both have come
to. -/
theorem applyFormatFrom_eq (rest : List Char) (digits : Option (List Char)) (literal : List Char)
    (output : String) (slots : FormatSlots) (parts : List CompiledFormatPart)
    (h : executeParts appendStringified args parts "" = .ok output) :
    (applyFormatFrom args rest digits literal output slots).mapError RuntimeError.valueError =
      match parseFormatFrom args.length rest digits literal parts slots with
      | .error message => .error (.valueError message)
      | .ok parts => executeParts appendStringified args parts "" := by
  induction rest, digits, literal, output, slots using applyFormatFrom.induct args
    generalizing parts with
  | case1 literal output slots unused hunused =>
    rw [applyFormatFrom, parseFormatFrom]
    simp only [hunused]
    rfl
  | case2 literal output slots hunused =>
    rw [applyFormatFrom, parseFormatFrom]
    simp only [hunused, executeParts_literal literal h]
    rfl
  | case3 digits literal output slots =>
    rw [applyFormatFrom, parseFormatFrom]
    rfl
  | case4 c rest digits literal output slots hdigit ih =>
    rw [applyFormatFrom, parseFormatFrom, if_pos hdigit, if_pos hdigit]
    exact ih parts h
  | case5 c rest digits literal output slots hdigit hclose =>
    rw [applyFormatFrom, parseFormatFrom, if_neg hdigit, if_neg hdigit, if_pos hclose,
      if_pos hclose]
    rfl
  | case6 c rest digits literal output slots hdigit hclose message htake =>
    rw [applyFormatFrom, parseFormatFrom, if_neg hdigit, if_neg hdigit, if_neg hclose,
      if_neg hclose, htake]
    rfl
  | case7 c rest digits literal output slots hdigit hclose slot later htake hnone =>
    have hrange : args.length ≤ slot := getElem?_eq_none_iff.mp hnone
    rw [applyFormatFrom, parseFormatFrom, if_neg hdigit, if_neg hdigit, if_neg hclose,
      if_neg hclose, htake]
    simp only [hnone, if_pos hrange]
    rfl
  | case8 c rest digits literal output slots hdigit hclose slot later htake value hsome ih =>
    have hrange : ¬ args.length ≤ slot := by
      have hlt := (List.getElem?_eq_some_iff.mp hsome).1
      omega
    rw [applyFormatFrom, parseFormatFrom, if_neg hdigit, if_neg hdigit, if_neg hclose,
      if_neg hclose, htake]
    simp only [hsome, if_neg hrange]
    exact ih _ (executeParts_arg hsome h)
  | case9 rest literal output slots ih =>
    rw [applyFormatFrom, parseFormatFrom]
    exact ih _ (executeParts_literal _ (executeParts_literal literal h))
  | case10 rest literal output slots ih =>
    rw [applyFormatFrom, parseFormatFrom]
    exact ih _ (executeParts_literal _ (executeParts_literal literal h))
  | case11 rest literal output slots hopen hclose ih =>
    rw [applyFormatFrom, parseFormatFrom, if_pos rfl, if_pos rfl]
    · exact ih _ (executeParts_literal literal h)
    all_goals assumption
  | case12 rest literal output slots hopen hclose hbrace =>
    rw [applyFormatFrom, parseFormatFrom, if_neg hbrace, if_neg hbrace, if_pos rfl, if_pos rfl]
    · rfl
    all_goals assumption
  | case13 c rest literal output slots hopen hclose hleft hright ih =>
    rw [applyFormatFrom, parseFormatFrom, if_neg hleft, if_neg hleft, if_neg hright, if_neg hright]
    · exact ih parts h
    all_goals assumption

/-- The shape of a template with one argument stands for its parts. -/
theorem executeParts_oneArg {shape : CompiledFormatOneArg}
    (hshape : compiledFormatOneArg parts args.length = some shape) :
    ∃ value, args = [value] ∧
      executeParts push args parts "" = .ok (executeOneArg (push value) shape) := by
  unfold compiledFormatOneArg at hshape
  split at hshape
  · cases hshape
  · next hone =>
      obtain ⟨value, rfl⟩ := length_eq_one_iff.mp (not_not.mp hone)
      refine ⟨value, rfl, ?_⟩
      split at hshape <;> cases hshape <;>
        simp [executeParts, executeOneArg]

/-- A template that is compiled for the arguments is filled in from its parts. -/
theorem executeCompiled_eq (push : Value → Push) (template : String) (args : List Value) :
    executeCompiled push (compileFormatTemplate template args.length) args =
      match parseFormatTemplate template args.length with
      | .error message => .error (.valueError message)
      | .ok parts => executeParts push args parts "" := by
  unfold compileFormatTemplate
  cases parseFormatTemplate template args.length with
  | error message => rfl
  | ok parts =>
    cases hshape : compiledFormatOneArg parts args.length with
    | none => simp only [executeCompiled, hshape]
    | some shape =>
      obtain ⟨value, rfl, hparts⟩ : ∃ value, args = [value] ∧
          executeParts push args parts "" = .ok (executeOneArg (push value) shape) :=
        executeParts_oneArg hshape
      simp only [executeCompiled, hshape, hparts]
      rfl

theorem stringify_number (value : Float) : stringifyValue (.number value) = writeNumber value := by
  rw [stringifyValue]

theorem executeNumberParts_eq (value : Float) (parts : List CompiledFormatPart)
    (output : String) : executeNumberParts value parts output =
      executeParts (fun value output => output ++ stringifyValue value) [.number value] parts
        output := by
  induction parts generalizing output with
  | nil => rfl
  | cons part rest ih =>
    cases part with
    | literal text => exact ih _
    | arg slot =>
      cases slot with
      | zero =>
        rw [executeNumberParts, executeParts, ih]
        simp only [getElem?_cons_zero, stringify_number]
      | succ slot =>
        rw [executeNumberParts, executeParts]
        · rfl
        · exact Nat.succ_ne_zero slot

theorem executeNumber_eq (template : CompiledFormatTemplate) (value : Float) :
    executeCompiledFormatOneNumberCompactDirect template value =
      executeCompiledFormatDirect template [.number value] := by
  unfold executeCompiledFormatOneNumberCompactDirect executeCompiledFormatDirect executeCompiled
  cases template.error with
  | some message => rfl
  | none =>
    cases template.oneArg with
    | some shape =>
      simp only [head?_cons, stringify_number]
    | none => exact executeNumberParts_eq value template.parts ""

end Lockstep

/-- The template without its shape. -/
def CompiledFormatTemplate.unshaped :
    CompiledFormatTemplate := { template with oneArg := none }

theorem execute_unshaped (push : Value → Push) (template : String) (args : List Value) :
    executeCompiled push (compileFormatTemplate template args.length).unshaped args =
      executeCompiled push (compileFormatTemplate template args.length) args := by
  rw [executeCompiled_eq]
  unfold compileFormatTemplate
  cases parseFormatTemplate template args.length <;> rfl

theorem applyFormat_eq (template : String) (args : List Value) : applyFormatAsync template args =
      executeCompiledFormat (compileFormatTemplate template args.length) args := by
  unfold executeCompiledFormat applyFormatAsync
  rw [executeCompiled_eq]
  exact applyFormatFrom_eq template.toList none [] "" .start [] rfl

/-- A template that is filled in while it is scanned, one that is compiled first, with its shape
or by its parts, and a lone number: they give the same text or fail alike. -/
theorem format_paths_agree (template : String) (args : List Value) :
    let compiled := compileFormatTemplate template args.length
    executeCompiledFormat compiled args = applyFormatAsync template args ∧
    executeCompiledFormat compiled.unshaped args = applyFormatAsync template args ∧
    executeCompiledFormatDirect compiled args = applyFormatAsync template args ∧
    executeCompiledFormatDirect compiled.unshaped args = applyFormatAsync template args ∧
    ∀ value, args = [.number value] → executeCompiledFormatOneNumberCompactDirect compiled value =
        applyFormatAsync template args ∧
      executeCompiledFormatOneNumberCompactDirect compiled.unshaped value =
        applyFormatAsync template args := by
  have hdirect : executeCompiledFormatDirect = executeCompiledFormat := by
    unfold executeCompiledFormatDirect executeCompiledFormat
    rw [appendStringified_direct]
  rw [hdirect, applyFormat_eq]
  have hshape : executeCompiledFormat (compileFormatTemplate template args.length).unshaped args =
      executeCompiledFormat (compileFormatTemplate template args.length) args :=
    execute_unshaped _ template args
  refine ⟨rfl, hshape, rfl, hshape, ?_⟩
  rintro value rfl
  rw [executeNumber_eq, executeNumber_eq, hdirect]
  exact ⟨rfl, hshape⟩

end FormatPaths
