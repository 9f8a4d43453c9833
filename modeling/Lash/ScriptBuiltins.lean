import Lash.ScriptOps

/-!
# The builtin functions of the script language

The texts a format template stands for, the functions on texts and lists, and the
table from a name to the operation the machine runs. The parser of JSON texts is
not part of the repository, and what a compiled schema accepts is left to a
parameter; both are fields of `Builtins`.
-/

namespace ScriptBuiltins

open ScriptNumbers ScriptValues ScriptOps

/-! ## JSON values -/

inductive JsonNumber where
  | integer (n : Int)
  | float (x : Float)
deriving DecidableEq

def JsonNumber.asF64 : JsonNumber → Float
  | .integer n => ofInt n
  | .float x => x

def JsonNumber.asU64 : JsonNumber → Option Nat
  | .integer n => if 0 ≤ n ∧ n < 2 ^ 64 then some n.toNat else none
  | .float _ => none

/-- A parsed JSON text. The entries of an object are in the order of their keys, each key once. -/
inductive Json where
  | null
  | bool (value : Bool)
  | number (value : JsonNumber)
  | string (value : String)
  | array (values : List Json)
  | object (entries : List (String × Json))

namespace Json

def get (map : List (String × Json)) (name : String) : Option Json :=
  (map.find? fun entry => entry.1 == name).map Prod.snd

def asStr : Json → Option String
  | .string value => some value
  | _ => none

def asBool : Json → Option Bool
  | .bool value => some value
  | _ => none

def asU64 : Json → Option Nat
  | .number value => value.asU64
  | _ => none

end Json

def optionalU32Field : Json → Option (Option UInt32)
  | .null => some none
  | .number number =>
    number.asU64.bind fun n => if n < 2 ^ 32 then some (some (UInt32.ofNat n)) else none
  | _ => none

variable (map : List (String × Json))

def imageFromJsonMap : Option ImageValue := do
  let kind ← (Json.get map "type").bind Json.asStr
  if kind ≠ "image" then none
  else
    let id ← (Json.get map "id").bind Json.asStr
    let label ← (Json.get map "label").bind Json.asStr
    let size ← (Json.get map "size").bind Json.asU64
    let width ← (Json.get map "width").bind optionalU32Field
    let height ← (Json.get map "height").bind optionalU32Field
    some ⟨id, label, UInt64.ofNat size, width, height⟩

def resourceFromJsonMap : Option ResourceHandle := do
  let marked ← (Json.get map "__resource__").bind Json.asBool
  if !marked then none
  else
    let resourceType ← (Json.get map "type").bind Json.asStr
    let aliasName ← (Json.get map "alias").bind Json.asStr
    some ⟨resourceType, aliasName⟩

mutual
/-- The source's `from_json`. -/
def fromJson : Json → Value
  | .null => .null
  | .bool value => .bool value
  | .number value => .number value.asF64
  | .string value => .string value
  | .array values => .list (fromJsonAll values)
  | .object map =>
    match imageFromJsonMap map with
    | some image => .image image
    | none =>
      match resourceFromJsonMap map with
      | some handle => .resource handle
      | none => .record (Record.ofEntries (fromJsonEntries map))
def fromJsonAll : List Json → List Value
  | [] => []
  | value :: rest => fromJson value :: fromJsonAll rest
def fromJsonEntries : List (String × Json) → List (String × Value)
  | [] => []
  | (key, value) :: rest => (key, fromJson value) :: fromJsonEntries rest
end

/-- What the builtins use and the model leaves open: the parser of JSON texts, and the values a
compiled schema accepts. -/
structure Builtins where
  parseJson : String → Except String Json
  executeValidationPlan : Value → Value → Result

/-! ## Format templates -/

inductive CompiledFormatPart where
  | literal (text : String)
  | arg (slot : Nat)
deriving DecidableEq

structure CompiledFormatTemplate where
  parts : List CompiledFormatPart
  argc : Nat
  error : Option String
deriving DecidableEq

/-- What the parser of a template has seen so far. -/
structure FormatScan where
  parts : List CompiledFormatPart
  literal : List Char
  usesSequential : Bool
  usesIndexed : Bool
  nextSequential : Nat
  used : List Nat

def pushFormatLiteral (parts : List CompiledFormatPart) (literal : List Char) :
    List CompiledFormatPart :=
  if literal.isEmpty then parts else parts ++ [.literal (String.ofList literal)]

variable (scan : FormatScan)

def FormatScan.flush : FormatScan :=
  { scan with parts := pushFormatLiteral scan.parts scan.literal, literal := [] }

def FormatScan.brace (c : Char) : FormatScan :=
  { scan.flush with parts := scan.flush.parts ++ [.literal (String.singleton c)] }

def mixedPlaceholders : String := "can't mix `\x7b\x7d` and indexed format placeholders"

def FormatScan.placeholder (digits : List Char) (argc : Nat) : Except String FormatScan :=
  if digits.isEmpty then
    if scan.usesIndexed then .error mixedPlaceholders
    else if argc ≤ scan.nextSequential then .error "format slot `\x7b\x7d` is out of range"
    else .ok { scan.flush with
      parts := scan.flush.parts ++ [.arg scan.nextSequential]
      usesSequential := true
      nextSequential := scan.nextSequential + 1 }
  else if scan.usesSequential then .error mixedPlaceholders
  else if 2 ^ 64 ≤ digitsValue digits then .error s!"bad format slot `{String.ofList digits}`"
  else if argc ≤ digitsValue digits then
    .error s!"format slot `{String.ofList digits}` is out of range"
  else .ok { scan.flush with
    parts := scan.flush.parts ++ [.arg (digitsValue digits)]
    usesIndexed := true
    used := digitsValue digits :: scan.used }

def FormatScan.unused (argc : Nat) : Option Nat :=
  if scan.usesSequential then
    if scan.nextSequential < argc then some scan.nextSequential else none
  else if scan.usesIndexed then (List.range argc).find? fun slot => !scan.used.contains slot
  else if 0 < argc then some 0 else none

def FormatScan.close (argc : Nat) : Except String (List CompiledFormatPart) :=
  match scan.unused argc with
  | some unused => .error s!"format argument `{unused}` is unused"
  | none => .ok scan.flush.parts

/-- The scan of a template. Between a brace that opens a placeholder and its end, the digits read
so far are the second argument. -/
def scanTemplate (argc : Nat) : List Char → Option (List Char) → FormatScan →
    Except String (List CompiledFormatPart)
  | [], none, scan => scan.close argc
  | [], some _, _ => .error "unmatched `\x7b` in format string"
  | c :: rest, some digits, scan =>
    if c.isDigit then scanTemplate argc rest (some (digits ++ [c])) scan
    else if c = '\x7d' then
      match scan.placeholder digits argc with
      | .ok scan => scanTemplate argc rest none scan
      | .error message => .error message
    else .error "invalid format placeholder"
  | '\x7b' :: '\x7b' :: rest, none, scan => scanTemplate argc rest none (scan.brace '\x7b')
  | '\x7d' :: '\x7d' :: rest, none, scan => scanTemplate argc rest none (scan.brace '\x7d')
  | c :: rest, none, scan =>
    if c = '\x7b' then scanTemplate argc rest (some []) scan
    else if c = '\x7d' then .error "unmatched `\x7d` in format string"
    else scanTemplate argc rest none { scan with literal := scan.literal ++ [c] }

def parseFormatTemplate (template : String) (argc : Nat) :
    Except String (List CompiledFormatPart) :=
  scanTemplate argc template.toList none ⟨[], [], false, false, 0, []⟩

def compileFormatTemplate (template : String) (argc : Nat) : CompiledFormatTemplate :=
  match parseFormatTemplate template argc with
  | .ok parts => ⟨parts, argc, none⟩
  | .error message => ⟨[], argc, some message⟩

def renderParts (args : List Value) : List CompiledFormatPart → Except RuntimeError String
  | [] => .ok ""
  | .literal text :: rest =>
    match renderParts args rest with
    | .ok tail => .ok (text ++ tail)
    | .error error => .error error
  | .arg slot :: rest =>
    match args[slot]? with
    | some value =>
      match renderParts args rest with
      | .ok tail => .ok (stringifyValue value ++ tail)
      | .error error => .error error
    | none => .error (.valueError s!"format slot `{slot}` is out of range")

variable (template : CompiledFormatTemplate)

/-- The source's `execute_compiled_format_direct`. The shape it keeps for one argument only saves
the walk over the parts. -/
def executeCompiledFormat (args : List Value) : Result :=
  match template.error with
  | some message => .error (.valueError message)
  | none =>
    match renderParts args template.parts with
    | .ok text => .ok (.string text)
    | .error error => .error error

def renderNumberParts (value : Float) : List CompiledFormatPart → Except RuntimeError String
  | [] => .ok ""
  | .literal text :: rest =>
    match renderNumberParts value rest with
    | .ok tail => .ok (text ++ tail)
    | .error error => .error error
  | .arg 0 :: rest =>
    match renderNumberParts value rest with
    | .ok tail => .ok (writeNumber value ++ tail)
    | .error error => .error error
  | .arg slot :: _ => .error (.valueError s!"format slot `{slot}` is out of range")

/-- The source's `execute_compiled_format_one_number_compact_direct`. -/
def executeCompiledFormatOneNumber (value : Float) : Result :=
  match template.error with
  | some message => .error (.valueError message)
  | none =>
    match renderNumberParts value template.parts with
    | .ok text => .ok (.string text)
    | .error error => .error error

/-- A lone number takes a path of its own, with the same text. -/
theorem executeCompiledFormatOneNumber_eq (value : Float) :
    executeCompiledFormatOneNumber template value =
      executeCompiledFormat template [.number value] := by
  have hparts : ∀ parts, renderNumberParts value parts = renderParts [.number value] parts := by
    intro parts
    induction parts with
    | nil => rfl
    | cons part rest ih =>
      cases part with
      | literal text => simp only [renderNumberParts, renderParts, ih]
      | arg slot =>
        cases slot with
        | zero => simp [renderNumberParts, renderParts, ih, stringifyValue]
        | succ slot => simp [renderNumberParts, renderParts]
  simp only [executeCompiledFormatOneNumber, executeCompiledFormat, hparts]

/-- The source's `apply_format`, for a template known only when the program runs. -/
def applyFormat (template : String) (args : List Value) : Result :=
  executeCompiledFormat (compileFormatTemplate template args.length) args

/-! ## Texts and lists -/

def startsWith : List Char → List Char → Bool
  | _, [] => true
  | [], _ :: _ => false
  | c :: cs, d :: ds => c == d && startsWith cs ds

/-- The first position at which the needle stands in the text. -/
def findFrom (needle : List Char) : List Char → Nat → Option Nat
  | [], position => if needle.isEmpty then some position else none
  | c :: cs, position =>
    if startsWith (c :: cs) needle then some position else findFrom needle cs (position + 1)

variable (text : List Char)

variable (needle : List Char)

def findText (start : Nat) : Option Nat :=
  if text.length < start then none
  else if needle.isEmpty then some start
  else findFrom needle (text.drop start) start

def splitFrom (needle : List Char) : Nat → List Char → List Char → List (List Char)
  | _, [], part => [part]
  | skip + 1, _ :: rest, part => splitFrom needle skip rest part
  | 0, c :: rest, part =>
    if startsWith (c :: rest) needle then
      part :: splitFrom needle (needle.length - 1) rest []
    else splitFrom needle 0 rest (part ++ [c])

def splitText : List (List Char) :=
  if needle.isEmpty then [[]] ++ text.map (fun c => [c]) ++ [[]]
  else splitFrom needle 0 text []

def withoutReturn (line : List Char) : List Char :=
  if line.getLast? = some '\r' then line.dropLast else line

/-- The lines of a text. What stands behind the last line feed is left out where it is empty, and
keeps its carriage return. -/
def textLines : List (List Char) :=
  let lines := splitText text ['\n']
  lines.dropLast.map withoutReturn ++ lines.getLast?.toList.filter (!·.isEmpty)

def stringOf : Value := .string (String.ofList text)

def grepMatch (line : Nat) (text : List Char) : Option Value :=
  (findText text needle 0).map fun start =>
    .record [("line", .number (ofNat (line + 1))), ("text", stringOf text),
      ("match", stringOf needle), ("start", .number (ofNat start)),
      ("end", .number (ofNat (start + needle.length)))]

def grepTextStrings : Result :=
  if needle.isEmpty then .error (.valueError "`grep_text` needle must not be empty")
  else .ok (.list ((textLines text).zipIdx.filterMap fun (line, i) => grepMatch needle i line))

def valueLen : Value → Option Nat
  | .string text => some text.toList.length
  | .tuple values | .list values => some values.length
  | .record record => some record.length
  | .null => some 0
  | _ => none

variable (value : Value)

def executeLen : Result :=
  match valueLen value with
  | some len => .ok (.number (ofNat len))
  | none => .error (.typeError
      "`len` requires a string, tuple, list, record, or null; use `.size` for images")

def executeEmpty : Result :=
  match value with
  | .string text => .ok (.bool text.isEmpty)
  | .tuple values | .list values => .ok (.bool values.isEmpty)
  | .record record => .ok (.bool record.isEmpty)
  | .null => .ok (.bool true)
  | _ => .error (.typeError "`empty` requires a string, tuple, list, record, or null")

def executeKeys : Result :=
  match value with
  | .record record => .ok (.list ((Record.keys record).map .string))
  | .null => .ok (.list [])
  | _ => .error (.typeError "`keys` requires a record or null")

def executeValues : Result :=
  match value with
  | .record record => .ok (.list (Record.values record))
  | .null => .ok (.list [])
  | _ => .error (.typeError "`values` requires a record or null")

/-- A function of one text. -/
def onText (f : List Char → Result) : Result :=
  match coerceString value with
  | .ok text => f text.toList
  | .error error => .error error

def onTexts (first second : Value) (f : List Char → List Char → Result) : Result :=
  onText first fun a => onText second fun b => f a b

def executeContains (haystack needle : Value) : Result :=
  match haystack with
  | .string text => onText needle fun n => .ok (.bool (findText text.toList n 0).isSome)
  | .tuple items | .list items => .ok (.bool (items.any fun item => item.eq needle))
  | .record record => onText needle fun key =>
    .ok (.bool (Record.get record (String.ofList key)).isSome)
  | .null => .ok (.bool false)
  | _ => .error (.typeError ("`contains` requires a string/string, tuple/value, list/value, " ++
      "record/key, or null/value pair"))

def asNonNegativeCharIndex (builtin argName : String) (value : Value) :
    Except RuntimeError Nat :=
  match asNumber value with
  | .ok number =>
    if !number.isFinite || !isIntegral number || number < 0.0 || ofNat (2 ^ 64 - 1) < number then
      .error (.typeError s!"`{builtin}` {argName} must be a non-negative integer")
    else .ok (asU64 number)
  | .error error => .error error

def findValue (haystack needle : Value) (start : Nat) : Result :=
  onTexts haystack needle fun text n =>
    match findText text n start with
    | some position => .ok (.number (ofNat position))
    | none => .ok .null

def executeFind (values : List Value) : Result :=
  match values with
  | [haystack, needle] => findValue haystack needle 0
  | [haystack, needle, start] =>
    match asNonNegativeCharIndex "find" "start" start with
    | .ok start => findValue haystack needle start
    | .error error => .error error
  | values => .error (.typeError s!"`find` takes 2 or 3 arg(s), got {values.length}")

def asSliceBound : Value → Except RuntimeError (Option Int)
  | .null => .ok none
  | value =>
    match asOffset value with
    | .ok offset => .ok (some offset)
    | .error error => .error error

def normalizeSliceBound (bound : Int) (len : Nat) : Nat :=
  let normalized := if bound < 0 then len + bound else bound
  (max 0 (min (len : Int) normalized)).toNat

def sliceItems {A : Type} (items : List A) (start stop : Option Int) : List A :=
  let first := normalizeSliceBound (start.getD 0) items.length
  let last := normalizeSliceBound (stop.getD items.length) items.length
  (items.take last).drop first

def executeSlice (target start stop : Value) : Result :=
  match asSliceBound start, asSliceBound stop with
  | .ok start, .ok stop =>
    match target with
    | .string text => .ok (stringOf (sliceItems text.toList start stop))
    | .tuple items => .ok (.tuple (sliceItems items start stop))
    | .list items => .ok (.list (sliceItems items start stop))
    | _ => .error (.typeError "`slice` requires a string, tuple, or list")
  | .error error, _ | .ok _, .error error => .error error

def joinTexts (separator : String) : List Value → Except RuntimeError (List String)
  | [] => .ok []
  | item :: rest =>
    match coerceString item with
    | .ok text =>
      match joinTexts separator rest with
      | .ok texts => .ok (text :: texts)
      | .error error => .error error
    | .error error => .error error

def executeJoin (items separator : Value) : Result :=
  match items with
  | .list items | .tuple items =>
    match coerceString separator with
    | .ok separator =>
      match joinTexts separator items with
      | .ok texts => .ok (.string (String.intercalate separator texts))
      | .error error => .error error
    | .error error => .error error
  | _ => .error (.typeError "`join` requires a tuple or list as the first argument")

def asIntegerDivArg (builtin argName : String) (value : Value) : Except RuntimeError Float :=
  match value with
  | .number number =>
    if !number.isFinite || !isIntegral number then
      .error (.typeError s!"`{builtin}` {argName} must be a finite integer")
    else .ok number
  | value => .error (.typeError
      s!"`{builtin}` {argName} must be a finite integer, got {valueTypeName value}")

variable (name : String)

variable (round : Float → Float)

def executeIntegerDiv (values : List Value) : Result :=
  match values with
  | [dividend, divisor] =>
    match asIntegerDivArg name "dividend" dividend, asIntegerDivArg name "divisor" divisor with
    | .ok a, .ok b =>
      if b == 0.0 then .error (.valueError s!"`{name}` divisor must not be 0")
      else .ok (.number (round (a / b)))
    | .error error, _ | .ok _, .error error => .error error
  | values => .error (.typeError s!"`{name}` takes 2 arg(s), got {values.length}")

def executeNumber (value : Value) : Result :=
  match asNumber value with
  | .ok number => .ok (.number (round number))
  | .error error => .error error

def executeFormat (values : List Value) : Result :=
  match values with
  | .string template :: args => applyFormat template args
  | [] => .error (.typeError "`format` requires at least a template string")
  | other :: _ => .error (.typeError
      s!"`format` template must be a string, got {valueTypeName other}")

variable (builtins : Builtins)

def executeJsonParse (value : Value) : Result :=
  match coerceString value with
  | .ok text =>
    match builtins.parseJson text with
    | .ok json => .ok (fromJson json)
    | .error error => .error (.valueError s!"invalid json: {error}")
  | .error error => .error error

/-- The source's `execute_dynamic_validate`. -/
def executeValidate (value schema : Value) : Result :=
  match unwrapTypeValue schema with
  | some schema => builtins.executeValidationPlan schema value
  | none => .error (.typeError "`validate` requires a Type literal as the second argument")

/-! ## The table of builtins -/

inductive IntrinsicOp where
  | len | empty | keys | values | contains
  | find (argc : Nat)
  | grepText | startsWith | endsWith | split | join | trim | slice
  | toString | toInt | toFloat | jsonParse
  | format (argc : Nat)
  | validate
  | range (argc : Nat)
  | ceilDiv | floorDiv | push
  | invalidArity (name : String) (argc : Nat)
  | unknown (name : String) (argc : Nat)
deriving DecidableEq

def IntrinsicOp.argc : IntrinsicOp → Nat
  | .len | .empty | .keys | .values | .trim | .toString | .toInt | .toFloat | .jsonParse => 1
  | .contains | .grepText | .startsWith | .endsWith | .split | .join | .validate | .ceilDiv
  | .floorDiv | .push => 2
  | .slice => 3
  | .find argc | .format argc | .range argc | .invalidArity _ argc | .unknown _ argc => argc

inductive Arity where
  | exact (n : Nat)
  | range (low high : Nat)
  | atLeast (low : Nat)
deriving DecidableEq

def Arity.accepts : Arity → Nat → Bool
  | .exact n, argc => argc == n
  | .range low high, argc => low ≤ argc && argc ≤ high
  | .atLeast low, argc => low ≤ argc

/-- The source's `BUILTINS`. -/
def arities : List (String × Arity) :=
  [("len", .exact 1), ("empty", .exact 1), ("keys", .exact 1), ("values", .exact 1),
    ("trim", .exact 1), ("to_string", .exact 1), ("to_int", .exact 1), ("to_float", .exact 1),
    ("json_parse", .exact 1), ("contains", .exact 2), ("grep_text", .exact 2),
    ("starts_with", .exact 2), ("ends_with", .exact 2), ("split", .exact 2), ("join", .exact 2),
    ("validate", .exact 2), ("ceil_div", .exact 2), ("floor_div", .exact 2), ("push", .exact 2),
    ("slice", .exact 3), ("find", .range 2 3), ("format", .atLeast 1), ("range", .range 1 3)]

def lookupArity : Option Arity :=
  (arities.find? fun entry => entry.1 == name).map Prod.snd

def isBuiltin : Bool := (lookupArity name).isSome

/-- The source's `intrinsic_for_builtin`. -/
def intrinsicForBuiltin (argc : Nat) : Option IntrinsicOp :=
  match name with
  | "len" => some .len
  | "empty" => some .empty
  | "keys" => some .keys
  | "values" => some .values
  | "contains" => some .contains
  | "find" => some (.find argc)
  | "grep_text" => some .grepText
  | "starts_with" => some .startsWith
  | "ends_with" => some .endsWith
  | "split" => some .split
  | "join" => some .join
  | "trim" => some .trim
  | "slice" => some .slice
  | "to_string" => some .toString
  | "to_int" => some .toInt
  | "to_float" => some .toFloat
  | "json_parse" => some .jsonParse
  | "format" => some (.format argc)
  | "validate" => some .validate
  | "range" => some (.range argc)
  | "ceil_div" => some .ceilDiv
  | "floor_div" => some .floorDiv
  | "push" => some .push
  | _ => none

def resolveIntrinsic (argc : Nat) : IntrinsicOp :=
  match lookupArity name with
  | some arity =>
    if arity.accepts argc then (intrinsicForBuiltin name argc).getD (.unknown name argc)
    else .invalidArity name argc
  | none => (intrinsicForBuiltin name argc).getD (.unknown name argc)

def invalidArityMessage (argc : Nat) : String :=
  match name with
  | "find" => s!"`find` takes 2 or 3 arg(s), got {argc}"
  | "range" => s!"`range` takes 1, 2, or 3 arg(s), got {argc}"
  | "format" => "`format` requires at least a template string"
  | name =>
    let expected := match lookupArity name with
      | some (.exact n) => n
      | _ => 0
    s!"`{name}` takes {expected} arg(s), got {argc}"

def argCountError (expected : Nat) (values : List Value) : Result :=
  .error (.typeError s!"`{name}` takes {expected} arg(s), got {values.length}")

def oneArg (f : Value → Result) : List Value → Result
  | [a] => f a
  | values => argCountError name 1 values

def twoArgs (f : Value → Value → Result) : List Value → Result
  | [a, b] => f a b
  | values => argCountError name 2 values

def threeArgs (f : Value → Value → Value → Result) : List Value → Result
  | [a, b, c] => f a b c
  | values => argCountError name 3 values

/-- The source's `execute_intrinsic`. -/
def executeIntrinsic : IntrinsicOp → List Value → Result
  | .len => oneArg "len" executeLen
  | .empty => oneArg "empty" executeEmpty
  | .keys => oneArg "keys" executeKeys
  | .values => oneArg "values" executeValues
  | .contains => twoArgs "contains" executeContains
  | .find _ => executeFind
  | .grepText => twoArgs "grep_text" fun text needle => onTexts text needle grepTextStrings
  | .startsWith => twoArgs "starts_with" fun a b => onTexts a b fun text start =>
    .ok (.bool (startsWith text start))
  | .endsWith => twoArgs "ends_with" fun a b => onTexts a b fun text ending =>
    .ok (.bool (startsWith text.reverse ending.reverse))
  | .split => twoArgs "split" fun a b => onTexts a b fun text needle =>
    .ok (.list ((splitText text needle).map stringOf))
  | .join => twoArgs "join" executeJoin
  | .trim => oneArg "trim" fun a => onText a fun text => .ok (stringOf (trimChars text))
  | .slice => threeArgs "slice" executeSlice
  | .toString => oneArg "to_string" fun a => .ok (.string (stringifyValue a))
  | .toInt => oneArg "to_int" (executeNumber trunc)
  | .toFloat => oneArg "to_float" (executeNumber id)
  | .jsonParse => oneArg "json_parse" (executeJsonParse builtins)
  | .format _ => executeFormat
  | .validate => twoArgs "validate" (executeValidate builtins)
  | .range _ => executeRangeBuiltin
  | .ceilDiv => executeIntegerDiv "ceil_div" ceil
  | .floorDiv => executeIntegerDiv "floor_div" floor
  | .push => twoArgs "push" executePushBuiltin
  | .invalidArity name argc => fun _ => .error (.typeError (invalidArityMessage name argc))
  | .unknown name _ => fun _ => .error (.unknownBuiltin name)

end ScriptBuiltins
