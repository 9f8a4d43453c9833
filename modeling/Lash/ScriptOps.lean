import Lash.ScriptValues

/-!
# What the instructions of the script language compute

Coercions, the binary operators, reads and writes through fields and indexes.
Everything here is a function of values; an error is a value of its own.
-/

namespace ScriptOps

open ScriptNumbers ScriptValues

/-- The source's `RuntimeError`, without the two that say a stack of the machine is too low. -/
inductive RuntimeError where
  | undefinedVariable (name : String)
  | nonListIteration
  | sessionProcessAdminOutsideProcess (keyword : String)
  | foregroundControlInsideProcess (keyword : String)
  | unknownBuiltin (name : String)
  | typeError (message : String)
  | valueError (message : String)
deriving DecidableEq

abbrev Result := Except RuntimeError Value

inductive BinaryOp where
  | add | subtract | multiply | divide | modulo
  | equal | notEqual | less | lessEqual | greater | greaterEqual
  | and | or
deriving DecidableEq

inductive UnaryOp where
  | negate | not
deriving DecidableEq

def isComparisonBinaryOp : BinaryOp → Bool
  | .equal | .notEqual | .less | .lessEqual | .greater | .greaterEqual => true
  | _ => false

def isNumericBinaryOp : BinaryOp → Bool
  | .add | .subtract | .multiply | .divide | .modulo => true
  | _ => false

/-! ## Coercions -/

def coerceString : Value → Except RuntimeError String
  | .string value => .ok value
  | .null => .ok "null"
  | .bool value => .ok (if value then "true" else "false")
  | .number value => .ok (displayNumber value)
  | value => .error (.typeError s!"expected text, got {valueTypeName value}")

def asNumber : Value → Except RuntimeError Float
  | .number value => .ok value
  | .bool value => .ok (if value then 1.0 else 0.0)
  | .null => .ok 0.0
  | .string value =>
    let value := trimText value
    if value.isEmpty then .ok 0.0
    else match parseNumber value with
      | some number => .ok number
      | none => .error (.typeError "expected a number")
  | value => .error (.typeError s!"expected a number, got {valueTypeName value}")

variable (value : Value)

def asOffset : Except RuntimeError Int :=
  match asNumber value with
  | .ok number =>
    if !number.isFinite || !isIntegral number then
      .error (.typeError "index must be an integer")
    else .ok (asI64 number)
  | .error error => .error error

/-! ## Operators -/

def addValues : Value → Value → Result
  | .number a, .number b => .ok (.number (a + b))
  | .string a, .string b => .ok (.string (a ++ b))
  | .string a, other => .ok (.string (a ++ stringifyValue other))
  | other, .string b => .ok (.string (stringifyValue other ++ b))
  | .list a, .list b => .ok (.list (a ++ b))
  | .tuple a, .tuple b => .ok (.tuple (a ++ b))
  | .list _, .tuple _ | .tuple _, .list _ =>
    .error (.typeError "can't concatenate list and tuple")
  | left, right =>
    match asNumber left, asNumber right with
    | .ok a, .ok b => .ok (.number (a + b))
    | .error error, _ | .ok _, .error error => .error error

def numericBinaryValues (op : Float → Float → Float) (left right : Value) : Result :=
  match asNumber left, asNumber right with
  | .ok a, .ok b => .ok (.number (op a b))
  | .error error, _ | .ok _, .error error => .error error

def compareOrdered (numbers : Float → Float → Bool) (texts : String → String → Bool) :
    Value → Value → Result
  | .string a, .string b => .ok (.bool (texts a b))
  | left, right =>
    match asNumber left, asNumber right with
    | .ok a, .ok b => .ok (.bool (numbers a b))
    | .error error, _ | .ok _, .error error => .error error

variable (op : BinaryOp)

/-- The source's `eval_binary_values`. The logical operators are compiled to jumps. -/
def evalBinaryValues (left right : Value) : Result :=
  match op with
  | .add => addValues left right
  | .subtract => numericBinaryValues (· - ·) left right
  | .multiply => numericBinaryValues (· * ·) left right
  | .divide => numericBinaryValues (· / ·) left right
  | .modulo => numericBinaryValues remainder left right
  | .equal => .ok (.bool (left.eq right))
  | .notEqual => .ok (.bool !left.eq right)
  | .less => compareOrdered (fun a b => a < b) (fun a b => a < b) left right
  | .lessEqual => compareOrdered (fun a b => a ≤ b) (fun a b => a ≤ b) left right
  | .greater => compareOrdered (fun a b => b < a) (fun a b => b < a) left right
  | .greaterEqual => compareOrdered (fun a b => b ≤ a) (fun a b => b ≤ a) left right
  | .and | .or => .ok .null

/-- The source's `eval_number_numeric_binary_value`. -/
def evalNumberNumericBinaryValue (left right : Float) : Float :=
  match op with
  | .add => left + right
  | .subtract => left - right
  | .multiply => left * right
  | .divide => left / right
  | .modulo => remainder left right
  | _ => 0.0

/-- The source's `eval_number_compare_values`. -/
def evalNumberCompareValues (left right : Float) : Bool :=
  match op with
  | .equal => left == right
  | .notEqual => left != right
  | .less => left < right
  | .lessEqual => left ≤ right
  | .greater => right < left
  | .greaterEqual => right ≤ left
  | _ => false

/-- The source's `eval_compare_values`, for a comparison. -/
def evalCompareValues : Value → Value → Except RuntimeError Bool
  | .number left, .number right => .ok (evalNumberCompareValues op left right)
  | left, right =>
    match evalBinaryValues op left right with
    | .ok value => .ok (isTruthy value)
    | .error error => .error error

/-- What `Instruction::Binary` computes: numbers take a path of their own. -/
def binaryInstruction : Value → Value → Result
  | .number left, .number right =>
    .ok (if isNumericBinaryOp op then .number (evalNumberNumericBinaryValue op left right)
      else .bool (evalNumberCompareValues op left right))
  | left, right => evalBinaryValues op left right

def evalUnary (op : UnaryOp) (value : Value) : Result :=
  match op with
  | .negate =>
    match asNumber value with
    | .ok number => .ok (.number (-number))
    | .error error => .error error
  | .not => .ok (.bool !isTruthy value)

theorem binaryInstruction_eq {op : BinaryOp} (hand : op ≠ .and) (hor : op ≠ .or)
    (left right : Value) : binaryInstruction op left right = evalBinaryValues op left right := by
  cases left with
  | number a =>
    cases right with
    | number b =>
      cases op with
      | and => exact absurd rfl hand
      | or => exact absurd rfl hor
      | _ => rfl
    | _ => rfl
  | _ => rfl

/-! ## Reading -/

def imageField (image : ImageValue) (field : String) : Value :=
  if field = "id" then .string image.id
  else if field = "label" then .string image.label
  else if field = "size" then .number (ofNat image.size.toNat)
  else if field = "width" then (image.width.map fun n => .number (ofNat n.toNat)).getD .null
  else if field = "height" then (image.height.map fun n => .number (ofNat n.toNat)).getD .null
  else .null

def readField (field : String) : Result :=
  match value with
  | .record record => .ok ((Record.get record field).getD .null)
  | .image image => .ok (imageField image field)
  | .null => .ok .null
  | value => .error (.typeError s!"can't read `.{field}` from {valueTypeName value}")

/-- The position an offset stands for, counted from the end where it is negative. -/
def normalizedIndex (offset : Int) (len : Nat) : Option Nat :=
  let normalized := if offset < 0 then len + offset else offset
  if normalized < 0 ∨ (len : Int) ≤ normalized then none else some normalized.toNat

def resolveIndex (index : Value) (len : Nat) : Except RuntimeError (Option Nat) :=
  match asOffset index with
  | .ok offset => .ok (normalizedIndex offset len)
  | .error error => .error error

def itemAt (items : List Value) (position : Option Nat) : Value :=
  (position.bind fun i => items[i]?).getD .null

variable (target : Value)

def readIndex (index : Value) : Result :=
  match target with
  | .tuple values | .list values =>
    match resolveIndex index values.length with
    | .ok position => .ok (itemAt values position)
    | .error error => .error error
  | .string text =>
    match resolveIndex index text.toList.length with
    | .ok position =>
      .ok (itemAt (text.toList.map fun c => .string (String.singleton c)) position)
    | .error error => .error error
  | .record record =>
    match coerceString index with
    | .ok key => .ok ((Record.get record key).getD .null)
    | .error error => .error error
  | .null => .ok .null
  | value => .error (.typeError s!"can't index {valueTypeName value}")

def unwrapToolResult : Value → Result
  | .record record =>
    match Record.get record "ok" with
    | some (.bool true) =>
      match Record.get record "value" with
      | some value => .ok value
      | none => .error (.typeError
          "`?` found a successful tool result wrapper missing `value`")
    | some (.bool false) =>
      let message := ((Record.get record "error").map stringifyValue).getD "unknown error"
      .error (.valueError s!"`?` unwrapped failed tool result: {message}")
    | _ => .error (.typeError "`?` expected a tool result wrapper with boolean `ok`")
  | value => .error (.typeError
      s!"`?` expected a tool result wrapper, got {valueTypeName value}")

/-- The source's `success`. -/
def success : Value := .record [("ok", .bool true), ("value", value)]

def errorValue (message : String) : Value :=
  .record [("ok", .bool false), ("error", .string message)]

/-! ## Writing -/

def resolveExistingListAssignmentIndex (index : Value) (len : Nat) : Except RuntimeError Nat :=
  match index with
  | .number number =>
    if !number.isFinite || !isIntegral number then
      .error (.typeError "list assignment index must be an integer")
    else match normalizedIndex (asI64 number) len with
      | some position => .ok position
      | none => .error (.valueError "list assignment index out of bounds")
  | _ => .error (.typeError "list assignment index must be an integer")

def assignRecordField (field : String) (value : Value) : Result :=
  match target with
  | .record record => .ok (.record (Record.insert record field value))
  | .image _ => .error (.typeError "can't assign image fields; images are immutable")
  | target => .error (.typeError s!"can't assign `.{field}` on {valueTypeName target}")

def assignIndex (index value : Value) : Result :=
  match target with
  | .list values =>
    match resolveExistingListAssignmentIndex index values.length with
    | .ok position => .ok (.list (values.set position value))
    | .error error => .error error
  | .tuple _ => .error (.typeError "can't assign tuple indexes; tuples are immutable")
  | .record record =>
    match coerceString index with
    | .ok key => .ok (.record (Record.insert record key value))
    | .error error => .error error
  | .image _ => .error (.typeError "can't assign image fields; images are immutable")
  | target => .error (.typeError s!"can't assign index on {valueTypeName target}")

inductive CompiledAssignPathStep where
  | field (name : String)
  | index
deriving DecidableEq

/-- The child a path goes through, and the value with that child replaced. -/
structure Child where
  value : Value
  replace : Value → Value

def descendRecordField (field : String) : Except RuntimeError Child :=
  match target with
  | .record record =>
    match Record.get record field with
    | some value => .ok ⟨value, fun value => .record (Record.insert record field value)⟩
    | none => .error (.valueError s!"can't assign through missing field `.{field}`")
  | .image _ => .error (.typeError "can't assign through image fields; images are immutable")
  | target => .error (.typeError s!"can't assign through `.{field}` on {valueTypeName target}")

def descendIndex (index : Value) : Except RuntimeError Child :=
  match target with
  | .list values =>
    match resolveExistingListAssignmentIndex index values.length with
    | .ok position =>
      .ok ⟨itemAt values (some position), fun value => .list (values.set position value)⟩
    | .error error => .error error
  | .tuple _ => .error (.typeError "can't assign through tuple indexes; tuples are immutable")
  | .record record =>
    match coerceString index with
    | .ok key =>
      match Record.get record key with
      | some value => .ok ⟨value, fun value => .record (Record.insert record key value)⟩
      | none => .error (.valueError s!"can't assign through missing key `{key}`")
    | .error error => .error error
  | .image _ => .error (.typeError "can't assign through image fields; images are immutable")
  | target => .error (.typeError s!"can't assign through index on {valueTypeName target}")

/-- The source's `assign_path`: the target with the value at the end of the path. -/
def assignPath (target : Value) (steps : List CompiledAssignPathStep) (indexes : List Value)
    (value : Value) : Result :=
  match steps with
  | [] => .ok value
  | [.field name] => assignRecordField target name value
  | .field name :: rest =>
    match descendRecordField target name with
    | .ok child =>
      match assignPath child.value rest indexes value with
      | .ok inner => .ok (child.replace inner)
      | .error error => .error error
    | .error error => .error error
  | [.index] =>
    match indexes with
    | index :: _ => assignIndex target index value
    | [] => .error (.valueError "missing assignment index")
  | .index :: rest =>
    match indexes with
    | index :: others =>
      match descendIndex target index with
      | .ok child =>
        match assignPath child.value rest others value with
        | .ok inner => .ok (child.replace inner)
        | .error error => .error error
      | .error error => .error error
    | [] => .error (.valueError "missing assignment index")

def addAssignValueNumber (right : Float) : Result :=
  match value with
  | .number left => .ok (.number (left + right))
  | left => addValues left (.number right)

/-- The source's `add_assign_index_number`: the target with the entry increased. -/
def addAssignIndexNumber (index : Value) (right : Float) : Result :=
  match target with
  | .list values =>
    match resolveExistingListAssignmentIndex index values.length with
    | .ok position =>
      match addAssignValueNumber (itemAt values (some position)) right with
      | .ok value => .ok (.list (values.set position value))
      | .error error => .error error
    | .error error => .error error
  | .tuple _ => .error (.typeError "can't assign tuple indexes; tuples are immutable")
  | .record record =>
    match coerceString index with
    | .ok key =>
      match Record.get record key with
      | some value =>
        match addAssignValueNumber value right with
        | .ok value => .ok (.record (Record.insert record key value))
        | .error error => .error error
      | none => .ok (.record (Record.insert record key (.number right)))
    | .error error => .error error
  | .image _ => .error (.typeError "can't assign image fields; images are immutable")
  | target => .error (.typeError s!"can't assign index on {valueTypeName target}")

/-! ## Lists and ranges -/

def executePushBuiltin (list item : Value) : Result :=
  match list with
  | .list items => .ok (.list (items ++ [item]))
  | _ => .error (.typeError "`push` requires a list as the first argument")

def iterableValues : Value → Except RuntimeError (List Value)
  | .list values | .tuple values => .ok values
  | _ => .error .nonListIteration

/-- The bounds of a range, as 64-bit integers. -/
structure RangeBounds where
  start : Int64
  stop : Int64
  step : Int64
deriving DecidableEq

def asRangeBound : Except RuntimeError Int64 :=
  match value with
  | .number number =>
    if !number.isFinite || !isIntegral number || number < ofInt Int64.minValue.toInt ||
        ofInt Int64.maxValue.toInt < number
    then .error (.typeError "`range` bounds must be finite integers")
    else .ok number.toModel.toInt64
  | value => .error (.typeError
      s!"`range` bounds must be finite integers, got {valueTypeName value}")

def maxRangeItems : Int := 1000000

def rangeLen (start stop step : Int) : Int :=
  if (0 < step ∧ stop ≤ start) ∨ (step < 0 ∧ start ≤ stop) then 0
  else
    let distance := if 0 < step then stop - start else start - stop
    (distance + step.natAbs - 1) / step.natAbs

def checkedRange (start stop step : Int64) : Except RuntimeError RangeBounds :=
  if step.toInt = 0 then .error (.valueError "`range` step must not be 0")
  else if maxRangeItems < rangeLen start.toInt stop.toInt step.toInt then
    .error (.valueError s!"`range` would create more than {maxRangeItems} items")
  else .ok ⟨start, stop, step⟩

def rangeBounds (values : List Value) : Except RuntimeError RangeBounds :=
  match values with
  | [stop] =>
    match asRangeBound stop with
    | .ok stop => checkedRange 0 stop 1
    | .error error => .error error
  | [start, stop] =>
    match asRangeBound start, asRangeBound stop with
    | .ok start, .ok stop => checkedRange start stop 1
    | .error error, _ | .ok _, .error error => .error error
  | [start, stop, step] =>
    match asRangeBound start, asRangeBound stop, asRangeBound step with
    | .ok start, .ok stop, .ok step => checkedRange start stop step
    | .error error, _, _ | .ok _, .error error, _ | .ok _, .ok _, .error error => .error error
  | values => .error (.typeError s!"`range` takes 1, 2, or 3 arg(s), got {values.length}")

def saturatingAdd (a b : Int) : Int :=
  max Int64.minValue.toInt (min Int64.maxValue.toInt (a + b))

/-- Whether a cursor over a range has come to its end. -/
def rangeDone (next stop step : Int) : Bool :=
  decide ((0 < step ∧ stop ≤ next) ∨ (step < 0 ∧ next ≤ stop))

def rangeItemsFrom (stop step : Int) : Nat → Int → List Value
  | 0, _ => []
  | fuel + 1, next =>
    if rangeDone next stop step then []
    else .number (ofInt next) :: rangeItemsFrom stop step fuel (saturatingAdd next step)

/-- The items from a position of the cursor on. Every step comes nearer to the end, so their
number is at most the distance. -/
def rangeItems (next stop step : Int) : List Value :=
  rangeItemsFrom stop step (stop - next).natAbs next

def executeRangeBuiltin (values : List Value) : Result :=
  match rangeBounds values with
  | .ok bounds =>
    .ok (.list (rangeItems bounds.start.toInt bounds.stop.toInt bounds.step.toInt))
  | .error error => .error error

/-! ## Types and host descriptors -/

def lashTypeKey : String := "$lash_type"

def lashHostDescriptorTypeKey : String := "$lash_host_descriptor_type"

def lashHostDescriptorValueKey : String := "$lash_host_descriptor_value"

def unwrapTypeValue : Value → Option Value
  | .record record => if record.length = 1 then Record.get record lashTypeKey else none
  | _ => none

def wrapTypeSchemaValue (schema : Value) : Value := .record [(lashTypeKey, schema)]

end ScriptOps
