import Lash.ScriptSyntax

/-!
# What the compiler computes ahead of the run

The compiler keeps a table of the variables whose value it knows, and replaces an
expression whose value follows from the table by that value.
-/

namespace ScriptFolding

open ScriptNumbers ScriptValues ScriptOps ScriptBuiltins ScriptSyntax

/-- The source's `const_slots`, by the names of the slots. -/
abbrev Consts := String → Option Value

def noConsts : Consts := fun _ => none

def setConst (κ : Consts) (name : String) (value : Option Value) : Consts :=
  fun x => if x = name then value else κ x

/-! ## Types -/

def scalarSchema (kind : String) : Value := .record [("type", .string kind)]

def anySchema : Value := .record []

def enumSchema (values : List String) : Value :=
  .record [("type", .string "string"), ("enum", .list (values.map .string))]

def arraySchema (items : Value) : Value := .record [("type", .string "array"), ("items", items)]

def objectSchema (properties : Record) (required : List String) : Value :=
  .record [("type", .string "object"), ("properties", .record properties),
    ("required", .list (required.map .string)), ("additionalProperties", .bool false)]

def unionSchema (variants : List Value) : Value := .record [("anyOf", .list variants)]

def requiredNames (fields : List (TypeField TypeExpr)) : List String :=
  (fields.filter fun field => !field.optional).map TypeField.name

mutual
/-- The source's `fold_type_expr`. Without a table it is `fold_type`. -/
def foldTypeExpr (κ : Consts) : TypeExpr → Option Value
  | .any | .process _ _ _ | .triggerHandle _ => some anySchema
  | .str => some (scalarSchema "string")
  | .int => some (scalarSchema "integer")
  | .float => some (scalarSchema "number")
  | .bool => some (scalarSchema "boolean")
  | .dict => some (scalarSchema "object")
  | .null => some (scalarSchema "null")
  | .enum values => some (enumSchema values)
  | .list item => (foldTypeExpr κ item).map arraySchema
  | .object fields =>
    (foldTypeFields κ fields).map fun properties =>
      objectSchema (Record.ofEntries properties) (requiredNames fields)
  | .union variants => (foldTypeExprs κ variants).map unionSchema
  | .ref name => (κ name).bind unwrapTypeValue
def foldTypeExprs (κ : Consts) : List TypeExpr → Option (List Value)
  | [] => some []
  | ty :: rest => do
      let value ← foldTypeExpr κ ty
      let values ← foldTypeExprs κ rest
      some (value :: values)
def foldTypeFields (κ : Consts) : List (TypeField TypeExpr) → Option (List (String × Value))
  | [] => some []
  | ⟨name, ty, _⟩ :: rest => do
      let value ← foldTypeExpr κ ty
      let values ← foldTypeFields κ rest
      some ((name, value) :: values)
end

/-! ## Expressions -/

def foldBuiltin (name : String) (values : List Value) : Option Value :=
  match intrinsicForBuiltin name values.length with
  | some .len =>
    match values with
    | [value] => (executeLen value).toOption
    | _ => none
  | some (.range _) => (executeRangeBuiltin values).toOption
  | some .ceilDiv => (executeIntegerDiv "ceil_div" ceil values).toOption
  | some .floorDiv => (executeIntegerDiv "floor_div" floor values).toOption
  | some .push =>
    match values with
    | [.list items, item] => some (.list (items ++ [item]))
    | _ => none
  | _ => none

mutual
/-- The source's `fold_compile_time_expr`. -/
def foldCompileTimeExpr (κ : Consts) : Expr → Option Value
  | .labelAnnotated _ e => foldCompileTimeExpr κ e
  | .null => some .null
  | .bool value => some (.bool value)
  | .number value => some (.number value)
  | .string value => some (.string value)
  | .resourceRef resource => some (.resource ⟨resource.resourceType, resource.aliasName⟩)
  | .variable name => κ name
  | .tuple items => (foldAll κ items).map .tuple
  | .list items => (foldAll κ items).map .list
  | .record entries => (foldEntries κ entries).map fun es => .record (Record.ofEntries es)
  | .builtinCall name args => (foldAll κ args).bind (foldBuiltin name)
  | .field target name =>
    (foldCompileTimeExpr κ target).bind fun value => (readField value name).toOption
  | .index target index => do
      let target ← foldCompileTimeExpr κ target
      let index ← foldCompileTimeExpr κ index
      (readIndex target index).toOption
  | .unary op e => (foldCompileTimeExpr κ e).bind fun value => (evalUnary op value).toOption
  | .ifElse condition thenBlock elseBlock => do
      let value ← foldCompileTimeExpr κ condition
      if isTruthy value then foldCompileTimeExpr κ thenBlock
      else foldCompileTimeExpr κ elseBlock
  | .binary left .and right => do
      let value ← foldCompileTimeExpr κ left
      if isTruthy value then
        let value ← foldCompileTimeExpr κ right
        some (.bool (isTruthy value))
      else some (.bool false)
  | .binary left .or right => do
      let value ← foldCompileTimeExpr κ left
      if isTruthy value then some (.bool true)
      else
        let value ← foldCompileTimeExpr κ right
        some (.bool (isTruthy value))
  | .binary left op right => do
      let left ← foldCompileTimeExpr κ left
      let right ← foldCompileTimeExpr κ right
      (evalBinaryValues op left right).toOption
  | .typeLiteral ty => (foldTypeExpr κ ty).map wrapTypeSchemaValue
  | _ => none
def foldAll (κ : Consts) : List Expr → Option (List Value)
  | [] => some []
  | e :: rest => do
      let value ← foldCompileTimeExpr κ e
      let values ← foldAll κ rest
      some (value :: values)
def foldEntries (κ : Consts) : List (String × Expr) → Option (List (String × Value))
  | [] => some []
  | (key, e) :: rest => do
      let value ← foldCompileTimeExpr κ e
      let values ← foldEntries κ rest
      some ((key, value) :: values)
end

end ScriptFolding
