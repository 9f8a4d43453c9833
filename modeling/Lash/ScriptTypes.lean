import Lash.ScriptSyntax

/-!
# Types of the script language

How a type is written, when a value of one may stand where another is expected, and the
types that operators, builtins and literals have.
-/

namespace ScriptTypes

open ScriptOps ScriptSyntax

/-! ## How a type is written -/

mutual
/-- The source's `format_type_expr`. -/
def formatTypeExpr : TypeExpr → String
  | .any => "any"
  | .str => "str"
  | .int => "int"
  | .float => "float"
  | .bool => "bool"
  | .dict => "dict"
  | .null => "null"
  | .enum values =>
    "enum[" ++ ", ".intercalate (values.map fun value => "\"" ++ value ++ "\"") ++ "]"
  | .list item => "list[" ++ formatTypeExpr item ++ "]"
  | .object fields => "\x7b " ++ ", ".intercalate (formatFields fields) ++ " \x7d"
  | .ref name => name
  | .process input output _ =>
    "Process<" ++ formatTypeExpr input ++ ", " ++ formatTypeExpr output ++ ">"
  | .triggerHandle event => "TriggerHandle<" ++ formatTypeExpr event ++ ">"
  | .union variants => " | ".intercalate (formatTypes variants)
def formatTypes : List TypeExpr → List String
  | [] => []
  | ty :: rest => formatTypeExpr ty :: formatTypes rest
def formatFields : List (TypeField TypeExpr) → List String
  | [] => []
  | ⟨name, ty, optional⟩ :: rest =>
    (name ++ ": " ++ formatTypeExpr ty ++ if optional then "?" else "") :: formatFields rest
end

/-! ## Where one type may stand for another -/

/-- Whether the target is met as a whole, or one of its variants is where it is a union. -/
def meetsVariant (met : TypeExpr → Bool) : TypeExpr → Bool
  | .any => true
  | .union variants => met (.union variants) || meetsOne variants
  | target => met target
where
  meetsOne : List TypeExpr → Bool
    | [] => false
    | variant :: rest => meetsVariant met variant || meetsOne rest

mutual
/-- The source's `is_resolved_type_assignable`. -/
def isResolvedTypeAssignable : TypeExpr → TypeExpr → Bool
  | .any, target => target.same .any
  | .union sources, target =>
    target.same .any || (TypeExpr.union sources).same target || allAssignable sources target
  | .str, target => meetsVariant (fun t => TypeExpr.str.same t) target
  | .int, target =>
    meetsVariant (fun t => TypeExpr.int.same t || match t with
      | .float => true
      | _ => false) target
  | .float, target => meetsVariant (fun t => TypeExpr.float.same t) target
  | .bool, target => meetsVariant (fun t => TypeExpr.bool.same t) target
  | .dict, target => meetsVariant (fun t => TypeExpr.dict.same t) target
  | .null, target => meetsVariant (fun t => TypeExpr.null.same t) target
  | .enum sources, target =>
    meetsVariant (fun t => (TypeExpr.enum sources).same t || match t with
      | .str => true
      | .enum targets => sources.all targets.contains
      | _ => false) target
  | .list source, target =>
    meetsVariant (fun t => (TypeExpr.list source).same t || match t with
      | .list item => isResolvedTypeAssignable source item
      | _ => false) target
  | .object source, target =>
    meetsVariant (fun t => (TypeExpr.object source).same t || match t with
      | .dict => true
      | .object fields => fields.all fun field => fieldAssignable source field
      | _ => false) target
  | .ref source, target => meetsVariant (fun t => (TypeExpr.ref source).same t) target
  | .process input output count, target =>
    meetsVariant (fun t => (TypeExpr.process input output count).same t || match t with
      | .process targetInput targetOutput targetCount =>
        count == targetCount && isResolvedTypeAssignable input targetInput
          && isResolvedTypeAssignable output targetOutput
      | _ => false) target
  | .triggerHandle source, target =>
    meetsVariant (fun t => (TypeExpr.triggerHandle source).same t || match t with
      | .triggerHandle event => isResolvedTypeAssignable source event
      | _ => false) target
def allAssignable : List TypeExpr → TypeExpr → Bool
  | [], _ => true
  | source :: rest, target =>
    isResolvedTypeAssignable source target && allAssignable rest target
/-- The first field of the name decides. -/
def fieldAssignable : List (TypeField TypeExpr) → TypeField TypeExpr → Bool
  | [], target => target.optional
  | ⟨name, ty, optional⟩ :: rest, target =>
    if name == target.name then
      (target.optional || !optional) && isResolvedTypeAssignable ty target.ty
    else fieldAssignable rest target
end

/-! ## Types put together -/

def flattenUnions : List TypeExpr → List TypeExpr
  | [] => []
  | .union variants :: rest => variants ++ flattenUnions rest
  | ty :: rest => ty :: flattenUnions rest

/-- Each type once, where it first stands. -/
def distinctTypes (types : List TypeExpr) : List TypeExpr :=
  types.foldl (fun unique ty => if unique.any (·.same ty) then unique else unique ++ [ty]) []

def unionType (types : List TypeExpr) : TypeExpr :=
  match distinctTypes (flattenUnions types) with
  | [] => .null
  | [ty] => ty
  | unique => .union unique

def callInputType : List TypeExpr → TypeExpr
  | [] => .null
  | [ty] => ty
  | types => .list (unionType types)

/-! ## Types of literals, builtins and operators -/

def literalType : Expr → TypeExpr
  | .null => .null
  | .bool _ => .bool
  | .number _ => .float
  | .string _ => .str
  | .typeLiteral _ => .any
  | .breakLoop | .continueLoop => .null
  | .labelAnnotated _ e => literalType e
  | _ => .any

def builtinReturnType (name : String) : TypeExpr :=
  if name ∈ ["len", "find", "to_int", "ceil_div", "floor_div"] then .int
  else if name ∈ ["empty", "contains", "starts_with", "ends_with"] then .bool
  else if name = "to_float" then .float
  else if name ∈ ["to_string", "trim", "join"] then .str
  else if name ∈ ["keys", "values", "split", "grep_text", "range", "push"] then .list .any
  else .any

def unaryReturnType : UnaryOp → TypeExpr
  | .not => .bool
  | .negate => .float

def binaryReturnType : BinaryOp → TypeExpr
  | .equal | .notEqual | .less | .lessEqual | .greater | .greaterEqual | .and | .or => .bool
  | .add | .subtract | .multiply | .divide | .modulo => .float

example : formatTypeExpr (.list (.union [.int, .null])) = "list[int | null]" := by decide

end ScriptTypes
