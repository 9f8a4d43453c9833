import Lash.ScriptExpressions

/-!
# The schema of a type

The shape of a schema is written twice: as a value, where the compiler knows what the names in
the type denote, and as instructions, where the run has to look them up. Where each name holds a
type, both give the schema that the type denotes, however many of the names are known.
-/

namespace TypeSchemas

open ScriptValues ScriptOps ScriptSyntax ScriptFolding ScriptCompiler ScriptMachine List
open ScriptEvaluation ScriptConstants ScriptOperands ScriptExpressions

/-! ## Folding, as the compiler writes it -/

mutual
/-- The source's `fold_type`. -/
def foldType : TypeExpr → Option Value
  | .any => some anySchema
  | .str => some (scalarSchema "string")
  | .int => some (scalarSchema "integer")
  | .float => some (scalarSchema "number")
  | .bool => some (scalarSchema "boolean")
  | .dict => some (scalarSchema "object")
  | .null => some (scalarSchema "null")
  | .enum values => some (enumSchema values)
  | .list item => (foldType item).map arraySchema
  | .object fields =>
    (foldFields fields).map fun properties =>
      objectSchema (Record.ofEntries properties) (requiredNames fields)
  | .union variants => (foldTypes variants).map unionSchema
  | .process _ _ _ | .triggerHandle _ => some anySchema
  | .ref _ => none
def foldTypes : List TypeExpr → Option (List Value)
  | [] => some []
  | ty :: rest => do
      let value ← foldType ty
      let values ← foldTypes rest
      some (value :: values)
def foldFields : List (TypeField TypeExpr) → Option (List (String × Value))
  | [] => some []
  | ⟨name, ty, _⟩ :: rest => do
      let value ← foldType ty
      let values ← foldFields rest
      some ((name, value) :: values)
end

mutual
/-- The source's `fold_type_expr_inner`, with the names that are being resolved. -/
def foldTypeExprInner (κ : Consts) (resolving : List String) : TypeExpr → Option Value
  | .ref name =>
    if resolving.contains name then none
    -- the name is on the list only while its wrapper is opened, which reads no other name
    else (κ name).bind unwrapTypeValue
  | .list item => (foldTypeExprInner κ resolving item).map arraySchema
  | .object fields =>
    (foldFieldsInner κ resolving fields).map fun properties =>
      objectSchema (Record.ofEntries properties) (requiredNames fields)
  | .union variants => (foldTypesInner κ resolving variants).map unionSchema
  | ty => foldType ty
def foldTypesInner (κ : Consts) (resolving : List String) : List TypeExpr → Option (List Value)
  | [] => some []
  | ty :: rest => do
      let value ← foldTypeExprInner κ resolving ty
      let values ← foldTypesInner κ resolving rest
      some (value :: values)
def foldFieldsInner (κ : Consts) (resolving : List String) :
    List (TypeField TypeExpr) → Option (List (String × Value))
  | [] => some []
  | ⟨name, ty, _⟩ :: rest => do
      let value ← foldTypeExprInner κ resolving ty
      let values ← foldFieldsInner κ resolving rest
      some ((name, value) :: values)
end

mutual
theorem foldType_eq : ∀ ty, foldType ty = foldTypeExpr noConsts ty
  | .any | .str | .int | .float | .bool | .dict | .null | .enum _ | .process _ _ _
  | .triggerHandle _ | .ref _ => rfl
  | .list item => by rw [foldType, foldTypeExpr, foldType_eq item]
  | .object fields => by rw [foldType, foldTypeExpr, foldFields_eq fields]
  | .union variants => by rw [foldType, foldTypeExpr, foldTypes_eq variants]
theorem foldTypes_eq : ∀ tys, foldTypes tys = foldTypeExprs noConsts tys
  | [] => rfl
  | ty :: rest => by rw [foldTypes, foldTypeExprs, foldType_eq ty, foldTypes_eq rest]
theorem foldFields_eq : ∀ fields, foldFields fields = foldTypeFields noConsts fields
  | [] => rfl
  | ⟨_, ty, _⟩ :: rest => by rw [foldFields, foldTypeFields, foldType_eq ty, foldFields_eq rest]
end

mutual
/-- A type that refers to itself is no special case: no name is being resolved where the next
one is looked up. -/
theorem foldTypeExprInner_eq (κ : Consts) : ∀ ty, foldTypeExprInner κ [] ty = foldTypeExpr κ ty
  | .any | .str | .int | .float | .bool | .dict | .null | .enum _ | .process _ _ _
  | .triggerHandle _ | .ref _ => rfl
  | .list item => by rw [foldTypeExprInner, foldTypeExpr, foldTypeExprInner_eq κ item]
  | .object fields => by rw [foldTypeExprInner, foldTypeExpr, foldFieldsInner_eq κ fields]
  | .union variants => by rw [foldTypeExprInner, foldTypeExpr, foldTypesInner_eq κ variants]
theorem foldTypesInner_eq (κ : Consts) : ∀ tys, foldTypesInner κ [] tys = foldTypeExprs κ tys
  | [] => rfl
  | ty :: rest => by
      rw [foldTypesInner, foldTypeExprs, foldTypeExprInner_eq κ ty, foldTypesInner_eq κ rest]
theorem foldFieldsInner_eq (κ : Consts) :
    ∀ fields, foldFieldsInner κ [] fields = foldTypeFields κ fields
  | [] => rfl
  | ⟨_, ty, _⟩ :: rest => by
      rw [foldFieldsInner, foldTypeFields, foldTypeExprInner_eq κ ty, foldFieldsInner_eq κ rest]
end

/-! ## What a type denotes -/

mutual
/-- The names that are looked up for the schema of a type. -/
def refNames : TypeExpr → List String
  | .ref name => [name]
  | .list item => refNames item
  | .object fields => refNamesFields fields
  | .union variants => refNamesAll variants
  | _ => []
def refNamesAll : List TypeExpr → List String
  | [] => []
  | ty :: rest => refNames ty ++ refNamesAll rest
def refNamesFields : List (TypeField TypeExpr) → List String
  | [] => []
  | ⟨_, ty, _⟩ :: rest => refNames ty ++ refNamesFields rest
end

mutual
/-- The schema that a type denotes, where every name denotes one. -/
def schemaOf (types : String → Value) : TypeExpr → Value
  | .any | .process _ _ _ | .triggerHandle _ => anySchema
  | .str => scalarSchema "string"
  | .int => scalarSchema "integer"
  | .float => scalarSchema "number"
  | .bool => scalarSchema "boolean"
  | .dict => scalarSchema "object"
  | .null => scalarSchema "null"
  | .enum values => enumSchema values
  | .list item => arraySchema (schemaOf types item)
  | .object fields =>
    objectSchema (Record.ofEntries (propertiesOf types fields)) (requiredNames fields)
  | .union variants => unionSchema (schemasOf types variants)
  | .ref name => types name
def schemasOf (types : String → Value) : List TypeExpr → List Value
  | [] => []
  | ty :: rest => schemaOf types ty :: schemasOf types rest
def propertiesOf (types : String → Value) : List (TypeField TypeExpr) → List (String × Value)
  | [] => []
  | ⟨name, ty, _⟩ :: rest => (name, schemaOf types ty) :: propertiesOf types rest
end

/-- These names hold types, and the others what they hold. -/
def assign (types : String → Value) (others : Slots) (names : List String) : Slots :=
  fun name => if name ∈ names then some (wrapTypeSchemaValue (types name)) else others name

variable {types : String → Value} {slots : Slots} {κ : Consts}

mutual
/-- The run finds what the type denotes. -/
theorem evalType_eq : ∀ ty, (∀ name ∈ refNames ty, typeSlot slots name = .ok (types name)) →
    evalType slots ty = .ok (schemaOf types ty)
  | .any, _ | .str, _ | .int, _ | .float, _ | .bool, _ | .dict, _ | .null, _ | .enum _, _
  | .process _ _ _, _ | .triggerHandle _, _ => rfl
  | .ref name, known => known name (List.mem_singleton_self name)
  | .list item, known => by rw [evalType, evalType_eq item known]; rfl
  | .object fields, known => by rw [evalType, evalTypeFields_eq fields known]; rfl
  | .union variants, known => by rw [evalType, evalTypes_eq variants known]; rfl
theorem evalTypes_eq : ∀ tys, (∀ name ∈ refNamesAll tys, typeSlot slots name = .ok (types name)) →
    evalTypes slots tys = .ok (schemasOf types tys)
  | [], _ => rfl
  | ty :: rest, known => by
      rw [evalTypes, evalType_eq ty fun name h => known name (mem_append_left _ h),
        evalTypes_eq rest fun name h => known name (mem_append_right _ h)]
      rfl
theorem evalTypeFields_eq : ∀ fields,
    (∀ name ∈ refNamesFields fields, typeSlot slots name = .ok (types name)) →
    evalTypeFields slots fields = .ok (propertiesOf types fields)
  | [], _ => rfl
  | ⟨_, ty, _⟩ :: rest, known => by
      rw [evalTypeFields, evalType_eq ty fun name h => known name (mem_append_left _ h),
        evalTypeFields_eq rest fun name h => known name (mem_append_right _ h)]
      rfl
end

mutual
/-- The compiler finds what the type denotes, where it knows every name. -/
theorem foldTypeExpr_eq : ∀ ty,
    (∀ name ∈ refNames ty, (κ name).bind unwrapTypeValue = some (types name)) →
    foldTypeExpr κ ty = some (schemaOf types ty)
  | .any, _ | .str, _ | .int, _ | .float, _ | .bool, _ | .dict, _ | .null, _ | .enum _, _
  | .process _ _ _, _ | .triggerHandle _, _ => rfl
  | .ref name, known => known name (List.mem_singleton_self name)
  | .list item, known => by rw [foldTypeExpr, foldTypeExpr_eq item known]; rfl
  | .object fields, known => by rw [foldTypeExpr, foldTypeFields_eq fields known]; rfl
  | .union variants, known => by rw [foldTypeExpr, foldTypeExprs_eq variants known]; rfl
theorem foldTypeExprs_eq : ∀ tys,
    (∀ name ∈ refNamesAll tys, (κ name).bind unwrapTypeValue = some (types name)) →
    foldTypeExprs κ tys = some (schemasOf types tys)
  | [], _ => rfl
  | ty :: rest, known => by
      rw [foldTypeExprs, foldTypeExpr_eq ty fun name h => known name (mem_append_left _ h),
        foldTypeExprs_eq rest fun name h => known name (mem_append_right _ h)]
      rfl
theorem foldTypeFields_eq : ∀ fields,
    (∀ name ∈ refNamesFields fields, (κ name).bind unwrapTypeValue = some (types name)) →
    foldTypeFields κ fields = some (propertiesOf types fields)
  | [], _ => rfl
  | ⟨_, ty, _⟩ :: rest, known => by
      rw [foldTypeFields, foldTypeExpr_eq ty fun name h => known name (mem_append_left _ h),
        foldTypeFields_eq rest fun name h => known name (mem_append_right _ h)]
      rfl
end

/-! ## The same schema -/

/-- Every way to the schema of a type comes to this one, where the slots hold what the compiler
knows. -/
structure Denotes (slots : Slots) (ty : TypeExpr) (schema : Value) : Prop where
  /-- What is folded is this schema, -/
  folds : ∀ κ found, Holds κ slots → foldTypeExprInner κ [] ty = some found → found = schema
  /-- and it is folded where all names are known. -/
  knows : ∀ κ, Holds κ slots → (∀ name ∈ refNames ty, ∃ value, κ name = some value) →
    foldTypeExprInner κ [] ty = some schema
  /-- Without names it is folded without a table. -/
  plain : refNames ty = [] → foldType ty = some schema
  /-- The instructions leave the schema on the stack, whatever the compiler knows. -/
  emits : ∀ env κ a, Holds κ slots →
    Computes env slots a (compileTypeExpr κ ty) [] (pure schema) ([·])
  literal : ∀ env cx κ a, Agrees cx κ slots →
    Computes env slots a (compileTypeLiteral cx κ ty) [] (pure (wrapTypeSchemaValue schema)) ([·])
  /-- A value is validated by the schema, be it given by the literal or by a name for it. -/
  validates : ∀ env cx κ a r value expr, Agrees cx κ slots → isOperand value = true →
    expr = .typeLiteral ty ∨
      (∃ name, expr = .variable name ∧ slots name = some (wrapTypeSchemaValue schema)) →
    Computes env slots a
      (compileExpr cx r .value (.builtinCall "validate" [value, expr]) a κ).code []
      (evalOperand env (ScriptOperands.plain cx) slots value >>= fun value =>
        compute (env.builtins.executeValidationPlan schema value)) ([·])

theorem evalOperand_validate {env : Environment} {cx : CompileContext} {value expr : Expr}
    {schema : Value} (hexpr : evalOperand env cx slots expr = pure (wrapTypeSchemaValue schema)) :
    evalOperand env cx slots (.builtinCall "validate" [value, expr]) =
      evalOperand env cx slots value >>= fun value =>
        compute (env.builtins.executeValidationPlan schema value) := by
  rw [evalOperand, hexpr]
  rfl

/-- Where each name that a type refers to holds a type, the type denotes one schema: folding
gives it, the instructions give it, and `validate` asks about it. How many of the names the
compiler knows plays no part. -/
theorem known_types_change_no_schema (types : String → Value) (others : Slots) (ty : TypeExpr) :
    Denotes (assign types others (refNames ty)) ty (schemaOf types ty) := by
  have hslot : ∀ name ∈ refNames ty, assign types others (refNames ty) name =
      some (wrapTypeSchemaValue (types name)) := fun name h => if_pos h
  have heval : evalType (assign types others (refNames ty)) ty = .ok (schemaOf types ty) :=
    evalType_eq ty fun name h => by rw [typeSlot, hslot name h]; rfl
  refine ⟨fun κ found holds hfound => ?_, fun κ holds hknown => ?_, fun hnone => ?_,
    fun env κ a holds => ?_, fun env cx κ a agrees => ?_,
    fun env cx κ a r value expr agrees hvalue hexpr => ?_⟩
  · rw [foldTypeExprInner_eq] at hfound
    exact Except.ok.inj ((evalType_of_fold holds ty hfound).symm.trans heval)
  · rw [foldTypeExprInner_eq]
    refine foldTypeExpr_eq ty fun name h => ?_
    obtain ⟨value, hvalue⟩ := hknown name h
    obtain rfl := Option.some.inj ((holds name value hvalue).symm.trans (hslot name h))
    rw [hvalue]
    rfl
  · rw [foldType_eq]
    exact foldTypeExpr_eq ty fun name h => absurd (hnone ▸ h) not_mem_nil
  · have hcode : Computes env _ a (compileTypeExpr κ ty) [] _ _ := computes_typeExpr holds ty a
    rw [heval] at hcode
    exact hcode
  · have hcode : Computes env _ a (compileTypeLiteral cx κ ty) [] _ _ :=
      (sound_typeLiteral agrees ty).computes
    rw [heval] at hcode
    exact hcode
  · rw [← @evalOperand_validate _ env _ value expr]
    · have hoperand : isOperand (.builtinCall "validate" [value, expr]) = true := by
        rcases hexpr with rfl | ⟨name, rfl, _⟩ <;> simp [isOperand, allOperands, hvalue]
      exact (sound_operand _ hoperand r agrees a).computes
    · rcases hexpr with rfl | ⟨name, rfl, hname⟩
      · rw [evalOperand, heval]
        rfl
      · rw [evalOperand, loadSlot, hname]

end TypeSchemas
