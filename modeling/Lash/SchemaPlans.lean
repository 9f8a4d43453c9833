import Lash.ScriptFolding
import Mathlib.Data.List.Nodup

/-!
# Checking a value against a schema

A schema is a value that is compiled into a plan before a value is checked. The plan of an
object asks for the fields it knows and passes over the others, whatever the schema says
about them.
-/

namespace SchemaPlans

open ScriptNumbers ScriptValues ScriptOps ScriptSyntax ScriptFolding List

inductive PrimitiveMask where
  | string | number | integer | boolean | array | object | null
deriving DecidableEq

structure ValidationFieldPlan (Plan : Type) where
  name : String
  required : Bool
  plan : Plan

inductive ValidationPlan where
  | any
  | primitive (mask : PrimitiveMask)
  | enum (allowed : List String)
  | list (item : ValidationPlan)
  | object (fields : List (ValidationFieldPlan ValidationPlan))
  | union (variants : List ValidationPlan)

namespace PrimitiveMask

def fromSchemaName : String → Option PrimitiveMask
  | "string" => some string
  | "number" => some number
  | "integer" => some integer
  | "boolean" => some boolean
  | "array" => some array
  | "object" => some object
  | "null" => some null
  | _ => none

/-- The masks that a value has. -/
def ofValue : Value → List PrimitiveMask
  | .string _ => [string]
  | .number n =>
    if n.isFinite then if isIntegral n then [number, integer] else [number] else []
  | .bool _ => [boolean]
  | .tuple _ | .list _ => [array]
  | .record _ | .image _ | .resource _ => [object]
  | .null => [null]

/-- The source's `matches`. -/
def accepts (mask : PrimitiveMask) (value : Value) : Bool := (ofValue value).contains mask

end PrimitiveMask

/-! ## Compiling a schema -/

def textsOf (values : List Value) : List String :=
  values.filterMap fun value => match value with
    | .string text => some text
    | _ => none

def schemaType (schema : Record) : Option PrimitiveMask :=
  match Record.get schema "type" with
  | some (.string expected) => PrimitiveMask.fromSchemaName expected
  | _ => none

def requiredOf (schema : Record) : List String :=
  match Record.get schema "required" with
  | some (.list required) => textsOf required
  | _ => []

/-- The names that are required without being described take any value. -/
def addRequired (fields : List (ValidationFieldPlan ValidationPlan)) :
    List String → List (ValidationFieldPlan ValidationPlan)
  | [] => fields
  | name :: rest =>
    addRequired
      (if fields.any (·.name == name) then fields else fields ++ [⟨name, true, .any⟩]) rest

mutual
def compileSchemaValue : Value → ValidationPlan
  | .record schema =>
    match compileVariants schema, Record.get schema "enum" with
    | some variants, _ => .union variants
    | none, some (.list allowed) => .enum (textsOf allowed)
    | none, _ =>
      match schemaType schema with
      | some .array => .list (compileItems schema)
      | some .object =>
        .object (addRequired (compileProperties (requiredOf schema) schema)
          (requiredOf schema))
      | some mask => .primitive mask
      | none => .any
  | _ => .any
/-- The plans under `anyOf`, where it is a list. -/
def compileVariants : List (String × Value) → Option (List ValidationPlan)
  | [] => none
  | (key, value) :: rest =>
    if key = "anyOf" then
      match value with
      | .list variants => some (compileAll variants)
      | _ => none
    else compileVariants rest
/-- The plan under `items`. -/
def compileItems : List (String × Value) → ValidationPlan
  | [] => .any
  | (key, value) :: rest => if key = "items" then compileSchemaValue value else compileItems rest
/-- The fields under `properties`. -/
def compileProperties (required : List String) :
    List (String × Value) → List (ValidationFieldPlan ValidationPlan)
  | [] => []
  | (key, value) :: rest =>
    if key = "properties" then
      match value with
      | .record properties => compileFields required properties
      | _ => []
    else compileProperties required rest
def compileAll : List Value → List ValidationPlan
  | [] => []
  | value :: rest => compileSchemaValue value :: compileAll rest
def compileFields (required : List String) :
    List (String × Value) → List (ValidationFieldPlan ValidationPlan)
  | [] => []
  | (name, value) :: rest =>
    ⟨name, required.contains name, compileSchemaValue value⟩ :: compileFields required rest
end

/-! ## Checking a value -/

def imageFieldValue (image : ImageValue) (field : String) : Option Value :=
  if field = "type" then some (.string "image")
  else if field ∈ ["id", "label", "size", "width", "height"] then some (imageField image field)
  else none

/-- The fields that an object plan looks at, of a record or an image. -/
def fieldsOf : Value → Option (String → Option Value)
  | .record record => some (Record.get record)
  | .image image => some (imageFieldValue image)
  | _ => none

def itemsOf : Value → Option (List Value)
  | .tuple items | .list items => some items
  | _ => none

mutual
def ValidationPlan.accepts : ValidationPlan → Value → Bool
  | .any, _ => true
  | .primitive mask, value => mask.accepts value
  | .enum allowed, value =>
    match value with
    | .string text => allowed.contains text
    | _ => false
  | .list item, value => (itemsOf value).any fun items => items.all fun value => item.accepts value
  | .object fields, value => (fieldsOf value).any fun lookup => acceptsFields fields lookup
  | .union variants, value => acceptsOne variants value
def acceptsFields : List (ValidationFieldPlan ValidationPlan) → (String → Option Value) → Bool
  | [], _ => true
  | ⟨name, required, plan⟩ :: rest, lookup =>
    (match lookup name with
      | none => !required
      | some value => plan.accepts value) && acceptsFields rest lookup
def acceptsOne : List ValidationPlan → Value → Bool
  | [], _ => false
  | plan :: rest, value => plan.accepts value || acceptsOne rest value
end

/-- The value is accepted by the schema of the type, where it has one. -/
def AcceptedBy (ty : TypeExpr) (value : Value) : Prop :=
  ∃ schema, foldTypeExpr noConsts ty = some schema ∧
    (compileSchemaValue schema).accepts value = true

/-! ## The plan of a type -/

mutual
/-- No reference stands anywhere in the type. -/
def Resolved : TypeExpr → Prop
  | .ref _ => False
  | .list item | .triggerHandle item => Resolved item
  | .object fields => ResolvedFields fields
  | .union variants => ResolvedAll variants
  | .process input output _ => Resolved input ∧ Resolved output
  | _ => True
def ResolvedAll : List TypeExpr → Prop
  | [] => True
  | ty :: rest => Resolved ty ∧ ResolvedAll rest
def ResolvedFields : List (TypeField TypeExpr) → Prop
  | [] => True
  | ⟨_, ty, _⟩ :: rest => Resolved ty ∧ ResolvedFields rest
end

mutual
/-- No object of the type names a field twice, as the parser makes sure. -/
def Distinct : TypeExpr → Prop
  | .list item | .triggerHandle item => Distinct item
  | .object fields => (fields.map TypeField.name).Nodup ∧ DistinctFields fields
  | .union variants => DistinctAll variants
  | .process input output _ => Distinct input ∧ Distinct output
  | _ => True
def DistinctAll : List TypeExpr → Prop
  | [] => True
  | ty :: rest => Distinct ty ∧ DistinctAll rest
def DistinctFields : List (TypeField TypeExpr) → Prop
  | [] => True
  | ⟨_, ty, _⟩ :: rest => Distinct ty ∧ DistinctFields rest
end

mutual
/-- The plan that a type is checked by. -/
def planOf : TypeExpr → ValidationPlan
  | .str => .primitive .string
  | .int => .primitive .integer
  | .float => .primitive .number
  | .bool => .primitive .boolean
  | .null => .primitive .null
  | .dict => .object []
  | .enum values => .enum values
  | .list item => .list (planOf item)
  | .object fields => .object (planFields fields)
  | .union variants => .union (planAll variants)
  | .any | .ref _ | .process _ _ _ | .triggerHandle _ => .any
def planAll : List TypeExpr → List ValidationPlan
  | [] => []
  | ty :: rest => planOf ty :: planAll rest
def planFields : List (TypeField TypeExpr) → List (ValidationFieldPlan ValidationPlan)
  | [] => []
  | ⟨name, ty, optional⟩ :: rest => ⟨name, !optional, planOf ty⟩ :: planFields rest
end

theorem insert_new {record : Record} {name : String} (value : Value)
    (new : name ∉ record.map Prod.fst) : record.insert name value = record ++ [(name, value)] := by
  induction record with
  | nil => rfl
  | cons entry rest ih =>
    obtain ⟨key, old⟩ := entry
    obtain ⟨hkey, hrest⟩ := not_or.mp (mt mem_cons.mpr new)
    rw [Record.insert, if_neg fun h => hkey h.symm, ih hrest, cons_append]

theorem ofEntries_distinct {entries : List (String × Value)}
    (distinct : (entries.map Prod.fst).Nodup) : Record.ofEntries entries = entries := by
  have hfold : ∀ (rest record : List (String × Value)), ((record ++ rest).map Prod.fst).Nodup →
      rest.foldl (fun record entry => Record.insert record entry.1 entry.2) record =
        record ++ rest := by
    intro rest
    induction rest with
    | nil => exact fun record _ => (append_nil record).symm
    | cons entry rest ih =>
      intro record hdistinct
      obtain ⟨name, value⟩ := entry
      have hnew : name ∉ record.map Prod.fst := by
        rw [map_append, map_cons, nodup_append] at hdistinct
        exact fun hmem => hdistinct.2.2 name hmem name mem_cons_self rfl
      rw [foldl_cons, insert_new value hnew, ih _ (by simpa using hdistinct)]
      simp
  exact hfold entries [] distinct

theorem addRequired_known {fields : List (ValidationFieldPlan ValidationPlan)} :
    ∀ {names : List String}, (∀ name ∈ names, fields.any (·.name == name) = true) →
      addRequired fields names = fields := by
  intro names
  induction names with
  | nil => exact fun _ => rfl
  | cons name rest ih =>
    intro known
    rw [addRequired, if_pos (known name mem_cons_self)]
    exact ih fun other hother => known other (mem_cons_of_mem _ hother)

theorem planFields_names (fields : List (TypeField TypeExpr)) :
    (planFields fields).map ValidationFieldPlan.name = fields.map TypeField.name := by
  induction fields with
  | nil => rfl
  | cons field rest ih =>
    obtain ⟨name, ty, optional⟩ := field
    simp only [planFields, map_cons, ih]

theorem textsOf_strings (texts : List String) : textsOf (texts.map Value.string) = texts := by
  induction texts with
  | nil => rfl
  | cons text rest ih =>
    rw [map_cons, textsOf, filterMap_cons]
    exact congrArg (text :: ·) ih

/-- A field is required when it is not optional, names being distinct. -/
theorem required_iff {fields : List (TypeField TypeExpr)}
    (distinct : (fields.map TypeField.name).Nodup) {field : TypeField TypeExpr}
    (mem : field ∈ fields) : (requiredNames fields).contains field.name = !field.optional := by
  rw [Bool.eq_iff_iff, contains_iff_mem, requiredNames, mem_map]
  constructor
  · rintro ⟨other, hother, hname⟩
    obtain ⟨hmem, hrequired⟩ := mem_filter.mp hother
    obtain rfl := inj_on_of_nodup_map distinct hmem mem hname
    exact hrequired
  · intro hrequired
    exact ⟨field, mem_filter.mpr ⟨mem, hrequired⟩, rfl⟩

mutual
/-- The schema of a type compiles to its plan. -/
theorem compile_fold : ∀ ty : TypeExpr, Resolved ty → Distinct ty →
    ∃ schema, foldTypeExpr noConsts ty = some schema ∧ compileSchemaValue schema = planOf ty
  | .any, _, _ | .str, _, _ | .int, _, _ | .float, _, _ | .bool, _, _ | .dict, _, _
  | .null, _, _ | .process _ _ _, _, _ | .triggerHandle _, _, _ => ⟨_, rfl, rfl⟩
  | .enum values, _, _ => ⟨enumSchema values, rfl, congrArg _ (textsOf_strings values)⟩
  | .ref _, resolved, _ => resolved.elim
  | .list item, resolved, distinct => by
      obtain ⟨schema, hfold, hcompile⟩ := compile_fold item resolved distinct
      exact ⟨arraySchema schema, by rw [foldTypeExpr, hfold]; rfl, congrArg _ hcompile⟩
  | .object fields, resolved, distinct => by
      obtain ⟨entries, hfold, hnames, hcompile⟩ := compile_foldFields fields resolved distinct.2
      refine ⟨objectSchema entries (requiredNames fields), ?_, ?_⟩
      · rw [foldTypeExpr, hfold, Option.map_some, ofEntries_distinct (hnames ▸ distinct.1)]
      · have hrequired : requiredOf [("type", .string "object"), ("properties", .record entries),
            ("required", .list ((requiredNames fields).map .string)),
            ("additionalProperties", .bool false)] = requiredNames fields :=
          textsOf_strings _
        have hplan := hcompile (requiredNames fields) fun field hmem =>
          required_iff distinct.1 hmem
        change ValidationPlan.object (addRequired (compileFields (requiredOf _) entries)
          (requiredOf _)) = _
        rw [hrequired, hplan, addRequired_known]
        · rfl
        · intro name hname
          obtain ⟨field, hfield, rfl⟩ := mem_map.mp hname
          have hthere : field.name ∈ (planFields fields).map ValidationFieldPlan.name := by
            rw [planFields_names]
            exact mem_map_of_mem (mem_of_mem_filter hfield)
          obtain ⟨plan, hplan', hname'⟩ := mem_map.mp hthere
          exact any_eq_true.mpr ⟨plan, hplan', by rw [hname', beq_self_eq_true]⟩
  | .union variants, resolved, distinct => by
      obtain ⟨schemas, hfold, hcompile⟩ := compile_foldAll variants resolved distinct
      exact ⟨unionSchema schemas, by rw [foldTypeExpr, hfold]; rfl, congrArg _ hcompile⟩
theorem compile_foldAll : ∀ types : List TypeExpr, ResolvedAll types → DistinctAll types →
    ∃ schemas, foldTypeExprs noConsts types = some schemas ∧ compileAll schemas = planAll types
  | [], _, _ => ⟨[], rfl, rfl⟩
  | ty :: rest, resolved, distinct => by
      obtain ⟨schema, hfold, hcompile⟩ := compile_fold ty resolved.1 distinct.1
      obtain ⟨schemas, hfolds, hcompiles⟩ := compile_foldAll rest resolved.2 distinct.2
      refine ⟨schema :: schemas, by rw [foldTypeExprs, hfold, hfolds]; rfl, ?_⟩
      rw [compileAll, planAll, hcompile, hcompiles]
theorem compile_foldFields : ∀ fields : List (TypeField TypeExpr), ResolvedFields fields →
    DistinctFields fields → ∃ entries, foldTypeFields noConsts fields = some entries ∧
      entries.map Prod.fst = fields.map TypeField.name ∧
      ∀ required : List String, (∀ field ∈ fields, required.contains field.name = !field.optional) →
        compileFields required entries = planFields fields
  | [], _, _ => ⟨[], rfl, rfl, fun _ _ => rfl⟩
  | ⟨name, ty, optional⟩ :: rest, resolved, distinct => by
      obtain ⟨schema, hfold, hcompile⟩ := compile_fold ty resolved.1 distinct.1
      obtain ⟨entries, hfolds, hnames, hcompiles⟩ := compile_foldFields rest resolved.2 distinct.2
      refine ⟨(name, schema) :: entries, by rw [foldTypeFields, hfold, hfolds]; rfl,
        by rw [map_cons, map_cons, hnames], fun required hrequired => ?_⟩
      have hhead := hrequired _ mem_cons_self
      simp only at hhead
      rw [compileFields, planFields, hcompile, hhead,
        hcompiles required fun field hfield => hrequired field (mem_cons_of_mem _ hfield)]
end

end SchemaPlans
