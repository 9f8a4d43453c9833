import Lash.SchemaPlans
import Lash.TypeSchemas
import Mathlib.Data.List.Induction

/-!
# What a validated value conforms to

The schema of a type is read twice: as what JSON Schema says about it, and as the plan that a
value is checked by. The plan passes over `additionalProperties`. Otherwise the two agree at
every depth, and the error of a value that is refused names a part of it that its part of the
schema refuses.
-/

namespace ValidatedValues

open ScriptNumbers ScriptValues ScriptOps ScriptSyntax ScriptFolding SchemaPlans TypeSchemas List
open Record ValidationPlan PrimitiveMask

/-! ## The errors -/

inductive PathSegment where
  | field (name : String)
  | index (index : Nat)
deriving DecidableEq

variable (path : List PathSegment)

def formatSchemaPath : String :=
  path.foldl (fun formatted segment => match segment with
    | .field name => formatted ++ "." ++ name
    | .index index => formatted ++ s!"[{index}]") "$"

def schemaName : PrimitiveMask → String
  | .string => "string"
  | .number => "number"
  | .integer => "integer"
  | .boolean => "boolean"
  | .array => "array"
  | .object => "object"
  | .null => "null"

def schemaValueTypeName : Value → String
  | .null => "null"
  | .bool _ => "boolean"
  | .number _ => "number"
  | .string _ => "string"
  | .image _ | .resource _ | .record _ => "object"
  | .tuple _ | .list _ => "array"

/-- An error about the value that a path leads to. -/
def complaint (text : String) : String :=
  formatSchemaPath path ++ ": " ++ text

def describePrimitiveFailure (value : Value) (expected : PrimitiveMask)
    (path : List PathSegment) : String :=
  complaint path s!"expected {schemaName expected}, got {schemaValueTypeName value}"

mutual
def describe : ValidationPlan → String
  | .any => "any"
  | .primitive kind => schemaName kind
  | .enum values => "enum[" ++ ", ".intercalate values ++ "]"
  | .list _ => "array"
  | .object _ => "object"
  | .union variants => " | ".intercalate (describeAll variants)
def describeAll : List ValidationPlan → List String
  | [] => []
  | plan :: rest => describe plan :: describeAll rest
end

def planFieldValue (value : Value) (name : String) : Option Value :=
  (fieldsOf value).bind fun lookup => lookup name

mutual
def describeFailure : ValidationPlan → Value → List PathSegment → String
  | .any, value, path => complaint path s!"expected any, got {schemaValueTypeName value}"
  | .primitive expected, value, path => describePrimitiveFailure value expected path
  | .enum allowed, value, path =>
    match value with
    | .string text =>
      complaint path ("expected one of [" ++ ", ".intercalate allowed ++ s!"], got {text}")
    | value => describePrimitiveFailure value .string path
  | .list item, value, path =>
    match (itemsOf value).bind fun items => items.zipIdx.find? fun entry => !item.accepts entry.1
    with
    | some (value, index) => describeFailure item value (path ++ [.index index])
    | none => describePrimitiveFailure value .array path
  | .object fields, value, path =>
    if PrimitiveMask.object.accepts value then describeFields fields value path
    else describePrimitiveFailure value .object path
  | .union variants, value, path =>
    complaint path ("expected one of [" ++ ", ".intercalate (describeAll variants) ++ "], " ++
      s!"got {schemaValueTypeName value}")
def describeFields :
    List (ValidationFieldPlan ValidationPlan) → Value → List PathSegment → String
  | [], value, path => describePrimitiveFailure value .object path
  | ⟨name, required, plan⟩ :: rest, value, path =>
    match planFieldValue value name with
    | none =>
      if required then complaint path s!"missing required field `{name}`"
      else describeFields rest value path
    | some fieldValue =>
      if plan.accepts fieldValue then describeFields rest value path
      else describeFailure plan fieldValue (path ++ [.field name])
end

def executeValidationPlan (value : Value) (plan : ValidationPlan) : Result :=
  if plan.accepts value then .ok value
  else .error (.valueError s!"validation failed: {describeFailure plan value []}")

def executeValidateBuiltin (value schema : Value) : Result :=
  match unwrapTypeValue schema with
  | some schema => executeValidationPlan value (compileSchemaValue schema)
  | none => .error (.typeError "`validate` requires a Type literal as the second argument")

/-! ## JSON Schema -/

/-- The types of JSON Schema that a value has. A handle of a resource is no data. -/
def jsonTypes : Value → List String
  | .null => ["null"]
  | .bool _ => ["boolean"]
  | .number n =>
    if n.isFinite then if isIntegral n then ["number", "integer"] else ["number"] else []
  | .string _ => ["string"]
  | .tuple _ | .list _ => ["array"]
  | .record _ | .image _ => ["object"]
  | .resource _ => []

mutual
/-- What the keywords of a schema say about a value, each for itself. Whether the objects are
closed by `additionalProperties` is a parameter. -/
inductive Conforms (closed : Prop) : Value → Value → Prop
  | keywords {schema : Record} {value : Value}
      (type : ∀ name, Record.get schema "type" = some (.string name) → name ∈ jsonTypes value)
      (enum : ∀ allowed, Record.get schema "enum" = some (.list allowed) →
        ∃ option ∈ allowed, Value.eq option value = true)
      (items : ∀ item values, Record.get schema "items" = some item →
        itemsOf value = some values → ∀ v ∈ values, Conforms closed item v)
      (anyOf : ∀ variants, Record.get schema "anyOf" = some (.list variants) →
        ConformsToOne closed variants value)
      (properties : ∀ properties lookup name sub v,
        Record.get schema "properties" = some (.record properties) →
        fieldsOf value = some lookup → Record.get properties name = some sub →
        lookup name = some v → Conforms closed sub v)
      (required : ∀ names lookup name, Record.get schema "required" = some (.list names) →
        fieldsOf value = some lookup → .string name ∈ names → lookup name ≠ none)
      (additional : closed → ∀ properties lookup name,
        Record.get schema "additionalProperties" = some (.bool false) →
        Record.get schema "properties" = some (.record properties) →
        fieldsOf value = some lookup → lookup name ≠ none → Record.get properties name ≠ none) :
      Conforms closed (.record schema) value
inductive ConformsToOne (closed : Prop) : List Value → Value → Prop
  | variant {variants : List Value} {variant value : Value} (mem : variant ∈ variants)
      (conforms : Conforms closed variant value) : ConformsToOne closed variants value
end

/-- The part of a value that a path leads to, and the part of the schema it stands under. -/
inductive At : Value → Value → List PathSegment → Value → Value → Prop
  | here (schema value : Value) : At schema value [] schema value
  | item {schema : Record} {item value v sub part : Value} {values : List Value} {i : Nat}
      {path : List PathSegment} (items : Record.get schema "items" = some item)
      (list : itemsOf value = some values) (get : values[i]? = some v)
      (rest : At item v path sub part) : At (.record schema) value (.index i :: path) sub part
  | field {schema entries : Record} {under value v sub part : Value} {name : String}
      {lookup : String → Option Value} {path : List PathSegment}
      (properties : Record.get schema "properties" = some (.record entries))
      (fields : fieldsOf value = some lookup) (found : Record.get entries name = some under)
      (get : lookup name = some v) (rest : At under v path sub part) :
      At (.record schema) value (.field name :: path) sub part

/-- The schemas of type literals, where each name stands for one of them. -/
inductive TypeSchema : Value → Prop
  | literal {types : String → Value} (ty : TypeExpr)
      (known : ∀ name ∈ refNames ty, TypeSchema (types name)) : TypeSchema (schemaOf types ty)

variable {schema : Value}

/-- A value that conforms to a schema as it is written does so with open objects. -/
theorem Conforms.opens {value : Value} (h : Conforms True schema value) :
    Conforms False schema value := by
  refine @Conforms.rec True (fun schema value _ => Conforms False schema value)
    (fun variants value _ => ConformsToOne False variants value) ?_ ?_ schema value h
  · intro schema value type enum _ _ _ required _ items anyOf properties
    exact .keywords type enum items anyOf properties required nofun
  · intro variants variant value mem _ conforms
    exact .variant mem conforms

/-! ## What the schemas of types ask for -/

section Keywords

variable {closed : Prop} {value : Value}

theorem array_iff : "array" ∈ jsonTypes value ↔ ∃ items, itemsOf value = some items := by
  cases value with
  | number n =>
    simp only [jsonTypes, itemsOf]
    split
    · split <;> simp
    · simp
  | _ => simp [jsonTypes, itemsOf]

theorem object_iff : "object" ∈ jsonTypes value ↔ ∃ lookup, fieldsOf value = some lookup := by
  cases value with
  | number n =>
    simp only [jsonTypes, fieldsOf]
    split
    · split <;> simp
    · simp
  | _ => simp [jsonTypes, fieldsOf]

theorem conforms_any : Conforms closed anySchema value :=
  .keywords nofun nofun nofun nofun nofun nofun nofun

theorem conforms_scalar {kind : String} :
    Conforms closed (scalarSchema kind) value ↔ kind ∈ jsonTypes value := by
  constructor
  · rintro ⟨type, _⟩
    exact type kind rfl
  · intro h
    refine .keywords ?_ nofun nofun nofun nofun nofun nofun
    intro name hname
    obtain rfl : kind = name := by simpa [get_cons] using hname
    exact h

theorem conforms_enum {options : List String} :
    Conforms closed (enumSchema options) value ↔ ∃ text ∈ options, value = .string text := by
  constructor
  · rintro ⟨type, enum, _⟩
    obtain ⟨option, hmem, heq⟩ := enum _ rfl
    obtain ⟨text, htext, rfl⟩ := mem_map.mp hmem
    cases value with
    | string other => exact ⟨text, htext, congrArg _ (eq_of_beq heq).symm⟩
    | _ => exact absurd heq (by simp [Value.eq])
  · rintro ⟨text, htext, rfl⟩
    refine .keywords ?_ ?_ nofun nofun nofun nofun nofun
    · intro name hname
      obtain rfl : "string" = name := by simpa [get_cons] using hname
      exact mem_singleton_self _
    · intro allowed hallowed
      obtain rfl : options.map Value.string = allowed := by
        simpa [get_cons] using hallowed
      exact ⟨_, mem_map_of_mem htext, beq_self_eq_true text⟩

theorem conforms_array {item : Value} :
    Conforms closed (arraySchema item) value ↔
      ∃ items, itemsOf value = some items ∧ ∀ v ∈ items, Conforms closed item v := by
  constructor
  · rintro ⟨type, _, each, _⟩
    obtain ⟨items, hitems⟩ := array_iff.mp (type "array" rfl)
    exact ⟨items, hitems, each item items rfl hitems⟩
  · rintro ⟨items, hitems, hconforms⟩
    refine .keywords ?_ nofun ?_ nofun nofun nofun nofun
    · intro name hname
      obtain rfl : "array" = name := by simpa [get_cons] using hname
      exact array_iff.mpr ⟨items, hitems⟩
    · intro under values hunder hvalues
      obtain rfl : item = under := by simpa [get_cons] using hunder
      obtain rfl := Option.some.inj (hitems.symm.trans hvalues)
      exact hconforms

theorem conforms_object {properties : Record} {required : List String} :
    Conforms False (objectSchema properties required) value ↔
      ∃ lookup, fieldsOf value = some lookup ∧ (∀ name ∈ required, lookup name ≠ none) ∧
        ∀ name sub v, Record.get properties name = some sub → lookup name = some v →
          Conforms False sub v := by
  constructor
  · rintro ⟨type, _, _, _, each, needed, _⟩
    obtain ⟨lookup, hlookup⟩ := object_iff.mp (type "object" rfl)
    refine ⟨lookup, hlookup, fun name hname => ?_, fun name sub v hsub hv => ?_⟩
    · exact needed _ lookup name rfl hlookup (mem_map_of_mem hname)
    · exact each properties lookup name sub v rfl hlookup hsub hv
  · rintro ⟨lookup, hlookup, hrequired, hconforms⟩
    refine .keywords ?_ nofun nofun nofun ?_ ?_ nofun
    · intro name hname
      obtain rfl : "object" = name := by simpa [get_cons] using hname
      exact object_iff.mpr ⟨lookup, hlookup⟩
    · intro under lookup' name sub v hunder hlookup'
      obtain rfl : properties = under := by simpa [get_cons] using hunder
      obtain rfl := Option.some.inj (hlookup.symm.trans hlookup')
      exact hconforms name sub v
    · intro names lookup' name hnames hlookup' hname
      obtain rfl : required.map Value.string = names := by simpa [get_cons] using hnames
      obtain rfl := Option.some.inj (hlookup.symm.trans hlookup')
      obtain ⟨text, htext, heq⟩ := mem_map.mp hname
      cases heq
      exact hrequired _ htext

theorem conforms_union {variants : List Value} :
    Conforms closed (unionSchema variants) value ↔
      ∃ variant ∈ variants, Conforms closed variant value := by
  constructor
  · rintro ⟨_, _, _, anyOf, _⟩
    obtain ⟨mem, conforms⟩ := anyOf variants rfl
    exact ⟨_, mem, conforms⟩
  · rintro ⟨variant, mem, conforms⟩
    refine .keywords nofun nofun nofun ?_ nofun nofun nofun
    intro others hothers
    obtain rfl : variants = others := by simpa [get_cons] using hothers
    exact .variant mem conforms

end Keywords

/-! ## One keyword after the other -/

/-- The plan of a schema says what the schema says, and its errors name parts that violate
theirs. -/
structure Faithful (schema : Value) : Prop where
  accepts : ∀ value,
    (compileSchemaValue schema).accepts value = true ↔ Conforms False schema value
  blames : ∀ value path, ¬ (compileSchemaValue schema).accepts value = true →
    ∃ rest under part text, At schema value rest under part ∧ ¬ Conforms False under part ∧
      describeFailure (compileSchemaValue schema) value path = complaint (path ++ rest) text

/-- The value itself may always be named. -/
theorem Faithful.blames_here {value : Value} {path : List PathSegment}
    (accepts : (compileSchemaValue schema).accepts value = true ↔ Conforms False schema value)
    (refused : ¬ (compileSchemaValue schema).accepts value = true)
    (named : ∃ text, describeFailure (compileSchemaValue schema) value path = complaint path text) :
    ∃ rest under part text, At schema value rest under part ∧ ¬ Conforms False under part ∧
      describeFailure (compileSchemaValue schema) value path = complaint (path ++ rest) text := by
  obtain ⟨text, htext⟩ := named
  refine ⟨[], schema, value, text, .here schema value, fun h => refused (accepts.mpr h), ?_⟩
  rw [append_nil]
  exact htext

theorem faithful_any : Faithful anySchema where
  accepts _ := iff_of_true rfl conforms_any
  blames _ _ refused := absurd rfl refused

open Faithful

theorem faithful_scalar {kind : String} {mask : PrimitiveMask}
    (hcompile : compileSchemaValue (scalarSchema kind) = .primitive mask)
    (hmask : ∀ value, mask.accepts value = true ↔ kind ∈ jsonTypes value) :
    Faithful (scalarSchema kind) := by
  have haccepts : ∀ value, (compileSchemaValue (scalarSchema kind)).accepts value = true ↔
      Conforms False (scalarSchema kind) value := by
    intro value
    rw [hcompile, conforms_scalar]
    exact hmask value
  refine ⟨haccepts, fun value path refused => blames_here (haccepts value) refused ?_⟩
  rw [hcompile]
  exact ⟨_, rfl⟩

theorem accepts_iff (mask : PrimitiveMask) (value : Value) (hhandle : mask ≠ .object) :
    mask.accepts value = true ↔ schemaName mask ∈ jsonTypes value := by
  cases value with
  | number n =>
    simp only [PrimitiveMask.accepts, PrimitiveMask.ofValue, jsonTypes]
    split
    · split <;> cases mask <;> simp [schemaName]
    · simp
  | resource handle => cases mask <;> simp_all [PrimitiveMask.accepts, PrimitiveMask.ofValue,
      jsonTypes]
  | _ => cases mask <;> simp [PrimitiveMask.accepts, PrimitiveMask.ofValue, jsonTypes, schemaName]

theorem faithful_dict : Faithful (scalarSchema "object") := by
  have hcompile : compileSchemaValue (scalarSchema "object") = .object [] := rfl
  have haccepts : ∀ value, (compileSchemaValue (scalarSchema "object")).accepts value = true ↔
      Conforms False (scalarSchema "object") value := by
    intro value
    rw [hcompile, conforms_scalar, object_iff, ValidationPlan.accepts, Option.any_eq_true]
    exact exists_congr fun lookup => and_iff_left rfl
  refine ⟨haccepts, fun value path refused => blames_here (haccepts value) refused ?_⟩
  rw [hcompile, describeFailure]
  split
  · exact ⟨_, rfl⟩
  · exact ⟨_, rfl⟩

theorem faithful_enum (options : List String) : Faithful (enumSchema options) := by
  have hcompile : compileSchemaValue (enumSchema options) = .enum options :=
    congrArg _ (textsOf_strings options)
  have haccepts : ∀ value, (compileSchemaValue (enumSchema options)).accepts value = true ↔
      Conforms False (enumSchema options) value := by
    intro value
    rw [hcompile, conforms_enum]
    cases value with
    | string text =>
      simp only [ValidationPlan.accepts, contains_iff_mem, Value.string.injEq]
      exact ⟨fun h => ⟨text, h, rfl⟩, fun ⟨_, h, heq⟩ => heq ▸ h⟩
    | _ => simp [ValidationPlan.accepts]
  refine ⟨haccepts, fun value path refused => blames_here (haccepts value) refused ?_⟩
  rw [hcompile]
  cases value <;> exact ⟨_, rfl⟩

theorem faithful_array {item : Value} (h : Faithful item) : Faithful (arraySchema item) := by
  have hcompile : compileSchemaValue (arraySchema item) = .list (compileSchemaValue item) := rfl
  have haccepts : ∀ value, (compileSchemaValue (arraySchema item)).accepts value = true ↔
      Conforms False (arraySchema item) value := by
    intro value
    rw [hcompile, conforms_array, ValidationPlan.accepts, Option.any_eq_true]
    simp only [all_eq_true, h.accepts]
  refine ⟨haccepts, fun value path refused => ?_⟩
  cases hitems : itemsOf value with
  | none =>
    refine blames_here (haccepts value) refused ?_
    rw [hcompile, describeFailure, hitems]
    exact ⟨_, rfl⟩
  | some items =>
    cases hfind : items.zipIdx.find? fun entry =>
        !(compileSchemaValue item).accepts entry.1 with
    | none =>
      refine blames_here (haccepts value) refused ?_
      rw [hcompile, describeFailure, hitems, Option.bind_some, hfind]
      exact ⟨_, rfl⟩
    | some entry =>
      -- the first item that is refused has a part that violates its schema
      obtain ⟨v, i⟩ := entry
      have hrefused : ¬ (compileSchemaValue item).accepts v = true := by
        simpa using find?_some hfind
      have hget : items[i]? = some v :=
        mem_zipIdx_iff_getElem?.mp (mem_of_find?_eq_some hfind)
      obtain ⟨rest, under, part, text, hat, hviolates, htext⟩ :=
        h.blames v (path ++ [PathSegment.index i]) hrefused
      refine ⟨.index i :: rest, under, part, text, .item rfl hitems hget hat, hviolates, ?_⟩
      rw [hcompile, describeFailure, hitems, Option.bind_some, hfind]
      simpa using htext

variable {variants : List Value}

theorem acceptsOne_iff {value : Value} :
    acceptsOne (compileAll variants) value = true ↔
      ∃ variant ∈ variants, (compileSchemaValue variant).accepts value = true := by
  induction variants with
  | nil => simp [compileAll, acceptsOne]
  | cons variant rest ih => simp [compileAll, acceptsOne, ih]

theorem faithful_union (h : ∀ variant ∈ variants, Faithful variant) :
    Faithful (unionSchema variants) := by
  have hcompile : compileSchemaValue (unionSchema variants) = .union (compileAll variants) := rfl
  have haccepts : ∀ value, (compileSchemaValue (unionSchema variants)).accepts value = true ↔
      Conforms False (unionSchema variants) value := by
    intro value
    rw [hcompile, conforms_union, ValidationPlan.accepts, acceptsOne_iff]
    exact exists_congr fun variant => and_congr_right fun hmem => (h variant hmem).accepts value
  refine ⟨haccepts, fun value path refused => blames_here (haccepts value) refused ?_⟩
  rw [hcompile]
  exact ⟨_, rfl⟩

/-! ## Objects -/

theorem compileFields_names (required : List String) (entries : Record) :
    (compileFields required entries).map ValidationFieldPlan.name = entries.keys := by
  induction entries with
  | nil => rfl
  | cons entry rest ih =>
    rw [compileFields, map_cons, ih]
    rfl

variable {properties : Record}

theorem compile_object {required : List String}
    (hthere : ∀ name ∈ required, name ∈ properties.keys) :
    compileSchemaValue (objectSchema properties required) =
      .object (compileFields required properties) := by
  have hrequired : requiredOf [("type", .string "object"), ("properties", .record properties),
      ("required", .list (required.map .string)), ("additionalProperties", .bool false)] =
      required := textsOf_strings _
  change object (addRequired (compileFields (requiredOf _) properties)
    (requiredOf _)) = _
  rw [hrequired, addRequired_known]
  intro name hname
  have hmem := hthere name hname
  rw [← compileFields_names required, mem_map] at hmem
  obtain ⟨field, hfield, rfl⟩ := hmem
  exact any_eq_true.mpr ⟨field, hfield, beq_self_eq_true _⟩

theorem acceptsFields_iff {required : List String} {entries : Record}
    {lookup : String → Option Value} :
    acceptsFields (compileFields required entries) lookup = true ↔
      (∀ entry ∈ entries, lookup entry.1 = none → entry.1 ∉ required) ∧
      ∀ entry ∈ entries, ∀ v, lookup entry.1 = some v →
        (compileSchemaValue entry.2).accepts v = true := by
  induction entries with
  | nil => simp [compileFields, acceptsFields]
  | cons entry rest ih =>
    obtain ⟨name, sub⟩ := entry
    rw [compileFields, acceptsFields, Bool.and_eq_true, ih]
    cases hlookup : lookup name with
    | none => simp [hlookup, and_assoc]
    | some v =>
      simp only [forall_mem_cons, hlookup]
      simp
      tauto

/-- A value without fields is named itself. -/
theorem describeFields_none {value : Value} {path : List PathSegment}
    (hnone : fieldsOf value = none) (fields : List (ValidationFieldPlan ValidationPlan)) :
    ∃ text, describeFields fields value path = complaint path text := by
  induction fields with
  | nil => exact ⟨_, rfl⟩
  | cons field rest ih =>
    rw [describeFields, planFieldValue, hnone, Option.bind_none]
    by_cases hrequired : field.required = true
    · simp only [hrequired, if_true]
      exact ⟨_, rfl⟩
    · simp only [hrequired]
      exact ih

/-- The first field that is refused is described, unless one is missing before. -/
theorem describeFields_some {value : Value} {path : List PathSegment} {required : List String}
    {lookup : String → Option Value} (hlookup : fieldsOf value = some lookup)
    (entries : Record) :
    (∃ text, describeFields (compileFields required entries) value path = complaint path text) ∨
    ∃ entry ∈ entries, ∃ v, lookup entry.1 = some v ∧
      ¬ (compileSchemaValue entry.2).accepts v = true ∧
      describeFields (compileFields required entries) value path =
        describeFailure (compileSchemaValue entry.2) v (path ++ [PathSegment.field entry.1]) := by
  induction entries with
  | nil => exact .inl ⟨_, rfl⟩
  | cons entry rest ih =>
    obtain ⟨name, sub⟩ := entry
    have hgoOn : describeFields (compileFields required ((name, sub) :: rest)) value path =
        describeFields (compileFields required rest) value path →
        (∃ text, describeFields (compileFields required ((name, sub) :: rest)) value path =
          complaint path text) ∨
        ∃ entry ∈ (name, sub) :: rest, ∃ v, lookup entry.1 = some v ∧
          ¬ (compileSchemaValue entry.2).accepts v = true ∧
          describeFields (compileFields required ((name, sub) :: rest)) value path =
            describeFailure (compileSchemaValue entry.2) v
              (path ++ [PathSegment.field entry.1]) := by
      intro hsame
      rw [hsame]
      rcases ih with hleft | ⟨entry, hentry, hright⟩
      · exact .inl hleft
      · exact .inr ⟨entry, mem_cons_of_mem _ hentry, hright⟩
    have hfield : planFieldValue value name = lookup name := by
      rw [planFieldValue, hlookup, Option.bind_some]
    cases hv : lookup name with
    | none =>
      by_cases hrequired : required.contains name = true
      · refine .inl ⟨s!"missing required field `{name}`", ?_⟩
        rw [compileFields, describeFields, hfield, hv]
        exact if_pos hrequired
      · refine hgoOn ?_
        rw [compileFields, describeFields, hfield, hv]
        exact if_neg hrequired
    | some v =>
      by_cases haccepted : (compileSchemaValue sub).accepts v = true
      · refine hgoOn ?_
        rw [compileFields, describeFields, hfield, hv]
        exact if_pos haccepted
      · refine .inr ⟨_, mem_cons_self, v, hv, haccepted, ?_⟩
        rw [compileFields, describeFields, hfield, hv]
        exact if_neg haccepted

variable {record : Record} {name : String}

theorem get_of_mem {value : Value} (hnodup : record.keys.Nodup) (hmem : (name, value) ∈ record) :
    Record.get record name = some value := by
  induction record with
  | nil => cases hmem
  | cons entry rest ih =>
    obtain ⟨key, old⟩ := entry
    obtain ⟨hnew, hrest⟩ := nodup_cons.mp hnodup
    rw [get_cons]
    rcases mem_cons.mp hmem with heq | hthere
    · cases heq
      exact if_pos rfl
    · have hne : key ≠ name := by
        rintro rfl
        exact hnew (mem_map.mpr ⟨_, hthere, rfl⟩)
      rw [if_neg hne]
      exact ih hrest hthere

theorem mem_of_get {value : Value} (h : Record.get record name = some value) :
    (name, value) ∈ record := by
  obtain ⟨entry, hfind, rfl⟩ := Option.map_eq_some_iff.mp h
  have hname : entry.1 = name := by simpa using find?_some hfind
  rw [← hname]
  exact mem_of_find?_eq_some hfind

theorem faithful_object {required : List String} (hnodup : properties.keys.Nodup)
    (hthere : ∀ name ∈ required, name ∈ properties.keys)
    (h : ∀ entry ∈ properties, Faithful entry.2) : Faithful (objectSchema properties required) := by
  have haccepts : ∀ value,
      (compileSchemaValue (objectSchema properties required)).accepts value = true ↔
        Conforms False (objectSchema properties required) value := by
    intro value
    rw [compile_object hthere, conforms_object, ValidationPlan.accepts, Option.any_eq_true]
    refine exists_congr fun lookup => and_congr_right fun _ => ?_
    rw [acceptsFields_iff]
    refine and_congr ?_ ?_
    · constructor
      · intro hall name hname hnone
        obtain ⟨entry, hentry, rfl⟩ := mem_map.mp (hthere name hname)
        exact hall entry hentry hnone hname
      · exact fun hall entry _ hnone hname => hall entry.1 hname hnone
    · constructor
      · intro hall name sub v hsub hv
        have hentry := mem_of_get hsub
        exact ((h _ hentry).accepts v).mp (hall _ hentry v hv)
      · intro hall entry hentry v hv
        exact ((h _ hentry).accepts v).mpr (hall _ _ v (get_of_mem hnodup hentry) hv)
  refine ⟨haccepts, fun value path refused => ?_⟩
  by_cases hobject : object.accepts value = true
  · have hdescribe : describeFailure (compileSchemaValue (objectSchema properties required))
        value path = describeFields (compileFields required properties) value path := by
      rw [compile_object hthere, describeFailure, if_pos hobject]
    cases hfields : fieldsOf value with
    | none =>
      refine blames_here (haccepts value) refused ?_
      rw [hdescribe]
      exact describeFields_none hfields _
    | some lookup =>
      rcases @describeFields_some _ path _ _ hfields properties with hnamed | hrefused
      · refine blames_here (haccepts value) refused ?_
        rw [hdescribe]
        exact hnamed
      · obtain ⟨⟨name, sub⟩, hentry, v, hv, hrefused, htext⟩ := hrefused
        obtain ⟨rest, under, part, text, hat, hviolates, hblame⟩ :=
          (h _ hentry).blames v (path ++ [PathSegment.field name]) hrefused
        refine ⟨.field name :: rest, under, part, text, ?_, hviolates, ?_⟩
        · exact .field rfl hfields (get_of_mem hnodup hentry) hv hat
        · rw [hdescribe, htext, hblame]
          simp
  · refine blames_here (haccepts value) refused ?_
    rw [compile_object hthere, describeFailure, if_neg hobject]
    exact ⟨_, rfl⟩

/-! ## Type literals -/

theorem mem_insert {value : Value} {entry : String × Value} (h : entry ∈ record.insert name value) :
    entry ∈ record ∨ entry = (name, value) := by
  induction record with
  | nil => exact .inr (mem_singleton.mp h)
  | cons head rest ih =>
    obtain ⟨key, old⟩ := head
    rw [Record.insert] at h
    by_cases hkey : key = name
    · rw [if_pos hkey] at h
      rcases mem_cons.mp h with rfl | hrest
      · exact .inr (hkey ▸ rfl)
      · exact .inl (mem_cons_of_mem _ hrest)
    · rw [if_neg hkey] at h
      rcases mem_cons.mp h with rfl | hrest
      · exact .inl mem_cons_self
      · exact (ih hrest).imp_left (mem_cons_of_mem _)

theorem mem_keys_insert {key : String} {value : Value} :
    key ∈ (record.insert name value).keys ↔ key ∈ record.keys ∨ key = name := by
  induction record with
  | nil => simp [Record.insert, Record.keys]
  | cons head rest ih =>
    obtain ⟨other, old⟩ := head
    rw [Record.insert]
    by_cases hkey : other = name
    · subst hkey
      simp [Record.keys]
      tauto
    · simp only [if_neg hkey, Record.keys, map_cons, mem_cons] at ih ⊢
      rw [ih, or_assoc]

/-- What a record made of entries has: each key once, all of them, and no other entry. -/
theorem ofEntries_sound (entries : List (String × Value)) :
    (ofEntries entries).keys.Nodup ∧
      (∀ entry ∈ ofEntries entries, entry ∈ entries) ∧
      ∀ entry ∈ entries, entry.1 ∈ (ofEntries entries).keys := by
  induction entries using reverseRecOn with
  | nil => exact ⟨nodup_nil, nofun, nofun⟩
  | append_singleton entries last ih =>
    obtain ⟨hnodup, hfrom, hkeys⟩ := ih
    have hinsert : ofEntries (entries ++ [last]) =
        (ofEntries entries).insert last.1 last.2 := by
      rw [ofEntries, foldl_append]
      rfl
    rw [hinsert]
    refine ⟨keys_insert_nodup _ _ hnodup, fun entry hentry => ?_,
      fun entry hentry => ?_⟩
    · rcases mem_insert hentry with hold | hlast
      · exact mem_append_left _ (hfrom entry hold)
      · exact mem_append_right _ (mem_singleton.mpr hlast)
    · rw [mem_keys_insert]
      rcases mem_append.mp hentry with hold | hlast
      · exact .inl (hkeys entry hold)
      · exact .inr (congrArg Prod.fst (mem_singleton.mp hlast))

variable {types : String → Value}

theorem propertiesOf_names (fields : List (TypeField TypeExpr)) :
    (propertiesOf types fields).map Prod.fst = fields.map TypeField.name := by
  induction fields with
  | nil => rfl
  | cons field rest ih =>
    rw [propertiesOf, map_cons, map_cons, ih]

mutual
theorem faithful_schemaOf :
    ∀ ty, (∀ name ∈ refNames ty, Faithful (types name)) → Faithful (schemaOf types ty)
  | .any, _ | .process _ _ _, _ | .triggerHandle _, _ => faithful_any
  | .str, _ => @faithful_scalar _ .string rfl fun value => accepts_iff _ value nofun
  | .int, _ => @faithful_scalar _ .integer rfl fun value => accepts_iff _ value nofun
  | .float, _ => @faithful_scalar _ .number rfl fun value => accepts_iff _ value nofun
  | .bool, _ => @faithful_scalar _ .boolean rfl fun value => accepts_iff _ value nofun
  | .null, _ => @faithful_scalar _ .null rfl fun value => accepts_iff _ value nofun
  | .dict, _ => faithful_dict
  | .enum options, _ => faithful_enum options
  | .ref name, known => known name (List.mem_singleton_self name)
  | .list item, known => faithful_array (faithful_schemaOf item known)
  | .union variants, known => faithful_union (faithful_schemasOf variants known)
  | .object fields, known => by
      obtain ⟨hnodup, hfrom, hkeys⟩ := ofEntries_sound (propertiesOf types fields)
      refine faithful_object hnodup (fun name hname => ?_)
        fun entry hentry => faithful_propertiesOf fields known entry (hfrom entry hentry)
      obtain ⟨field, hfield, rfl⟩ := mem_map.mp hname
      have hmem : field.name ∈ (propertiesOf types fields).map Prod.fst := by
        rw [propertiesOf_names]
        exact mem_map_of_mem (mem_of_mem_filter hfield)
      obtain ⟨entry, hentry, hname'⟩ := mem_map.mp hmem
      rw [← hname']
      exact hkeys entry hentry
theorem faithful_schemasOf :
    ∀ tys, (∀ name ∈ refNamesAll tys, Faithful (types name)) →
      ∀ schema ∈ schemasOf types tys, Faithful schema
  | [], _, _, hschema => absurd hschema List.not_mem_nil
  | ty :: rest, known, schema, hschema => by
      rcases mem_cons.mp hschema with rfl | hrest
      · exact faithful_schemaOf ty fun name h => known name (mem_append_left _ h)
      · exact faithful_schemasOf rest (fun name h => known name (mem_append_right _ h))
          schema hrest
theorem faithful_propertiesOf :
    ∀ fields, (∀ name ∈ refNamesFields fields, Faithful (types name)) →
      ∀ entry ∈ propertiesOf types fields, Faithful entry.2
  | [], _, _, hentry => absurd hentry List.not_mem_nil
  | ⟨_, ty, _⟩ :: rest, known, entry, hentry => by
      rcases mem_cons.mp hentry with rfl | hrest
      · exact faithful_schemaOf ty fun name h => known name (mem_append_left _ h)
      · exact faithful_propertiesOf rest (fun name h => known name (mem_append_right _ h))
          entry hrest
end

theorem TypeSchema.faithful (h : TypeSchema schema) : Faithful schema := by
  induction h with
  | literal ty _ ih => exact faithful_schemaOf ty ih

/-- By the schema of a type literal, `validate` gives a value back if it conforms with open
objects, so also if it conforms to the schema as it is written. Otherwise the error names a part
of the value that its part of the schema refuses. -/
theorem validate_checks_open_schema {schema : Value} (h : TypeSchema schema) (value : Value) :
    (executeValidateBuiltin value (wrapTypeSchemaValue schema) = .ok value ↔
      Conforms False schema value) ∧
    (Conforms True schema value →
      executeValidateBuiltin value (wrapTypeSchemaValue schema) = .ok value) ∧
    (¬ Conforms False schema value → ∃ path under part text,
      At schema value path under part ∧ ¬ Conforms False under part ∧
        executeValidateBuiltin value (wrapTypeSchemaValue schema) = .error (.valueError
          ("validation failed: " ++ (formatSchemaPath path ++ ": " ++ text)))) := by
  have hrun : executeValidateBuiltin value (wrapTypeSchemaValue schema) =
      executeValidationPlan value (compileSchemaValue schema) := rfl
  have haccepts := h.faithful.accepts value
  have hiff : executeValidationPlan value (compileSchemaValue schema) = .ok value ↔
      Conforms False schema value := by
    rw [← haccepts, executeValidationPlan]
    split <;> simp_all
  rw [hrun]
  refine ⟨hiff, fun hclosed => hiff.mpr hclosed.opens, fun hrefused => ?_⟩
  have hplan := mt haccepts.mp hrefused
  obtain ⟨path, under, part, text, hat, hviolates, htext⟩ := h.faithful.blames value [] hplan
  refine ⟨path, under, part, text, hat, hviolates, ?_⟩
  rw [executeValidationPlan, if_neg hplan, htext]
  rfl

/-- The type with one text field `name`. -/
def named : TypeExpr := .object [⟨"name", .str, false⟩]

theorem validate_checks_open_schema_named :
    ¬ Conforms False (schemaOf (fun _ => .null) named) (.record []) ∧
      ∃ path under part text, At (schemaOf (fun _ => .null) named) (.record []) path under part ∧
        ¬ Conforms False under part ∧
        executeValidateBuiltin (.record [])
          (wrapTypeSchemaValue (schemaOf (fun _ => .null) named)) =
            .error (.valueError
              ("validation failed: " ++ (formatSchemaPath path ++ ": " ++ text))) := by
  have hschema : TypeSchema (schemaOf (fun _ => .null) named) := .literal named nofun
  have hviolates : ¬ Conforms False (schemaOf (fun _ => .null) named) (.record []) := by
    rintro ⟨_, _, _, _, _, required, _⟩
    exact required _ _ "name" rfl rfl mem_cons_self rfl
  exact ⟨hviolates, (validate_checks_open_schema hschema (.record [])).2.2 hviolates⟩

/-- A field that the type does not name is kept, where the schema asks for no others. -/
theorem other_fields_are_kept :
    ¬ ∀ schema value, TypeSchema schema →
      (executeValidateBuiltin value (wrapTypeSchemaValue schema) = .ok value ↔
        Conforms True schema value) := by
  intro h
  have hschema : TypeSchema (schemaOf (fun _ => .null) named) := .literal named nofun
  have hrun := (h _ (.record [("name", .string "pkg"), ("extra", .string "preserved")])
    hschema).mp rfl
  obtain ⟨_, _, _, _, _, _, additional⟩ := hrun
  exact additional trivial _ _ "extra" rfl rfl rfl nofun rfl

end ValidatedValues
