import Lash.SchemaPlans
import Lash.ScriptTypes

/-!
# When one type may stand for another

The rules that the check of types decides, with the one for optional fields that the source
lacks as a parameter. The check skips any optional field that is missing, which composes on
the left but not on the right: the missing field may be there again one step before, with
another type.
-/

namespace TypeAssignability

open ScriptValues ScriptSyntax ScriptTypes SchemaPlans List TypeExpr ValidationPlan

/-! ## Equality of types -/

mutual
theorem same_iff : ∀ a b : TypeExpr, a.same b = true ↔ a = b
  | .any, b | .str, b | .int, b | .float, b | .bool, b | .dict, b | .null, b => by
      cases b <;> simp [TypeExpr.same]
  | .enum as, b => by cases b <;> simp [TypeExpr.same]
  | .list a, b => by cases b <;> simp [TypeExpr.same, same_iff a]
  | .triggerHandle a, b => by cases b <;> simp [TypeExpr.same, same_iff a]
  | .object as, b => by cases b <;> simp [TypeExpr.same, sameFields_iff as]
  | .ref a, b => by cases b <;> simp [TypeExpr.same]
  | .process a c n, b => by cases b <;> simp [TypeExpr.same, same_iff a, same_iff c, and_assoc]
  | .union as, b => by cases b <;> simp [TypeExpr.same, sameTypes_iff as]
theorem sameTypes_iff : ∀ as bs : List TypeExpr, sameTypes as bs = true ↔ as = bs
  | [], bs => by cases bs <;> simp [sameTypes]
  | a :: as, bs => by cases bs <;> simp [sameTypes, same_iff a, sameTypes_iff as]
theorem sameFields_iff : ∀ as bs : List (TypeField TypeExpr), sameFields as bs = true ↔ as = bs
  | [], bs => by cases bs <;> simp [sameFields]
  | ⟨name, ty, optional⟩ :: as, bs => by
      cases bs with
      | nil => simp [sameFields]
      | cons b bs =>
        obtain ⟨name', ty', optional'⟩ := b
        simp only [sameFields, Bool.and_eq_true, beq_iff_eq, same_iff ty, sameFields_iff as,
          cons.injEq, TypeField.mk.injEq]
        tauto
end

/-! ## The rules -/

/-- The field of an object that a name stands for: the first one. -/
def fieldNamed (fields : List (TypeField TypeExpr)) (name : String) :
    Option (TypeField TypeExpr) :=
  fields.find? (·.name == name)

/-- Types that are neither `any` nor a union. -/
def Plain : TypeExpr → Prop
  | .any | .union _ => False
  | _ => True

/-- The rules of the check. A field of the target that the source lacks must be one that is
skipped. -/
inductive AssignableBy (skips : TypeField TypeExpr → Prop) : TypeExpr → TypeExpr → Prop
  | any (source : TypeExpr) : AssignableBy skips source .any
  | refl (ty : TypeExpr) : AssignableBy skips ty ty
  | sources {sources : List TypeExpr} {target : TypeExpr}
      (each : ∀ source ∈ sources, AssignableBy skips source target) :
      AssignableBy skips (.union sources) target
  | variant {source target : TypeExpr} {targets : List TypeExpr} (plain : Plain source)
      (mem : target ∈ targets) (meets : AssignableBy skips source target) :
      AssignableBy skips source (.union targets)
  | intFloat : AssignableBy skips .int .float
  | enumStr (values : List String) : AssignableBy skips (.enum values) .str
  | enum {sources targets : List String} (subset : ∀ value ∈ sources, value ∈ targets) :
      AssignableBy skips (.enum sources) (.enum targets)
  | list {source target : TypeExpr} (item : AssignableBy skips source target) :
      AssignableBy skips (.list source) (.list target)
  | objectDict (fields : List (TypeField TypeExpr)) : AssignableBy skips (.object fields) .dict
  | object {sources targets : List (TypeField TypeExpr)}
      (missing : ∀ field ∈ targets, fieldNamed sources field.name = none → skips field)
      (required : ∀ field ∈ targets, ∀ source, fieldNamed sources field.name = some source →
        field.optional = true ∨ source.optional = false)
      (types : ∀ field ∈ targets, ∀ source, fieldNamed sources field.name = some source →
        AssignableBy skips source.ty field.ty) :
      AssignableBy skips (.object sources) (.object targets)
  | process {input output input' output' : TypeExpr} (count : Nat)
      (inputs : AssignableBy skips input input') (outputs : AssignableBy skips output output') :
      AssignableBy skips (.process input output count) (.process input' output' count)
  | triggerHandle {source target : TypeExpr} (event : AssignableBy skips source target) :
      AssignableBy skips (.triggerHandle source) (.triggerHandle target)

/-- Every optional field is skipped. -/
def Skippable (field : TypeField TypeExpr) : Prop := field.optional = true

/-- Only optional fields that take every value are skipped. -/
def Harmless (field : TypeField TypeExpr) : Prop := field.optional = true ∧ field.ty = .any

variable {skips skips' : TypeField TypeExpr → Prop} {source target : TypeExpr}

theorem AssignableBy.mono (more : ∀ field, skips field → skips' field)
    (h : AssignableBy skips source target) : AssignableBy skips' source target := by
  induction h with
  | any source => exact .any source
  | refl ty => exact .refl ty
  | sources each ih => exact .sources ih
  | variant plain mem meets ih => exact .variant plain mem ih
  | intFloat => exact .intFloat
  | enumStr values => exact .enumStr values
  | enum subset => exact .enum subset
  | list item ih => exact .list ih
  | objectDict fields => exact .objectDict fields
  | object missing required types ih =>
    exact .object (fun field hfield hnone => more field (missing field hfield hnone)) required ih
  | process count inputs outputs ihInput ihOutput => exact .process count ihInput ihOutput
  | triggerHandle event ih => exact .triggerHandle ih

theorem eq_any_of_any {ty : TypeExpr} (h : AssignableBy skips .any ty) : ty = .any := by
  cases h with
  | any | refl => rfl
  | variant plain mem meets => exact plain.elim

/-! ## Chains -/

variable {fields : List (TypeField TypeExpr)} {field : TypeField TypeExpr}

theorem sizeOf_ty_lt (mem : field ∈ fields) : sizeOf field.ty < sizeOf fields := by
  have hfield := sizeOf_lt_of_mem mem
  obtain ⟨name, ty, optional⟩ := field
  simp only [TypeField.mk.sizeOf_spec] at hfield ⊢
  omega

theorem fieldNamed_mem {name : String} (h : fieldNamed fields name = some field) :
    field ∈ fields ∧ field.name = name :=
  ⟨List.mem_of_find?_eq_some h, by simpa using List.find?_some h⟩

/-- What has to hold of the skipped fields for chains to compose. -/
structure Composes (skips : TypeField TypeExpr → Prop) : Prop where
  harmless : ∀ field, Harmless field → skips field
  wider : ∀ field other, skips field → AssignableBy Harmless field.ty other.ty →
    other.optional = true ∨ field.optional = false → skips other

theorem composes_skippable : Composes Skippable where
  harmless _ h := h.1
  wider field other h _ hoptional := hoptional.elim id fun hrequired => by
    rw [Skippable, hrequired] at h
    cases h

theorem composes_harmless : Composes Harmless where
  harmless _ h := h
  wider field other h hty hoptional := by
    obtain ⟨hskipped, hany⟩ := h
    rw [hany] at hty
    refine ⟨hoptional.elim id fun hrequired => ?_, eq_any_of_any hty⟩
    rw [hskipped] at hrequired
    cases hrequired

/-- Chains of types up to a size compose. -/
def ChainsUpTo (skips : TypeField TypeExpr → Prop) (n : Nat) : Prop :=
  ∀ s t u : TypeExpr, sizeOf s + sizeOf t + sizeOf u ≤ n → AssignableBy skips s t →
    AssignableBy Harmless t u → AssignableBy skips s u

/-- Objects on all three places: a field of the last one is looked up twice. -/
theorem object_chain {n : Nat} (composes : Composes skips) (chains : ChainsUpTo skips n)
    {ss ts us : List (TypeField TypeExpr)} (size : sizeOf ss + sizeOf ts + sizeOf us ≤ n)
    (h : AssignableBy skips (.object ss) (.object ts))
    (h' : AssignableBy Harmless (.object ts) (.object us)) :
    AssignableBy skips (.object ss) (.object us) := by
  cases h with
  | refl => exact h'.mono composes.harmless
  | object missing required types =>
    cases h' with
    | refl => exact .object missing required types
    | object missing' required' types' =>
      refine .object (fun field hfield hnone => ?_) (fun field hfield source hsource => ?_)
        (fun field hfield source hsource => ?_)
      · cases hmiddle : fieldNamed ts field.name with
        | none => exact composes.harmless field (missing' field hfield hmiddle)
        | some middle =>
          obtain ⟨hmem, hname⟩ := fieldNamed_mem hmiddle
          rw [← hname] at hnone
          exact composes.wider middle field (missing middle hmem hnone)
            (types' field hfield middle hmiddle) (required' field hfield middle hmiddle)
      · cases hmiddle : fieldNamed ts field.name with
        | none => exact Or.inl (missing' field hfield hmiddle).1
        | some middle =>
          obtain ⟨hmem, hname⟩ := fieldNamed_mem hmiddle
          rw [← hname] at hsource
          rcases required' field hfield middle hmiddle with hoptional | hrequired
          · exact Or.inl hoptional
          · rcases required middle hmem source hsource with hoptional | hdone
            · rw [hrequired] at hoptional
              cases hoptional
            · exact Or.inr hdone
      · cases hmiddle : fieldNamed ts field.name with
        | none =>
          rw [(missing' field hfield hmiddle).2]
          exact .any _
        | some middle =>
          obtain ⟨hmem, hname⟩ := fieldNamed_mem hmiddle
          have hthere := fieldNamed_mem hsource
          rw [← hname] at hsource
          have hsize := sizeOf_ty_lt hthere.1
          have hsize' := sizeOf_ty_lt hmem
          have hsize'' := sizeOf_ty_lt hfield
          exact chains _ _ _ (by omega) (types middle hmem source hsource)
            (types' field hfield middle hmiddle)

variable {s t : TypeExpr}

/-- A plain type in front: what stands before the middle type stands before the last one, once this
is known of the variants of the last one and of the rules for it as a whole. -/
theorem plain_chain {n : Nat} (chains : ChainsUpTo skips n) {u : TypeExpr} (plain : Plain s)
    (size : sizeOf s + sizeOf t + sizeOf u ≤ n + 1) (h : AssignableBy skips s t) (middle : Plain t)
    (h' : AssignableBy Harmless t u) (whole : Plain u → AssignableBy skips s u) :
    AssignableBy skips s u := by
  cases u with
  | any => exact .any s
  | union us =>
    cases h' with
    | refl | sources each => exact middle.elim
    | variant plain' mem meets =>
      have hsize := sizeOf_lt_of_mem mem
      simp only [TypeExpr.union.sizeOf_spec] at size
      exact .variant plain mem (chains _ _ _ (by omega) h meets)
  | _ => exact whole trivial

theorem chains_upTo (composes : Composes skips) (n : Nat) : ChainsUpTo skips n := by
  induction n with
  | zero =>
    intro s t u size
    have hpositive : 0 < sizeOf s := by cases s <;> simp +arith
    omega
  | succ n ih =>
    intro s t u size h h'
    have hwhole := h
    cases h with
    | any source =>
      rw [eq_any_of_any h']
      exact .any _
    | refl ty => exact h'.mono composes.harmless
    | @sources sources target each =>
      refine .sources fun source hsource => ?_
      have hsize := sizeOf_lt_of_mem hsource
      simp only [TypeExpr.union.sizeOf_spec] at size
      exact ih _ _ _ (by omega) (each source hsource) h'
    | @variant source target targets plain mem meets =>
      have hsize := sizeOf_lt_of_mem mem
      simp only [TypeExpr.union.sizeOf_spec] at size
      cases h' with
      | any => exact .any _
      | refl => exact hwhole
      | sources each => exact ih _ _ _ (by omega) meets (each _ mem)
      | variant plain' _ _ => exact plain'.elim
    | intFloat | enumStr values | objectDict fields =>
      refine plain_chain ih trivial size hwhole trivial h' fun hplain => ?_
      cases h' with
      | any | variant => exact hplain.elim
      | refl => exact hwhole
    | @enum sources targets subset =>
      refine plain_chain ih trivial size hwhole trivial h' fun hplain => ?_
      cases h' with
      | any | variant => exact hplain.elim
      | refl => exact hwhole
      | enumStr => exact .enumStr sources
      | enum subset' => exact .enum fun value hvalue => subset' value (subset value hvalue)
    | @list source target item =>
      refine plain_chain ih trivial size hwhole trivial h' fun hplain => ?_
      cases h' with
      | any | variant => exact hplain.elim
      | refl => exact hwhole
      | list item' =>
        simp only [TypeExpr.list.sizeOf_spec] at size
        exact .list (ih _ _ _ (by omega) item item')
    | @object sources targets missing required types =>
      refine plain_chain ih trivial size hwhole trivial h' fun hplain => ?_
      have hlast := h'
      cases h' with
      | any | variant => exact hplain.elim
      | refl => exact hwhole
      | objectDict => exact .objectDict sources
      | object missing' required' types' =>
        simp only [TypeExpr.object.sizeOf_spec] at size
        exact object_chain composes ih (by omega) hwhole hlast
    | @process input output input' output' count inputs outputs =>
      refine plain_chain ih trivial size hwhole trivial h' fun hplain => ?_
      cases h' with
      | any | variant => exact hplain.elim
      | refl => exact hwhole
      | process _ inputs' outputs' =>
        simp only [process.sizeOf_spec] at size
        exact .process count (ih _ _ _ (by omega) inputs inputs')
          (ih _ _ _ (by omega) outputs outputs')
    | @triggerHandle source target event =>
      refine plain_chain ih trivial size hwhole trivial h' fun hplain => ?_
      cases h' with
      | any | variant => exact hplain.elim
      | refl => exact hwhole
      | triggerHandle event' =>
        simp only [triggerHandle.sizeOf_spec] at size
        exact .triggerHandle (ih _ _ _ (by omega) event event')

theorem AssignableBy.chain (composes : Composes skips) {u : TypeExpr} (h : AssignableBy skips s t)
    (h' : AssignableBy Harmless t u) : AssignableBy skips s u :=
  chains_upTo composes _ s t u (Nat.le_refl _) h h'

/-! ## The check decides the rules -/

/-- What a plain source asks of a target that is no union. -/
def meets : TypeExpr → TypeExpr → Bool
  | .int, t => TypeExpr.int.same t || match t with
      | .float => true
      | _ => false
  | .enum sources, t => (TypeExpr.enum sources).same t || match t with
      | .str => true
      | .enum targets => sources.all targets.contains
      | _ => false
  | .list source, t => (TypeExpr.list source).same t || match t with
      | .list item => isResolvedTypeAssignable source item
      | _ => false
  | .object source, t => (TypeExpr.object source).same t || match t with
      | .dict => true
      | .object fields => fields.all fun field => fieldAssignable source field
      | _ => false
  | .process input output count, t => (TypeExpr.process input output count).same t || match t with
      | .process targetInput targetOutput targetCount =>
        count == targetCount && isResolvedTypeAssignable input targetInput
          && isResolvedTypeAssignable output targetOutput
      | _ => false
  | .triggerHandle source, t => (TypeExpr.triggerHandle source).same t || match t with
      | .triggerHandle event => isResolvedTypeAssignable source event
      | _ => false
  | s, t => s.same t

theorem assignable_plain (plain : Plain s) :
    isResolvedTypeAssignable s t = meetsVariant (meets s) t := by
  cases s with
  | any | union variants => exact plain.elim
  | _ => simp only [isResolvedTypeAssignable]; rfl

theorem meetsOne_iff (met : TypeExpr → Bool) (variants : List TypeExpr) :
    meetsVariant.meetsOne met variants = true ↔
      ∃ variant ∈ variants, meetsVariant met variant = true := by
  induction variants with
  | nil => simp [meetsVariant.meetsOne]
  | cons variant rest ih => simp [meetsVariant.meetsOne, ih]

theorem fieldAssignable_iff (sources : List (TypeField TypeExpr)) (field : TypeField TypeExpr) :
    fieldAssignable sources field = true ↔
      (fieldNamed sources field.name = none → field.optional = true) ∧
      ∀ source, fieldNamed sources field.name = some source →
        (field.optional = true ∨ source.optional = false) ∧
          isResolvedTypeAssignable source.ty field.ty = true := by
  induction sources with
  | nil => simp [fieldAssignable, fieldNamed]
  | cons source rest ih =>
    obtain ⟨name, ty, optional⟩ := source
    by_cases hname : name = field.name
    · simp [fieldAssignable, fieldNamed, hname]
    · have hrest : fieldNamed (⟨name, ty, optional⟩ :: rest) field.name =
          fieldNamed rest field.name :=
        find?_cons_of_neg (by simpa using hname)
      rw [hrest, ← ih, fieldAssignable, if_neg (by simpa using hname)]

theorem allAssignable_iff (sources : List TypeExpr) (target : TypeExpr) :
    allAssignable sources target = true ↔
      ∀ source ∈ sources, isResolvedTypeAssignable source target = true := by
  induction sources with
  | nil => simp [allAssignable]
  | cons source rest ih => simp [allAssignable, ih]

theorem meets_self (s : TypeExpr) : meets s s = true := by
  have hsame := (same_iff s s).mpr rfl
  cases s <;> simp only [meets, hsame, Bool.true_or]

theorem meetsVariant_of_meets {met : TypeExpr → Bool} (h : met t = true) :
    meetsVariant met t = true := by
  cases t <;> simp [meetsVariant, h]

/-- The check follows the rules. -/
theorem assignable_of_rules (h : AssignableBy Skippable source target) :
    isResolvedTypeAssignable source target = true := by
  have hplain : ∀ {s t : TypeExpr}, Plain s → meets s t = true →
      isResolvedTypeAssignable s t = true := by
    intro s t plain hmeets
    rw [assignable_plain plain]
    exact meetsVariant_of_meets hmeets
  induction h with
  | any source => cases source <;> rfl
  | refl ty =>
    have hsame := (same_iff ty ty).mpr rfl
    cases ty with
    | any => rfl
    | union variants => simp [isResolvedTypeAssignable, hsame]
    | _ => exact hplain trivial (meets_self _)
  | sources each ih =>
    rw [isResolvedTypeAssignable, (allAssignable_iff _ _).mpr ih, Bool.or_true]
  | @variant source target targets plain mem _ ih =>
    rw [assignable_plain plain] at ih ⊢
    rw [meetsVariant, (meetsOne_iff _ _).mpr ⟨target, mem, ih⟩, Bool.or_true]
  | intFloat | enumStr values => exact hplain trivial rfl
  | @enum sources targets subset =>
    refine hplain trivial ?_
    simp only [meets, Bool.or_eq_true, all_eq_true, contains_iff_mem]
    exact Or.inr subset
  | list item ih | triggerHandle event ih =>
    exact hplain trivial (by simp only [meets, ih, Bool.or_true])
  | objectDict fields => exact hplain trivial (by simp only [meets, Bool.or_true])
  | object missing required types ih =>
    refine hplain trivial ?_
    simp only [meets, Bool.or_eq_true, all_eq_true]
    refine Or.inr fun field hfield => (fieldAssignable_iff _ _).mpr ⟨missing field hfield, ?_⟩
    exact fun source hsource =>
      ⟨required field hfield source hsource, ih field hfield source hsource⟩
  | process count inputs outputs ihInput ihOutput =>
    exact hplain trivial (by simp only [meets, ihInput, ihOutput, beq_self_eq_true, Bool.and_self,
      Bool.or_true])

/-- What is met as a whole is met by a rule, once this is known of smaller types. -/
theorem rules_of_meets {n : Nat}
    (smaller : ∀ s t : TypeExpr, sizeOf s + sizeOf t ≤ n → isResolvedTypeAssignable s t = true →
      AssignableBy Skippable s t) (plain : Plain s) (size : sizeOf s + sizeOf t ≤ n + 1)
    (h : meets s t = true) : AssignableBy Skippable s t := by
  have hsame : ∀ a b : TypeExpr, a.same b = true → AssignableBy Skippable a b := by
    intro a b hab
    rw [(same_iff a b).mp hab]
    exact .refl b
  cases s with
  | any | union variants => exact plain.elim
  | str | float | bool | dict | null | ref name => exact hsame _ _ h
  | int =>
    rcases Bool.or_eq_true_iff.mp h with hself | hrule
    · exact hsame _ _ hself
    · split at hrule
      · exact .intFloat
      · cases hrule
  | enum sources =>
    rcases Bool.or_eq_true_iff.mp h with hself | hrule
    · exact hsame _ _ hself
    · split at hrule
      · exact .enumStr sources
      · simp only [all_eq_true, contains_iff_mem] at hrule
        exact .enum hrule
      · cases hrule
  | list source =>
    rcases Bool.or_eq_true_iff.mp h with hself | hrule
    · exact hsame _ _ hself
    · split at hrule
      · simp only [TypeExpr.list.sizeOf_spec] at size
        exact .list (smaller _ _ (by omega) hrule)
      · cases hrule
  | object sources =>
    rcases Bool.or_eq_true_iff.mp h with hself | hrule
    · exact hsame _ _ hself
    · split at hrule
      · exact .objectDict sources
      · rename_i fields
        simp only [all_eq_true, fieldAssignable_iff] at hrule
        simp only [TypeExpr.object.sizeOf_spec] at size
        refine .object (fun field hfield => (hrule field hfield).1)
          (fun field hfield source hsource => ((hrule field hfield).2 source hsource).1)
          fun field hfield source hsource => ?_
        have hsize := sizeOf_ty_lt hfield
        have hsize' := sizeOf_ty_lt (fieldNamed_mem hsource).1
        exact smaller _ _ (by omega) ((hrule field hfield).2 source hsource).2
      · cases hrule
  | process input output count =>
    rcases Bool.or_eq_true_iff.mp h with hself | hrule
    · exact hsame _ _ hself
    · split at hrule
      · simp only [Bool.and_eq_true, beq_iff_eq] at hrule
        obtain ⟨⟨rfl, hinput⟩, houtput⟩ := hrule
        simp only [process.sizeOf_spec] at size
        exact .process count (smaller _ _ (by omega) hinput) (smaller _ _ (by omega) houtput)
      · cases hrule
  | triggerHandle source =>
    rcases Bool.or_eq_true_iff.mp h with hself | hrule
    · exact hsame _ _ hself
    · split at hrule
      · simp only [triggerHandle.sizeOf_spec] at size
        exact .triggerHandle (smaller _ _ (by omega) hrule)
      · cases hrule

theorem rules_of_assignable_upTo (n : Nat) : ∀ s t : TypeExpr, sizeOf s + sizeOf t ≤ n →
    isResolvedTypeAssignable s t = true → AssignableBy Skippable s t := by
  induction n with
  | zero =>
    intro s t size
    have hpositive : 0 < sizeOf s := by cases s <;> simp +arith
    omega
  | succ n ih =>
    intro s t size h
    by_cases hplain : Plain s
    · rw [assignable_plain hplain] at h
      cases t with
      | any => exact .any s
      | union variants =>
        rw [meetsVariant, Bool.or_eq_true] at h
        rcases h with hwhole | hone
        · exact rules_of_meets ih hplain size hwhole
        · obtain ⟨variant, hmem, hmeets⟩ := (meetsOne_iff _ _).mp hone
          have hsize := sizeOf_lt_of_mem hmem
          simp only [TypeExpr.union.sizeOf_spec] at size
          rw [← assignable_plain hplain] at hmeets
          exact .variant hplain hmem (ih _ _ (by omega) hmeets)
      | _ => exact rules_of_meets ih hplain size h
    · cases s with
      | any =>
        rw [isResolvedTypeAssignable, same_iff] at h
        rw [h]
        exact .any _
      | union sources =>
        simp only [isResolvedTypeAssignable, Bool.or_eq_true, same_iff] at h
        rcases h with (rfl | rfl) | hall
        · exact .any _
        · exact .refl _
        · refine .sources fun source hsource => ?_
          have hsize := sizeOf_lt_of_mem hsource
          simp only [TypeExpr.union.sizeOf_spec] at size
          exact ih _ _ (by omega) ((allAssignable_iff _ _).mp hall source hsource)
      | _ => exact absurd trivial hplain

/-- The check decides the rules that skip every optional field. -/
theorem isResolvedTypeAssignable_iff (s t : TypeExpr) :
    isResolvedTypeAssignable s t = true ↔ AssignableBy Skippable s t :=
  ⟨rules_of_assignable_upTo _ s t (Nat.le_refl _), assignable_of_rules⟩

/-! ## Values -/

theorem acceptsFields_iff (fields : List (TypeField TypeExpr)) (lookup : String → Option Value) :
    acceptsFields (planFields fields) lookup = true ↔
      ∀ field ∈ fields, (lookup field.name = none → field.optional = true) ∧
        ∀ value, lookup field.name = some value → (planOf field.ty).accepts value = true := by
  induction fields with
  | nil => simp [planFields, acceptsFields]
  | cons field rest ih =>
    obtain ⟨name, ty, optional⟩ := field
    rw [planFields, acceptsFields, Bool.and_eq_true, ih, forall_mem_cons]
    refine and_congr_left fun _ => ?_
    cases lookup name <;> simp

theorem acceptsOne_iff (types : List TypeExpr) (value : Value) :
    acceptsOne (planAll types) value = true ↔ ∃ ty ∈ types, (planOf ty).accepts value = true := by
  induction types with
  | nil => simp [planAll, acceptsOne]
  | cons ty rest ih => simp [planAll, acceptsOne, ih]

theorem accepts_object {value : Value} : (planOf (.object fields)).accepts value = true ↔
      ∃ lookup, fieldsOf value = some lookup ∧ acceptsFields (planFields fields) lookup = true := by
  rw [planOf, accepts, Option.any_eq_true]

/-- A value that the plan of the source accepts is accepted by the plan of the target. -/
theorem accepts_of_rules (h : AssignableBy Harmless source target) :
    ∀ value, (planOf source).accepts value = true → (planOf target).accepts value = true := by
  induction h with
  | any source | process count inputs outputs _ _ | triggerHandle event _ => exact fun _ _ => rfl
  | refl ty => exact fun _ accepted => accepted
  | sources each ih =>
    intro value accepted
    obtain ⟨source, hsource, haccepted⟩ := (acceptsOne_iff _ value).mp accepted
    exact ih source hsource value haccepted
  | variant plain mem meets ih =>
    exact fun value accepted => (acceptsOne_iff _ value).mpr ⟨_, mem, ih value accepted⟩
  | intFloat =>
    intro value accepted
    cases value with
    | number n =>
      simp only [planOf, accepts, PrimitiveMask.accepts, PrimitiveMask.ofValue]
        at accepted ⊢
      by_cases hfinite : n.isFinite
      · by_cases hwhole : ScriptNumbers.isIntegral n <;> simp [hfinite, hwhole]
      · simp [hfinite] at accepted
    | _ => cases accepted
  | enumStr values =>
    intro value accepted
    cases value with
    | string text => rfl
    | _ => cases accepted
  | enum subset =>
    intro value accepted
    cases value with
    | string text =>
      simp only [planOf, accepts, contains_iff_mem] at accepted ⊢
      exact subset text accepted
    | _ => cases accepted
  | list item ih =>
    intro value accepted
    rw [planOf, accepts, Option.any_eq_true] at accepted ⊢
    obtain ⟨items, hitems, hall⟩ := accepted
    refine ⟨items, hitems, all_eq_true.mpr fun element hmem => ?_⟩
    exact ih element (all_eq_true.mp hall element hmem)
  | objectDict fields =>
    intro value accepted
    obtain ⟨lookup, hlookup, _⟩ := accepts_object.mp accepted
    rw [planOf, accepts, Option.any_eq_true]
    exact ⟨lookup, hlookup, rfl⟩
  | object missing required types ih =>
    intro value accepted
    obtain ⟨lookup, hlookup, hfields⟩ := accepts_object.mp accepted
    rw [acceptsFields_iff] at hfields
    refine accepts_object.mpr ⟨lookup, hlookup, (acceptsFields_iff _ _).mpr fun field hfield => ?_⟩
    cases hsource : fieldNamed _ field.name with
    | none =>
      obtain ⟨hoptional, hany⟩ := missing field hfield hsource
      rw [hany]
      exact ⟨fun _ => hoptional, fun _ _ => rfl⟩
    | some source =>
      obtain ⟨hmem, hname⟩ := fieldNamed_mem hsource
      obtain ⟨habsent, hpresent⟩ := hfields source hmem
      rw [hname] at habsent hpresent
      refine ⟨fun hnone => ?_, fun found hfound => ?_⟩
      · refine (required field hfield source hsource).elim id fun hrequired => ?_
        rw [habsent hnone] at hrequired
        cases hrequired
      · exact ih field hfield source hsource found (hpresent found hfound)

theorem acceptedBy_iff {ty : TypeExpr} (resolved : Resolved ty) (distinct : Distinct ty)
    (value : Value) : AcceptedBy ty value ↔ (planOf ty).accepts value = true := by
  obtain ⟨schema, hfold, hcompile⟩ := compile_fold ty resolved distinct
  constructor
  · rintro ⟨schema', hfold', haccepts⟩
    obtain rfl := Option.some.inj (hfold.symm.trans hfold')
    rw [← hcompile, haccepts]
  · exact fun haccepts => ⟨schema, hfold, by rw [hcompile, haccepts]⟩

/-- The check is reflexive. It composes with a check that skips no optional field but one that takes
every value; such checks are a preorder, and what the schema of the source accepts, the schema of
the target accepts too. -/
theorem assignable_laws : (∀ t, isResolvedTypeAssignable t t = true) ∧
    (∀ s t, AssignableBy Harmless s t → isResolvedTypeAssignable s t = true) ∧
    (∀ s t u, isResolvedTypeAssignable s t = true → AssignableBy Harmless t u →
      isResolvedTypeAssignable s u = true) ∧
    (∀ s t u, AssignableBy Harmless s t → AssignableBy Harmless t u → AssignableBy Harmless s u) ∧
    (∀ s t, Resolved s → Resolved t → Distinct s → Distinct t → AssignableBy Harmless s t →
      ∀ value, AcceptedBy s value → AcceptedBy t value) := by
  refine ⟨fun t => ?_, fun s t h => ?_, fun s t u h h' => ?_, fun s t u h h' => ?_, ?_⟩
  · exact (isResolvedTypeAssignable_iff t t).mpr (.refl t)
  · exact (isResolvedTypeAssignable_iff s t).mpr (h.mono composes_skippable.harmless)
  · rw [isResolvedTypeAssignable_iff] at h ⊢
    exact h.chain composes_skippable h'
  · exact h.chain composes_harmless h'
  · intro s t hs ht hs' ht' h value haccepted
    rw [acceptedBy_iff hs hs'] at haccepted
    rw [acceptedBy_iff ht ht']
    exact accepts_of_rules h value haccepted

def textField : TypeField TypeExpr := ⟨"x", .str, false⟩

def wholeField (optional : Bool) : TypeField TypeExpr := ⟨"x", .int, optional⟩

/-- An object may stand for one with more fields, and then for one with fewer. -/
theorem assignable_laws_narrowed :
    isResolvedTypeAssignable (.object [textField]) (.object []) = true ∧
      AcceptedBy (.object []) (.record [("x", .string "a")]) := by
  have hrules : AssignableBy Harmless (.object [textField]) (.object []) :=
    .object (fun _ h => (by cases h)) (fun _ h => (by cases h)) fun _ h => (by cases h)
  refine ⟨assignable_laws.2.1 _ _ hrules, ?_⟩
  exact assignable_laws.2.2.2.2 (.object [textField]) (.object []) ⟨trivial, trivial⟩ trivial
    ⟨by decide, trivial, trivial⟩ ⟨by decide, trivial⟩ hrules _ ⟨_, rfl, rfl⟩

/-- An optional field is skipped and then found with another type, so the check is no preorder and
does not agree with the schemas; and an object that names a field twice is checked by the first one
and has the schema of the last one. -/
theorem optional_field_breaks_chain :
    (isResolvedTypeAssignable (.object [textField]) (.object []) = true ∧
      isResolvedTypeAssignable (.object []) (.object [wholeField true]) = true ∧
      isResolvedTypeAssignable (.object [textField]) (.object [wholeField true]) = false) ∧
    (AcceptedBy (.object []) (.record [("x", .string "a")]) ∧
      ¬ AcceptedBy (.object [wholeField true]) (.record [("x", .string "a")])) ∧
    (isResolvedTypeAssignable (.object [wholeField false, textField])
        (.object [wholeField false]) = true ∧
      AcceptedBy (.object [wholeField false, textField]) (.record [("x", .string "a")]) ∧
      ¬ AcceptedBy (.object [wholeField false]) (.record [("x", .string "a")])) := by
  have hrefused : ∀ optional, ¬ AcceptedBy (.object [wholeField optional])
      (.record [("x", .string "a")]) := by
    rintro optional ⟨schema, hfold, haccepts⟩
    cases optional <;> cases hfold <;> cases haccepts
  exact ⟨by decide, ⟨⟨_, rfl, rfl⟩, hrefused true⟩, by decide, ⟨_, rfl, rfl⟩, hrefused false⟩

end TypeAssignability
