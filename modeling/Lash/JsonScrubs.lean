import Lash.ScriptBuiltins

/-!
# Scrubbing the JSON of a commit

Before a commit is hashed some entries of its JSON are removed: in every object, at any
depth, the four keys of generated fields, and in an object that has the keys of a message or
of a message part also its id. What a structure is written as is a record of fields, some of
them absent.
-/

namespace JsonScrubs

open ScriptBuiltins

universe u v

/-! ## The scrubbing -/

def volatileKeys : List String := ["node_id", "parent_node_id", "leaf_node_id", "timestamp"]

variable (keys : List String)

def isMessage : Bool := keys.contains "role" && keys.contains "parts"

def isMessagePart : Bool :=
  keys.contains "kind" && keys.contains "content" && keys.contains "prune_state"

/-- Whether the entry of this key is removed from an object with these keys. -/
def removed (key : String) : Bool :=
  (isMessage keys || isMessagePart keys) && key == "id" || volatileKeys.contains key

mutual
/-- The source's `scrub_turn_commit_hash_value`. -/
def scrub : Json → Json
  | .object map => .object (scrubEntries (map.map Prod.fst) map)
  | .array items => .array (scrubItems items)
  | .null => .null
  | .bool value => .bool value
  | .number value => .number value
  | .string value => .string value
def scrubItems : List Json → List Json
  | [] => []
  | item :: items => scrub item :: scrubItems items
def scrubEntries (keys : List String) : List (String × Json) → List (String × Json)
  | [] => []
  | (key, child) :: map =>
    if removed keys key then scrubEntries keys map
    else (key, scrub child) :: scrubEntries keys map
end

@[simp] theorem scrub_null : scrub .null = .null := rfl

@[simp] theorem scrub_bool (value : Bool) : scrub (.bool value) = .bool value := rfl

@[simp] theorem scrub_number (value : JsonNumber) : scrub (.number value) = .number value := rfl

@[simp] theorem scrub_string (value : String) : scrub (.string value) = .string value := rfl

@[simp] theorem scrubItems_eq (items : List Json) : scrubItems items = items.map scrub := by
  induction items with
  | nil => simp [scrubItems]
  | cons item items ih => simp [scrubItems, ih]

@[simp] theorem scrub_array (items : List Json) :
    scrub (.array items) = .array (items.map scrub) := by
  simp [scrub]

/-! ## Records -/

variable (fields : List (String × Option Json))

/-- The JSON of a structure: its fields in order, without the skipped ones. -/
def record : Json :=
  .object (fields.filterMap fun field => field.2.map (Prod.mk field.1))

def presentKeys : List String :=
  (fields.filter fun field => field.2.isSome).map Prod.fst

def scrubFields (fields : List (String × Option Json)) : List (String × Option Json) :=
  fields.map fun field => (field.1, if removed keys field.1 then none else field.2.map scrub)

@[simp] theorem scrubFields_nil : scrubFields keys [] = [] := rfl

@[simp] theorem scrubFields_cons (key : String) (value : Option Json)
    (fields : List (String × Option Json)) :
    scrubFields keys ((key, value) :: fields) =
      (key, if removed keys key then none else value.map scrub) :: scrubFields keys fields := rfl

theorem keys_scrubFields (fields : List (String × Option Json)) :
    (scrubFields keys fields).map Prod.fst = fields.map Prod.fst := by
  simp [scrubFields, Function.comp_def]

theorem map_fst_presentFields :
    (fields.filterMap fun field => field.2.map (Prod.mk field.1)).map Prod.fst =
      presentKeys fields := by
  induction fields with
  | nil => rfl
  | cons field fields ih =>
    obtain ⟨key, _ | value⟩ := field
    · simpa [presentKeys] using ih
    · simpa [presentKeys] using ih

theorem scrubEntries_presentFields (fields : List (String × Option Json)) :
    scrubEntries keys (fields.filterMap fun field => field.2.map (Prod.mk field.1)) =
      (scrubFields keys fields).filterMap fun field => field.2.map (Prod.mk field.1) := by
  induction fields with
  | nil => simp [scrubEntries]
  | cons field fields ih =>
    obtain ⟨key, _ | value⟩ := field
    · by_cases h : removed keys key
      · simpa [h] using ih
      · simpa [h] using ih
    · by_cases h : removed keys key
      · simpa [scrubEntries, h] using ih
      · simpa [scrubEntries, h] using ih

theorem scrub_record :
    scrub (record fields) = record (scrubFields (presentKeys fields) fields) := by
  rw [record, scrub, map_fst_presentFields, scrubEntries_presentFields]
  rfl

theorem record_mem_keys {fields : List (String × Option Json)} {key : String} {value : Json}
    (h : (key, value) ∈ fields.filterMap fun field => field.2.map (Prod.mk field.1)) :
    key ∈ fields.map Prod.fst := by
  obtain ⟨field, hfield, heq⟩ := List.mem_filterMap.mp h
  obtain ⟨_, -, heq⟩ := Option.map_eq_some_iff.mp heq
  cases heq
  exact List.mem_map_of_mem hfield

theorem presentFields_inj : ∀ {fields others : List (String × Option Json)},
    fields.map Prod.fst = others.map Prod.fst → (fields.map Prod.fst).Nodup →
    (fields.filterMap fun field => field.2.map (Prod.mk field.1)) =
      (others.filterMap fun field => field.2.map (Prod.mk field.1)) → fields = others
  | [], [], _, _, _ => rfl
  | [], _ :: _, hkeys, _, _ => by simp at hkeys
  | _ :: _, [], hkeys, _, _ => by simp at hkeys
  | (key, value) :: fields, (key', value') :: others, hkeys, hnodup, h => by
      simp only [List.map_cons, List.cons.injEq] at hkeys
      obtain ⟨rfl, hrest⟩ := hkeys
      simp only [List.map_cons, List.nodup_cons] at hnodup
      -- The key of an absent field stands nowhere else, so presence agrees at the head.
      cases value with
      | none =>
        cases value' with
        | none =>
          have := presentFields_inj hrest hnodup.2 (by simpa using h)
          rw [this]
        | some value' =>
          have hmem : (key, value') ∈
              fields.filterMap fun field => field.2.map (Prod.mk field.1) := by
            have := h
            simp only [List.filterMap_cons, Option.map_none, Option.map_some] at this
            rw [this]
            exact List.mem_cons_self
          exact absurd (record_mem_keys hmem) hnodup.1
      | some value =>
        cases value' with
        | none =>
          have hmem : (key, value) ∈
              others.filterMap fun field => field.2.map (Prod.mk field.1) := by
            have := h
            simp only [List.filterMap_cons, Option.map_none, Option.map_some] at this
            rw [← this]
            exact List.mem_cons_self
          exact absurd (hrest ▸ record_mem_keys hmem) hnodup.1
        | some value' =>
          simp only [List.filterMap_cons, Option.map_some, List.cons.injEq, Prod.mk.injEq,
            true_and] at h
          rw [h.1, presentFields_inj hrest hnodup.2 h.2]

/-- Records of the same fields are scrubbed to the same value if their fields are. -/
theorem scrub_record_inj {fields others : List (String × Option Json)}
    (hkeys : fields.map Prod.fst = others.map Prod.fst) (hnodup : (fields.map Prod.fst).Nodup) :
    scrub (record fields) = scrub (record others) ↔
      scrubFields (presentKeys fields) fields = scrubFields (presentKeys others) others := by
  rw [scrub_record, scrub_record, record, record, Json.object.injEq]
  refine ⟨fun h => presentFields_inj ?_ ?_ h, fun h => by rw [h]⟩
  · rw [keys_scrubFields, keys_scrubFields, hkeys]
  · rw [keys_scrubFields]
    exact hnodup

/-- The first field stays where it is, so it tells records of different shapes apart. -/
theorem scrub_record_cons {key : String} {value : Json} {fields : List (String × Option Json)}
    (hid : key ≠ "id") (hvolatile : key ∉ volatileKeys) :
    ∃ rest, scrub (record ((key, some value) :: fields)) =
      .object ((key, scrub value) :: rest) := by
  have hstays (keys : List String) : removed keys key = false := by
    simp [removed, hid, hvolatile]
  rw [scrub_record, scrubFields_cons, hstays]
  exact ⟨_, rfl⟩

theorem scrub_record_ne {key other : String} {value otherValue : Json}
    {fields others : List (String × Option Json)} (hid : key ≠ "id") (hotherId : other ≠ "id")
    (hvolatile : key ∉ volatileKeys) (hotherVolatile : other ∉ volatileKeys)
    (hne : key ≠ other ∨ scrub value ≠ scrub otherValue) :
    scrub (record ((key, some value) :: fields)) ≠
      scrub (record ((other, some otherValue) :: others)) := by
  obtain ⟨_, hfields⟩ := @scrub_record_cons key value fields hid hvolatile
  obtain ⟨_, hothers⟩ := @scrub_record_cons other otherValue others hotherId hotherVolatile
  rw [hfields, hothers]
  intro h
  simp only [Json.object.injEq, List.cons.injEq, Prod.mk.injEq] at h
  rcases hne with hne | hne
  · exact hne h.1.1
  · exact hne h.1.2

theorem mem_presentKeys {fields : List (String × Option Json)} {key : String} :
    key ∈ presentKeys fields ↔ ∃ value, (key, some value) ∈ fields := by
  simp only [presentKeys, List.mem_map, List.mem_filter, Option.isSome_iff_exists]
  constructor
  · rintro ⟨⟨_, _⟩, ⟨hmem, value, rfl⟩, rfl⟩
    exact ⟨value, hmem⟩
  · rintro ⟨value, hmem⟩
    exact ⟨_, ⟨hmem, value, rfl⟩, rfl⟩

/-! ## What scrubbed values show -/

/-- Two values are scrubbed to the same JSON exactly if they agree in what they mean. -/
def Shows {A : Type u} {B : Type v} (toJson : A → Json) (semantic : A → B) : Prop :=
  ∀ a b, scrub (toJson a) = scrub (toJson b) ↔ semantic a = semantic b

namespace Shows

variable {A : Type u} {B : Type v} {toJson : A → Json} {semantic : A → B}

theorem map_eq_iff (h : Shows toJson semantic) : ∀ as bs : List A,
    as.map (scrub ∘ toJson) = bs.map (scrub ∘ toJson) ↔ as.map semantic = bs.map semantic
  | [], [] => by simp
  | [], _ :: _ => by simp
  | _ :: _, [] => by simp
  | a :: as, b :: bs => by
      have := map_eq_iff h as bs
      simp only [List.map_cons, List.cons.injEq, Function.comp_apply, this, h a b]

theorem array (h : Shows toJson semantic) :
    Shows (fun as : List A => .array (as.map toJson)) (List.map semantic) := by
  intro as bs
  simp only [scrub_array, List.map_map, Json.array.injEq]
  exact h.map_eq_iff as bs

theorem field_eq_iff (h : Shows toJson semantic) (a b : Option A) :
    a.map (scrub ∘ toJson) = b.map (scrub ∘ toJson) ↔ a.map semantic = b.map semantic := by
  cases a with
  | none => cases b <;> simp
  | some a =>
    cases b with
    | none => simp
    | some b => simpa using h a b

/-- An absent value is written as `null`, which no present one is. -/
theorem nullable (h : Shows toJson semantic) (hnull : ∀ a, scrub (toJson a) ≠ .null) :
    Shows (fun a : Option A => a.elim .null toJson) (Option.map semantic) := by
  intro a b
  cases a with
  | none =>
    cases b with
    | none => simp
    | some b => simpa using (hnull b).symm
  | some a =>
    cases b with
    | none => simpa using hnull a
    | some b => simpa using h a b

end Shows

end JsonScrubs
