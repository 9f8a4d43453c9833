import Mathlib.Data.String.Basic

/-!
# Maps from names, in the order of the names

A map from names to values whose entries stand in the order of the names, each name once.
-/

namespace NameTables

open List Option

structure Table (V : Type) where
  entries : List (String × V)
  ordered : entries.Pairwise fun a b => a.1 < b.1

variable {V W : Type}

namespace Table

def empty : Table V := ⟨[], .nil⟩

instance : Inhabited (Table V) := ⟨empty⟩

def get (table : Table V) (name : String) : Option V :=
  (table.entries.find? fun entry => entry.1 == name).map Prod.snd

def has (table : Table V) (name : String) : Bool := (table.get name).isSome

def insertInto (name : String) (value : V) : List (String × V) → List (String × V)
  | [] => [(name, value)]
  | entry :: rest =>
    if name < entry.1 then (name, value) :: entry :: rest
    else if entry.1 = name then (name, value) :: rest
    else entry :: insertInto name value rest

variable {entries : List (String × V)} {name : String} {value : V}

theorem mem_insertInto {entry : String × V} (h : entry ∈ insertInto name value entries) :
    entry = (name, value) ∨ entry ∈ entries := by
  induction entries with
  | nil => exact .inl (mem_singleton.mp h)
  | cons first rest ih =>
    unfold insertInto at h
    split at h
    · exact mem_cons.mp h
    · split at h
      · rcases mem_cons.mp h with h | h
        · exact .inl h
        · exact .inr (mem_cons_of_mem _ h)
      · rcases mem_cons.mp h with h | h
        · exact .inr (h ▸ mem_cons_self)
        · exact (ih h).imp_right (mem_cons_of_mem _)

theorem insertInto_ordered (name : String) (value : V)
    (ordered : entries.Pairwise fun a b => a.1 < b.1) :
    (insertInto name value entries).Pairwise fun a b => a.1 < b.1 := by
  induction entries with
  | nil => exact pairwise_singleton _ _
  | cons first rest ih =>
    obtain ⟨hfirst, hrest⟩ := pairwise_cons.mp ordered
    unfold insertInto
    split
    next hlt =>
      refine pairwise_cons.mpr ⟨fun entry hmem => ?_, ordered⟩
      rcases mem_cons.mp hmem with rfl | hmem
      · exact hlt
      · exact lt_trans hlt (hfirst entry hmem)
    next hlt =>
      split
      next heq => exact pairwise_cons.mpr ⟨fun entry hmem => heq ▸ hfirst entry hmem, hrest⟩
      next hne =>
        refine pairwise_cons.mpr ⟨fun entry hmem => ?_, ih hrest⟩
        rcases mem_insertInto hmem with rfl | hmem
        · exact lt_of_le_of_ne (not_lt.mp hlt) hne
        · exact hfirst entry hmem

def set (name : String) (value : V) (table : Table V) : Table V :=
  ⟨insertInto name value table.entries, insertInto_ordered name value table.ordered⟩

def remove (name : String) (table : Table V) : Table V :=
  ⟨table.entries.filter fun entry => entry.1 != name, table.ordered.filter _⟩

variable (keep : String → V → Bool)

def retain (table : Table V) : Table V :=
  ⟨table.entries.filter fun entry => keep entry.1 entry.2, table.ordered.filter _⟩

variable (f : String → V → W)

def mapValues (table : Table V) : Table W :=
  ⟨table.entries.map fun entry => (entry.1, f entry.1 entry.2),
    List.pairwise_map.mpr table.ordered⟩

def ofList (entries : List (String × V)) : Table V :=
  entries.foldl (fun table entry => table.set entry.1 entry.2) empty

theorem find_insertInto_self (name : String) (value : V) (entries : List (String × V)) :
    (insertInto name value entries).find? (fun entry => entry.1 == name) = some (name, value) := by
  induction entries with
  | nil => simp [insertInto]
  | cons first rest ih =>
    unfold insertInto
    split
    · simp
    · split
      · simp
      next hne => rw [find?_cons_of_neg (by simpa using hne), ih]

theorem find_insertInto_ne {other : String} (hne : other ≠ name) (value : V)
    (entries : List (String × V)) :
    (insertInto name value entries).find? (fun entry => entry.1 == other) =
      entries.find? fun entry => entry.1 == other := by
  induction entries with
  | nil => simp [insertInto, Ne.symm hne]
  | cons first rest ih =>
    unfold insertInto
    split
    · rw [find?_cons_of_neg (by simpa using Ne.symm hne)]
    · split
      next heq =>
        rw [find?_cons_of_neg (by simpa using Ne.symm hne),
          find?_cons_of_neg (by simpa [heq] using Ne.symm hne)]
      · rw [find?_cons, find?_cons, ih]

theorem get_set (name other : String) (value : V) (table : Table V) :
    (table.set name value).get other = if other = name then some value else table.get other := by
  split
  next heq => rw [heq, get, set, find_insertInto_self]; rfl
  next hne => rw [get, set, find_insertInto_ne hne, get]

theorem mem_entries_iff {table : Table V} :
    (name, value) ∈ table.entries ↔ table.get name = some value := by
  constructor
  · intro hmem
    have hfound : (table.entries.find? fun entry => entry.1 == name) ≠ none := by
      intro hnone
      exact find?_eq_none.mp hnone (name, value) hmem (by simp)
    obtain ⟨entry, hentry⟩ := ne_none_iff_exists'.mp hfound
    have hname : entry.1 = name := by simpa using find?_some hentry
    have hsame : entry = (name, value) := by
      refine List.Pairwise.forall_of_forall_of_flip (R := fun a b => a.1 = b.1 → a = b) ?_ ?_ ?_
        (mem_of_find?_eq_some hentry) hmem hname
      · exact fun _ _ _ => rfl
      · exact table.ordered.imp fun hlt heq => absurd heq (ne_of_lt hlt)
      · exact table.ordered.imp fun hlt heq => absurd heq.symm (ne_of_lt hlt)
    rw [get, hentry, hsame]
    rfl
  · intro hget
    obtain ⟨entry, hentry, rfl⟩ := map_eq_some_iff.mp hget
    have hname : entry.1 = name := by simpa using find?_some hentry
    exact hname ▸ mem_of_find?_eq_some hentry

/-- Tables with the same values under the same names are the same. -/
theorem ext {table other : Table V} (h : ∀ name, table.get name = other.get name) :
    table = other := by
  have hmem : ∀ entry, entry ∈ table.entries ↔ entry ∈ other.entries := fun entry => by
    rw [@mem_entries_iff _ entry.1 entry.2, h, ← mem_entries_iff]
  have hperm : table.entries.Perm other.entries :=
    (perm_ext_iff_of_nodup
      (table.ordered.imp fun hlt heq => absurd (congrArg Prod.fst heq) (ne_of_lt hlt))
      (other.ordered.imp fun hlt heq => absurd (congrArg Prod.fst heq) (ne_of_lt hlt))).mpr hmem
  have heq : table.entries = other.entries :=
    hperm.eq_of_pairwise (fun _ _ _ _ hlt hgt => absurd hgt (lt_asymm hlt))
      table.ordered other.ordered
  cases table
  cases other
  cases heq
  rfl

theorem get_retain (name : String) (table : Table V) :
    (table.retain keep).get name = (table.get name).filter (keep name) := by
  cases hget : table.get name with
  | none =>
    cases hkept : (table.retain keep).get name with
    | none => rfl
    | some value =>
      have hmem := (mem_filter.mp (mem_entries_iff.mpr hkept)).1
      rw [mem_entries_iff, hget] at hmem
      cases hmem
  | some value =>
    have hmem := mem_entries_iff.mpr hget
    cases hkeep : keep name value with
    | true =>
      have hkept : (name, value) ∈ (table.retain keep).entries := mem_filter.mpr ⟨hmem, hkeep⟩
      rw [mem_entries_iff.mp hkept, filter_some, hkeep]
      rfl
    | false =>
      cases hkept : (table.retain keep).get name with
      | none =>
        rw [filter_some, hkeep]
        rfl
      | some other =>
        obtain ⟨hother, htrue⟩ := mem_filter.mp (mem_entries_iff.mpr hkept)
        rw [mem_entries_iff, hget, some.injEq] at hother
        rw [← hother, hkeep] at htrue
        cases htrue

theorem get_remove (removed name : String) (table : Table V) :
    (table.remove removed).get name = if name = removed then none else table.get name := by
  have h : table.remove removed = table.retain fun other _ => other != removed := rfl
  rw [h, get_retain]
  split
  next heq => cases table.get name <;> simp [heq]
  next hne => cases table.get name <;> simp [hne]

theorem get_mapValues (name : String) (table : Table V) :
    (table.mapValues f).get name = (table.get name).map (f name) := by
  cases hget : table.get name with
  | none =>
    cases hmapped : (table.mapValues f).get name with
    | none => rfl
    | some value =>
      obtain ⟨entry, hentry, heq⟩ := mem_map.mp (mem_entries_iff.mpr hmapped)
      have hname : entry.1 = name := congrArg Prod.fst heq
      have hmem : (name, entry.2) ∈ table.entries := hname ▸ hentry
      rw [mem_entries_iff, hget] at hmem
      cases hmem
  | some value =>
    exact mem_entries_iff.mp (mem_map.mpr ⟨(name, value), mem_entries_iff.mpr hget, rfl⟩)

theorem get_foldl_set_of_not_mem (hne : ∀ entry ∈ entries, entry.1 ≠ name) (table : Table W) :
    (entries.foldl (fun table entry => table.set entry.1 (f entry.1 entry.2)) table).get name =
      table.get name := by
  induction entries generalizing table with
  | nil => rfl
  | cons entry rest ih =>
    have hentry := hne entry mem_cons_self
    rw [foldl_cons, ih (fun other hother => hne other (mem_cons_of_mem _ hother)),
      get_set, if_neg (Ne.symm hentry)]

/-- Setting what a function makes of the entries of a table, one after another. -/
theorem get_foldl_set_of_mem (ordered : entries.Pairwise fun a b => a.1 < b.1)
    (hmem : (name, value) ∈ entries) (table : Table W) :
    (entries.foldl (fun table entry => table.set entry.1 (f entry.1 entry.2)) table).get name =
      some (f name value) := by
  induction entries generalizing table with
  | nil => cases hmem
  | cons entry rest ih =>
    obtain ⟨hentry, hrest⟩ := pairwise_cons.mp ordered
    rcases mem_cons.mp hmem with rfl | hmem
    · have hlater : ∀ other ∈ rest, other.1 ≠ name := fun other hother =>
        ne_of_gt (hentry other hother)
      rw [foldl_cons, get_foldl_set_of_not_mem f hlater, get_set, if_pos rfl]
    · exact ih hrest hmem _

theorem foldl_set_eq_mapValues (table : Table V) :
    table.entries.foldl (fun made entry => made.set entry.1 (f entry.1 entry.2)) empty =
      table.mapValues f := by
  refine ext fun name => ?_
  rw [get_mapValues]
  cases hget : table.get name with
  | none =>
    have hne : ∀ entry ∈ table.entries, entry.1 ≠ name := by
      rintro ⟨other, value⟩ hmem rfl
      rw [mem_entries_iff, hget] at hmem
      cases hmem
    rw [get_foldl_set_of_not_mem f hne]
    rfl
  | some value =>
    exact get_foldl_set_of_mem f table.ordered (mem_entries_iff.mpr hget) _

end Table

end NameTables
