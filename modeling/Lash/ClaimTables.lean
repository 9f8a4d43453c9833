import Mathlib.Data.List.Count
import Mathlib.Data.List.Perm.Subperm
import Mathlib.Data.List.Sort

/-!
# Tables of claimed rows

Rows have keys, and a claim holds some of the rows. A completion of a claim
names keys; it owns the rows that the claim holds and whose key it names, and
it stands when it owns as many rows as it names keys. Completions are settled
one after the other, each on the rows the earlier ones have left.
-/

namespace ClaimTables

open List Option

universe u v w x

structure ClaimScheme (R : Type u) (C : Type v) (K : Type w) where
  key : R → K
  holds : C → R → Bool
  names : C → List K

open ClaimScheme

section Settling

variable {R : Type u} {C : Type v} {K : Type w} [DecidableEq K]

def ClaimScheme.owns (T : ClaimScheme R C K) (c : C) (r : R) : Bool :=
  T.holds c r && decide (T.key r ∈ T.names c)

/-- The completion owns as many rows as it names keys. -/
def ClaimScheme.Stands (T : ClaimScheme R C K) (rows : List R) (c : C) : Prop :=
  rows.countP (T.owns c) = (T.names c).length

instance (T : ClaimScheme R C K) (rows : List R) (c : C) : Decidable (T.Stands rows c) :=
  inferInstanceAs (Decidable (_ = _))

/-- The rows that no listed completion owns. -/
def ClaimScheme.remaining (T : ClaimScheme R C K) (claims : List C) (rows : List R) :
    List R :=
  rows.filter fun r => claims.all fun c => !T.owns c r

/-- Settle the completions in turn; the first that does not stand ends the run
and leaves the table as the earlier ones have made it. -/
def ClaimScheme.settle {E : Type x} (T : ClaimScheme R C K) (expired : C → E) :
    List C → List R → Except E Unit × List R
  | [], rows => (.ok (), rows)
  | c :: claims, rows =>
    if T.Stands rows c then T.settle expired claims (rows.filter fun r => !T.owns c r)
    else (.error (expired c), rows)

/-- Every completion stands on what the ones before it leave. -/
def ClaimScheme.Settles (T : ClaimScheme R C K) : List C → List R → Prop
  | [], _ => True
  | c :: claims, rows =>
    T.Stands rows c ∧ T.Settles claims (rows.filter fun r => !T.owns c r)

instance ClaimScheme.decidableSettles (T : ClaimScheme R C K) :
    (claims : List C) → (rows : List R) → Decidable (T.Settles claims rows)
  | [], _ => .isTrue trivial
  | c :: claims, rows =>
    have := T.decidableSettles claims (rows.filter fun r => !T.owns c r)
    inferInstanceAs (Decidable (_ ∧ _))

variable {T : ClaimScheme R C K} {E : Type x} {expired : C → E}
  {claims : List C} {rows : List R} {c : C} {r : R}

theorem ClaimScheme.owns_iff : T.owns c r = true ↔ T.holds c r = true ∧ T.key r ∈ T.names c := by
  simp [ClaimScheme.owns]

@[simp] theorem ClaimScheme.remaining_nil : T.remaining [] rows = rows := by
  simp [remaining]

theorem ClaimScheme.remaining_cons : T.remaining (c :: claims) rows =
      T.remaining claims (rows.filter fun r => !T.owns c r) := by
  simp only [remaining, List.filter_filter, List.all_cons]
  exact List.filter_congr fun r _ => Bool.and_comm _ _

theorem ClaimScheme.mem_remaining :
    r ∈ T.remaining claims rows ↔ r ∈ rows ∧ ∀ c ∈ claims, T.owns c r = false := by
  simp [remaining]

theorem ClaimScheme.remaining_sublist : (T.remaining claims rows).Sublist rows :=
  List.filter_sublist

theorem ClaimScheme.settle_of_settles (h : T.Settles claims rows) :
    T.settle expired claims rows = (.ok (), T.remaining claims rows) := by
  induction claims generalizing rows with
  | nil => simp [settle]
  | cons c claims ih =>
    rw [settle, if_pos h.1, ih h.2, remaining_cons]

theorem ClaimScheme.settles_append {more : List C} : T.Settles (claims ++ more) rows ↔
      T.Settles claims rows ∧ T.Settles more (T.remaining claims rows) := by
  induction claims generalizing rows with
  | nil => simp [ClaimScheme.Settles]
  | cons c claims ih =>
    simp only [cons_append, ClaimScheme.Settles, ih, remaining_cons, and_assoc]

/-- A run that stops has settled the completions before the one that does not
stand, and has left the table without their rows. -/
theorem ClaimScheme.settle_error (expired : C → E) (h : ¬ T.Settles claims rows) :
    ∃ done c rest, claims = done ++ c :: rest ∧ T.Settles done rows ∧
      ¬ T.Stands (T.remaining done rows) c ∧
      T.settle expired claims rows = (.error (expired c), T.remaining done rows) := by
  induction claims generalizing rows with
  | nil => exact absurd trivial h
  | cons c claims ih =>
    by_cases hc : T.Stands rows c
    · obtain ⟨done, d, rest, rfl, hdone, hd, hrun⟩ := ih fun hrest => h ⟨hc, hrest⟩
      refine ⟨c :: done, d, rest, rfl, ⟨hc, hdone⟩, ?_, ?_⟩
      · rwa [remaining_cons]
      · rw [settle, if_pos hc, hrun, remaining_cons]
    · refine ⟨[], c, claims, rfl, trivial, by simpa using hc, ?_⟩
      rw [settle, if_neg hc, remaining_nil]

/-- A settled run takes no row exactly when no completion names a key. -/
theorem ClaimScheme.remaining_eq_iff (h : T.Settles claims rows) :
    T.remaining claims rows = rows ↔ ∀ c ∈ claims, T.names c = [] := by
  constructor
  · intro heq c hc
    obtain ⟨done, rest, rfl⟩ := append_of_mem hc
    have hdone : T.remaining done rows = rows := by
      refine filter_eq_self.mpr fun r hr => ?_
      rw [← heq, mem_remaining] at hr
      simpa using fun d hd => hr.2 d (by simp [hd])
    obtain ⟨_, hstands, _⟩ := settles_append.mp h
    rw [hdone, ClaimScheme.Stands] at hstands
    have hzero : rows.countP (T.owns c) = 0 := by
      refine countP_eq_zero.mpr fun r hr => ?_
      rw [← heq, mem_remaining] at hr
      simp [hr.2 c hc]
    exact length_eq_zero_iff.mp (hstands ▸ hzero)
  · intro hnames
    refine filter_eq_self.mpr fun r _ => ?_
    refine all_eq_true.mpr fun c hc => ?_
    simp [ClaimScheme.owns, hnames c hc]

/-- Some completion is settled that names a key, and a later one does not
stand: the run stops with a changed table. -/
def ClaimScheme.Torn (T : ClaimScheme R C K) (claims : List C) (rows : List R) : Prop :=
  ∃ done c rest, claims = done ++ c :: rest ∧ T.Settles done rows ∧
    ¬ T.Stands (T.remaining done rows) c ∧ ∃ d ∈ done, T.names d ≠ []

theorem ClaimScheme.Torn.not_settles (h : T.Torn claims rows) : ¬ T.Settles claims rows := by
  obtain ⟨done, c, rest, rfl, _, hc, _⟩ := h
  exact fun hall => hc (settles_append.mp hall).2.1

theorem ClaimScheme.settle_rows_eq_iff (h : ¬ T.Settles claims rows) :
    (T.settle expired claims rows).2 = rows ↔ ¬ T.Torn claims rows := by
  obtain ⟨done, c, rest, hshape, hdone, hc, hrun⟩ := settle_error expired h
  rw [hrun]
  rw [remaining_eq_iff hdone]
  constructor
  · rintro hempty ⟨done', c', rest', hshape', hdone', hc', d, hd, hnames⟩
    -- both splits stop at the first completion that does not stand
    rw [hshape] at hshape'
    rcases append_eq_append_iff.mp hshape' with ⟨mid, hleft, hright⟩ | ⟨mid, hleft, hright⟩
    · cases mid with
      | nil =>
        simp only [append_nil] at hleft
        exact hnames (hempty d (hleft ▸ hd))
      | cons e mid =>
        simp only [cons_append, cons.injEq] at hright
        obtain ⟨rfl, -⟩ := hright
        rw [hleft] at hdone'
        exact hc (settles_append.mp hdone').2.1
    · cases mid with
      | nil =>
        simp only [append_nil] at hleft
        exact hnames (hempty d (hleft ▸ hd))
      | cons e mid =>
        simp only [cons_append, cons.injEq] at hright
        obtain ⟨rfl, -⟩ := hright
        rw [hleft] at hdone
        exact hc' (settles_append.mp hdone).2.1
  · intro hwhole d hd
    by_contra hnames
    exact hwhole ⟨done, c, rest, hshape, hdone, hc, d, hd, hnames⟩

/-- With distinct row keys a completion stands exactly when it names no key
twice and every key it names is the key of a row its claim holds. -/
theorem ClaimScheme.stands_iff (distinct : (rows.map T.key).Nodup) :
    T.Stands rows c ↔ (T.names c).Nodup ∧
      ∀ k ∈ T.names c, ∃ r ∈ rows, T.key r = k ∧ T.holds c r = true := by
  have hkeys : ((rows.filter (T.owns c)).map T.key).Nodup :=
    (filter_sublist.map T.key).nodup distinct
  have hsub : (rows.filter (T.owns c)).map T.key ⊆ T.names c := by
    intro k hk
    obtain ⟨r, hr, rfl⟩ := mem_map.mp hk
    exact (owns_iff.mp (mem_filter.mp hr).2).2
  have hcount : rows.countP (T.owns c) = ((rows.filter (T.owns c)).map T.key).length := by
    rw [length_map, countP_eq_length_filter]
  rw [ClaimScheme.Stands, hcount]
  constructor
  · intro hlen
    have hperm := (hkeys.subperm hsub).perm_of_length_le (Nat.le_of_eq hlen.symm)
    refine ⟨hperm.nodup_iff.mp hkeys, fun k hk => ?_⟩
    obtain ⟨r, hr, rfl⟩ := mem_map.mp (hperm.mem_iff.mpr hk)
    obtain ⟨hmem, howns⟩ := mem_filter.mp hr
    exact ⟨r, hmem, rfl, (owns_iff.mp howns).1⟩
  · rintro ⟨hnodup, hall⟩
    have hback : T.names c ⊆ (rows.filter (T.owns c)).map T.key := by
      intro k hk
      obtain ⟨r, hr, rfl, hheld⟩ := hall k hk
      exact mem_map_of_mem (mem_filter.mpr ⟨hr, owns_iff.mpr ⟨hheld, hk⟩⟩)
    exact Nat.le_antisymm (hkeys.subperm hsub).length_le (hnodup.subperm hback).length_le

/-- With distinct row keys a list of completions settles exactly when no key is
named twice in it and each is the key of a row that the naming claim holds. -/
theorem ClaimScheme.settles_iff (distinct : (rows.map T.key).Nodup) :
    T.Settles claims rows ↔ (claims.flatMap T.names).Nodup ∧
      ∀ c ∈ claims, ∀ k ∈ T.names c, ∃ r ∈ rows, T.key r = k ∧ T.holds c r = true := by
  induction claims generalizing rows with
  | nil => simp [ClaimScheme.Settles]
  | cons c claims ih =>
    have hsub : (rows.filter fun r => !T.owns c r).Sublist rows := filter_sublist
    rw [ClaimScheme.Settles, stands_iff distinct, ih ((hsub.map T.key).nodup distinct),
      flatMap_cons, nodup_append, forall_mem_cons]
    constructor
    · rintro ⟨⟨hnodup, hall⟩, hrest, hlater⟩
      refine ⟨⟨hnodup, hrest, ?_⟩, hall, ?_⟩
      · -- the row of a key named here is gone when the later completions look
        rintro k hk _ hk' rfl
        obtain ⟨d, hd, hnamed⟩ := mem_flatMap.mp hk'
        obtain ⟨r, hr, hkey, hheld⟩ := hall k hk
        obtain ⟨left, hleft, hsame, _⟩ := hlater d hd k hnamed
        obtain ⟨hmem, hnot⟩ := mem_filter.mp hleft
        have hrow : left = r := inj_on_of_nodup_map distinct hmem hr (hsame.trans hkey.symm)
        rw [hrow, Bool.not_eq_true', Bool.eq_false_iff] at hnot
        exact hnot (owns_iff.mpr ⟨hheld, hkey ▸ hk⟩)
      · intro d hd k hk
        obtain ⟨r, hr, hkey⟩ := hlater d hd k hk
        exact ⟨r, hsub.subset hr, hkey⟩
    · rintro ⟨⟨hnodup, hrest, hapart⟩, hall, hlater⟩
      refine ⟨⟨hnodup, hall⟩, hrest, ?_⟩
      intro d hd k hk
      obtain ⟨r, hr, hkey, hheld⟩ := hlater d hd k hk
      refine ⟨r, mem_filter.mpr ⟨hr, ?_⟩, hkey, hheld⟩
      rw [Bool.not_eq_true', Bool.eq_false_iff]
      intro howns
      have hnamed := (owns_iff.mp howns).2
      rw [hkey] at hnamed
      exact hapart k hnamed k (mem_flatMap.mpr ⟨d, hd, hk⟩) rfl

/-- A key that a settled run names is the key of no row that is left. -/
theorem ClaimScheme.key_gone (h : T.Settles claims rows) (distinct : (rows.map T.key).Nodup)
    (hc : c ∈ claims) {k : K} (hk : k ∈ T.names c) (hr : r ∈ T.remaining claims rows) :
    T.key r ≠ k := by
  intro hkey
  obtain ⟨done, rest, rfl⟩ := append_of_mem hc
  obtain ⟨_, hstands, _⟩ := settles_append.mp h
  have hsub : (T.remaining done rows).Sublist rows := remaining_sublist
  obtain ⟨owned, howned, hsame, hheld⟩ :=
    ((stands_iff ((hsub.map T.key).nodup distinct)).mp hstands).2 k hk
  rw [mem_remaining] at hr
  have hrow : r = owned :=
    inj_on_of_nodup_map distinct hr.1 (hsub.subset howned) (hkey.trans hsame.symm)
  have howns : T.owns c r = true := by
    rw [owns_iff, hrow, hsame]
    exact ⟨hheld, hk⟩
  rw [hr.2 c hc] at howns
  exact absurd howns (by simp)

/-- Settling counts down: of the rows with key `k` a settled run takes one for
each completion that names `k`. -/
theorem ClaimScheme.count_remaining (h : T.Settles claims rows)
    (distinct : (rows.map T.key).Nodup) (k : K) :
    rows.countP (fun r => decide (T.key r = k)) =
      (T.remaining claims rows).countP (fun r => decide (T.key r = k)) +
        claims.countP (fun c => decide (k ∈ T.names c)) := by
  induction claims generalizing rows with
  | nil => simp
  | cons c claims ih =>
    obtain ⟨hstands, hrest⟩ := h
    have hsub : (rows.filter fun r => !T.owns c r).Sublist rows := filter_sublist
    have hih := ih hrest ((hsub.map T.key).nodup distinct)
    rw [remaining_cons, countP_cons]
    have hsplit : rows.countP (fun r => decide (T.key r = k)) =
        (rows.filter (T.owns c)).countP (fun r => decide (T.key r = k)) +
          (rows.filter fun r => !T.owns c r).countP (fun r => decide (T.key r = k)) := by
      rw [← countP_append]
      exact ((filter_append_perm (T.owns c) rows).countP_eq _).symm
    have hone : (rows.filter (T.owns c)).countP (fun r => decide (T.key r = k)) =
        if decide (k ∈ T.names c) = true then 1 else 0 := by
      have hcount : ((rows.filter (T.owns c)).map T.key).count k =
          (rows.filter (T.owns c)).countP (fun r => decide (T.key r = k)) := by
        rw [count, countP_map]
        exact countP_congr fun r _ => by simp
      have hkeys : ((rows.filter (T.owns c)).map T.key).Nodup :=
        (filter_sublist.map T.key).nodup distinct
      rw [← hcount]
      by_cases hk : k ∈ T.names c
      · obtain ⟨r, hr, hrk, hheld⟩ := ((stands_iff distinct).mp hstands).2 k hk
        have hmem : k ∈ (rows.filter (T.owns c)).map T.key := by
          rw [← hrk] at hk ⊢
          exact mem_map_of_mem (mem_filter.mpr ⟨hr, owns_iff.mpr ⟨hheld, hk⟩⟩)
        simp [hk, count_eq_one_of_mem hkeys hmem]
      · have hnot : k ∉ (rows.filter (T.owns c)).map T.key := by
          intro hmem
          obtain ⟨r, hr, rfl⟩ := mem_map.mp hmem
          exact hk (owns_iff.mp (mem_filter.mp hr).2).2
        simp [hk, count_eq_zero_of_not_mem hnot]
    omega

end Settling

section Updating

variable {R : Type u}

/-- Update the first `n` rows that satisfy `p`. -/
def updateFirst (p : R → Bool) (f : R → R) : Nat → List R → List R
  | _, [] => []
  | 0, rows => rows
  | n + 1, row :: rows =>
    if p row then f row :: updateFirst p f n rows
    else row :: updateFirst p f (n + 1) rows

variable {p : R → Bool} {f : R → R} {n : Nat} {rows : List R}

@[simp] theorem updateFirst_zero : updateFirst p f 0 rows = rows := by
  cases rows <;> rfl

@[simp] theorem updateFirst_nil : updateFirst p f n [] = [] := by
  cases n <;> rfl

@[simp] theorem length_updateFirst : (updateFirst p f n rows).length = rows.length := by
  induction rows generalizing n with
  | nil => simp
  | cons row rows ih =>
    cases n with
    | zero => simp
    | succ n =>
      simp only [updateFirst]
      split <;> simp [ih]

/-- What the update leaves equal in every row it leaves equal in the table. -/
theorem map_updateFirst {A : Type v} {g : R → A} (same : ∀ r, g (f r) = g r) :
    (updateFirst p f n rows).map g = rows.map g := by
  induction rows generalizing n with
  | nil => simp
  | cons row rows ih =>
    cases n with
    | zero => simp
    | succ n =>
      simp only [updateFirst]
      split <;> simp [ih, same]

/-- Each row stays as it is or is updated; the updated rows are the first `n`
that satisfy `p`. -/
theorem updateFirst_forall₂ : List.Forall₂ (fun r r' => r' = r ∨
      (p r = true ∧ r ∈ (rows.filter p).take n ∧ r' = f r)) rows
      (updateFirst p f n rows) := by
  suffices h : ∀ (all : List R) (n : Nat), (∀ r ∈ (rows.filter p).take n, r ∈ all) →
      List.Forall₂ (fun r r' => r' = r ∨ (p r = true ∧ r ∈ all ∧ r' = f r)) rows
        (updateFirst p f n rows) from h _ n fun r hr => hr
  intro all
  induction rows with
  | nil => intro n _; rw [updateFirst_nil]; exact .nil
  | cons row rows ih =>
    intro n hall
    cases n with
    | zero =>
      rw [updateFirst_zero]
      exact forall₂_same.mpr fun r _ => Or.inl rfl
    | succ n =>
      by_cases hp : p row = true
      · simp only [updateFirst, hp, if_true]
        rw [filter_cons_of_pos hp, take_succ_cons] at hall
        exact .cons (Or.inr ⟨hp, hall row mem_cons_self, rfl⟩)
          (ih n fun r hr => hall r (mem_cons_of_mem _ hr))
      · simp only [updateFirst, hp, Bool.false_eq_true, if_false]
        rw [filter_cons_of_neg hp] at hall
        exact .cons (Or.inl rfl) (ih (n + 1) hall)

theorem mem_updateFirst {r' : R} (h : r' ∈ updateFirst p f n rows) :
    ∃ r ∈ rows, r' = r ∨ (p r = true ∧ r ∈ (rows.filter p).take n ∧ r' = f r) := by
  obtain ⟨i, hi, rfl⟩ := getElem_of_mem h
  have hpairs : List.Forall₂ _ rows (updateFirst p f n rows) := updateFirst_forall₂
  have hpair := (forall₂_iff_get.mp hpairs).2 i (by simpa using hi) hi
  exact ⟨_, get_mem _ _, hpair⟩

/-- With distinct keys, the update writes the rows whose keys are the first `n`
keys of rows that satisfy `p`, and no others. -/
theorem updateFirst_eq_map {K : Type v} [DecidableEq K] {key : R → K}
    (distinct : (rows.map key).Nodup) :
    updateFirst p f n rows = rows.map fun r =>
      if key r ∈ ((rows.filter p).take n).map key then f r else r := by
  induction rows generalizing n with
  | nil => simp
  | cons row rows ih =>
    rw [map_cons, nodup_cons] at distinct
    obtain ⟨hnew, hrest⟩ := distinct
    have hskip : ∀ {m : Nat} {r : R}, r ∈ rows → (key r = key row ∨
        key r ∈ ((rows.filter p).take m).map key ↔ key r ∈ ((rows.filter p).take m).map key) := by
      intro m r hr
      refine or_iff_right fun hsame => hnew ?_
      rw [← hsame]
      exact mem_map_of_mem hr
    cases n with
    | zero => simp
    | succ n =>
      by_cases hp : p row = true
      · rw [updateFirst, if_pos hp, ih hrest, filter_cons_of_pos hp,
          take_succ_cons, map_cons, map_cons, if_pos mem_cons_self]
        congr 1
        refine map_congr_left fun r hr => ?_
        simp only [mem_cons, hskip hr]
      · have hout : key row ∉ ((rows.filter p).take (n + 1)).map key := by
          intro hmem
          obtain ⟨r, hr, hkey⟩ := mem_map.mp hmem
          refine hnew ?_
          rw [← hkey]
          exact mem_map_of_mem (mem_of_mem_filter (mem_of_mem_take hr))
        rw [updateFirst, if_neg hp, ih hrest, filter_cons_of_neg hp, map_cons, if_neg hout]

end Updating

section Erasing

variable {R : Type u} {K : Type v} {key : R → K} {p : R → Bool} {row : R} {rows : List R}

/-- With distinct keys, no row of the found row's key is left once it is erased. -/
theorem key_ne_of_mem_eraseP (distinct : (rows.map key).Nodup)
    (found : rows.find? p = some row) {r : R} (hr : r ∈ rows.eraseP p) : key r ≠ key row := by
  induction rows with
  | nil => simp at found
  | cons head rows ih =>
    rw [map_cons, nodup_cons] at distinct
    obtain ⟨hnew, hrest⟩ := distinct
    by_cases hp : p head = true
    · rw [find?_cons_of_pos hp, some.injEq] at found
      rw [eraseP_cons_of_pos hp] at hr
      rintro hsame
      refine hnew ?_
      rw [found, ← hsame]
      exact mem_map_of_mem hr
    · rw [find?_cons_of_neg hp] at found
      rw [eraseP_cons_of_neg hp] at hr
      rcases mem_cons.mp hr with hhead | htail
      · intro hsame
        refine hnew ?_
        rw [← hhead, hsame]
        exact mem_map_of_mem (mem_of_find?_eq_some found)
      · exact ih hrest found htail

/-- Erasing takes out exactly the row that was found. -/
theorem perm_cons_eraseP (found : rows.find? p = some row) : rows.Perm (row :: rows.eraseP p) := by
  induction rows with
  | nil => simp at found
  | cons head rows ih =>
    by_cases hp : p head = true
    · rw [find?_cons_of_pos hp, some.injEq] at found
      rw [eraseP_cons_of_pos hp, found]
    · rw [find?_cons_of_neg hp] at found
      rw [eraseP_cons_of_neg hp]
      exact ((ih found).cons head).trans (List.Perm.swap row head _)

end Erasing

/-- A table whose key column is unique. -/
structure KeyedTable (R : Type u) (K : Type v) (key : R → K) where
  rows : List R
  distinct : (rows.map key).Nodup

section Keyed

variable {R : Type u} {K : Type v} {key : R → K}

def KeyedTable.empty : KeyedTable R K key where
  rows := []
  distinct := by simp

def KeyedTable.delete (table : KeyedTable R K key) (p : R → Bool) : KeyedTable R K key where
  rows := table.rows.filter fun row => !p row
  distinct := (List.filter_sublist.map key).nodup table.distinct

/-- Update the rows that satisfy `p`; an update never writes the key. -/
def KeyedTable.update (table : KeyedTable R K key) (p : R → Bool) (f : R → R)
    (same : ∀ row, key (f row) = key row) : KeyedTable R K key where
  rows := table.rows.map fun row => if p row then f row else row
  distinct := by
    have hkeys : (table.rows.map fun row => if p row then f row else row).map key =
        table.rows.map key := by
      rw [List.map_map]
      refine List.map_congr_left fun row _ => ?_
      by_cases hp : p row = true <;> simp [hp, same]
    rw [hkeys]
    exact table.distinct

variable [DecidableEq K]

/-- Append a row; `none` if its key is taken. -/
def KeyedTable.insert (table : KeyedTable R K key) (row : R) :
    Option (KeyedTable R K key) :=
  if taken : key row ∈ table.rows.map key then none
  else some
    { rows := table.rows ++ [row]
      distinct := by
        rw [List.map_append, List.nodup_append]
        refine ⟨table.distinct, by simp, ?_⟩
        rintro k hk k' hk' rfl
        rw [List.map_singleton, List.mem_singleton] at hk'
        exact taken (hk' ▸ hk) }

def KeyedTable.insertAll (table : KeyedTable R K key) : List R → Option (KeyedTable R K key)
  | [] => some table
  | row :: rows => (table.insert row).bind fun table => table.insertAll rows

variable {after table : KeyedTable R K key}

theorem KeyedTable.insert_some {row : R} (h : table.insert row = some after) :
    after.rows = table.rows ++ [row] ∧ key row ∉ table.rows.map key := by
  rw [KeyedTable.insert] at h
  split at h
  · cases h
  · rename_i hfree
    rw [← some.inj h]
    exact ⟨rfl, hfree⟩

theorem KeyedTable.insertAll_some {rows : List R} (h : table.insertAll rows = some after) :
    after.rows = table.rows ++ rows ∧ ∀ row ∈ rows, key row ∉ table.rows.map key := by
  induction rows generalizing table with
  | nil =>
    obtain rfl : table = after := some.inj h
    simp
  | cons row rows ih =>
    obtain ⟨inserted, hrow, hrest⟩ := bind_eq_some_iff.mp h
    obtain ⟨hinserted, hfree⟩ := insert_some hrow
    obtain ⟨hafter, hall⟩ := ih hrest
    refine ⟨by rw [hafter, hinserted, append_assoc, singleton_append], ?_⟩
    refine forall_mem_cons.mpr ⟨hfree, fun other hother htaken => hall other hother ?_⟩
    rw [hinserted, map_append]
    exact mem_append_left _ htaken

/-- Rows whose keys are free and differ from each other go in. -/
theorem KeyedTable.insertAll_of_nodup {rows : List R}
    (distinct : ((table.rows ++ rows).map key).Nodup) :
    ∃ after, table.insertAll rows = some after ∧ after.rows = table.rows ++ rows := by
  induction rows generalizing table with
  | nil => exact ⟨table, rfl, (append_nil _).symm⟩
  | cons row rows ih =>
    have hfree : key row ∉ table.rows.map key := by
      rw [map_append, map_cons] at distinct
      exact fun taken => (nodup_append.mp distinct).2.2 _ taken _ mem_cons_self rfl
    obtain ⟨inserted, hinsert⟩ : ∃ inserted, table.insert row = some inserted := ⟨_, dif_neg hfree⟩
    have hinserted := (insert_some hinsert).1
    rw [append_cons, ← hinserted] at distinct ⊢
    rw [KeyedTable.insertAll, hinsert, bind_some]
    exact ih distinct

end Keyed

end ClaimTables
