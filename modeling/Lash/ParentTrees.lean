import Mathlib.Data.List.Perm.Basic
import Mathlib.Data.List.Sort

/-!
# Trees from parent references

Items that name their parent by its key are put into a forest: the children of a key are
taken out of the items that are left, and below each child its own children. Every item is
placed once exactly if following the parent keys leads from each item to the top.
-/

namespace ParentTrees

open List

universe u v

inductive Tree (A : Type u) where
  | node (label : A) (children : List (Tree A))

variable {A : Type u} {K : Type v}

/-! ## Building -/

section Building

variable [DecidableEq K] (key : A → K) (parent : A → Option K)

/-- Below each item what `build` puts there; the items left go from one to the next. -/
def placeEach (build : Option K → List A → List (Tree A) × List A) :
    List A → List A → List (Tree A) × List A
  | [], left => ([], left)
  | a :: more, left =>
    let (children, left) := build (some (key a)) left
    let (others, left) := placeEach build more left
    (.node a children :: others, left)

/-- The forest below a key, and the items that are not in it. -/
def buildBelow : Nat → Option K → List A → List (Tree A) × List A
  | 0, _, left => ([], left)
  | fuel + 1, p, left =>
    let (children, left) := left.partition fun a => decide (parent a = p)
    placeEach key (buildBelow fuel) children left

def build (items : List A) : List (Tree A) × List A :=
  buildBelow key parent (items.length + 1) none items

end Building

/-! ## What a forest shows -/

mutual
/-- The items of a tree, each with the key of the item it stands under. -/
def rowsOfTree (key : A → K) (p : Option K) : Tree A → List (Option K × A)
  | .node a children => (p, a) :: rowsBelow key (some (key a)) children
def rowsBelow (key : A → K) (p : Option K) : List (Tree A) → List (Option K × A)
  | [] => []
  | t :: ts => rowsOfTree key p t ++ rowsBelow key p ts
end

/-- The items of a forest. -/
def rows (key : A → K) (forest : List (Tree A)) : List (Option K × A) := rowsBelow key none forest

mutual
/-- Siblings in order, at every depth. -/
def sortTree (le : A → A → Bool) : Tree A → Tree A
  | .node a children => .node a (sortSiblings le (sortEach le children))
def sortEach (le : A → A → Bool) : List (Tree A) → List (Tree A)
  | [] => []
  | t :: ts => sortTree le t :: sortEach le ts
def sortSiblings (le : A → A → Bool) (ts : List (Tree A)) : List (Tree A) :=
  ts.mergeSort fun
    | .node a _, .node b _ => le a b
end

theorem rowsBelow_perm {key : A → K} {p : Option K} {ts us : List (Tree A)} (h : ts.Perm us) :
    (rowsBelow key p ts).Perm (rowsBelow key p us) := by
  induction h with
  | nil => exact .nil
  | cons t _ ih => exact ih.append_left _
  | swap t u rest =>
    simp only [rowsBelow, ← append_assoc]
    exact (perm_append_comm).append_right _
  | trans _ _ ih ih' => exact ih.trans ih'

mutual
theorem rowsOfTree_sort {key : A → K} {p : Option K} (le : A → A → Bool) :
    (t : Tree A) → (rowsOfTree key p (sortTree le t)).Perm (rowsOfTree key p t)
  | .node a children => by
      rw [sortTree, rowsOfTree, rowsOfTree, sortSiblings]
      exact ((rowsBelow_perm (mergeSort_perm _ _)).trans (rowsBelow_sortEach le children)).cons _
theorem rowsBelow_sortEach {key : A → K} {p : Option K} (le : A → A → Bool) :
    (ts : List (Tree A)) → (rowsBelow key p (sortEach le ts)).Perm (rowsBelow key p ts)
  | [] => .nil
  | t :: ts => (rowsOfTree_sort le t).append (rowsBelow_sortEach le ts)
end

/-- Sorting moves no item under another one. -/
theorem rows_sortSiblings {key : A → K} (le : A → A → Bool) (ts : List (Tree A)) :
    (rows key (sortSiblings le (sortEach le ts))).Perm (rows key ts) :=
  (rowsBelow_perm (List.mergeSort_perm _ _)).trans (rowsBelow_sortEach le ts)

/-! ## Where the items go -/

section Placement

variable [DecidableEq K] {key : A → K} {parent : A → Option K} {p : Option K}
  {items left : List A} {result : List (Tree A) × List A}

/-- An item with its parent, as a forest shows it where it is placed rightly. -/
def placed (parent : A → Option K) (a : A) : Option K × A := (parent a, a)

/-- Between the items and those left over, a forest below `p` moves each item to its parent and
leaves no child behind of an item it holds. -/
structure Moves (key : A → K) (parent : A → Option K) (p : Option K)
    (items : List (Option K × A)) (left : List A) (result : List (Tree A) × List A) : Prop where
  kept : result.2.Sublist left
  moved : (rowsBelow key p result.1 ++ result.2.map (placed parent)).Perm
    (items ++ left.map (placed parent))
  closed : ∀ row ∈ rowsBelow key p result.1, ∀ a ∈ result.2, parent a ≠ some (key row.2)

/-- All children of `p` are in the forest as well. -/
structure MovesBelow (key : A → K) (parent : A → Option K) (p : Option K) (left : List A)
    (result : List (Tree A) × List A) : Prop extends Moves key parent p [] left result where
  taken : ∀ a ∈ result.2, parent a ≠ p

omit [DecidableEq K] in
theorem moves_nil : Moves key parent p [] left ([], left) where
  kept := List.Sublist.refl _
  moved := .refl _
  closed := by simp [rowsBelow]

omit [DecidableEq K] in
theorem moves_placeEach {build : Option K → List A → List (Tree A) × List A} {n : Nat}
    (below : ∀ q left, left.length ≤ n → MovesBelow key parent q left (build q left))
    (items : List A) (bound : left.length ≤ n) :
    Moves key parent p (items.map (p, ·)) left (placeEach key build items left) := by
  induction items generalizing left with
  | nil => exact moves_nil
  | cons a more ih =>
    have hbelow := below (some (key a)) left bound
    have hothers := ih (hbelow.kept.length_le.trans bound)
    rw [placeEach]
    refine ⟨hothers.kept.trans hbelow.kept, ?_, ?_⟩
    · have hfirst := hothers.moved.append_left
        (rowsBelow key (some (key a)) (build (some (key a)) left).1)
      have hsecond := hbelow.moved.append_left (more.map (p, ·))
      simp only [rowsBelow, rowsOfTree, map_cons, cons_append, append_assoc,
        nil_append] at hfirst hsecond ⊢
      refine List.Perm.cons _ (hfirst.trans (List.Perm.trans ?_ hsecond))
      exact perm_append_comm_assoc _ _ _
    · simp only [rowsBelow, rowsOfTree, mem_append, mem_cons]
      rintro row ((rfl | hrow) | hrow) b hb
      · exact hbelow.taken b (hothers.kept.subset hb)
      · exact hbelow.closed row hrow b (hothers.kept.subset hb)
      · exact hothers.closed row hrow b hb

theorem movesBelow_buildBelow {fuel : Nat} (enough : left.length < fuel) :
    MovesBelow key parent p left (buildBelow key parent fuel p left) := by
  induction fuel generalizing p left with
  | zero => exact absurd enough (Nat.not_lt_zero _)
  | succ fuel ih =>
    rw [buildBelow, partition_eq_filter_filter]
    dsimp only
    have hchild : ∀ a ∈ left.filter fun a => decide (parent a = p), parent a = p := by
      simp
    have hother : ∀ a ∈ left.filter (not ∘ fun a => decide (parent a = p)), parent a ≠ p := by
      simp
    have hitems : (left.filter fun a => decide (parent a = p)).map (p, ·) =
        (left.filter fun a => decide (parent a = p)).map (placed parent) :=
      map_congr_left fun a ha => by rw [placed, hchild a ha]
    have hsplit : ((left.filter fun a => decide (parent a = p)) ++
        left.filter (not ∘ fun a => decide (parent a = p))).Perm left :=
      filter_append_perm _ _
    have hmoves : Moves key parent p
        ((left.filter fun a => decide (parent a = p)).map (p, ·))
        (left.filter (not ∘ fun a => decide (parent a = p)))
        (placeEach key (buildBelow key parent fuel) (left.filter fun a => decide (parent a = p))
          (left.filter (not ∘ fun a => decide (parent a = p)))) := by
      cases hchildren : left.filter fun a => decide (parent a = p) with
      | nil => exact moves_nil
      | cons a more =>
        refine moves_placeEach (n := (left.filter
          (not ∘ fun a => decide (parent a = p))).length) (fun q l hl => ih ?_) _ (Nat.le_refl _)
        have hlength := hsplit.length_eq
        rw [hchildren, length_append, length_cons] at hlength
        omega
    refine ⟨⟨hmoves.kept.trans filter_sublist, ?_, hmoves.closed⟩, fun a ha => ?_⟩
    · refine hmoves.moved.trans ?_
      rw [hitems, ← map_append, nil_append]
      exact hsplit.map _
    · exact hother a (hmoves.kept.subset ha)

/-- Following the parent keys of the items leads from this key to the top. -/
inductive Rooted (key : A → K) (parent : A → Option K) (items : List A) : Option K → Prop
  | top : Rooted key parent items none
  | under {a : A} (mem : a ∈ items) (above : Rooted key parent items (parent a)) :
      Rooted key parent items (some (key a))

omit [DecidableEq K] in
mutual
theorem rooted_of_tree {p : Option K} (t : Tree A) (above : Rooted key parent items p)
    (right : ∀ row ∈ rowsOfTree key p t, row.2 ∈ items ∧ row.1 = parent row.2) :
    ∀ row ∈ rowsOfTree key p t, Rooted key parent items row.1 := by
  cases t with
  | node a children =>
    rw [rowsOfTree] at right ⊢
    obtain ⟨hmem, hparent⟩ := right _ mem_cons_self
    intro row hrow
    rcases mem_cons.mp hrow with rfl | hrow
    · exact above
    · have habove : Rooted key parent items (parent a) := by rwa [← hparent]
      refine rooted_of_below children (.under hmem habove) (fun row hrow => ?_) row hrow
      exact right row (mem_cons_of_mem _ hrow)
theorem rooted_of_below {p : Option K} (ts : List (Tree A)) (above : Rooted key parent items p)
    (right : ∀ row ∈ rowsBelow key p ts, row.2 ∈ items ∧ row.1 = parent row.2) :
    ∀ row ∈ rowsBelow key p ts, Rooted key parent items row.1 := by
  cases ts with
  | nil => simp [rowsBelow]
  | cons t ts =>
    rw [rowsBelow] at right ⊢
    intro row hrow
    rcases mem_append.mp hrow with hrow | hrow
    · exact rooted_of_tree t above (fun row hrow => right row (mem_append_left _ hrow)) row hrow
    · exact rooted_of_below ts above (fun row hrow => right row (mem_append_right _ hrow))
        row hrow
end

variable (key parent)

theorem movesBelow_build (items : List A) :
    MovesBelow key parent none items (build key parent items) :=
  movesBelow_buildBelow (Nat.lt_succ_self _)

theorem rows_append_left_perm (items : List A) :
    (rows key (build key parent items).1 ++ (build key parent items).2.map (placed parent)).Perm
      (items.map (placed parent)) := by
  have hmoved := (movesBelow_build key parent items).moved
  rwa [nil_append] at hmoved

variable {key parent}

theorem rooted_of_mem_rows {row : Option K × A} (h : row ∈ rows key (build key parent items).1) :
    Rooted key parent items row.1 := by
  refine rooted_of_below _ .top (fun row hrow => ?_) row h
  obtain ⟨a, ha, rfl⟩ := mem_map.mp
    ((rows_append_left_perm key parent items).subset (mem_append_left _ hrow))
  exact ⟨ha, rfl⟩

/-- No child of a key that is rooted is left over. -/
theorem parent_ne_of_rooted {k : Option K} (rooted : Rooted key parent items k) :
    ∀ a ∈ (build key parent items).2, parent a ≠ k := by
  have hbelow := movesBelow_build key parent items
  induction rooted with
  | top => exact hbelow.taken
  | @under a mem above ih =>
    have hplaced := (rows_append_left_perm key parent items).symm.subset
      (mem_map_of_mem mem)
    rcases mem_append.mp hplaced with hrow | hleft
    · exact hbelow.closed _ hrow
    · obtain ⟨b, hb, hsame⟩ := mem_map.mp hleft
      obtain rfl : b = a := congrArg Prod.snd hsame
      exact absurd rfl (ih b hb)

/-- Nothing is left over exactly if every item is rooted. -/
theorem left_eq_nil_iff :
    (build key parent items).2 = [] ↔ ∀ a ∈ items, Rooted key parent items (parent a) := by
  constructor
  · intro hleft a ha
    have hperm := rows_append_left_perm key parent items
    rw [hleft, map_nil, append_nil] at hperm
    exact rooted_of_mem_rows (hperm.symm.subset (mem_map_of_mem (f := placed parent) ha))
  · intro hrooted
    refine eq_nil_iff_forall_not_mem.mpr fun a ha => ?_
    have hmem := (movesBelow_build key parent items).kept.subset ha
    exact parent_ne_of_rooted (hrooted a hmem) a ha rfl

/-- Each item stands once in the forest, under its parent, exactly if every item is rooted. -/
theorem rows_build_perm_iff :
    (rows key (build key parent items).1).Perm (items.map (placed parent)) ↔
      ∀ a ∈ items, Rooted key parent items (parent a) := by
  rw [← left_eq_nil_iff]
  have hperm := rows_append_left_perm key parent items
  constructor
  · intro hrows
    have hlength := hperm.length_eq
    rw [length_append, hrows.length_eq, length_map] at hlength
    exact eq_nil_of_length_eq_zero (by simpa using hlength)
  · intro hleft
    rwa [hleft, map_nil, append_nil] at hperm

end Placement

end ParentTrees
