import Mathlib

/-!
# Marking with a stack

Nodes are popped off a stack. A node whose key is new is marked, and the nodes it points at are
pushed; finding them may fail, and then the marking fails. Keys need not tell nodes apart: of
two nodes with one key only the first that is popped is looked into.
-/

namespace Worklists

open List

universe u v w

variable {Node : Type u} {Key : Type v} {E : Type w} [DecidableEq Key]

/-- The marked keys once the stack is empty; `none` if the fuel runs out. -/
def mark (key : Node → Key) (next : Node → Except E (List Node)) :
    Nat → List Node → List Key → Option (Except E (List Key))
  | _, [], marked => some (.ok marked)
  | 0, _ :: _, _ => none
  | fuel + 1, node :: stack, marked =>
    if key node ∈ marked then mark key next fuel stack marked
    else match next node with
      | .error error => some (.error error)
      | .ok found => mark key next fuel (found.reverse ++ stack) (key node :: marked)

variable {key : Node → Key} {next : Node → Except E (List Node)}

/-- A weight of which every node has more than all the nodes it points at. -/
def Pays (next : Node → Except E (List Node)) (weight : Node → Nat) : Prop :=
  ∀ node, 0 < weight node ∧ ∀ found, next node = .ok found → (found.map weight).sum < weight node

variable {stack : List Node} {fuel : Nat}

theorem mark_ends {weight : Node → Nat} (pays : Pays next weight) (marked : List Key)
    (h : (stack.map weight).sum ≤ fuel) :
    ∃ outcome, mark key next fuel stack marked = some outcome := by
  induction fuel generalizing stack marked with
  | zero =>
    cases stack with
    | nil => exact ⟨_, rfl⟩
    | cons node stack =>
      have hpos := (pays node).1
      rw [map_cons, sum_cons] at h
      omega
  | succ fuel ih =>
    cases stack with
    | nil => exact ⟨_, rfl⟩
    | cons node stack =>
      obtain ⟨hpos, hpays⟩ := pays node
      rw [map_cons, sum_cons] at h
      rw [mark]
      split
      · exact ih _ (by omega)
      · cases hnext : next node with
        | error error => exact ⟨_, rfl⟩
        | ok found =>
          have hless := hpays found hnext
          refine ih _ ?_
          rw [map_append, sum_append, map_reverse, sum_reverse]
          omega

variable {final : List Key}

variable {marked : List Key}

theorem mem_of_marked (h : mark key next fuel stack marked = some (.ok final)) {k : Key}
    (hk : k ∈ marked) : k ∈ final := by
  induction fuel generalizing stack marked with
  | zero =>
    cases stack with
    | nil =>
      cases h
      exact hk
    | cons node stack => cases h
  | succ fuel ih =>
    cases stack with
    | nil =>
      cases h
      exact hk
    | cons node stack =>
      rw [mark] at h
      split at h
      · exact ih h hk
      · cases hnext : next node with
        | error error =>
          rw [hnext] at h
          cases h
        | ok found =>
          rw [hnext] at h
          exact ih h (mem_cons_of_mem _ hk)

/-- All that is on the stack is marked in the end. -/
theorem mem_of_stack (h : mark key next fuel stack marked = some (.ok final)) {node : Node}
    (hnode : node ∈ stack) : key node ∈ final := by
  induction fuel generalizing stack marked with
  | zero =>
    cases stack with
    | nil => cases hnode
    | cons first stack => cases h
  | succ fuel ih =>
    cases stack with
    | nil => cases hnode
    | cons first stack =>
      rw [mark] at h
      split at h
      next hold =>
        rcases mem_cons.mp hnode with rfl | hnode
        · exact mem_of_marked h hold
        · exact ih h hnode
      next hnew =>
        cases hnext : next first with
        | error error =>
          rw [hnext] at h
          cases h
        | ok found =>
          rw [hnext] at h
          rcases mem_cons.mp hnode with rfl | hnode
          · exact mem_of_marked h mem_cons_self
          · exact ih h (mem_append_right _ hnode)

/-- Marking asks nothing of the nodes that it does not mark. -/
theorem mark_congr {next' : Node → Except E (List Node)}
    (h : mark key next fuel stack marked = some (.ok final))
    (same : ∀ node, key node ∈ final → next' node = next node) :
    mark key next' fuel stack marked = some (.ok final) := by
  fun_induction mark key next fuel stack marked with
  | case1 => rw [mark, h]
  | case2 => cases h
  | case3 fuel node stack marked hold ih => rw [mark, if_pos hold, ih h]
  | case4 => cases h
  | case5 fuel node stack marked hnew found hfound ih =>
    have hmarked := same node (mem_of_marked h mem_cons_self)
    rw [mark, if_neg hnew, hmarked, hfound]
    exact ih h

/-- Nothing is marked but what a closed set of nodes on the stack leads to. -/
theorem mem_closed {P : Node → Prop}
    (closed : ∀ node found, P node → next node = .ok found → ∀ other ∈ found, P other)
    (h : mark key next fuel stack marked = some (.ok final)) (hstack : ∀ node ∈ stack, P node)
    {k : Key} (hk : k ∈ final) : k ∈ marked ∨ ∃ node, P node ∧ key node = k := by
  induction fuel generalizing stack marked with
  | zero =>
    cases stack with
    | nil =>
      cases h
      exact .inl hk
    | cons node stack => cases h
  | succ fuel ih =>
    cases stack with
    | nil =>
      cases h
      exact .inl hk
    | cons node stack =>
      have hnode := hstack node mem_cons_self
      have hrest : ∀ other ∈ stack, P other := fun other hmem =>
        hstack other (mem_cons_of_mem _ hmem)
      rw [mark] at h
      split at h
      · exact ih h hrest
      · cases hnext : next node with
        | error error =>
          rw [hnext] at h
          cases h
        | ok found =>
          rw [hnext] at h
          have hall : ∀ other ∈ found.reverse ++ stack, P other := fun other hmem =>
            (mem_append.mp hmem).elim
              (fun hfound => closed node found hnode hnext other (mem_reverse.mp hfound))
              (hrest other)
          rcases ih h hall with hmarked | hreached
          · rcases mem_cons.mp hmarked with rfl | hmarked
            · exact .inr ⟨node, hnode, rfl⟩
            · exact .inl hmarked
          · exact .inr hreached

/-- Nodes that point at nothing are only marked. -/
theorem mark_leaves {leaves : List Node} (hleaves : ∀ node ∈ leaves, next node = .ok [])
    (h : mark key next fuel (leaves ++ stack) marked = some (.ok final)) :
    ∃ fuel' marked', mark key next fuel' stack marked' = some (.ok final) ∧
      ∀ k ∈ marked', k ∈ marked ∨ ∃ node ∈ leaves, key node = k := by
  induction leaves generalizing fuel marked with
  | nil => exact ⟨fuel, marked, h, fun k hk => .inl hk⟩
  | cons leaf leaves ih =>
    have hrest : ∀ node ∈ leaves, next node = .ok [] := fun node hmem =>
      hleaves node (mem_cons_of_mem _ hmem)
    cases fuel with
    | zero => cases h
    | succ fuel =>
      rw [cons_append, mark] at h
      split at h
      · obtain ⟨fuel', marked', hmark, hfrom⟩ := ih hrest h
        refine ⟨fuel', marked', hmark, fun k hk => (hfrom k hk).imp_right ?_⟩
        exact fun ⟨node, hmem, hkey⟩ => ⟨node, mem_cons_of_mem _ hmem, hkey⟩
      · rw [hleaves leaf mem_cons_self] at h
        obtain ⟨fuel', marked', hmark, hfrom⟩ := ih hrest h
        refine ⟨fuel', marked', hmark, fun k hk => ?_⟩
        rcases hfrom k hk with hmarked | ⟨node, hmem, hkey⟩
        · rcases mem_cons.mp hmarked with rfl | hmarked
          · exact .inr ⟨leaf, mem_cons_self, rfl⟩
          · exact .inl hmarked
        · exact .inr ⟨node, mem_cons_of_mem _ hmem, hkey⟩

/-- A node that only leaves with other keys are above is looked into: all it points at is
marked. -/
theorem mem_of_next {leaves : List Node} {node : Node}
    (hleaves : ∀ leaf ∈ leaves, next leaf = .ok []) (hkeys : ∀ leaf ∈ leaves, key leaf ≠ key node)
    (h : mark key next fuel (leaves ++ node :: stack) [] = some (.ok final)) :
    ∃ found, next node = .ok found ∧ ∀ other ∈ found, key other ∈ final := by
  obtain ⟨fuel', marked, hmark, hfrom⟩ := mark_leaves hleaves h
  have hnew : key node ∉ marked := by
    intro hmem
    rcases hfrom _ hmem with hnil | ⟨leaf, hleaf, hkey⟩
    · cases hnil
    · exact hkeys leaf hleaf hkey
  cases fuel' with
  | zero => cases hmark
  | succ fuel' =>
    rw [mark, if_neg hnew] at hmark
    cases hnext : next node with
    | error error =>
      rw [hnext] at hmark
      cases hmark
    | ok found =>
      rw [hnext] at hmark
      refine ⟨found, rfl, fun other hmem => mem_of_stack hmark ?_⟩
      exact mem_append_left _ (mem_reverse.mpr hmem)

end Worklists
