import Mathlib.Order.Lattice

/-!
# Registers fenced by a bounded counter

A register has a counter and at most one holder. Taking it advances the counter
by one, as far as the limit, and installs a holder; dropping it removes the
holder and leaves the counter. A ticket is a counter value with a holder. Below
the limit a ticket that a register has left behind is spent, and stays spent
through every further move.
-/

namespace FencedRegisters

universe u

structure Register (H : Type u) where
  counter : Nat
  holder : Option H

variable {H : Type u}

def Register.take (limit : Nat) (r : Register H) (h : H) : Register H where
  counter := min (r.counter + 1) limit
  holder := some h

def Register.drop (r : Register H) : Register H where
  counter := r.counter
  holder := none

inductive Move (limit : Nat) (r : Register H) : Register H → Prop
  | keep : Move limit r r
  | take (h : H) : Move limit r (r.take limit h)
  | drop : Move limit r r.drop

/-- The register is held by `h` under counter value `c`. -/
def Admits (r : Register H) (c : Nat) (h : H) : Prop :=
  r.counter = c ∧ r.holder = some h

/-- The register has moved past the ticket `c`. -/
def Spent (r : Register H) (c : Nat) : Prop :=
  c < r.counter ∨ c = r.counter ∧ r.holder = none

/-- A ticket that was once admitted is admitted still, or spent. -/
def Issued (r : Register H) (c : Nat) (h : H) : Prop :=
  Admits r c h ∨ Spent r c

variable {limit c : Nat} {r r' : Register H} {h : H}

theorem Spent.not_admits (spent : Spent r c) : ¬ Admits r c h := by
  rintro ⟨hc, hh⟩
  rcases spent with hlt | ⟨-, hnone⟩
  · omega
  · simp [hnone] at hh

theorem Issued.le (issued : Issued r c h) : c ≤ r.counter := by
  rcases issued with ⟨hc, -⟩ | hlt | ⟨hc, -⟩ <;> omega

theorem Admits.unique {c' : Nat} {h' : H} (a : Admits r c h) (a' : Admits r c' h') :
    c = c' ∧ h = h' := by
  obtain ⟨hc, hh⟩ := a
  obtain ⟨hc', hh'⟩ := a'
  refine ⟨hc.symm.trans hc', ?_⟩
  rw [hh] at hh'
  exact Option.some.inj hh'

/-- Taking a register spends every ticket it has reached, below the limit. -/
theorem spent_take (hc : c ≤ r.counter) (below : c < limit) : Spent (r.take limit h) c := by
  left
  simp only [Register.take]
  omega

theorem spent_drop (hc : c ≤ r.counter) : Spent r.drop c := by
  rcases Nat.lt_or_eq_of_le hc with hlt | heq
  · exact Or.inl hlt
  · exact Or.inr ⟨heq, rfl⟩

theorem Spent.le (spent : Spent r c) : c ≤ r.counter := by
  rcases spent with hlt | ⟨heq, -⟩ <;> omega

theorem Move.spent (m : Move limit r r') (below : c < limit) (spent : Spent r c) : Spent r' c := by
  cases m with
  | keep => exact spent
  | take h => exact spent_take spent.le below
  | drop => exact spent_drop spent.le

theorem Move.issued (m : Move limit r r') (below : c < limit) (issued : Issued r c h) :
    Issued r' c h := by
  cases m with
  | keep => exact issued
  | take h => exact Or.inr (spent_take issued.le below)
  | drop => exact Or.inr (spent_drop issued.le)

end FencedRegisters
