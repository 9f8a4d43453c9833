import Mathlib.Data.List.Basic

/-!
# Data refinement

Two machines that are fed the same inputs answer alike if a relation of their states holds at
the start, is kept by every step, and makes the answers of a step equal. Values that a machine
hands out under a number live in a heap; heaps are related number by number.
-/

namespace DataRefinements

universe u v w x

section Machines

variable {I : Type u} {O : Type v} {S : Type w} {T : Type x}

/-- The answers of a machine to a list of inputs. -/
def answers (step : I → S → O × S) : S → List I → List O
  | _, [] => []
  | s, i :: inputs => (step i s).1 :: answers step (step i s).2 inputs

/-- A step of either machine gives the same answer and keeps the relation. -/
def Simulates (R : S → T → Prop) (step : I → S → O × S) (step' : I → T → O × T) : Prop :=
  ∀ i s t, R s t → (step i s).1 = (step' i t).1 ∧ R (step i s).2 (step' i t).2

theorem Simulates.answers {R : S → T → Prop} {step : I → S → O × S} {step' : I → T → O × T}
    (simulates : Simulates R step step') {s : S} {t : T} (h : R s t) (inputs : List I) :
    answers step s inputs = answers step' t inputs := by
  induction inputs generalizing s t with
  | nil => rfl
  | cons i inputs ih =>
    obtain ⟨hanswer, hnext⟩ := simulates i s t h
    exact congrArg₂ List.cons hanswer (ih hnext)

end Machines

/-- Values by the number under which they were handed out. -/
structure Heap (A : Type u) where
  created : Nat
  at? : Nat → Option A

namespace Heap

def empty {A : Type u} : Heap A := ⟨0, fun _ => none⟩

variable {A : Type u} {B : Type v}

def put (heap : Heap A) (n : Nat) (a : Option A) : Heap A :=
  { heap with at? := Function.update heap.at? n a }

/-- A new value, and its number. -/
def alloc (heap : Heap A) (a : A) : Nat × Heap A :=
  (heap.created, { heap.put heap.created (some a) with created := heap.created + 1 })

/-- Under every number both heaps hold related values, or none. -/
structure Related (R : A → B → Prop) (heap : Heap A) (heap' : Heap B) : Prop where
  created : heap.created = heap'.created
  at? : ∀ n, Option.Rel R (heap.at? n) (heap'.at? n)

variable {R R' : A → B → Prop} {heap : Heap A} {heap' : Heap B}

theorem related_empty : Related R (empty : Heap A) (empty : Heap B) := ⟨rfl, fun _ => .none⟩

theorem Related.mono (related : Related R heap heap') (h : ∀ a b, R a b → R' a b) :
    Related R' heap heap' := by
  refine ⟨related.created, fun n => ?_⟩
  have hat := related.at? n
  generalize heap.at? n = a, heap'.at? n = b at hat
  cases hat with
  | some hab => exact .some (h _ _ hab)
  | none => exact .none

theorem Related.put (related : Related R heap heap') (n : Nat) {a : Option A} {b : Option B}
    (h : Option.Rel R a b) : Related R (heap.put n a) (heap'.put n b) := by
  refine ⟨related.created, fun k => ?_⟩
  by_cases hk : k = n
  · subst hk
    simpa [Heap.put] using h
  · simpa [Heap.put, hk] using related.at? k

theorem Related.alloc (related : Related R heap heap') {a : A} {b : B} (h : R a b) :
    (heap.alloc a).1 = (heap'.alloc b).1 ∧ Related R (heap.alloc a).2 (heap'.alloc b).2 := by
  obtain ⟨hcreated, hat⟩ := related.put heap.created (Option.Rel.some h)
  refine ⟨related.created, congrArg (· + 1) hcreated, fun n => ?_⟩
  rw [Heap.alloc, Heap.alloc, ← related.created]
  exact hat n

end Heap

end DataRefinements
