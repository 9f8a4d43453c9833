import Lash.Runs

/-!
# Cells that are written once

A state holds one cell for each key. If every step keeps what is written, then a cell
is filled by at most one entry of a run, and what it holds at any time it holds ever
after.
-/

namespace OnceCells

open Runs

universe u v w x y

variable {K : Type x} {V : Type y}

/-- Whatever is written stays as it is. -/
def Keeps (old new : K → Option V) : Prop := ∀ k v, old k = some v → new k = some v

theorem Keeps.refl (c : K → Option V) : Keeps c c := fun _ _ h => h

theorem Keeps.of_eq {c d : K → Option V} (h : d = c) : Keeps c d := h ▸ .refl d

/-- A write to one cell that was empty. -/
theorem keeps_of_write {c d : K → Option V} {k : K} (hempty : c k = none)
    (hother : ∀ l, l ≠ k → d l = c l) : Keeps c d := by
  intro l v hl
  have hne : l ≠ k := by
    rintro rfl
    rw [hempty] at hl
    cases hl
  rw [hother l hne, hl]

variable {I : Type u} {S : Type v} {O : Type w} {step : I → S → O × S} {start s : S}
variable {history newer older : List (Entry I S O)} {d e : Entry I S O}
variable {cells : S → K → Option V} {k : K} {v v' : V}

/-- The entry wrote the value into the empty cell. -/
def Fills (cells : S → K → Option V) (e : Entry I S O) (k : K) (v : V) : Prop :=
  cells e.before k = none ∧ cells e.after k = some v

section

variable (kept : ∀ s i, Reachable step start s → Keeps (cells s) (cells (step i s).2))
include kept

/-- What a cell holds after an entry it holds at the end. -/
theorem stays (run : Run step start history s) (shape : history = newer ++ e :: older)
    (h : cells e.after k = some v) : cells s k = some v :=
  run.later (P := fun s => cells s k = some v) shape h fun s i reached hs =>
    kept s i reached k v hs

/-- What a cell holds after an entry it holds before every later one. -/
theorem stays_before (run : Run step start history s) (shape : history = newer ++ e :: older)
    (hd : d ∈ older) (h : cells d.after k = some v) : cells e.before k = some v := by
  obtain ⟨newer', older', rfl⟩ := List.append_of_mem hd
  obtain ⟨hrun, -, -⟩ := run.split shape
  exact stays kept hrun rfl h

theorem filled_once (run : Run step start history s) (shape : history = newer ++ e :: older)
    (hd : d ∈ older) (hfills : Fills cells d k v) : ¬ Fills cells e k v' := by
  rintro ⟨hempty, -⟩
  rw [stays_before kept run shape hd hfills.2] at hempty
  cases hempty

/-- A cell that is not empty was filled by an entry, if all of them were empty at first. -/
theorem filled_by (hstart : cells start k = none) (run : Run step start history s)
    (h : cells s k = some v) : ∃ e ∈ history, Fills cells e k v := by
  induction run with
  | nil =>
    rw [hstart] at h
    cases h
  | @cons history s earlier i ih =>
    cases hs : cells s k with
    | none => exact ⟨_, List.mem_cons_self, hs, h⟩
    | some old =>
      have hsame : old = v := by
        have hkept := kept s i earlier.reachable k old hs
        rw [hkept] at h
        exact Option.some.inj h
      obtain ⟨e, he, hfills⟩ := ih (hsame ▸ hs)
      exact ⟨e, List.mem_cons_of_mem _ he, hfills⟩

end

end OnceCells
