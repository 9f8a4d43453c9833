import Mathlib.Data.List.Basic

/-!
# Runs of a state machine and their histories

A machine answers each input with an output and a next state. A run records
every step, newest first, with the states on both of its sides; nothing is
assumed about who chose the inputs, so a property of every run holds for every
interleaving of the callers.
-/

namespace Runs

open List

universe u v w

/-- One step of a run, with the states around it. -/
structure Entry (I : Type u) (S : Type v) (O : Type w) where
  before : S
  input : I
  output : O
  after : S

section

variable {I : Type u} {S : Type v} {O : Type w}

def entryAt (step : I → S → O × S) (i : I) (s : S) : Entry I S O where
  before := s
  input := i
  output := (step i s).1
  after := (step i s).2

/-- The runs from `start`: the history so far, newest entry first, and the
state it leads to. -/
inductive Run (step : I → S → O × S) (start : S) :
    List (Entry I S O) → S → Prop
  | nil : Run step start [] start
  | cons {history : List (Entry I S O)} {s : S} (earlier : Run step start history s)
      (i : I) : Run step start (entryAt step i s :: history) (step i s).2

def Reachable (step : I → S → O × S) (start s : S) : Prop :=
  ∃ history, Run step start history s

variable {step : I → S → O × S} {start s : S} {history : List (Entry I S O)}

theorem Run.reachable (run : Run step start history s) : Reachable step start s := ⟨history, run⟩

theorem Reachable.refl : Reachable step start start := ⟨[], .nil⟩

theorem Reachable.next (reached : Reachable step start s) (i : I) :
    Reachable step start (step i s).2 := by
  obtain ⟨history, run⟩ := reached
  exact ⟨_, run.cons i⟩

variable {P : List (Entry I S O) → S → Prop}

/-- A predicate of the history and the state that holds at the start and is
kept by every step holds after every run. -/
theorem Run.invariant (initial : P [] start)
    (kept : ∀ history s i, Run step start history s → P history s →
      P (entryAt step i s :: history) (step i s).2) (run : Run step start history s) :
    P history s := by
  induction run with
  | nil => exact initial
  | cons earlier i ih => exact kept _ _ i earlier ih

theorem Reachable.invariant {P : S → Prop} (initial : P start)
    (kept : ∀ s i, P s → P (step i s).2) (reached : Reachable step start s) :
    P s := by
  obtain ⟨history, run⟩ := reached
  exact run.invariant (P := fun _ s => P s) initial (fun _ s i _ h => kept s i h)

variable {Q : Entry I S O → Prop}

/-- A predicate kept only by the steps that satisfy `Q` holds after every run
all of whose entries satisfy `Q`. -/
theorem Run.invariant_of (initial : P [] start)
    (kept : ∀ history s i, Run step start history s → Q (entryAt step i s) →
      P history s → P (entryAt step i s :: history) (step i s).2) (run : Run step start history s)
    (all : ∀ e ∈ history, Q e) : P history s := by
  induction run with
  | nil => exact initial
  | cons earlier i ih =>
    have hearlier := ih fun e he => all e (mem_cons_of_mem _ he)
    exact kept _ _ i earlier (all _ mem_cons_self) hearlier

variable {e : Entry I S O} {newer older : List (Entry I S O)}

section

variable (run : Run step start history s)
include run

/-- Every entry was produced by the machine from a state reached before it. -/
theorem Run.split (shape : history = newer ++ e :: older) :
    Run step start older e.before ∧ e = entryAt step e.input e.before ∧
      Run step e.after newer s := by
  induction run generalizing newer with
  | nil => simp at shape
  | @cons history s earlier i ih =>
    cases newer with
    | nil =>
      obtain ⟨rfl, rfl⟩ := cons_eq_cons.mp shape
      exact ⟨earlier, rfl, .nil⟩
    | cons d newer =>
      obtain ⟨rfl, hrest⟩ := cons_eq_cons.mp shape
      obtain ⟨hbefore, hentry, hafter⟩ := ih hrest
      exact ⟨hbefore, hentry, hafter.cons i⟩

theorem Run.entry (he : e ∈ history) :
    Reachable step start e.before ∧ e = entryAt step e.input e.before := by
  obtain ⟨newer, older, shape⟩ := append_of_mem he
  obtain ⟨hbefore, hentry, _⟩ := run.split shape
  exact ⟨hbefore.reachable, hentry⟩

theorem Run.entry_after (he : e ∈ history) : Reachable step start e.after := by
  obtain ⟨⟨earlier, hrun⟩, hentry⟩ := run.entry he
  rw [hentry]
  exact ⟨_, hrun.cons e.input⟩

/-- What an entry establishes and every later step keeps holds at the end, if
the later entries satisfy `Q`. -/
theorem Run.later_of {P : S → Prop} (shape : history = newer ++ e :: older)
    (established : P e.after) (all : ∀ d ∈ newer, Q d)
    (kept : ∀ s i, Reachable step start s → Q (entryAt step i s) → P s → P (step i s).2) : P s := by
  have hafter : Reachable step start e.after := run.entry_after (by simp [shape])
  obtain ⟨_, _, hrun⟩ := run.split shape
  clear run shape
  suffices h : Reachable step start s ∧ P s from h.2
  induction hrun with
  | nil => exact ⟨hafter, established⟩
  | cons _ i ih =>
    obtain ⟨hreached, hholds⟩ := ih fun d hd => all d (mem_cons_of_mem _ hd)
    exact ⟨hreached.next i, kept _ i hreached (all _ mem_cons_self) hholds⟩

theorem Run.later {P : S → Prop} (shape : history = newer ++ e :: older) (established : P e.after)
    (kept : ∀ s i, Reachable step start s → P s → P (step i s).2) : P s :=
  run.later_of (Q := fun _ => True) shape established (fun _ _ => trivial)
    fun s i reached _ holds => kept s i reached holds

end

/-- The entry `d` lies further back in the history than `e`. -/
def Precedes (history : List (Entry I S O)) (d e : Entry I S O) : Prop :=
  ∃ newer older, history = newer ++ e :: older ∧ d ∈ older

/-- The history and the state after these inputs, oldest first. -/
def perform (step : I → S → O × S) :
    List I → List (Entry I S O) × S → List (Entry I S O) × S
  | [], done => done
  | i :: inputs, (history, s) =>
    perform step inputs (entryAt step i s :: history, (step i s).2)

theorem perform_append (step : I → S → O × S) (first second : List I)
    (done : List (Entry I S O) × S) :
    perform step (first ++ second) done = perform step second (perform step first done) := by
  induction first generalizing done with
  | nil => rfl
  | cons i first ih => exact ih _

theorem Run.perform (run : Run step start history s) (inputs : List I) :
    Run step start (perform step inputs (history, s)).1
      (perform step inputs (history, s)).2 := by
  induction inputs generalizing history s with
  | nil => exact run
  | cons i inputs ih => exact ih (run.cons i)

/-- Every entry of a performed history answers one of the inputs. -/
theorem input_mem_of_perform {inputs : List I} {done : List (Entry I S O)}
    (he : e ∈ (perform step inputs (done, s)).1) : e ∈ done ∨ e.input ∈ inputs := by
  induction inputs generalizing done s with
  | nil => exact .inl he
  | cons i inputs ih =>
    rcases ih he with hdone | hlater
    · rcases mem_cons.mp hdone with rfl | hdone
      · exact .inr mem_cons_self
      · exact .inl hdone
    · exact .inr (mem_cons_of_mem _ hlater)

end

end Runs
