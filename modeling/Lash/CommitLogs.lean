import Lash.Runs

/-!
# Logs of keyed commits

A log counts what was committed and keeps, by key, what the commit of that key
has recorded. A commit may have no key; one with a key needs the key to be free.
A machine follows a log when each of its steps commits at most once. What was
recorded is then never changed, no key is committed twice, and the count is the
number of commits.
-/

namespace CommitLogs

open Runs

universe u v w x y

structure Log (K : Type u) (V : Type v) where
  count : Nat
  recorded : K → Option V

section Steps

variable {K : Type u} {V : Type v} [DecidableEq K]

/-- One step of a log: what it commits, if anything, and the log after it. -/
inductive Commits (log : Log K V) : Option (Option (K × V)) → Log K V → Prop
  | idle : Commits log none log
  | unkeyed : Commits log (some none) { log with count := log.count + 1 }
  | keyed (k : K) (v : V) (free : log.recorded k = none) :
      Commits log (some (some (k, v)))
        { count := log.count + 1, recorded := Function.update log.recorded k (some v) }

variable {log after : Log K V} {what : Option (Option (K × V))} {k : K} {v : V}

theorem Commits.keeps (h : Commits log what after) (stored : log.recorded k = some v) :
    after.recorded k = some v := by
  cases h with
  | idle | unkeyed => exact stored
  | keyed k' v' free =>
    have hne : k ≠ k' := by
      rintro rfl
      simp [free] at stored
    simpa [hne] using stored

theorem Commits.records (h : Commits log (some (some (k, v))) after) :
    after.recorded k = some v := by
  cases h with
  | keyed k v free => simp

theorem Commits.free (h : Commits log (some (some (k, v))) after) : log.recorded k = none := by
  cases h with
  | keyed k v free => exact free

theorem Commits.count_eq (h : Commits log what after) :
    after.count = if what.isSome then log.count + 1 else log.count := by
  cases h with
  | idle | unkeyed | keyed k v free => rfl

end Steps

section Machines

variable {I : Type u} {S : Type v} {O : Type w} {K : Type x} {V : Type y} [DecidableEq K]
  {step : I → S → O × S} {start s : S} {history newer older : List (Entry I S O)}
  {e e' : Entry I S O} {logOf : S → Log K V} {what : Entry I S O → Option (Option (K × V))}
  {k : K} {v v' : V}

/-- Every step of the machine commits to the log what `what` says it does. -/
def Follows (step : I → S → O × S) (logOf : S → Log K V)
    (what : Entry I S O → Option (Option (K × V))) : Prop :=
  ∀ i s, Commits (logOf s) (what (entryAt step i s)) (logOf (step i s).2)

theorem Follows.entry (follows : Follows step logOf what) (run : Run step start history s)
    (he : e ∈ history) : Commits (logOf e.before) (what e) (logOf e.after) := by
  have hshape := (run.entry he).2
  rw [hshape]
  exact follows e.input e.before

/-- What a commit has recorded is there after every later history. -/
theorem Follows.recorded (follows : Follows step logOf what)
    (run : Run step start history s) (he : e ∈ history) (hwhat : what e = some (some (k, v))) :
    (logOf s).recorded k = some v := by
  obtain ⟨newer, older, shape⟩ := List.append_of_mem he
  refine run.later (P := fun s => (logOf s).recorded k = some v) shape ?_ ?_
  · have hentry := follows.entry run he
    rw [hwhat] at hentry
    exact hentry.records
  · intro s i _ hstored
    exact (follows i s).keeps hstored

/-- No key is committed a second time. -/
theorem Follows.once (follows : Follows step logOf what) (run : Run step start history s)
    (shape : history = newer ++ e :: older) (he' : e' ∈ older)
    (hwhat : what e = some (some (k, v))) : what e' ≠ some (some (k, v')) := by
  intro hwhat'
  obtain ⟨hbefore, _, _⟩ := run.split shape
  have hstored := follows.recorded hbefore he' hwhat'
  have hentry := follows.entry run (e := e) (by simp [shape])
  rw [hwhat] at hentry
  simp [hentry.free] at hstored

end Machines

end CommitLogs
