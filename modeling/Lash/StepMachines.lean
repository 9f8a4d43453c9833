import Mathlib.Order.Defs.LinearOrder
import Mathlib.Tactic.ByContra

/-!
# Machines that take one step at a time

A step leads to the next state or halts with a result. Runs are counted in steps, so
that a claim about every run is an induction on their number.
-/

namespace StepMachines

variable {S H : Type} (step : S → S ⊕ H)

/-- The state after a number of steps, or the result of the run if it halted before. -/
def runFor : Nat → S → S ⊕ H
  | 0, s => .inl s
  | n + 1, s =>
    match step s with
    | .inl t => runFor n t
    | .inr h => .inr h

def Halts (s : S) (h : H) : Prop := ∃ n, runFor step n s = .inr h

def ReachesIn (n : Nat) (s t : S) : Prop := runFor step n s = .inl t

def Reaches (s t : S) : Prop := ∃ n, ReachesIn step n s t

variable {step}

variable {s t : S}

theorem runFor_succ_of_step (n : Nat) (h : step s = .inl t) :
    runFor step (n + 1) s = runFor step n t := by
  simp only [runFor, h]

variable {n : Nat}

theorem runFor_add (m : Nat) (h : ReachesIn step n s t) :
    runFor step (n + m) s = runFor step m t := by
  induction n generalizing s with
  | zero =>
    have hst : s = t := by simpa [ReachesIn, runFor] using h
    rw [hst, Nat.zero_add]
  | succ n ih =>
    cases hs : step s with
    | inl u =>
      have hu : ReachesIn step n u t := by
        rw [ReachesIn, runFor_succ_of_step n hs] at h
        exact h
      rw [Nat.add_right_comm, runFor_succ_of_step _ hs]
      exact ih hu
    | inr r => simp [ReachesIn, runFor, hs] at h

theorem ReachesIn.refl (s : S) : ReachesIn step 0 s s := rfl

theorem ReachesIn.one (h : step s = .inl t) : ReachesIn step 1 s t := by
  rw [ReachesIn, runFor_succ_of_step 0 h]
  rfl

theorem ReachesIn.trans {u : S} {m : Nat} (h : ReachesIn step n s t) (h' : ReachesIn step m t u) :
    ReachesIn step (n + m) s u :=
  (runFor_add m h).trans h'

theorem Reaches.refl (s : S) : Reaches step s s := ⟨0, .refl s⟩

theorem Reaches.one (h : step s = .inl t) : Reaches step s t := ⟨1, .one h⟩

theorem Reaches.trans {u : S} (h : Reaches step s t) (h' : Reaches step t u) :
    Reaches step s u := by
  obtain ⟨n, hn⟩ := h
  obtain ⟨m, hm⟩ := h'
  exact ⟨n + m, hn.trans hm⟩

variable {h : H}

theorem Halts.of_step (hs : step s = .inr h) : Halts step s h := ⟨1, by simp only [runFor, hs]⟩

theorem Halts.of_reaches (hst : Reaches step s t) (ht : Halts step t h) : Halts step s h := by
  obtain ⟨n, hn⟩ := hst
  obtain ⟨m, hm⟩ := ht
  exact ⟨n + m, (runFor_add m hn).trans hm⟩

theorem runFor_stable (hn : runFor step n s = .inr h) (m : Nat) :
    runFor step (n + m) s = .inr h := by
  induction n generalizing s with
  | zero => simp [runFor] at hn
  | succ n ih =>
    cases hs : step s with
    | inl t =>
      rw [runFor_succ_of_step n hs] at hn
      rw [Nat.add_right_comm, runFor_succ_of_step _ hs]
      exact ih hn
    | inr r =>
      have hr : r = h := by simpa [runFor, hs] using hn
      rw [Nat.add_right_comm]
      simp only [runFor, hs, hr]

/-- A run has one result. -/
theorem Halts.unique {h' : H} (hh : Halts step s h) (hh' : Halts step s h') : h = h' := by
  obtain ⟨n, hn⟩ := hh
  obtain ⟨m, hm⟩ := hh'
  have left := runFor_stable hn m
  have right := runFor_stable hm n
  rw [Nat.add_comm] at right
  exact Sum.inr.inj (left.symm.trans right)

/-! ## What a run leads to -/

/-- Within `n` steps, all of them from states of `P`, the run comes to a state of `Q`, or halts
with a result of `R`, or is still going. -/
def Leads (step : S → S ⊕ H) (P Q : S → Prop) (R : H → Prop) : Nat → S → Prop
  | 0, _ => True
  | n + 1, s => Q s ∨ P s ∧
      match step s with
      | .inl t => Leads step P Q R n t
      | .inr h => R h

variable {P P' Q Q' : S → Prop} {R : H → Prop}

theorem Leads.here (h : Q s) : Leads step P Q R n s := by
  cases n with
  | zero => trivial
  | succ n => exact Or.inl h

theorem Leads.after (hP : P s) (h : step s = .inl t) (ht : Leads step P Q R n t) :
    Leads step P Q R (n + 1) s := by
  refine Or.inr ⟨hP, ?_⟩
  rw [h]
  exact ht

theorem Leads.halt (hP : P s) (hs : step s = .inr h) (hR : R h) : Leads step P Q R n s := by
  cases n with
  | zero => trivial
  | succ n =>
    refine Or.inr ⟨hP, ?_⟩
    rw [hs]
    exact hR

/-- One stretch of a run after another. The second may use all the steps that are left. -/
theorem Leads.bind (h : Leads step P Q R n s) (hP : ∀ t, P t → P' t)
    (hQ : ∀ m t, m ≤ n → Q t → Leads step P' Q' R m t) : Leads step P' Q' R n s := by
  induction n generalizing s with
  | zero => trivial
  | succ n ih =>
    rcases h with hq | ⟨hp, hs⟩
    · exact hQ (n + 1) s (Nat.le_refl _) hq
    · refine Or.inr ⟨hP s hp, ?_⟩
      cases hstep : step s with
      | inl t =>
        rw [hstep] at hs
        exact ih hs fun m u hm hu => hQ m u (by omega) hu
      | inr r =>
        rw [hstep] at hs
        exact hs

theorem Leads.weaken (h : Leads step P Q R n s) (hP : ∀ t, P t → P' t) (hQ : ∀ t, Q t → Q' t) :
    Leads step P' Q' R n s :=
  h.bind hP fun _ t _ ht => .here (hQ t ht)

variable (T : S → Prop)

/-- One step, then a stretch that starts where the step leads. -/
theorem Leads.next (hP : P s) (hstep : ∀ t, step s = .inl t → T t)
    (hhalt : ∀ h, step s = .inr h → R h) (hT : ∀ m t, m < n → T t → Leads step P Q R m t) :
    Leads step P Q R n s := by
  cases n with
  | zero => trivial
  | succ n =>
    cases hs : step s with
    | inl t => exact .after hP hs (hT n t (Nat.lt_succ_self n) (hstep t hs))
    | inr h => exact .halt hP hs (hhalt h hs)

/-- A run that comes to no state of `Q` halts with a result of `R` if it halts. -/
theorem Leads.halts (hs : ∀ n, Leads step P (fun _ => False) R n s) (hh : Halts step s h) :
    R h := by
  obtain ⟨n, hn⟩ := hh
  induction n generalizing s with
  | zero => simp [runFor] at hn
  | succ n ih =>
    cases hstep : step s with
    | inl t =>
      have ht : ∀ m, Leads step P (fun _ => False) R m t := by
        intro m
        rcases hs (m + 1) with hfalse | ⟨-, hm⟩
        · exact hfalse.elim
        · rw [hstep] at hm
          exact hm
      rw [runFor_succ_of_step n hstep] at hn
      exact ih ht hn
    | inr r =>
      have hr : r = h := by simpa [runFor, hstep] using hn
      rcases hs 1 with hfalse | ⟨-, hl⟩
      · exact hfalse.elim
      · rw [hstep] at hl
        exact hr ▸ hl

/-- What every step keeps holds of every state the run comes to. -/
theorem Reaches.always (hstep : ∀ s t, T s → step s = .inl t → T t) (h : Reaches step s t)
    (hs : T s) : T t := by
  obtain ⟨n, hn⟩ := h
  induction n generalizing s with
  | zero =>
    have hst : s = t := by simpa [ReachesIn, runFor] using hn
    exact hst ▸ hs
  | succ n ih =>
    cases hnext : step s with
    | inl u =>
      rw [ReachesIn, runFor_succ_of_step n hnext] at hn
      exact ih (hstep s u hs hnext) hn
    | inr r => simp [ReachesIn, runFor, hnext] at hn

/-- What every step keeps, unless it leads to a state of `Q`, holds as long as the run goes on. -/
theorem Leads.always (hP : ∀ s, T s → P s) (hstep : ∀ s t, T s → step s = .inl t → T t ∨ Q t)
    (hhalt : ∀ s h, T s → step s = .inr h → R h) (hs : T s) (n : Nat) : Leads step P Q R n s := by
  induction n generalizing s with
  | zero => trivial
  | succ n ih =>
    cases hnext : step s with
    | inl t =>
      refine .after (hP s hs) hnext ?_
      rcases hstep s t hs hnext with ht | ht
      · exact ih ht
      · exact .here ht
    | inr r => exact .halt (hP s hs) hnext (hhalt s r hs hnext)

end StepMachines
