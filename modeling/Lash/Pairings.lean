import Mathlib.Data.List.Count
import Mathlib.Data.List.Nodup
import Mathlib.Data.List.Perm.Subperm

/-!
# Asking and answering by id

A ledger keeps which ids were asked and which were answered. An id is asked at
most once and answered at most once, after it was asked; a ledger is even when
nothing asked is left without an answer. The last section says when a round of
questions and answers leads from an even ledger to an even one.
-/

namespace Pairings

open List

universe u v

inductive Move (I : Type u) where
  | ask (id : I)
  | answer (id : I)
  deriving DecidableEq

structure Ledger (I : Type u) where
  asked : List I
  answered : List I

def Ledger.empty {I : Type u} : Ledger I := ⟨[], []⟩

def Ledger.even {I : Type u} (ledger : Ledger I) : Bool :=
  ledger.asked.length == ledger.answered.length

section

variable {I : Type u} {ledger ledger' : Ledger I}

/-- Every id once, and only answers to what was asked. -/
structure Ledger.Sound (ledger : Ledger I) : Prop where
  asked : ledger.asked.Nodup
  answered : ledger.answered.Nodup
  known : ∀ id ∈ ledger.answered, id ∈ ledger.asked

theorem sound_empty : (Ledger.empty : Ledger I).Sound :=
  ⟨List.nodup_nil, List.nodup_nil, fun _ h => h⟩

/-- In an even ledger the answered ids are the asked ones. -/
theorem Ledger.Sound.perm (sound : ledger.Sound) (even : ledger.even = true) :
    ledger.answered.Perm ledger.asked := by
  refine List.Subperm.perm_of_length_le (sound.answered.subperm sound.known) ?_
  exact Nat.le_of_eq (beq_iff_eq.mp even)

variable [DecidableEq I]

def Ledger.next (ledger : Ledger I) : Move I → Option (Ledger I)
  | .ask id =>
    if id ∈ ledger.asked then none
    else some { ledger with asked := ledger.asked ++ [id] }
  | .answer id =>
    if id ∈ ledger.asked ∧ id ∉ ledger.answered then
      some { ledger with answered := ledger.answered ++ [id] }
    else none

def Ledger.run (ledger : Ledger I) (moves : List (Move I)) : Option (Ledger I) :=
  moves.foldlM Ledger.next ledger

theorem Ledger.run_append (ledger : Ledger I) (first second : List (Move I)) :
    ledger.run (first ++ second) = (ledger.run first).bind fun reached => reached.run second := by
  simp only [run, foldlM_append]
  rfl

theorem Ledger.Sound.next {move : Move I} (sound : ledger.Sound)
    (reached : ledger.next move = some ledger') : ledger'.Sound := by
  cases move with
  | ask id =>
    simp only [Ledger.next] at reached
    split at reached
    · cases reached
    · rename_i hfresh
      cases reached
      refine ⟨sound.asked.append (nodup_singleton id) ?_, sound.answered, ?_⟩
      · exact disjoint_singleton.mpr hfresh
      · exact fun i hi => mem_append_left _ (sound.known i hi)
  | answer id =>
    simp only [Ledger.next] at reached
    split at reached
    · rename_i hknown
      cases reached
      refine ⟨sound.asked, sound.answered.append (nodup_singleton id) ?_, ?_⟩
      · exact disjoint_singleton.mpr hknown.2
      · intro i hi
        rcases mem_append.mp hi with h | h
        · exact sound.known i h
        · exact mem_singleton.mp h ▸ hknown.1
    · cases reached

theorem run_asks (ids : List I) : ledger.run (ids.map .ask) = some ledger' ↔
      ids.Nodup ∧ (∀ id ∈ ids, id ∉ ledger.asked) ∧
        ledger' = { ledger with asked := ledger.asked ++ ids } := by
  induction ids generalizing ledger with
  | nil => simp [Ledger.run, eq_comm]
  | cons id ids ih =>
    have hstep : ledger.run ((id :: ids).map .ask) =
        (ledger.next (.ask id)).bind fun next => next.run (ids.map .ask) := rfl
    rw [hstep]
    by_cases hknown : id ∈ ledger.asked
    · simp [Ledger.next, hknown]
    · rw [Ledger.next, if_neg hknown, Option.bind_some, ih]
      simp only [mem_append, nodup_cons, mem_cons, not_mem_nil, or_false,
        forall_eq_or_imp, append_assoc, singleton_append]
      constructor
      · rintro ⟨hnodup, hfresh, rfl⟩
        exact ⟨⟨fun h => hfresh id h (.inr rfl), hnodup⟩,
          ⟨hknown, fun i hi h => hfresh i hi (.inl h)⟩, rfl⟩
      · rintro ⟨⟨hid, hnodup⟩, ⟨_, hfresh⟩, rfl⟩
        refine ⟨hnodup, fun i hi => ?_, rfl⟩
        rintro (h | rfl)
        · exact hfresh i hi h
        · exact hid hi

theorem run_answers (ids : List I) : ledger.run (ids.map .answer) = some ledger' ↔
      ids.Nodup ∧ (∀ id ∈ ids, id ∈ ledger.asked ∧ id ∉ ledger.answered) ∧
        ledger' = { ledger with answered := ledger.answered ++ ids } := by
  induction ids generalizing ledger with
  | nil => simp [Ledger.run, eq_comm]
  | cons id ids ih =>
    have hstep : ledger.run ((id :: ids).map .answer) =
        (ledger.next (.answer id)).bind fun next => next.run (ids.map .answer) := rfl
    rw [hstep]
    by_cases hopen : id ∈ ledger.asked ∧ id ∉ ledger.answered
    · rw [Ledger.next, if_pos hopen, Option.bind_some, ih]
      simp only [mem_append, nodup_cons, mem_cons, not_mem_nil, or_false,
        forall_eq_or_imp, append_assoc, singleton_append]
      constructor
      · rintro ⟨hnodup, hfresh, rfl⟩
        exact ⟨⟨fun h => (hfresh id h).2 (.inr rfl), hnodup⟩,
          ⟨hopen, fun i hi => ⟨(hfresh i hi).1, fun h => (hfresh i hi).2 (.inl h)⟩⟩, rfl⟩
      · rintro ⟨⟨hid, hnodup⟩, ⟨_, hfresh⟩, rfl⟩
        refine ⟨hnodup, fun i hi => ⟨(hfresh i hi).1, ?_⟩, rfl⟩
        rintro (h | rfl)
        · exact (hfresh i hi).2 h
        · exact hid hi
    · simp [Ledger.next, hopen]

/-- A round keeps a ledger even if it asks fresh ids, each once, and answers each of
them exactly once. -/
theorem round_even_iff (sound : ledger.Sound) (even : ledger.even = true) (asks answers : List I) :
    (∃ reached, ledger.run (asks.map .ask ++ answers.map .answer) = some reached ∧
        reached.even = true) ↔
      asks.Nodup ∧ (∀ id ∈ asks, id ∉ ledger.asked) ∧ answers.Perm asks := by
  have hpast := sound.perm even
  constructor
  · rintro ⟨reached, hrun, heven⟩
    rw [Ledger.run_append] at hrun
    obtain ⟨middle, hasks, hanswers⟩ := Option.bind_eq_some_iff.mp hrun
    obtain ⟨hnodup, hfresh, rfl⟩ := run_asks asks |>.mp hasks
    obtain ⟨hnodup', hopen, rfl⟩ := run_answers answers |>.mp hanswers
    refine ⟨hnodup, hfresh, List.Subperm.perm_of_length_le (hnodup'.subperm ?_) ?_⟩
    · intro id hid
      obtain ⟨hasked, hnew⟩ := hopen id hid
      rcases mem_append.mp hasked with h | h
      · exact absurd (hpast.mem_iff.mpr h) hnew
      · exact h
    · have hlengths := beq_iff_eq.mp heven
      have hpastLength := hpast.length_eq
      simp only [length_append] at hlengths
      omega
  · rintro ⟨hnodup, hfresh, hperm⟩
    refine ⟨⟨ledger.asked ++ asks, ledger.answered ++ answers⟩, ?_, ?_⟩
    · rw [Ledger.run_append, run_asks asks |>.mpr ⟨hnodup, hfresh, rfl⟩, Option.bind_some,
        run_answers]
      refine ⟨hperm.nodup_iff.mpr hnodup, fun id hid => ⟨?_, fun h => ?_⟩, rfl⟩
      · exact mem_append_right _ (hperm.mem_iff.mp hid)
      · exact hfresh id (hperm.mem_iff.mp hid) (hpast.mem_iff.mp h)
    · have hpastLength := hpast.length_eq
      have hlength := hperm.length_eq
      refine beq_iff_eq.mpr ?_
      simp only [length_append]
      omega

/-- Answers that are given by item come to one for each key exactly if every item
gives one. -/
theorem replicated_perm_iff {A : Type v} (key : A → I) (times : A → Nat) {items : List A}
    (nodup : (items.map key).Nodup) :
    (items.flatMap fun a => List.replicate (times a) (key a)).Perm (items.map key) ↔
      ∀ a ∈ items, times a = 1 := by
  induction items with
  | nil => simp
  | cons a items ih =>
    obtain ⟨hnew, hrest⟩ := nodup_cons.mp nodup
    rw [flatMap_cons, map_cons, forall_mem_cons]
    constructor
    · intro hperm
      have hnone : (items.flatMap fun b => replicate (times b) (key b)).count (key a) = 0 := by
        refine count_eq_zero.mpr fun hmem => ?_
        obtain ⟨b, hb, hkey⟩ := mem_flatMap.mp hmem
        exact hnew ((eq_of_mem_replicate hkey) ▸ mem_map_of_mem hb)
      have hcount := hperm.count_eq (key a)
      rw [count_append, count_replicate_self, hnone, count_cons_self,
        count_eq_zero.mpr hnew] at hcount
      have hone : times a = 1 := hcount
      rw [hone] at hperm
      exact ⟨hone, (ih hrest).mp (List.Perm.cons_inv hperm)⟩
    · rintro ⟨hone, hall⟩
      rw [hone]
      exact ((ih hrest).mpr hall).cons (key a)

end

end Pairings
