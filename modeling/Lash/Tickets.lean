import Mathlib.Data.List.Nodup

/-!
# Tickets that are used once

A desk issues tickets to clerks and never issues one twice. A clerk uses the tickets it
holds one after another, or loses them. So no ticket is used twice.
-/

namespace Tickets

universe u

variable {K : Type u}

structure Desk (K : Type u) where
  issued : List K
  used : List K
  held : Nat → List K

def Desk.give (desk : Desk K) (clerk : Nat) (keys : List K) : Nat → List K :=
  fun i => if i = clerk then keys else desk.held i

inductive Move (desk : Desk K) : Desk K → Prop where
  | issue {issued keys : List K} (clerk : Nat) (hkept : desk.issued ⊆ issued)
      (hkeys : keys ⊆ issued) (hfresh : ∀ k ∈ keys, k ∉ desk.issued) (hnodup : keys.Nodup) :
      Move desk ⟨issued, desk.used, desk.give clerk keys⟩
  | use {clerk : Nat} {key : K} {rest : List K} (hheld : desk.held clerk = key :: rest) :
      Move desk ⟨desk.issued, key :: desk.used, desk.give clerk rest⟩
  | lose {clerk : Nat} {rest : List K} (hrest : rest.Sublist (desk.held clerk)) :
      Move desk ⟨desk.issued, desk.used, desk.give clerk rest⟩
  | stay : Move desk desk

/-- Every ticket was issued, is held by one clerk at most, and is held by none once used. -/
structure Sound (desk : Desk K) : Prop where
  nodup : desk.used.Nodup
  issued : desk.used ⊆ desk.issued
  held : ∀ clerk, desk.held clerk ⊆ desk.issued
  once : ∀ clerk, (desk.held clerk).Nodup
  unused : ∀ clerk, ∀ k ∈ desk.held clerk, k ∉ desk.used
  apart : ∀ clerk other, clerk ≠ other → ∀ k ∈ desk.held clerk, k ∉ desk.held other

variable {desk next : Desk K}

theorem Sound.new (held : Nat → List K) (h : ∀ clerk, held clerk = []) :
    Sound (⟨[], [], held⟩ : Desk K) := by
  constructor <;> simp [h]

theorem Sound.lose (hs : Sound desk) {clerk : Nat} {rest : List K}
    (hrest : rest.Sublist (desk.held clerk)) :
    Sound ⟨desk.issued, desk.used, desk.give clerk rest⟩ := by
  have hsub : ∀ i, (desk.give clerk rest i).Sublist (desk.held i) := by
    intro i
    unfold Desk.give
    split
    · next hi => exact hi ▸ hrest
    · exact List.Sublist.refl _
  exact
    { nodup := hs.nodup
      issued := hs.issued
      held := fun i => List.Subset.trans (hsub i).subset (hs.held i)
      once := fun i => (hs.once i).sublist (hsub i)
      unused := fun i k hk => hs.unused i k ((hsub i).subset hk)
      apart := fun i j hij k hk hk' =>
        hs.apart i j hij k ((hsub i).subset hk) ((hsub j).subset hk') }

theorem Sound.use (hs : Sound desk) {clerk : Nat} {key : K} {rest : List K}
    (hheld : desk.held clerk = key :: rest) :
    Sound ⟨desk.issued, key :: desk.used, desk.give clerk rest⟩ := by
  have hmem : key ∈ desk.held clerk := hheld ▸ List.mem_cons_self
  have hlost : Sound ⟨desk.issued, desk.used, desk.give clerk rest⟩ :=
    hs.lose (hheld ▸ List.sublist_cons_self key rest)
  have hnot : ∀ i, key ∉ desk.give clerk rest i := by
    intro i hk
    unfold Desk.give at hk
    split at hk
    · have hnodup := hs.once clerk
      rw [hheld, List.nodup_cons] at hnodup
      exact hnodup.1 hk
    · next hi => exact hs.apart clerk i (Ne.symm hi) key hmem hk
  exact
    { nodup := List.nodup_cons.mpr ⟨hs.unused clerk key hmem, hs.nodup⟩
      issued := List.cons_subset.mpr ⟨hs.held clerk hmem, hs.issued⟩
      held := hlost.held
      once := hlost.once
      unused := by
        intro i k hk hused
        rcases List.mem_cons.mp hused with rfl | hused
        · exact hnot i hk
        · exact hlost.unused i k hk hused
      apart := hlost.apart }

theorem Sound.issue (hs : Sound desk) {issued' keys : List K} (clerk : Nat)
    (hkept : desk.issued ⊆ issued') (hkeys : keys ⊆ issued')
    (hfresh : ∀ k ∈ keys, k ∉ desk.issued) (hnodup : keys.Nodup) :
    Sound ⟨issued', desk.used, desk.give clerk keys⟩ := by
  refine
    { nodup := hs.nodup
      issued := List.Subset.trans hs.issued hkept
      held := ?_
      once := ?_
      unused := ?_
      apart := ?_ }
  · intro i
    show desk.give clerk keys i ⊆ issued'
    unfold Desk.give
    split
    · exact hkeys
    · exact List.Subset.trans (hs.held i) hkept
  · intro i
    show (desk.give clerk keys i).Nodup
    unfold Desk.give
    split
    · exact hnodup
    · exact hs.once i
  · intro i k hk
    simp only [Desk.give] at hk
    split at hk
    · exact fun hused => hfresh k hk (hs.issued hused)
    · exact hs.unused i k hk
  · intro i j hij k hk hk'
    simp only [Desk.give] at hk hk'
    split at hk
    · next hi =>
        rw [if_neg (fun hj => hij (hi.trans hj.symm))] at hk'
        exact hfresh k hk (hs.held j hk')
    · split at hk'
      · exact hfresh k hk' (hs.held i hk)
      · exact hs.apart i j hij k hk hk'

theorem Move.sound (m : Move desk next) (hs : Sound desk) : Sound next := by
  cases m with
  | issue clerk hkept hkeys hfresh hnodup => exact hs.issue clerk hkept hkeys hfresh hnodup
  | use hheld => exact hs.use hheld
  | lose hrest => exact hs.lose hrest
  | stay => exact hs

end Tickets
