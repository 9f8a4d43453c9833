import Mathlib.Data.List.Basic

/-!
# Names made of decimal numerals

A tag followed by a numeral names the number, and a tag followed by two numerals
with a colon between them names the pair: the numerals can be read back.
-/

namespace DecimalNames

open List

universe u

/-- A list is cut at the first place where the separator stands. -/
theorem append_cons_inj {A : Type u} {c : A} {xs ys us vs : List A} (hx : c ∉ xs)
    (hy : c ∉ ys) (h : xs ++ c :: us = ys ++ c :: vs) : xs = ys ∧ us = vs := by
  induction xs generalizing ys with
  | nil =>
    cases ys with
    | nil => simpa using h
    | cons y ys =>
      simp only [nil_append, cons_append, cons.injEq] at h
      exact absurd (h.1 ▸ mem_cons_self) hy
  | cons x xs ih =>
    cases ys with
    | nil =>
      simp only [nil_append, cons_append, cons.injEq] at h
      exact absurd (h.1 ▸ mem_cons_self) hx
    | cons y ys =>
      simp only [cons_append, cons.injEq] at h
      obtain ⟨hxs, hus⟩ := ih (fun hc => hx (mem_cons_of_mem _ hc))
        (fun hc => hy (mem_cons_of_mem _ hc)) h.2
      exact ⟨by rw [h.1, hxs], hus⟩

theorem toDigits_injective {m n : Nat} (h : Nat.toDigits 10 m = Nat.toDigits 10 n) : m = n := by
  have hm : Nat.ofDigitChars 10 (Nat.toDigits 10 m) 0 = m := Nat.ofDigitChars_ten_toDigits
  have hn : Nat.ofDigitChars 10 (Nat.toDigits 10 n) 0 = n := Nat.ofDigitChars_ten_toDigits
  rw [h, hn] at hm
  exact hm.symm

theorem colon_not_mem_toDigits (n : Nat) : ':' ∉ Nat.toDigits 10 n := by
  intro hmem
  have hdigit := Nat.isDigit_of_mem_toDigits (by decide) (by decide) hmem
  exact absurd hdigit (by decide)

theorem toList_numeral (n : Nat) : (toString n).toList = Nat.toDigits 10 n := Nat.toList_repr

theorem tagged_injective {tag : String} {m n : Nat} (h : tag ++ toString m = tag ++ toString n) :
    m = n := by
  have hlist := congrArg String.toList h
  rw [String.toList_append, String.toList_append, append_cancel_left_eq, toList_numeral,
    toList_numeral] at hlist
  exact toDigits_injective hlist

theorem tagged_pair_injective {tag : String} {a b c d : Nat}
    (h : tag ++ toString a ++ ":" ++ toString b = tag ++ toString c ++ ":" ++ toString d) :
    a = c ∧ b = d := by
  have hcolon : (":" : String).toList = [':'] := rfl
  have hlist := congrArg String.toList h
  simp only [String.toList_append, hcolon, append_assoc, append_cancel_left_eq,
    singleton_append, toList_numeral] at hlist
  obtain ⟨hfirst, hsecond⟩ := append_cons_inj (colon_not_mem_toDigits a)
    (colon_not_mem_toDigits c) hlist
  exact ⟨toDigits_injective hfirst, toDigits_injective hsecond⟩

end DecimalNames
