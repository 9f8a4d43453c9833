import Mathlib

/-!
# Doubles as bit patterns

A double is determined by what it unpacks to. So doubles that compare equal are one
double, but for the two zeros, and a sum with a zero leaves what is no zero.
-/

namespace Doubles

open Float.Model Float.Model.UnpackedFloat Format BitVec

theorem toBitVec_ofBitVec (v : BitVec 1) : (Sign.ofBitVec v).toBitVec = v := by
  revert v
  decide

/-- A double is its sign, its exponent and its mantissa. -/
theorem packComponents_parts (b : BitVec binary64.numBits) :
    packComponents .binary64 (Sign.ofBitVec (unpackSign b)) (unpackExponent b) (unpackMantissa b) =
      b := by
  have hlt := b.isLt
  apply eq_of_toNat_eq
  rw [packComponents, toBitVec_ofBitVec, toNat_append, toNat_append,
    ← Nat.shiftLeft_add_eq_or_of_lt (unpackMantissa b).isLt,
    ← Nat.shiftLeft_add_eq_or_of_lt (unpackExponent b).isLt]
  simp only [unpackSign, unpackExponent, unpackMantissa, toNat_cast,
    extractLsb_toNat, Nat.shiftLeft_eq, Nat.shiftRight_eq_div_pow]
  norm_num at hlt ⊢
  omega

variable {b : BitVec binary64.numBits}

theorem packComponents_eq {exponent : BitVec binary64.exponentBits}
    {mantissa : BitVec binary64.mantissaBitsWithoutImplicit}
    (hexponent : unpackExponent b = exponent) (hmantissa : unpackMantissa b = mantissa) :
    packComponents .binary64 (Sign.ofBitVec (unpackSign b)) exponent mantissa = b := by
  rw [← hexponent, ← hmantissa]
  exact packComponents_parts b

theorem toNat_implicit (mantissa : BitVec 52) :
    (1#1 ++ mantissa).toNat = 2 ^ 52 + mantissa.toNat := by
  rw [toNat_append, ← Nat.shiftLeft_add_eq_or_of_lt mantissa.isLt]
  rfl

/-- A number too small for the implicit bit has no bit in its place. -/
theorem pack_subnormal (hexponent : unpackExponent b = 0#_) (hpos : 0 < (unpackMantissa b).toNat) :
    UnpackedFloat.pack .binary64 (.finite (Sign.ofBitVec (unpackSign b)) (unpackMantissa b).toNat
      (((unpackExponent b).toNat : Int) -
        (binary64.exponentBias + binary64.mantissaBitsWithoutImplicit) + 1) hpos) =
      b := by
  have hlt : (unpackMantissa b).toNat < 2 ^ 52 := (unpackMantissa b).isLt
  have hlog : (unpackMantissa b).toNat.log2 < 52 := (Nat.log2_lt (by omega)).mpr hlt
  have hbits : binary64.mantissaBits = 53 := by decide
  have hzero : (unpackExponent b).toNat = 0 := by
    rw [hexponent]
    rfl
  rw [UnpackedFloat.pack, if_neg, if_neg]
  · exact packComponents_eq hexponent (by rw [ofNat_toNat, setWidth_eq])
  · omega
  · rw [hzero]
    decide

theorem pack_normal (hones : unpackExponent b ≠ -1#_) (hpos : 0 < (1#1 ++ unpackMantissa b).toNat) :
    UnpackedFloat.pack .binary64 (.finite (Sign.ofBitVec (unpackSign b))
      (1#1 ++ unpackMantissa b).toNat (((unpackExponent b).toNat : Int) -
        (binary64.exponentBias + binary64.mantissaBitsWithoutImplicit)) hpos) =
      b := by
  have hlt : (unpackMantissa b).toNat < 2 ^ 52 := (unpackMantissa b).isLt
  have hnat : (1#1 ++ unpackMantissa b).toNat = 2 ^ 52 + (unpackMantissa b).toNat :=
    toNat_implicit (unpackMantissa b)
  have hlog : (1#1 ++ unpackMantissa b).toNat.log2 = 52 := by
    rw [hnat, Nat.log2_eq_iff (by omega)]
    omega
  have hexponent : (unpackExponent b).toNat < 2 ^ 11 - 1 := by
    have hle : (unpackExponent b).toNat < 2 ^ 11 := (unpackExponent b).isLt
    have hne : (unpackExponent b).toNat ≠ 2 ^ 11 - 1 :=
      fun h => hones (eq_of_toNat_eq h)
    omega
  have hbiased : ((((unpackExponent b).toNat : Int) -
      (binary64.exponentBias + binary64.mantissaBitsWithoutImplicit)) +
        binary64.exponentBias + binary64.mantissaBitsWithoutImplicit).toNat =
      (unpackExponent b).toNat := by
    omega
  have hbits : binary64.mantissaBits = 53 := by decide
  rw [UnpackedFloat.pack]
  simp only [hbiased]
  rw [if_neg, if_pos]
  · refine packComponents_eq ?_ ?_
    · rw [ofNat_toNat, setWidth_eq]
    · apply eq_of_toNat_eq
      rw [hnat, toNat_ofNat]
      change _ = _ % 2 ^ 52
      omega
  · omega
  · omega

/-- Packing gives back what was unpacked. -/
theorem pack_unpack (x : Float.Model) : Float.Model.pack x.unpack = x := by
  obtain ⟨bits, hvalid⟩ := x
  suffices h : UnpackedFloat.pack .binary64 (UnpackedFloat.unpack .binary64 bits.toBitVec) =
      bits.toBitVec by
    simp only [Float.Model.pack, Float.Model.unpack, h]
  unfold UnpackedFloat.unpack
  dsimp only
  split
  · next hones =>
      split
      · next hzero => exact packComponents_eq hones hzero
      · next hzero => exact (hvalid.eq_packedNaN hones hzero).symm
  · next hones =>
      split
      · next hexponent =>
          split
          · next hzero => exact packComponents_eq hexponent hzero
          · next hzero => exact pack_subnormal hexponent _
      · next => exact pack_normal hones _

theorem eq_of_unpack {x y : Float} (h : x.toModel.unpack = y.toModel.unpack) : x = y := by
  have hmodel : x.toModel = y.toModel := by
    rw [← pack_unpack x.toModel, h, pack_unpack]
  cases x
  cases y
  exact congrArg Float.ofModel hmodel

theorem then_eq {a b : Ordering} (h : a.then b = .eq) : a = .eq ∧ b = .eq := by
  cases a with
  | eq => exact ⟨rfl, h⟩
  | lt | gt => cases h

theorem compare_eq {u v : UnpackedFloat} (h : u.compare v = some .eq) :
    u = v ∨ ∃ s t, u = .zero s ∧ v = .zero t := by
  unfold UnpackedFloat.compare at h
  split at h
  case h_3 s t =>
    have hsign : s = t := by
      cases s <;> cases t <;> first | rfl | cases h
    exact Or.inl (congrArg _ hsign)
  case h_12 s t => exact Or.inr ⟨s, t, rfl, rfl⟩
  case h_13 m e hm n f hn =>
    obtain ⟨hexponent, hmantissa⟩ := then_eq (Ordering.swap_eq_eq.mp (Option.some.inj h))
    obtain rfl := Nat.compare_eq_eq.mp hmantissa
    obtain rfl := Std.LawfulEqOrd.compare_eq_iff_eq.mp hexponent
    exact Or.inl rfl
  case h_16 m e hm n f hn =>
    obtain ⟨hexponent, hmantissa⟩ := then_eq (Option.some.inj h)
    obtain rfl := Nat.compare_eq_eq.mp hmantissa
    obtain rfl := Std.LawfulEqOrd.compare_eq_iff_eq.mp hexponent
    exact Or.inl rfl
  all_goals cases h

/-- Doubles that compare equal are one double, or they are zeros. -/
theorem eq_of_beq {x y : Float} (h : (x == y) = true) :
    x = y ∨ ∃ s t, x.toModel.unpack = .zero s ∧ y.toModel.unpack = .zero t := by
  have hbeq : (x.toModel.unpack.compare y.toModel.unpack == some .eq) = true := h
  rcases compare_eq (beq_iff_eq.mp hbeq) with heq | hzeros
  · exact Or.inl (eq_of_unpack heq)
  · exact Or.inr hzeros

theorem zero_unpack : (0.0 : Float).toModel.unpack = .zero .positive := by rfl

theorem negZero_unpack : (-0.0 : Float).toModel.unpack = .zero .negative := by rfl

/-- Only a negative zero is changed where a positive one is added to it. -/
theorem zero_add_iff (x : Float) : 0.0 + x = x ↔ x ≠ -0.0 := by
  constructor
  · rintro h rfl
    exact absurd h (by decide)
  · intro h
    have hx : x.toModel.unpack ≠ .zero .negative :=
      fun hneg => h (eq_of_unpack (hneg.trans negZero_unpack.symm))
    have hadd : UnpackedFloat.add .binary64 (.zero .positive) x.toModel.unpack =
        x.toModel.unpack := by
      cases hu : x.toModel.unpack with
      | zero s =>
        cases s with
        | positive => rfl
        | negative => exact absurd hu hx
      | _ => rfl
    change Float.ofModel (Float.Model.pack (UnpackedFloat.add .binary64
      (0.0 : Float).toModel.unpack x.toModel.unpack)) = x
    rw [zero_unpack, hadd, pack_unpack]

end Doubles
