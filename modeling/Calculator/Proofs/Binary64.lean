import Calculator.Binary64.Exact
import Mathlib

/-!
# The parts of a float

The exact value of a float is read off its bits as natural numbers, while tests and comparisons of
floats go through sign, exponent and mantissa as words.  The two agree part by part, and so what is
known of a float from a test is known of its exact value: a float that is finite and not below zero,
and is not the negative zero, has an exact value without a minus (`exists_ofFloat_eq_finite`).
-/

namespace Calculator.Binary64

open Float.Model (Format)
open Float.Model.UnpackedFloat

/-! ## Words and numbers -/

lemma toNat_unpackExponent (b : BitVec 64) :
    (@unpackExponent Format.binary64 b).toNat =
      b.toNat / leadingBit % (specialField + 1) := by
  simp [unpackExponent, Nat.shiftRight_eq_div_pow, leadingBit, specialField]

lemma toNat_unpackMantissa (b : BitVec 64) :
    (@unpackMantissa Format.binary64 b).toNat = b.toNat % leadingBit := by
  simp [unpackMantissa, leadingBit]

lemma toNat_unpackSign (b : BitVec 64) :
    (@unpackSign Format.binary64 b).toNat = b.toNat / signBit := by
  have hbound : b.toNat < 2 ^ 64 := b.isLt
  have hsign : b.toNat / signBit < 2 := by
    simp only [signBit, Nat.pow_eq]
    omega
  simpa [unpackSign, Nat.shiftRight_eq_div_pow, signBit] using hsign

/-! ## Tests -/

variable {x : Float}

/-- The bits of the exponent of a finite float are not all set. -/
lemma field_ne_of_isFinite (h : x.isFinite = true) :
    x.toBits.toNat / leadingBit % (specialField + 1) ≠ specialField := by
  intro hfield
  have hexponent : @unpackExponent Format.binary64 x.toBits.toBitVec = -1#_ := by
    apply BitVec.eq_of_toNat_eq
    rw [toNat_unpackExponent]
    exact hfield
  have hunpacked : (unpack Format.binary64 x.toBits.toBitVec).isFinite = true := h
  rw [unpack, if_pos hexponent] at hunpacked
  split at hunpacked
  · cases hunpacked
  · cases hunpacked

/-- The only float that has no exponent, no mantissa and a sign. -/
lemma eq_negZero (hsign : x.toBits.toNat / signBit = 1)
    (hexponent : x.toBits.toNat / leadingBit % (specialField + 1) = 0)
    (hmantissa : x.toBits.toNat % leadingBit = 0) : x = -0.0 := by
  have hbits : (-0.0 : Float).toBits.toNat = signBit := by decide
  apply Float.toBits_inj.mp
  apply UInt64.toNat_inj.mp
  rw [hbits]
  simp only [leadingBit, signBit, specialField, Nat.pow_eq] at *
  omega

/-- The sign of a float that is not below zero is not set, the negative zero apart. -/
lemma toBits_div_signBit (hle : 0.0 ≤ x) (hne : x ≠ -0.0) : x.toBits.toNat / signBit = 0 := by
  have hbound : x.toBits.toNat < 2 ^ 64 := x.toBits.toNat_lt
  have hcases : x.toBits.toNat / signBit = 0 ∨ x.toBits.toNat / signBit = 1 := by
    simp only [signBit, Nat.pow_eq]
    omega
  apply hcases.resolve_right
  intro hone
  have hsign : @unpackSign Format.binary64 x.toBits.toBitVec = 1#1 := by
    apply BitVec.eq_of_toNat_eq
    rw [toNat_unpackSign]
    exact hone
  have hcompare : ((zero .positive).compare (unpack Format.binary64 x.toBits.toBitVec)).any
      Ordering.isLE = true := of_decide_eq_true hle
  simp only [unpack, hsign] at hcompare
  -- With its sign set, a float at zero or above can only be a zero.
  split at hcompare
  · split at hcompare
    · cases hcompare
    · cases hcompare
  split at hcompare
  next hexponent =>
    split at hcompare
    next hmantissa =>
      refine hne (eq_negZero hone ?_ ?_)
      · exact (toNat_unpackExponent _).symm.trans (congrArg BitVec.toNat hexponent)
      · exact (toNat_unpackMantissa _).symm.trans (congrArg BitVec.toNat hmantissa)
    · cases hcompare
  · cases hcompare

/-- The exact value of a finite float without a minus. -/
theorem exists_ofFloat_eq_finite (hfinite : x.isFinite = true) (hle : 0.0 ≤ x) (hne : x ≠ -0.0) :
    ∃ mantissa exponent, Exact.ofFloat x = .finite false mantissa exponent := by
  have hsign : (x.toBits.toNat / signBit == 1) = false := by
    rw [toBits_div_signBit hle hne]
    rfl
  simp only [Exact.ofFloat, if_neg (field_ne_of_isFinite hfinite), hsign]
  split
  · exact ⟨_, _, rfl⟩
  · exact ⟨_, _, rfl⟩

end Calculator.Binary64
