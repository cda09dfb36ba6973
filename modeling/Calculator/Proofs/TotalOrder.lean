import Calculator.Binary64.TotalOrder
import Calculator.Proofs.Accuracy
import Mathlib

/-!
# The order of numbers among the data

The total order of data reads a datum as one whole number, while numbers are compared by sign, then
exponent, then mantissa.  For two numbers the two agree (`rank_lt_rank`).  What carries the proof is
that the bits of a number without its sign are the exponent with the mantissa below it (`place`),
where the leading bit of the mantissa counts as one more in the exponent.
-/

namespace Calculator.Binary64

open Float.Model (Format)
open Float.Model.UnpackedFloat

/-- The place of a datum at the distance `n` from zero. -/
def placeAt : Sign → ℤ → ℤ
  | .positive, n => n
  | .negative, n => -n - 1

/-- The place of an unpacked number in the total order. -/
def place : Float.Model.UnpackedFloat → ℤ
  | .notANumber => 0
  | .infinity s => placeAt s (2047 * 2 ^ 52)
  | .zero s => placeAt s 0
  | .finite s m e _ => placeAt s ((e - minExponent) * 2 ^ 52 + m)

variable {d e : Datum}

/-- The rank of a datum, by its sign and the bits after the sign. -/
lemma rank_eq_placeAt (d : Datum) :
    rank d = placeAt (.ofBitVec (@unpackSign Format.binary64 d.bits.toBitVec))
      (d.bits.toNat % signBit : ℕ) := by
  have hbound : d.bits.toNat < 2 * signBit := d.bits.toNat_lt
  have hsign : (@unpackSign Format.binary64 d.bits.toBitVec).toNat = d.bits.toNat / signBit :=
    toNat_unpackSign d.bits.toBitVec
  simp only [rank, Sign.ofBitVec]
  by_cases hlt : d.bits.toNat < signBit
  · have hzero : @unpackSign Format.binary64 d.bits.toBitVec = 0#1 :=
      BitVec.eq_of_toNat_eq (hsign.trans (Nat.div_eq_of_lt hlt))
    rw [if_pos hlt, if_pos hzero, placeAt, Nat.mod_eq_of_lt hlt]
  · have hone : @unpackSign Format.binary64 d.bits.toBitVec ≠ 0#1 := by
      intro hzero
      rw [hzero] at hsign
      exact (Nat.div_pos (not_lt.mp hlt) (by decide)).ne hsign
    have hrest : d.bits.toNat % signBit = d.bits.toNat - signBit := by
      rw [Nat.mod_eq_sub_mod (not_lt.mp hlt), Nat.mod_eq_of_lt (by omega)]
    rw [if_neg hlt, if_neg hone, placeAt, hrest]

/-- The bits after the sign are the exponent, with the mantissa below it. -/
lemma toNat_mod_signBit (b : BitVec 64) :
    b.toNat % signBit =
      (@unpackExponent Format.binary64 b).toNat * 2 ^ 52 +
        (@unpackMantissa Format.binary64 b).toNat := by
  rw [toNat_unpackExponent, toNat_unpackMantissa]
  simp only [leadingBit, signBit, specialField, Nat.pow_eq]
  omega

/-- The place of a number in the total order is that of its parts. -/
lemma rank_eq_place (h : unpack Format.binary64 d.bits.toBitVec ≠ .notANumber) :
    rank d = place (unpack Format.binary64 d.bits.toBitVec) := by
  have hbits := toNat_mod_signBit d.bits.toBitVec
  have hsum := toNat_one_append (@unpackMantissa Format.binary64 d.bits.toBitVec)
  have hnat : d.bits.toBitVec.toNat = d.bits.toNat := rfl
  rw [rank_eq_placeAt, ← hnat, hbits]
  simp only [unpack] at h ⊢
  by_cases hspecial : @unpackExponent Format.binary64 d.bits.toBitVec = -1#_
  · rw [if_pos hspecial] at h ⊢
    have hzero : @unpackMantissa Format.binary64 d.bits.toBitVec = 0#_ := by
      by_contra hne
      exact h (if_neg hne)
    rw [if_pos hzero, hspecial, hzero]
    rfl
  rw [if_neg hspecial]
  by_cases hfinest : @unpackExponent Format.binary64 d.bits.toBitVec = 0#_
  · rw [if_pos hfinest, hfinest]
    split
    next hzero =>
      rw [hzero]
      rfl
    next hpos =>
      rw [place, exponentBias_eq]
      congr 1
  · rw [if_neg hfinest, place, hsum, exponentBias_eq, minExponent]
    congr 1
    push_cast
    ring

/-- Of two mantissas with exponents, the one with the smaller exponent has the smaller place, for
only the smallest exponent is without a leading bit. -/
lemma distance_lt {m n : ℕ} {i j : ℤ} (hm : IsCanonical m i) (hn : IsCanonical n j)
    (h : (compare i j).then (compare m n) = .lt) :
    (i - minExponent) * 2 ^ 52 + m < (j - minExponent) * 2 ^ 52 + n := by
  rw [Ordering.then_eq_lt, compare_lt_iff_lt, compare_eq_iff_eq, compare_lt_iff_lt] at h
  obtain ⟨hlt, hmin, -⟩ := hm
  obtain ⟨-, -, hfull⟩ := hn
  rw [minExponent] at *
  omega

/-- A float with a mantissa stands between zero and infinity. -/
lemma distance_bounds {x : Float} {s : Sign} {m : ℕ} {i : ℤ} {hm : 0 < m}
    (h : x.toModel.unpack = .finite s m i hm) :
    0 < (i - minExponent) * 2 ^ 52 + m ∧ (i - minExponent) * 2 ^ 52 + m < 2047 * 2 ^ 52 := by
  have hexponent := exponent_le h
  have hcanonical : Canonical x.toModel.unpack := canonical_unpack _
  rw [h] at hcanonical
  obtain ⟨hlt, hmin, -⟩ := hcanonical
  rw [minExponent] at *
  omega

/-- The smaller of two floats has the smaller place. -/
lemma place_lt_place {x y : Float} (h : x.toModel.unpack.compare y.toModel.unpack = some .lt) :
    place x.toModel.unpack < place y.toModel.unpack := by
  have hx : Canonical x.toModel.unpack := canonical_unpack _
  have hy : Canonical y.toModel.unpack := canonical_unpack _
  -- The kinds and the signs decide all cases but that of two mantissas with the same sign.
  cases hu : x.toModel.unpack with
  | notANumber =>
    rw [hu] at h
    cases y.toModel.unpack <;> cases h
  | infinity s | zero s =>
    cases hv : y.toModel.unpack with
    | notANumber => rw [hu, hv] at h; cases h
    | infinity t | zero t =>
      rw [hu, hv] at h
      cases s <;> cases t <;> first | (cases h; done) | decide
    | finite t n j hn =>
      rw [hu, hv] at h
      have hbounds := distance_bounds hv
      cases s <;> cases t <;> first | (cases h; done) | (simp only [place, placeAt]; omega)
  | finite s m i hm =>
    have hbounds := distance_bounds hu
    cases hv : y.toModel.unpack with
    | notANumber => rw [hu, hv] at h; cases h
    | infinity t | zero t =>
      rw [hu, hv] at h
      cases s <;> cases t <;> first | (cases h; done) | (simp only [place, placeAt]; omega)
    | finite t n j hn =>
      have hbounds' := distance_bounds hv
      rw [hu, hv] at h
      rw [hu] at hx
      rw [hv] at hy
      cases s <;> cases t
      · have hswap : ((compare i j).then (compare m n)).swap = .lt := Option.some.inj h
        rw [Ordering.swap_then, ← Std.OrientedCmp.eq_swap, ← Std.OrientedCmp.eq_swap] at hswap
        have hlt := distance_lt hy hx hswap
        simp only [place, placeAt]
        omega
      · simp only [place, placeAt]
        omega
      · cases h
      · have hlt := distance_lt hx hy (Option.some.inj h)
        simp only [place, placeAt]
        omega

/-- The float of a datum has the parts of the datum; all that is not a number is unpacked alike. -/
lemma unpack_toFloat (d : Datum) :
    d.toFloat.toModel.unpack = unpack Format.binary64 d.bits.toBitVec := by
  show unpack Format.binary64 (pack Format.binary64 (unpack Format.binary64 d.bits.toBitVec)) = _
  rw [pack_unpack]
  split
  next hnan =>
    obtain ⟨hspecial, hmantissa⟩ := of_decide_eq_true hnan
    rw [unpack_packedNaN]
    simp only [unpack, if_pos hspecial, if_neg hmantissa]
  · rfl

/-- What is not a number cannot be compared. -/
lemma ne_notANumber_of_compare {u v : Float.Model.UnpackedFloat} {o : Ordering}
    (h : u.compare v = some o) : u ≠ .notANumber ∧ v ≠ .notANumber := by
  constructor
  · rintro rfl
    cases v <;> cases h
  · rintro rfl
    cases u <;> cases h

/-- The smaller of two numbers has the smaller rank. -/
theorem rank_lt_rank (h : d.toFloat < e.toFloat) : rank d < rank e := by
  have hlt : d.toFloat.toModel.unpack.lt e.toFloat.toModel.unpack = true :=
    of_decide_eq_true (p := d.toFloat.toModel < e.toFloat.toModel) h
  have hcompare := beq_iff_eq.mp hlt
  have hplace := place_lt_place hcompare
  rw [unpack_toFloat, unpack_toFloat] at hcompare hplace
  obtain ⟨hd, he⟩ := ne_notANumber_of_compare hcompare
  rwa [rank_eq_place hd, rank_eq_place he]

end Calculator.Binary64
