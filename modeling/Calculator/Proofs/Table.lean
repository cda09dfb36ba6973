import Calculator.Formula
import Calculator.Proofs.Accuracy
import Mathlib

/-!
# Tables

A table is computed with a step that has been rounded and is taken many times, so nothing but the
two ends of it is known in advance: the last point is the upper end by definition, and every other
is the lower end and a product.  Whether a product or a sum on the way is finite depends on the
errors of rounding.  In exact terms a point is the lower end with a share of the width of the range
(`exists_share`), the share changed by three roundings; as long as the numbers of the points are
floats, it stays below the whole, and the point lies between the ends.

What no rounding repairs is a width that is greater than every float.  Then the step is infinite,
and the first point is not a number (`sample_of_overflowing_width`).  `HasRoom` asks for a finite
width, and for a little more where the numbers of the points are themselves rounded;
`sample_spans_range` is what a table and a sample are then.
-/

namespace Calculator

namespace Binary64

open Float.Model (Format)
open Float.Model.UnpackedFloat

/-! ## Shares of a range -/

section Share

variable {low high a b : Float}

lemma one_add_bounds {δ : ℚ} (h : |δ| ≤ roundoff) : 0 ≤ 1 + δ ∧ 1 + δ ≤ 1 + roundoff := by
  have hroundoff : roundoff ≤ 1 := by
    rw [roundoff]
    norm_num
  obtain ⟨hlow, hhigh⟩ := abs_le.mp h
  constructor <;> linarith

lemma isFinite_div_of_one_le (ha : a.isFinite = true) (hb : b.isFinite = true)
    (hone : 1 ≤ value b) : (a / b).isFinite = true := by
  have hpos : 0 < value b := by linarith
  apply (rounds_div ha hb hpos.ne').isFinite_of_le
  rw [abs_div, abs_of_pos hpos]
  have hle : |value a| / value b ≤ |value a| := div_le_self (abs_nonneg _) hone
  linarith [abs_value_le a]

/-- A float divided and multiplied again: in exact terms, it is scaled by a ratio that two roundings
have changed in proportion, and next to nothing is added. -/
lemma exists_scaled {w : Float} (hw : w.isFinite = true) (ha : a.isFinite = true)
    (hb : b.isFinite = true) (hnonneg : 0 ≤ value a) (hone : 1 ≤ value b)
    (hab : value a ≤ 2 * value b) (hsize : value b ≤ 2 ^ 65)
    (hfits : |value w| * (value a / value b * (1 + roundoff)) ≤ greatest) :
    (w / b * a).isFinite = true ∧
      ∃ scale error : ℚ, 0 ≤ scale ∧ scale ≤ value a / value b * (1 + roundoff) ^ 2 ∧
        |error| ≤ 1 / 2 ∧ value (w / b * a) = value w * scale + error := by
  have hroundoff := roundoff_pos
  have htiny := tiny_le
  have hpos : 0 < value b := by linarith
  have hratio : 0 ≤ value a / value b := by positivity
  have hstep := isFinite_div_of_one_le hw hb hone
  obtain ⟨δ, ε, hδ, hε, hvalueStep⟩ := (rounds_div hw hb hpos.ne').exists_eq hstep
  obtain ⟨hδnonneg, hδle⟩ := one_add_bounds hδ
  have hexact : value (w / b) * value a =
      value w * (value a / value b * (1 + δ)) + ε * value a := by
    rw [hvalueStep]
    ring
  have hsmall : |ε * value a| ≤ 1 / 2 ^ 34 := by
    rw [abs_mul, abs_of_nonneg hnonneg]
    calc |ε| * value a ≤ 1 / 2 ^ 100 * (2 * 2 ^ 65) := by
          gcongr
          · exact hε.trans htiny
          · linarith
      _ = 1 / 2 ^ 34 := by norm_num
  have hproduct := rounds_mul hstep ha
  have hfinite : (w / b * a).isFinite = true := by
    apply hproduct.isFinite_of_le
    rw [hexact]
    calc |value w * (value a / value b * (1 + δ)) + ε * value a|
        ≤ |value w| * (value a / value b * (1 + δ)) + |ε * value a| := by
          refine (abs_add_le _ _).trans (le_of_eq ?_)
          rw [abs_mul, abs_of_nonneg (mul_nonneg hratio hδnonneg)]
      _ ≤ |value w| * (value a / value b * (1 + roundoff)) + 1 / 2 ^ 34 := by gcongr
      _ ≤ greatest + 1 := by linarith
  obtain ⟨δ', ε', hδ', hε', hvalueProduct⟩ := hproduct.exists_eq hfinite
  obtain ⟨hδnonneg', hδle'⟩ := one_add_bounds hδ'
  refine ⟨hfinite, value a / value b * ((1 + δ) * (1 + δ')), ε * value a * (1 + δ') + ε',
    by positivity, ?_, ?_, ?_⟩
  · rw [pow_two]
    gcongr
  · have hcarried : |ε * value a * (1 + δ')| ≤ 1 / 2 ^ 34 * 2 := by
      rw [abs_mul, abs_of_nonneg hδnonneg']
      gcongr
      rw [roundoff] at hδle'
      linarith
    have hsum := abs_add_le (ε * value a * (1 + δ')) ε'
    linarith
  · rw [hvalueProduct, hexact]
    ring

/-- A share of the width of a range, as it is computed: the width has been rounded, too. -/
lemma exists_share (hlow : low.isFinite = true) (hhigh : high.isFinite = true)
    (ha : a.isFinite = true) (hb : b.isFinite = true) (hwidth : (high - low).isFinite = true)
    (hnonneg : 0 ≤ value a) (hone : 1 ≤ value b) (hab : value a ≤ 2 * value b)
    (hsize : value b ≤ 2 ^ 65)
    (hfits : |value (high - low)| * (value a / value b * (1 + roundoff)) ≤ greatest) :
    ((high - low) / b * a).isFinite = true ∧
      ∃ share error : ℚ, 0 ≤ share ∧ share ≤ value a / value b * (1 + roundoff) ^ 3 ∧
        |error| ≤ 1 ∧
        value ((high - low) / b * a) = share * (value high - value low) + error := by
  have hroundoff := roundoff_pos
  have hpos : 0 < value b := by linarith
  obtain ⟨hfinite, scale, error, hscale, hscaleLe, herror, hvalue⟩ :=
    exists_scaled hwidth ha hb hnonneg hone hab hsize hfits
  obtain ⟨δ, ε, hδ, hε, hvalueWidth⟩ := (rounds_sub hhigh hlow).exists_eq hwidth
  obtain ⟨hδnonneg, hδle⟩ := one_add_bounds hδ
  refine ⟨hfinite, scale * (1 + δ), ε * scale + error, by positivity, ?_, ?_, ?_⟩
  · rw [pow_succ, ← mul_assoc]
    gcongr
  · have hscaleTwo : scale ≤ 2 * (1 + 1) ^ 2 := by
      refine hscaleLe.trans ?_
      have hratio : value a / value b ≤ 2 := (div_le_iff₀ hpos).mpr hab
      have hle : roundoff ≤ 1 := by
        rw [roundoff]
        norm_num
      gcongr
    have hcarried : |ε * scale| ≤ 1 / 2 ^ 100 * (2 * (1 + 1) ^ 2) := by
      rw [abs_mul, abs_of_nonneg hscale]
      gcongr
      exact hε.trans tiny_le
    have hsum := abs_add_le (ε * scale) error
    linarith
  · rw [hvalue, hvalueWidth]
    ring

/-- A share that is no more than the whole leads to a point of the range, next to nothing apart. -/
lemma isFinite_add_share (hlow : low.isFinite = true) {p : Float} (hp : p.isFinite = true)
    {share error : ℚ} (hnonneg : 0 ≤ share) (hone : share ≤ 1) (herror : |error| ≤ 1)
    (hvalue : value p = share * (value high - value low) + error) :
    (low + p).isFinite = true := by
  apply (rounds_add hlow hp).isFinite_of_le
  have hrest : 0 ≤ 1 - share := by linarith
  have hsplit : value low + value p =
      (1 - share) * value low + share * value high + error := by
    rw [hvalue]
    ring
  rw [hsplit]
  calc |(1 - share) * value low + share * value high + error|
      ≤ (1 - share) * |value low| + share * |value high| + |error| := by
        refine (abs_add_three _ _ _).trans (le_of_eq ?_)
        rw [abs_mul, abs_mul, abs_of_nonneg hrest, abs_of_nonneg hnonneg]
    _ ≤ (1 - share) * greatest + share * greatest + 1 := by
        gcongr
        · exact abs_value_le low
        · exact abs_value_le high
    _ = greatest + 1 := by ring

/-- A float whose fourfold is finite is not much greater than a quarter of the greatest one. -/
lemma abs_value_le_of_quadruple (hlow : low.isFinite = true)
    (h : (4.0 * low).isFinite = true) : |value low| ≤ 13 / 50 * greatest := by
  have hfour : value 4.0 = 4 := by decide +kernel
  have hrounds := rounds_mul (x := 4.0) (y := low) (by decide +kernel) hlow
  have herror := hrounds.error h
  have hle := abs_value_le (4.0 * low)
  have hdist : |4 * value low| - |value (4.0 * low)| ≤ roundoff * |4 * value low| + tiny := by
    rw [hfour] at herror
    rw [abs_sub_comm] at herror
    exact (abs_sub_abs_le_abs_sub _ _).trans herror
  have htiny := tiny_le
  have hgreat := two_pow_le_greatest
  rw [abs_mul, abs_of_pos (by norm_num : (0 : ℚ) < 4), roundoff] at hdist
  linarith

lemma abs_sub_le_of_quadruple (hlow : low.isFinite = true) (hhigh : high.isFinite = true)
    (hlow' : (4.0 * low).isFinite = true) (hhigh' : (4.0 * high).isFinite = true) :
    |value high - value low| ≤ 13 / 25 * greatest := by
  have hleLow := abs_value_le_of_quadruple hlow hlow'
  have hleHigh := abs_value_le_of_quadruple hhigh hhigh'
  have htriangle := abs_sub (value high) (value low)
  linarith

lemma isFinite_sub_of_quadruple (hlow : low.isFinite = true) (hhigh : high.isFinite = true)
    (hlow' : (4.0 * low).isFinite = true) (hhigh' : (4.0 * high).isFinite = true) :
    (high - low).isFinite = true := by
  have hle := abs_sub_le_of_quadruple hlow hhigh hlow' hhigh'
  have hgreat := two_pow_le_greatest
  exact (rounds_sub hhigh hlow).isFinite_of_le (by linarith)

/-- A point of a range whose width does not overflow, where the share is computed from two whole
numbers that are not too great, the first one smaller. -/
lemma isFinite_interpolation_of_width (hlow : low.isFinite = true) (hhigh : high.isFinite = true)
    (ha : a.isFinite = true) (hb : b.isFinite = true) (hwidth : (high - low).isFinite = true)
    (hnonneg : 0 ≤ value a) (hlt : value a + 1 ≤ value b) (hsize : value b ≤ 2 ^ 51) :
    (low + (high - low) / b * a).isFinite = true := by
  have hroundoff := roundoff_pos
  have hpos : 0 < value b := by linarith
  have hratio : value a / value b ≤ 1 - 1 / 2 ^ 51 := by
    rw [div_le_iff₀ hpos]
    linarith
  -- What is missing to the whole is more than three roundings can add.
  have hshare : value a / value b * (1 + roundoff) ^ 3 ≤ 1 := by
    calc value a / value b * (1 + roundoff) ^ 3
        ≤ (1 - 1 / 2 ^ 51) * (1 + 1 / 2 ^ 53) ^ 3 := by
          rw [roundoff]
          gcongr
      _ ≤ 1 := by norm_num
  have hfits : |value (high - low)| * (value a / value b * (1 + roundoff)) ≤ greatest := by
    have hle : value a / value b * (1 + roundoff) ≤ 1 := by
      refine le_trans ?_ hshare
      gcongr
      exact le_self_pow₀ (by linarith) (by norm_num)
    exact (mul_le_of_le_one_right (abs_nonneg _) hle).trans (abs_value_le _)
  obtain ⟨hfinite, share, error, hshareNonneg, hshareLe, herror, hvalue⟩ :=
    exists_share hlow hhigh ha hb hwidth hnonneg (by linarith) (by linarith) (by linarith) hfits
  exact isFinite_add_share hlow hfinite hshareNonneg (hshareLe.trans hshare) herror hvalue

/-- A point of a range, where there is room at its ends: then the whole numbers may be rounded too,
and the share may come out as more than the whole. -/
lemma isFinite_interpolation_of_quadruple (hlow : low.isFinite = true)
    (hhigh : high.isFinite = true) (ha : a.isFinite = true) (hb : b.isFinite = true)
    (hlow' : (4.0 * low).isFinite = true) (hhigh' : (4.0 * high).isFinite = true)
    (hnonneg : 0 ≤ value a) (hone : 1 ≤ value b) (hab : value a ≤ 101 / 100 * value b)
    (hsize : value b ≤ 2 ^ 65) :
    (low + (high - low) / b * a).isFinite = true := by
  have hroundoff := roundoff_pos
  have hgreat := two_pow_le_greatest
  have htiny := tiny_le
  have hpos : 0 < value b := by linarith
  have hratio : value a / value b ≤ 101 / 100 := (div_le_iff₀ hpos).mpr hab
  have hleLow := abs_value_le_of_quadruple hlow hlow'
  have hle := abs_sub_le_of_quadruple hlow hhigh hlow' hhigh'
  have hwidth := isFinite_sub_of_quadruple hlow hhigh hlow' hhigh'
  have hleWidth : |value (high - low)| ≤ 27 / 50 * greatest := by
    have hdist := (abs_sub_abs_le_abs_sub _ _).trans ((rounds_sub hhigh hlow).error hwidth)
    rw [roundoff] at hdist
    linarith
  have hfits : |value (high - low)| * (value a / value b * (1 + roundoff)) ≤ greatest := by
    calc |value (high - low)| * (value a / value b * (1 + roundoff))
        ≤ 27 / 50 * greatest * (101 / 100 * (1 + 1 / 2 ^ 53)) := by
          rw [roundoff]
          gcongr
      _ ≤ greatest := by linarith
  obtain ⟨hfinite, share, error, hshareNonneg, hshareLe, herror, hvalue⟩ :=
    exists_share hlow hhigh ha hb hwidth hnonneg hone (by linarith) hsize hfits
  have hshare : share ≤ 11 / 10 := by
    calc share ≤ value a / value b * (1 + roundoff) ^ 3 := hshareLe
      _ ≤ 101 / 100 * (1 + 1 / 2 ^ 53) ^ 3 := by
          rw [roundoff]
          gcongr
      _ ≤ 11 / 10 := by norm_num
  apply (rounds_add hlow hfinite).isFinite_of_le
  rw [hvalue]
  calc |value low + (share * (value high - value low) + error)|
      ≤ |value low| + (share * |value high - value low| + |error|) := by
        refine (abs_add_le _ _).trans (add_le_add_right ((abs_add_le _ _).trans (le_of_eq ?_)) _)
        rw [abs_mul, abs_of_nonneg hshareNonneg]
    _ ≤ 13 / 50 * greatest + (11 / 10 * (13 / 25 * greatest) + 1) := by gcongr
    _ ≤ greatest + 1 := by linarith

end Share

/-! ## Adding nothing -/

section Sign

variable {x y z : Float} {s : Sign}

/-- An unpacked float that is a number, a zero included, with the sign `s`. -/
def HasSign (s : Sign) : Float.Model.UnpackedFloat → Prop
  | .zero t => t = s
  | .finite t _ _ _ => t = s
  | _ => False

lemma exists_hasSign (hx : x.isFinite = true) : ∃ s, HasSign s x.toModel.unpack := by
  rcases zero_or_finite (u := x.toModel.unpack) hx with ⟨s, hu⟩ | ⟨s, m, e, hm, hu⟩
  · exact ⟨s, by rw [hu]; rfl⟩
  · exact ⟨s, by rw [hu]; rfl⟩

namespace HasSign

variable {u : Float.Model.UnpackedFloat}

lemma zero_or_finite (h : HasSign s u) : u = .zero s ∨ ∃ m e hm, u = .finite s m e hm := by
  cases u with
  | notANumber => cases h
  | infinity t => cases h
  | zero t =>
    obtain rfl : t = s := h
    exact .inl rfl
  | finite t m e hm =>
    obtain rfl : t = s := h
    exact .inr ⟨m, e, hm, rfl⟩

lemma unique {t : Sign} (hs : HasSign s u) (ht : HasSign t u) : s = t := by
  rcases hs.zero_or_finite with rfl | ⟨m, e, hm, rfl⟩
  · exact ht
  · exact ht

end HasSign

lemma unpack_mul_zero (h : HasSign s x.toModel.unpack) :
    (x * Float.ofNat 0).toModel.unpack = .zero s := by
  have hsign : s * .positive = s := by cases s <;> rfl
  have hproduct : (x * Float.ofNat 0).toModel.unpack =
      unpack Format.binary64 (pack Format.binary64
        (mul Format.binary64 x.toModel.unpack (.zero .positive))) := rfl
  have hzero : mul Format.binary64 x.toModel.unpack (.zero .positive) = .zero s := by
    rcases h.zero_or_finite with hu | ⟨m, e, hm, hu⟩
    · rw [hu, mul, hsign]
    · rw [hu, mul, hsign]
  rw [hproduct, hzero]
  exact unpack_packedZero

lemma ofModel_pack_unpack (x : Float) : Float.ofModel (Float.Model.pack x.toModel.unpack) = x :=
  Float.ofBits_toBits x

/-- A zero leaves a float as it is, the negative zero apart. -/
lemma add_zero_cases (hx : x.isFinite = true) (hz : z.toModel.unpack = .zero s) :
    x + z = x ∨ x = -0.0 ∧ s = .positive ∧ x + z = 0.0 := by
  have hsum : x + z =
      Float.ofModel (Float.Model.pack (add Format.binary64 x.toModel.unpack (.zero s))) := by
    rw [← hz]
    rfl
  have hself := ofModel_pack_unpack x
  rcases Binary64.zero_or_finite (u := x.toModel.unpack) hx with ⟨t, hu⟩ | ⟨t, m, e, hm, hu⟩
  · rw [hu] at hsum hself
    rw [hsum]
    cases t with
    | positive =>
      left
      cases s <;> exact hself
    | negative =>
      cases s with
      | negative => exact .inl hself
      | positive => exact .inr ⟨hself.symm.trans (by decide +kernel), rfl, by decide +kernel⟩
  · rw [hu] at hsum hself
    exact .inl (hsum.trans hself)

lemma hasSign_roundWithAccuracy (s : Sign) (m : ℕ) (e : ℤ) (a : Accuracy) :
    HasSign s (roundWithAccuracy Format.binary64 s m e a) := by
  rw [roundWithAccuracy]
  dsimp only
  split
  · rfl
  · rfl

lemma exists_unpack_of_value_pos (h : 0 < value y) :
    ∃ n f hn, y.toModel.unpack = .finite .positive n f hn := by
  rw [value] at h
  cases hunpack : y.toModel.unpack with
  | notANumber => rw [hunpack] at h; exact absurd h (lt_irrefl 0)
  | infinity t => rw [hunpack] at h; exact absurd h (lt_irrefl 0)
  | zero t => rw [hunpack] at h; exact absurd h (lt_irrefl 0)
  | finite t n f hn =>
    cases t with
    | positive => exact ⟨n, f, hn, rfl⟩
    | negative =>
      rw [hunpack] at h
      have hnonneg : (0 : ℚ) ≤ n * 2 ^ f := by positivity
      simp only [unpackedValue, Sign.apply] at h
      push_cast at h
      linarith

/-- A divisor above zero keeps the sign. -/
lemma hasSign_div (hsign : HasSign s x.toModel.unpack) (hx : x.isFinite = true)
    (hy : y.isFinite = true) (hpos : 0 < value y) (hfinite : (x / y).isFinite = true) :
    HasSign s (x / y).toModel.unpack := by
  have hrounded := rounded_div hx hy hpos.ne'
  rcases unpack_pack_of_canonical hrounded.isFinite hrounded.canonical with hsame | ⟨hnot, -⟩
  · have hquotient : (x / y).toModel.unpack =
        div Format.binary64 x.toModel.unpack y.toModel.unpack := hsame
    have hkeeps : s / .positive = s := by cases s <;> rfl
    obtain ⟨n, f, hn, hv⟩ := exists_unpack_of_value_pos hpos
    rcases hsign.zero_or_finite with hu | ⟨m, e, hm, hu⟩
    · rw [hquotient, hu, hv]
      exact hkeeps
    · rw [hquotient, hu, hv]
      simp only [div, hkeeps]
      exact hasSign_roundWithAccuracy s _ _ _
  · have hinfinite : (x / y).isFinite = false := hnot
    rw [hinfinite] at hfinite
    cases hfinite

/-- A float below zero has the sign, and the negative zero taken from it changes nothing. -/
lemma hasSign_sub_negZero (hx : x.isFinite = true) (hlt : x < 0.0) :
    HasSign .negative (x - -0.0).toModel.unpack := by
  have hcompare : (x.toModel.unpack.compare (.zero .positive) == some .lt) = true :=
    of_decide_eq_true hlt
  have hdifference : x - -0.0 = Float.ofModel (Float.Model.pack
      (sub Format.binary64 x.toModel.unpack (.zero .negative))) := rfl
  have hself := ofModel_pack_unpack x
  rcases Binary64.zero_or_finite (u := x.toModel.unpack) hx with ⟨t, hu⟩ | ⟨t, m, e, hm, hu⟩
  · rw [hu] at hcompare
    cases hcompare
  · rw [hu] at hcompare hdifference hself
    have hsame : x - -0.0 = x := hdifference.trans hself
    rw [hsame, hu]
    cases t with
    | negative => rfl
    | positive => cases hcompare

end Sign

end Binary64

namespace Formula

/-! ## Finite tables -/

/-- The width of a range does not overflow, nor does a point of it by the rounding of numbers that
are too great to be floats. -/
def HasRoom (low high : Float) (count : ℕ) : Prop :=
  count ≤ 2 ^ 51 ∧ (high - low).isFinite = true ∨
    (4.0 * low).isFinite = true ∧ (4.0 * high).isFinite = true

section Grid

variable {low high : Float} {count i : ℕ}

lemma gridPoint_last (h : 1 < count) : gridPoint low high count (count - 1) = high := by
  rw [gridPoint, if_pos ⟨by omega, h⟩]

lemma gridPoint_of_lt (h : i + 1 < count) :
    gridPoint low high count i =
      low + (high - low) / Float.ofNat (count - 1) * Float.ofNat i := by
  rw [gridPoint, if_neg (by omega), spacing, if_pos (by omega)]

lemma isFinite_gridPoint (hlow : low.isFinite = true) (hhigh : high.isFinite = true)
    (hcount : 2 ≤ count) (hsize : count ≤ 2 ^ 64) (hroom : HasRoom low high count)
    (hi : i < count) : (gridPoint low high count i).isFinite = true := by
  by_cases hlast : i + 1 = count
  · rw [gridPoint, if_pos ⟨hlast, hcount⟩]
    exact hhigh
  rw [gridPoint_of_lt (by omega)]
  have hlt : (i : ℚ) + 1 ≤ (count - 1 : ℕ) := by exact_mod_cast (by omega : i + 1 ≤ count - 1)
  have hnonneg : (0 : ℚ) ≤ i := Nat.cast_nonneg i
  rcases hroom with ⟨hsmall, hwidth⟩ | ⟨hlow', hhigh'⟩
  · obtain ⟨ha, hvalueA⟩ := Binary64.ofNat_exact (n := i) (by omega)
    obtain ⟨hb, hvalueB⟩ := Binary64.ofNat_exact (n := count - 1) (by omega)
    have hle : ((count - 1 : ℕ) : ℚ) ≤ 2 ^ 51 := by
      exact_mod_cast (by omega : count - 1 ≤ 2 ^ 51)
    rw [← hvalueA] at hlt hnonneg
    rw [← hvalueB] at hlt hle
    exact Binary64.isFinite_interpolation_of_width hlow hhigh ha hb hwidth hnonneg hlt hle
  · obtain ⟨ha, hvalueA⟩ := Binary64.ofNat_bounds (n := i) (by omega)
    obtain ⟨hb, hvalueB⟩ := Binary64.ofNat_bounds (n := count - 1) (by omega)
    have hone := Binary64.one_le_value_ofNat (n := count - 1) (by omega) (by omega)
    have hle : ((count - 1 : ℕ) : ℚ) ≤ 2 ^ 64 := by
      exact_mod_cast (by omega : count - 1 ≤ 2 ^ 64)
    rw [abs_le] at hvalueA hvalueB
    exact Binary64.isFinite_interpolation_of_quadruple hlow hhigh ha hb hlow' hhigh'
      (by linarith) hone (by linarith) (by linarith)

lemma isFinite_sub_of_hasRoom (hlow : low.isFinite = true) (hhigh : high.isFinite = true)
    (hroom : HasRoom low high count) : (high - low).isFinite = true := by
  rcases hroom with ⟨-, hwidth⟩ | ⟨hlow', hhigh'⟩
  · exact hwidth
  · exact Binary64.isFinite_sub_of_quadruple hlow hhigh hlow' hhigh'

/-- The first point is computed as the lower end and no part of the width; only a negative zero can
become another float by that. -/
lemma gridPoint_zero (hlow : low.isFinite = true) (hhigh : high.isFinite = true)
    (hcount : 2 ≤ count) (hsize : count ≤ 2 ^ 64) (hroom : HasRoom low high count) :
    gridPoint low high count 0 = low ∨
      low = -0.0 ∧ ¬ high < 0.0 ∧ gridPoint low high count 0 = 0.0 := by
  have hwidth := isFinite_sub_of_hasRoom hlow hhigh hroom
  obtain ⟨hb, -⟩ := Binary64.ofNat_bounds (n := count - 1) (by omega)
  have hone := Binary64.one_le_value_ofNat (n := count - 1) (by omega) (by omega)
  have hstep := Binary64.isFinite_div_of_one_le hwidth hb hone
  obtain ⟨s, hsign⟩ := Binary64.exists_hasSign hstep
  rw [gridPoint_of_lt (by omega)]
  rcases Binary64.add_zero_cases hlow (Binary64.unpack_mul_zero hsign) with hsame | hother
  · exact .inl hsame
  obtain ⟨rfl, rfl, hzero⟩ := hother
  refine .inr ⟨rfl, fun hbelow => ?_, hzero⟩
  -- A width below zero would have given the zero its sign.
  have hnegative := Binary64.hasSign_div (Binary64.hasSign_sub_negZero hhigh hbelow) hwidth hb
    (by linarith) hstep
  cases Binary64.HasSign.unique hsign hnegative

end Grid

/-! ## Samples -/

section Sample

variable (f : Formula) {low high : Float} {count : ℕ}

lemma graphPoint?_eq_some_iff {x : Float} {p : Float × Float} :
    f.graphPoint? x = some p ↔ p.1 = x ∧ f.value x = .ok p.2 ∧ p.2.isFinite = true := by
  rw [graphPoint?]
  cases hvalue : f.value x with
  | error fault => simp
  | ok y =>
    dsimp only
    split
    next hfinite =>
      constructor
      · intro h
        obtain rfl := Option.some.inj h
        exact ⟨rfl, rfl, hfinite⟩
      · rintro ⟨rfl, hy, -⟩
        rw [Except.ok.inj hy]
    next hnot =>
      constructor
      · intro h
        cases h
      · rintro ⟨-, hy, hfinite⟩
        rw [Except.ok.inj hy] at hnot
        exact absurd hfinite hnot

/-- The numbers of the points of a table that have a place on the graph. -/
def graphedNumbers (low high : Float) (count : ℕ) : List ℕ :=
  (List.range count).filter fun i => (f.graphPoint? (gridPoint low high count i)).isSome

lemma mem_graphedNumbers {i : ℕ} :
    i ∈ f.graphedNumbers low high count ↔
      i < count ∧ ∃ y, f.value (gridPoint low high count i) = .ok y ∧ y.isFinite = true := by
  rw [graphedNumbers, List.mem_filter, List.mem_range, Option.isSome_iff_exists]
  constructor
  · rintro ⟨hi, p, hp⟩
    exact ⟨hi, p.2, ((graphPoint?_eq_some_iff f).mp hp).2⟩
  · rintro ⟨hi, y, hy⟩
    exact ⟨hi, (_, y), (graphPoint?_eq_some_iff f).mpr ⟨rfl, hy⟩⟩

lemma pairwise_graphedNumbers : (f.graphedNumbers low high count).Pairwise (· < ·) :=
  List.pairwise_lt_range.filter _

/-- What `filterMap` keeps, and what it makes of it. -/
lemma forall₂_filterMap {α β : Type} (g : α → Option β) (l : List α) :
    List.Forall₂ (fun a b => g a = some b) (l.filter fun a => (g a).isSome) (l.filterMap g) := by
  induction l with
  | nil => exact .nil
  | cons a l ih =>
    cases ha : g a with
    | none =>
      rw [List.filter_cons_of_neg (by rw [ha]; exact Bool.false_ne_true),
        List.filterMap_cons_none ha]
      exact ih
    | some b =>
      rw [List.filter_cons_of_pos (by rw [ha]; rfl), List.filterMap_cons_some ha]
      exact .cons ha ih

/-- The points of a sample belong to these numbers, one to each. -/
lemma forall₂_sample :
    List.Forall₂ (fun i p => f.graphPoint? (gridPoint low high count i) = some p)
      (f.graphedNumbers low high count) (f.sample low high count) := by
  rw [sample, grid, List.filterMap_map]
  exact forall₂_filterMap _ _

/-- A table over a range with room, of no more points than a word can count, spans the range: its
points are finite floats, the last is the upper end and the first the lower end, where only a
negative zero may have lost its sign.  A sample has the points where the formula has a finite value,
each of them once and in their order; so it begins over the lower end if the formula has a finite
value there. -/
theorem sample_spans_range (hlow : low.isFinite = true) (hhigh : high.isFinite = true)
    (hcount : 2 ≤ count) (hsize : count ≤ 2 ^ 64) (hroom : HasRoom low high count) :
    (gridPoint low high count 0 == low) = true ∧
      gridPoint low high count (count - 1) = high ∧
      (∀ i < count, (gridPoint low high count i).isFinite = true) ∧
      (∃ numbers : List ℕ, numbers.Pairwise (· < ·) ∧
        (∀ i, i ∈ numbers ↔
          i < count ∧ ∃ y, f.value (gridPoint low high count i) = .ok y ∧ y.isFinite = true) ∧
        List.Forall₂
          (fun i p => p.1 = gridPoint low high count i ∧
            f.value (gridPoint low high count i) = .ok p.2)
          numbers (f.sample low high count)) ∧
      (∀ p ∈ f.sample low high count, p.1.isFinite = true ∧ p.2.isFinite = true) ∧
      (low ≠ -0.0 ∨ high < 0.0 → ∀ y, f.value low = .ok y → y.isFinite = true →
        (f.sample low high count).head? = some (low, y)) := by
  have hfinite : ∀ i < count, (gridPoint low high count i).isFinite = true :=
    fun i hi => isFinite_gridPoint hlow hhigh hcount hsize hroom hi
  refine ⟨?_, gridPoint_last hcount, hfinite, ⟨f.graphedNumbers low high count,
    f.pairwise_graphedNumbers, fun _ => f.mem_graphedNumbers, ?_⟩, fun p hp => ?_, ?_⟩
  · rcases gridPoint_zero hlow hhigh hcount hsize hroom with hsame | ⟨rfl, -, hzero⟩
    · have hnan : low ≠ Float.nan := by
        rintro rfl
        exact absurd hlow (by decide +kernel)
      rw [hsame]
      exact Float.beq_self_iff.mpr hnan
    · rw [hzero]
      decide +kernel
  · refine f.forall₂_sample.imp fun i p hpoint => ?_
    obtain ⟨hx, hy, -⟩ := f.graphPoint?_eq_some_iff.mp hpoint
    exact ⟨hx, hx ▸ hy⟩
  · obtain ⟨x, hx, hpoint⟩ := List.mem_filterMap.mp hp
    obtain ⟨i, hi, rfl⟩ := List.mem_map.mp hx
    obtain ⟨hsame, -, hy⟩ := f.graphPoint?_eq_some_iff.mp hpoint
    rw [hsame]
    exact ⟨hfinite i (List.mem_range.mp hi), hy⟩
  · intro hzero y hvalue hy
    have hfirst : gridPoint low high count 0 = low := by
      rcases gridPoint_zero hlow hhigh hcount hsize hroom with hsame | ⟨hneg, hnot, -⟩
      · exact hsame
      · exact (hzero.elim (absurd hneg) (absurd · hnot))
    obtain ⟨rest, rfl⟩ : ∃ rest, count = rest + 1 := ⟨count - 1, by omega⟩
    have hpoint : f.graphPoint? low = some (low, y) :=
      f.graphPoint?_eq_some_iff.mpr ⟨rfl, hvalue, hy⟩
    rw [sample, grid, List.range_succ_eq_map, List.map_cons, hfirst,
      List.filterMap_cons_some hpoint]
    rfl

end Sample

/-- The range of two has room for three points. -/
theorem sample_spans_range_identity :
    HasRoom (-1.0) 1.0 3 ∧
      (Formula.sample ⟨"x", [⟨.unknown, 1⟩]⟩ (-1.0) 1.0 3).head? = some (-1.0, -1.0) ∧
      ∀ p ∈ Formula.sample ⟨"x", [⟨.unknown, 1⟩]⟩ (-1.0) 1.0 3, p.1.isFinite = true := by
  have hlow : (-1.0 : Float).isFinite = true := by decide +kernel
  have hhigh : (1.0 : Float).isFinite = true := by decide +kernel
  have hroom : HasRoom (-1.0) 1.0 3 := .inl ⟨by norm_num, by decide +kernel⟩
  obtain ⟨-, -, -, -, hfinite, hfirst⟩ := sample_spans_range ⟨"x", [⟨.unknown, 1⟩]⟩ hlow hhigh
    (by norm_num) (by norm_num) hroom
  exact ⟨hroom, hfirst (.inl (by decide +kernel)) (-1.0) (by decide +kernel) (by decide +kernel),
    fun p hp => (hfinite p hp).1⟩

/-- Over a range whose width overflows the first point is not a number, but a formula without the
unknown still has its value there. -/
theorem sample_of_overflowing_width :
    ∃ f, ofText "5" = .ok f ∧ (-1e308 : Float).isFinite = true ∧ (1e308 : Float).isFinite = true ∧
      f.value (-1e308) = .ok 5.0 ∧ (gridPoint (-1e308) 1e308 2 0 == -1e308) = false ∧
      f.sample (-1e308) 1e308 2 = [(0.0 / 0.0, 5.0), (1e308, 5.0)] :=
  ⟨⟨"5", [.number "5"]⟩, by decide +kernel, by decide +kernel, by decide +kernel, by decide +kernel,
    by decide +kernel, by decide +kernel⟩

end Formula

end Calculator
