import Calculator.Proofs.Binary64
import Mathlib

/-!
# Rounding

An operation on floats is a computation on bits: mantissas are shifted, two bits are kept of what
is lost, the rest is rounded and packed into a word, and an exponent that does not fit the word
turns into an infinity.  Whether a result is finite, and how large it is, is a question about
numbers, and the bits do not answer it.

Here every result is compared with the rational number that it stands in for, before it is packed.
A mantissa with its two bits says where the number lies (`Locates`), and shifting it keeps it true
to the number; so one rounding is off by no more than half of the last bit that is kept.  In
proportion this is `roundoff`, up to `tiny` where floats are finest: the statement `Rounded`, which
holds of the four operations.
-/

namespace Calculator.Binary64

open Float.Model (Format totalExponent)
open Float.Model.UnpackedFloat

/-! ## The mantissa and the bits below it -/

/-- Where a mantissa with its two bits says that a number lies, among two integers and the middle
between them. -/
def Locates (em : ExtendedMantissa) (y : ℚ) : Prop :=
  match em.roundBit, em.stickyBit with
  | false, false => y = em.mantissa
  | false, true => em.mantissa < y ∧ y < em.mantissa + 1 / 2
  | true, false => y = em.mantissa + 1 / 2
  | true, true => em.mantissa + 1 / 2 < y ∧ y < em.mantissa + 1

lemma locates_exact (m : ℕ) : Locates (ExtendedMantissa.ofMantissaAndAccuracy m .exact) m := rfl

/-- A quotient lies where the remainder says. -/
lemma locates_div (n : ℕ) {d : ℕ} (hd : 0 < d) :
    Locates (ExtendedMantissa.ofMantissaAndAccuracy (n / d) (accuracyOfFraction (n % d) d))
      (n / d) := by
  have hd' : (0 : ℚ) < d := by exact_mod_cast hd
  have hdecomp : (n : ℚ) = d * (n / d : ℕ) + (n % d : ℕ) := by
    exact_mod_cast (Nat.div_add_mod n d).symm
  have hquotient : (n : ℚ) / d = (n / d : ℕ) + (n % d : ℕ) / d := by
    field_simp
    exact hdecomp
  have hlt : ((n % d : ℕ) : ℚ) / d < 1 := by
    rw [div_lt_one hd']
    exact_mod_cast Nat.mod_lt n hd
  rw [hquotient]
  by_cases hzero : n % d = 0
  · simp [accuracyOfFraction, hzero, Locates, ExtendedMantissa.ofMantissaAndAccuracy]
  have hpos : (0 : ℚ) < (n % d : ℕ) / d := div_pos (by exact_mod_cast Nat.pos_of_ne_zero hzero) hd'
  rw [accuracyOfFraction, if_neg hzero]
  rcases lt_trichotomy (2 * (n % d)) d with hlow | hmid | hhigh
  · have hhalf : ((n % d : ℕ) : ℚ) / d < 1 / 2 := by
      rw [div_lt_iff₀ hd']
      have : (2 : ℚ) * (n % d : ℕ) < d := by exact_mod_cast hlow
      linarith
    rw [compare_lt_iff_lt.mpr hlow]
    exact ⟨lt_add_of_pos_right _ hpos, (add_lt_add_iff_left _).mpr hhalf⟩
  · have hhalf : ((n % d : ℕ) : ℚ) / d = 1 / 2 := by
      rw [div_eq_iff hd'.ne']
      have : (2 : ℚ) * (n % d : ℕ) = d := by exact_mod_cast hmid
      linarith
    rw [compare_eq_iff_eq.mpr hmid, hhalf]
    rfl
  · have hhalf : 1 / 2 < ((n % d : ℕ) : ℚ) / d := by
      rw [lt_div_iff₀ hd']
      have : (d : ℚ) < 2 * (n % d : ℕ) := by exact_mod_cast hhigh
      linarith
    rw [compare_gt_iff_gt.mpr hhigh]
    exact ⟨(add_lt_add_iff_left _).mpr hhalf, (add_lt_add_iff_left _).mpr hlt⟩

namespace Locates

variable {em : ExtendedMantissa} {y : ℚ}

/-- Half of a number lies where the mantissa without its last bit says. -/
lemma shiftRightOne (h : Locates em y) : Locates em.shiftRightOne (y / 2) := by
  obtain ⟨m, round, sticky⟩ := em
  have hparts : (m : ℚ) = 2 * (m / 2 : ℕ) + (m % 2 : ℕ) := by
    exact_mod_cast (Nat.div_add_mod m 2).symm
  rcases Nat.mod_two_eq_zero_or_one m with hbit | hbit
  · have hround : (m % 2 != 0) = false := by rw [hbit]; rfl
    rw [hbit, Nat.cast_zero, add_zero] at hparts
    cases round <;> cases sticky <;>
      simp only [Locates, ExtendedMantissa.shiftRightOne, hround] at h ⊢ <;> grind
  · have hround : (m % 2 != 0) = true := by rw [hbit]; rfl
    rw [hbit, Nat.cast_one] at hparts
    cases round <;> cases sticky <;>
      simp only [Locates, ExtendedMantissa.shiftRightOne, hround] at h ⊢ <;> grind

lemma shiftRight (h : Locates em y) (k : ℕ) : Locates (em >>> k) (y / 2 ^ k) := by
  change Locates (k.repeat ExtendedMantissa.shiftRightOne em) _
  induction k with
  | zero => simpa [Nat.repeat] using h
  | succ k ih =>
    rw [Nat.repeat, pow_succ, ← div_div]
    exact ih.shiftRightOne

/-- Rounding goes to an integer that is no more than a half away. -/
lemma abs_roundedMantissa_sub_le (h : Locates em y) : |(em.roundedMantissa : ℚ) - y| ≤ 1 / 2 := by
  obtain ⟨m, round, sticky⟩ := em
  rw [abs_le]
  cases round <;> cases sticky <;>
    simp only [Locates, ExtendedMantissa.roundedMantissa, ExtendedMantissa.accuracy,
      Accuracy.roundToNearestEven] at h ⊢
  · rw [h]; norm_num
  · constructor <;> linarith [h.1, h.2]
  · rcases Nat.mod_two_eq_zero_or_one m with hbit | hbit
    · rw [hbit, h]; norm_num
    · rw [hbit, h]; norm_num
  · push_cast
    constructor <;> linarith [h.1, h.2]

lemma le (h : Locates em y) : (em.mantissa : ℚ) ≤ y := by
  obtain ⟨m, round, sticky⟩ := em
  cases round <;> cases sticky <;> simp only [Locates] at h ⊢ <;> grind

lemma lt_succ (h : Locates em y) : y < em.mantissa + 1 := by
  obtain ⟨m, round, sticky⟩ := em
  cases round <;> cases sticky <;> simp only [Locates] at h ⊢ <;> grind

end Locates

/-! ## Values -/

/-- The number that an unpacked float stands for, zero if it stands for none. -/
def unpackedValue : Float.Model.UnpackedFloat → ℚ
  | .finite s m e _ => s.apply m * 2 ^ e
  | _ => 0

/-- An unpacked float that is a number is a zero, or it has a mantissa and an exponent. -/
lemma zero_or_finite {u : Float.Model.UnpackedFloat} (h : u.isFinite = true) :
    (∃ s, u = .zero s) ∨ ∃ s m e hm, u = .finite s m e hm := by
  cases u with
  | notANumber => cases h
  | infinity s => cases h
  | zero s => exact .inl ⟨s, rfl⟩
  | finite s m e hm => exact .inr ⟨s, m, e, hm, rfl⟩

/-- A mantissa and an exponent that fit a float: the mantissa has all its fifty-three bits, unless
the exponent is the smallest. -/
def IsCanonical (m : ℕ) (e : ℤ) : Prop :=
  m < 2 ^ 53 ∧ minExponent ≤ e ∧ (2 ^ 52 ≤ m ∨ e = minExponent)

/-- The mantissa and the exponent of an unpacked float fit, where it has any. -/
def Canonical : Float.Model.UnpackedFloat → Prop
  | .finite _ m e _ => IsCanonical m e
  | _ => True

/-- The exponent of the last bit that is kept of a number with this mantissa and exponent. -/
def lastBit (m : ℕ) (e : ℤ) : ℤ :=
  max (m.log2 + e - 52) minExponent

lemma targetExponent_eq (m : ℕ) (e : ℤ) :
    Format.binary64.targetExponent (totalExponent m e) = lastBit m e := by
  have hmin : Format.binary64.minExponent = minExponent := by decide
  have hbits : (Format.binary64.mantissaBits : ℤ) = 53 := by decide
  rw [Format.targetExponent, totalExponent, lastBit, hmin, hbits]
  congr 1
  omega

/-! ## Rounding to fifty-three bits -/

section Round

variable {m : ℕ} {e : ℤ} {a : Accuracy} {y : ℚ}

/-- A mantissa that fits is not shifted. -/
lemma shift_of_lt (hm : m < 2 ^ 53) (he : minExponent ≤ e) :
    shiftToTargetExponent Format.binary64 m e .exact = (⟨m, false, false⟩, e) := by
  have hlog : m.log2 ≤ 52 := by
    by_cases hzero : m = 0
    · simp [hzero]
    · have := (Nat.log2_lt hzero).mpr hm
      omega
  have hshift : (lastBit m e - e).toNat = 0 := by
    rw [lastBit]
    omega
  rw [shiftToTargetExponent, targetExponent_eq, shiftToExponent, hshift]
  simp [ExtendedMantissa.ofMantissaAndAccuracy, HShiftRight.hShiftRight, Nat.repeat]

/-- A mantissa that has become one bit too long is a power of two, and loses a zero. -/
lemma shift_of_eq (he : minExponent ≤ e) :
    shiftToTargetExponent Format.binary64 (2 ^ 53) e .exact = (⟨2 ^ 52, false, false⟩, e + 1) := by
  have hshift : (lastBit (2 ^ 53) e - e).toNat = 1 := by
    rw [lastBit, Nat.log2_two_pow]
    omega
  rw [shiftToTargetExponent, targetExponent_eq, shiftToExponent, hshift]
  rfl

/-- What becomes of a mantissa that has been rounded. -/
lemma roundWithAccuracy_eq {em : ExtendedMantissa} {t : ℤ} (s : Sign)
    (hfirst : shiftToTargetExponent Format.binary64 m e a = (em, t)) (ht : minExponent ≤ t)
    (hle : em.roundedMantissa ≤ 2 ^ 53)
    (hfull : 2 ^ 52 ≤ em.roundedMantissa ∨ t = minExponent) :
    (roundWithAccuracy Format.binary64 s m e a).isFinite = true ∧
      Canonical (roundWithAccuracy Format.binary64 s m e a) ∧
      unpackedValue (roundWithAccuracy Format.binary64 s m e a) =
        s.apply em.roundedMantissa * 2 ^ t := by
  rw [roundWithAccuracy, hfirst]
  dsimp only
  rcases Nat.lt_or_eq_of_le hle with hlt | heq
  · rw [shift_of_lt hlt ht]
    by_cases hzero : em.roundedMantissa = 0
    · simp only [hzero, dif_pos]
      refine ⟨rfl, trivial, ?_⟩
      cases s <;> simp [unpackedValue, Sign.apply]
    · simp only [dif_neg hzero]
      exact ⟨rfl, ⟨hlt, ht, hfull⟩, rfl⟩
  · rw [heq, shift_of_eq ht]
    dsimp only
    refine ⟨rfl, ⟨by norm_num, by omega, .inl le_rfl⟩, ?_⟩
    have hpow : (2 : ℚ) ^ (t + 1) = 2 ^ t * 2 := zpow_add_one₀ (by norm_num) t
    show (s.apply (2 ^ 52 : ℕ) : ℚ) * 2 ^ (t + 1) = _
    cases s <;> simp only [Sign.apply, hpow] <;> push_cast <;> ring

/-- A number at a mantissa of full length has fifty-three bits before the last bit that is kept, and
no number has more. -/
lemma lt_of_locates (he : e ≤ lastBit m e)
    (hy : Locates (ExtendedMantissa.ofMantissaAndAccuracy m a) y) :
    y * 2 ^ e < 2 ^ 53 * (2 : ℚ) ^ lastBit m e ∧
      (lastBit m e = minExponent ∨ 2 ^ 52 * (2 : ℚ) ^ lastBit m e ≤ y * 2 ^ e) := by
  have hmantissa : (ExtendedMantissa.ofMantissaAndAccuracy m a).mantissa = m := by
    cases a with
    | exact => rfl
    | inexact o => cases o <;> rfl
  have hle := hy.le
  have hlt := hy.lt_succ
  rw [hmantissa] at hle hlt
  have hpos : (0 : ℚ) < 2 ^ e := by positivity
  constructor
  · have hlog : ((m : ℚ) + 1) ≤ 2 ^ ((m.log2 : ℤ) + 1) := by
      exact_mod_cast Nat.succ_le_of_lt (Nat.lt_log2_self (n := m))
    calc y * 2 ^ e < (m + 1) * 2 ^ e := by gcongr
      _ ≤ 2 ^ ((m.log2 : ℤ) + 1) * 2 ^ e := by gcongr
      _ = 2 ^ ((m.log2 : ℤ) + 1 + e) := (zpow_add₀ (by norm_num) _ _).symm
      _ ≤ 2 ^ (53 + lastBit m e) := by
        apply zpow_le_zpow_right₀ (by norm_num)
        rw [lastBit]
        omega
      _ = 2 ^ 53 * 2 ^ lastBit m e := by
        rw [zpow_add₀ (by norm_num)]
        norm_num
  · by_cases hmin : lastBit m e = minExponent
    · exact .inl hmin
    right
    have hlast : 52 + lastBit m e = m.log2 + e := by
      rw [lastBit] at hmin ⊢
      omega
    have hlog : (2 : ℚ) ^ (m.log2 : ℤ) ≤ m := by
      have hne : m ≠ 0 := by
        rintro rfl
        rw [Nat.log2_zero] at hlast
        omega
      exact_mod_cast Nat.log2_self_le hne
    calc (2 : ℚ) ^ 52 * 2 ^ lastBit m e = 2 ^ (52 + lastBit m e) := by
          rw [zpow_add₀ (by norm_num)]
          norm_num
      _ = 2 ^ (m.log2 : ℤ) * 2 ^ e := by rw [hlast, zpow_add₀ (by norm_num)]
      _ ≤ y * 2 ^ e := by gcongr; exact hlog.trans hle

/-- Rounding goes to a multiple of the last bit that is kept, no more than half of it away. -/
lemma exists_roundWithAccuracy_eq (s : Sign) (he : e ≤ lastBit m e)
    (hy : Locates (ExtendedMantissa.ofMantissaAndAccuracy m a) y) :
    ∃ r : ℕ, |(r : ℚ) * 2 ^ lastBit m e - y * 2 ^ e| ≤ 2 ^ lastBit m e / 2 ∧
      (roundWithAccuracy Format.binary64 s m e a).isFinite = true ∧
      Canonical (roundWithAccuracy Format.binary64 s m e a) ∧
      unpackedValue (roundWithAccuracy Format.binary64 s m e a) = s.apply r * 2 ^ lastBit m e := by
  obtain ⟨k, hk⟩ := Int.le.dest he
  have hshift : shiftToTargetExponent Format.binary64 m e a =
      (ExtendedMantissa.ofMantissaAndAccuracy m a >>> k, lastBit m e) := by
    have hamount : (lastBit m e - e).toNat = k := by omega
    rw [shiftToTargetExponent, targetExponent_eq, shiftToExponent, hamount, hk]
  have hlast : (2 : ℚ) ^ lastBit m e = 2 ^ k * 2 ^ e := by
    rw [← hk, zpow_add₀ (by norm_num), zpow_natCast, mul_comm]
  have hpos : (0 : ℚ) < 2 ^ lastBit m e := by positivity
  set r := (ExtendedMantissa.ofMantissaAndAccuracy m a >>> k).roundedMantissa with hr
  have hhalf : |(r : ℚ) - y / 2 ^ k| ≤ 1 / 2 := (hy.shiftRight k).abs_roundedMantissa_sub_le
  have hscale : y * 2 ^ e = y / 2 ^ k * 2 ^ lastBit m e := by
    rw [hlast]
    field_simp
  obtain ⟨hupper, hlower⟩ := lt_of_locates he hy
  rw [hscale, mul_lt_mul_iff_left₀ hpos] at hupper
  rw [hscale, mul_le_mul_iff_left₀ hpos] at hlower
  have hle : r ≤ 2 ^ 53 := by
    have hlt : (r : ℚ) < 2 ^ 53 + 1 := by linarith [(abs_le.mp hhalf).2]
    exact Nat.lt_succ_iff.mp (by exact_mod_cast hlt)
  have hfull : 2 ^ 52 ≤ r ∨ lastBit m e = minExponent := by
    rcases hlower with hmin | hlower
    · exact .inr hmin
    · have hlt : (2 : ℚ) ^ 52 < r + 1 := by linarith [(abs_le.mp hhalf).1]
      exact .inl (Nat.lt_succ_iff.mp (by exact_mod_cast hlt))
  have hmin : minExponent ≤ lastBit m e := le_max_right _ _
  obtain ⟨hfinite, hcanonical, hvalue⟩ := roundWithAccuracy_eq s hshift hmin hle hfull
  refine ⟨r, ?_, hfinite, hcanonical, hvalue⟩
  rw [hscale, ← sub_mul, abs_mul, abs_of_pos hpos]
  calc |(r : ℚ) - y / 2 ^ k| * 2 ^ lastBit m e
      ≤ 1 / 2 * 2 ^ lastBit m e := by gcongr
    _ = 2 ^ lastBit m e / 2 := by ring

end Round

/-! ## The error of rounding -/

/-- Half of the distance from one to the next float. -/
def roundoff : ℚ := 1 / 2 ^ 53

/-- Half of the smallest float. -/
def tiny : ℚ := 2 ^ minExponent / 2

lemma roundoff_pos : 0 < roundoff := by
  rw [roundoff]
  positivity

lemma tiny_pos : 0 < tiny := by
  rw [tiny]
  positivity

/-- An unpacked float that a number has been rounded to.  It is off by no more than `roundoff` in
proportion, or by no more than `tiny` where floats are finest, and not at all if the number fits. -/
structure Rounded (r : ℚ) (u : Float.Model.UnpackedFloat) : Prop where
  isFinite : u.isFinite = true
  canonical : Canonical u
  error : |unpackedValue u - r| ≤ roundoff * |r| + tiny
  exact : ∀ (n : ℕ) (e : ℤ), n < 2 ^ 53 → minExponent ≤ e → |r| = n * 2 ^ e → unpackedValue u = r

lemma cast_apply (s : Sign) (n : ℤ) : (s.apply n : ℚ) = s.apply 1 * n := by
  cases s <;> simp [Sign.apply]

lemma abs_apply_one (s : Sign) : |((s.apply 1 : ℤ) : ℚ)| = 1 := by
  cases s <;> simp [Sign.apply]

lemma rounded_self {u : Float.Model.UnpackedFloat} (hfinite : u.isFinite = true)
    (h : Canonical u) : Rounded (unpackedValue u) u where
  isFinite := hfinite
  canonical := h
  error := by
    have hroundoff := roundoff_pos
    have htiny := tiny_pos
    rw [sub_self, abs_zero]
    positivity
  exact _ _ _ _ _ := rfl

section Rounded

variable {m : ℕ} {e : ℤ} {a : Accuracy} {y : ℚ}

/-- Half of the last bit that is kept is small in proportion, or it is `tiny`. -/
lemma half_lastBit_le (he : e ≤ lastBit m e)
    (hy : Locates (ExtendedMantissa.ofMantissaAndAccuracy m a) y) :
    (2 : ℚ) ^ lastBit m e / 2 ≤ roundoff * |y * 2 ^ e| + tiny := by
  have hroundoff : 0 ≤ roundoff * |y * 2 ^ e| := mul_nonneg roundoff_pos.le (abs_nonneg _)
  have htiny := tiny_pos
  rcases (lt_of_locates he hy).2 with hmin | hlower
  · have hhalf : (2 : ℚ) ^ lastBit m e / 2 = tiny := by
      rw [hmin, tiny]
    linarith
  · have hle : 2 ^ 52 * (2 : ℚ) ^ lastBit m e ≤ |y * 2 ^ e| := hlower.trans (le_abs_self _)
    have hhalf : (2 : ℚ) ^ lastBit m e / 2 ≤ roundoff * |y * 2 ^ e| := by
      rw [roundoff]
      linarith
    linarith

/-- A number that fits is a multiple of the last bit that is kept of it. -/
lemma exists_eq_mul_lastBit (he : e ≤ lastBit m e)
    (hy : Locates (ExtendedMantissa.ofMantissaAndAccuracy m a) y) {n : ℕ} {f : ℤ}
    (hn : n < 2 ^ 53) (hf : minExponent ≤ f) (h : y * 2 ^ e = n * 2 ^ f) :
    ∃ k : ℕ, y * 2 ^ e = k * 2 ^ lastBit m e := by
  have hle : lastBit m e ≤ f := by
    rcases (lt_of_locates he hy).2 with hmin | hlower
    · omega
    · have hlt : (2 : ℚ) ^ (52 + lastBit m e) < 2 ^ (53 + f) := by
        calc (2 : ℚ) ^ (52 + lastBit m e) = 2 ^ 52 * 2 ^ lastBit m e := by
              rw [zpow_add₀ (by norm_num)]
              norm_num
          _ ≤ n * 2 ^ f := h ▸ hlower
          _ < 2 ^ 53 * 2 ^ f := by
            have hcast : (n : ℚ) < 2 ^ 53 := by exact_mod_cast hn
            gcongr
          _ = 2 ^ (53 + f) := by
              rw [zpow_add₀ (by norm_num)]
              norm_num
      have := (zpow_lt_zpow_iff_right₀ (by norm_num : (1 : ℚ) < 2)).mp hlt
      omega
  obtain ⟨k, hk⟩ := Int.le.dest hle
  refine ⟨n * 2 ^ k, ?_⟩
  rw [h, ← hk, zpow_add₀ (by norm_num), zpow_natCast]
  push_cast
  ring

lemma rounded_roundWithAccuracy (s : Sign) (he : e ≤ lastBit m e)
    (hy : Locates (ExtendedMantissa.ofMantissaAndAccuracy m a) y) :
    Rounded (s.apply 1 * (y * 2 ^ e)) (roundWithAccuracy Format.binary64 s m e a) := by
  obtain ⟨r, hr, hfinite, hcanonical, hvalue⟩ := exists_roundWithAccuracy_eq s he hy
  have habs (z : ℚ) : |((s.apply 1 : ℤ) : ℚ) * z| = |z| := by rw [abs_mul, abs_apply_one, one_mul]
  have hdiff : unpackedValue (roundWithAccuracy Format.binary64 s m e a) -
      s.apply 1 * (y * 2 ^ e) = s.apply 1 * (r * 2 ^ lastBit m e - y * 2 ^ e) := by
    rw [hvalue, cast_apply]
    push_cast
    ring
  refine ⟨hfinite, hcanonical, ?_, fun n f hn hf hfits => ?_⟩
  · rw [hdiff, habs, habs]
    exact hr.trans (half_lastBit_le he hy)
  · have hnonneg : 0 ≤ y * 2 ^ e := by
      have hy' : 0 ≤ y := (Nat.cast_nonneg _).trans hy.le
      positivity
    rw [habs, abs_of_nonneg hnonneg] at hfits
    obtain ⟨k, hk⟩ := exists_eq_mul_lastBit he hy hn hf hfits
    have hpos : (0 : ℚ) < 2 ^ lastBit m e := by positivity
    have hsame : r = k := by
      rw [hk, ← sub_mul, abs_mul, abs_of_pos hpos, ← mul_one_div, mul_comm,
        mul_le_mul_iff_right₀ hpos] at hr
      have hlt : |(r : ℤ) - k| < 1 := by
        have : |(r : ℚ) - k| < 1 := by linarith
        exact_mod_cast this
      rw [Int.abs_lt_one_iff] at hlt
      omega
    rw [← sub_eq_zero, hdiff, hk, hsame, sub_self, mul_zero]

/-- A longer mantissa with a smaller exponent stands for the same number. -/
lemma decreaseExponent_eq (m : ℕ) {e t : ℤ} (h : t ≤ e) :
    ∃ n : ℕ, decreaseExponent m e t = (n, t) ∧ (n : ℚ) * 2 ^ t = m * 2 ^ e ∧
      (m ≠ 0 → n.log2 + t = m.log2 + e) := by
  obtain ⟨k, hk⟩ := Int.le.dest h
  have hamount : (e - t).toNat = k := by omega
  refine ⟨m <<< k, ?_, ?_, fun hm => ?_⟩
  · rw [decreaseExponent, hamount]
    exact Prod.ext rfl (by omega)
  · rw [Nat.shiftLeft_eq, ← hk, zpow_add₀ (by norm_num), zpow_natCast]
    push_cast
    ring
  · have hlog : (m <<< k).log2 = m.log2 + k := by
      rw [Nat.shiftLeft_eq, Nat.log2_eq_iff (by positivity), pow_add, ← Nat.add_right_comm, pow_add]
      constructor
      · exact Nat.mul_le_mul_right _ (Nat.log2_self_le hm)
      · exact Nat.mul_lt_mul_of_pos_right Nat.lt_log2_self (by positivity)
    omega

lemma rounded_round (s : Sign) (hm : m ≠ 0) (e : ℤ) :
    Rounded (s.apply 1 * (m * 2 ^ e))
      (Float.Model.UnpackedFloat.round Format.binary64 s m e) := by
  rw [Float.Model.UnpackedFloat.round, targetExponent_eq]
  by_cases h : lastBit m e ≤ e
  · obtain ⟨n, hn, hvalue, hlog⟩ := decreaseExponent_eq m h
    have hlast : lastBit n (lastBit m e) = lastBit m e := by
      have := hlog hm
      simp only [lastBit] at this ⊢
      omega
    rw [hn, ← hvalue]
    exact rounded_roundWithAccuracy s hlast.ge (locates_exact n)
  · have hamount : (e - lastBit m e).toNat = 0 := by omega
    have hsame : decreaseExponent m e (lastBit m e) = (m, e) := by
      rw [decreaseExponent, hamount]
      simp
    rw [hsame]
    exact rounded_roundWithAccuracy s (not_le.mp h).le (locates_exact m)

lemma rounded_normalize (n : ℤ) (e : ℤ) (s : Sign) :
    Rounded (n * 2 ^ e) (normalize Format.binary64 n e s) := by
  rw [Float.Model.UnpackedFloat.normalize]
  rcases lt_trichotomy n 0 with hn | rfl | hn
  · rw [compare_lt_iff_lt.mpr hn]
    have h := rounded_round .negative (m := (-n).toNat) (by omega) e
    have hcast : (((-n).toNat : ℕ) : ℚ) = -n := by
      exact_mod_cast Int.toNat_of_nonneg (by omega)
    simpa [Sign.apply, hcast] using h
  · rw [compare_eq_iff_eq.mpr rfl, Int.cast_zero, zero_mul]
    exact rounded_self (u := .zero s) rfl trivial
  · rw [compare_gt_iff_gt.mpr hn]
    have h := rounded_round .positive (m := n.toNat) (by omega) e
    have hcast : ((n.toNat : ℕ) : ℚ) = n := by
      exact_mod_cast Int.toNat_of_nonneg hn.le
    simpa [Sign.apply, hcast] using h

end Rounded

/-! ## Operations on unpacked floats -/

section Operations

variable {u v : Float.Model.UnpackedFloat}

lemma rounded_add (hu : u.isFinite = true) (hv : v.isFinite = true) (hcu : Canonical u)
    (hcv : Canonical v) :
    Rounded (unpackedValue u + unpackedValue v) (add Format.binary64 u v) := by
  rcases zero_or_finite hu with ⟨s, rfl⟩ | ⟨s, m, e, hm, rfl⟩
  · rw [show unpackedValue (.zero s) = 0 from rfl, zero_add]
    rcases zero_or_finite hv with ⟨t, rfl⟩ | ⟨t, n, f, hn, rfl⟩
    · rw [show unpackedValue (.zero t) = 0 from rfl, add]
      split
      · exact rounded_self (u := .zero _) rfl trivial
      · exact rounded_self (u := .zero _) rfl trivial
    · exact rounded_self rfl hcv
  rcases zero_or_finite hv with ⟨t, rfl⟩ | ⟨t, n, f, hn, rfl⟩
  · rw [show unpackedValue (.zero t) = 0 from rfl, add_zero]
    exact rounded_self rfl hcu
  · obtain ⟨m', hm', hmvalue, -⟩ := decreaseExponent_eq m (min_le_left e f)
    obtain ⟨n', hn', hnvalue, -⟩ := decreaseExponent_eq n (min_le_right e f)
    simp only [add, hm', hn']
    have hsum : unpackedValue (.finite s m e hm) + unpackedValue (.finite t n f hn) =
        ((s.apply m' + t.apply n' : ℤ) : ℚ) * 2 ^ min e f := by
      simp only [unpackedValue]
      rw [Int.cast_add, cast_apply s m, cast_apply s m', cast_apply t n, cast_apply t n']
      push_cast
      linear_combination -(s.apply 1 : ℚ) * hmvalue - (t.apply 1 : ℚ) * hnvalue
    rw [hsum]
    exact rounded_normalize _ _ _

lemma apply_neg (s : Sign) (n : ℤ) : (-s).apply n = -s.apply n := by
  cases s with
  | negative => exact (neg_neg n).symm
  | positive => rfl

/-- Subtraction is addition of the opposite. -/
lemma sub_eq_add_opposite (u v : Float.Model.UnpackedFloat) :
    sub Format.binary64 u v = add Format.binary64 u v.neg := by
  unfold sub add neg
  cases u <;> cases v <;> try rfl
  all_goals dsimp only
  all_goals simp only [apply_neg, sub_eq_add_neg]

lemma rounded_sub (hu : u.isFinite = true) (hv : v.isFinite = true) (hcu : Canonical u)
    (hcv : Canonical v) :
    Rounded (unpackedValue u - unpackedValue v) (sub Format.binary64 u v) := by
  obtain ⟨hneg, hfinite, hcanonical⟩ : unpackedValue v.neg = -unpackedValue v ∧
      v.neg.isFinite = true ∧ Canonical v.neg := by
    rcases zero_or_finite hv with ⟨t, rfl⟩ | ⟨t, n, f, hn, rfl⟩
    · exact ⟨neg_zero.symm, rfl, trivial⟩
    · refine ⟨?_, rfl, hcv⟩
      simp only [unpackedValue, neg]
      rw [apply_neg, Int.cast_neg, neg_mul]
  rw [sub_eq_add_opposite, sub_eq_add_neg, ← hneg]
  exact rounded_add hu hfinite hcu hcanonical

lemma apply_mul (s t : Sign) : (s * t).apply 1 = s.apply 1 * t.apply 1 := by
  cases s <;> cases t <;> rfl

lemma apply_div (s t : Sign) : (s / t).apply 1 = s.apply 1 * t.apply 1 := by
  cases s <;> cases t <;> rfl

/-- A product of mantissas that are long enough is not longer than what is kept of it. -/
lemma rounded_mul_finite (s t : Sign) {m n : ℕ} {e f : ℤ} (hm : 0 < m) (hn : 0 < n)
    (h : e + f ≤ lastBit (m * n) (e + f)) :
    Rounded (unpackedValue (.finite s m e hm) * unpackedValue (.finite t n f hn))
      (mul Format.binary64 (.finite s m e hm) (.finite t n f hn)) := by
  have hproduct : unpackedValue (.finite s m e hm) * unpackedValue (.finite t n f hn) =
      (s * t).apply 1 * ((m * n : ℕ) * 2 ^ (e + f)) := by
    simp only [unpackedValue]
    rw [cast_apply s m, cast_apply t n, apply_mul, zpow_add₀ (by norm_num)]
    push_cast
    ring
  rw [hproduct]
  exact rounded_roundWithAccuracy (s * t) h (locates_exact (m * n))

lemma IsCanonical.add_le_lastBit {m n : ℕ} {e f : ℤ} (hcm : IsCanonical m e)
    (hcn : IsCanonical n f) (hm : 0 < m) (hn : 0 < n) : e + f ≤ lastBit (m * n) (e + f) := by
  obtain ⟨-, -, hfullm⟩ := hcm
  obtain ⟨-, -, hfulln⟩ := hcn
  have hlog (hle : 2 ^ 52 ≤ m * n) : 52 ≤ (m * n).log2 :=
    (Nat.le_log2 (by positivity)).mpr hle
  rw [lastBit]
  rcases hfullm with hfull | hmin
  · have := hlog (hfull.trans (Nat.le_mul_of_pos_right m hn))
    omega
  rcases hfulln with hfull | hmin'
  · have := hlog (hfull.trans (Nat.le_mul_of_pos_left n hm))
    omega
  · rw [hmin, hmin', minExponent]
    omega

lemma rounded_mul (hu : u.isFinite = true) (hv : v.isFinite = true) (hcu : Canonical u)
    (hcv : Canonical v) :
    Rounded (unpackedValue u * unpackedValue v) (mul Format.binary64 u v) := by
  rcases zero_or_finite hu with ⟨s, rfl⟩ | ⟨s, m, e, hm, rfl⟩
  · rw [show unpackedValue (.zero s) = 0 from rfl, zero_mul]
    rcases zero_or_finite hv with ⟨t, rfl⟩ | ⟨t, n, f, hn, rfl⟩
    · exact rounded_self (u := .zero _) rfl trivial
    · exact rounded_self (u := .zero _) rfl trivial
  rcases zero_or_finite hv with ⟨t, rfl⟩ | ⟨t, n, f, hn, rfl⟩
  · rw [show unpackedValue (.zero t) = 0 from rfl, mul_zero]
    exact rounded_self (u := .zero _) rfl trivial
  · exact rounded_mul_finite s t hm hn (hcu.add_le_lastBit hcv hm hn)

/-- The quotient of two mantissas is long enough. -/
lemma exists_divCore_eq {m n : ℕ} (hm : 0 < m) (hn : 0 < n) (e f : ℤ) :
    ∃ (k : ℕ) (t : ℤ), divCore Format.binary64 m e n f =
        (k / n, t, accuracyOfFraction (k % n) n) ∧
      (k : ℚ) * 2 ^ t = m * 2 ^ (e - f) ∧ t ≤ lastBit (k / n) t := by
  have hmin : Format.binary64.minExponent = minExponent := by decide
  have hbits : (Format.binary64.mantissaBits : ℤ) = 53 := by decide
  set t := min (e - f) (Format.binary64.targetExponent (totalExponent m e - totalExponent n f))
    with ht
  have hle : t ≤ e - f := min_le_left _ _
  obtain ⟨k, hk, hvalue, hlog⟩ := decreaseExponent_eq m hle
  have hk' : m <<< (e - f - t).toNat = k := congrArg Prod.fst hk
  refine ⟨k, t, ?_, hvalue, ?_⟩
  · rw [divCore, ← ht, hk']
  rw [lastBit]
  rcases le_or_gt t minExponent with hsmall | hlarge
  · exact hsmall.trans (le_max_right _ _)
  have htarget : t ≤ m.log2 + e - n.log2 - f - 53 := by
    rw [Format.targetExponent, totalExponent, totalExponent, hmin, hbits] at ht
    omega
  have hk0 : k ≠ 0 := by
    rw [← hk', Nat.shiftLeft_eq]
    positivity
  have hlen : 53 + n.log2 ≤ k.log2 := by
    have := hlog hm.ne'
    omega
  have hfull : 2 ^ 52 ≤ k / n := by
    rw [Nat.le_div_iff_mul_le hn]
    calc 2 ^ 52 * n ≤ 2 ^ 52 * 2 ^ (n.log2 + 1) := by
          gcongr
          exact Nat.lt_log2_self.le
      _ = 2 ^ (53 + n.log2) := by ring
      _ ≤ 2 ^ k.log2 := Nat.pow_le_pow_right (by norm_num) hlen
      _ ≤ k := Nat.log2_self_le hk0
  have := (Nat.le_log2 (by positivity)).mpr hfull
  omega

lemma rounded_div (hu : u.isFinite = true) (hv : v.isFinite = true) (h : unpackedValue v ≠ 0) :
    Rounded (unpackedValue u / unpackedValue v) (div Format.binary64 u v) := by
  rcases zero_or_finite hv with ⟨t, rfl⟩ | ⟨t, n, f, hn, rfl⟩
  · exact absurd rfl h
  rcases zero_or_finite hu with ⟨s, rfl⟩ | ⟨s, m, e, hm, rfl⟩
  · rw [show unpackedValue (.zero s) = 0 from rfl, zero_div]
    exact rounded_self (u := .zero _) rfl trivial
  obtain ⟨k, r, hcore, hvalue, hr⟩ := exists_divCore_eq hm hn e f
  have hquotient : unpackedValue (.finite s m e hm) / unpackedValue (.finite t n f hn) =
      (s / t).apply 1 * ((k : ℚ) / n * 2 ^ r) := by
    have hn' : (n : ℚ) ≠ 0 := by positivity
    have hsign : ((t.apply 1 : ℤ) : ℚ) * t.apply 1 = 1 := by cases t <;> norm_num [Sign.apply]
    have ht : ((t.apply 1 : ℤ) : ℚ) ≠ 0 := left_ne_zero_of_mul_eq_one hsign
    have hscale : (k : ℚ) / n * 2 ^ r = m * 2 ^ (e - f) / n := by
      rw [← hvalue]
      ring
    rw [hscale, zpow_sub₀ (by norm_num), apply_div]
    simp only [unpackedValue]
    rw [cast_apply s m, cast_apply t n]
    push_cast
    field_simp
    linear_combination -(s.apply 1 : ℚ) * hsign
  rw [hquotient]
  simp only [div, hcore]
  exact rounded_roundWithAccuracy (s / t) hr (locates_div k hn)

end Operations

end Calculator.Binary64
