import Calculator.Proofs.Rounding
import Mathlib

/-!
# The error of an operation

An exponent that is too great for a word is not noticed before the word is packed, and what is then
read back is an infinity.  So whether a result is finite is decided by its size alone: a canonical
float below `2 ^ 1024` is read back as it is (`unpack_pack_of_canonical`).

With that, `Rounds` says of a float all that is needed to follow a computation in rational numbers:
the result is finite if the number is not greater than every float, and if it is finite, it is off
by `roundoff` in proportion and by `tiny`.  It holds of the four operations and of whole numbers.
-/

namespace Calculator.Binary64

open Float.Model (Format)
open Float.Model.UnpackedFloat

/-! ## Bits -/

/-- The exponent of one, as it is stored. -/
lemma exponentBias_eq : (Format.binary64.exponentBias : ℤ) = 1023 := by
  decide

/-- The bit before the fraction. -/
lemma toNat_one_append (b : BitVec 52) : (1#1 ++ b).toNat = 2 ^ 52 + b.toNat := by
  rw [BitVec.toNat_append, ← Nat.shiftLeft_add_eq_or_of_lt b.isLt]
  rfl

lemma canonical_unpack (b : BitVec 64) : Canonical (unpack Format.binary64 b) := by
  have hmantissa : (@unpackMantissa Format.binary64 b).toNat < 2 ^ 52 := BitVec.isLt _
  simp only [unpack]
  split
  · split
    · trivial
    · trivial
  split
  next hzero =>
    split
    · trivial
    · refine ⟨by omega, ?_, .inr ?_⟩
      all_goals
        rw [hzero, exponentBias_eq]
        decide
  next hne =>
    have hpos : (@unpackExponent Format.binary64 b).toNat ≠ 0 := by
      intro hzero
      exact hne (BitVec.eq_of_toNat_eq hzero)
    have hsum := toNat_one_append (@unpackMantissa Format.binary64 b)
    refine ⟨?_, ?_, .inl ?_⟩
    · rw [hsum]
      omega
    · rw [exponentBias_eq, minExponent]
      push_cast
      omega
    · rw [hsum]
      omega

lemma abs_unpackedValue_finite (s : Sign) {m : ℕ} (e : ℤ) (hm : 0 < m) :
    |unpackedValue (.finite s m e hm)| = m * 2 ^ e := by
  have hpos : (0 : ℚ) < 2 ^ e := by positivity
  simp only [unpackedValue]
  rw [cast_apply, abs_mul, abs_mul, abs_apply_one, one_mul, abs_of_pos hpos]
  push_cast
  rw [Nat.abs_cast]

lemma unpack_packedInfinity (s : Sign) :
    unpack Format.binary64 (packedInfinity Format.binary64 s) = .infinity s := by
  simp [unpack, packedInfinity]

lemma ofNat_ne {w n k : ℕ} (hn : n < 2 ^ w) (hk : k < 2 ^ w) (h : n ≠ k) :
    BitVec.ofNat w n ≠ BitVec.ofNat w k := by
  intro heq
  have hnat := congrArg BitVec.toNat heq
  rw [BitVec.toNat_ofNat, BitVec.toNat_ofNat, Nat.mod_eq_of_lt hn, Nat.mod_eq_of_lt hk] at hnat
  exact h hnat

/-- The bits of a canonical float are read back, unless its exponent is too great. -/
lemma unpack_pack_finite (s : Sign) {m : ℕ} {e : ℤ} (hm : 0 < m) (h : IsCanonical m e)
    (he : e ≤ 971) :
    unpack Format.binary64 (pack Format.binary64 (.finite s m e hm)) = .finite s m e hm := by
  obtain ⟨hlt, hmin, hfull⟩ := h
  rw [minExponent] at hmin hfull
  obtain ⟨field, hfield⟩ : ∃ field : ℕ, e + 1023 + 52 = field :=
    ⟨(e + 1023 + 52).toNat, by omega⟩
  simp only [pack, exponentBias_eq]
  push_cast
  rw [hfield, Int.toNat_natCast, if_neg (by norm_num; omega)]
  have hspecial : BitVec.ofNat 11 field ≠ -1#11 :=
    ofNat_ne (k := 2047) (by omega) (by norm_num) (by omega)
  by_cases hnormal : 2 ^ 52 ≤ m
  · have hlog : m.log2 + 1 = Format.binary64.mantissaBits := by
      show m.log2 + 1 = 53
      have := (Nat.log2_eq_iff hm.ne').mpr ⟨hnormal, hlt⟩
      omega
    have hzero : BitVec.ofNat 11 field ≠ 0#11 := ofNat_ne (by omega) (by norm_num) (by omega)
    rw [if_pos hlog]
    simp only [unpack, unpackExponent_packComponents, unpackMantissa_packComponents,
      unpackSign_packComponents, Sign.ofBitVec_toBitVec]
    rw [if_neg hspecial, if_neg hzero]
    congr 1
    · rw [toNat_one_append, BitVec.toNat_ofNat]
      omega
    · rw [BitVec.toNat_ofNat, exponentBias_eq]
      omega
  · have hlog : m.log2 + 1 ≠ Format.binary64.mantissaBits := by
      show m.log2 + 1 ≠ 53
      have := (Nat.log2_lt hm.ne').mpr (not_le.mp hnormal)
      omega
    have hzero : BitVec.ofNat 52 m ≠ 0#52 := ofNat_ne (by omega) (by norm_num) (by omega)
    rw [if_neg hlog]
    simp only [unpack, unpackExponent_packComponents, unpackMantissa_packComponents,
      unpackSign_packComponents, Sign.ofBitVec_toBitVec]
    rw [if_neg (by decide), if_pos trivial, dif_neg hzero]
    congr 1
    · rw [BitVec.toNat_ofNat]
      omega
    · rw [exponentBias_eq]
      norm_num
      omega

/-- A float of the greatest exponents has too many digits before the point. -/
lemma unpack_pack_finite_of_lt (s : Sign) {m : ℕ} {e : ℤ} (hm : 0 < m) (he : 971 < e) :
    unpack Format.binary64 (pack Format.binary64 (.finite s m e hm)) = .infinity s := by
  simp only [pack, exponentBias_eq]
  rw [if_pos (by norm_num; omega), unpack_packedInfinity]

lemma unpack_pack_of_canonical {u : Float.Model.UnpackedFloat} (hfinite : u.isFinite = true)
    (h : Canonical u) :
    unpack Format.binary64 (pack Format.binary64 u) = u ∨
      (unpack Format.binary64 (pack Format.binary64 u)).isFinite = false ∧
        2 ^ 1024 ≤ |unpackedValue u| := by
  rcases zero_or_finite hfinite with ⟨s, rfl⟩ | ⟨s, m, e, hm, rfl⟩
  · exact .inl unpack_packedZero
  rcases le_or_gt e 971 with he | he
  · exact .inl (unpack_pack_finite s hm h he)
  right
  constructor
  · rw [unpack_pack_finite_of_lt s hm he]
    rfl
  · obtain ⟨-, -, hfull | hmin⟩ := h
    · have hcast : (2 : ℚ) ^ 52 ≤ m := by exact_mod_cast hfull
      have hpow : (2 : ℚ) ^ (972 : ℤ) ≤ 2 ^ e := zpow_le_zpow_right₀ (by norm_num) (by omega)
      have hsplit : (2 : ℚ) ^ 1024 = 2 ^ 52 * (2 : ℚ) ^ (972 : ℤ) := pow_add 2 52 972
      rw [abs_unpackedValue_finite, hsplit]
      gcongr
    · rw [minExponent] at hmin
      omega

/-! ## Floats -/

/-- The number that a float stands for, zero if it stands for none. -/
def value (x : Float) : ℚ :=
  unpackedValue x.toModel.unpack

/-- The greatest float. -/
def greatest : ℚ := 2 ^ 1024 - 2 ^ 971

lemma tiny_le : tiny ≤ 1 / 2 ^ 100 := by
  have hpow : (2 : ℚ) ^ minExponent ≤ 2 ^ (-100 : ℤ) :=
    zpow_le_zpow_right₀ (by norm_num) (by decide)
  rw [zpow_neg, zpow_ofNat, ← one_div] at hpow
  have hpos : (0 : ℚ) < 2 ^ minExponent := by positivity
  rw [tiny]
  linarith

lemma two_pow_le_greatest : 2 ^ 100 ≤ greatest := by
  have hsplit : (2 : ℚ) ^ 1024 = 2 ^ 53 * 2 ^ 971 := pow_add 2 53 971
  have hpow : (2 : ℚ) ^ 100 ≤ 2 ^ 971 := pow_le_pow_right₀ (by norm_num) (by norm_num)
  rw [greatest, hsplit]
  clear hsplit
  generalize (2 : ℚ) ^ 971 = a at *
  linarith

/-- A float that is the result of rounding a number, an infinite one if there are too many digits
before the point. -/
structure Rounds (r : ℚ) (z : Float) : Prop where
  isFinite_of_le : |r| ≤ greatest + 1 → z.isFinite = true
  error : z.isFinite = true → |value z - r| ≤ roundoff * |r| + tiny
  exact : z.isFinite = true → ∀ (n : ℕ) (e : ℤ), n < 2 ^ 53 → minExponent ≤ e →
    |r| = n * 2 ^ e → value z = r

lemma Rounded.rounds {r : ℚ} {u : Float.Model.UnpackedFloat} (h : Rounded r u) :
    Rounds r (Float.ofModel (Float.Model.pack u)) := by
  rcases unpack_pack_of_canonical h.isFinite h.canonical with hsame | ⟨hinfinite, hlarge⟩
  · have hvalue : value (Float.ofModel (Float.Model.pack u)) = unpackedValue u :=
      congrArg unpackedValue hsame
    refine ⟨fun _ => ?_, fun _ => ?_, fun _ => ?_⟩
    · exact (congrArg Float.Model.UnpackedFloat.isFinite hsame).trans h.isFinite
    · rw [hvalue]
      exact h.error
    · rw [hvalue]
      exact h.exact
  · have hnot : (Float.ofModel (Float.Model.pack u)).isFinite ≠ true := by
      rw [show (Float.ofModel (Float.Model.pack u)).isFinite = false from hinfinite]
      exact Bool.false_ne_true
    refine ⟨fun hle => ?_, fun hfinite => absurd hfinite hnot, fun hfinite => absurd hfinite hnot⟩
    exfalso
    have hdist : |unpackedValue u| - |r| ≤ roundoff * |r| + tiny :=
      (abs_sub_abs_le_abs_sub _ _).trans h.error
    have hsplit : (2 : ℚ) ^ 1024 = 2 ^ 53 * 2 ^ 971 := pow_add 2 53 971
    have hgreat : (2 : ℚ) ^ 60 ≤ 2 ^ 971 := pow_le_pow_right₀ (by norm_num) (by norm_num)
    have htiny := tiny_le
    rw [greatest, hsplit] at hle
    rw [hsplit] at hlarge
    rw [roundoff] at hdist
    clear hsplit
    generalize (2 : ℚ) ^ 971 = a at *
    linarith

/-- A rounded number is the number with a small error in proportion and a tiny error besides. -/
lemma Rounds.exists_eq {r : ℚ} {z : Float} (h : Rounds r z) (hfinite : z.isFinite = true) :
    ∃ δ ε : ℚ, |δ| ≤ roundoff ∧ |ε| ≤ tiny ∧ value z = r * (1 + δ) + ε := by
  have herror := h.error hfinite
  have htiny := tiny_pos
  have hroundoff := roundoff_pos.le
  -- The error is divided in the proportion of its two bounds.
  set total := roundoff * |r| + tiny with htotal
  have hpos : 0 < total := by positivity
  set part := (value z - r) / total with hpart
  have hle : |part| ≤ 1 := by
    rw [hpart, abs_div, abs_of_pos hpos, div_le_one hpos]
    exact herror
  have hwhole : value z - r = part * (roundoff * |r|) + part * tiny := by
    rw [← mul_add, ← htotal, hpart, div_mul_cancel₀ _ hpos.ne']
  have hsignLe : |(SignType.sign r : ℚ)| ≤ 1 := by
    cases SignType.sign r <;> simp
  refine ⟨roundoff * (part * SignType.sign r), part * tiny, ?_, ?_, ?_⟩
  · rw [abs_mul, abs_mul, abs_of_nonneg hroundoff]
    exact mul_le_of_le_one_right hroundoff (mul_le_one₀ hle (abs_nonneg _) hsignLe)
  · rw [abs_mul, abs_of_pos htiny]
    exact mul_le_of_le_one_left htiny.le hle
  · have hsign : r * SignType.sign r = |r| := self_mul_sign r
    linear_combination hwhole - part * roundoff * hsign

variable {x y : Float}

theorem rounds_add (hx : x.isFinite = true) (hy : y.isFinite = true) :
    Rounds (value x + value y) (x + y) :=
  (rounded_add hx hy (canonical_unpack _) (canonical_unpack _)).rounds

theorem rounds_sub (hx : x.isFinite = true) (hy : y.isFinite = true) :
    Rounds (value x - value y) (x - y) :=
  (rounded_sub hx hy (canonical_unpack _) (canonical_unpack _)).rounds

theorem rounds_mul (hx : x.isFinite = true) (hy : y.isFinite = true) :
    Rounds (value x * value y) (x * y) :=
  (rounded_mul hx hy (canonical_unpack _) (canonical_unpack _)).rounds

theorem rounds_div (hx : x.isFinite = true) (hy : y.isFinite = true) (h : value y ≠ 0) :
    Rounds (value x / value y) (x / y) :=
  (rounded_div hx hy h).rounds

/-- The exponent of a float fits a word. -/
lemma exponent_le {x : Float} {s : Sign} {m : ℕ} {e : ℤ} {hm : 0 < m}
    (h : x.toModel.unpack = .finite s m e hm) : e ≤ 971 := by
  have hpacked : pack Format.binary64 x.toModel.unpack = x.toModel.toBits.toBitVec :=
    pack_unpack_of_valid x.toModel.valid
  have hread : unpack Format.binary64 (pack Format.binary64 x.toModel.unpack) =
      x.toModel.unpack := by
    rw [hpacked]
    rfl
  by_contra hgt
  rw [h, unpack_pack_finite_of_lt s hm (not_le.mp hgt)] at hread
  cases hread

theorem abs_value_le (x : Float) : |value x| ≤ greatest := by
  have hcanonical : Canonical x.toModel.unpack := canonical_unpack _
  have hgreatest : (0 : ℚ) ≤ greatest := by
    rw [greatest, sub_nonneg]
    exact pow_le_pow_right₀ (by norm_num) (by norm_num)
  rw [value]
  cases hunpack : x.toModel.unpack with
  | notANumber => simpa [unpackedValue] using hgreatest
  | infinity s => simpa [unpackedValue] using hgreatest
  | zero s => simpa [unpackedValue] using hgreatest
  | finite s m e hm =>
    rw [hunpack] at hcanonical
    have hcast : (m : ℚ) ≤ 2 ^ 53 - 1 := by
      have hle : m + 1 ≤ 2 ^ 53 := hcanonical.1
      have : (m : ℚ) + 1 ≤ 2 ^ 53 := by exact_mod_cast hle
      linarith
    have hpow : (2 : ℚ) ^ e ≤ 2 ^ 971 := by
      rw [← zpow_ofNat]
      exact zpow_le_zpow_right₀ (by norm_num) (exponent_le hunpack)
    have hsplit : (2 : ℚ) ^ 1024 = 2 ^ 53 * 2 ^ 971 := pow_add 2 53 971
    rw [abs_unpackedValue_finite, greatest, hsplit]
    calc (m : ℚ) * 2 ^ e ≤ (2 ^ 53 - 1) * 2 ^ 971 :=
          mul_le_mul hcast hpow (by positivity) (by norm_num)
      _ = 2 ^ 53 * 2 ^ 971 - 2 ^ 971 := by rw [sub_mul, one_mul]

/-! ## Whole numbers -/

lemma value_one : value (Float.ofBits 0x3FF0000000000000) = 1 := by
  decide +kernel

/-- A whole number with at most fifty-three bits is a float. -/
lemma ofNat_exact {n : ℕ} (h : n < 2 ^ 53) :
    (Float.ofNat n).isFinite = true ∧ value (Float.ofNat n) = n := by
  have hproduct : Float.ofNat n = n.toUInt64.toFloat * Float.ofBits 0x3FF0000000000000 := by
    show Float.ofScientific n false 0 = _
    rw [Float.ofScientific, dif_pos ⟨h, by norm_num⟩]
    rfl
  have hfits : |(n : ℚ)| = n * 2 ^ (0 : ℤ) := by
    rw [Nat.abs_cast, zpow_zero, mul_one]
  have hword : Rounds n n.toUInt64.toFloat := by
    have hmod : n.toUInt64.toNat = n := Nat.mod_eq_of_lt (by omega)
    have hrounded : Rounds _ n.toUInt64.toFloat :=
      (rounded_normalize n.toUInt64.toNat 0 .positive).rounds
    rwa [zpow_zero, mul_one, Int.cast_natCast, hmod] at hrounded
  have hsmall : |(n : ℚ)| ≤ greatest + 1 := by
    have hcast : (n : ℚ) ≤ 2 ^ 53 := by exact_mod_cast h.le
    have hgreat := two_pow_le_greatest
    rw [Nat.abs_cast]
    linarith
  have hfinite := hword.isFinite_of_le hsmall
  have hvalue : value n.toUInt64.toFloat = n := hword.exact hfinite n 0 h (by decide) hfits
  have hrounds : Rounds n (Float.ofNat n) := by
    rw [hproduct, ← mul_one (n : ℚ), ← value_one, ← hvalue]
    exact rounds_mul hfinite (by decide +kernel)
  have hfinite' := hrounds.isFinite_of_le hsmall
  exact ⟨hfinite', hrounds.exact hfinite' n 0 h (by decide) hfits⟩

lemma rounds_of_value_eq {r : ℚ} (hfinite : x.isFinite = true) (h : value x = r) : Rounds r x where
  isFinite_of_le _ := hfinite
  error _ := by
    have hroundoff := roundoff_pos
    have htiny := tiny_pos
    rw [h, sub_self, abs_zero]
    positivity
  exact _ _ _ _ _ _ := h

/-- A whole number is rounded, on whichever way it becomes a float. -/
lemma rounds_ofNat (n : ℕ) : Rounds n (Float.ofNat n) := by
  by_cases h : n < 2 ^ 53
  · obtain ⟨hfinite, hvalue⟩ := ofNat_exact h
    exact rounds_of_value_eq hfinite hvalue
  obtain ⟨k, hk⟩ : ∃ k, n <<< 53 = k := ⟨_, rfl⟩
  have hscale : k = n * 2 ^ 53 := by rw [← hk, Nat.shiftLeft_eq]
  have hpos : 0 < k := by omega
  have hscientific : Float.ofNat n = Float.ofModel (Float.Model.pack
      (mul Format.binary64 (.finite .positive k (-53) hpos)
        (.finite .positive 1 0 one_pos))) := by
    subst hk
    have hcheap : ¬ (0 : ℤ) < -(2 ^ 11 + n.log2) := by omega
    show Float.ofScientific n false 0 = _
    rw [Float.ofScientific, dif_neg (by omega)]
    show Float.ofModel (Float.Model.pack (ofScientific Format.binary64 n 0)) = _
    rw [ofScientific, dif_neg (by omega), if_neg (by norm_num), if_neg hcheap,
      if_pos le_rfl]
    rfl
  have hlast : (-53 : ℤ) + 0 ≤ lastBit (k * 1) (-53 + 0) := by
    have hlong : 53 ≤ k.log2 := (Nat.le_log2 hpos.ne').mpr (by omega)
    rw [mul_one, lastBit]
    omega
  have hvalue : unpackedValue (.finite .positive k (-53) hpos) *
      unpackedValue (.finite .positive 1 0 one_pos) = n := by
    simp only [unpackedValue, Sign.apply]
    rw [hscale, zpow_zero, mul_one, zpow_neg]
    push_cast
    rw [mul_one, mul_assoc]
    exact mul_right_eq_self₀.mpr (.inl (mul_inv_cancel₀ (by positivity)))
  rw [hscientific, ← hvalue]
  exact (rounded_mul_finite .positive .positive hpos one_pos hlast).rounds

/-- A whole number of a word is rounded to a finite float, a little off in proportion. -/
lemma ofNat_bounds {n : ℕ} (h : n ≤ 2 ^ 64) :
    (Float.ofNat n).isFinite = true ∧ |value (Float.ofNat n) - n| ≤ n / 2 ^ 52 := by
  have hrounds := rounds_ofNat n
  have hfinite : (Float.ofNat n).isFinite = true := by
    apply hrounds.isFinite_of_le
    have hcast : (n : ℚ) ≤ 2 ^ 64 := by exact_mod_cast h
    have hgreat := two_pow_le_greatest
    rw [Nat.abs_cast]
    linarith
  refine ⟨hfinite, ?_⟩
  rcases Nat.eq_zero_or_pos n with rfl | hpos
  · rw [(ofNat_exact (by norm_num)).2]
    simp
  · have hone : (1 : ℚ) ≤ n := by exact_mod_cast hpos
    have herror := hrounds.error hfinite
    have htiny := tiny_le
    rw [Nat.abs_cast, roundoff] at herror
    linarith

lemma one_le_value_ofNat {n : ℕ} (hpos : 1 ≤ n) (h : n ≤ 2 ^ 64) : 1 ≤ value (Float.ofNat n) := by
  have hone : (1 : ℚ) ≤ n := by exact_mod_cast hpos
  by_cases hexact : n < 2 ^ 53
  · rwa [(ofNat_exact hexact).2]
  · have hlarge : (2 : ℚ) ^ 53 ≤ n := by exact_mod_cast not_lt.mp hexact
    have hbound := (abs_le.mp (ofNat_bounds h).2).1
    linarith

end Calculator.Binary64
