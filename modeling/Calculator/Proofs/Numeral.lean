import Calculator.Decimal.Reading
import Calculator.Proofs.Basic

/-!
# Numerals that can be read

A plain numeral is digits, and possibly a point and more digits.  Every plain numeral stands for a
float, by itself and after a minus (`readable_of_isPlain`).  The bare layout writes the magnitude of
every float that is finite as a plain numeral (`isPlain_magnitude`), so what it writes can always be
read again (`readable_write`).  Which float is read is not asked here.
-/

namespace Calculator.Decimal

/-- Digits, and possibly a point and digits after it. -/
def IsPlain (cs : List Char) : Prop :=
  ∃ whole fraction, cs = whole ++ fraction ∧ whole ≠ [] ∧ (∀ c ∈ whole, c.isDigit = true) ∧
    (fraction = [] ∨ ∃ ds, fraction = '.' :: ds ∧ ds ≠ [] ∧ ∀ c ∈ ds, c.isDigit = true)

/-- A text that stands for a float. -/
def Readable (text : String) : Prop := ∃ x, read text = .ok x

/-! ## Reading -/

lemma splitDigits_append {ds rest : List Char} (h : ∀ c ∈ ds, c.isDigit = true)
    (hrest : ∀ c ∈ rest.head?, c.isDigit = false) : splitDigits (ds ++ rest) = (ds, rest) := by
  rw [splitDigits, takeWhile_append_of_head h hrest, dropWhile_append_of_head h hrest]

lemma isSome_readUnsigned {cs : List Char} (h : IsPlain cs) : (readUnsigned cs).isSome = true := by
  obtain ⟨whole, fraction, rfl, hne, hwhole, rfl | ⟨ds, rfl, -, hds⟩⟩ := h
  · rw [readUnsigned, splitDigits_append hwhole (by simp)]
    simp [splitFraction, hne, readPower]
  · have hpoint : ∀ c ∈ ('.' :: ds).head?, c.isDigit = false := by
      rintro c ⟨⟩
      rfl
    have hfraction : splitDigits ds = (ds, []) := by
      have happend : splitDigits (ds ++ []) = (ds, []) := splitDigits_append hds (by simp)
      rwa [List.append_nil] at happend
    rw [readUnsigned, splitDigits_append hwhole hpoint]
    simp [splitFraction, hfraction, hne, readPower]

lemma isSome_readMagnitude {cs : List Char} (h : IsPlain cs) :
    (readMagnitude cs).isSome = true := by
  rw [readMagnitude, Option.isSome_or, Option.isSome_map, isSome_readUnsigned h, Bool.or_true]

/-- No sign is taken off a plain numeral. -/
lemma splitSign_of_isPlain {cs : List Char} (h : IsPlain cs) : splitSign cs = (false, cs) := by
  obtain ⟨whole, fraction, rfl, hne, hwhole, -⟩ := h
  obtain ⟨c, whole, rfl⟩ := List.exists_cons_of_ne_nil hne
  have hc : c.isDigit = true := hwhole c (List.mem_cons_self ..)
  rw [List.cons_append]
  unfold splitSign
  split
  next heq =>
    cases heq
    cases hc
  next heq =>
    cases heq
    cases hc
  · rfl

lemma readable_of_split {text : String} {negative : Bool} {cs : List Char} (hne : text.toList ≠ [])
    (hsign : splitSign text.toList = (negative, cs)) (hcs : (readMagnitude cs).isSome = true) :
    Readable text := by
  obtain ⟨x, hx⟩ := Option.isSome_iff_exists.mp hcs
  have hempty : text.isEmpty = false := by
    rw [Bool.eq_false_iff, ne_eq, String.isEmpty_iff, ← String.toList_eq_nil_iff]
    exact hne
  refine ⟨if negative then -x else x, ?_⟩
  rw [read, hempty, hsign]
  simp [hx]

/-- A plain numeral stands for a float. -/
theorem readable_of_isPlain {cs : List Char} (h : IsPlain cs) : Readable (String.ofList cs) := by
  refine readable_of_split ?_ (by rw [String.toList_ofList]; exact splitSign_of_isPlain h)
    (isSome_readMagnitude h)
  rw [String.toList_ofList]
  obtain ⟨whole, fraction, rfl, hne, -⟩ := h
  simp [hne]

/-- So does a plain numeral after a minus. -/
theorem readable_minus {cs : List Char} (h : IsPlain cs) :
    Readable (String.ofList ('-' :: cs)) := by
  have hsign : splitSign (String.ofList ('-' :: cs)).toList = (true, cs) := by
    rw [String.toList_ofList]
    rfl
  exact readable_of_split (by simp) hsign (isSome_readMagnitude h)

/-! ## Writing -/

lemma isPlain_of_digits {ds : List Char} (hne : ds ≠ []) (h : ∀ c ∈ ds, c.isDigit = true) :
    IsPlain ds := ⟨ds, [], (List.append_nil ds).symm, hne, h, .inl rfl⟩

lemma isPlain_pointed (places : Nat) {ds : List Char} (h : ∀ c ∈ ds, c.isDigit = true) :
    IsPlain (pointed (places + 1) ds) := by
  have hpadded : ∀ c ∈ List.replicate (places + 2 - ds.length) '0' ++ ds, c.isDigit = true := by
    intro c hc
    rcases List.mem_append.mp hc with hc | hc
    · rw [List.eq_of_mem_replicate hc]
      rfl
    · exact h c hc
  have hlength : (List.replicate (places + 2 - ds.length) '0' ++ ds).length =
      places + 2 - ds.length + ds.length := by simp
  refine ⟨_, _, rfl, ?_, fun c hc => hpadded c (List.mem_of_mem_take hc),
    .inr ⟨_, rfl, ?_, fun c hc => hpadded c (List.mem_of_mem_drop hc)⟩⟩
  · rw [ne_eq, ← List.length_eq_zero_iff, List.length_take, hlength]
    omega
  · rw [ne_eq, ← List.length_eq_zero_iff, List.length_drop, hlength]
    omega

lemma isPlain_positional {ds : List Char} (hne : ds ≠ []) (h : ∀ c ∈ ds, c.isDigit = true)
    (exponent : Int) : IsPlain (Layout.bare.positional ds exponent) := by
  cases exponent with
  | ofNat zeros =>
    apply isPlain_of_digits (by simp [Layout.positional, hne])
    intro c hc
    simp only [Layout.positional, Layout.bare, Bool.false_eq_true, if_false, List.append_nil] at hc
    rcases List.mem_append.mp hc with hc | hc
    · exact h c hc
    · rw [List.eq_of_mem_replicate hc]
      rfl
  | negSucc places => exact isPlain_pointed places h

/-- The bare layout shows no power of ten. -/
lemma isPlain_magnitude (mantissa : Nat) (exponent : Int) :
    IsPlain (Layout.bare.magnitude mantissa exponent) := by
  unfold Layout.magnitude
  split
  · exact isPlain_positional (by simp) (by simp) 0
  · exact isPlain_positional (numerals_ne_nil _) (fun c => isDigit_of_mem_numerals) _

/-- A float that is finite and has no minus is written as a plain numeral. -/
theorem isPlain_write {x : Float} {mantissa : Nat} {exponent : Int}
    (h : Binary64.Exact.ofFloat x = .finite false mantissa exponent) :
    IsPlain (Layout.bare.write x).toList := by
  rw [Layout.write, String.toList_ofList, h]
  exact isPlain_magnitude mantissa exponent

/-- What the bare layout writes can be read. -/
theorem readable_write (x : Float) : Readable (Layout.bare.write x) := by
  unfold Layout.write
  cases Binary64.Exact.ofFloat x with
  | nan => exact ⟨_, rfl⟩
  | infinite negative =>
    cases negative with
    | false => exact ⟨_, rfl⟩
    | true => exact ⟨_, rfl⟩
  | finite negative mantissa exponent =>
    cases negative with
    | false => exact readable_of_isPlain (isPlain_magnitude mantissa exponent)
    | true => exact readable_minus (isPlain_magnitude mantissa exponent)

end Calculator.Decimal
