import Calculator.Quadratic
import Calculator.Proofs.Numeral
import Calculator.Proofs.Spelling
import Mathlib

/-!
# Sums of terms

A text is read as a quadratic by taking terms off its front.  Three readings of a term are tried in
turn, the one that fits is taken as far as it goes, and only what is left over tells that it was the
wrong place to stop: `x^22` is a square and a `2`, `1.5.2x` a number and a term without its sign.
None of this is seen in the texts that are accepted.  They are those which fall into terms when they
are cut before each of their signs.

The reason is that a term of this grammar is taken whole where nothing or a sign follows it
(`term?_text`), and that in turn all that is taken off with a number for its coefficient is a term
of the grammar (`exists_summand`).  So a run ends well exactly on the texts that fall into terms,
and has then added the coefficients to the sums of their degrees: `ofText_eq_total_of_segments`.
-/

namespace Calculator.Quadratic

/-! ## The grammar -/

/-- A point and the digits after it, if there is one. -/
def pointText : Option (List Char) → List Char
  | none => []
  | some ds => '.' :: ds

/-- What stands before the power of `x`: a sign, digits, a point and digits, each of which may be
missing. -/
structure Factor where
  sign : Option Char
  whole : List Char
  fraction : Option (List Char)
  isSign_sign : ∀ c ∈ sign, isSign c = true
  isDigit_whole : ∀ c ∈ whole, c.isDigit = true
  isDigit_fraction : ∀ ds ∈ fraction, ∀ c ∈ ds, c.isDigit = true

namespace Factor

/-- The text without the sign. -/
def body (f : Factor) : List Char :=
  f.whole ++ pointText f.fraction

/-- The text. -/
def text (f : Factor) : List Char :=
  f.sign.toList ++ f.body

/-- The coefficient: the float nearest to the decimal, or one if there is nothing but a sign. -/
def value (f : Factor) : Float :=
  let digits := f.fraction.getD []
  let magnitude :=
    if f.whole = [] ∧ f.fraction = none then 1.0
    else Decimal.Numeral.toFloat ⟨Decimal.value (f.whole ++ digits), -digits.length⟩
  if f.sign = some '-' then -magnitude else magnitude

/-- Whether a factor can stand before this power: a lone point is none, and without an `x` there are
digits, and digits after a point. -/
def Fits (f : Factor) : Degree → Prop
  | .square | .linear => f.whole ≠ [] ∨ f.fraction ≠ some []
  | .constant => f.whole ≠ [] ∧ f.fraction ≠ some []

end Factor

/-- The text of a power of `x`. -/
def Degree.text : Degree → List Char
  | .square => ['x', '^', '2']
  | .linear => ['x']
  | .constant => []

/-- A term of the grammar. -/
structure Summand where
  factor : Factor
  degree : Degree
  fits : factor.Fits degree

/-- The text of a term. -/
def Summand.text (s : Summand) : List Char :=
  s.factor.text ++ s.degree.text

/-- A text cut before each sign that is not at its start. -/
def segments (cs : List Char) : List (List Char) :=
  cs.splitBy fun _ c => !isSign c

/-- The coefficients of the terms of one degree, in order. -/
def coefficients (degree : Degree) (ts : List Summand) : List Float :=
  (ts.filter fun s => s.degree = degree).map fun s => s.factor.value

/-- The coefficients of each degree added from left to right. -/
def total (ts : List Summand) : Quadratic where
  a := (coefficients .square ts).foldl (· + ·) 0.0
  b := (coefficients .linear ts).foldl (· + ·) 0.0
  c := (coefficients .constant ts).foldl (· + ·) 0.0

/-! ## Characters -/

lemma isSign_iff {c : Char} : isSign c = true ↔ c = '+' ∨ c = '-' := by
  simp [isSign]

lemma not_isSign_of_isDigit {c : Char} (h : c.isDigit = true) : isSign c = false := by
  rw [Bool.eq_false_iff, ne_eq, isSign_iff]
  rintro (rfl | rfl)
  · cases h
  · cases h

/-- What follows a term: nothing, or the sign of another. -/
def Abuts (cs : List Char) : Prop := ∀ c ∈ cs.head?, isSign c = true

namespace Factor

variable (f : Factor)

/-- A factor has no sign but the one at its front. -/
lemma not_isSign_of_mem_body {c : Char} (h : c ∈ f.body) : isSign c = false := by
  rcases List.mem_append.mp h with hc | hc
  · exact not_isSign_of_isDigit (f.isDigit_whole c hc)
  · cases hfraction : f.fraction with
    | none =>
      rw [hfraction] at hc
      cases hc
    | some ds =>
      rw [hfraction] at hc
      rcases List.mem_cons.mp hc with rfl | hc
      · rfl
      · exact not_isSign_of_isDigit (f.isDigit_fraction ds hfraction c hc)

end Factor

lemma not_isSign_of_mem_degree {d : Degree} {c : Char} (h : c ∈ d.text) : isSign c = false := by
  cases d with
  | square => fin_cases h <;> rfl
  | linear => fin_cases h; rfl
  | constant => cases h

/-! ## The front of a text -/

section Front

variable {rest : List Char}

lemma splitSign_text (f : Factor) (h : ∀ c ∈ (f.body ++ rest).head?, isSign c = false) :
    splitSign (f.text ++ rest) = (f.sign.toList, f.body ++ rest) := by
  rw [Factor.text, List.append_assoc]
  cases hsign : f.sign with
  | none =>
    rw [Option.toList_none, List.nil_append]
    cases hbody : f.body ++ rest with
    | nil => rfl
    | cons c cs =>
      rw [hbody] at h
      rw [splitSign, if_neg (by rw [h c rfl]; exact Bool.false_ne_true)]
  | some c => 
    have hc := f.isSign_sign c hsign
    simp [splitSign, hc]

/-- Digits and a point are taken as far as they go. -/
lemma splitPoint_pointText {fraction : Option (List Char)}
    (hdigits : ∀ ds ∈ fraction, ∀ c ∈ ds, c.isDigit = true)
    (hrest : ∀ c ∈ rest.head?, c.isDigit = false ∧ c ≠ '.') :
    splitPoint (pointText fraction ++ rest) = (pointText fraction, rest) := by
  cases fraction with
  | none =>
    rw [pointText, List.nil_append]
    unfold splitPoint
    split
    next => exact absurd rfl (hrest '.' rfl).2
    next => rfl
  | some ds =>
    rw [pointText, List.cons_append, splitPoint,
      takeWhile_append_of_head (hdigits ds rfl) fun c hc => (hrest c hc).1,
      dropWhile_append_of_head (hdigits ds rfl) fun c hc => (hrest c hc).1]

lemma head_pointText_append (fraction : Option (List Char))
    (hrest : ∀ c ∈ rest.head?, c.isDigit = false) :
    ∀ c ∈ (pointText fraction ++ rest).head?, c.isDigit = false := by
  cases fraction with
  | none => exact hrest
  | some ds =>
    rintro c ⟨⟩
    rfl

lemma splitFactor_text (f : Factor) (hsign : ∀ c ∈ (f.body ++ rest).head?, isSign c = false)
    (hrest : ∀ c ∈ rest.head?, c.isDigit = false ∧ c ≠ '.') :
    splitFactor (f.text ++ rest) = (f.text, rest) := by
  have hpoint := head_pointText_append f.fraction fun c hc => (hrest c hc).1
  have hbody : f.body ++ rest = f.whole ++ (pointText f.fraction ++ rest) := by
    rw [Factor.body, List.append_assoc]
  rw [splitFactor, splitSign_text f hsign, hbody]
  dsimp only
  rw [takeWhile_append_of_head f.isDigit_whole hpoint,
    dropWhile_append_of_head f.isDigit_whole hpoint,
    splitPoint_pointText f.isDigit_fraction hrest, Factor.text, Factor.body, List.append_assoc]

lemma Abuts.head (h : Abuts rest) : ∀ c ∈ rest.head?, c.isDigit = false ∧ c ≠ '.' := by
  intro c hc
  rcases isSign_iff.mp (h c hc) with rfl | rfl
  · exact ⟨rfl, by decide⟩
  · exact ⟨rfl, by decide⟩

/-- The power that a term has is found after its factor. -/
lemma power?_text {d : Degree} (hd : d ≠ .constant) (factor : List Char) (h : Abuts rest) :
    power? factor (d.text ++ rest) = some (⟨d, factor, d.text⟩, rest) := by
  cases d with
  | square => rfl
  | constant => exact absurd rfl hd
  | linear =>
    have hcaret : ∀ cs, rest ≠ '^' :: cs := by
      rintro cs rfl
      exact absurd (h '^' rfl) (by decide)
    rw [Degree.text, List.cons_append, List.nil_append]
    unfold power?
    split
    next heq =>
      cases heq
      exact absurd rfl (hcaret _)
    next heq =>
      cases heq
      rfl
    next hnot => exact absurd rfl (hnot rest)

lemma power?_of_abuts (factor : List Char) (h : Abuts rest) : power? factor rest = none := by
  unfold power?
  split
  next => exact absurd (h 'x' rfl) (by decide)
  next => exact absurd (h 'x' rfl) (by decide)
  next => rfl

lemma splitNumeral_text {whole : List Char} {fraction : Option (List Char)}
    (hwhole : ∀ c ∈ whole, c.isDigit = true)
    (hdigits : ∀ ds ∈ fraction, ∀ c ∈ ds, c.isDigit = true) (hne : fraction ≠ some [])
    (hrest : ∀ c ∈ rest.head?, c.isDigit = false ∧ c ≠ '.') :
    Lexeme.splitNumeral (whole ++ (pointText fraction ++ rest)) =
      (whole ++ pointText fraction, rest) := by
  have hhead := head_pointText_append fraction fun c hc => (hrest c hc).1
  have hfraction : Lexeme.splitFraction (pointText fraction ++ rest) =
      (pointText fraction, rest) := by
    cases fraction with
    | none =>
      rw [pointText, List.nil_append]
      unfold Lexeme.splitFraction
      split
      next => exact absurd rfl (hrest '.' rfl).2
      next => rfl
    | some ds =>
      obtain ⟨d, ds, rfl⟩ := List.exists_cons_of_ne_nil (fun h => hne (congrArg some h))
      have hd := hdigits _ rfl
      rw [pointText, List.cons_append, List.cons_append, Lexeme.splitFraction,
        if_pos (hd d (List.mem_cons_self ..)), ← List.cons_append,
        takeWhile_append_of_head hd fun c hc => (hrest c hc).1,
        dropWhile_append_of_head hd fun c hc => (hrest c hc).1]
  rw [Lexeme.splitNumeral, takeWhile_append_of_head hwhole hhead,
    dropWhile_append_of_head hwhole hhead, hfraction]

lemma Summand.not_isSign_of_mem (s : Summand) {c : Char}
    (h : c ∈ s.factor.body ++ s.degree.text) : isSign c = false := by
  rcases List.mem_append.mp h with hc | hc
  · exact s.factor.not_isSign_of_mem_body hc
  · exact not_isSign_of_mem_degree hc

lemma Summand.body_ne_nil (s : Summand) : s.factor.body ++ s.degree.text ≠ [] := by
  obtain ⟨f, d, hfits⟩ := s
  cases d with
  | square => simp [Degree.text]
  | linear => simp [Degree.text]
  | constant => simp [Factor.body, hfits.1]

/-- The term that a summand is read as. -/
def Summand.term (s : Summand) : Term := ⟨s.degree, s.factor.text, s.degree.text⟩

/-- A term without `x` is taken whole. -/
lemma constant?_text (f : Factor) (hfits : f.Fits .constant) (h : Abuts rest) :
    constant? (f.text ++ rest) = some (⟨.constant, f.text, []⟩, rest) := by
  obtain ⟨hwhole, hpoint⟩ := hfits
  obtain ⟨d, ds, hcons⟩ := List.exists_cons_of_ne_nil hwhole
  have hdigit : d.isDigit = true := f.isDigit_whole d (by simp [hcons])
  have hbody : f.body ++ rest = d :: (ds ++ pointText f.fraction ++ rest) := by
    simp [Factor.body, hcons]
  have hhead : ∀ c ∈ (f.body ++ rest).head?, isSign c = false := by
    intro c hc
    rw [hbody] at hc
    obtain rfl : d = c := Option.some.inj hc
    exact not_isSign_of_isDigit hdigit
  have hfirst : (f.body ++ rest).head?.any Char.isDigit = true := by
    rw [hbody]
    exact hdigit
  have hnumeral : Lexeme.splitNumeral (f.body ++ rest) = (f.body, rest) := by
    rw [Factor.body, List.append_assoc]
    exact splitNumeral_text f.isDigit_whole f.isDigit_fraction hpoint h.head
  rw [constant?, splitSign_text f hhead]
  dsimp only
  rw [if_pos hfirst, hnumeral]
  rfl

/-- A power of `x` begins with its letter. -/
lemma head_degreeText {d : Degree} (hd : d ≠ .constant) :
    ∀ c ∈ (d.text ++ rest).head?, c.isDigit = false ∧ c ≠ '.' := by
  intro c hc
  obtain rfl : 'x' = c := by
    cases d with
    | constant => exact absurd rfl hd
    | linear => exact Option.some.inj hc
    | square => exact Option.some.inj hc
  exact ⟨rfl, by decide⟩

/-- A term of the grammar is taken whole, whichever of the three readings a shorter front of it
would allow. -/
lemma term?_text (s : Summand) (h : Abuts rest) :
    term? (s.text ++ rest) = some (s.term, rest) := by
  obtain ⟨f, d, hfits⟩ := s
  have hhead : ∀ c ∈ (f.body ++ (d.text ++ rest)).head?, isSign c = false := by
    intro c hc
    obtain ⟨b, bs, hcons⟩ := List.exists_cons_of_ne_nil (Summand.body_ne_nil ⟨f, d, hfits⟩)
    rw [← List.append_assoc, hcons] at hc
    obtain rfl : b = c := Option.some.inj hc
    exact Summand.not_isSign_of_mem ⟨f, d, hfits⟩ (by rw [hcons]; exact List.mem_cons_self ..)
  show term? (f.text ++ d.text ++ rest) = some (⟨d, f.text, d.text⟩, rest)
  rw [List.append_assoc, term?]
  by_cases hd : d = .constant
  · subst hd
    rw [Degree.text, List.nil_append] at hhead ⊢
    rw [splitFactor_text f hhead h.head]
    dsimp only
    rw [power?_of_abuts _ h, Option.none_or, constant?_text f hfits h]
  · rw [splitFactor_text f hhead (head_degreeText hd)]
    dsimp only
    rw [power?_text hd _ h, Option.some_or]

end Front

/-! ## Reading a coefficient -/

section Coefficient

variable (f : Factor)

lemma exists_body (h : ¬ (f.whole = [] ∧ f.fraction = none)) :
    ∃ c cs, f.body = c :: cs ∧ (c.isDigit = true ∨ c = '.') := by
  cases hwhole : f.whole with
  | cons c cs =>
    exact ⟨c, cs ++ pointText f.fraction, by rw [Factor.body, hwhole, List.cons_append],
      .inl (f.isDigit_whole c (by rw [hwhole]; exact List.mem_cons_self ..))⟩
  | nil =>
    cases hfraction : f.fraction with
    | none => exact absurd ⟨hwhole, hfraction⟩ h
    | some ds =>
      exact ⟨'.', ds, by rw [Factor.body, hwhole, hfraction, List.nil_append, pointText], .inr rfl⟩

/-- Neither a digit nor a point begins a word for a number. -/
lemma readWord_of_body {c : Char} (hc : c.isDigit = true ∨ c = '.') (cs : List Char) :
    Decimal.readWord ((c :: cs).map Char.toLower) = none := by
  have hrange : c.toNat < 65 := by
    rcases hc with hc | rfl
    · have hdigit := Char.isDigit_iff_toNat.mp hc
      have hnine : '9'.toNat = 57 := rfl
      omega
    · decide
  have hne (d : Char) (hd : 97 ≤ d.toNat) : c.toLower ≠ d := by
    rintro rfl
    rw [Lexeme.toNat_toLower, if_neg (by omega)] at hd
    omega
  have hi := hne 'i' (by decide)
  have hn := hne 'n' (by decide)
  simp [Decimal.readWord, hi, hn]

/-- The digits of a factor and its point are read as the decimal that they are. -/
lemma readUnsigned_body (h : f.whole ≠ [] ∨ f.fraction.getD [] ≠ []) :
    Decimal.readUnsigned f.body =
      some ⟨Decimal.value (f.whole ++ f.fraction.getD []), -(f.fraction.getD []).length⟩ := by
  have hhead : ∀ c ∈ (pointText f.fraction).head?, c.isDigit = false := by
    intro c hc
    rw [← List.append_nil (pointText f.fraction)] at hc
    exact head_pointText_append f.fraction (by simp) c hc
  have hfraction : Decimal.splitFraction (pointText f.fraction) = (f.fraction.getD [], []) := by
    cases hf : f.fraction with
    | none => rfl
    | some ds =>
      have hdigits : Decimal.splitDigits (ds ++ []) = (ds, []) :=
        Decimal.splitDigits_append (f.isDigit_fraction ds hf) (by simp)
      rw [List.append_nil] at hdigits
      exact hdigits
  rw [Decimal.readUnsigned, Factor.body, Decimal.splitDigits_append f.isDigit_whole hhead]
  dsimp only
  rw [hfraction]
  dsimp only
  rw [if_neg (by tauto)]
  simp [Decimal.readPower]

/-- A minus makes the number that follows negative, and a plus leaves it. -/
lemma read_text {c : Char} {cs : List Char} {x : Float} (hbody : f.body = c :: cs)
    (hx : Decimal.readMagnitude f.body = some x) :
    Decimal.read (String.ofList f.text) = .ok (if f.sign = some '-' then -x else x) := by
  have hc : isSign c = false :=
    f.not_isSign_of_mem_body (by rw [hbody]; exact List.mem_cons_self ..)
  have hempty : (String.ofList f.text).isEmpty = false := by
    rw [Bool.eq_false_iff, ne_eq, String.isEmpty_iff, ← String.toList_eq_nil_iff,
      String.toList_ofList]
    simp [Factor.text, hbody]
  have hsplit : Decimal.splitSign f.text = (decide (f.sign = some '-'), f.body) := by
    rw [Factor.text]
    cases hsign : f.sign with
    | some d =>
      rcases isSign_iff.mp (f.isSign_sign d hsign) with rfl | rfl
      · rfl
      · rfl
    | none =>
      rw [Option.toList_none, List.nil_append, hbody]
      unfold Decimal.splitSign
      split
      next heq =>
        cases heq
        cases hc
      next heq =>
        cases heq
        cases hc
      next => rfl
  rw [Decimal.read, hempty, String.toList_ofList, hsplit]
  simp [hx]

/-- Nothing but a sign counts as one. -/
lemma coefficientValue_bare (h : f.whole = [] ∧ f.fraction = none) :
    coefficientValue f.text = .ok f.value := by
  have htext : f.text = f.sign.toList := by
    rw [Factor.text, Factor.body, h.1, h.2]
    exact List.append_nil _
  rw [htext, Factor.value, if_pos h]
  cases hsign : f.sign with
  | none => rfl
  | some c =>
    rcases isSign_iff.mp (f.isSign_sign c hsign) with rfl | rfl
    · rfl
    · rfl

/-- Everything else is read as a number. -/
lemma coefficientValue_eq_read {c : Char} {cs : List Char} {x : Float} (hbody : f.body = c :: cs)
    (hx : Decimal.readMagnitude f.body = some x) :
    coefficientValue f.text = .ok (if f.sign = some '-' then -x else x) := by
  have hsign : isSign c = false :=
    f.not_isSign_of_mem_body (by rw [hbody]; exact List.mem_cons_self ..)
  have hplus : c ≠ '+' := fun heq => by simp [heq, isSign] at hsign
  have hminus : c ≠ '-' := fun heq => by simp [heq, isSign] at hsign
  have hne : ¬ (f.text = [] ∨ f.text = ['+']) ∧ f.text ≠ ['-'] := by
    rw [Factor.text, hbody]
    cases f.sign <;> simp [hplus, hminus]
  rw [coefficientValue, if_neg hne.1, if_neg hne.2, read_text f hbody hx]

/-- The coefficient of a factor that is not a lone point. -/
lemma coefficientValue_text (h : f.whole ≠ [] ∨ f.fraction ≠ some []) :
    coefficientValue f.text = .ok f.value := by
  by_cases hbare : f.whole = [] ∧ f.fraction = none
  · exact coefficientValue_bare f hbare
  obtain ⟨c, cs, hbody, hc⟩ := exists_body f hbare
  have hdigits : f.whole ≠ [] ∨ f.fraction.getD [] ≠ [] := by
    cases hf : f.fraction with
    | none => exact .inl fun hwhole => hbare ⟨hwhole, hf⟩
    | some ds =>
      rw [hf] at h
      exact h.imp_right fun hne hds => hne (congrArg some hds)
  have hmagnitude : Decimal.readMagnitude f.body = some (Decimal.Numeral.toFloat
      ⟨Decimal.value (f.whole ++ f.fraction.getD []), -(f.fraction.getD []).length⟩) := by
    rw [Decimal.readMagnitude, readUnsigned_body f hdigits, hbody, readWord_of_body hc]
    rfl
  rw [coefficientValue_eq_read f hbody hmagnitude, Factor.value, if_neg hbare]

/-- A lone point is not a number. -/
lemma coefficientValue_point (hwhole : f.whole = []) (hfraction : f.fraction = some [])
    (x : Float) : coefficientValue f.text ≠ .ok x := by
  have htext : f.text = f.sign.toList ++ ['.'] := by
    rw [Factor.text, Factor.body, hwhole, hfraction]
    rfl
  have herror (sign : List Char) (h : sign ∈ [[], ['+'], ['-']]) :
      coefficientValue (sign ++ ['.']) =
        .error (.input (.badCoefficient (String.ofList (sign ++ ['.'])) .malformed)) := by
    fin_cases h <;> decide +kernel
  have hmem : f.sign.toList ∈ [[], ['+'], ['-']] := by
    cases hsign : f.sign with
    | none => simp
    | some c => rcases isSign_iff.mp (f.isSign_sign c hsign) with rfl | rfl <;> simp
  rw [htext, herror _ hmem]
  exact fun h => by cases h

end Coefficient

/-! ## What is taken off a text -/

section Taken

variable {cs rest : List Char} {t : Term}

lemma exists_sign_of_splitSign (cs : List Char) :
    ∃ sign : Option Char, (splitSign cs).1 = sign.toList ∧ ∀ c ∈ sign, isSign c = true := by
  cases cs with
  | nil => exact ⟨none, rfl, by simp⟩
  | cons c cs =>
    by_cases hc : isSign c = true
    · exact ⟨some c, by rw [splitSign, if_pos hc]; rfl, by simpa using hc⟩
    · exact ⟨none, by rw [splitSign, if_neg hc]; rfl, by simp⟩

lemma exists_fraction_of_splitPoint (cs : List Char) :
    ∃ fraction : Option (List Char), (splitPoint cs).1 = pointText fraction ∧
      ∀ ds ∈ fraction, ∀ c ∈ ds, c.isDigit = true := by
  unfold splitPoint
  split
  next cs =>
    refine ⟨some (cs.takeWhile Char.isDigit), rfl, ?_⟩
    rintro ds ⟨⟩ c hc
    exact List.mem_takeWhile_imp hc
  next => exact ⟨none, rfl, by simp⟩

/-- The front of every text is a factor, if need be an empty one. -/
lemma exists_factor (cs : List Char) : ∃ f : Factor, (splitFactor cs).1 = f.text := by
  obtain ⟨sign, hsign, hisSign⟩ := exists_sign_of_splitSign cs
  obtain ⟨fraction, hfraction, hdigits⟩ :=
    exists_fraction_of_splitPoint ((splitSign cs).2.dropWhile Char.isDigit)
  refine ⟨⟨sign, (splitSign cs).2.takeWhile Char.isDigit, fraction, hisSign,
    fun c hc => List.mem_takeWhile_imp hc, hdigits⟩, ?_⟩
  show (splitSign cs).1 ++ (splitSign cs).2.takeWhile Char.isDigit ++
    (splitPoint ((splitSign cs).2.dropWhile Char.isDigit)).1 = _
  rw [hsign, hfraction, List.append_assoc]
  rfl

lemma of_power? {factor : List Char} (h : power? factor cs = some (t, rest)) :
    t.degree ≠ .constant ∧ t = ⟨t.degree, factor, t.degree.text⟩ := by
  unfold power? at h
  split at h
  next =>
    cases h
    exact ⟨by simp, rfl⟩
  next =>
    cases h
    exact ⟨by simp, rfl⟩
  next => cases h

lemma exists_factor_of_constant? (h : constant? cs = some (t, rest)) :
    ∃ f : Factor, f.Fits .constant ∧ t = ⟨.constant, f.text, []⟩ := by
  obtain ⟨sign, hsign, hisSign⟩ := exists_sign_of_splitSign cs
  rw [constant?] at h
  dsimp only at h
  split at h
  next hdigit =>
    obtain ⟨rfl, -⟩ := Prod.mk.inj (Option.some.inj h)
    set after := (splitSign cs).2 with hafter
    have hwhole : after.takeWhile Char.isDigit ≠ [] := by
      cases hcons : after with
      | nil =>
        rw [hcons] at hdigit
        cases hdigit
      | cons d ds =>
        have hd : d.isDigit = true := by
          rw [hcons] at hdigit
          exact hdigit
        rw [List.takeWhile_cons_of_pos hd]
        exact List.cons_ne_nil _ _
    obtain ⟨fraction, hfraction, hne, hdigits⟩ : ∃ fraction : Option (List Char),
        (Lexeme.splitFraction (after.dropWhile Char.isDigit)).1 = pointText fraction ∧
          fraction ≠ some [] ∧ ∀ ds ∈ fraction, ∀ c ∈ ds, c.isDigit = true := by
      rcases Lexeme.splitFraction_cases (after.dropWhile Char.isDigit) with hnil | ⟨ds, hds, hne, h⟩
      · exact ⟨none, hnil, by simp, by simp⟩
      · exact ⟨some ds, hds, by simpa using hne, by simpa using h⟩
    refine ⟨⟨sign, after.takeWhile Char.isDigit, fraction, hisSign,
      fun c hc => List.mem_takeWhile_imp hc, hdigits⟩, ⟨hwhole, hne⟩, ?_⟩
    have hnumeral : (Lexeme.splitNumeral after).1 = after.takeWhile Char.isDigit ++
        (Lexeme.splitFraction (after.dropWhile Char.isDigit)).1 := rfl
    rw [hsign, hnumeral, hfraction]
    rfl
  next => cases h

/-- A term that was taken off a text is one of the grammar, if its coefficient is a number. -/
lemma exists_summand {x : Float} (h : term? cs = some (t, rest))
    (hx : coefficientValue t.coefficient = .ok x) :
    ∃ s : Summand, s.term = t ∧ cs = s.text ++ rest ∧ x = s.factor.value := by
  obtain ⟨f, d, hfits, ht, hnumber⟩ : ∃ (f : Factor) (d : Degree), f.Fits d ∧
      t = ⟨d, f.text, d.text⟩ ∧ (f.whole ≠ [] ∨ f.fraction ≠ some []) := by
    have hterm : term? cs =
        (power? (splitFactor cs).1 (splitFactor cs).2).or (constant? cs) := rfl
    rw [hterm] at h
    rcases Option.or_eq_some_iff.mp h with hpower | ⟨-, hconstant⟩
    · obtain ⟨hd, ht⟩ := of_power? hpower
      obtain ⟨f, hf⟩ := exists_factor cs
      rw [hf] at ht
      have hnumber : f.whole ≠ [] ∨ f.fraction ≠ some [] := by
        by_contra hpoint
        push Not at hpoint
        refine coefficientValue_point f hpoint.1 hpoint.2 x ?_
        rw [ht] at hx
        exact hx
      refine ⟨f, t.degree, ?_, ht, hnumber⟩
      cases hdegree : t.degree with
      | constant => exact absurd hdegree hd
      | linear => exact hnumber
      | square => exact hnumber
    · obtain ⟨f, hfits, ht⟩ := exists_factor_of_constant? hconstant
      exact ⟨f, .constant, hfits, ht, .inl hfits.1⟩
  subst ht
  refine ⟨⟨f, d, hfits⟩, rfl, (text_append_of_term? h).1.symm, ?_⟩
  exact Except.ok.inj (hx.symm.trans (coefficientValue_text f hnumber))

end Taken

/-! ## The terms of a text -/

section Segments

variable {cs rest : List Char} {q : Quadratic} {start : Bool}

/-- The quadratic with a term added. -/
def addSummand (q : Quadratic) (s : Summand) : Quadratic :=
  q.add s.degree s.factor.value

lemma isChain_of_tail {l : List Char} (h : ∀ c ∈ l.tail, isSign c = false) :
    l.IsChain fun _ c => (!isSign c) = true := by
  induction l with
  | nil => exact .nil
  | cons a l ih =>
    cases l with
    | nil => exact .singleton a
    | cons b l =>
      have hb : isSign b = false := h b (List.mem_cons_self ..)
      refine .cons_cons (by rw [hb]; rfl) (ih fun c hc => h c (List.mem_cons_of_mem _ hc))

lemma Summand.not_isSign_of_mem_tail (s : Summand) : ∀ c ∈ s.text.tail, isSign c = false := by
  intro c hc
  rw [Summand.text, Factor.text, List.append_assoc] at hc
  refine s.not_isSign_of_mem ?_
  cases hsign : s.factor.sign with
  | none =>
    rw [hsign] at hc
    exact List.mem_of_mem_tail hc
  | some d =>
    rw [hsign] at hc
    exact hc

lemma Summand.text_ne_nil (s : Summand) : s.text ≠ [] := by
  intro hnil
  rw [Summand.text, Factor.text, List.append_assoc, List.append_eq_nil_iff] at hnil
  exact s.body_ne_nil hnil.2

lemma segments_append (s : Summand) (h : Abuts rest) :
    segments (s.text ++ rest) = s.text :: segments rest := by
  have hcut : ∀ a ∈ s.text.getLast?, ∀ c ∈ rest.head?, (!isSign c) = false := by
    intro a _ c hc
    rw [h c hc]
    rfl
  rw [segments, List.splitBy_append hcut,
    List.splitBy_of_isChain s.text_ne_nil (isChain_of_tail s.not_isSign_of_mem_tail)]
  rfl

/-- What is left of a text after its first segment begins with a sign. -/
lemma of_segments_cons {l : List Char} {ls : List (List Char)} (h : segments cs = l :: ls) :
    ∃ rest, cs = l ++ rest ∧ Abuts rest ∧ segments rest = ls := by
  obtain ⟨hflatten, hnil, hchains, hcuts⟩ := List.splitBy_eq_iff.mp h
  have hne (m : List Char) (hm : m ∈ ls) : m ≠ [] :=
    fun heq => hnil (List.mem_cons_of_mem _ (heq ▸ hm))
  refine ⟨ls.flatten, hflatten, ?_, List.splitBy_flatten (fun hmem => hne _ hmem rfl)
    (fun m hm => hchains m (List.mem_cons_of_mem _ hm)) hcuts.tail⟩
  intro c hc
  cases ls with
  | nil => cases hc
  | cons m ls =>
    obtain ⟨d, ds, rfl⟩ := List.exists_cons_of_ne_nil (hne m (List.mem_cons_self ..))
    obtain rfl : d = c := Option.some.inj hc
    obtain ⟨_, _, hcut⟩ := List.rel_of_isChain_cons_cons hcuts
    simpa using hcut

lemma term?_nil : term? [] = none := rfl

lemma Summand.isNumber (s : Summand) : s.factor.whole ≠ [] ∨ s.factor.fraction ≠ some [] := by
  obtain ⟨f, d, hfits⟩ := s
  cases d with
  | square => exact hfits
  | linear => exact hfits
  | constant => exact .inl hfits.1

/-- The check of the sign of a term is the question whether its text can follow another term. -/
lemma abuts_iff (s : Summand) (rest : List Char) :
    Abuts (s.text ++ rest) ↔ s.term.text.head?.any isSign = true := by
  obtain ⟨d, ds, hds⟩ := List.exists_cons_of_ne_nil s.text_ne_nil
  have htext : s.term.text = s.text := rfl
  rw [htext, hds]
  simp [Abuts]

/-- The run over a text that falls into terms. -/
lemma addTerms_of_segments (ts : List Summand) (h : segments cs = ts.map Summand.text)
    (hstart : start = false → Abuts cs) : addTerms q start cs = .ok (ts.foldl addSummand q) := by
  induction ts generalizing cs q start with
  | nil =>
    obtain rfl : cs = [] := List.splitBy_eq_nil.mp h
    rw [addTerms_of_none term?_nil]
    rfl
  | cons s ts ih =>
    obtain ⟨rest, rfl, habuts, hrest⟩ := of_segments_cons h
    have hsign : (!start && !s.term.text.head?.any isSign) = false := by
      cases start with
      | true => rfl
      | false => rw [(abuts_iff s rest).mp (hstart rfl)]; rfl
    have hvalue : coefficientValue s.term.coefficient = .ok s.factor.value :=
      coefficientValue_text s.factor s.isNumber
    rw [addTerms_of_some (term?_text s habuts), hsign, hvalue]
    exact ih hrest fun _ => habuts

/-- What the run has taken when it ends is all that the text falls into. -/
lemma exists_segments_of_addTerms {sum : Quadratic} (h : addTerms q start cs = .ok sum) :
    (start = false → Abuts cs) ∧
      ∃ ts : List Summand, segments cs = ts.map Summand.text ∧ sum = ts.foldl addSummand q := by
  fun_induction addTerms q start cs with
  | case1 => cases h
  | case2 q start cs t rest hterm hsign x hx hlength ih =>
    obtain ⟨habuts, ts, hts, hsum⟩ := ih h
    obtain ⟨s, rfl, rfl, rfl⟩ := exists_summand hterm hx
    refine ⟨?_, s :: ts, ?_, hsum⟩
    · rintro rfl
      rw [abuts_iff]
      simpa using hsign
    · rw [segments_append s (habuts rfl), hts, List.map_cons]
  | case3 => cases h
  | case4 q start cs hterm hempty =>
    obtain rfl : cs = [] := List.isEmpty_iff.mp hempty
    cases h
    exact ⟨fun _ c hc => (by cases hc), [], rfl, rfl⟩
  | case5 => cases h

end Segments

/-! ## Adding by degree -/

section Total

variable {ts us : List Summand}

/-- A term is added to the sum of its degree and changes no other. -/
lemma foldl_addSummand (ts : List Summand) (q : Quadratic) :
    ts.foldl addSummand q =
      ⟨(coefficients .square ts).foldl (· + ·) q.a, (coefficients .linear ts).foldl (· + ·) q.b,
        (coefficients .constant ts).foldl (· + ·) q.c⟩ := by
  induction ts generalizing q with
  | nil => rfl
  | cons s ts ih =>
    rw [List.foldl_cons, ih, addSummand]
    cases hdegree : s.degree <;> simp [coefficients, hdegree, add]

lemma total_eq (ts : List Summand) : ts.foldl addSummand zero = total ts :=
  foldl_addSummand ts zero

lemma eq_nil_of_coefficients (h : ∀ degree, coefficients degree ts = []) : ts = [] := by
  cases ts with
  | nil => rfl
  | cons s ts =>
    have hs := h s.degree
    simp [coefficients] at hs

lemma nil_iff_of_coefficients (h : ∀ degree, coefficients degree ts = coefficients degree us) :
    ts = [] ↔ us = [] := by
  constructor
  · rintro rfl
    exact eq_nil_of_coefficients fun degree => (h degree).symm
  · rintro rfl
    exact eq_nil_of_coefficients h

end Total

/-! ## Reading a text -/

section Text

/-- The text that is read: in lower case and without blanks. -/
def compactText (expression : String) : List Char :=
  Text.withoutBlanks (Text.lowercase expression).toList

variable {expression : String} {ts : List Summand}

lemma Summand.isQuadraticChar (s : Summand) {c : Char} (h : c ∈ s.text) :
    isQuadraticChar c = true := by
  have hdigit (hc : c.isDigit = true) : Quadratic.isQuadraticChar c = true := by
    simp [Quadratic.isQuadraticChar, hc]
  rcases List.mem_append.mp h with hc | hc
  · rcases List.mem_append.mp hc with hc | hc
    · rcases isSign_iff.mp (s.factor.isSign_sign c (Option.mem_toList.mp hc)) with rfl | rfl
      · rfl
      · rfl
    rcases List.mem_append.mp hc with hc | hc
    · exact hdigit (s.factor.isDigit_whole c hc)
    · cases hfraction : s.factor.fraction with
      | none =>
        rw [hfraction] at hc
        cases hc
      | some ds =>
        rw [hfraction] at hc
        rcases List.mem_cons.mp hc with rfl | hc
        · rfl
        · exact hdigit (s.factor.isDigit_fraction ds hfraction c hc)
  · cases hdegree : s.degree with
    | square =>
      rw [hdegree] at hc
      fin_cases hc <;> rfl
    | linear =>
      rw [hdegree] at hc
      fin_cases hc
      rfl
    | constant =>
      rw [hdegree] at hc
      cases hc

/-- A text that falls into terms has no character that a quadratic cannot have. -/
lemma find?_of_segments (h : segments (compactText expression) = ts.map Summand.text) :
    (Text.lowercase expression).toList.find? (fun c => !isQuadraticChar c) = none := by
  rw [List.find?_eq_none]
  intro c hc
  rw [Bool.not_eq_true, Bool.not_eq_false']
  by_cases hblank : Text.isBlank c = true
  · simp [isQuadraticChar, hblank]
  · have hmem : c ∈ (ts.map Summand.text).flatten := by
      rw [← h, segments, List.flatten_splitBy]
      exact List.mem_filter.mpr ⟨hc, by simpa using hblank⟩
    obtain ⟨_, hs, hcs⟩ := List.mem_flatten.mp hmem
    obtain ⟨s, -, rfl⟩ := List.mem_map.mp hs
    exact s.isQuadraticChar hcs

lemma stage_of_coefficientValue {text : List Char} {fault : Fault}
    (h : coefficientValue text = .error fault) : fault.stage = .input := by
  unfold coefficientValue at h
  split at h
  · cases h
  split at h
  · cases h
  split at h
  · cases h
  · cases h
    rfl

lemma stage_of_addTerms {q : Quadratic} {start : Bool} {cs : List Char} {fault : Fault}
    (h : addTerms q start cs = .error fault) : fault.stage = .input := by
  fun_induction addTerms q start cs with
  | case1 =>
    cases h
    rfl
  | case2 q start cs t rest hterm hsign x hx hlength ih => exact ih h
  | case3 q start cs t rest hterm hsign fault' hx =>
    cases h
    exact stage_of_coefficientValue hx
  | case4 => cases h
  | case5 =>
    cases h
    rfl

/-- Every fault of a text that is no quadratic is one of the raw text. -/
lemma stage_of_ofText {fault : Fault} (h : ofText expression = .error fault) :
    fault.stage = .input := by
  unfold ofText at h
  dsimp only at h
  split at h
  · cases h
    rfl
  split at h
  · cases h
    rfl
  · rw [addMatches_findAll] at h
    exact stage_of_addTerms h

lemma ofText_eq_ok_iff (expression : String) (q : Quadratic) :
    ofText expression = .ok q ↔
      compactText expression ≠ [] ∧
        ∃ ts : List Summand, segments (compactText expression) = ts.map Summand.text ∧
          q = total ts := by
  have hblank : Text.isBlankText (Text.lowercase expression) = true ↔
      compactText expression = [] := Text.isBlankText_iff _
  constructor
  · intro h
    unfold ofText at h
    dsimp only at h
    split at h
    · cases h
    next hne =>
      split at h
      · cases h
      · rw [addMatches_findAll] at h
        obtain ⟨-, ts, hts, hsum⟩ := exists_segments_of_addTerms h
        exact ⟨fun hnil => hne (hblank.mpr hnil), ts, hts, hsum.trans (total_eq ts)⟩
  · rintro ⟨hne, ts, hts, rfl⟩
    unfold ofText
    dsimp only
    rw [if_neg fun h => hne (hblank.mp h), find?_of_segments hts, ← total_eq]
    dsimp only
    rw [addMatches_findAll]
    exact addTerms_of_segments ts hts (by simp)

lemma compactText_eq_nil_iff (h : segments (compactText expression) = ts.map Summand.text) :
    compactText expression = [] ↔ ts = [] := by
  have hnil : segments (compactText expression) = [] ↔ compactText expression = [] :=
    List.splitBy_eq_nil
  rw [← hnil, h, List.map_eq_nil_iff]

lemma ofText_of_nil (h : compactText expression = []) :
    ofText expression = .error (.input .empty) := by
  have hblank := (Text.isBlankText_iff (Text.lowercase expression)).mpr h
  unfold ofText
  dsimp only
  rw [if_pos hblank]

/-- A text is a quadratic exactly if all that it is cut into before its signs are terms, and there
are some; the coefficients are then the sums of those of each degree, from left to right.  Whatever
else the text is, the fault is found in the raw text.  How terms of different degrees alternate does
not matter. -/
theorem ofText_eq_total_of_segments (expression : String) :
    (∀ q, ofText expression = .ok q ↔
      compactText expression ≠ [] ∧
        ∃ ts : List Summand, segments (compactText expression) = ts.map Summand.text ∧
          q = total ts) ∧
      (∀ fault, ofText expression = .error fault → fault.stage = .input) ∧
      ∀ (other : String) (ts us : List Summand),
        segments (compactText expression) = ts.map Summand.text →
          segments (compactText other) = us.map Summand.text →
            (∀ degree, coefficients degree ts = coefficients degree us) →
              ofText expression = ofText other := by
  refine ⟨ofText_eq_ok_iff expression, fun _ => stage_of_ofText,
    fun other ts us hts hus hsame => ?_⟩
  have hiff : compactText expression = [] ↔ compactText other = [] := by
    rw [compactText_eq_nil_iff hts, compactText_eq_nil_iff hus]
    exact nil_iff_of_coefficients hsame
  by_cases hnil : compactText expression = []
  · rw [ofText_of_nil hnil, ofText_of_nil (hiff.mp hnil)]
  · have htotal : total ts = total us := by
      simp only [total, hsame]
    have hleft := (ofText_eq_ok_iff expression _).mpr ⟨hnil, ts, hts, rfl⟩
    have hright := (ofText_eq_ok_iff other _).mpr ⟨hiff.not.mp hnil, us, hus, rfl⟩
    rw [hleft, hright, htotal]

/-- Letters of either case and blanks make no difference, two terms of one degree are added, and a
power with more digits is not a term. -/
theorem ofText_eq_total_of_segments_sum :
    (∃ ts : List Summand, segments (compactText "2x + 3 - x") = ts.map Summand.text ∧
      ⟨0.0, 1.0, 3.0⟩ = total ts) ∧
      ofText "2x + 3 - x" = ofText "2X+3-X" ∧
      ¬ ∃ ts : List Summand, segments (compactText "x^22") = ts.map Summand.text := by
  obtain ⟨hiff, -, hsame⟩ := ofText_eq_total_of_segments "2x + 3 - x"
  obtain ⟨-, ts, hts, hsum⟩ := (hiff ⟨0.0, 1.0, 3.0⟩).mp (by decide +kernel)
  have hother : compactText "2X+3-X" = compactText "2x + 3 - x" := by decide +kernel
  refine ⟨⟨ts, hts, hsum⟩, hsame "2X+3-X" ts ts hts (by rw [hother]; exact hts) fun _ => rfl, ?_⟩
  rintro ⟨us, hus⟩
  have hok := ((ofText_eq_total_of_segments "x^22").1 (total us)).mpr
    ⟨by decide +kernel, us, hus, rfl⟩
  have herror : ∃ fault, ofText "x^22" = .error fault := ⟨.input (.notATerm "2"), by decide +kernel⟩
  obtain ⟨fault, hfault⟩ := herror
  cases hfault.symm.trans hok

end Text

end Calculator.Quadratic
