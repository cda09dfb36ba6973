import Calculator.Lexeme

/-!
# Quadratics

The coefficients of a polynomial that is written as a sum of terms in `x^2`, in `x` and without
`x`, such as `2x^2 + 3x - 4`.  The text is read as it stands and not as an expression, for a number
directly before `x` is a product here and is not one there.

A term is an optional sign, a coefficient, and `x^2`, `x` or nothing.  Before an `x` the
coefficient is digits with or without a point among them, and may be missing, which means one; a
term without `x` is digits with, if one likes, a point and more digits.  Every term but the first
needs its sign.  Terms come in any order, and those of one degree are added from left to right.

The text is searched for terms, and they must be next to each other from the first character to the
last.  Where they are not, the fault quotes what stands before the next of them, or all that is left
where there is no other.

`term?` takes one term off the front of a text.  `addTerms` repeats it to the end, without the
positions, and comes to the same as the search (`addMatches_matchesFrom`).
-/

namespace Calculator

/-- The coefficients of `a x^2 + b x + c`. -/
structure Quadratic where
  a : Float
  b : Float
  c : Float
  deriving DecidableEq

namespace Quadratic

/-- The powers of `x` in a quadratic. -/
inductive Degree
  | square
  | linear
  | constant
  deriving DecidableEq, Repr

/-- A term as it is written: its power of `x`, its coefficient, and the text after the coefficient.
-/
structure Term where
  degree : Degree
  coefficient : List Char
  tail : List Char
  deriving DecidableEq, Repr

/-- The whole text of a term. -/
def Term.text (t : Term) : List Char :=
  t.coefficient ++ t.tail

/-! ## Taking a term off a text -/

/-- Whether a character is a plus or a minus. -/
def isSign (c : Char) : Bool :=
  c == '+' || c == '-'

/-- The sign at the front of a text, if there is one, and what follows it. -/
def splitSign : List Char → List Char × List Char
  | c :: cs => if isSign c then ([c], cs) else ([], c :: cs)
  | [] => ([], [])

/-- A point and the digits after it, if there are any, and what follows them. -/
def splitPoint : List Char → List Char × List Char
  | '.' :: cs => ('.' :: cs.takeWhile Char.isDigit, cs.dropWhile Char.isDigit)
  | cs => ([], cs)

/-- What can be a coefficient before `x`: a sign, digits, a point and digits, each of which may be
missing. -/
def splitFactor (cs : List Char) : List Char × List Char :=
  let (sign, rest) := splitSign cs
  let (fraction, after) := splitPoint (rest.dropWhile Char.isDigit)
  (sign ++ rest.takeWhile Char.isDigit ++ fraction, after)

/-- A term in `x` with this coefficient, and what follows it. -/
def power? (factor : List Char) : List Char → Option (Term × List Char)
  | 'x' :: '^' :: '2' :: rest => some (⟨.square, factor, ['x', '^', '2']⟩, rest)
  | 'x' :: rest => some (⟨.linear, factor, ['x']⟩, rest)
  | _ => none

/-- A term without `x`, and what follows it. -/
def constant? (cs : List Char) : Option (Term × List Char) :=
  let (sign, rest) := splitSign cs
  if rest.head?.any Char.isDigit then
    let (numeral, after) := Lexeme.splitNumeral rest
    some (⟨.constant, sign ++ numeral, []⟩, after)
  else none

/-- The term at the front of a text, and what follows it. -/
def term? (cs : List Char) : Option (Term × List Char) :=
  let (factor, rest) := splitFactor cs
  (power? factor rest).or (constant? cs)

theorem splitSign_append (cs : List Char) : (splitSign cs).1 ++ (splitSign cs).2 = cs := by
  unfold splitSign
  split
  · split <;> rfl
  · rfl

theorem splitPoint_append (cs : List Char) : (splitPoint cs).1 ++ (splitPoint cs).2 = cs := by
  unfold splitPoint
  split
  · simp [List.takeWhile_append_dropWhile]
  · rfl

theorem splitFactor_append (cs : List Char) : (splitFactor cs).1 ++ (splitFactor cs).2 = cs := by
  simp only [splitFactor, List.append_assoc, splitPoint_append, List.takeWhile_append_dropWhile,
    splitSign_append]

theorem text_append_of_power? {factor cs rest : List Char} {t : Term}
    (h : power? factor cs = some (t, rest)) : t.text ++ rest = factor ++ cs ∧ t.tail ≠ [] := by
  unfold power? at h
  split at h
  · cases h; simp [Term.text]
  · cases h; simp [Term.text]
  · cases h

theorem text_append_of_constant? {cs rest : List Char} {t : Term}
    (h : constant? cs = some (t, rest)) : t.text ++ rest = cs ∧ t.text ≠ [] := by
  simp only [constant?] at h
  split at h
  · next digit =>
    cases h
    have whole : (Lexeme.splitNumeral (splitSign cs).2).1 ++
        (Lexeme.splitNumeral (splitSign cs).2).2 = (splitSign cs).2 :=
      Lexeme.splitNumeral_append _
    refine ⟨by rw [Term.text, List.append_nil, List.append_assoc, whole, splitSign_append], ?_⟩
    match rest : (splitSign cs).2, digit with
    | d :: ds, digit =>
      have isDigit : d.isDigit = true := by simpa using digit
      simp [Term.text, Lexeme.splitNumeral, List.takeWhile_cons_of_pos isDigit]
  · cases h

/-- A term and what follows it are the text, and a term is not empty. -/
theorem text_append_of_term? {cs rest : List Char} {t : Term}
    (h : term? cs = some (t, rest)) : t.text ++ rest = cs ∧ t.text ≠ [] := by
  simp only [term?, Option.or_eq_some_iff] at h
  rcases h with h | ⟨-, h⟩
  · obtain ⟨same, tail⟩ := text_append_of_power? h
    exact ⟨by rw [same, splitFactor_append], by simp [Term.text, tail]⟩
  · exact text_append_of_constant? h

/-- What a search for terms looks for. -/
def termPattern : Text.Pattern Term where
  next? := term?
  width t := t.text.length
  exists_piece h := ⟨_, (text_append_of_term? h).2, rfl, (text_append_of_term? h).1⟩

/-! ## Adding up -/

/-- The fault of a piece of text that is not a term, or lacks its sign. -/
def notATerm (text : List Char) : Fault :=
  .input (.notATerm (String.ofList text))

/-- The number that a coefficient stands for. -/
def coefficientValue (text : List Char) : Except Fault Float :=
  if text = [] ∨ text = ['+'] then .ok 1.0
  else if text = ['-'] then .ok (-1.0)
  else
    match Decimal.read (String.ofList text) with
    | .ok x => .ok x
    | .error reason => .error (.input (.badCoefficient (String.ofList text) reason))

/-- The quadratic with a term added. -/
def add (q : Quadratic) (degree : Degree) (value : Float) : Quadratic :=
  match degree with
  | .square => { q with a := q.a + value }
  | .linear => { q with b := q.b + value }
  | .constant => { q with c := q.c + value }

/-- The quadratic `q` with the terms added that were found in a text, if they cover all of it from
the position `last` on.  Only at the very start may a term go without its sign. -/
def addMatches (text : List Char) (q : Quadratic) (last : Nat) :
    List (Text.Match Term) → Except Fault Quadratic
  | [] => if last < text.length then .error (notATerm (text.drop last)) else .ok q
  | m :: others =>
    if last < m.start then .error (notATerm (Text.slice text last m.start))
    else if 0 < m.start && !m.value.text.head?.any isSign then .error (notATerm m.value.text)
    else do
      let value ← coefficientValue m.value.coefficient
      addMatches text (q.add m.value.degree value) m.stop others

/-! ## Reading a text -/

/-- Whether a character can occur in a quadratic in lower case. -/
def isQuadraticChar (c : Char) : Bool :=
  c.isDigit || Text.isBlank c || ['+', '-', '.', 'x', '^'].contains c

/-- The zero polynomial. -/
def zero : Quadratic := ⟨0.0, 0.0, 0.0⟩

/-- The coefficients of the quadratic that a text stands for. -/
def ofText (expression : String) : Except Fault Quadratic :=
  let lowered := Text.lowercase expression
  if Text.isBlankText lowered then .error (.input .empty)
  else
    match lowered.toList.find? fun c => !isQuadraticChar c with
    | some c => .error (.input (.notInQuadratic c))
    | none =>
      let text := Text.withoutBlanks lowered.toList
      addMatches text zero 0 (termPattern.findAll text)

/-- Whether the square is there at all. -/
def isQuadratic (q : Quadratic) : Bool :=
  q.a != 0.0

/-- The discriminant `b² - 4ac`. -/
def discriminant (q : Quadratic) : Float :=
  q.b * q.b - 4.0 * q.a * q.c

/-! ## Reading from the front -/

/-- The quadratic `q` with the terms of the rest of a text added; only at the very start may a term
go without its sign. -/
def addTerms (q : Quadratic) (start : Bool) (cs : List Char) : Except Fault Quadratic :=
  match h : term? cs with
  | some (t, rest) =>
    if !start && !t.text.head?.any isSign then .error (notATerm t.text)
    else
      match coefficientValue t.coefficient with
      | .ok value =>
        have := termPattern.length_lt_of_next? h
        addTerms (q.add t.degree value) false rest
      | .error fault => .error fault
  | none => if cs.isEmpty then .ok q else .error (notATerm (termPattern.skipped cs))
termination_by cs.length

theorem addTerms_of_none {q : Quadratic} {start : Bool} {cs : List Char} (h : term? cs = none) :
    addTerms q start cs =
      if cs.isEmpty then .ok q else .error (notATerm (termPattern.skipped cs)) := by
  rw [addTerms]
  split
  · next found => cases h.symm.trans found
  · rfl

theorem addTerms_of_some {q : Quadratic} {start : Bool} {cs rest : List Char} {t : Term}
    (h : term? cs = some (t, rest)) :
    addTerms q start cs =
      if !start && !t.text.head?.any isSign then .error (notATerm t.text)
      else (coefficientValue t.coefficient).bind fun value =>
        addTerms (q.add t.degree value) false rest := by
  rw [addTerms]
  split
  · next found =>
    cases h.symm.trans found
    split
    · rfl
    · cases coefficientValue t.coefficient <;> rfl
  · next missing => cases h.symm.trans missing

/-- The fault where no term is found at the front, told from what the search finds behind it. -/
theorem addMatches_of_none (front : List Char) (q : Quadratic) {cs : List Char}
    (nonempty : cs ≠ []) (h : term? cs = none) :
    addMatches (front ++ cs) q front.length (termPattern.matchesFrom front.length cs) =
      .error (notATerm (termPattern.skipped cs)) := by
  rcases termPattern.matchesFrom_of_gap front nonempty h with
    ⟨all, nothing, inside⟩ | ⟨rest, m, others, -, -, first, gap, between⟩
  · rw [nothing, addMatches, if_pos inside, List.drop_left, all]
  · rw [first, addMatches, if_pos gap, between]

/-- A search for terms comes to the same as reading them from the front; `front` is what has been
read. -/
theorem addMatches_matchesFrom (front : List Char) (q : Quadratic) (cs : List Char) :
    addMatches (front ++ cs) q front.length (termPattern.matchesFrom front.length cs) =
      addTerms q front.isEmpty cs := by
  cases found : term? cs with
  | none =>
    rw [addTerms_of_none found]
    split
    · next empty =>
      obtain rfl : cs = [] := by simpa using empty
      rw [List.append_nil, termPattern.matchesFrom_nil, addMatches, if_neg (Nat.lt_irrefl _)]
    · next nonempty => exact addMatches_of_none front q (by simpa using nonempty) found
  | some here =>
    obtain ⟨t, rest⟩ := here
    obtain ⟨whole, nonempty⟩ := text_append_of_term? found
    have := termPattern.length_lt_of_next? found
    have step (value : Float) :
        addMatches (front ++ cs) (q.add t.degree value) (front.length + termPattern.width t)
            (termPattern.matchesFrom (front.length + termPattern.width t) rest) =
          addTerms (q.add t.degree value) false rest := by
      have next := addMatches_matchesFrom (front ++ t.text) (q.add t.degree value) rest
      rw [List.append_assoc, whole, List.length_append] at next
      have read : (front ++ t.text).isEmpty = false := by simp [nonempty]
      exact read ▸ next
    have inside : decide (0 < front.length) = !front.isEmpty := by
      cases front <;> rfl
    rw [termPattern.matchesFrom_of_some found, addMatches, if_neg (Nat.lt_irrefl _),
      addTerms_of_some found, inside]
    simp only [step]
    rfl
termination_by cs.length

/-- The coefficients of a text of characters that can occur in it, without positions. -/
theorem addMatches_findAll (text : List Char) :
    addMatches text zero 0 (termPattern.findAll text) = addTerms zero true text :=
  addMatches_matchesFrom [] zero text

end Quadratic

end Calculator
