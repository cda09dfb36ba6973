import Calculator.Fault
import Calculator.Text.Blank
import Calculator.Text.Search
import Calculator.Token

/-!
# Lexemes

An expression without its blanks is cut into lexemes from the left, each as long as it can be: a
numeral is digits, with a point and more digits if these follow; a word is a run of letters; every
operator, parenthesis and comma stands for itself.  A word names the unknown if it is `x`, a
constant if it is `pi` or `e`, and a function otherwise, in letters of either case.

A scan searches the text for lexemes and checks that they are next to each other from the first
character to the last.  Where they are not, the fault quotes what stands before the next of them, or
all that is left where there is no other.

`next?` takes one lexeme off the front of a text.  `lexemes` repeats it to the end, without the
positions, and comes to the same as the search (`ofMatches_matchesFrom`).
-/

namespace Calculator

namespace Lexeme

/-- The lexeme that a character is by itself: an operator, a parenthesis or the separator. -/
def ofSymbol? (c : Char) : Option Lexeme :=
  if c = '(' then some .openParen
  else if c = ')' then some .closeParen
  else if c = ',' then some .separator
  else if c = '+' ∨ c = '-' ∨ c = '*' ∨ c = '/' ∨ c = '^' ∨ c = '!' then
    some (.operator (String.singleton c))
  else none

/-- The lexeme that a run of letters is. -/
def ofWord (word : List Char) : Lexeme :=
  let name := word.map Char.toLower
  if name = ['x'] then .unknown
  else if name = ['p', 'i'] ∨ name = ['e'] then .constant (String.ofList name)
  else .function (String.ofList name)

/-- A symbol is written as it is. -/
theorem text_of_ofSymbol? {c : Char} {l : Lexeme} (h : ofSymbol? c = some l) :
    l.text.toList = [c] := by
  unfold ofSymbol? at h
  split at h
  · next same =>
    cases h
    rw [same]
    rfl
  split at h
  · next same =>
    cases h
    rw [same]
    rfl
  split at h
  · next same =>
    cases h
    rw [same]
    rfl
  split at h
  · cases h
    exact String.toList_singleton c
  · cases h

/-- A word is written in lower case. -/
theorem text_ofWord (word : List Char) : (ofWord word).text.toList = word.map Char.toLower := by
  simp only [ofWord]
  split
  · next isX =>
    rw [isX]
    rfl
  · split <;> exact String.toList_ofList

/-- Whether a lexeme can begin with the character. -/
def begins (c : Char) : Bool :=
  c.isDigit || c.isAlpha || (ofSymbol? c).isSome

/-- The point and the digits after it at the front of a text, and what follows them; a point without
a digit after it stays with the rest. -/
def splitFraction : List Char → List Char × List Char
  | '.' :: d :: cs =>
    if d.isDigit then
      ('.' :: (d :: cs).takeWhile Char.isDigit, (d :: cs).dropWhile Char.isDigit)
    else ([], '.' :: d :: cs)
  | cs => ([], cs)

/-- The longest numeral at the front of a text, and what follows it. -/
def splitNumeral (cs : List Char) : List Char × List Char :=
  let (fraction, rest) := splitFraction (cs.dropWhile Char.isDigit)
  (cs.takeWhile Char.isDigit ++ fraction, rest)

/-- The longest lexeme at the front of a text, and what follows it. -/
def next? : List Char → Option (Lexeme × List Char)
  | [] => none
  | c :: cs =>
    if c.isDigit then
      let (numeral, rest) := splitNumeral (c :: cs)
      some (.number (String.ofList numeral), rest)
    else if c.isAlpha then
      some (ofWord ((c :: cs).takeWhile Char.isAlpha), (c :: cs).dropWhile Char.isAlpha)
    else
      (ofSymbol? c).map fun l => (l, cs)

/-- A fraction and what follows it are the text. -/
theorem splitFraction_append (cs : List Char) :
    (splitFraction cs).1 ++ (splitFraction cs).2 = cs := by
  unfold splitFraction
  split
  · split
    · simp [List.takeWhile_append_dropWhile]
    · rfl
  · rfl

/-- A numeral and what follows it are the text. -/
theorem splitNumeral_append (cs : List Char) :
    (splitNumeral cs).1 ++ (splitNumeral cs).2 = cs := by
  simp only [splitNumeral, List.append_assoc, splitFraction_append,
    List.takeWhile_append_dropWhile]

/-- What a lexeme takes off a text is not empty and as long as the text of the lexeme. -/
theorem exists_piece_of_next? {cs rest : List Char} {l : Lexeme} (h : next? cs = some (l, rest)) :
    ∃ piece, piece ≠ [] ∧ piece.length = l.text.length ∧ piece ++ rest = cs := by
  unfold next? at h
  split at h
  · cases h
  · next c cs =>
    split at h
    · next digit =>
      obtain ⟨rfl, rfl⟩ := Prod.mk.inj (Option.some.inj h)
      refine ⟨_, ?_, (String.length_ofList).symm, splitNumeral_append (c :: cs)⟩
      simp [List.takeWhile_cons_of_pos digit]
    split at h
    · next letter =>
      obtain ⟨rfl, rfl⟩ := Prod.mk.inj (Option.some.inj h)
      refine ⟨_, ?_, ?_, List.takeWhile_append_dropWhile⟩
      · simp [List.takeWhile_cons_of_pos letter]
      · rw [← String.length_toList, text_ofWord, List.length_map]
    · obtain ⟨l, symbol, same⟩ := Option.map_eq_some_iff.mp h
      obtain ⟨rfl, rfl⟩ := Prod.mk.inj same
      refine ⟨[c], List.cons_ne_nil c [], ?_, rfl⟩
      rw [← String.length_toList, text_of_ofSymbol? symbol]

/-- A lexeme is found at the front of a text if its first character begins one. -/
theorem next?_cons_eq_none_iff {c : Char} {cs : List Char} :
    next? (c :: cs) = none ↔ begins c = false := by
  rw [next?, begins]
  split
  · next digit => simp [digit]
  split
  · next letter => simp [letter]
  · next noDigit noLetter => simp [noDigit, noLetter]

/-- What a search for lexemes looks for. -/
def pattern : Text.Pattern Lexeme where
  next? := next?
  width l := l.text.length
  exists_piece := exists_piece_of_next?

/-- A search for lexemes passes over the characters that begin none. -/
theorem skipped_pattern (cs : List Char) :
    pattern.skipped cs = cs.takeWhile fun c => !begins c := by
  induction cs with
  | nil => rfl
  | cons c cs ih =>
    rw [Text.Pattern.skipped, List.takeWhile_cons]
    cases first : begins c with
    | false =>
      have missing : pattern.next? (c :: cs) = none := next?_cons_eq_none_iff.mpr first
      simp [missing, ih]
    | true =>
      have found : pattern.next? (c :: cs) ≠ none := by
        intro missing
        cases first.symm.trans (next?_cons_eq_none_iff.mp missing)
      simp [Option.isSome_iff_ne_none.mpr found]

/-- The lexemes that were found in a text, if they cover all of it from the position `last` on. -/
def ofMatches (text : List Char) (last : Nat) :
    List (Text.Match Lexeme) → Except Fault (List Lexeme)
  | [] =>
    if last < text.length then
      .error (.lexical (.unrecognizedAtEnd (String.ofList (text.drop last))))
    else .ok []
  | m :: others =>
    if last < m.start then
      .error (.lexical (.unrecognized (String.ofList (Text.slice text last m.start))))
    else (ofMatches text m.stop others).map (m.value :: ·)

end Lexeme

/-- The tokens of an expression, every sign an operator. -/
def scan (expression : String) : Except Fault (List Token) :=
  let text := Text.withoutBlanks expression.toList
  (Lexeme.ofMatches text 0 (Lexeme.pattern.findAll text)).map (·.map Token.ofLexeme)

/-! ## Reading from the front -/

/-- The fault of a text that begins with no lexeme. -/
def Lexeme.stretchFault (cs : List Char) : Fault :=
  let stretch := String.ofList (cs.takeWhile fun c => !begins c)
  if (cs.dropWhile fun c => !begins c).isEmpty then .lexical (.unrecognizedAtEnd stretch)
  else .lexical (.unrecognized stretch)

/-- The lexemes of a text without blanks. -/
def lexemes (cs : List Char) : Except Fault (List Lexeme) :=
  match h : Lexeme.next? cs with
  | some (l, rest) =>
    have := Lexeme.pattern.length_lt_of_next? h
    (lexemes rest).map (l :: ·)
  | none => if cs.isEmpty then .ok [] else .error (Lexeme.stretchFault cs)
termination_by cs.length

theorem lexemes_of_some {cs rest : List Char} {l : Lexeme}
    (h : Lexeme.next? cs = some (l, rest)) : lexemes cs = (lexemes rest).map (l :: ·) := by
  rw [lexemes]
  split
  · next found =>
    cases h.symm.trans found
    rfl
  · next missing => cases h.symm.trans missing

theorem lexemes_of_none {cs : List Char} (h : Lexeme.next? cs = none) :
    lexemes cs = if cs.isEmpty then .ok [] else .error (Lexeme.stretchFault cs) := by
  rw [lexemes]
  split
  · next found => cases h.symm.trans found
  · rfl

/-- The fault where no lexeme is found at the front, told from what the search finds behind it. -/
theorem Lexeme.ofMatches_of_none (front : List Char) {cs : List Char} (nonempty : cs ≠ [])
    (h : next? cs = none) :
    ofMatches (front ++ cs) front.length (pattern.matchesFrom front.length cs) =
      .error (stretchFault cs) := by
  have parts : pattern.skipped cs ++ (cs.dropWhile fun c => !begins c) = cs := by
    rw [skipped_pattern]
    exact List.takeWhile_append_dropWhile
  rw [stretchFault, ← skipped_pattern]
  rcases pattern.matchesFrom_of_gap front nonempty h with
    ⟨all, nothing, inside⟩ | ⟨rest, m, others, whole, more, first, gap, between⟩
  · have nothingLeft : (cs.dropWhile fun c => !begins c) = [] := by
      rw [all] at parts
      exact List.append_right_eq_self.mp parts
    rw [nothing, ofMatches, if_pos inside, List.drop_left, nothingLeft, all]
    rfl
  · have left : (cs.dropWhile fun c => !begins c) = rest :=
      List.append_cancel_left (parts.trans whole.symm)
    rw [first, ofMatches, if_pos gap, between, left, if_neg (by simpa using more)]

/-- A search for lexemes comes to the same as reading them from the front; `front` is what has been
read. -/
theorem Lexeme.ofMatches_matchesFrom (front cs : List Char) :
    ofMatches (front ++ cs) front.length (pattern.matchesFrom front.length cs) = lexemes cs := by
  induction cs using lexemes.induct generalizing front with
  | case1 cs l rest found _ ih =>
    obtain ⟨piece, -, width, rfl⟩ := exists_piece_of_next? found
    have step := ih (front ++ piece)
    rw [List.append_assoc, List.length_append, width] at step
    rw [pattern.matchesFrom_of_some found, ofMatches, if_neg (Nat.lt_irrefl _),
      lexemes_of_some found]
    exact congrArg (·.map (l :: ·)) step
  | case2 cs missing empty =>
    obtain rfl : cs = [] := by simpa using empty
    rw [lexemes_of_none missing, if_pos empty, List.append_nil, pattern.matchesFrom_nil, ofMatches,
      if_neg (Nat.lt_irrefl _)]
  | case3 cs missing nonempty =>
    rw [lexemes_of_none missing, if_neg nonempty]
    exact ofMatches_of_none front (by simpa using nonempty) missing

/-- The scan of an expression, without positions. -/
theorem scan_eq (expression : String) :
    scan expression =
      (lexemes (Text.withoutBlanks expression.toList)).map (·.map Token.ofLexeme) :=
  congrArg (·.map (·.map Token.ofLexeme))
    (Lexeme.ofMatches_matchesFrom [] (Text.withoutBlanks expression.toList))

end Calculator
