import Calculator.Lexeme
import Calculator.Proofs.Basic
import Calculator.Proofs.Numeral
import Calculator.Proofs.ParseTree

/-!
# Scanned tokens

What the scan of a text consists of (`scanned_of_scan`): its operators are the known ones, its
constants have a value, its numerals can be read, and no token has an argument count of its own.

Two texts with a symbol between them are scanned one after the other (`scan_append`), since no
lexeme reaches over a symbol and blanks have been taken out before.
-/

namespace Calculator

/-- The tokens that a scan can give. -/
inductive Scanned : Token → Prop
  | number (text : String) (h : Decimal.Readable text) : Scanned (.number text)
  | operator (op : Operator) : Scanned op.token
  | function (name : String) : Scanned (.ofLexeme (.function name))
  | constant (name : String) (h : name = "pi" ∨ name = "e") : Scanned (.ofLexeme (.constant name))
  | openParen : Scanned .openParen
  | closeParen : Scanned .closeParen
  | separator : Scanned .separator
  | unknown : Scanned .unknown

/-! ## One lexeme -/

lemma isAlpha_iff {c : Char} :
    c.isAlpha = true ↔ 65 ≤ c.toNat ∧ c.toNat ≤ 90 ∨ 97 ≤ c.toNat ∧ c.toNat ≤ 122 := by
  show (decide (c.val ≥ 'A'.val ∧ c.val ≤ 'Z'.val) ||
    decide (c.val ≥ 'a'.val) && decide (c.val ≤ 'z'.val)) = true ↔ _
  simp only [Bool.or_eq_true, Bool.and_eq_true, decide_eq_true_eq, ge_iff_le,
    UInt32.le_iff_toNat_le]
  rfl

/-- A letter is neither a digit nor blank, and it is ASCII. -/
lemma isAlpha_cases {c : Char} (h : c.isAlpha = true) :
    c.isDigit = false ∧ Text.isBlank c = false ∧ c.toNat < 0x80 := by
  have hrange := isAlpha_iff.mp h
  refine ⟨?_, ?_, by omega⟩
  · have hdigit : c.isDigit = true ↔ 48 ≤ c.toNat ∧ c.toNat ≤ 57 := Char.isDigit_iff_toNat
    rw [Bool.eq_false_iff, ne_eq, hdigit]
    omega
  · simp only [Text.isBlank, Bool.or_eq_false_iff, Bool.and_eq_false_iff, decide_eq_false_iff_not,
      beq_eq_false_iff_ne]
    omega

namespace Lexeme

/-- A character that is an operator is one of the six. -/
lemma scanned_of_ofSymbol? {c : Char} {l : Lexeme} (h : ofSymbol? c = some l) :
    Scanned (.ofLexeme l) := by
  unfold ofSymbol? at h
  split at h
  · cases h
    exact .openParen
  split at h
  · cases h
    exact .closeParen
  split at h
  · cases h
    exact .separator
  split at h
  next hc =>
    cases h
    rcases hc with rfl | rfl | rfl | rfl | rfl | rfl
    · exact .operator .add
    · exact .operator .sub
    · exact .operator .mul
    · exact .operator .div
    · exact .operator .pow
    · exact .operator .factorial
  · cases h

lemma scanned_ofWord (word : List Char) : Scanned (.ofLexeme (ofWord word)) := by
  simp only [ofWord]
  split
  · exact .unknown
  split
  next h =>
    rcases h with h | h
    · exact .constant _ (.inl (by rw [h]))
    · exact .constant _ (.inr (by rw [h]))
  · exact .function _

/-- The fraction of a numeral is a point and digits, if there is any. -/
lemma splitFraction_cases (cs : List Char) :
    (splitFraction cs).1 = [] ∨
      ∃ ds, (splitFraction cs).1 = '.' :: ds ∧ ds ≠ [] ∧ ∀ c ∈ ds, c.isDigit = true := by
  unfold splitFraction
  split
  · split
    next digit =>
      refine .inr ⟨_, rfl, ?_, fun c hc => List.mem_takeWhile_imp hc⟩
      rw [List.takeWhile_cons_of_pos digit]
      exact List.cons_ne_nil _ _
    · exact .inl rfl
  · exact .inl rfl

lemma isPlain_splitNumeral {c : Char} {cs : List Char} (hc : c.isDigit = true) :
    Decimal.IsPlain (splitNumeral (c :: cs)).1 := by
  refine ⟨_, _, rfl, ?_, fun d hd => List.mem_takeWhile_imp hd, splitFraction_cases _⟩
  rw [List.takeWhile_cons_of_pos hc]
  exact List.cons_ne_nil _ _

lemma scanned_of_next? {cs rest : List Char} {l : Lexeme} (h : next? cs = some (l, rest)) :
    Scanned (.ofLexeme l) := by
  unfold next? at h
  split at h
  · cases h
  split at h
  next digit =>
    cases h
    exact .number _ (Decimal.readable_of_isPlain (isPlain_splitNumeral digit))
  split at h
  · cases h
    exact scanned_ofWord _
  · obtain ⟨symbol, hsymbol, heq⟩ := Option.map_eq_some_iff.mp h
    cases heq
    exact scanned_of_ofSymbol? hsymbol

end Lexeme

/-! ## All of them -/

theorem scanned_of_lexemes {cs : List Char} {ls : List Lexeme} (h : lexemes cs = .ok ls) :
    ∀ l ∈ ls, Scanned (.ofLexeme l) := by
  induction cs using lexemes.induct generalizing ls with
  | case1 cs l rest hnext hlt ih =>
    rw [lexemes_of_some hnext] at h
    obtain ⟨ms, hms, rfl⟩ := of_map_eq_ok h
    exact List.forall_mem_cons.mpr ⟨Lexeme.scanned_of_next? hnext, ih hms⟩
  | case2 cs hnext hempty =>
    rw [lexemes_of_none hnext, if_pos hempty] at h
    cases h
    exact List.forall_mem_nil _
  | case3 cs hnext hempty =>
    rw [lexemes_of_none hnext, if_neg hempty] at h
    cases h

/-- A scan that succeeds has the lexemes of the text. -/
lemma lexemes_of_scan {expression : String} {ts : List Token} (h : scan expression = .ok ts) :
    ∃ ls, lexemes (Text.withoutBlanks expression.toList) = .ok ls ∧
      ls.map Token.ofLexeme = ts := by
  rw [scan_eq] at h
  exact of_map_eq_ok h

/-- Every token of a scan is one of these. -/
theorem scanned_of_scan {expression : String} {ts : List Token} (h : scan expression = .ok ts) :
    ∀ t ∈ ts, Scanned t := by
  obtain ⟨ls, hls, rfl⟩ := lexemes_of_scan h
  exact List.forall_mem_map.mpr (scanned_of_lexemes hls)

/-! ## A symbol between two texts -/

namespace Lexeme

/-- The characters that are lexemes by themselves. -/
lemma isSome_ofSymbol?_iff {c : Char} :
    (ofSymbol? c).isSome = true ↔ c ∈ ['+', '-', '*', '/', '^', '(', ')', ',', '!'] := by
  constructor
  · intro h
    unfold ofSymbol? at h
    split at h
    next hc => simp [hc]
    split at h
    next hc => simp [hc]
    split at h
    next hc => simp [hc]
    split at h
    next hc => rcases hc with rfl | rfl | rfl | rfl | rfl | rfl <;> simp
    · cases h
  · intro h
    simp only [List.mem_cons, List.not_mem_nil, or_false] at h
    rcases h with rfl | rfl | rfl | rfl | rfl | rfl | rfl | rfl | rfl <;> rfl

/-- A character that is a lexeme by itself is part of no other, and is not blank. -/
lemma of_ofSymbol? {d : Char} {x : Lexeme} (h : ofSymbol? d = some x) :
    d.isDigit = false ∧ d.isAlpha = false ∧ d ≠ '.' ∧ Text.isBlank d = false := by
  have hmem := isSome_ofSymbol?_iff.mp (Option.isSome_of_eq_some h)
  simp only [List.mem_cons, List.not_mem_nil, or_false] at hmem
  rcases hmem with rfl | rfl | rfl | rfl | rfl | rfl | rfl | rfl | rfl <;> decide

lemma splitFraction_of_ne {c : Char} (hc : c ≠ '.') (cs : List Char) :
    splitFraction (c :: cs) = ([], c :: cs) := by
  unfold splitFraction
  split
  next heq =>
    cases heq
    exact absurd rfl hc
  · rfl

lemma splitFraction_append_cons {d : Char} (hdigit : d.isDigit = false) (hpoint : d ≠ '.')
    (l r : List Char) :
    splitFraction (l ++ d :: r) = ((splitFraction l).1, (splitFraction l).2 ++ d :: r) := by
  cases l with
  | nil => exact splitFraction_of_ne hpoint r
  | cons c l =>
    by_cases hc : c = '.'
    · subst hc
      cases l with
      | nil => simp [splitFraction, hdigit]
      | cons e l =>
        rw [List.cons_append, List.cons_append, splitFraction, splitFraction]
        cases he : e.isDigit with
        | false => simp
        | true =>
          have htake := takeWhile_append_cons hdigit (e :: l) r
          have hdrop := dropWhile_append_cons hdigit (e :: l) r
          rw [List.cons_append] at htake hdrop
          simp [htake, hdrop]
    · rw [List.cons_append, splitFraction_of_ne hc, splitFraction_of_ne hc]
      rfl

lemma splitNumeral_append_cons {d : Char} (hdigit : d.isDigit = false) (hpoint : d ≠ '.')
    (l r : List Char) :
    splitNumeral (l ++ d :: r) = ((splitNumeral l).1, (splitNumeral l).2 ++ d :: r) := by
  simp only [splitNumeral, takeWhile_append_cons hdigit, dropWhile_append_cons hdigit,
    splitFraction_append_cons hdigit hpoint]

/-- A lexeme at the front of a text does not reach over a symbol. -/
lemma next?_append_cons {cs rest : List Char} {l x : Lexeme} {d : Char}
    (hd : ofSymbol? d = some x) (h : next? cs = some (l, rest)) (ds : List Char) :
    next? (cs ++ d :: ds) = some (l, rest ++ d :: ds) := by
  obtain ⟨hdigit, halpha, hpoint, -⟩ := of_ofSymbol? hd
  cases cs with
  | nil => cases h
  | cons c cs =>
    have hnumeral := splitNumeral_append_cons hdigit hpoint (c :: cs) ds
    have htake := takeWhile_append_cons halpha (c :: cs) ds
    have hdrop := dropWhile_append_cons halpha (c :: cs) ds
    simp only [List.cons_append] at hnumeral htake hdrop ⊢
    simp only [next?] at h ⊢
    split at h
    next hc =>
      cases h
      rw [if_pos hc, hnumeral]
    next hc =>
      rw [if_neg hc]
      split at h
      next hc =>
        cases h
        rw [if_pos hc, htake, hdrop]
      next hc =>
        rw [if_neg hc]
        obtain ⟨symbol, hsymbol, heq⟩ := Option.map_eq_some_iff.mp h
        cases heq
        rw [hsymbol]
        rfl

lemma next?_symbol {d : Char} {x : Lexeme} (hd : ofSymbol? d = some x) (ds : List Char) :
    next? (d :: ds) = some (x, ds) := by
  obtain ⟨hdigit, halpha, -, -⟩ := of_ofSymbol? hd
  simp [next?, hdigit, halpha, hd]

end Lexeme

/-- The lexemes of a text, a symbol and another text. -/
lemma lexemes_append_cons {cs : List Char} {ls : List Lexeme} {d : Char} {x : Lexeme}
    (h : lexemes cs = .ok ls) (hd : Lexeme.ofSymbol? d = some x) (ds : List Char) :
    lexemes (cs ++ d :: ds) = (lexemes ds).map (ls ++ x :: ·) := by
  induction cs using lexemes.induct generalizing ls with
  | case1 cs l rest hnext hlt ih =>
    rw [lexemes_of_some hnext] at h
    obtain ⟨ms, hms, rfl⟩ := of_map_eq_ok h
    rw [lexemes_of_some (Lexeme.next?_append_cons hd hnext ds), ih hms]
    cases lexemes ds <;> rfl
  | case2 cs hnext hempty =>
    rw [lexemes_of_none hnext, if_pos hempty] at h
    cases h
    obtain rfl : cs = [] := List.isEmpty_iff.mp hempty
    exact lexemes_of_some (Lexeme.next?_symbol hd ds)
  | case3 cs hnext hempty =>
    rw [lexemes_of_none hnext, if_neg hempty] at h
    cases h

/-- The scan of a text, a symbol and another text. -/
theorem scan_append {l r : String} {ts : List Token} {d : Char} {x : Lexeme}
    (h : scan l = .ok ts) (hd : Lexeme.ofSymbol? d = some x) :
    scan (l ++ String.singleton d ++ r) = (scan r).map (ts ++ Token.ofLexeme x :: ·) := by
  obtain ⟨ls, hls, rfl⟩ := lexemes_of_scan h
  have hblank : Text.isBlank d = false := (Lexeme.of_ofSymbol? hd).2.2.2
  have htext : Text.withoutBlanks (l ++ String.singleton d ++ r).toList =
      Text.withoutBlanks l.toList ++ d :: Text.withoutBlanks r.toList := by
    simp [Text.withoutBlanks, hblank]
  rw [scan_eq, htext, lexemes_append_cons hls hd, scan_eq]
  cases lexemes (Text.withoutBlanks r.toList) <;> simp [Except.map]

end Calculator
