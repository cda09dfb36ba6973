import Calculator.Proofs.Plausible
import Mathlib.Data.List.SplitBy

/-!
# The lexicon

What the scanner accepts, what it makes of it and what it says of the rest, each of these said about
the text without its blanks and none of them with the scanner (`scan_lexicon`).

A text is accepted if it has only the characters of lexemes and if every longest run of digits and
points in it is a plain numeral (`exists_spelling_iff`).  Its lexemes are then the pieces into which
it falls where two neighbours are not parts of one numeral or of one word, and no character of it is
lost but for the case of letters (`Spelling.splitBy`, `Spelling.text_eq`).

Of any other text the lexemes from the left are taken as long as there are any, each as long as it
can be.  `Munched` is this taking.  There is one way to do it (`Munched.unique`), and the scanner
quotes what is found where it ends (`exists_munched`).
-/

namespace Calculator

open Lexeme (isNumeralChar Shape)

/-- Whether a lexeme can begin with a character: a digit, a letter or a symbol. -/
def isLexical (c : Char) : Bool :=
  c.isDigit || c.isAlpha || ['+', '-', '*', '/', '^', '!', '(', ')', ','].contains c

/-- Whether two neighbours are parts of one numeral or of one word. -/
def sameLexeme (a b : Char) : Bool :=
  isNumeralChar a && isNumeralChar b || a.isAlpha && b.isAlpha

/-- The lexeme that a piece of a text is: digits and points are a numeral, letters are the unknown,
a constant or a function, whatever their case, and any other character stands for itself. -/
def Lexeme.ofPiece (piece : List Char) : Lexeme :=
  let text := String.ofList (piece.map Char.toLower)
  if piece.all isNumeralChar then .number text
  else if piece.all Char.isAlpha then
    if text = "x" then .unknown
    else if text = "pi" ∨ text = "e" then .constant text
    else .function text
  else if text = "(" then .openParen
  else if text = ")" then .closeParen
  else if text = "," then .separator
  else .operator text

/-! ## Characters -/

lemma isLexical_eq_begins (c : Char) : isLexical c = Lexeme.begins c := by
  have hsymbol : ['+', '-', '*', '/', '^', '!', '(', ')', ','].contains c =
      (Lexeme.ofSymbol? c).isSome := by
    rw [Bool.eq_iff_iff, Lexeme.isSome_ofSymbol?_iff]
    simp only [List.contains_iff_mem, List.mem_cons, List.not_mem_nil, or_false]
    tauto
  rw [isLexical, hsymbol, Lexeme.begins]

/-- A character of an expression that is no blank begins a lexeme or is a point. -/
lemma isExpressionChar_iff {c : Char} (hblank : Text.isBlank c = false) :
    isExpressionChar c = true ↔ isLexical c = true ∨ c = '.' := by
  simp only [isExpressionChar, isLexical, hblank, Bool.or_false, Bool.or_eq_true,
    List.contains_iff_mem, List.mem_cons, List.not_mem_nil, or_false]
  tauto

lemma toLower_of_not_isAlpha {c : Char} (h : c.isAlpha = false) : c.toLower = c := by
  rw [Bool.eq_false_iff, ne_eq, isAlpha_iff] at h
  apply Char.toNat_inj.mp
  rw [Lexeme.toNat_toLower, if_neg]
  omega

lemma sameLexeme_iff {a b : Char} :
    sameLexeme a b = true ↔ Shape.ofChar a = Shape.ofChar b ∧ Shape.ofChar a ≠ .symbol := by
  rw [sameLexeme, Bool.or_eq_true, Bool.and_eq_true, Bool.and_eq_true,
    ← Shape.ofChar_eq_numeral, ← Shape.ofChar_eq_numeral, ← Shape.ofChar_eq_word,
    ← Shape.ofChar_eq_word]
  cases Shape.ofChar a <;> cases Shape.ofChar b <;> decide

/-! ## One lexeme -/

namespace Lexeme.Spells

variable {cs : List Char} {l m : Lexeme}

/-- The text of a lexeme is what is written, in lower case. -/
lemma text_eq (h : Spells cs l) : l.text.toList = cs.map Char.toLower := by
  cases h with
  | numeral h =>
    have hlower : cs.map Char.toLower = cs := by
      refine (List.map_congr_left fun c hc => toLower_of_not_isAlpha ?_).trans (List.map_id cs)
      rw [Bool.eq_false_iff]
      intro halpha
      cases (not_isNumeralChar_of_isAlpha halpha).symm.trans (isNumeralChar_of_isPlain h c hc)
    rw [hlower]
    exact String.toList_ofList
  | word _ _ => exact text_ofWord cs
  | symbol h =>
    rw [text_of_ofSymbol? h, List.map_singleton, toLower_of_not_isAlpha (of_ofSymbol? h).2.1]

/-- The characters of a lexeme say which lexeme it is. -/
lemma ofPiece_eq (h : Spells cs l) : ofPiece cs = l := by
  have htext : String.ofList (cs.map Char.toLower) = l.text := by
    rw [← h.text_eq, String.ofList_toList]
  cases h with
  | numeral h =>
    have hall : cs.all isNumeralChar = true := List.all_eq_true.mpr (isNumeralChar_of_isPlain h)
    rw [ofPiece, htext, if_pos hall]
    rfl
  | word hne h =>
    have hnumeral : ¬ cs.all isNumeralChar = true := by
      obtain ⟨c, cs, rfl⟩ := List.exists_cons_of_ne_nil hne
      simp [not_isNumeralChar_of_isAlpha (h c (List.mem_cons_self ..))]
    rw [ofPiece, if_neg hnumeral, if_pos (List.all_eq_true.mpr h), ofWord]
    simp only [← String.ofList_inj]
  | symbol h =>
    have hmem := isSome_ofSymbol?_iff.mp (Option.isSome_of_eq_some h)
    simp only [List.mem_cons, List.not_mem_nil, or_false] at hmem
    rcases hmem with rfl | rfl | rfl | rfl | rfl | rfl | rfl | rfl | rfl <;> cases h <;> decide

/-- The characters of a lexeme are parts of one. -/
lemma isChain_sameLexeme (h : Spells cs l) : cs.IsChain fun a b => sameLexeme a b = true := by
  by_cases hsymbol : l.shape = .symbol
  · cases h with
    | numeral _ => cases hsymbol
    | word _ _ => cases (shape_ofWord cs).symm.trans hsymbol
    | symbol _ => exact .singleton _
  · refine (List.pairwise_of_forall_mem_list fun a ha b hb => ?_).isChain
    rw [sameLexeme_iff, h.shape_eq a ha, h.shape_eq b hb]
    exact ⟨rfl, hsymbol⟩

lemma isPlain (h : Spells cs l) (hl : l.shape = .numeral) : Decimal.IsPlain cs := by
  cases h with
  | numeral h => exact h
  | word _ _ => cases (shape_ofWord cs).symm.trans hl
  | symbol h => cases (shape_of_ofSymbol? h).symm.trans hl

/-- A text is one lexeme at most. -/
lemma unique (h : Spells cs l) (h' : Spells cs m) : l = m := by
  have hl : next? (cs ++ []) = some (l, []) := h.next?_append nofun
  have hm : next? (cs ++ []) = some (m, []) := h'.next?_append nofun
  cases hl.symm.trans hm
  rfl

end Lexeme.Spells

/-! ## A text with lexemes -/

namespace Spelling

variable {cs : List Char} {ls : List Lexeme}

/-- A text with lexemes falls into them. -/
lemma splitBy (h : Spelling cs ls) : (cs.splitBy sameLexeme).map Lexeme.ofPiece = ls := by
  induction h with
  | nil => rfl
  | @cons cs rest l ls h hapart hrest ih =>
    have hend : ∀ a ∈ cs.getLast?, ∀ b ∈ rest.head?, sameLexeme a b = false := by
      intro a ha b hb
      have hal := h.shape_eq a (List.mem_of_getLast? ha)
      rw [Bool.eq_false_iff, ne_eq, sameLexeme_iff, hal]
      rintro ⟨hsame, hne⟩
      exact hne (hrest.head_apart hapart b hb hsame.symm)
    rw [List.splitBy_append hend, List.splitBy_of_isChain h.ne_nil h.isChain_sameLexeme,
      List.map_append, ih, List.map_singleton, h.ofPiece_eq, List.singleton_append]

/-- The texts of the lexemes are the whole text, in lower case. -/
lemma text_eq (h : Spelling cs ls) : ls.flatMap (fun l => l.text.toList) = cs.map Char.toLower := by
  induction h with
  | nil => rfl
  | cons h _ _ ih => rw [List.flatMap_cons, List.map_append, h.text_eq, ih]

end Spelling

/-! ## Runs in a text with lexemes -/

section Run

variable {p : Char → Bool} {cs l run : List Char}

lemma MaximalRun.exists_mem (h : MaximalRun p cs run) : ∃ c ∈ run, p c = true := by
  obtain ⟨_, _, _, hne, hrun, -⟩ := h
  obtain ⟨c, hc⟩ := List.exists_mem_of_ne_nil run hne
  exact ⟨c, hc, hrun c hc⟩

/-- A run in a text that begins with characters of one kind is that beginning or lies after it. -/
lemma MaximalRun.of_append (h : MaximalRun p (l ++ cs) run)
    (hl : (∀ c ∈ l, p c = false) ∨ (∀ c ∈ l, p c = true) ∧ ∀ c ∈ cs.head?, p c = false) :
    run = l ∨ MaximalRun p cs run := by
  obtain ⟨before, after, heq, hne, hrun, hbefore, hafter⟩ := h
  rw [List.append_assoc, List.append_eq_append_iff] at heq
  rcases heq with ⟨inner, rfl, rfl⟩ | ⟨front, rfl, hfront⟩
  · refine .inr ⟨inner, after, (List.append_assoc ..).symm, hne, hrun, fun c hc => ?_, hafter⟩
    exact hbefore c (by rw [List.getLast?_append, hc]; rfl)
  -- The run begins inside of the beginning.
  rcases hl with hfalse | ⟨htrue, hcs⟩
  · cases front with
    | nil => exact .inr ⟨[], after, hfront.symm, hne, hrun, nofun, hafter⟩
    | cons c front =>
      obtain ⟨d, run, rfl⟩ := List.exists_cons_of_ne_nil hne
      obtain rfl : d = c := (List.cons.inj hfront).1
      cases (hfalse d (by simp)).symm.trans (hrun d (List.mem_cons_self ..))
  · rcases List.eq_nil_or_concat before with rfl | ⟨before, b, rfl⟩
    · left
      have hl : ∀ c ∈ front, p c = true := by simpa using htrue
      calc run = (run ++ after).takeWhile p := (takeWhile_append_of_head hrun hafter).symm
        _ = (front ++ cs).takeWhile p := by rw [hfront]
        _ = front := takeWhile_append_of_head hl hcs
    · cases (htrue b (by simp)).symm.trans (hbefore b (by simp))

end Run

/-- A run of digits and points in a text with lexemes is one of them. -/
lemma Spelling.isPlain_of_maximalRun {cs run : List Char} {ls : List Lexeme} (h : Spelling cs ls)
    (hrun : MaximalRun isNumeralChar cs run) : Decimal.IsPlain run := by
  induction h with
  | nil =>
    obtain ⟨before, after, hnil, hne, -⟩ := hrun
    simp [hne] at hnil
  | @cons cs rest l ls h hapart hrest ih =>
    by_cases hl : l.shape = .numeral
    · have hcs : ∀ c ∈ cs, isNumeralChar c = true := fun c hc =>
        Shape.ofChar_eq_numeral.mp ((h.shape_eq c hc).trans hl)
      have hend : ∀ c ∈ rest.head?, isNumeralChar c = false := by
        refine fun c hc => Shape.ofChar_ne_numeral.mp fun hshape => ?_
        cases hl.symm.trans (hrest.head_apart hapart c hc (hshape.trans hl.symm))
      rcases hrun.of_append (.inr ⟨hcs, hend⟩) with rfl | hrun
      · exact h.isPlain hl
      · exact ih hrun
    · have hcs : ∀ c ∈ cs, isNumeralChar c = false := fun c hc =>
        Shape.ofChar_ne_numeral.mp (h.shape_eq c hc ▸ hl)
      rcases hrun.of_append (.inl hcs) with rfl | hrun
      · obtain ⟨c, hc, hnumeral⟩ := hrun.exists_mem
        cases (hcs c hc).symm.trans hnumeral
      · exact ih hrun

/-- A text without blanks has a spelling exactly if it has no foreign characters and every longest
run of digits and points in it is a plain numeral. -/
theorem exists_spelling_iff {cs : List Char} (hblank : ∀ c ∈ cs, Text.isBlank c = false) :
    (∃ ls, Spelling cs ls) ↔ (∀ c ∈ cs, isLexical c = true ∨ c = '.') ∧
      ∀ run, MaximalRun isNumeralChar cs run → Decimal.IsPlain run := by
  constructor
  · rintro ⟨ls, h⟩
    refine ⟨fun c hc => ?_, fun _ => h.isPlain_of_maximalRun⟩
    exact (isExpressionChar_iff (hblank c hc)).mp (h.isExpressionChar c hc)
  · rintro ⟨hchars, hruns⟩
    refine exists_spelling (fun c hc => ⟨?_, hblank c hc⟩) hruns
    exact (isExpressionChar_iff (hblank c hc)).mpr (hchars c hc)

/-! ## The longest lexemes -/

/-- Lexemes taken off a text from the left, each the longest at the front of what is left, up to a
rest that begins with none. -/
inductive Munched : List Char → List Lexeme → List Char → Prop
  | stop {rest : List Char} (h : ∀ piece l, Lexeme.Spells piece l → ¬ piece <+: rest) :
      Munched rest [] rest
  | more {piece cs rest : List Char} {l : Lexeme} {ls : List Lexeme} (h : l.Spells piece)
      (hlongest : ∀ other m, Lexeme.Spells other m → other <+: piece ++ cs →
        other.length ≤ piece.length)
      (hrest : Munched cs ls rest) : Munched (piece ++ cs) (l :: ls) rest

/-- There is one way to take the longest lexemes. -/
theorem Munched.unique {cs rest rest' : List Char} {ls ls' : List Lexeme} (h : Munched cs ls rest)
    (h' : Munched cs ls' rest') : ls' = ls ∧ rest' = rest := by
  induction h generalizing ls' rest' with
  | stop hstop =>
    cases h' with
    | stop _ => exact ⟨rfl, rfl⟩
    | more h _ _ => exact absurd (List.prefix_append ..) (hstop _ _ h)
  | @more piece cs rest l ls h hlongest hrest ih =>
    generalize htext : piece ++ cs = text at h'
    cases h' with
    | stop hstop => exact absurd ⟨cs, htext⟩ (hstop _ _ h)
    | @more piece' cs' _ m ms h' hlongest' hrest' =>
      have hlength : piece.length = piece'.length :=
        le_antisymm (hlongest' piece l h ⟨cs, htext⟩) (hlongest piece' m h' ⟨cs', htext.symm⟩)
      obtain ⟨rfl, rfl⟩ := List.append_inj htext hlength
      obtain ⟨rfl, rfl⟩ := ih hrest'
      exact ⟨congrArg (· :: ms) (h'.unique h), rfl⟩

namespace Lexeme

lemma length_splitFraction_le (cs : List Char) : (splitFraction cs).2.length ≤ cs.length := by
  have parts := congrArg List.length (splitFraction_append cs)
  rw [List.length_append] at parts
  omega

/-- A plain numeral at the front of a text is no longer than the longest. -/
lemma length_splitNumeral_le {piece : List Char} (h : Decimal.IsPlain piece) (cs : List Char) :
    (splitNumeral (piece ++ cs)).2.length ≤ cs.length := by
  obtain ⟨whole, fraction, rfl, -, hwhole, rfl | ⟨ds, rfl, hds, hdigits⟩⟩ := h
  · rw [List.append_nil, splitNumeral, List.dropWhile_append_of_pos hwhole]
    exact (length_splitFraction_le _).trans (List.dropWhile_suffix _).length_le
  · have hpoint : ∀ c ∈ ('.' :: ds ++ cs).head?, c.isDigit = false := by
      rintro c ⟨⟩
      rfl
    have hdrop : (ds ++ cs).dropWhile Char.isDigit = cs.dropWhile Char.isDigit :=
      List.dropWhile_append_of_pos hdigits
    obtain ⟨d, ds, rfl⟩ := List.exists_cons_of_ne_nil hds
    rw [List.append_assoc, splitNumeral, dropWhile_append_of_head hwhole hpoint]
    rw [List.cons_append] at hdrop
    rw [List.cons_append, List.cons_append, splitFraction, hdrop,
      if_pos (hdigits d (List.mem_cons_self ..))]
    exact (List.dropWhile_suffix _).length_le

/-- Where a lexeme is at the front of a text, the scanner takes one that is no shorter. -/
lemma Spells.exists_next? {piece : List Char} {l : Lexeme} (h : Spells piece l)
    (cs : List Char) :
    ∃ m rest, next? (piece ++ cs) = some (m, rest) ∧ rest.length ≤ cs.length := by
  cases h with
  | numeral h =>
    have hlength := length_splitNumeral_le h cs
    obtain ⟨whole, fraction, rfl, hne, hwhole, -⟩ := h
    obtain ⟨c, whole, rfl⟩ := List.exists_cons_of_ne_nil hne
    exact ⟨.number (String.ofList (splitNumeral _).1), _, if_pos (hwhole c (List.mem_cons_self ..)),
      hlength⟩
  | word hne h =>
    have hlength : ((piece ++ cs).dropWhile Char.isAlpha).length ≤ cs.length := by
      rw [List.dropWhile_append_of_pos h]
      exact (List.dropWhile_suffix _).length_le
    obtain ⟨c, piece, rfl⟩ := List.exists_cons_of_ne_nil hne
    have halpha := h c (List.mem_cons_self ..)
    refine ⟨ofWord ((c :: piece ++ cs).takeWhile Char.isAlpha), _, ?_, hlength⟩
    rw [List.cons_append, next?, if_neg (by simp [(isAlpha_cases halpha).1]), if_pos halpha]
  | symbol h => exact ⟨l, cs, next?_symbol h cs, le_rfl⟩

end Lexeme

/-- The scanner fails where the taking of the longest lexemes ends. -/
theorem exists_munched {cs : List Char} {fault : Fault} (h : lexemes cs = .error fault) :
    ∃ ls rest, Munched cs ls rest ∧ rest ≠ [] ∧ Lexeme.next? rest = none ∧
      fault = Lexeme.stretchFault rest := by
  induction cs using lexemes.induct with
  | case1 cs l rest hnext hlt ih =>
    rw [lexemes_of_some hnext] at h
    obtain ⟨ls, last, hrest, hlast⟩ := ih (of_map_eq_error h)
    obtain ⟨piece, rfl, hpiece, -⟩ := Lexeme.spells_of_next? hnext
    refine ⟨l :: ls, last, .more hpiece ?_ hrest, hlast⟩
    rintro other m hother ⟨cs, hcs⟩
    obtain ⟨_, _, hnext', hlength⟩ := hother.exists_next? cs
    cases (hcs ▸ hnext').symm.trans hnext
    have hlengths := congrArg List.length hcs
    rw [List.length_append, List.length_append] at hlengths
    omega
  | case2 cs hnext hempty =>
    rw [lexemes_of_none hnext, if_pos hempty] at h
    cases h
  | case3 cs hnext hempty =>
    rw [lexemes_of_none hnext, if_neg hempty] at h
    cases h
    refine ⟨[], cs, .stop ?_, by simpa using hempty, hnext, rfl⟩
    rintro piece l hpiece ⟨rest, rfl⟩
    obtain ⟨_, _, hsome, -⟩ := hpiece.exists_next? rest
    cases hsome.symm.trans hnext

/-- The fault of a text that begins with no lexeme quotes all of it up to the next character that
could begin one. -/
lemma stretchFault_eq {cs : List Char} (hne : cs ≠ []) (hnext : Lexeme.next? cs = none) :
    ∃ stretch after, cs = stretch ++ after ∧ stretch ≠ [] ∧
      (∀ c ∈ stretch, isLexical c = false) ∧ (∀ c ∈ after.head?, isLexical c = true) ∧
      Lexeme.stretchFault cs = .lexical (if after = [] then
        .unrecognizedAtEnd (String.ofList stretch) else .unrecognized (String.ofList stretch)) := by
  refine ⟨cs.takeWhile fun c => !isLexical c, cs.dropWhile fun c => !isLexical c,
    List.takeWhile_append_dropWhile.symm, ?_, ?_, ?_, ?_⟩
  · obtain ⟨c, cs, rfl⟩ := List.exists_cons_of_ne_nil hne
    have hc : isLexical c = false := by
      rw [isLexical_eq_begins]
      exact Lexeme.next?_cons_eq_none_iff.mp hnext
    simp [hc]
  · intro c hc
    simpa using List.mem_takeWhile_imp hc
  · intro c hc
    simpa using head?_dropWhile _ _ c hc
  · simp only [Lexeme.stretchFault, isLexical_eq_begins, List.isEmpty_iff]
    split <;> rfl

/-! ## The scan -/

section Scan

variable {expression : String}

lemma exists_scan_iff :
    (∃ ts, scan expression = .ok ts) ↔
      ∃ ls, Spelling (Text.withoutBlanks expression.toList) ls := by
  constructor
  · rintro ⟨ts, h⟩
    obtain ⟨ls, hls, -⟩ := lexemes_of_scan h
    exact ⟨ls, lexemes_eq_ok_iff.mp hls⟩
  · rintro ⟨ls, hls⟩
    refine ⟨ls.map Token.ofLexeme, ?_⟩
    rw [scan_eq, lexemes_eq_ok_iff.mpr hls]
    rfl

/-- The tokens of a scan are the pieces of the text, and their texts are all of it. -/
lemma of_scan_eq_ok {ts : List Token} (h : scan expression = .ok ts) :
    ts = ((Text.withoutBlanks expression.toList).splitBy sameLexeme).map
        (fun piece => .ofLexeme (.ofPiece piece)) ∧
      ts.flatMap (fun t => t.text.toList) =
        (Text.withoutBlanks expression.toList).map Char.toLower := by
  obtain ⟨ls, hls, rfl⟩ := lexemes_of_scan h
  have hspelling := lexemes_eq_ok_iff.mp hls
  constructor
  · have hpieces := congrArg (List.map Token.ofLexeme) hspelling.splitBy
    rw [List.map_map] at hpieces
    exact hpieces.symm
  · rw [List.flatMap_map]
    exact hspelling.text_eq

/-- A scan that fails quotes the stretch with which the rest begins, after the longest lexemes have
been taken. -/
lemma of_scan_eq_error {fault : Fault} (h : scan expression = .error fault) :
    ∃ taken stretch after,
      (∀ ls rest, Munched (Text.withoutBlanks expression.toList) ls rest ↔
        ls = taken ∧ rest = stretch ++ after) ∧
        stretch ≠ [] ∧ (∀ c ∈ stretch, isLexical c = false) ∧
        (∀ c ∈ after.head?, isLexical c = true) ∧
        fault = .lexical (if after = [] then .unrecognizedAtEnd (String.ofList stretch)
          else .unrecognized (String.ofList stretch)) := by
  rw [scan_eq] at h
  obtain ⟨taken, rest, hmunched, hne, hnext, hfault⟩ := exists_munched (of_map_eq_error h)
  obtain ⟨stretch, after, rfl, hstretch, hforeign, hafter, hquote⟩ := stretchFault_eq hne hnext
  refine ⟨taken, stretch, after, fun ls rest => ⟨hmunched.unique, ?_⟩, hstretch, hforeign, hafter,
    hfault.trans hquote⟩
  rintro ⟨rfl, rfl⟩
  exact hmunched

end Scan

/-- What the scanner accepts, what it makes of it and what it quotes of the rest. -/
theorem scan_lexicon (expression : String) :
    let text := Text.withoutBlanks expression.toList
    ((∃ ts, scan expression = .ok ts) ↔
        (∀ c ∈ text, isLexical c = true ∨ c = '.') ∧
          ∀ run, MaximalRun isNumeralChar text run → Decimal.IsPlain run) ∧
      (∀ ts, scan expression = .ok ts →
        ts = (text.splitBy sameLexeme).map (fun piece => .ofLexeme (.ofPiece piece)) ∧
          ts.flatMap (fun t => t.text.toList) = text.map Char.toLower) ∧
      ∀ fault, scan expression = .error fault →
        fault.stage = .lexical ∧ fault.code = .invalidCharacter ∧
          ∃ taken stretch after,
            (∀ ls rest, Munched text ls rest ↔ ls = taken ∧ rest = stretch ++ after) ∧
              stretch ≠ [] ∧ (∀ c ∈ stretch, isLexical c = false) ∧
              (∀ c ∈ after.head?, isLexical c = true) ∧
              fault = .lexical (if after = [] then .unrecognizedAtEnd (String.ofList stretch)
                else .unrecognized (String.ofList stretch)) := by
  intro text
  have hblank : ∀ c ∈ text, Text.isBlank c = false := fun c hc =>
    Text.not_isBlank_of_mem_withoutBlanks hc
  refine ⟨exists_scan_iff.trans (exists_spelling_iff hblank), fun ts => of_scan_eq_ok, ?_⟩
  intro fault h
  obtain ⟨hstage, hcode⟩ := failsWith_scan expression fault h
  exact ⟨hstage, List.mem_singleton.mp hcode, of_scan_eq_error h⟩

/-- A point is a part of the numeral on both sides of it, or of no lexeme. -/
theorem scan_lexicon_points :
    [Token.number "3.14", .ofLexeme (.constant "pi")] =
        ((Text.withoutBlanks "3. 14PI".toList).splitBy sameLexeme).map
          (fun piece => .ofLexeme (.ofPiece piece)) ∧
      ∃ taken stretch after,
        (∀ ls rest, Munched (Text.withoutBlanks "2+ .#5".toList) ls rest ↔
          ls = taken ∧ rest = stretch ++ after) ∧
          LexicalFault.unrecognized ".#" = if after = [] then
            .unrecognizedAtEnd (String.ofList stretch) else .unrecognized (String.ofList stretch) := by
  have hscan : scan "3. 14PI" = .ok [.number "3.14", .ofLexeme (.constant "pi")] := by
    decide +kernel
  have hfault : scan "2+ .#5" = .error (.lexical (.unrecognized ".#")) := by decide +kernel
  obtain ⟨-, -, taken, stretch, after, hmunched, -, -, -, hquote⟩ :=
    (scan_lexicon "2+ .#5").2.2 _ hfault
  exact ⟨((scan_lexicon "3. 14PI").2.1 _ hscan).1, taken, stretch, after, hmunched,
    Fault.lexical.inj hquote⟩

end Calculator
