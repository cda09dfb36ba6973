import Calculator.Formula
import Calculator.Proofs.Compilation
import Calculator.Proofs.Parentheses
import Calculator.Proofs.Stages

/-!
# The look at the raw text

The look at the raw text never refuses what could be compiled (`isPlausible_of_compile`): what has
lexemes is not blank and holds no foreign character, and the parentheses of an expression pair up.
So a formula, which is compiled without that look, is none the worse for it.

The other way round, a text that has been looked at can still fail to be compiled, but not for its
parentheses and not for being empty.  The scan of such a text fails only where it meets a point that
belongs to no numeral: if every longest run of digits and points is a plain numeral, the text has a
spelling (`exists_spelling`).
-/

namespace Calculator

open Lexeme (isNumeralChar)

/-! ## Characters -/

lemma Lexeme.Spells.isExpressionChar {cs : List Char} {l : Lexeme} (h : Spells cs l) :
    ∀ c ∈ cs, isExpressionChar c = true := by
  intro c hc
  cases h with
  | numeral h =>
    have hnumeral := isNumeralChar_of_isPlain h c hc
    simp only [isNumeralChar, Bool.or_eq_true, decide_eq_true_eq] at hnumeral
    rcases hnumeral with hdigit | rfl
    · simp [Calculator.isExpressionChar, hdigit]
    · rfl
  | word _ h => simp [Calculator.isExpressionChar, h c hc]
  | symbol h =>
    obtain rfl := List.mem_singleton.mp hc
    have hmem := isSome_ofSymbol?_iff.mp (Option.isSome_of_eq_some h)
    simp only [List.mem_cons, List.not_mem_nil, or_false] at hmem
    rcases hmem with rfl | rfl | rfl | rfl | rfl | rfl | rfl | rfl | rfl <;> rfl

lemma Spelling.isExpressionChar {cs : List Char} {ls : List Lexeme} (h : Spelling cs ls) :
    ∀ c ∈ cs, isExpressionChar c = true := by
  induction h with
  | nil => nofun
  | cons h _ _ ih => exact List.forall_mem_append.mpr ⟨h.isExpressionChar, ih⟩

/-- A text with lexemes holds no foreign character. -/
lemma isExpressionChar_of_scan {expression : String} {ts : List Token}
    (h : scan expression = .ok ts) : ∀ c ∈ expression.toList, isExpressionChar c = true := by
  intro c hc
  obtain ⟨ls, hls, -⟩ := lexemes_of_scan h
  cases hblank : Text.isBlank c with
  | true => simp [isExpressionChar, hblank]
  | false =>
    have hmem : c ∈ Text.withoutBlanks expression.toList :=
      List.mem_filter.mpr ⟨hc, by simp [hblank]⟩
    exact (lexemes_eq_ok_iff.mp hls).isExpressionChar c hmem

/-- A character of an expression that is neither blank nor a part of a numeral or a word is a
symbol. -/
lemma exists_ofSymbol? {c : Char} (h : isExpressionChar c = true) (hblank : Text.isBlank c = false)
    (hshape : Lexeme.Shape.ofChar c = .symbol) : ∃ l, Lexeme.ofSymbol? c = some l := by
  have hnumeral : isNumeralChar c = false := Lexeme.Shape.ofChar_ne_numeral.mp (by simp [hshape])
  have halpha : c.isAlpha = false := Lexeme.Shape.ofChar_ne_word.mp (by simp [hshape])
  simp only [isNumeralChar, Bool.or_eq_false_iff, decide_eq_false_iff_not] at hnumeral
  apply Option.isSome_iff_exists.mp
  rw [Lexeme.isSome_ofSymbol?_iff]
  simpa [isExpressionChar, hblank, halpha, hnumeral] using h

/-! ## Runs -/

/-- A stretch of a text with characters of one kind, which goes on neither before nor after it. -/
def MaximalRun (p : Char → Bool) (cs run : List Char) : Prop :=
  ∃ before after, cs = before ++ run ++ after ∧ run ≠ [] ∧ (∀ c ∈ run, p c = true) ∧
    (∀ c ∈ before.getLast?, p c = false) ∧ ∀ c ∈ after.head?, p c = false

section Run

variable {p : Char → Bool} {cs l run : List Char}

/-- The front of a text. -/
lemma maximalRun_takeWhile {c : Char} (hc : p c = true) (cs : List Char) :
    MaximalRun p (c :: cs) ((c :: cs).takeWhile p) := by
  refine ⟨[], (c :: cs).dropWhile p, (List.takeWhile_append_dropWhile).symm, ?_,
    fun d hd => List.mem_takeWhile_imp hd, nofun, head?_dropWhile p _⟩
  rw [List.takeWhile_cons_of_pos hc]
  exact List.cons_ne_nil _ _

/-- More text before a run, to which it does not belong. -/
lemma MaximalRun.append (h : MaximalRun p cs run)
    (hl : (∀ c ∈ l, p c = false) ∨ ∀ c ∈ cs.head?, p c = false) : MaximalRun p (l ++ cs) run := by
  obtain ⟨before, after, rfl, hne, hrun, hbefore, hafter⟩ := h
  refine ⟨l ++ before, after, by simp, hne, hrun, ?_, hafter⟩
  rcases List.eq_nil_or_concat before with rfl | ⟨before, b, rfl⟩
  · intro c hc
    rw [List.append_nil] at hc
    rcases hl with hl | hl
    · exact hl c (List.mem_of_getLast? hc)
    · obtain ⟨d, run, rfl⟩ := List.exists_cons_of_ne_nil hne
      cases (hl d rfl).symm.trans (hrun d (List.mem_cons_self ..))
  · simpa [← List.append_assoc] using hbefore

end Run

/-! ## Texts that have a spelling -/

/-- The first lexeme of a text, if its first run of digits and points is a plain numeral. -/
lemma exists_spells {c : Char} {cs : List Char} (hc : isExpressionChar c = true)
    (hblank : Text.isBlank c = false)
    (hplain : isNumeralChar c = true → Decimal.IsPlain ((c :: cs).takeWhile isNumeralChar)) :
    ∃ piece rest l, c :: cs = piece ++ rest ∧ Lexeme.Spells piece l ∧
      ∀ d ∈ rest.head?, Lexeme.Shape.ofChar d = l.shape → l.shape = .symbol := by
  cases hshape : Lexeme.Shape.ofChar c with
  | numeral =>
    have hnumeral := Lexeme.Shape.ofChar_eq_numeral.mp hshape
    refine ⟨_, _, _, (List.takeWhile_append_dropWhile (p := isNumeralChar)).symm,
      .numeral (hplain hnumeral), fun d hd hsame => ?_⟩
    have hnot := head?_dropWhile isNumeralChar (c :: cs) d hd
    cases hnot.symm.trans (Lexeme.Shape.ofChar_eq_numeral.mp hsame)
  | word =>
    have halpha := Lexeme.Shape.ofChar_eq_word.mp hshape
    have hne : (c :: cs).takeWhile Char.isAlpha ≠ [] := by
      rw [List.takeWhile_cons_of_pos halpha]
      exact List.cons_ne_nil _ _
    refine ⟨_, _, _, (List.takeWhile_append_dropWhile (p := Char.isAlpha)).symm,
      .word hne fun d hd => List.mem_takeWhile_imp hd, fun d hd hsame => ?_⟩
    rw [Lexeme.shape_ofWord] at hsame
    have hnot := head?_dropWhile Char.isAlpha (c :: cs) d hd
    cases hnot.symm.trans (Lexeme.Shape.ofChar_eq_word.mp hsame)
  | symbol =>
    obtain ⟨l, hl⟩ := exists_ofSymbol? hc hblank hshape
    exact ⟨[c], cs, l, rfl, .symbol hl, fun _ _ _ => Lexeme.shape_of_ofSymbol? hl⟩

/-- No run of digits and points goes over the end of a lexeme. -/
lemma not_isNumeralChar_of_spells {piece rest : List Char} {l : Lexeme} (h : l.Spells piece)
    (hend : ∀ d ∈ rest.head?, Lexeme.Shape.ofChar d = l.shape → l.shape = .symbol) :
    (∀ d ∈ piece, isNumeralChar d = false) ∨ ∀ d ∈ rest.head?, isNumeralChar d = false := by
  by_cases hnumeral : l.shape = .numeral
  · refine .inr fun d hd => Lexeme.Shape.ofChar_ne_numeral.mp fun hshape => ?_
    cases hnumeral.symm.trans (hend d hd (hshape.trans hnumeral.symm))
  · refine .inl fun d hd => Lexeme.Shape.ofChar_ne_numeral.mp fun hshape => ?_
    exact hnumeral ((h.shape_eq d hd).symm.trans hshape)

/-- A text without blanks and foreign characters has a spelling, if every longest run of digits and
points in it is a plain numeral. -/
theorem exists_spelling {cs : List Char}
    (hchars : ∀ c ∈ cs, isExpressionChar c = true ∧ Text.isBlank c = false)
    (hruns : ∀ run, MaximalRun isNumeralChar cs run → Decimal.IsPlain run) :
    ∃ ls, Spelling cs ls := by
  induction hlength : cs.length using Nat.strong_induction_on generalizing cs with
  | _ n ih =>
    cases cs with
    | nil => exact ⟨[], .nil⟩
    | cons c cs =>
      obtain ⟨hc, hblank⟩ := hchars c (List.mem_cons_self ..)
      have hplain (hnumeral : isNumeralChar c = true) :
          Decimal.IsPlain ((c :: cs).takeWhile isNumeralChar) :=
        hruns _ (maximalRun_takeWhile hnumeral cs)
      obtain ⟨piece, rest, l, hcs, hpiece, hend⟩ := exists_spells hc hblank hplain
      rw [hcs] at hchars hruns hlength ⊢
      have hshort : rest.length < n := by
        have hpositive := List.length_pos_of_ne_nil hpiece.ne_nil
        rw [List.length_append] at hlength
        omega
      -- A run of the rest is one of the whole text, because the first lexeme has no part in it.
      have hapart := not_isNumeralChar_of_spells hpiece hend
      obtain ⟨ls, hls⟩ := ih _ hshort (fun d hd => hchars d (List.mem_append_right _ hd))
        (fun run hrun => hruns run (hrun.append hapart)) rfl
      exact ⟨l :: ls, .cons_of_head hpiece hend hls⟩

/-! ## Agreement -/

variable {expression : String}

/-- What a plausible text is. -/
lemma of_isPlausible (h : isPlausible expression = .ok true) :
    Text.isBlankText expression = false ∧
      (∀ c ∈ expression.toList, isExpressionChar c = true) ∧
      pairsUp 0 expression.toList = true := by
  unfold isPlausible at h
  split at h
  · cases h
  next hblank =>
  split at h
  · cases h
  next hfind =>
    refine ⟨Bool.eq_false_iff.mpr hblank, fun c hc => ?_, Except.ok.inj h⟩
    simpa using List.find?_eq_none.mp hfind c hc

lemma isPlausible_eq_ok (hblank : Text.isBlankText expression = false)
    (hchars : ∀ c ∈ expression.toList, isExpressionChar c = true)
    (hpairs : pairsUp 0 expression.toList = true) : isPlausible expression = .ok true := by
  have hfind : (expression.toList.find? fun c => !isExpressionChar c) = none :=
    List.find?_eq_none.mpr fun c hc => by simp [hchars c hc]
  rw [isPlausible, hblank, hfind, hpairs]
  rfl

/-- The tokens of a text are none exactly if the text is blank. -/
lemma isBlankText_iff_of_scan {ts : List Token} (h : scan expression = .ok ts) :
    Text.isBlankText expression = true ↔ ts = [] := by
  obtain ⟨ls, hls, rfl⟩ := lexemes_of_scan h
  rw [Text.isBlankText_iff, List.map_eq_nil_iff]
  have hspelling := lexemes_eq_ok_iff.mp hls
  constructor
  · intro hnil
    rw [hnil] at hls
    exact Except.ok.inj (hls.symm.trans (lexemes_of_none rfl))
  · rintro rfl
    generalize Text.withoutBlanks expression.toList = cs at hspelling
    cases hspelling
    rfl

/-- What is compiled is plausible as it stands. -/
theorem isPlausible_of_compile {program : List Token} (h : compile expression = .ok program) :
    isPlausible expression = .ok true := by
  obtain ⟨t, hscan, -, -⟩ := exists_fits_of_compile h
  have hne : t.yield ≠ [] := by
    intro hnil
    obtain ⟨a, w, hwritten, -⟩ := t.written_eq_cons
    rw [← groupSigns_yield, hnil] at hwritten
    cases hwritten
  refine isPlausible_eq_ok ?_ (isExpressionChar_of_scan hscan) ?_
  · rw [Bool.eq_false_iff, ne_eq, isBlankText_iff_of_scan hscan]
    exact hne
  · exact (pairsUp_iff hscan).mpr (depthAfter_yield t 0)

lemma checkText_of_compile {program : List Token} (h : compile expression = .ok program) :
    checkText expression = .ok () := by
  rw [checkText, bind_of_eq_ok (isPlausible_of_compile h)]
  rfl

/-- What is compiled has the value of its program. -/
lemma evaluate_of_compile {program : List Token} (h : compile expression = .ok program) :
    evaluate expression = run program := by
  rw [evaluate, bind_of_eq_ok (checkText_of_compile h), bind_of_eq_ok h]

/-- A plausible text that cannot be scanned has a run of digits and points that is no numeral. -/
lemma exists_maximalRun_of_tokenize {fault : Fault} (h : isPlausible expression = .ok true)
    (htokenize : tokenize expression = .error fault) :
    ∃ run, MaximalRun isNumeralChar (Text.withoutBlanks expression.toList) run ∧
      ¬ Decimal.IsPlain run := by
  by_contra hruns
  obtain ⟨-, hchars, -⟩ := of_isPlausible h
  have hclean : ∀ c ∈ Text.withoutBlanks expression.toList,
      isExpressionChar c = true ∧ Text.isBlank c = false := fun c hc =>
    ⟨hchars c (List.mem_filter.mp hc).1, Text.not_isBlank_of_mem_withoutBlanks hc⟩
  have hplain : ∀ run, MaximalRun isNumeralChar (Text.withoutBlanks expression.toList) run →
      Decimal.IsPlain run := fun run hrun => by_contra fun hnot => hruns ⟨run, hrun, hnot⟩
  obtain ⟨ls, hls⟩ := exists_spelling hclean hplain
  rw [tokenize, scan_eq, lexemes_eq_ok_iff.mpr hls] at htokenize
  cases htokenize

lemma groupSigns_ne_nil {ts : List Token} (h : ts ≠ []) : groupSigns ts ≠ [] := by
  obtain ⟨t, ts, rfl⟩ := List.exists_cons_of_ne_nil h
  rw [groupSigns, groupSignsFrom]
  split <;> exact List.cons_ne_nil _ _

/-- A plausible text that is not compiled cannot be scanned, or its tokens are not arranged as an
expression. -/
lemma fault_of_isPlausible {fault : Fault} (h : isPlausible expression = .ok true)
    (hcompile : compile expression = .error fault) :
    tokenize expression = .error fault ∨ fault.stage = .grammar ∧ fault.code ∈ ruleCodes := by
  obtain ⟨hblank, -, hpairs⟩ := of_isPlausible h
  rcases of_compile_eq_error hcompile with htokenize | ⟨ts, htokenize, hrest⟩
  · exact .inl htokenize
  obtain ⟨us, hscan, rfl⟩ := of_map_eq_ok htokenize
  rcases hrest with hcheck | hconvert
  · have hne : us ≠ [] := by
      rwa [Bool.eq_false_iff, ne_eq, isBlankText_iff_of_scan hscan] at hblank
    exact .inr (failsWith_checkArrangement (groupSigns_ne_nil hne) fault hcheck)
  · obtain ⟨hstage, hcode⟩ := failsWith_convert _ fault hconvert
    have hcount := depthAfter_groupSigns ((pairsUp_iff hscan).mp hpairs)
    have hbalanced : fault.code ≠ .unbalancedParentheses :=
      fun hunbalanced => depthAfter_of_convert hconvert hunbalanced hcount
    have hmalformed : fault.code = .malformedSyntax := by
      simpa [conversionCodes, hbalanced] using hcode
    exact .inr ⟨hstage, by simp [hmalformed, ruleCodes]⟩

/-- The look at the raw text and the compilation agree: what is compiled, and so every formula, is
plausible.  A plausible text that is not compiled fails neither for being empty nor for its
parentheses, and where the scan of it fails, a longest run of digits and points is no plain numeral.
-/
theorem isPlausible_agrees_with_compile (expression : String) :
    (∀ program, compile expression = .ok program → isPlausible expression = .ok true) ∧
      (∀ f, Formula.ofText expression = .ok f → isPlausible expression = .ok true) ∧
      (isPlausible expression = .ok true → ∀ fault, compile expression = .error fault →
        fault.code ≠ .unbalancedParentheses ∧ fault.code ≠ .emptyExpression ∧
          (fault.stage = .lexical →
            ∃ run, MaximalRun isNumeralChar (Text.withoutBlanks expression.toList) run ∧
              ¬ Decimal.IsPlain run)) := by
  refine ⟨fun _ => isPlausible_of_compile, ?_, ?_⟩
  · intro f hf
    obtain ⟨program, hprogram, -⟩ := of_bind_eq_ok hf
    exact isPlausible_of_compile hprogram
  · intro h fault hcompile
    rcases fault_of_isPlausible h hcompile with htokenize | ⟨hstage, hcode⟩
    · have hcode := List.mem_singleton.mp (failsWith_tokenize expression fault htokenize).2
      exact ⟨by simp [hcode], by simp [hcode], fun _ => exists_maximalRun_of_tokenize h htokenize⟩
    · refine ⟨?_, ?_, fun hlexical => ?_⟩
      · exact ne_of_mem_of_not_mem hcode (by decide)
      · exact ne_of_mem_of_not_mem hcode (by decide)
      · cases hlexical.symm.trans hstage

/-- A point that follows a whole numeral, after blanks have been taken out, belongs to none. -/
theorem isPlausible_agrees_with_compile_two_points :
    isPlausible " 2 * (-X + 1)" = .ok true ∧
      ∃ run, MaximalRun isNumeralChar "(1.2.3)".toList run ∧ ¬ Decimal.IsPlain run := by
  have hblanks : Text.withoutBlanks "(1. 2.3)".toList = "(1.2.3)".toList := by decide
  constructor
  · exact (isPlausible_agrees_with_compile " 2 * (-X + 1)").1
      [.number "2", .number "0", .unknown, .operator "-", .number "1", .operator "+",
        .operator "*"] (by decide +kernel)
  · rw [← hblanks]
    exact ((isPlausible_agrees_with_compile "(1. 2.3)").2.2 (by decide +kernel)
      (.lexical (.unrecognized ".")) (by decide +kernel)).2.2 rfl

end Calculator
