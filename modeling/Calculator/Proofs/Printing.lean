import Calculator.Proofs.SignGroup
import Calculator.Proofs.Spelling

/-!
# Printed tokens

Tokens that are printed with a space between each and the next are read back as they were
(`scan_printTokens`), although the scanner never sees the spaces.  Two things are needed: every
token is spelled by its own text, and no two neighbours would be one lexeme if nothing were between
them.  Both hold of what has been scanned, and both are kept when signs are written out, because a
parenthesis or an operator is a lexeme by itself and a zero is put in only between two of these.
-/

namespace Calculator

/-- A token that its own text is read as, when it stands alone. -/
def Token.AsRead (t : Token) : Prop :=
  t.arity = 1 ∧ t.lexeme.Spells t.text.toList

/-- Two tokens that stay apart when nothing is between them. -/
def Token.Apart (a b : Token) : Prop := a.lexeme.Apart b.lexeme

/-! ## Printing -/

/-- The spaces of printed tokens are blanks, which are taken out again. -/
lemma withoutBlanks_printTokens (ts : List Token) :
    Text.withoutBlanks (printTokens ts).toList =
      Text.withoutBlanks (ts.flatMap fun t => t.text.toList) := by
  induction ts with
  | nil => rfl
  | cons t ts ih =>
    cases ts with
    | nil => simp [printTokens]
    | cons u ts =>
      have hprint : printTokens (t :: u :: ts) = t.text ++ " " ++ printTokens (u :: ts) := by
        simp only [printTokens, List.map_cons, String.intercalate_cons_cons]
      have hspace : Text.withoutBlanks " ".toList = [] := rfl
      rw [hprint, List.flatMap_cons, String.toList_append, String.toList_append,
        Text.withoutBlanks_append, Text.withoutBlanks_append, hspace, List.append_nil, ih,
        Text.withoutBlanks_append]

/-- Tokens that stay apart are scanned as they were printed. -/
theorem scan_printTokens {ts : List Token} (hread : ∀ t ∈ ts, t.AsRead)
    (hchain : ts.IsChain Token.Apart) : scan (printTokens ts) = .ok ts := by
  have htokens : (ts.map Token.lexeme).map Token.ofLexeme = ts := by
    rw [List.map_map]
    refine (List.map_congr_left fun t ht => ?_).trans (List.map_id ts)
    obtain ⟨l, n⟩ := t
    obtain rfl : n = 1 := (hread _ ht).1
    rfl
  have htext : ts.flatMap (fun t => t.text.toList) =
      (ts.map Token.lexeme).flatMap fun l => l.text.toList := by
    rw [List.flatMap_map]
    rfl
  have hlexemes := lexemes_flatMap (List.forall_mem_map.mpr fun t ht => (hread t ht).2)
    ((List.isChain_map Token.lexeme).mpr hchain)
  rw [scan_eq, withoutBlanks_printTokens, htext, hlexemes]
  exact congrArg Except.ok htokens

/-! ## Scanned tokens -/

/-- What has been scanned is read by itself and stays apart. -/
lemma asRead_of_scan {expression : String} {ts : List Token} (h : scan expression = .ok ts) :
    (∀ t ∈ ts, t.AsRead) ∧ ts.IsChain Token.Apart := by
  obtain ⟨ls, hls, rfl⟩ := lexemes_of_scan h
  have hspelling := lexemes_eq_ok_iff.mp hls
  constructor
  · exact List.forall_mem_map.mpr fun l hl => ⟨rfl, hspelling.spells l hl⟩
  · exact (List.isChain_map Token.ofLexeme).mpr hspelling.isChain

lemma shape_of_isSign {t : Token} (h : t.isSign = true) : t.lexeme.shape = .symbol := by
  obtain ⟨l, n⟩ := t
  cases l with
  | operator symbol => rfl
  | _ => cases h

/-- Next to a parenthesis everything stays apart, and a zero stays apart from a sign. -/
lemma permits_apart : Permits Token.Apart where
  before_open _ h := h
  open_zero _ := rfl
  zero_sign t ht h := by
    have hsymbol : t.lexeme.shape = .symbol := shape_of_isSign ht
    cases h.trans hsymbol
  before_close _ h := h
  after_close _ _ := rfl

/-- The tokens that are put in are read by themselves. -/
lemma asRead_groupSigns {ts : List Token} (h : ∀ t ∈ ts, t.AsRead) :
    ∀ t ∈ groupSigns ts, t.AsRead := by
  have hzero : Decimal.IsPlain "0".toList :=
    ⟨['0'], [], rfl, List.cons_ne_nil _ _, by simp, .inl rfl⟩
  exact forall_mem_groupSignsFrom ⟨rfl, .symbol rfl⟩ ⟨rfl, .numeral hzero⟩ ⟨rfl, .symbol rfl⟩ _ _ h

/-- Writing out signs twice is writing them out once, and tokens that have been printed are read
back: those of a scan by another scan, and those whose signs have been written out by both the scan
and the whole of the tokenizer, which finds no sign left to write out. -/
theorem read_back_printTokens :
    (∀ ts : List Token, groupSigns (groupSigns ts) = groupSigns ts) ∧
      ∀ (expression : String) (scanned tokens : List Token),
        scan expression = .ok scanned → tokenize expression = .ok tokens →
          scan (printTokens scanned) = .ok scanned ∧
            scan (printTokens tokens) = .ok tokens ∧
            tokenize (printTokens tokens) = .ok tokens := by
  refine ⟨groupSigns_groupSigns, fun expression scanned tokens hscan htokenize => ?_⟩
  obtain ⟨hread, hchain⟩ := asRead_of_scan hscan
  obtain rfl : groupSigns scanned = tokens := by
    rw [tokenize, hscan] at htokenize
    exact Except.ok.inj htokenize
  have htokens : scan (printTokens (groupSigns scanned)) = .ok (groupSigns scanned) :=
    scan_printTokens (asRead_groupSigns hread)
      (permits_apart.isChain_groupSigns hchain fun _ _ _ => rfl)
  refine ⟨scan_printTokens hread hchain, htokens, ?_⟩
  rw [tokenize, htokens, Except.map, groupSigns_groupSigns]

/-- Neither a product without its sign nor a sign without its operand is in the way. -/
theorem read_back_printTokens_dangling :
    let scanned : List Token := [.unknown, .number "2.50", .operator "-", .openParen, .operator "-"]
    let tokens : List Token := [.unknown, .number "2.50", .operator "-", .openParen, .openParen,
      .number "0", .operator "-", .closeParen]
    groupSigns (groupSigns scanned) = groupSigns scanned ∧
      scan "X 2. 50 -(-" = .ok scanned ∧ printTokens scanned = "x 2.50 - ( -" ∧
      scan (printTokens scanned) = .ok scanned ∧ scan (printTokens tokens) = .ok tokens ∧
      tokenize (printTokens tokens) = .ok tokens := by
  intro scanned tokens
  have hscan : scan "X 2. 50 -(-" = .ok scanned := by decide +kernel
  exact ⟨read_back_printTokens.1 scanned, hscan, by decide +kernel,
    read_back_printTokens.2 "X 2. 50 -(-" scanned tokens hscan (by decide +kernel)⟩

end Calculator
