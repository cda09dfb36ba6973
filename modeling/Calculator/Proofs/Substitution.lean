import Calculator.Proofs.Binary64
import Calculator.Proofs.Plausible

/-!
# Substitution in the text

A formula puts a value in the place of the unknown after it has been compiled.  The value can be put
there before, too: the tokens of the expression are written one after the other, and in the place of
every unknown the digits of the value in parentheses.  The new text has the program that the formula
runs, and so it has the same value or the same fault (`compile_substituteText`).

On the way the expression goes from one parse tree to another (`Tree.fill`).  Each unknown becomes a
parenthesized number, which stands wherever the bare unknown may stand: no lexeme touches it that
could be taken for a part of it, and every neighbour that is accepted beside the unknown is accepted
beside a parenthesis.  The listing of the tree has the number where the unknown was
(`listing_fill`), and nothing else in it changes.
-/

namespace Calculator

/-! ## In the place of the unknown -/

/-- The tokens in the place of a token, when the unknown is this number in parentheses. -/
def Token.fill (numeral : String) (t : Token) : List Token :=
  if t.isUnknown then [.openParen, .number numeral, .closeParen] else [t]

/-- The phrase that a phrase becomes: no atom is the bare unknown. -/
def Phrase.filled : Phrase → Phrase
  | .atom _ => .atom false
  | k => k

/-- The tree with a number in parentheses in the place of the unknown. -/
def Tree.fill (numeral : String) : {k : Phrase} → Tree k → Tree k.filled
  | _, .ofTerm t => .ofTerm (t.fill numeral)
  | _, .sum l op r => .sum (l.fill numeral) op (r.fill numeral)
  | _, .ofSigned u => .ofSigned (u.fill numeral)
  | _, .product l op r => .product (l.fill numeral) op (r.fill numeral)
  | _, .ofPower p => .ofPower (p.fill numeral)
  | _, .unary op u => .unary op (u.fill numeral)
  | _, .ofBase b => .ofBase (b.fill numeral)
  | _, .pow b u => .pow (b.fill numeral) (u.fill numeral)
  | _, .signCall name op u => .signCall name op (u.fill numeral)
  | _, .ofAtom a => .ofAtom (a.fill numeral)
  | _, .factorial a => .factorial (a.fill numeral)
  | _, .number text => .number text
  | _, .constant name => .constant name
  | _, .unknown => .group (.ofTerm (.ofSigned (.ofPower (.ofBase (.ofAtom (.number numeral))))))
  | _, .group e => .group (e.fill numeral)
  | _, .call name args => .call name (args.fill numeral)
  | _, .last e => .last (e.fill numeral)
  | _, .more e args => .more (e.fill numeral) (args.fill numeral)

namespace Tree

variable (numeral : String) {k : Phrase}

theorem yield_fill (t : Tree k) :
    (t.fill numeral).yield = t.yield.flatMap (Token.fill numeral) := by
  induction t with
  | ofTerm t ih | ofSigned t ih | ofPower t ih | ofBase t ih | ofAtom t ih | last t ih => exact ih
  | number text | constant name | unknown => rfl
  | sum l op r ihl ihr | product l op r ihl ihr | pow l r ihl ihr | more l r ihl ihr =>
    rw [yield, List.flatMap_append, List.flatMap_cons, ← ihl, ← ihr]
    rfl
  | unary op u ih | signCall name op u ih =>
    simp only [yield, List.flatMap_cons, ← ih]
    rfl
  | factorial a ih =>
    rw [yield, List.flatMap_append, ← ih]
    rfl
  | group e ih | call name e ih =>
    simp only [yield, List.flatMap_append, List.flatMap_cons, ← ih]
    rfl

theorem written_fill (t : Tree k) :
    (t.fill numeral).written = t.written.flatMap (Token.fill numeral) := by
  induction t with
  | ofTerm t ih | ofSigned t ih | ofPower t ih | ofBase t ih | ofAtom t ih | last t ih => exact ih
  | number text | constant name | unknown => rfl
  | sum l op r ihl ihr | product l op r ihl ihr | pow l r ihl ihr | more l r ihl ihr =>
    rw [written, List.flatMap_append, List.flatMap_cons, ← ihl, ← ihr]
    rfl
  | factorial a ih =>
    rw [written, List.flatMap_append, ← ih]
    rfl
  | unary op u ih | signCall name op u ih | group e ih | call name e ih =>
    simp only [written, List.flatMap_append, List.flatMap_cons, ← ih]
    rfl

lemma separators_fill (t : Tree k) : (t.fill numeral).separators = t.separators := by
  induction t with
  | more e args _ ih => exact congrArg (· + 1) ih
  | _ => rfl

/-- The number stands in the listing where the unknown stood. -/
theorem listing_fill (t : Tree k) : (t.fill numeral).listing =
    t.listing.map fun a => if a.isUnknown then .number numeral else a := by
  induction t with
  | ofTerm t ih | ofSigned t ih | ofPower t ih | ofBase t ih | ofAtom t ih | group t ih
  | last t ih =>
    exact ih
  | number text | constant name | unknown => rfl
  | sum l op r ihl ihr | product l op r ihl ihr | pow l r ihl ihr =>
    rw [listing, List.map_append, List.map_append, ← ihl, ← ihr]
    rfl
  | more l r ihl ihr =>
    rw [listing, List.map_append, ← ihl, ← ihr]
    rfl
  | factorial a ih =>
    rw [listing, List.map_append, ← ih]
    rfl
  | unary op u ih | signCall name op u ih =>
    simp only [listing, List.map_append, List.map_cons, ← ih]
    rfl
  | call name args ih =>
    have harity : Tree.arity (args.fill numeral) = args.arity :=
      congrArg (· + 1) (args.separators_fill numeral)
    rw [listing, List.map_append, ← ih, ← harity]
    rfl

end Tree

/-! ## Neighbours -/

/-- Neighbours in a sequence each member of which has become a piece. -/
lemma isChain_flatMap {α β : Type} {R : α → α → Prop} {S : β → β → Prop} {f : α → List β}
    {l : List α} (hne : ∀ a, f a ≠ []) (hpiece : ∀ a, (f a).IsChain S)
    (hjoin : ∀ a b, R a b → ∀ x ∈ (f a).getLast?, ∀ y ∈ (f b).head?, S x y) (h : l.IsChain R) :
    (l.flatMap f).IsChain S := by
  have hnil : [] ∉ l.map f := by
    intro hmem
    obtain ⟨a, -, ha⟩ := List.mem_map.mp hmem
    exact hne a ha
  rw [List.flatMap_def, List.isChain_flatten hnil, List.isChain_map]
  exact ⟨List.forall_mem_map.mpr fun a _ => hpiece a, h.imp hjoin⟩

namespace Token

variable {a b : Token}

lemma fill_ne_nil (numeral : String) (a : Token) : a.fill numeral ≠ [] := by
  unfold fill
  split <;> exact List.cons_ne_nil _ _

lemma isChain_fill (numeral : String) (a : Token) : (a.fill numeral).IsChain Fits := by
  unfold fill
  split
  · exact .cons_cons ⟨rfl, rfl, rfl⟩ (.cons_cons ⟨rfl, rfl, rfl⟩ (.singleton _))
  · exact .singleton _

/-- What is accepted after the unknown is accepted after a parenthesis. -/
lemma fits_of_isUnknown_left (ha : a.isUnknown = true) (h : a.Fits b) : Fits .closeParen b := by
  have hcompletes : a.completesOperand = true := by
    obtain ⟨l, n⟩ := a
    cases l <;> first | rfl | cases ha
  have hstart := not_startsOperand_of_meets hcompletes h.1
  refine ⟨?_, rfl, rfl⟩
  simp [meets, closeParen, ofLexeme, completesOperand, endsOperand, hstart]

/-- What is accepted before the unknown is accepted before a parenthesis. -/
lemma fits_of_isUnknown_right (hb : b.isUnknown = true) (h : a.Fits b) : Fits a .openParen := by
  have hkind : b.startsOperand = true ∧ b.isOpenParen = false := by
    obtain ⟨l, n⟩ := b
    cases l <;> first | exact ⟨rfl, rfl⟩ | cases hb
  have hmeets := h.1
  have hcompletes : a.completesOperand = false := by
    by_contra ha
    cases hkind.1.symm.trans (not_startsOperand_of_meets (eq_true_of_ne_false ha) hmeets)
  have hfunction : a.isFunction = false := by
    by_contra ha
    simp [meets, hcompletes, ha, hkind.2] at hmeets
  exact ⟨meets_of_startsOperand hcompletes hfunction rfl, Bool.and_false _, Bool.and_false _⟩

/-- The pieces of accepted neighbours are accepted beside each other. -/
lemma fits_fill (numeral : String) (h : a.Fits b) :
    ∀ x ∈ (a.fill numeral).getLast?, ∀ y ∈ (b.fill numeral).head?, x.Fits y := by
  have hleft : ∀ x ∈ (a.fill numeral).getLast?, x.Fits b := by
    intro x hx
    unfold fill at hx
    split at hx
    next ha =>
      cases hx
      exact fits_of_isUnknown_left ha h
    · cases hx
      exact h
  intro x hx y hy
  unfold fill at hy
  split at hy
  next hb =>
    cases hy
    exact fits_of_isUnknown_right hb (hleft x hx)
  · cases hy
    exact hleft x hx

end Token

/-! ## The new text -/

/-- The tokens written one after the other, with a numeral in parentheses in the place of the
unknown. -/
def substituteText (numeral : String) (ts : List Token) : String :=
  String.join (ts.map fun t => if t.isUnknown then "(" ++ numeral ++ ")" else t.text)

namespace Lexeme

/-- The lexemes in the place of a lexeme, when the unknown is this number in parentheses. -/
def fill (numeral : String) : Lexeme → List Lexeme
  | .unknown => [.openParen, .number numeral, .closeParen]
  | l => [l]

variable (numeral : String) (l : Lexeme)

lemma map_ofLexeme_fill :
    (l.fill numeral).map Token.ofLexeme = (Token.ofLexeme l).fill numeral := by
  cases l <;> rfl

lemma text_fill : (l.fill numeral).flatMap (fun m => m.text.toList) =
    (if (Token.ofLexeme l).isUnknown then "(" ++ numeral ++ ")"
      else (Token.ofLexeme l).text).toList := by
  cases l with
  | unknown => simp [fill, text, Token.isUnknown, Token.ofLexeme]
  | _ => simp [fill, Token.isUnknown, Token.text, Token.ofLexeme]

lemma fill_ne_nil : l.fill numeral ≠ [] := by
  cases l <;> exact List.cons_ne_nil _ _

lemma isChain_apart_fill : (l.fill numeral).IsChain Apart := by
  cases l with
  | unknown => exact .cons_cons nofun (.cons_cons nofun (.singleton _))
  | _ => exact .singleton _

/-- A parenthesis stays apart from every lexeme. -/
lemma apart_fill {l m : Lexeme} (h : l.Apart m) :
    ∀ x ∈ (l.fill numeral).getLast?, ∀ y ∈ (m.fill numeral).head?, x.Apart y := by
  have hleft : ∀ x ∈ (l.fill numeral).getLast?, x.Apart m := by
    cases l with
    | unknown =>
      rintro x ⟨⟩ _
      rfl
    | _ =>
      rintro x ⟨⟩
      exact h
  intro x hx y hy
  cases m with
  | unknown =>
    cases hy
    exact fun hshape => hshape
  | _ =>
    cases hy
    exact hleft x hx

lemma spells_fill {numeral : String} (hplain : Decimal.IsPlain numeral.toList) {l : Lexeme}
    (h : l.Spells l.text.toList) : ∀ m ∈ l.fill numeral, m.Spells m.text.toList := by
  cases l with
  | unknown =>
    intro m hm
    simp only [fill, List.mem_cons, List.not_mem_nil, or_false] at hm
    rcases hm with rfl | rfl | rfl
    · exact .symbol rfl
    · have hnumeral := Spells.numeral hplain
      rwa [String.ofList_toList] at hnumeral
    · exact .symbol rfl
  | _ =>
    intro m hm
    obtain rfl := List.mem_singleton.mp hm
    exact h

end Lexeme

/-- The scan of the new text. -/
theorem scan_substituteText {expression numeral : String} {ts : List Token}
    (hplain : Decimal.IsPlain numeral.toList) (h : scan expression = .ok ts) :
    scan (substituteText numeral ts) = .ok (ts.flatMap (Token.fill numeral)) := by
  obtain ⟨ls, hls, rfl⟩ := lexemes_of_scan h
  have hspelling := lexemes_eq_ok_iff.mp hls
  have htext : (substituteText numeral (ls.map Token.ofLexeme)).toList =
      (ls.flatMap (Lexeme.fill numeral)).flatMap fun l => l.text.toList := by
    rw [substituteText, String.toList_join, List.map_map, List.flatMap_map, List.flatMap_assoc]
    simp only [Lexeme.text_fill, Function.comp_apply]
  have htokens : (ls.flatMap (Lexeme.fill numeral)).map Token.ofLexeme =
      (ls.map Token.ofLexeme).flatMap (Token.fill numeral) := by
    rw [List.map_flatMap, List.flatMap_map]
    simp only [Lexeme.map_ofLexeme_fill]
  have hspells : ∀ l ∈ ls.flatMap (Lexeme.fill numeral), l.Spells l.text.toList := by
    intro m hm
    obtain ⟨l, hl, hml⟩ := List.mem_flatMap.mp hm
    exact Lexeme.spells_fill hplain (hspelling.spells l hl) m hml
  have hchain : (ls.flatMap (Lexeme.fill numeral)).IsChain Lexeme.Apart :=
    isChain_flatMap (Lexeme.fill_ne_nil numeral) (Lexeme.isChain_apart_fill numeral)
      (fun _ _ => Lexeme.apart_fill numeral) hspelling.isChain
  rw [scan_eq, htext, lexemes_flatMap hspells hchain, ← htokens]
  rfl

/-! ## Formulas -/

/-- A tree with accepted neighbours keeps them when the unknown becomes a number. -/
lemma Tree.isChain_fill {k : Phrase} (numeral : String) (t : Tree k)
    (h : (.openParen :: t.written).IsChain Token.Fits) :
    (.openParen :: (t.fill numeral).written).IsChain Token.Fits := by
  have hchain : ((.openParen :: t.written).flatMap (Token.fill numeral)).IsChain Token.Fits :=
    isChain_flatMap (Token.fill_ne_nil numeral) (Token.isChain_fill numeral)
      (fun _ _ => Token.fits_fill numeral) h
  rw [written_fill]
  exact hchain

/-- A formula at a finite value without a minus: the text with the value in the place of the unknown
is compiled to the program that the formula runs, and has its value or its fault. -/
theorem compile_substituteText {expression : String} {f : Formula} {x : Float}
    (hf : Formula.ofText expression = .ok f) (hfinite : x.isFinite = true) (hle : 0.0 ≤ x)
    (hne : x ≠ -0.0) :
    ∃ ts, scan expression = .ok ts ∧
      compile (substituteText (Decimal.Layout.bare.write x) ts) =
        .ok (f.program.map (Formula.substitute x)) ∧
      f.value x = evaluate (substituteText (Decimal.Layout.bare.write x) ts) := by
  obtain ⟨program, hprogram, hformula⟩ := of_bind_eq_ok hf
  cases hformula
  obtain ⟨t, hscan, rfl, hfits⟩ := exists_fits_of_compile hprogram
  obtain ⟨mantissa, exponent, hexact⟩ := Binary64.exists_ofFloat_eq_finite hfinite hle hne
  have hplain := Decimal.isPlain_write hexact
  let filled : Tree .expression := t.fill (Decimal.Layout.bare.write x)
  have hnew : scan (substituteText (Decimal.Layout.bare.write x) t.yield) = .ok filled.yield := by
    rw [scan_substituteText hplain hscan, ← t.yield_fill]
    rfl
  have hcompile := compile_of_fits filled hnew (t.isChain_fill _ hfits)
  have hlisting : filled.listing = t.listing.map (Formula.substitute x) := t.listing_fill _
  rw [hlisting] at hcompile
  exact ⟨t.yield, hscan, hcompile, (evaluate_of_compile hcompile).symm⟩

/-- The formula `-X^2 + mean(x, 1)`. -/
def signedSquareAndMean : Formula where
  source := "-X^2 + mean(x, 1)"
  program := [.number "0", .unknown, .number "2", .operator "^", .operator "-", .unknown,
    .number "1", (Token.function "mean").withArity 2, .operator "+"]

theorem compile_substituteText_signed_square :
    Formula.ofText "-X^2 + mean(x, 1)" = .ok signedSquareAndMean ∧
      compile "-(2.5)^2+mean((2.5),1)" =
        .ok (signedSquareAndMean.program.map (Formula.substitute 2.5)) ∧
      signedSquareAndMean.value 2.5 = evaluate "-(2.5)^2+mean((2.5),1)" := by
  have hformula : Formula.ofText "-X^2 + mean(x, 1)" = .ok signedSquareAndMean := by
    decide +kernel
  obtain ⟨ts, hscan, hcompile, hvalue⟩ :=
    compile_substituteText (x := 2.5) hformula (by decide) (by decide) (by decide)
  have htokens : scan "-X^2 + mean(x, 1)" = .ok [.operator "-", .unknown, .operator "^",
      .number "2", .operator "+", .function "mean", .openParen, .unknown, .separator,
      .number "1", .closeParen] := by decide +kernel
  cases htokens.symm.trans hscan
  exact ⟨hformula, hcompile, hvalue⟩

end Calculator
