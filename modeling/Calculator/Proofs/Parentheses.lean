import Calculator.Expression
import Calculator.Proofs.Conversion
import Calculator.Proofs.SignGroup
import Calculator.Proofs.Spelling

/-!
# Parentheses that pair up

Parentheses are counted at three places, each in its own way: the look at the raw text counts
characters, the pass over the signs puts parentheses in and keeps a depth, and the conversion has
the open ones among the tokens that wait.  `depthAfter` is one count for all of them, over the
tokens.  The raw text and its tokens have the same count (`pairsUp_iff`).  Writing out signs leaves
the count as it was, whatever the tokens are (`depthAfter_groupSignsFrom`): every group that has
been opened is a parenthesis more, and there are never more of them than that.  The conversion is at
the depth of the count as long as it goes on (`depthAfter_of_readAll`), and it finds parentheses
that do not pair up only where the count does (`depthAfter_of_convert`).
-/

namespace Calculator

/-! ## The count -/

/-- How many parentheses are open after a token, if `d` of them are open before it; none if it
closes one that is not open. -/
def Token.depthAfter (t : Token) (d : Nat) : Option Nat :=
  match t.lexeme with
  | .openParen => some (d + 1)
  | .closeParen => if d = 0 then none else some (d - 1)
  | _ => some d

/-- How many parentheses are open after a sequence of tokens, if `d` of them are open before it. -/
def depthAfter (d : Nat) : List Token → Option Nat
  | [] => some d
  | t :: ts => (t.depthAfter d).bind fun d => depthAfter d ts

lemma depthAfter_append (d : Nat) (l r : List Token) :
    depthAfter d (l ++ r) = (depthAfter d l).bind fun d => depthAfter d r := by
  induction l generalizing d with
  | nil => rfl
  | cons t l ih =>
    rw [List.cons_append, depthAfter, depthAfter, Option.bind_assoc]
    congr 1
    funext d
    exact ih d

lemma depthAfter_append_of_eq {d m : Nat} {l : List Token} (h : depthAfter d l = some m)
    (r : List Token) : depthAfter d (l ++ r) = depthAfter m r := by
  rw [depthAfter_append, h, Option.bind_some]

lemma depthAfter_cons_of_eq {d m : Nat} {t : Token} (h : t.depthAfter d = some m)
    (ts : List Token) : depthAfter d (t :: ts) = depthAfter m ts := by
  rw [depthAfter, h, Option.bind_some]

/-- A token that is counted goes before others that are counted. -/
lemma of_depthAfter_cons {d m : Nat} {t : Token} {ts : List Token}
    (h : depthAfter d (t :: ts) = some m) :
    ∃ n, t.depthAfter d = some n ∧ depthAfter n ts = some m :=
  Option.bind_eq_some_iff.mp h

lemma depthAfter_replicate_closeParen {d n m : Nat} (h : d + n = m) (ts : List Token) :
    depthAfter m (List.replicate n .closeParen ++ ts) = depthAfter d ts := by
  subst h
  induction n with
  | zero => rfl
  | succ n ih =>
    have hclose : Token.closeParen.depthAfter (d + (n + 1)) = some (d + n) := rfl
    rw [List.replicate_succ, List.cons_append, depthAfter_cons_of_eq hclose, ih]

/-- A phrase closes the parentheses that it opens, and no others. -/
theorem depthAfter_yield {k : Phrase} (t : Tree k) (d : Nat) : depthAfter d t.yield = some d := by
  induction t generalizing d with
  | ofTerm t ih | ofSigned t ih | ofPower t ih | ofBase t ih | ofAtom t ih | last t ih => exact ih d
  | number text | constant name | unknown => rfl
  | sum l op r ihl ihr | product l op r ihl ihr | pow l r ihl ihr | more l r ihl ihr =>
    rw [Tree.yield, depthAfter_append_of_eq (ihl d)]
    exact ihr d
  | unary op u ih | signCall name op u ih => exact ih d
  | factorial a ih =>
    rw [Tree.yield, depthAfter_append_of_eq (ih d)]
    rfl
  | group e ih | call name e ih =>
    have he : depthAfter (d + 1) (e.yield ++ [.closeParen]) = some d :=
      depthAfter_append_of_eq (ih (d + 1)) _
    exact he

/-! ## The raw text -/

section Text

variable {cs rest : List Char} {ls : List Lexeme}

lemma pairsUp_cons {c : Char} (hopen : c ≠ '(') (hclose : c ≠ ')') (d : Nat) (cs : List Char) :
    pairsUp d (c :: cs) = pairsUp d cs := by
  rw [pairsUp.eq_def]
  simp [hopen, hclose]

lemma pairsUp_append (h : ∀ c ∈ cs, c ≠ '(' ∧ c ≠ ')') (d : Nat) (rest : List Char) :
    pairsUp d (cs ++ rest) = pairsUp d rest := by
  induction cs with
  | nil => rfl
  | cons c cs ih =>
    obtain ⟨hc, hcs⟩ := List.forall_mem_cons.mp h
    rw [List.cons_append, pairsUp_cons hc.1 hc.2, ih hcs]

/-- Blanks do not count. -/
lemma pairsUp_withoutBlanks (d : Nat) (cs : List Char) :
    pairsUp d (Text.withoutBlanks cs) = pairsUp d cs := by
  induction cs generalizing d with
  | nil => rfl
  | cons c cs ih =>
    cases hc : Text.isBlank c with
    | true =>
      have hopen : c ≠ '(' := by
        rintro rfl
        cases hc
      have hclose : c ≠ ')' := by
        rintro rfl
        cases hc
      have hskip : Text.withoutBlanks (c :: cs) = Text.withoutBlanks cs := by
        simp [Text.withoutBlanks, hc]
      rw [hskip, ih, pairsUp_cons hopen hclose]
    | false =>
      have hkeep : Text.withoutBlanks (c :: cs) = c :: Text.withoutBlanks cs := by
        simp [Text.withoutBlanks, hc]
      rw [hkeep]
      simp only [pairsUp, ih]

/-- A symbol counts as its character does. -/
lemma pairsUp_symbol {c : Char} {l : Lexeme} (h : Lexeme.ofSymbol? c = some l) (d : Nat)
    (rest : List Char) :
    pairsUp d (c :: rest) = true ↔
      ∃ m, (Token.ofLexeme l).depthAfter d = some m ∧ pairsUp m rest = true := by
  unfold Lexeme.ofSymbol? at h
  split at h
  next hc =>
    cases h
    simp [pairsUp, hc, Token.depthAfter, Token.ofLexeme]
  next hopen =>
  split at h
  next hc =>
    cases h
    cases d <;> simp [pairsUp, hc, Token.depthAfter, Token.ofLexeme]
  next hclose =>
  split at h
  · cases h
    simp [pairsUp, hopen, hclose, Token.depthAfter, Token.ofLexeme]
  split at h
  · cases h
    simp [pairsUp, hopen, hclose, Token.depthAfter, Token.ofLexeme]
  · cases h

lemma Token.depthAfter_of_shape {l : Lexeme} (h : l.shape ≠ .symbol) (d : Nat) :
    (Token.ofLexeme l).depthAfter d = some d := by
  cases l <;> first | rfl | exact absurd rfl h

/-- A lexeme counts as its characters do. -/
lemma Lexeme.Spells.pairsUp_iff {l : Lexeme} (h : Spells cs l) (d : Nat) (rest : List Char) :
    pairsUp d (cs ++ rest) = true ↔
      ∃ m, (Token.ofLexeme l).depthAfter d = some m ∧ pairsUp m rest = true := by
  by_cases hsymbol : l.shape = .symbol
  · cases h with
    | numeral _ => cases hsymbol
    | word _ _ => cases (shape_ofWord cs).symm.trans hsymbol
    | symbol h => exact pairsUp_symbol h d rest
  · have hparens : ∀ c ∈ cs, c ≠ '(' ∧ c ≠ ')' := by
      intro c hc
      have hshape := h.shape_eq c hc
      constructor
      · rintro rfl
        exact hsymbol hshape.symm
      · rintro rfl
        exact hsymbol hshape.symm
    rw [pairsUp_append hparens, Token.depthAfter_of_shape hsymbol]
    simp

/-- The parentheses of a text pair up exactly if those of its lexemes do. -/
lemma Spelling.pairsUp_iff (h : Spelling cs ls) (d : Nat) :
    pairsUp d cs = true ↔ depthAfter d (ls.map Token.ofLexeme) = some 0 := by
  induction h generalizing d with
  | nil => simp [pairsUp, depthAfter]
  | cons h _ _ ih =>
    rw [h.pairsUp_iff, List.map_cons, depthAfter, Option.bind_eq_some_iff]
    exact exists_congr fun m => and_congr_right fun _ => ih m

end Text

/-- The parentheses of a raw text pair up exactly if those of its tokens do. -/
theorem pairsUp_iff {expression : String} {ts : List Token} (h : scan expression = .ok ts) :
    pairsUp 0 expression.toList = true ↔ depthAfter 0 ts = some 0 := by
  obtain ⟨ls, hls, rfl⟩ := lexemes_of_scan h
  rw [← pairsUp_withoutBlanks]
  exact (lexemes_eq_ok_iff.mp hls).pairsUp_iff 0

/-! ## The signs -/

lemma Token.depthAfter_of_isSign {t : Token} (h : t.isSign = true) (d : Nat) :
    t.depthAfter d = some d := by
  obtain ⟨l, n⟩ := t
  cases l <;> first | rfl | cases h

/-- Groups that end are closed, each by a parenthesis of its own. -/
lemma Nesting.closeGroups_spec (r depth : Nat) (groups : List Nat)
    (h : r + groups.length = depth) :
    r + (closeGroups depth groups).2.groups.length = (closeGroups depth groups).2.depth ∧
      (closeGroups depth groups).2.depth + (closeGroups depth groups).1 = depth := by
  induction groups generalizing depth with
  | nil => exact ⟨h, rfl⟩
  | cons d groups ih =>
    rw [List.length_cons] at h
    unfold closeGroups
    split
    · obtain ⟨hgroups, hdepth⟩ := ih (depth - 1) (by omega)
      exact ⟨hgroups, by simp only; omega⟩
    · exact ⟨by simpa using h, rfl⟩

/-- A token that is kept counts for the text as for the text with its groups. -/
lemma Nesting.after_spec {r n : Nat} {s : Nesting} {t : Token} (hs : r + s.groups.length = s.depth)
    (ht : t.depthAfter r = some n) :
    t.depthAfter s.depth = some (s.after t).depth ∧
      n + (s.after t).groups.length = (s.after t).depth := by
  obtain ⟨l, arity⟩ := t
  cases l with
  | openParen =>
    cases ht
    exact ⟨rfl, by simp only [after]; omega⟩
  | closeParen =>
    simp only [Token.depthAfter] at ht ⊢
    split at ht
    · cases ht
    · cases ht
      exact ⟨by rw [if_neg (by omega)]; rfl, by simp only [after]; omega⟩
  | _ =>
    cases ht
    exact ⟨rfl, hs⟩

/-- Writing out signs leaves the count of parentheses as it was: at every place there are as many
more of them as there are groups around it. -/
theorem depthAfter_groupSignsFrom (prev : Option Token) {r m : Nat} {s : Nesting} {ts : List Token}
    (hs : r + s.groups.length = s.depth) (h : depthAfter r ts = some m) :
    depthAfter s.depth (groupSignsFrom prev s ts) = some m := by
  induction ts generalizing prev r s with
  | nil =>
    cases h
    have hclose := depthAfter_replicate_closeParen hs []
    rwa [List.append_nil] at hclose
  | cons t ts ih =>
    obtain ⟨n, ht, hts⟩ := of_depthAfter_cons h
    by_cases hsign : (t.isSign && isUnaryAfter prev) = true
    · obtain ⟨hsign, hprev⟩ := Bool.and_eq_true_iff.mp hsign
      have hgroup : r + s.openGroup.groups.length = s.openGroup.depth := by
        simp only [Nesting.openGroup, List.length_cons]
        omega
      have hkept (d : Nat) : t.depthAfter d = some d := Token.depthAfter_of_isSign hsign d
      obtain rfl : r = n := Option.some.inj ((hkept r).symm.trans ht)
      have hrest := ih (some t) hgroup hts
      rw [groupSignsFrom_sign hprev hsign]
      exact (depthAfter_cons_of_eq (hkept _) _).trans hrest
    obtain ⟨hafter, hinner⟩ := Nesting.after_spec hs ht
    cases hcompletes : t.completesOperand with
    | false =>
      rw [groupSignsFrom_cons (Bool.eq_false_iff.mpr hsign) hcompletes,
        depthAfter_cons_of_eq hafter]
      exact ih (some t) hinner hts
    | true =>
      rw [groupSignsFrom_operand hcompletes, depthAfter_cons_of_eq hafter, afterOperand]
      split
      · exact ih _ hinner hts
      · obtain ⟨hgroups, hdepth⟩ := Nesting.closeGroups_spec n _ _ hinner
        rw [depthAfter_replicate_closeParen hdepth]
        exact ih _ hgroups hts

theorem depthAfter_groupSigns {ts : List Token} {m : Nat} (h : depthAfter 0 ts = some m) :
    depthAfter 0 (groupSigns ts) = some m := by
  have hstart : 0 + Nesting.outside.groups.length = Nesting.outside.depth := rfl
  exact depthAfter_groupSignsFrom none hstart h

/-! ## The conversion -/

namespace Conversion

variable {c d : Conversion} {t : Token} {fault : Fault}

/-- How many parentheses are open. -/
def depth (c : Conversion) : Nat := c.waiting.countP Token.isOpenParen

lemma depth_release {q : Token → Bool} (hq : ∀ a, q a = true → a.isOpenParen = false) :
    (c.release q).depth = c.depth :=
  countP_dropWhile hq c.waiting

lemma depth_releaseToParen : c.releaseToParen.depth = c.depth :=
  depth_release (by simp)

lemma depth_hold (ht : t.isOpenParen = false) : (c.hold t).depth = c.depth := by
  simp [depth, hold, ht]

lemma depth_onOperator (ht : t.isOpenParen = false) (symbol : String) :
    (c.onOperator t symbol).depth = c.depth := by
  unfold onOperator
  split
  · exact depth_hold ht
  · rw [depth_hold ht]
    exact depth_release fun a ha =>
      Token.not_isOpenParen_of_isOperator (Bool.and_eq_true_iff.mp ha).1

lemma depth_onSeparator (h : c.onSeparator = .ok d) : d.depth = c.depth := by
  obtain ⟨arguments, frames, -, rfl⟩ := of_onSeparator h
  exact depth_releaseToParen

lemma depth_releaseFunction (f : Option Frame) : (c.releaseFunction f).depth = c.depth := by
  rcases c.releaseFunction_cases f with ⟨-, hsame⟩ | ⟨top, waiting, hw, htop, hrelease⟩
  · rw [hsame]
  · have hopen := Token.not_isOpenParen_of_isFunction htop
    simp [hrelease, depth, hw, hopen]

/-- A parenthesis is closed if one is open. -/
lemma depth_of_onCloseParen (h : c.onCloseParen = .ok d) : c.depth = d.depth + 1 := by
  obtain ⟨top, waiting, hw, htop, rfl⟩ := of_onCloseParen h
  rw [← depth_releaseToParen, depth_releaseFunction, depth, hw, List.countP_cons_of_pos htop]
  rfl

lemma depth_of_onCloseParen_eq_error (h : c.onCloseParen = .error fault) : c.depth = 0 := by
  rw [← depth_releaseToParen]
  simp only [onCloseParen] at h
  split at h
  next hw => rw [depth, hw, List.countP_nil]
  · cases h

/-- A token that is read leaves as many parentheses open as are counted. -/
lemma depthAfter_of_read (h : c.read t = .ok d) : t.depthAfter c.depth = some d.depth := by
  obtain ⟨l, n⟩ := t
  cases l with
  | openParen =>
    cases h
    simp [Token.depthAfter, depth, onOpenParen, Token.isOpenParen]
  | closeParen =>
    have hclose := depth_of_onCloseParen h
    simp [Token.depthAfter, hclose]
  | operator symbol =>
    cases h
    rw [depth_onOperator rfl]
    rfl
  | separator =>
    rw [depth_onSeparator h]
    rfl
  | function name =>
    cases h
    rw [depth_hold rfl]
    rfl
  | _ =>
    cases h
    rfl

/-- Reading finds nothing unbalanced but a parenthesis that closes none. -/
lemma depthAfter_of_read_eq_error (h : c.read t = .error fault)
    (hcode : fault.code = .unbalancedParentheses) : t.depthAfter c.depth = none := by
  obtain ⟨l, n⟩ := t
  cases l with
  | closeParen =>
    have hdepth := depth_of_onCloseParen_eq_error h
    simp [Token.depthAfter, hdepth]
  | separator =>
    simp only [read, onSeparator] at h
    split at h
    · split at h
      · cases h
        cases hcode
      · cases h
    · cases h
      cases hcode
  | _ => cases h

theorem depthAfter_of_readAll {ts : List Token} (h : c.readAll ts = .ok d) :
    depthAfter c.depth ts = some d.depth := by
  induction ts generalizing c with
  | nil =>
    cases h
    rfl
  | cons t ts ih =>
    obtain ⟨e, hread, hrest⟩ := of_bind_eq_ok h
    rw [depthAfter_cons_of_eq (depthAfter_of_read hread)]
    exact ih hrest

lemma depthAfter_of_readAll_eq_error {ts : List Token} (h : c.readAll ts = .error fault)
    (hcode : fault.code = .unbalancedParentheses) : depthAfter c.depth ts = none := by
  induction ts generalizing c with
  | nil => cases h
  | cons t ts ih =>
    rcases of_bind_eq_error h with hread | ⟨e, hread, hrest⟩
    · rw [depthAfter, depthAfter_of_read_eq_error hread hcode, Option.bind_none]
    · rw [depthAfter_cons_of_eq (depthAfter_of_read hread)]
      exact ih hrest

end Conversion

/-- The conversion finds parentheses that do not pair up only where they do not. -/
theorem depthAfter_of_convert {ts : List Token} {fault : Fault} (h : convert ts = .error fault)
    (hcode : fault.code = .unbalancedParentheses) : depthAfter 0 ts ≠ some 0 := by
  rcases of_bind_eq_error h with hread | ⟨c, hread, hfinish⟩
  · have hcount : depthAfter 0 ts = none :=
      Conversion.depthAfter_of_readAll_eq_error (c := .start) hread hcode
    rw [hcount]
    nofun
  · have hcount : depthAfter 0 ts = some c.depth :=
      Conversion.depthAfter_of_readAll (c := .start) hread
    unfold Conversion.finish at hfinish
    split at hfinish
    next hopen =>
      have hdepth : 0 < c.depth := by
        rw [Conversion.depth, List.countP_pos_iff]
        simpa using hopen
      rw [hcount, ne_eq, Option.some.injEq]
      omega
    · cases hfinish

end Calculator
