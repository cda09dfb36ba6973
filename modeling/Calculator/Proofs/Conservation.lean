import Calculator.Expression
import Calculator.Proofs.Conversion
import Mathlib.Data.List.Perm.Basic

/-!
# Conservation of tokens

The conversion loses no token and puts none in, whatever tokens it is given: at any time what is out
and what waits, the open parentheses apart, is what has been read, parentheses and separators apart
(`perm_of_readAll`).  Tokens change their order and functions their argument count, so what is kept
are the lexemes, in some order.  A conversion that is finished is out as a whole
(`perm_of_convert`).

Tokens that stand for a value keep their order among themselves, because none of them ever waits
(`values_of_readAll`).
-/

namespace Calculator

/-- Whether a lexeme only says how others belong together. -/
def Lexeme.isPunctuation : Lexeme → Bool
  | .openParen | .closeParen | .separator => true
  | _ => false

/-- The lexemes of tokens without parentheses and separators. -/
def content (ts : List Token) : List Lexeme :=
  (ts.map Token.lexeme).filter fun l => !l.isPunctuation

/-- Whether a token stands for a value by itself: a number, a constant or the unknown. -/
def Token.isValue (t : Token) : Bool :=
  match t.lexeme with
  | .number _ | .constant _ | .unknown => true
  | _ => false

lemma content_cons (t : Token) (ts : List Token) : content (t :: ts) = content [t] ++ content ts :=
  List.filter_append [t.lexeme] (ts.map Token.lexeme)

namespace Conversion

variable {c d : Conversion} {t : Token} {ts : List Token}

/-! ## Lexemes -/

/-- The lexemes that are out or wait, the open parentheses apart. -/
def kept (c : Conversion) : List Lexeme :=
  (c.output ++ c.waiting.filter fun t => !t.isOpenParen).map Token.lexeme

/-- Letting out tokens that wait keeps them. -/
lemma perm_release {q : Token → Bool} (hq : ∀ a, q a = true → a.isOpenParen = false) :
    (c.release q).kept.Perm c.kept := by
  have hfront : (c.waiting.takeWhile q).filter (fun t => !t.isOpenParen) =
      c.waiting.takeWhile q := by
    refine List.filter_eq_self.mpr fun a ha => ?_
    simp [hq a (List.mem_takeWhile_imp ha)]
  have hsplit : c.waiting.filter (fun t => !t.isOpenParen) =
      c.waiting.takeWhile q ++ (c.waiting.dropWhile q).filter fun t => !t.isOpenParen := by
    conv_lhs => rw [← List.takeWhile_append_dropWhile (p := q) (l := c.waiting)]
    rw [List.filter_append, hfront]
  have hswap : ((c.waiting.takeWhile q).reverse ++ c.output).Perm
      (c.output ++ c.waiting.takeWhile q) :=
    List.perm_append_comm.trans ((List.reverse_perm _).append_left _)
  apply List.Perm.map
  rw [hsplit, ← List.append_assoc]
  exact hswap.append_right _

lemma perm_releaseToParen : c.releaseToParen.kept.Perm c.kept :=
  perm_release (by simp)

lemma perm_hold (ht : t.isOpenParen = false) : (c.hold t).kept.Perm (t.lexeme :: c.kept) := by
  have hfilter : (t :: c.waiting).filter (fun t => !t.isOpenParen) =
      t :: c.waiting.filter fun t => !t.isOpenParen := List.filter_cons_of_pos (by simp [ht])
  rw [kept, hold, hfilter]
  exact List.perm_middle.map Token.lexeme

/-- A function is let out with another argument count. -/
lemma perm_releaseFunction (f : Option Frame) : (c.releaseFunction f).kept.Perm c.kept := by
  rcases c.releaseFunction_cases f with ⟨-, hsame⟩ | ⟨top, waiting, hw, htop, hrelease⟩
  · rw [hsame]
  · have hopen := Token.not_isOpenParen_of_isFunction htop
    have hfilter : (top :: waiting).filter (fun t => !t.isOpenParen) =
        top :: waiting.filter fun t => !t.isOpenParen := List.filter_cons_of_pos (by simp [hopen])
    have hmiddle : (c.output ++ top :: waiting.filter fun t => !t.isOpenParen).Perm
        (top :: (c.output ++ waiting.filter fun t => !t.isOpenParen)) := List.perm_middle
    rw [hrelease, kept, kept, hw, hfilter]
    exact (hmiddle.map Token.lexeme).symm

lemma perm_onOperator {symbol : String} (ht : t.lexeme = .operator symbol) :
    (c.onOperator t symbol).kept.Perm (t.lexeme :: c.kept) := by
  have hopen : t.isOpenParen = false := by simp [Token.isOpenParen, ht]
  unfold onOperator
  split
  · exact perm_hold hopen
  · refine (perm_hold hopen).trans (.cons _ (perm_release fun a ha => ?_))
    exact Token.not_isOpenParen_of_isOperator (Bool.and_eq_true_iff.mp ha).1

lemma perm_onSeparator (h : c.onSeparator = .ok d) : d.kept.Perm c.kept := by
  obtain ⟨arguments, frames, -, rfl⟩ := of_onSeparator h
  exact perm_releaseToParen

/-- The parenthesis that is closed has not been counted. -/
lemma perm_onCloseParen (h : c.onCloseParen = .ok d) : d.kept.Perm c.kept := by
  obtain ⟨top, waiting, hw, htop, rfl⟩ := of_onCloseParen h
  refine (perm_releaseFunction _).trans (.trans (.of_eq ?_) perm_releaseToParen)
  simp [kept, hw, htop]

/-- A token that is read is kept, unless it is punctuation. -/
lemma perm_of_read (h : c.read t = .ok d) : d.kept.Perm (content [t] ++ c.kept) := by
  obtain ⟨l, n⟩ := t
  cases l with
  | operator symbol =>
    cases h
    exact perm_onOperator rfl
  | function name =>
    cases h
    exact perm_hold rfl
  | openParen =>
    cases h
    exact .refl _
  | separator => exact perm_onSeparator h
  | closeParen => exact perm_onCloseParen h
  | _ =>
    cases h
    exact .refl _

theorem perm_of_readAll (h : c.readAll ts = .ok d) : d.kept.Perm (content ts ++ c.kept) := by
  induction ts generalizing c with
  | nil =>
    cases h
    exact .refl _
  | cons t ts ih =>
    obtain ⟨e, hread, hrest⟩ := of_bind_eq_ok h
    rw [content_cons, List.append_assoc]
    refine (ih hrest).trans (((perm_of_read hread).append_left _).trans ?_)
    rw [← List.append_assoc, ← List.append_assoc]
    exact List.perm_append_comm.append_right _

/-! ## Values in order -/

/-- The values that are out, in order. -/
def values (c : Conversion) : List Token := c.output.reverse.filter Token.isValue

/-- No value waits. -/
def Emits (c : Conversion) : Prop := ∀ a ∈ c.waiting, a.isValue = false

lemma Emits.release (h : c.Emits) (q : Token → Bool) :
    (c.release q).Emits ∧ (c.release q).values = c.values := by
  refine ⟨fun a ha => h a ((List.dropWhile_sublist q).subset ha), ?_⟩
  have hout : (c.waiting.takeWhile q).filter Token.isValue = [] := by
    refine List.filter_eq_nil_iff.mpr fun a ha => ?_
    simp [h a ((List.takeWhile_sublist q).subset ha)]
  simp [values, Conversion.release, hout]

lemma Emits.releaseToParen (h : c.Emits) :
    c.releaseToParen.Emits ∧ c.releaseToParen.values = c.values :=
  h.release _

lemma Emits.hold (h : c.Emits) (ht : t.isValue = false) : (c.hold t).Emits :=
  List.forall_mem_cons.mpr ⟨ht, h⟩

lemma Emits.onOperator (h : c.Emits) (ht : t.isValue = false) (symbol : String) :
    (c.onOperator t symbol).Emits ∧ (c.onOperator t symbol).values = c.values := by
  unfold Conversion.onOperator
  split
  · exact ⟨h.hold ht, rfl⟩
  · obtain ⟨hrelease, hvalues⟩ := h.release fun top =>
      top.isOperator && takesOperand top.text symbol
    exact ⟨hrelease.hold ht, hvalues⟩

/-- A function that is let out is no value. -/
lemma Emits.releaseFunction (h : c.Emits) (f : Option Frame) :
    (c.releaseFunction f).Emits ∧ (c.releaseFunction f).values = c.values := by
  rcases c.releaseFunction_cases f with ⟨-, hsame⟩ | ⟨top, waiting, hw, htop, hrelease⟩
  · rw [hsame]
    exact ⟨h, rfl⟩
  · rw [hrelease]
    rw [Emits, hw, List.forall_mem_cons] at h
    have hvalue : (top.withArity (argumentCount f)).isValue = false := h.1
    exact ⟨h.2, by simp [values, hvalue]⟩

lemma Emits.onCloseParen (h : c.Emits) (hread : c.onCloseParen = .ok d) :
    d.Emits ∧ d.values = c.values := by
  obtain ⟨top, waiting, hw, -, rfl⟩ := of_onCloseParen hread
  obtain ⟨hrelease, hvalues⟩ := h.releaseToParen
  rw [Emits, hw, List.forall_mem_cons] at hrelease
  have hbelow : Emits { c.releaseToParen with waiting, frames := c.frames.tail } := hrelease.2
  obtain ⟨hd, hdvalues⟩ := hbelow.releaseFunction c.frames.head?
  exact ⟨hd, hdvalues.trans hvalues⟩

/-- A value goes out when it is read, and no other token changes which values are out. -/
lemma Emits.read (h : c.Emits) (hread : c.read t = .ok d) :
    d.Emits ∧ d.values = c.values ++ [t].filter Token.isValue := by
  obtain ⟨l, n⟩ := t
  cases l with
  | number text | constant name | unknown =>
    cases hread
    exact ⟨h, by simp [values, Conversion.emit]⟩
  | operator symbol =>
    cases hread
    obtain ⟨hd, hvalues⟩ := h.onOperator (t := ⟨.operator symbol, n⟩) rfl symbol
    exact ⟨hd, hvalues.trans (List.append_nil _).symm⟩
  | function name =>
    cases hread
    exact ⟨h.hold rfl, (List.append_nil _).symm⟩
  | openParen =>
    cases hread
    exact ⟨h.hold (t := ⟨.openParen, n⟩) rfl, (List.append_nil _).symm⟩
  | separator =>
    obtain ⟨arguments, frames, -, rfl⟩ := of_onSeparator hread
    obtain ⟨hrelease, hvalues⟩ := h.releaseToParen
    exact ⟨hrelease, hvalues.trans (List.append_nil _).symm⟩
  | closeParen =>
    obtain ⟨hd, hvalues⟩ := h.onCloseParen hread
    exact ⟨hd, hvalues.trans (List.append_nil _).symm⟩

theorem values_of_readAll (h : c.Emits) (hread : c.readAll ts = .ok d) :
    d.Emits ∧ d.values = c.values ++ ts.filter Token.isValue := by
  induction ts generalizing c with
  | nil =>
    cases hread
    exact ⟨h, (List.append_nil _).symm⟩
  | cons t ts ih =>
    obtain ⟨e, ht, hts⟩ := of_bind_eq_ok hread
    obtain ⟨he, hvalues⟩ := h.read ht
    obtain ⟨hd, hrest⟩ := ih he hts
    rw [hvalues, List.append_assoc, ← List.filter_append] at hrest
    exact ⟨hd, hrest⟩

end Conversion

/-! ## Whole conversions -/

/-- What comes out of the conversion is what went in, in some order. -/
theorem perm_of_convert {ts p : List Token} (h : convert ts = .ok p) :
    (p.map Token.lexeme).Perm (content ts) := by
  obtain ⟨c, hread, hfinish⟩ := of_bind_eq_ok h
  have hkept : c.kept.Perm (content ts ++ []) := Conversion.perm_of_readAll (c := .start) hread
  rw [List.append_nil] at hkept
  obtain ⟨hparens, rfl⟩ := Conversion.of_finish hfinish
  have hwaiting : c.waiting.filter (fun t => !t.isOpenParen) = c.waiting :=
    List.filter_eq_self.mpr (by simpa using hparens)
  rw [Conversion.kept, hwaiting] at hkept
  exact (((List.reverse_perm _).append_right _).map Token.lexeme).trans hkept

/-- Whatever tokens are converted, none is lost and none is put in, and those that stand for a value
keep their order. -/
theorem conserves_of_convert {ts p : List Token} (h : convert ts = .ok p) :
    (p.map Token.lexeme).Perm (content ts) ∧ p.filter Token.isValue = ts.filter Token.isValue := by
  refine ⟨perm_of_convert h, ?_⟩
  obtain ⟨c, hread, hfinish⟩ := of_bind_eq_ok h
  obtain ⟨hemits, hvalues⟩ := Conversion.values_of_readAll (c := .start) nofun hread
  obtain ⟨-, rfl⟩ := Conversion.of_finish hfinish
  have hwaiting : c.waiting.filter Token.isValue = [] :=
    List.filter_eq_nil_iff.mpr fun a ha => by simp [hemits a ha]
  rw [List.filter_append, hwaiting, List.append_nil]
  exact hvalues

/-- What is not arranged as an expression is converted too, here `*x max(2!,+)e`. -/
theorem conserves_of_convert_nonsense :
    let ts : List Token := [.operator "*", .unknown, .ofLexeme (.function "max"), .openParen,
      .number "2", .operator "!", .separator, .operator "+", .closeParen,
      .ofLexeme (.constant "e")]
    let p : List Token := [.unknown, .number "2", .operator "!", .operator "+",
      (Token.ofLexeme (.function "max")).withArity 2, .ofLexeme (.constant "e"), .operator "*"]
    convert ts = .ok p ∧ (p.map Token.lexeme).Perm (content ts) ∧
      p.filter Token.isValue = ts.filter Token.isValue := by
  intro ts p
  have h : convert ts = .ok p := by decide
  exact ⟨h, conserves_of_convert h⟩

/-- The unknown is lost nowhere. -/
theorem any_isUnknown_of_convert {ts p : List Token} (h : convert ts = .ok p) :
    p.any Token.isUnknown = ts.any Token.isUnknown := by
  have hcontent : (content ts).any (· = Lexeme.unknown) = ts.any Token.isUnknown := by
    rw [content, List.any_filter, List.any_map]
    congr 1
    funext t
    obtain ⟨l, n⟩ := t
    cases l <;> rfl
  rw [← hcontent, ← (perm_of_convert h).any_eq, List.any_map]
  rfl

end Calculator
