import Calculator.Proofs.Arrangement
import Calculator.Proofs.Conversion

/-!
# Well formed sequences

The conversion refuses parentheses that do not pair up and separators outside of a call, and nothing
else.  For this it needs to know of every open parenthesis whether it belongs to a call, which is
whether a function stands directly before it.  `WellFormed` says so of a sequence, together with
what `checkArrangement` says of neighbours, and without the two stacks: it goes through the tokens
with the list of open parentheses alone.

What has been arranged and is converted without a fault is well formed
(`wellFormed_of_readAll`), and a phrase in a well formed sequence leaves the open parentheses as
they were (`WellFormed.of_written`).
-/

namespace Calculator

/-- The parentheses that are open after one more token `t` directly after `p`, with each of them
whether it belongs to a call, the innermost first. -/
def Token.nest (p t : Token) (calls : List Bool) : Option (List Bool) :=
  match t.lexeme with
  | .openParen => some (p.isFunction :: calls)
  | .closeParen => if calls = [] then none else some calls.tail
  | .separator => if calls.head? = some true then some calls else none
  | _ => some calls

/-- After the token `p` and inside of the parentheses `calls`, the tokens go on to the end of an
expression: neighbours meet, every parenthesis is closed, and separators stand in calls. -/
inductive WellFormed : Token → List Bool → List Token → Prop
  | done {p : Token} (hp : p.completesOperand = true) : WellFormed p [] []
  | step {p t : Token} {calls inner : List Bool} {ts : List Token} (hmeets : p.meets t = true)
      (hnest : p.nest t calls = some inner) (h : WellFormed t inner ts) :
      WellFormed p calls (t :: ts)

/-! ## The two stacks -/

/-- Whether a parenthesis belongs to a call. -/
def Frame.isCall : Frame → Bool
  | .group => false
  | .call _ => true

namespace Conversion

/-- A waiting function stands directly below its parenthesis. -/
def Below (a b : Token) : Prop := b.isFunction = true → a.isOpenParen = true

/-- What the two stacks have in common after the token `p`. -/
structure Coherent (c : Conversion) (p : Token) : Prop where
  parens : c.waiting.countP Token.isOpenParen = c.frames.length
  below : c.waiting.IsChain Below
  top : c.waiting.head?.any Token.isFunction = p.isFunction

variable {c d : Conversion} {p t : Token}

/-- Letting out tokens other than parentheses, of which none is a function. -/
lemma isChain_dropWhile {w : List Token} {q : Token → Bool} (h : w.IsChain Below)
    (htop : w.head?.any Token.isFunction = false)
    (hq : ∀ a, q a = true → a.isOpenParen = false) :
    (w.dropWhile q).IsChain Below ∧ (w.dropWhile q).head?.any Token.isFunction = false := by
  induction w with
  | nil => exact ⟨.nil, rfl⟩
  | cons a w ih =>
    cases ha : q a with
    | false => exact ⟨by simpa [ha] using h, by simpa [ha] using htop⟩
    | true =>
      have hw : w.head?.any Token.isFunction = false := by
        cases w with
        | nil => rfl
        | cons b w =>
          cases hb : b.isFunction with
          | false => simpa using hb
          | true => cases (hq a ha).symm.trans (h.rel hb)
      simpa [ha] using ih h.of_cons hw

/-- What waits when everything down to a parenthesis has been let out. -/
lemma Coherent.releaseToParen (h : c.Coherent p) (hp : p.isFunction = false) :
    c.releaseToParen.waiting.IsChain Below ∧
      c.releaseToParen.waiting.countP Token.isOpenParen = c.frames.length ∧
      ∀ a ∈ c.releaseToParen.waiting.head?, a.isOpenParen = true := by
  obtain ⟨hchain, -⟩ := isChain_dropWhile (q := fun t => !t.isOpenParen) h.below
    (h.top.trans hp) (by simp)
  exact ⟨hchain, (countP_dropWhile (by simp) c.waiting).trans h.parens,
    fun a ha => isOpenParen_of_releaseToParen ha⟩

lemma coherent_start : start.Coherent .openParen := ⟨rfl, .nil, rfl⟩

/-- Directly after a function comes its parenthesis. -/
def Opens (p t : Token) : Prop := p.isFunction = true → t.isOpenParen = true

lemma opens_of_meets (h : p.meets t = true) : Opens p t := by
  intro hp
  simpa [Token.meets, Token.not_completesOperand_of_isFunction hp, hp] using h

lemma Opens.not_isFunction (h : Opens p t) (ht : t.isOpenParen = false) :
    p.isFunction = false := by
  cases hp : p.isFunction with
  | false => rfl
  | true => cases ht.symm.trans (h hp)

/-- A token that waits on top of others. -/
lemma Coherent.hold {w : List Token} {fs : List Frame} {out : List Token} (hw : w.IsChain Below)
    (hcount : w.countP Token.isOpenParen = fs.length)
    (htop : w.head?.any Token.isFunction = false) (ht : t.isOpenParen = false) :
    Coherent ⟨out, t :: w, fs⟩ t := by
  refine ⟨by simp [ht, hcount], ?_, by simp⟩
  cases w with
  | nil => exact .singleton _
  | cons a w =>
    refine .cons_cons (fun ha => ?_) hw
    simp [ha] at htop

/-- An operand leaves everything that waits. -/
lemma Coherent.emit (h : c.Coherent p) (hp : p.isFunction = false) (ht : t.isFunction = false) :
    (c.emit t).Coherent t :=
  ⟨h.parens, h.below, by rw [ht, ← hp]; exact h.top⟩

lemma Coherent.onOperator (h : c.Coherent p) (hp : p.isFunction = false) (n : Nat)
    (symbol : String) :
    (c.onOperator ⟨.operator symbol, n⟩ symbol).Coherent ⟨.operator symbol, n⟩ := by
  unfold Conversion.onOperator
  split
  · exact Coherent.hold h.below h.parens (h.top.trans hp) rfl
  · have hq (a : Token) (ha : (a.isOperator && takesOperand a.text symbol) = true) :
        a.isOpenParen = false :=
      Token.not_isOpenParen_of_isOperator (Bool.and_eq_true_iff.mp ha).1
    obtain ⟨hchain, htop⟩ := isChain_dropWhile h.below (h.top.trans hp) hq
    exact Coherent.hold hchain ((countP_dropWhile hq c.waiting).trans h.parens) htop rfl

lemma Coherent.onOpenParen (h : c.Coherent p) (n : Nat) :
    (c.onOpenParen ⟨.openParen, n⟩).Coherent ⟨.openParen, n⟩ ∧
      (c.onOpenParen ⟨.openParen, n⟩).frames.map Frame.isCall =
        p.isFunction :: c.frames.map Frame.isCall := by
  refine ⟨⟨?_, ?_, rfl⟩, ?_⟩
  · simp [Conversion.onOpenParen, Token.isOpenParen, ← h.parens]
  · exact h.below.cons fun a _ _ => rfl
  · simp only [Conversion.onOpenParen, h.top, List.map_cons]
    cases p.isFunction <;> rfl

/-- What waits when a parenthesis has let out everything down to it. -/
lemma top_of_isOpenParen {w : List Token} (h : ∀ a ∈ w.head?, a.isOpenParen = true) :
    w.head?.any Token.isFunction = false := by
  cases w with
  | nil => rfl
  | cons a w => exact Token.not_isFunction_of_isOpenParen (h a rfl)

lemma Coherent.onSeparator (h : c.Coherent p) (hp : p.isFunction = false) {n : Nat}
    (hread : c.onSeparator = .ok d) :
    d.Coherent ⟨.separator, n⟩ ∧ (c.frames.map Frame.isCall).head? = some true ∧
      d.frames.map Frame.isCall = c.frames.map Frame.isCall := by
  obtain ⟨hchain, hcount, htop⟩ := h.releaseToParen hp
  obtain ⟨arguments, fs, hframes, rfl⟩ := of_onSeparator hread
  rw [hframes] at hcount ⊢
  exact ⟨⟨hcount, hchain, top_of_isOpenParen htop⟩, rfl, rfl⟩

/-- A function leaves with its parenthesis, and none waits below it. -/
lemma releaseFunction_coherent (out : List Token) {w : List Token} {fs : List Frame} {a : Token}
    {n : Nat} (hchain : (a :: w).IsChain Below) (hcount : w.countP Token.isOpenParen = fs.length)
    (f : Option Frame) :
    (releaseFunction ⟨out, w, fs⟩ f).Coherent ⟨.closeParen, n⟩ ∧
      (releaseFunction ⟨out, w, fs⟩ f).frames = fs := by
  rcases releaseFunction_cases ⟨out, w, fs⟩ f with ⟨htop, heq⟩ | ⟨b, v, hw, hb, heq⟩
  · rw [heq]
    exact ⟨⟨hcount, hchain.of_cons, htop⟩, rfl⟩
  · obtain rfl : w = b :: v := hw
    have hopen := Token.not_isOpenParen_of_isFunction hb
    rw [heq]
    refine ⟨⟨by simpa [hopen] using hcount, hchain.of_cons.of_cons, ?_⟩, rfl⟩
    cases v with
    | nil => rfl
    | cons e v =>
      cases he : e.isFunction with
      | false => exact he
      | true => cases hopen.symm.trans (hchain.of_cons.rel he)

lemma Coherent.onCloseParen (h : c.Coherent p) (hp : p.isFunction = false) {n : Nat}
    (hread : c.onCloseParen = .ok d) :
    d.Coherent ⟨.closeParen, n⟩ ∧ c.frames.map Frame.isCall ≠ [] ∧
      d.frames.map Frame.isCall = (c.frames.map Frame.isCall).tail := by
  obtain ⟨hchain, hcount, -⟩ := h.releaseToParen hp
  obtain ⟨top, w, hw, htop, rfl⟩ := of_onCloseParen hread
  rw [hw] at hchain hcount
  rw [List.countP_cons_of_pos htop] at hcount
  cases hc : c.frames with
  | nil => simp [hc] at hcount
  | cons f fs =>
    have hfs : w.countP Token.isOpenParen = fs.length := by simpa [hc] using hcount
    obtain ⟨hd, hdf⟩ := releaseFunction_coherent c.releaseToParen.output (n := n) hchain hfs
      (some f)
    exact ⟨hd, by simp, congrArg _ hdf⟩

/-- One token, which is a parenthesis if it comes after a function. -/
lemma Coherent.read (h : c.Coherent p) (hopens : Opens p t) (hread : c.read t = .ok d) :
    d.Coherent t ∧ p.nest t (c.frames.map Frame.isCall) = some (d.frames.map Frame.isCall) := by
  obtain ⟨l, n⟩ := t
  cases l with
  | openParen =>
    cases hread
    obtain ⟨hd, hframes⟩ := h.onOpenParen n
    exact ⟨hd, by rw [hframes]; rfl⟩
  | number text | constant name | unknown =>
    cases hread
    exact ⟨h.emit (hopens.not_isFunction rfl) rfl, rfl⟩
  | function name =>
    cases hread
    have hp := hopens.not_isFunction rfl
    exact ⟨Coherent.hold h.below h.parens (h.top.trans hp) rfl, rfl⟩
  | operator symbol =>
    cases hread
    refine ⟨h.onOperator (hopens.not_isFunction rfl) n symbol, ?_⟩
    unfold Conversion.onOperator
    split <;> rfl
  | separator =>
    obtain ⟨hd, hcall, hframes⟩ := h.onSeparator (hopens.not_isFunction rfl) hread
    exact ⟨hd, by simp [Token.nest, hcall, hframes]⟩
  | closeParen =>
    obtain ⟨hd, hne, hframes⟩ := h.onCloseParen (hopens.not_isFunction rfl) hread
    exact ⟨hd, by simpa [Token.nest, hframes] using hne⟩

/-- Something waits as long as a parenthesis is open. -/
lemma Coherent.waiting_releaseToParen_eq_nil_iff (h : c.Coherent p) :
    c.releaseToParen.waiting = [] ↔ c.frames = [] := by
  have hcount : c.releaseToParen.waiting.countP Token.isOpenParen = c.frames.length :=
    (countP_dropWhile (by simp) c.waiting).trans h.parens
  constructor
  · intro hw
    rw [hw] at hcount
    exact List.length_eq_zero_iff.mp hcount.symm
  · intro hframes
    rw [hframes, List.length_nil, List.countP_eq_zero] at hcount
    refine List.eq_nil_iff_forall_not_mem.mpr fun a ha => ?_
    -- What is left over begins with a parenthesis, if anything is.
    cases hw : c.releaseToParen.waiting with
    | nil => simp [hw] at ha
    | cons top w =>
      have htop : top.isOpenParen = true := isOpenParen_of_releaseToParen (by rw [hw]; rfl)
      exact hcount top (by simp [hw]) htop

lemma Coherent.onSeparator_eq_error_iff (h : c.Coherent p) {fault : Fault} :
    c.onSeparator = .error fault ↔
      (c.frames.map Frame.isCall).head? ≠ some true ∧
        fault = .grammar .separatorOutsideCall := by
  have hwaiting := h.waiting_releaseToParen_eq_nil_iff
  have hframes : c.releaseToParen.frames = c.frames := rfl
  simp only [Conversion.onSeparator, hframes]
  cases hc : c.frames with
  | nil => simp [eq_comm]
  | cons f fs =>
    have hne : c.releaseToParen.waiting ≠ [] := by simp [hwaiting, hc]
    cases f with
    | group => simp [Frame.isCall, eq_comm]
    | call arguments => simp [Frame.isCall, hne]

lemma Coherent.onCloseParen_eq_error_iff (h : c.Coherent p) {fault : Fault} :
    c.onCloseParen = .error fault ↔ c.frames = [] ∧ fault = .grammar .unmatchedClose := by
  rw [← h.waiting_releaseToParen_eq_nil_iff]
  simp only [Conversion.onCloseParen]
  cases c.releaseToParen.waiting with
  | nil => simp [eq_comm]
  | cons top w => simp

/-- Nothing is refused but a parenthesis that closes none and a separator outside of a call. -/
lemma Coherent.read_eq_error_iff (h : c.Coherent p) {fault : Fault} :
    c.read t = .error fault ↔
      t.isCloseParen = true ∧ c.frames = [] ∧ fault = .grammar .unmatchedClose ∨
        t.lexeme = .separator ∧ (c.frames.map Frame.isCall).head? ≠ some true ∧
          fault = .grammar .separatorOutsideCall := by
  obtain ⟨l, n⟩ := t
  cases l with
  | separator => simpa [Conversion.read, Token.isCloseParen] using h.onSeparator_eq_error_iff
  | closeParen => simpa [Conversion.read, Token.isCloseParen] using h.onCloseParen_eq_error_iff
  | _ => simp [Conversion.read, Token.isCloseParen]

/-- At the end nothing is refused but a parenthesis that is still open. -/
lemma Coherent.finish_eq_error_iff (h : c.Coherent p) {fault : Fault} :
    c.finish = .error fault ↔ c.frames ≠ [] ∧ fault = .grammar .unmatchedOpen := by
  have hopen : c.waiting.any Token.isOpenParen = true ↔ c.frames ≠ [] := by
    rw [List.any_eq_true, ← List.countP_pos_iff, h.parens, List.length_pos_iff]
  rw [finish, ← hopen]
  cases c.waiting.any Token.isOpenParen <;> simp [eq_comm]

/-- Tokens whose neighbours meet, that end in an operand and that are converted without a fault. -/
theorem wellFormed_of_readAll {ts q : List Token} (h : c.Coherent p)
    (hchain : (p :: ts).IsChain Token.Meets)
    (hlast : ∀ a ∈ (p :: ts).getLast?, a.completesOperand = true)
    (hread : c.readAll ts = .ok d) (hfinish : d.finish = .ok q) :
    WellFormed p (c.frames.map Frame.isCall) ts := by
  induction ts generalizing c p with
  | nil =>
    cases hread
    have hframes : d.frames = [] := by
      by_contra hopen
      rw [h.finish_eq_error_iff.mpr ⟨hopen, rfl⟩] at hfinish
      cases hfinish
    rw [hframes]
    exact .done (hlast p rfl)
  | cons t ts ih =>
    obtain ⟨hmeets, htail⟩ := List.isChain_cons_cons.mp hchain
    obtain ⟨next, ht, hts⟩ := of_bind_eq_ok hread
    obtain ⟨hnext, hnest⟩ := h.read (opens_of_meets hmeets) ht
    exact .step hmeets hnest (ih hnext htail (by simpa using hlast) hts)

/-- An opening parenthesis at the end is never closed. -/
lemma finish_ne_ok_of_openParen {l q : List Token} {n : Nat}
    (hread : c.readAll (l ++ [⟨.openParen, n⟩]) = .ok d) : d.finish ≠ .ok q := by
  rw [readAll_append] at hread
  obtain ⟨before, -, hlast⟩ := of_bind_eq_ok hread
  cases hlast
  simp [finish, onOpenParen, Token.isOpenParen]

end Conversion

/-- Tokens with their signs written out, arranged as an expression and converted. -/
theorem wellFormed_groupSigns {ts q : List Token}
    (hcheck : checkArrangement (groupSigns ts) = .ok ())
    (hconvert : convert (groupSigns ts) = .ok q) : WellFormed .openParen [] (groupSigns ts) := by
  obtain ⟨hne, hchain, hlast⟩ := of_checkArrangement hcheck
  obtain ⟨c, hread, hfinish⟩ := of_bind_eq_ok hconvert
  refine Conversion.wellFormed_of_readAll Conversion.coherent_start
    (hchain.imp fun _ _ h => h.1) ?_ hread hfinish
  intro a ha
  rw [List.getLast?_cons_of_ne_nil hne] at ha
  apply (hlast a ha).resolve_right
  intro hopen
  obtain ⟨l, hl⟩ := List.getLast?_eq_some_iff.mp ha
  obtain ⟨lexeme, n⟩ := a
  obtain rfl : lexeme = .openParen := by simpa [Token.isOpenParen] using hopen
  rw [hl] at hread
  exact Conversion.finish_ne_ok_of_openParen hread hfinish

/-! ## Phrases -/

namespace WellFormed

variable {p t : Token} {calls inner : List Bool} {ts : List Token}

lemma tail (h : WellFormed p calls (t :: ts)) (hnest : p.nest t calls = some inner) :
    WellFormed t inner ts := by
  rcases h with _ | ⟨-, hinner, h⟩
  rw [hinner] at hnest
  cases hnest
  exact h

lemma meets (h : WellFormed p calls (t :: ts)) : p.meets t = true := by
  rcases h with _ | ⟨hmeets, -, -⟩
  exact hmeets

/-- What stands before a separator is in a call. -/
lemma tail_separator (h : WellFormed p calls (.separator :: ts)) :
    calls.head? = some true ∧ WellFormed .separator calls ts := by
  rcases h with _ | ⟨-, hnest, hrest⟩
  simp only [Token.nest, Token.separator, Token.ofLexeme] at hnest
  split at hnest
  next hcall =>
    cases hnest
    exact ⟨hcall, hrest⟩
  · cases hnest

/-- A phrase leaves the parentheses around it as they were, and an operand ends with it. -/
theorem of_written {k : Phrase} (t : Tree k) (h : WellFormed p calls (t.written ++ ts)) :
    ∃ q : Token, q.completesOperand = true ∧ WellFormed q calls ts := by
  induction t generalizing p calls ts with
  | ofTerm t ih | ofSigned t ih | ofPower t ih | ofBase t ih | ofAtom t ih | last t ih => exact ih h
  | number text | constant name | unknown => exact ⟨_, rfl, h.tail rfl⟩
  | sum l op r ihl ihr | product l op r ihl ihr =>
    rw [Tree.written, List.append_assoc, List.cons_append] at h
    obtain ⟨q, -, h⟩ := ihl h
    exact ihr (h.tail rfl)
  | pow b u ihb ihu =>
    rw [Tree.written, List.append_assoc, List.cons_append] at h
    obtain ⟨q, -, h⟩ := ihb h
    exact ihu (h.tail rfl)
  | more e args ihe ihargs =>
    rw [Tree.written, List.append_assoc, List.cons_append] at h
    obtain ⟨q, -, h⟩ := ihe h
    exact ihargs h.tail_separator.2
  | factorial a ih =>
    rw [Tree.written, List.append_assoc] at h
    obtain ⟨q, -, h⟩ := ih h
    exact ⟨_, rfl, h.tail rfl⟩
  | group e ih =>
    rw [Tree.written, List.append_assoc, List.cons_append] at h
    obtain ⟨q, -, h⟩ := ih (h.tail rfl)
    exact ⟨_, rfl, h.tail rfl⟩
  | call name args ih =>
    rw [Tree.written, List.append_assoc, List.cons_append, List.cons_append] at h
    obtain ⟨q, -, h⟩ := ih ((h.tail rfl).tail rfl)
    exact ⟨_, rfl, h.tail rfl⟩
  | unary op u ih =>
    rw [Tree.written, List.append_assoc] at h
    obtain ⟨q, -, h⟩ := ih (((h.tail rfl).tail rfl).tail rfl)
    exact ⟨_, rfl, h.tail rfl⟩
  | signCall name op u ih =>
    rw [Tree.written, List.append_assoc] at h
    obtain ⟨q, -, h⟩ := ih ((((h.tail rfl).tail rfl).tail rfl).tail rfl)
    exact ⟨_, rfl, h.tail rfl⟩

end WellFormed

end Calculator
