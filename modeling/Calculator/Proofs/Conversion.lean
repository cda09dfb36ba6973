import Calculator.Conversion
import Calculator.Proofs.Basic
import Calculator.Proofs.ParseTree

/-!
# The conversion of a parse tree

Converting the written tokens of an expression gives its listing (`convert_written`).  In the middle
of a conversion the listing of a phrase is not all out when the phrase has been read: its last
operators still wait, because a stronger one could follow.  `Conversion.Lists` says how much may
wait: only operators that bind at least as strongly as the phrase holds together, so that whichever
operator ends the phrase lets all of them out.  What waited before the phrase stays where it was, as
long as it binds its operand less strongly than the operators of the phrase do
(`Conversion.Ready`).
-/

namespace Calculator

/-! ## Known operators -/

namespace Operator

@[simp] lemma text_token (op : Operator) : op.token.text = op.symbol := rfl

@[simp] lemma isOperator_token (op : Operator) : op.token.isOperator = true := rfl

@[simp] lemma isOpenParen_token (op : Operator) : op.token.isOpenParen = false := rfl

@[simp] lemma isFunction_token (op : Operator) : op.token.isFunction = false := rfl

/-- Whether an operator that waits takes the operand before another one. -/
def takes (waiting next : Operator) : Bool := takesOperand waiting.symbol next.symbol

lemma takes_eq (waiting next : Operator) :
    waiting.takes next =
      match next.side with
      | .left => decide (next.precedence ≤ waiting.precedence)
      | .right => decide (next.precedence < waiting.precedence) := by
  cases waiting <;> cases next <;> decide

lemma takes_of_lt {waiting next : Operator} (h : next.precedence < waiting.precedence) :
    waiting.takes next = true := by
  rw [takes_eq]
  split <;> simpa using by omega

lemma takes_of_le {waiting next : Operator} (h : next.precedence ≤ waiting.precedence)
    (hside : next.side = .left) : waiting.takes next = true := by
  rw [takes_eq, hside]
  simpa using h

lemma not_takes_of_lt {waiting next : Operator} (h : waiting.precedence < next.precedence) :
    waiting.takes next = false := by
  rw [takes_eq]
  split <;> simpa using by omega

lemma not_takes_of_le {waiting next : Operator} (h : waiting.precedence ≤ next.precedence)
    (hside : next.side = .right) : waiting.takes next = false := by
  rw [takes_eq, hside]
  simpa using h

lemma precedence_pos (op : Operator) : 0 < op.precedence := by
  cases op <;> decide

lemma precedence_le (op : Operator) : op.precedence ≤ 4 := by
  cases op <;> decide

lemma precedence_lt_of_ne_factorial {op : Operator} (h : op ≠ .factorial) : op.precedence < 4 := by
  cases op <;> first | exact absurd rfl h | decide

lemma precedence_lt_of_ne_pow {op : Operator} (hlt : op.precedence < 4) (h : op ≠ .pow) :
    op.precedence < 3 := by
  cases op <;> first | exact absurd rfl h | exact absurd hlt (by decide) | decide

lemma side_of_precedence_le {op : Operator} (h : op.precedence ≤ 2) : op.side = .left := by
  cases op <;> first | rfl | exact absurd h (by decide)

end Operator

namespace Conversion

/-! ## Reading -/

lemma readAll_append (c : Conversion) (l r : List Token) :
    c.readAll (l ++ r) = (c.readAll l).bind fun c => c.readAll r := by
  induction l generalizing c with
  | nil => rfl
  | cons t l ih =>
    cases h : c.read t with
    | ok d =>
      rw [List.cons_append, readAll, readAll, bind_of_eq_ok h, bind_of_eq_ok h]
      exact ih d
    | error e => simp [readAll, h, bind, Except.bind]

lemma readAll_cons {c d : Conversion} {t : Token} (h : c.read t = .ok d) (ts : List Token) :
    c.readAll (t :: ts) = d.readAll ts :=
  bind_of_eq_ok h _

lemma readAll_append_of_ok {c d : Conversion} {l : List Token} (h : c.readAll l = .ok d)
    (r : List Token) : c.readAll (l ++ r) = d.readAll r := by
  rw [readAll_append]
  exact bind_of_eq_ok h _

/-- What has been converted is out and then waits. -/
lemma of_finish {c : Conversion} {p : List Token} (h : c.finish = .ok p) :
    c.waiting.any Token.isOpenParen = false ∧ p = c.output.reverse ++ c.waiting := by
  unfold finish at h
  split at h
  · cases h
  next hparens =>
    cases h
    exact ⟨Bool.eq_false_iff.mpr hparens, rfl⟩

/-- Letting out tokens other than parentheses leaves as many parentheses open. -/
lemma countP_dropWhile {q : Token → Bool} (hq : ∀ a, q a = true → a.isOpenParen = false)
    (w : List Token) :
    (w.dropWhile q).countP Token.isOpenParen = w.countP Token.isOpenParen := by
  induction w with
  | nil => rfl
  | cons a w ih =>
    cases ha : q a with
    | false => rw [List.dropWhile_cons_of_neg (by simp [ha])]
    | true =>
      rw [List.dropWhile_cons_of_pos ha, ih, List.countP_cons_of_neg (by simp [hq a ha])]

/-- Nothing is let out from below an open parenthesis. -/
lemma isOpenParen_of_releaseToParen {c : Conversion} {top : Token}
    (h : top ∈ c.releaseToParen.waiting.head?) : top.isOpenParen = true := by
  simpa using head?_dropWhile (fun t : Token => !t.isOpenParen) c.waiting top h

/-- What a separator does, if it stands in a call. -/
lemma of_onSeparator {c d : Conversion} (h : c.onSeparator = .ok d) :
    ∃ arguments frames, c.frames = .call arguments :: frames ∧
      d = { c.releaseToParen with frames := .call (arguments + 1) :: frames } := by
  simp only [onSeparator] at h
  split at h
  next arguments frames hframes =>
    split at h
    · cases h
    · cases h
      exact ⟨arguments, frames, hframes, rfl⟩
  · cases h

/-- What a closing parenthesis does, if one is open. -/
lemma of_onCloseParen {c d : Conversion} (h : c.onCloseParen = .ok d) :
    ∃ top waiting, c.releaseToParen.waiting = top :: waiting ∧ top.isOpenParen = true ∧
      d = releaseFunction ⟨c.releaseToParen.output, waiting, c.frames.tail⟩ c.frames.head? := by
  simp only [onCloseParen] at h
  split at h
  · cases h
  next top waiting hw =>
    cases h
    exact ⟨top, waiting, hw, isOpenParen_of_releaseToParen (by rw [hw]; rfl), rfl⟩

/-- What happens to a function when its parenthesis has been closed. -/
lemma releaseFunction_cases (c : Conversion) (f : Option Frame) :
    c.waiting.head?.any Token.isFunction = false ∧ c.releaseFunction f = c ∨
      ∃ top waiting, c.waiting = top :: waiting ∧ top.isFunction = true ∧
        c.releaseFunction f =
          ⟨top.withArity (argumentCount f) :: c.output, waiting, c.frames⟩ := by
  unfold releaseFunction
  split
  next top waiting hw =>
    split
    next htop => exact .inr ⟨top, waiting, hw, htop, rfl⟩
    next htop => exact .inl ⟨by simpa [hw] using htop, rfl⟩
  next hw => exact .inl ⟨by simp [hw], rfl⟩

/-- Letting out some of the tokens that wait, up to one that stays. -/
lemma release_append (out : List Token) {ops w : List Token} (fs : List Frame)
    {p : Token → Bool} (hops : ∀ o ∈ ops, p o = true) (hw : ∀ o ∈ w.head?, p o = false) :
    release ⟨out, ops ++ w, fs⟩ p = ⟨ops.reverse ++ out, w, fs⟩ := by
  rw [release, takeWhile_append_of_head hops hw, dropWhile_append_of_head hops hw]

/-- The tokens that wait above the innermost open parenthesis are let out. -/
lemma releaseToParen_append (out : List Token) {ops : List Token} (w : List Token)
    (fs : List Frame) (hops : ∀ o ∈ ops, ∃ op : Operator, o = op.token) :
    releaseToParen ⟨out, ops ++ .openParen :: w, fs⟩ =
      ⟨ops.reverse ++ out, .openParen :: w, fs⟩ := by
  refine release_append out fs ?_ ?_
  · intro o ho
    obtain ⟨op, rfl⟩ := hops o ho
    rfl
  · rintro o ⟨⟩
    rfl

/-- An operator lets out those that take the operand before it, up to a parenthesis or an operator
that does not. -/
lemma read_operator {out ops w : List Token} {fs : List Frame} {op : Operator}
    (hop : op ≠ .factorial)
    (hops : ∀ o ∈ ops, ∃ waiting : Operator, o = waiting.token ∧ waiting.takes op = true)
    (hw : ∀ o ∈ w.head?, o = .openParen ∨
      ∃ waiting : Operator, o = waiting.token ∧ waiting.takes op = false) :
    read ⟨out, ops ++ w, fs⟩ op.token = .ok ⟨ops.reverse ++ out, op.token :: w, fs⟩ := by
  have hsymbol : op.symbol ≠ "!" := by simpa using hop
  have hrelease : release ⟨out, ops ++ w, fs⟩
      (fun top => top.isOperator && takesOperand top.text op.symbol) =
        ⟨ops.reverse ++ out, w, fs⟩ := by
    apply release_append out fs
    · intro o ho
      obtain ⟨waiting, rfl, htakes⟩ := hops o ho
      exact htakes
    · intro o ho
      rcases hw o ho with rfl | ⟨waiting, rfl, htakes⟩
      · rfl
      · exact htakes
  simp [read, Operator.token, Token.operator, Token.ofLexeme, onOperator, hsymbol, hrelease, hold]

end Conversion

/-! ## Phrases on the stack -/

namespace Phrase

/-- What may wait before a phrase binds less strongly than this. -/
def bound : Phrase → Nat
  | .expression | .arguments => 1
  | .term => 2
  | _ => 4

/-- What waits of a phrase that has been read binds at least as strongly as this. -/
def strength : Phrase → Nat
  | .expression | .arguments => 1
  | .term => 2
  | .signed | .power => 3
  | .base => 4
  | .atom _ => 5

end Phrase

/-- The frame of a parenthesis in which further arguments have been begun. -/
def Frame.more (n : Nat) : Frame → Frame
  | .group => .group
  | .call arguments => .call (n + arguments)

/-- The frames after a phrase: arguments are counted in the parenthesis they stand in, and nothing
else in a phrase changes the frames around it. -/
def Tree.framesAfter {k : Phrase} (t : Tree k) (fs : List Frame) : List Frame :=
  match k with
  | .arguments => fs.modifyHead (Frame.more t.separators)
  | _ => fs

namespace Conversion

/-- Nothing that waits can take a part of the next phrase before it is complete, and arguments stand
directly in the parenthesis of a call. -/
def Ready (k : Phrase) (c : Conversion) : Prop :=
  (∀ top ∈ c.waiting.head?, top = .openParen ∨
    ∃ op : Operator, top = op.token ∧ op.precedence < k.bound) ∧
  (k = .arguments →
    c.waiting.head? = some .openParen ∧ ∃ n fs, c.frames = .call n :: fs)

lemma Ready.mono {k m : Phrase} {c : Conversion} (h : Ready k c) (hkm : k.bound ≤ m.bound)
    (hm : m ≠ .arguments) : Ready m c := by
  refine ⟨fun top htop => ?_, fun h => absurd h hm⟩
  rcases h.1 top htop with h | ⟨op, h, hop⟩
  · exact .inl h
  · exact .inr ⟨op, h, by omega⟩

/-- Before a phrase no function waits, so that a parenthesis belongs to nothing but itself. -/
lemma Ready.not_isFunction {k : Phrase} {c : Conversion} (h : Ready k c) :
    c.waiting.head?.any Token.isFunction = false := by
  cases hw : c.waiting.head? with
  | none => rfl
  | some top =>
    rcases h.1 top hw with rfl | ⟨op, rfl, _⟩
    · rfl
    · rfl

lemma ready_operator (k : Phrase) (hk : k ≠ .arguments) {out w : List Token} {fs : List Frame}
    {op : Operator} (hop : op.precedence < k.bound) : Ready k ⟨out, op.token :: w, fs⟩ := by
  refine ⟨?_, fun h => absurd h hk⟩
  rintro top ⟨⟩
  exact .inr ⟨op, rfl, hop⟩

lemma ready_openParen (k : Phrase) (hk : k ≠ .arguments) (out w : List Token)
    (fs : List Frame) : Ready k ⟨out, .openParen :: w, fs⟩ := by
  refine ⟨?_, fun h => absurd h hk⟩
  rintro top ⟨⟩
  exact .inl rfl

lemma ready_arguments (out w : List Token) (n : Nat) (fs : List Frame) :
    Ready .arguments ⟨out, .openParen :: w, .call n :: fs⟩ := by
  refine ⟨?_, fun _ => ⟨rfl, n, fs, rfl⟩⟩
  rintro top ⟨⟩
  exact .inl rfl

lemma Ready.of_arguments {c : Conversion} (h : Ready .arguments c) :
    ∃ out w n fs, c = ⟨out, .openParen :: w, .call n :: fs⟩ := by
  obtain ⟨hw, n, fs, hfs⟩ := h.2 rfl
  obtain ⟨out, waiting, frames⟩ := c
  obtain ⟨w, rfl⟩ := List.head?_eq_some_iff.mp hw
  exact ⟨out, w, n, fs, by rw [← hfs]⟩

/-- Reading `w` puts the tokens `p` out, except for operators that bind at least as strongly as `n`
and wait, above what waited before, and leaves the frames `fs`. -/
def Lists (c : Conversion) (w p : List Token) (n : Nat) (fs : List Frame) : Prop :=
  ∃ out ops, p = out ++ ops ∧
    c.readAll w = .ok ⟨out.reverse ++ c.output, ops ++ c.waiting, fs⟩ ∧
    ∀ o ∈ ops, ∃ op : Operator, o = op.token ∧ n ≤ op.precedence

variable {c : Conversion} {w p l r : List Token} {fs : List Frame} {n m : Nat}

lemma Lists.mono (h : Lists c w p n fs) (hmn : m ≤ n) : Lists c w p m fs := by
  obtain ⟨out, ops, hp, hread, hops⟩ := h
  refine ⟨out, ops, hp, hread, fun o ho => ?_⟩
  obtain ⟨op, rfl, hop⟩ := hops o ho
  exact ⟨op, rfl, by omega⟩

/-- An operand is put out at once. -/
lemma lists_of_read {a : Token} (h : c.read a = .ok (c.emit a)) (n : Nat) :
    Lists c [a] [a] n c.frames := by
  refine ⟨[a], [], rfl, ?_, by simp⟩
  rw [readAll_cons h]
  rfl

/-- A factorial waits until the next token. -/
lemma Lists.factorial (h : Lists c w p 5 fs) :
    Lists c (w ++ [Operator.factorial.token]) (p ++ [Operator.factorial.token]) 4 fs := by
  obtain ⟨out, ops, rfl, hread, hops⟩ := h
  have hnil : ops = [] := by
    apply List.eq_nil_iff_forall_not_mem.mpr
    intro o ho
    obtain ⟨op, _, hop⟩ := hops o ho
    have := op.precedence_le
    omega
  subst hnil
  refine ⟨out, [Operator.factorial.token], by simp, ?_, ?_⟩
  · rw [readAll_append_of_ok hread]
    rfl
  · rintro o ho
    exact ⟨.factorial, List.mem_singleton.mp ho, le_rfl⟩

/-- Two operands, the second at least as strong as the operator between them. -/
lemma Lists.binary {op : Operator} {lw lp rw' rp : List Token} (hl : Lists c lw lp n c.frames)
    (hop : op ≠ .factorial)
    (htakes : ∀ waiting : Operator, n ≤ waiting.precedence → waiting.takes op = true)
    (hw : ∀ top ∈ c.waiting.head?, top = .openParen ∨
      ∃ waiting : Operator, top = waiting.token ∧ waiting.takes op = false)
    (hr : ∀ out, Lists ⟨out, op.token :: c.waiting, c.frames⟩ rw' rp op.precedence c.frames) :
    Lists c (lw ++ op.token :: rw') (lp ++ rp ++ [op.token]) op.precedence c.frames := by
  obtain ⟨lout, lops, rfl, hlread, hlops⟩ := hl
  obtain ⟨rout, rops, rfl, hrread, hrops⟩ := hr (lops.reverse ++ (lout.reverse ++ c.output))
  have hread : read ⟨lout.reverse ++ c.output, lops ++ c.waiting, c.frames⟩ op.token =
      .ok ⟨lops.reverse ++ (lout.reverse ++ c.output), op.token :: c.waiting, c.frames⟩ := by
    refine read_operator hop (fun o ho => ?_) hw
    obtain ⟨waiting, rfl, h⟩ := hlops o ho
    exact ⟨waiting, rfl, htakes waiting h⟩
  refine ⟨lout ++ lops ++ rout, rops ++ [op.token], by simp, ?_, ?_⟩
  · rw [readAll_append_of_ok hlread, readAll_cons hread, hrread]
    simp
  · intro o ho
    rw [List.mem_append, List.mem_singleton] at ho
    rcases ho with ho | rfl
    · exact hrops o ho
    · exact ⟨op, rfl, le_rfl⟩

/-- A phrase in parentheses, when its parenthesis has been opened. -/
lemma Lists.closeParen {out : List Token} {f : Frame}
    (h : Lists ⟨out, .openParen :: c.waiting, fs⟩ w p n (f :: c.frames)) :
    readAll ⟨out, .openParen :: c.waiting, fs⟩ (w ++ [.closeParen]) =
      .ok (releaseFunction ⟨p.reverse ++ out, c.waiting, c.frames⟩ (some f)) := by
  obtain ⟨pout, ops, rfl, hread, hops⟩ := h
  rw [readAll_append_of_ok hread]
  have hrelease := releaseToParen_append (pout.reverse ++ out) c.waiting (f :: c.frames)
    fun o ho => (hops o ho).imp fun _ h => h.1
  simp [readAll, read, Token.closeParen, Token.ofLexeme, onCloseParen, hrelease, bind,
    Except.bind]

/-- A whole group is an operand. -/
lemma Lists.group {k : Phrase} (hc : Ready k c)
    (h : ∀ out, Lists ⟨out, .openParen :: c.waiting, .group :: c.frames⟩ w p n
      (.group :: c.frames)) (m : Nat) :
    Lists c (.openParen :: w ++ [.closeParen]) p m c.frames := by
  have hopen : c.read .openParen = .ok ⟨c.output, .openParen :: c.waiting, .group :: c.frames⟩ := by
    simp [read, Token.openParen, Token.ofLexeme, onOpenParen, hc.not_isFunction]
  refine ⟨p, [], by simp, ?_, by simp⟩
  rw [List.cons_append, readAll_cons hopen, (h c.output).closeParen]
  have hfunction := hc.not_isFunction
  cases hw : c.waiting with
  | nil => rfl
  | cons top waiting =>
    have htop : top.isFunction = false := by simpa [hw] using hfunction
    simp [releaseFunction, htop]

/-- A whole call is an operand, and its function carries the number of its arguments. -/
lemma Lists.call (name : String) {arguments : Nat}
    (h : ∀ out waiting, Lists ⟨out, .openParen :: waiting, .call 1 :: c.frames⟩ w p n
      (.call arguments :: c.frames)) (m : Nat) :
    Lists c (.ofLexeme (.function name) :: .openParen :: w ++ [.closeParen])
      (p ++ [(Token.ofLexeme (.function name)).withArity arguments]) m c.frames := by
  have hhold : c.read (.ofLexeme (.function name)) =
      .ok (c.hold (.ofLexeme (.function name))) := rfl
  have hopen : (c.hold (.ofLexeme (.function name))).read .openParen =
      .ok ⟨c.output, .openParen :: (c.hold (.ofLexeme (.function name))).waiting,
        .call 1 :: c.frames⟩ := rfl
  refine ⟨p ++ [(Token.ofLexeme (.function name)).withArity arguments], [], by simp, ?_, by simp⟩
  rw [List.cons_append, List.cons_append, readAll_cons hhold, readAll_cons hopen,
    Lists.closeParen (c := c.hold (.ofLexeme (.function name))) (h c.output _)]
  simp [releaseFunction, hold, Token.isFunction, Token.ofLexeme, argumentCount]

/-- A sign before an operand takes a zero and the operand. -/
lemma Lists.sign {out : List Token} (op : Sign) {waiting : List Token}
    (h : ∀ out, Lists ⟨out, op.1.token :: .openParen :: waiting, fs⟩ w p 3 fs) :
    Lists ⟨out, .openParen :: waiting, fs⟩ (.number "0" :: op.1.token :: w)
      (.number "0" :: p ++ [op.1.token]) 1 fs := by
  have hzero : Lists ⟨out, .openParen :: waiting, fs⟩ [.number "0"] [.number "0"] 5 fs :=
    lists_of_read rfl 5
  have hop := op.2
  refine (hzero.binary op.ne_factorial ?_ ?_ fun out => (h out).mono (by omega)).mono hop.ge
  · exact fun waiting hn => Operator.takes_of_lt (by omega)
  · rintro top ⟨⟩
    exact .inl rfl

/-! ## Parse trees -/

/-- What waits before a phrase leaves the operand to an operator of the phrase. -/
lemma Ready.not_takes {k : Phrase} (h : Ready k c) {op : Operator}
    (hk : k.bound ≤ op.precedence ∨ k.bound = op.precedence + 1 ∧ op.side = .right) :
    ∀ top ∈ c.waiting.head?, top = .openParen ∨
      ∃ waiting : Operator, top = waiting.token ∧ waiting.takes op = false := by
  intro top htop
  rcases h.1 top htop with h | ⟨waiting, h, hwaiting⟩
  · exact .inl h
  refine .inr ⟨waiting, h, ?_⟩
  rcases hk with hk | ⟨hk, hside⟩
  · exact Operator.not_takes_of_lt (by omega)
  · exact Operator.not_takes_of_le (by omega) hside

/-- A separator puts out all of the argument before it. -/
lemma Lists.separator {out waiting : List Token} {arguments : Nat} {fs fs' : List Frame}
    (hl : Lists ⟨out, .openParen :: waiting, .call arguments :: fs⟩ l p n (.call arguments :: fs))
    (hr : ∀ out, Lists ⟨out, .openParen :: waiting, .call (arguments + 1) :: fs⟩ r w m fs') :
    Lists ⟨out, .openParen :: waiting, .call arguments :: fs⟩ (l ++ .separator :: r) (p ++ w) m
      fs' := by
  obtain ⟨lout, lops, rfl, hlread, hlops⟩ := hl
  obtain ⟨rout, rops, rfl, hrread, hrops⟩ := hr (lops.reverse ++ (lout.reverse ++ out))
  have hrelease := releaseToParen_append (lout.reverse ++ out) waiting (.call arguments :: fs)
    fun o ho => (hlops o ho).imp fun _ h => h.1
  have hread : read ⟨lout.reverse ++ out, lops ++ .openParen :: waiting, .call arguments :: fs⟩
      .separator = .ok ⟨lops.reverse ++ (lout.reverse ++ out), .openParen :: waiting,
        .call (arguments + 1) :: fs⟩ := by
    simp [read, Token.separator, Token.ofLexeme, onSeparator, hrelease]
  refine ⟨lout ++ lops ++ rout, rops, by simp, ?_, hrops⟩
  rw [readAll_append_of_ok hlread, readAll_cons hread, hrread]
  simp

/-- The written tokens of a phrase put its listing out, the operators apart that can still wait. -/
lemma lists_written {k : Phrase} (t : Tree k) {c : Conversion} (h : Ready k c) :
    Lists c t.written t.listing k.strength (t.framesAfter c.frames) := by
  induction t generalizing c with
  | ofTerm t ih =>
    have ht : Lists c t.written t.listing 2 c.frames := ih (h.mono (by decide) nofun)
    exact ht.mono (by decide)
  | ofSigned u ih =>
    have hu : Lists c u.written u.listing 3 c.frames := ih (h.mono (by decide) nofun)
    exact hu.mono (by decide)
  | ofPower p ih => exact ih (h.mono (by decide) nofun)
  | ofBase b ih =>
    have hb : Lists c b.written b.listing 4 c.frames := ih (h.mono (by decide) nofun)
    exact hb.mono (by decide)
  | ofAtom a ih =>
    have ha : Lists c a.written a.listing 5 c.frames := ih (h.mono le_rfl nofun)
    exact ha.mono (by decide)
  | sum l op r ihl ihr =>
    have hop := op.2
    have hl : Lists c l.written l.listing 1 c.frames := ihl h
    have hr : ∀ out, Lists ⟨out, op.1.token :: c.waiting, c.frames⟩ r.written r.listing 2
        c.frames := fun out => ihr (ready_operator .term nofun (by simp [hop, Phrase.bound]))
    refine (hl.binary op.ne_factorial ?_ (h.not_takes (.inl hop.ge)) fun out =>
      (hr out).mono (by omega)).mono hop.ge
    exact fun waiting hw => Operator.takes_of_le (by omega)
      (Operator.side_of_precedence_le (by omega))
  | product l op r ihl ihr =>
    have hop := op.2
    have hl : Lists c l.written l.listing 2 c.frames := ihl h
    have hr : ∀ out, Lists ⟨out, op.1.token :: c.waiting, c.frames⟩ r.written r.listing 3
        c.frames := fun out => ihr (ready_operator .signed nofun (by simp [hop, Phrase.bound]))
    refine (hl.binary op.ne_factorial ?_ (h.not_takes (.inl hop.ge)) fun out =>
      (hr out).mono (by omega)).mono hop.ge
    exact fun waiting hw => Operator.takes_of_le (by omega)
      (Operator.side_of_precedence_le (by omega))
  | pow l u ihl ihu =>
    have hl : Lists c l.written l.listing 4 c.frames := ihl (h.mono le_rfl nofun)
    have hu : ∀ out, Lists ⟨out, Operator.pow.token :: c.waiting, c.frames⟩ u.written u.listing 3
        c.frames := fun out => ihu (ready_operator .signed nofun (by decide))
    exact hl.binary nofun (fun waiting hw => Operator.takes_of_lt hw)
      (h.not_takes (.inr ⟨rfl, rfl⟩)) hu
  | unary op u ih =>
    exact Lists.group h (fun out => Lists.sign op fun out =>
      ih (ready_operator .signed nofun (by simp [op.2, Phrase.bound]))) 3
  | signCall name op u ih =>
    have hcall := Lists.call (c := c) name (fun out waiting => Lists.sign op fun out =>
      ih (ready_operator .signed nofun (by simp [op.2, Phrase.bound]))) 3
    rw [List.append_assoc] at hcall
    exact hcall
  | factorial a ih =>
    have ha : Lists c a.written a.listing 5 c.frames := ih (h.mono le_rfl nofun)
    exact ha.factorial
  | number text => exact lists_of_read rfl _
  | constant name => exact lists_of_read rfl _
  | unknown => exact lists_of_read rfl _
  | group e ih =>
    exact Lists.group h (fun out => ih (ready_openParen .expression nofun _ _ _)) _
  | call name args ih =>
    exact Lists.call (c := c) name (fun out waiting => ih (ready_arguments _ _ _ _)) _
  | last e ih =>
    obtain ⟨out, waiting, arguments, fs, rfl⟩ := h.of_arguments
    have hframes : e.last.framesAfter (.call arguments :: fs) = .call arguments :: fs := by
      simp [Tree.framesAfter, Tree.separators, Frame.more]
    rw [hframes]
    exact ih (h.mono le_rfl nofun)
  | more e args ihe ihargs =>
    obtain ⟨out, waiting, arguments, fs, rfl⟩ := h.of_arguments
    have he := ihe (h.mono (m := .expression) le_rfl nofun)
    have hargs := fun out => ihargs (ready_arguments out waiting (arguments + 1) fs)
    have hframes : (Tree.more e args).framesAfter (.call arguments :: fs) =
        args.framesAfter (.call (arguments + 1) :: fs) := by
      simp only [Tree.framesAfter, Tree.separators, Frame.more, List.modifyHead_cons]
      rw [Nat.add_right_comm, Nat.add_assoc]
    rw [hframes]
    exact Lists.separator he hargs

end Conversion

/-- An expression is converted to its listing. -/
theorem convert_written (t : Tree .expression) : convert t.written = .ok t.listing := by
  have hstart : Conversion.Ready .expression .start := ⟨by simp [Conversion.start], nofun⟩
  obtain ⟨out, ops, hlisting, hread, hops⟩ := Conversion.lists_written t hstart
  have hparens : ops.any Token.isOpenParen = false := by
    rw [List.any_eq_false]
    intro o ho
    obtain ⟨op, rfl, _⟩ := hops o ho
    simp
  rw [convert, bind_of_eq_ok hread, hlisting]
  simp [Conversion.finish, Conversion.start, hparens]

end Calculator
