import Calculator.Proofs.Bracketing

/-!
# The two stacks of the conversion

The conversion keeps tokens that wait on one stack and frames on another.  The two are pushed and
popped at different places, and nothing compares them.  `InStep` says what they have in common with
each other and with the tokens that have been read: there is one frame for each parenthesis that
waits, in the same order; it is that of a call exactly if a function waits directly below the
parenthesis; and a call has one argument more than there are separators directly in it.  Every token
keeps it so (`Conversion.inStep_read`), arranged as an expression or not, and so does a whole run
(`Conversion.inStep_of_readAll`).

A separator belongs to the parenthesis that is the innermost open one when it is met.  Seen from
that parenthesis, the tokens between the two are then balanced (`directSeparators`).

Two choices of the conversion turn out never to be made: a function that is let out at a closing
parenthesis always has a frame with its arguments, and something waits wherever the innermost frame
is that of a call (`stacks_in_step`).
-/

namespace Calculator

instance : DecidablePred Balanced := fun _ => decidable_of_iff _ balanced_iff.symm

variable {ts l r inside outside : List Token} {t o : Token}

/-! ## Separators -/

/-- Whether a token is a separator. -/
def Token.isSeparator (t : Token) : Bool := t.lexeme = .separator

/-- Of the tokens after a parenthesis, the number of separators that are met while it is the
innermost open one: all that has been opened after it is closed again. -/
def directSeparators (inside : List Token) : Nat :=
  (List.range inside.length).countP fun i =>
    inside[i]?.any Token.isSeparator && decide (Balanced (inside.take i))

lemma directSeparators_concat (l : List Token) (t : Token) :
    directSeparators (l ++ [t]) =
      directSeparators l + if t.isSeparator = true ∧ Balanced l then 1 else 0 := by
  have hfront : ∀ i ∈ List.range l.length,
      ((l ++ [t])[i]?.any Token.isSeparator && decide (Balanced ((l ++ [t]).take i))) =
        (l[i]?.any Token.isSeparator && decide (Balanced (l.take i))) := by
    intro i hi
    have hlt : i < l.length := List.mem_range.mp hi
    rw [List.getElem?_append_left hlt, List.take_append_of_le_length hlt.le]
  rw [directSeparators, List.length_append, List.length_singleton, List.range_succ,
    List.countP_append, List.countP_congr fun i hi => by rw [hfront i hi]]
  congr 1
  simp [List.countP_cons]

/-- A token that is no separator, or is not directly in the parenthesis. -/
lemma directSeparators_concat_of_not (h : t.isSeparator = true → ¬ Balanced l) :
    directSeparators (l ++ [t]) = directSeparators l := by
  rw [directSeparators_concat, if_neg fun hand => h hand.1 hand.2, Nat.add_zero]

/-- What stands in another parenthesis does not count. -/
lemma directSeparators_append_open (ho : o.isOpenParen = true) (hinside : Balanced inside) :
    directSeparators (l ++ o :: inside) = directSeparators l := by
  have hfronts : ∀ r, r <+: inside → directSeparators (l ++ o :: r) = directSeparators l := by
    intro r hr
    induction r using List.reverseRecOn with
    | nil =>
      refine directSeparators_concat_of_not fun hsep => ?_
      simp_all [Token.isSeparator, Token.isOpenParen]
    | append_singleton r t ih =>
      have hprefix : r <+: inside := (List.prefix_append r [t]).trans hr
      have hopen := not_balanced_of_countP_le (l := l) ho (hinside.front r hprefix)
      rw [← List.cons_append, ← List.append_assoc, directSeparators_concat_of_not fun _ => hopen,
        ih hprefix]
  exact hfronts inside List.prefix_rfl

/-- Neither does a whole piece in parentheses. -/
lemma directSeparators_append_enclosed (ho : o.isOpenParen = true) (hinside : Balanced inside)
    (ht : t.isCloseParen = true) :
    directSeparators (l ++ (o :: inside ++ [t])) = directSeparators l := by
  rw [← List.append_assoc, directSeparators_concat_of_not, directSeparators_append_open ho hinside]
  intro hsep
  simp_all [Token.isSeparator, Token.isCloseParen]

/-! ## The stacks -/

variable {w : List Token} {f : Frame} {fs : List Frame}

/-- After the tokens `ts`, these tokens wait and these are the frames.  Each parenthesis that waits
has its frame, which is that of a call exactly if a function waits directly below, and then counts
the separators directly in it. -/
inductive InStep : List Token → List Token → List Frame → Prop
  | balanced {ts : List Token} (h : Balanced ts) : InStep ts [] []
  | above {ts w : List Token} {fs : List Frame} {t : Token} (h : InStep ts w fs)
      (ht : t.isOpenParen = false) : InStep ts (t :: w) fs
  | paren {outside inside w : List Token} {fs : List Frame} {o : Token} {f : Frame}
      (h : InStep outside w fs) (ho : o.isOpenParen = true) (hinside : Balanced inside)
      (hcall : f.isCall = w.head?.any Token.isFunction)
      (hcount : ∀ n, f = .call n → n = 1 + directSeparators inside) :
      InStep (outside ++ o :: inside) (o :: w) (f :: fs)

namespace InStep

/-- Balanced tokens without a separator of their own leave both stacks as they were. -/
lemma append (h : InStep ts w fs) (hr : Balanced r)
    (hsep : ∀ l, directSeparators (l ++ r) = directSeparators l) : InStep (ts ++ r) w fs := by
  induction h with
  | balanced h => exact .balanced (h.append hr)
  | above _ ht ih => exact ih.above ht
  | paren h ho hinside hcall hcount =>
    rw [List.append_assoc, List.cons_append]
    exact .paren h ho (hinside.append hr) hcall fun n hn => by rw [hsep, hcount n hn]

/-- A token that neither is a parenthesis nor separates. -/
lemma concat (h : InStep ts w fs) (hopen : t.isOpenParen = false) (hclose : t.isCloseParen = false)
    (hsep : t.isSeparator = false) : InStep (ts ++ [t]) w fs :=
  h.append (balanced_singleton hopen hclose) fun l =>
    directSeparators_concat_of_not fun h => absurd h (by simp [hsep])

/-- Tokens that are let out and are no parentheses leave the frames as they were. -/
lemma of_append (h : InStep ts (l ++ w) fs) (hl : ∀ a ∈ l, a.isOpenParen = false) :
    InStep ts w fs := by
  induction l with
  | nil => exact h
  | cons a l ih =>
    obtain ⟨ha, hl⟩ := List.forall_mem_cons.mp hl
    refine ih ?_ hl
    generalize hw : a :: l ++ w = waiting at h
    cases h with
    | balanced => cases hw
    | above h =>
      cases hw
      exact h
    | paren _ ho =>
      cases hw
      cases ha.symm.trans ho

lemma dropWhile (h : InStep ts w fs) {q : Token → Bool}
    (hq : ∀ a, q a = true → a.isOpenParen = false) : InStep ts (w.dropWhile q) fs := by
  refine of_append (l := w.takeWhile q) ?_ fun a ha => hq a (List.mem_takeWhile_imp ha)
  rwa [List.takeWhile_append_dropWhile]

/-- The innermost open parenthesis, if it waits on top. -/
lemma of_cons (h : InStep ts (o :: w) fs) (ho : o.isOpenParen = true) :
    ∃ outside inside f rest, ts = outside ++ o :: inside ∧ fs = f :: rest ∧
      InStep outside w rest ∧ Balanced inside ∧ f.isCall = w.head?.any Token.isFunction ∧
      ∀ n, f = .call n → n = 1 + directSeparators inside := by
  generalize hw : o :: w = waiting at h
  cases h with
  | balanced => cases hw
  | above _ ht =>
    cases hw
    cases ht.symm.trans ho
  | paren h _ hinside hcall hcount =>
    cases hw
    exact ⟨_, _, _, _, rfl, rfl, h, hinside, hcall, hcount⟩

/-- As long as there is a frame, a parenthesis waits. -/
lemma ne_nil (h : InStep ts w (f :: fs)) : w ≠ [] := by
  rintro rfl
  cases h

end InStep

/-! ## Each parenthesis with its frame -/

/-- The parentheses that wait, the latest first, each with what waits below it. -/
def waitingParens : List Token → List (Token × List Token)
  | [] => []
  | t :: below =>
    if t.isOpenParen then (t, below) :: waitingParens below else waitingParens below

/-- A frame fits the parenthesis `o` that waits above `below`, after which `depth` further ones have
been opened in the tokens `ts` and are open still: it is the frame of a call exactly if a function
is what waits directly below, and the arguments of a call are one more than the separators met while
the parenthesis was the innermost open one. -/
def Frame.Fits (ts : List Token) (depth : Nat) (o : Token) (below : List Token) (f : Frame) :
    Prop :=
  f.isCall = below.head?.any Token.isFunction ∧
    ∃ outside inside, ts = outside ++ o :: inside ∧ depthAfter 0 inside = some depth ∧
      ∀ n, f = .call n → n = 1 + directSeparators inside

/-- There are as many frames as parentheses that wait, and each fits its own. -/
def Paired (ts w : List Token) (fs : List Frame) : Prop :=
  fs.length = (waitingParens w).length ∧
    ∀ (k : Nat) (o : Token) (below : List Token) (f : Frame),
      (waitingParens w)[k]? = some (o, below) → fs[k]? = some f → f.Fits ts k o below

/-- A parenthesis that has been opened inside of another does not change that one's separators, and
puts it one further out. -/
lemma Frame.Fits.append {depth : Nat} {p : Token} {below : List Token}
    (h : f.Fits outside depth p below) (ho : o.isOpenParen = true) (hinside : Balanced inside) :
    f.Fits (outside ++ o :: inside) (depth + 1) p below := by
  obtain ⟨hcall, before, after, rfl, hdepth, hcount⟩ := h
  refine ⟨hcall, before, after ++ o :: inside, by simp, ?_, fun n hn => ?_⟩
  · obtain ⟨lo, no⟩ := o
    obtain rfl : lo = .openParen := of_decide_eq_true ho
    have hopened : depthAfter (depth + 1) inside = some (depth + 1) := by
      simpa [Nat.add_comm] using depthAfter_add (balanced_iff.mp hinside) (depth + 1)
    rw [depthAfter_append_of_eq hdepth]
    exact hopened
  · rw [directSeparators_append_open ho hinside, hcount n hn]

theorem InStep.paired (h : InStep ts w fs) : Paired ts w fs := by
  induction h with
  | balanced => exact ⟨rfl, by simp [waitingParens]⟩
  | above h ht ih => simpa [Paired, waitingParens, ht] using ih
  | paren h ho hinside hcall hcount ih =>
    obtain ⟨hlength, hfits⟩ := ih
    refine ⟨by simp [waitingParens, ho, hlength], fun k o below f hk hf => ?_⟩
    simp only [waitingParens, ho, if_true] at hk
    cases k with
    | zero =>
      cases hk
      cases hf
      exact ⟨hcall, _, _, rfl, balanced_iff.mp hinside, hcount⟩
    | succ k => exact (hfits k o below f hk hf).append ho hinside

namespace Conversion

variable {c d : Conversion}

lemma inStep_start : InStep [] start.waiting start.frames := .balanced balanced_nil

lemma inStep_releaseToParen (h : InStep ts c.waiting c.frames) :
    InStep ts c.releaseToParen.waiting c.frames :=
  h.dropWhile (by simp)

lemma inStep_onOperator (h : InStep ts c.waiting c.frames) (n : Nat) (symbol : String) :
    InStep (ts ++ [⟨.operator symbol, n⟩]) (c.onOperator ⟨.operator symbol, n⟩ symbol).waiting
      (c.onOperator ⟨.operator symbol, n⟩ symbol).frames := by
  have hread := h.concat (t := ⟨.operator symbol, n⟩) rfl rfl rfl
  unfold onOperator
  split
  · exact hread.above rfl
  · exact (hread.dropWhile fun a ha =>
      Token.not_isOpenParen_of_isOperator (Bool.and_eq_true_iff.mp ha).1).above rfl

/-- A parenthesis takes its frame from what waits on top of the stack. -/
lemma inStep_onOpenParen (h : InStep ts c.waiting c.frames) (n : Nat) :
    InStep (ts ++ [⟨.openParen, n⟩]) (c.onOpenParen ⟨.openParen, n⟩).waiting
      (c.onOpenParen ⟨.openParen, n⟩).frames := by
  refine .paren h rfl balanced_nil ?_ fun arguments hf => ?_
  · split <;> simp_all [Frame.isCall]
  · split at hf <;> cases hf
    rfl

/-- A separator is counted by the frame of the innermost parenthesis. -/
lemma inStep_onSeparator (h : InStep ts c.waiting c.frames) {n : Nat}
    (hread : c.onSeparator = .ok d) :
    InStep (ts ++ [⟨.separator, n⟩]) d.waiting d.frames := by
  obtain ⟨arguments, fs, hframes, rfl⟩ := of_onSeparator hread
  have hrelease := inStep_releaseToParen h
  rw [hframes] at hrelease
  obtain ⟨o, w, hw⟩ := List.exists_cons_of_ne_nil hrelease.ne_nil
  have htop : o ∈ c.releaseToParen.waiting.head? := by rw [hw]; rfl
  have ho := isOpenParen_of_releaseToParen htop
  rw [hw] at hrelease
  obtain ⟨outside, inside, f, rest, rfl, hf, houtside, hinside, hcall, hcount⟩ :=
    hrelease.of_cons ho
  cases hf
  have hnext : directSeparators (inside ++ [⟨.separator, n⟩]) = directSeparators inside + 1 := by
    simp [directSeparators_concat, Token.isSeparator, hinside]
  show InStep _ c.releaseToParen.waiting _
  rw [hw, List.append_assoc, List.cons_append]
  refine .paren houtside ho (hinside.append (balanced_singleton rfl rfl)) hcall ?_
  rintro m ⟨⟩
  rw [hnext, hcount arguments rfl, Nat.add_assoc]

/-- A closing parenthesis takes the innermost parenthesis off both stacks. -/
lemma inStep_onCloseParen (h : InStep ts c.waiting c.frames) {n : Nat}
    (hread : c.onCloseParen = .ok d) :
    InStep (ts ++ [⟨.closeParen, n⟩]) d.waiting d.frames := by
  obtain ⟨o, w, hw, ho, rfl⟩ := of_onCloseParen hread
  have hrelease := inStep_releaseToParen h
  rw [hw] at hrelease
  obtain ⟨outside, inside, f, rest, rfl, hf, houtside, hinside, -, -⟩ := hrelease.of_cons ho
  have hclosed : InStep (outside ++ o :: inside ++ [⟨.closeParen, n⟩]) w c.frames.tail := by
    rw [List.append_assoc, hf]
    exact houtside.append (hinside.enclosed ho rfl) fun l =>
      directSeparators_append_enclosed ho hinside rfl
  rcases releaseFunction_cases ⟨c.releaseToParen.output, w, c.frames.tail⟩ c.frames.head? with
    ⟨-, hsame⟩ | ⟨top, below, hbelow, htop, heq⟩
  · rw [hsame]
    exact hclosed
  · rw [heq]
    obtain rfl : w = top :: below := hbelow
    refine hclosed.of_append (l := [top]) fun a ha => ?_
    rw [List.mem_singleton.mp ha]
    exact Token.not_isOpenParen_of_isFunction htop

/-- One token keeps the stacks in step. -/
lemma inStep_read (h : InStep ts c.waiting c.frames) (hread : c.read t = .ok d) :
    InStep (ts ++ [t]) d.waiting d.frames := by
  obtain ⟨l, n⟩ := t
  cases l with
  | number text | constant name | unknown =>
    cases hread
    exact h.concat rfl rfl rfl
  | function name =>
    cases hread
    exact (h.concat (t := ⟨.function name, n⟩) rfl rfl rfl).above rfl
  | operator symbol =>
    cases hread
    exact inStep_onOperator h n symbol
  | openParen =>
    cases hread
    exact inStep_onOpenParen h n
  | separator => exact inStep_onSeparator h hread
  | closeParen => exact inStep_onCloseParen h hread

/-- So do all tokens that can be read. -/
theorem inStep_of_readAll (h : start.readAll ts = .ok c) : InStep ts c.waiting c.frames := by
  induction ts using List.reverseRecOn generalizing c with
  | nil =>
    cases h
    exact inStep_start
  | append_singleton ts t ih =>
    rw [readAll_append] at h
    obtain ⟨d, hd, ht⟩ := of_bind_eq_ok h
    obtain ⟨e, he, hdone⟩ := of_bind_eq_ok ht
    cases hdone
    exact inStep_read (ih hd) he

/-! ## What never decides -/

/-- A separator by the innermost frame alone, without a look at what waits. -/
def onSeparatorByFrame (c : Conversion) : Except Fault Conversion :=
  match c.frames with
  | .call arguments :: frames =>
    .ok { c.releaseToParen with frames := .call (arguments + 1) :: frames }
  | _ => .error (.grammar .separatorOutsideCall)

lemma onSeparator_eq (h : InStep ts c.waiting c.frames) : c.onSeparator = c.onSeparatorByFrame := by
  have hrelease := inStep_releaseToParen h
  have hsame : c.releaseToParen.frames = c.frames := rfl
  simp only [onSeparator, onSeparatorByFrame, hsame]
  cases hframes : c.frames with
  | nil => rfl
  | cons f frames =>
    cases f with
    | group => rfl
    | call arguments =>
      rw [hframes] at hrelease
      have hwaits : c.releaseToParen.waiting.isEmpty = false := by simpa using hrelease.ne_nil
      simp [hwaits]

/-- A function that is let out with its parenthesis has a frame with its arguments. -/
lemma onCloseParen_of_isFunction (h : InStep ts c.waiting c.frames) (hread : c.onCloseParen = .ok d)
    {function : Token} {below : List Token}
    (hw : c.releaseToParen.waiting = o :: function :: below) (hf : function.isFunction = true) :
    ∃ outside inside, ts = outside ++ o :: inside ∧ Balanced inside ∧
      c.frames.head? = some (.call (1 + directSeparators inside)) ∧
      d.output = function.withArity (1 + directSeparators inside) :: c.releaseToParen.output := by
  obtain ⟨top, w, htop, ho, rfl⟩ := of_onCloseParen hread
  cases hw.symm.trans htop
  have hrelease := inStep_releaseToParen h
  rw [hw] at hrelease
  obtain ⟨outside, inside, f, rest, rfl, hframes, -, hinside, hcall, hcount⟩ := hrelease.of_cons ho
  cases f with
  | group => simp [Frame.isCall, hf] at hcall
  | call n =>
    obtain rfl := hcount n rfl
    refine ⟨outside, inside, rfl, hinside, by rw [hframes]; rfl, ?_⟩
    simp [releaseFunction, hf, hframes, argumentCount]

/-- Whatever tokens have been read, arranged as an expression or not: the frames are those of the
parentheses that wait, also while other tokens are let out from above them; a function that is let
out at a closing parenthesis gets the number of its arguments from its own frame; and what waits
has no say in whether a separator is refused. -/
theorem stacks_in_step (h : start.readAll ts = .ok c) :
    (∀ out rest, c.waiting = out ++ rest → (∀ a ∈ out, a.isOpenParen = false) →
      Paired ts rest c.frames) ∧
    (∀ t d, t.isCloseParen = true → c.read t = .ok d → ∀ o function below,
      c.releaseToParen.waiting = o :: function :: below → function.isFunction = true →
        ∃ outside inside, ts = outside ++ o :: inside ∧ Balanced inside ∧
          c.frames.head? = some (.call (1 + directSeparators inside)) ∧
          d.output =
            function.withArity (1 + directSeparators inside) :: c.releaseToParen.output) ∧
    c.onSeparator = c.onSeparatorByFrame := by
  have hstep := inStep_of_readAll h
  refine ⟨fun out rest hw hout => ?_, fun t d ht hread o function below hw hf => ?_,
    onSeparator_eq hstep⟩
  · rw [hw] at hstep
    exact (hstep.of_append hout).paired
  · obtain ⟨l, n⟩ := t
    obtain rfl : l = .closeParen := of_decide_eq_true ht
    exact onCloseParen_of_isFunction hstep hread hw hf

/-- In `f 1 (2, + g (3`, which is no expression, the call of `f` has two arguments and that of `g`
has one. -/
theorem stacks_in_step_stray :
    let ts : List Token := [.ofLexeme (.function "f"), .number "1", .openParen, .number "2",
      .separator, .operator "+", .ofLexeme (.function "g"), .openParen, .number "3"]
    let c : Conversion := ⟨[.number "3", .number "2", .number "1"],
      [.openParen, .ofLexeme (.function "g"), .operator "+", .openParen,
        .ofLexeme (.function "f")], [.call 1, .call 2]⟩
    start.readAll ts = .ok c ∧ Paired ts c.waiting c.frames ∧
      c.onSeparator = c.onSeparatorByFrame := by
  intro ts c
  have h : start.readAll ts = .ok c := by decide
  exact ⟨h, (stacks_in_step h).1 [] c.waiting rfl nofun, (stacks_in_step h).2.2⟩

end Conversion

end Calculator
