import Calculator.Expression
import Calculator.Proofs.Arrangement
import Calculator.Proofs.Conversion
import Calculator.Proofs.Stages

/-!
# Literal zeros after a slash

A slash directly before a numeral for zero is refused before anything is evaluated
(`exists_dividesZero`).  What is divided by is decided later: a factorial or a power after the zero
takes it first, and `1/0!` divides by one.  Those two apart, whatever can come after an operand lets
the slash out at once, so that the zero stands directly before it in the order of evaluation
(`isInfix_of_convert`), and such a program has no value, whatever else is in it
(`exists_fault_of_isInfix`).
-/

namespace Calculator

/-! ## What is refused -/

section Arrangement

variable {prev next : Option Token} {t : Token} {fault : Fault}

lemma ne_error_of_failsWith {x : Except Fault Unit} (hx : FailsWith .grammar [.malformedSyntax] x)
    (hcode : fault.code = .divisionByZero) : x ≠ .error fault := by
  intro h
  cases (List.mem_singleton.mp (hx fault h).2).symm.trans hcode

lemma dividesZero_of_checkSecondOperand {b : Token} (h : checkSecondOperand prev t b = .error fault)
    (hcode : fault.code = .divisionByZero) :
    t.dividesZero b = true ∧ fault = .grammar (.literalZeroDivisor b.text) := by
  obtain ⟨l, n⟩ := b
  unfold checkSecondOperand at h
  split at h
  · cases h
    cases hcode
  split at h
  · cases h
    cases hcode
  split at h
  · cases h
    cases hcode
  split at h
  next text hlexeme =>
    obtain rfl : l = .number text := hlexeme
    split at h
    next hzero =>
      cases h
      exact ⟨hzero, rfl⟩
    · cases h
  · cases h

lemma dividesZero_of_checkOperator (h : checkOperator prev t next = .error fault)
    (hcode : fault.code = .divisionByZero) :
    ∃ b ∈ next, t.dividesZero b = true ∧ fault = .grammar (.literalZeroDivisor b.text) := by
  unfold checkOperator at h
  split at h
  · exact absurd h (ne_error_of_failsWith (failsWith_checkFactorial prev next t) hcode)
  split at h
  · cases h
    cases hcode
  split at h
  · cases h
    cases hcode
  · exact ⟨_, rfl, dividesZero_of_checkSecondOperand h hcode⟩

/-- Of all rules only that of the operators is about a value. -/
lemma dividesZero_of_checkToken (h : checkToken prev t next = .error fault)
    (hcode : fault.code = .divisionByZero) :
    ∃ b ∈ next, t.dividesZero b = true ∧ fault = .grammar (.literalZeroDivisor b.text) := by
  by_cases ht : t.isOperator = true
  · rw [checkToken_of_isOperator ht] at h
    exact dividesZero_of_checkOperator h hcode
  · have hrule := failsWith_checkToken_of_not_isOperator prev next t (Bool.eq_false_iff.mpr ht)
    exact absurd h (ne_error_of_failsWith hrule hcode)

lemma exists_dividesZero_of_checkFrom {ts : List Token} (h : checkFrom prev ts = .error fault)
    (hcode : fault.code = .divisionByZero) :
    ∃ before a b after, ts = before ++ a :: b :: after ∧ a.dividesZero b = true ∧
      fault = .grammar (.literalZeroDivisor b.text) := by
  induction ts generalizing prev with
  | nil => cases h
  | cons t rest ih =>
    rcases of_bind_eq_error h with htoken | ⟨_, -, hrest⟩
    · obtain ⟨b, hb, hzero⟩ := dividesZero_of_checkToken htoken hcode
      obtain ⟨after, rfl⟩ := List.head?_eq_some_iff.mp hb
      exact ⟨[], t, b, after, rfl, hzero⟩
    · obtain ⟨before, a, b, after, rfl, hzero⟩ := ih hrest
      exact ⟨t :: before, a, b, after, rfl, hzero⟩

/-- What is refused as a division by zero has a slash and a numeral for zero side by side. -/
theorem exists_dividesZero {ts : List Token} (h : checkArrangement ts = .error fault)
    (hcode : fault.code = .divisionByZero) :
    ∃ before a b after, ts = before ++ a :: b :: after ∧ a.dividesZero b = true ∧
      fault = .grammar (.literalZeroDivisor b.text) := by
  unfold checkArrangement at h
  split at h
  · cases h
    cases hcode
  · exact exists_dividesZero_of_checkFrom h hcode

end Arrangement

/-! ## What comes out -/

lemma Token.eq_of_dividesZero {a b : Token} (h : a.dividesZero b = true) :
    ∃ n text m, a = ⟨.operator "/", n⟩ ∧ b = ⟨.number text, m⟩ ∧ isLiteralZero text = true := by
  obtain ⟨l, n⟩ := a
  obtain ⟨k, m⟩ := b
  obtain ⟨hslash, hzero⟩ := Bool.and_eq_true_iff.mp h
  obtain rfl : l = .operator "/" := of_decide_eq_true hslash
  cases k with
  | number text => exact ⟨n, text, m, rfl, rfl, hzero⟩
  | _ => cases hzero

lemma takesOperand_slash {symbol : String} (hfactorial : symbol ≠ "!") (hpow : symbol ≠ "^") :
    takesOperand "/" symbol = true := by
  cases h : Operator.ofSymbol? symbol with
  | none => simp [takesOperand, side, precedence, h]
  | some op =>
    obtain rfl := Operator.ofSymbol?_eq_some_iff.mp h
    cases op with
    | pow => cases hpow rfl
    | factorial => cases hfactorial rfl
    | _ => decide

namespace Conversion

variable {c d : Conversion} {t a : Token} {ts : List Token}

lemma output_suffix_release (c : Conversion) (q : Token → Bool) :
    c.output <:+ (c.release q).output :=
  List.suffix_append ..

lemma output_suffix_releaseFunction (c : Conversion) (f : Option Frame) :
    c.output <:+ (c.releaseFunction f).output := by
  rcases c.releaseFunction_cases f with ⟨-, hsame⟩ | ⟨top, waiting, -, -, hrelease⟩
  · simp [hsame]
  · rw [hrelease]
    exact List.suffix_cons ..

/-- A closing parenthesis lets out what waits in it, and then perhaps a function. -/
lemma output_suffix_of_onCloseParen (h : c.onCloseParen = .ok d) :
    c.releaseToParen.output <:+ d.output := by
  obtain ⟨top, waiting, -, -, rfl⟩ := of_onCloseParen h
  exact output_suffix_releaseFunction ⟨c.releaseToParen.output, waiting, c.frames.tail⟩ _

/-- What is out stays out. -/
lemma output_suffix_of_read (h : c.read t = .ok d) : c.output <:+ d.output := by
  obtain ⟨l, n⟩ := t
  cases l with
  | operator symbol =>
    cases h
    unfold onOperator
    split
    · exact List.suffix_rfl
    · exact output_suffix_release ..
  | separator =>
    obtain ⟨arguments, frames, -, rfl⟩ := of_onSeparator h
    exact output_suffix_release ..
  | closeParen =>
    have hparen : c.output <:+ c.releaseToParen.output := output_suffix_release ..
    exact hparen.trans (output_suffix_of_onCloseParen h)
  | number _ | constant _ | unknown =>
    cases h
    exact List.suffix_cons ..
  | function _ | openParen =>
    cases h
    exact List.suffix_rfl

lemma output_suffix_of_readAll (h : c.readAll ts = .ok d) : c.output <:+ d.output := by
  induction ts generalizing c with
  | nil =>
    cases h
    exact List.suffix_rfl
  | cons t ts ih =>
    obtain ⟨e, hread, hrest⟩ := of_bind_eq_ok h
    exact (output_suffix_of_read hread).trans (ih hrest)

/-- The latest token that waits comes out next, if it is let out. -/
lemma cons_output_suffix_release {w : List Token} {q : Token → Bool} (hw : c.waiting = a :: w)
    (ha : q a = true) : a :: c.output <:+ (c.release q).output := by
  rw [release, hw, List.takeWhile_cons_of_pos ha, List.reverse_cons, List.append_assoc]
  exact List.suffix_append ..

/-- A slash that waits comes out where its second operand ends. -/
lemma cons_output_suffix_of_read {w : List Token} {n : Nat}
    (hw : c.waiting = ⟨.operator "/", n⟩ :: w) (htight : bindsTighter (some t) = false)
    (hstart : t.startsOperand = false) (h : c.read t = .ok d) :
    ⟨.operator "/", n⟩ :: c.output <:+ d.output := by
  obtain ⟨l, m⟩ := t
  cases l with
  | number _ | constant _ | unknown | function _ | openParen => cases hstart
  | operator symbol =>
    simp only [bindsTighter, Token.isFactorial, Token.isSymbol, Bool.or_eq_false_iff,
      decide_eq_false_iff_not, Lexeme.operator.injEq] at htight
    cases h
    rw [onOperator, if_neg htight.1]
    exact cons_output_suffix_release hw (takesOperand_slash htight.1 htight.2)
  | separator =>
    obtain ⟨arguments, frames, -, rfl⟩ := of_onSeparator h
    exact cons_output_suffix_release hw rfl
  | closeParen =>
    have hparen := cons_output_suffix_release (q := fun t => !t.isOpenParen) hw rfl
    exact hparen.trans (output_suffix_of_onCloseParen h)

end Conversion

/-- Where a numeral after a slash is all of the divisor, the two stand side by side in the order of
evaluation, the other way round. -/
theorem isInfix_of_convert {before after p : List Token} {a b : Token}
    (hzero : a.dividesZero b = true)
    (hafter : ∀ t ∈ after.head?, bindsTighter (some t) = false ∧ t.startsOperand = false)
    (h : convert (before ++ a :: b :: after) = .ok p) : [b, a] <:+: p := by
  obtain ⟨n, text, m, rfl, rfl, -⟩ := Token.eq_of_dividesZero hzero
  obtain ⟨d, hread, hfinish⟩ := of_bind_eq_ok h
  obtain ⟨-, rfl⟩ := Conversion.of_finish hfinish
  rw [Conversion.readAll_append] at hread
  obtain ⟨c, -, hread⟩ := of_bind_eq_ok hread
  -- The slash waits on top, and the zero has gone to the output.
  obtain ⟨out, w, fs, hread⟩ : ∃ out w fs, Conversion.readAll
      ⟨⟨.number text, m⟩ :: out, ⟨.operator "/", n⟩ :: w, fs⟩ after = .ok d := ⟨_, _, _, hread⟩
  cases after with
  | nil =>
    cases hread
    exact ⟨out.reverse, w, by simp⟩
  | cons t after =>
    obtain ⟨htight, hstart⟩ := hafter t rfl
    obtain ⟨e, ht, hrest⟩ := of_bind_eq_ok hread
    obtain ⟨front, hfront⟩ := (Conversion.cons_output_suffix_of_read rfl htight hstart ht).trans
      (Conversion.output_suffix_of_readAll hrest)
    exact ⟨out.reverse, front.reverse ++ d.waiting, by simp [← hfront]⟩

/-! ## What a zero divisor does -/

namespace Machine

lemma step_number {text : String} (h : isLiteralZero text = true) (n : Nat) (st : Stack) :
    ∃ x : Float, (x == 0.0) = true ∧ step st ⟨.number text, n⟩ = .ok (x :: st) := by
  unfold isLiteralZero at h
  split at h
  next x hread => exact ⟨x, h, by simp [step, numberValue, hread, Except.map]⟩
  · cases h

/-- Division by a zero fails, also where there is nothing to divide. -/
lemma step_slash {x : Float} (h : (x == 0.0) = true) (n : Nat) (st : Stack) :
    ∃ fault, step (x :: st) ⟨.operator "/", n⟩ = .error fault := by
  cases st with
  | nil => exact ⟨_, rfl⟩
  | cons l st =>
    refine ⟨.evaluation (.divisionByZero l x), ?_⟩
    have hdivide : applyOperator "/" l x = .error (.evaluation (.divisionByZero l x)) := if_pos h
    exact congrArg (Except.map (· :: st)) hdivide

/-- A program in which a zero stands before a slash fails there, if it has not failed before. -/
lemma exists_fault_of_steps {a b : Token} (hzero : a.dividesZero b = true)
    (before after : List Token) (st : Stack) :
    ∃ fault, steps st (before ++ b :: a :: after) = .error fault := by
  induction before generalizing st with
  | nil =>
    obtain ⟨n, text, m, rfl, rfl, htext⟩ := Token.eq_of_dividesZero hzero
    obtain ⟨x, hx, hnumber⟩ := step_number htext m st
    obtain ⟨fault, hslash⟩ := step_slash hx n st
    refine ⟨fault, ?_⟩
    rw [List.nil_append, steps, bind_of_eq_ok hnumber, steps, hslash]
    rfl
  | cons t before ih =>
    rw [List.cons_append, steps]
    cases hstep : step st t with
    | error fault => exact ⟨fault, rfl⟩
    | ok next => exact ih next

end Machine

/-- A program in which a zero stands before a slash has no value. -/
theorem exists_fault_of_isInfix {p : List Token} {a b : Token} (hzero : a.dividesZero b = true)
    (h : [b, a] <:+: p) : ∃ fault, run p = .error fault := by
  obtain ⟨before, after, rfl⟩ := h
  obtain ⟨fault, hsteps⟩ := Machine.exists_fault_of_steps hzero before after []
  refine ⟨fault, ?_⟩
  rw [List.append_assoc, List.cons_append, List.singleton_append, run, hsteps]
  rfl

/-- A slash before a literal zero leaves no value, unless what comes after the zero takes it or,
where no operand can stand, begins another. -/
lemma exists_fault_or_taken {before after p : List Token} {a b : Token}
    (hzero : a.dividesZero b = true) (h : convert (before ++ a :: b :: after) = .ok p) :
    (∃ fault, run p = .error fault) ∨
      ∃ t ∈ after.head?, bindsTighter (some t) = true ∨ t.startsOperand = true := by
  by_cases htaken : ∃ t ∈ after.head?, bindsTighter (some t) = true ∨ t.startsOperand = true
  · exact .inr htaken
  · have hafter : ∀ t ∈ after.head?, bindsTighter (some t) = false ∧ t.startsOperand = false := by
      simpa using htaken
    exact .inl (exists_fault_of_isInfix hzero (isInfix_of_convert hzero hafter h))

/-! ## What the refusal says -/

/-- In an expression that is refused as a division by zero, and that has a value all the same, a
factorial or a power stands directly after the zero. -/
theorem fault_of_listing {t : Tree .expression} {fault : Fault}
    (hcheck : checkArrangement t.written = .error fault) (hcode : fault.code = .divisionByZero) :
    (∃ runFault, run t.listing = .error runFault) ∨
      ∃ before a b c after, t.written = before ++ a :: b :: c :: after ∧ a.dividesZero b = true ∧
        (c.isFactorial = true ∨ c.isSymbol "^" = true) := by
  obtain ⟨before, a, b, after, hwritten, hzero, -⟩ := exists_dividesZero hcheck hcode
  have hconvert := convert_written t
  rw [hwritten] at hconvert
  rcases exists_fault_or_taken hzero hconvert with hrun | ⟨c, hc, htaken⟩
  · exact .inl hrun
  obtain ⟨after, rfl⟩ := List.head?_eq_some_iff.mp hc
  refine .inr ⟨before, a, b, c, after, hwritten, hzero, ?_⟩
  rcases htaken with htight | hstart
  · exact Bool.or_eq_true_iff.mp htight
  -- No operand begins after the zero, because neighbours in an expression meet.
  · have hchain := t.isChain_written
    rw [hwritten] at hchain
    obtain ⟨n, text, m, -, rfl, -⟩ := Token.eq_of_dividesZero hzero
    have hmeets := (List.isChain_append.mp hchain).2.1.tail.rel
    cases hstart.symm.trans (Token.not_startsOperand_of_meets rfl hmeets)

/-- Tokens that are refused as a division by zero, and that can be converted all the same, have a
slash before a literal zero, and they have no value if the zero is all of the divisor: if neither a
factorial nor a power takes it and no operand begins after it. -/
theorem fault_of_divisionByZero {ts p : List Token} {fault : Fault}
    (hcheck : checkArrangement ts = .error fault) (hcode : fault.code = .divisionByZero)
    (hconvert : convert ts = .ok p) :
    ∃ before a b after, ts = before ++ a :: b :: after ∧ a.dividesZero b = true ∧
      fault = .grammar (.literalZeroDivisor b.text) ∧
      ((∃ runFault, run p = .error runFault) ∨
        ∃ t ∈ after.head?, bindsTighter (some t) = true ∨ t.startsOperand = true) := by
  obtain ⟨before, a, b, after, rfl, hzero, hfault⟩ := exists_dividesZero hcheck hcode
  exact ⟨before, a, b, after, rfl, hzero, hfault, exists_fault_or_taken hzero hconvert⟩

theorem fault_of_divisionByZero_one :
    ∃ fault, run [.number "1", .number "0", .operator "/"] = .error fault := by
  have hcheck : checkArrangement [.number "1", .operator "/", .number "0"] =
      .error (.grammar (.literalZeroDivisor "0")) := by decide +kernel
  have hconvert : convert [.number "1", .operator "/", .number "0"] =
      .ok [.number "1", .number "0", .operator "/"] := by decide +kernel
  obtain ⟨before, a, b, after, hts, hzero, -, hrun | ⟨t, ht, -⟩⟩ :=
    fault_of_divisionByZero hcheck rfl hconvert
  · exact hrun
  -- Only the last two of the three tokens are a slash and a zero.
  · obtain _ | ⟨_, _ | ⟨_, before⟩⟩ := before
    · cases hts
      cases hzero
    · cases hts
      cases ht
    · have hlength := congrArg List.length hts
      simp only [List.length_cons, List.length_append, List.length_nil] at hlength
      omega

/-- The factorial of a literal zero divides by one. -/
theorem exists_value_of_divisionByZero :
    ¬ ∀ (expression : String) (ts p : List Token) (fault : Fault),
      tokenize expression = .ok ts → checkArrangement ts = .error fault →
        fault.code = .divisionByZero → convert ts = .ok p → ∃ runFault, run p = .error runFault := by
  intro h
  obtain ⟨fault, hfault⟩ := h "1/0!"
    [.number "1", .operator "/", .number "0", .operator "!"]
    [.number "1", .number "0", .operator "!", .operator "/"] (.grammar (.literalZeroDivisor "0"))
    (by decide +kernel) (by decide +kernel) rfl (by decide +kernel)
  have hvalue : run [.number "1", .number "0", .operator "!", .operator "/"] = .ok 1.0 := by
    decide +kernel
  cases hvalue.symm.trans hfault

end Calculator
