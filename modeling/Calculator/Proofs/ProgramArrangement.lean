import Calculator.Proofs.Conservation
import Calculator.Proofs.Execution

/-!
# Programs are not expressions

A program is checked as though its tokens were an expression.  In a program every operator comes
after its operands, so one with two of them has two operands side by side somewhere before it, and
already its first tokens show it: the first stands for a value, and what stands after it, unless it
is a factorial, begins another operand (`Listed.follows`).  The check finds this before it gets to
any rule about values.  Only programs without an operator pass (`checkArrangement_of_compile`), and
those with one factorial of a number or a constant.
-/

namespace Calculator

variable {ts p rest : List Token} {t a b : Token} {prev next : Option Token}

/-- A single operand, which is a value or the factorial of a number or a constant. -/
inductive IsOperand : List Token → Prop
  | value {a : Token} (ha : a.isValue = true) : IsOperand [a]
  | factorial {a b : Token} (ha : a.isValue = true) (hx : a.isUnknown = false)
      (hb : b.isFactorial = true) : IsOperand [a, b]

/-- The grammar finds something malformed. -/
def Malformed (x : Except Fault Unit) : Prop :=
  ∃ fault, x = .error fault ∧ fault.stage = .grammar ∧ fault.code = .malformedSyntax

/-! ## The first tokens of a program -/

/-- What takes no value off the stack is a value. -/
lemma Listed.isValue (h : Listed ts t) (ht : t.operands ≤ 0) : t.isValue = true := by
  cases h with
  | number | constant | unknown => rfl
  | operator op => cases op <;> cases ht
  | function name n hn =>
    have hoperands : n ≤ 0 := ht
    omega

/-- What takes at most one value begins an operand, or is a factorial. -/
lemma Listed.follows (h : Listed ts t) (ht : t.operands ≤ 1) :
    t.startsOperand = true ∨ t.isFactorial = true := by
  cases h with
  | number | constant | unknown | function => exact .inl rfl
  | operator op =>
    rw [op.operands_token] at ht
    split at ht
    next hop => exact .inr (hop ▸ rfl)
    · omega

lemma operands_of_isFactorial (ht : t.isFactorial = true) : t.operands = 1 := by
  obtain ⟨l, n⟩ := t
  obtain rfl : l = .operator "!" := by simpa [Token.isFactorial, Token.isSymbol] using ht
  rfl

/-! ## Checking them -/

lemma endsOperand_of_isValue (ha : a.isValue = true) : a.endsOperand = !a.isUnknown := by
  obtain ⟨l, n⟩ := a
  cases l <;> first | rfl | cases ha

lemma not_endsOperand_of_isFactorial (hb : b.isFactorial = true) : b.endsOperand = false := by
  obtain ⟨l, n⟩ := b
  cases l <;> first | rfl | cases hb

lemma checkToken_of_isValue (ha : a.isValue = true) :
    checkToken prev a next = requireNoOperand a next := by
  obtain ⟨l, n⟩ := a
  cases l <;> first | rfl | cases ha

lemma checkToken_of_isFactorial (hb : b.isFactorial = true) :
    checkToken prev b next = checkFactorial prev b next := by
  rw [checkToken_of_isOperator (Token.isOperator_of_isFactorial hb)]
  exact if_pos hb

lemma checkFactorial_of_endsOperand (ha : a.endsOperand = true) :
    checkFactorial (some a) b next = requireNoOperand b next :=
  if_pos ha

lemma requireNoOperand_of_isFactorial (hb : b.isFactorial = true) :
    requireNoOperand a (some b) = .ok () := by
  have hstarts := Token.not_startsOperand_of_isOperator (Token.isOperator_of_isFactorial hb)
  simp [requireNoOperand, hstarts]

lemma checkFrom_cons (h : checkToken prev t rest.head? = .ok ()) :
    checkFrom prev (t :: rest) = checkFrom (some t) rest :=
  bind_of_eq_ok h _

/-- Where an operand has ended, another one begins, or a factorial stands without an operand. -/
lemma malformed_checkFrom (ha : checkToken prev a (some b) = requireNoOperand a (some b))
    (hb : b.startsOperand = true ∨ b.isFactorial = true ∧ a.endsOperand = false) :
    Malformed (checkFrom prev (a :: b :: rest)) := by
  rcases hb with hb | ⟨hb, hends⟩
  · have hfirst : checkToken prev a (some b) = .error (missingOperator a b) := by
      rw [ha]
      exact if_pos hb
    refine ⟨missingOperator a b, ?_, rfl, rfl⟩
    rw [checkFrom, List.head?_cons, hfirst]
    rfl
  · have hfirst : checkToken prev a (some b) = .ok () :=
      ha.trans (requireNoOperand_of_isFactorial hb)
    have hsecond : checkToken (some a) b rest.head? = .error (.grammar .misplacedFactorial) := by
      rw [checkToken_of_isFactorial hb]
      exact if_neg (by simp [hends])
    refine ⟨.grammar .misplacedFactorial, ?_, rfl, rfl⟩
    rw [checkFrom_cons hfirst, checkFrom, hsecond]
    rfl

/-- Only one factorial stands after an operand, and no operand after it. -/
lemma malformed_after_factorial {c : Token} (ha : a.isValue = true) (hends : a.endsOperand = true)
    (hb : b.isFactorial = true) (hc : c.startsOperand = true ∨ c.isFactorial = true) :
    Malformed (checkFrom none (a :: b :: c :: rest)) := by
  have hfirst : checkToken none a (some b) = .ok () :=
    (checkToken_of_isValue ha).trans (requireNoOperand_of_isFactorial hb)
  have hsecond : checkToken (some a) b (some c) = requireNoOperand b (some c) :=
    (checkToken_of_isFactorial hb).trans (checkFactorial_of_endsOperand hends)
  have hstop : c.startsOperand = true ∨ c.isFactorial = true ∧ b.endsOperand = false :=
    hc.imp_right fun hc => ⟨hc, not_endsOperand_of_isFactorial hb⟩
  rw [checkFrom_cons hfirst]
  exact malformed_checkFrom hsecond hstop

/-- A single operand passes. -/
lemma IsOperand.checkArrangement_eq_ok (h : IsOperand p) : checkArrangement p = .ok () := by
  cases h with
  | @value a ha =>
    have hfirst : checkToken none a none = .ok () := checkToken_of_isValue ha
    exact checkFrom_cons hfirst
  | @factorial a b ha hx hb =>
    have hends : a.endsOperand = true := by rw [endsOperand_of_isValue ha, hx, Bool.not_false]
    have hfirst : checkToken none a (some b) = .ok () :=
      (checkToken_of_isValue ha).trans (requireNoOperand_of_isFactorial hb)
    have hsecond : checkToken (some a) b none = .ok () :=
      (checkToken_of_isFactorial hb).trans (checkFactorial_of_endsOperand hends)
    exact (checkFrom_cons hfirst).trans (checkFrom_cons hsecond)

/-- Any other program is malformed. -/
lemma isOperand_or_malformed (hlisted : ∀ a ∈ p, Listed ts a)
    (hheight : heightAfter 0 p = some 1) : IsOperand p ∨ Malformed (checkArrangement p) := by
  rcases p with _ | ⟨a, rest⟩
  · cases hheight
  obtain ⟨hlista, hlisted⟩ := List.forall_mem_cons.mp hlisted
  obtain ⟨hoperands, hheight⟩ := of_heightAfter_cons hheight
  have ha := hlista.isValue hoperands
  rcases rest with _ | ⟨b, rest⟩
  · exact .inl (.value ha)
  -- One value is on the stack when the second token comes.
  rw [Nat.le_zero.mp hoperands] at hheight
  obtain ⟨hlistb, hlisted⟩ := List.forall_mem_cons.mp hlisted
  obtain ⟨hoperands, hheight⟩ := of_heightAfter_cons hheight
  rcases hlistb.follows hoperands with hb | hb
  · exact .inr (malformed_checkFrom (checkToken_of_isValue ha) (.inl hb))
  have hends := endsOperand_of_isValue ha
  cases hx : a.isUnknown with
  | true =>
    rw [hx, Bool.not_true] at hends
    exact .inr (malformed_checkFrom (checkToken_of_isValue ha) (.inr ⟨hb, hends⟩))
  | false =>
    rcases rest with _ | ⟨c, rest⟩
    · exact .inl (.factorial ha hx hb)
    -- A factorial leaves one value on the stack, as there was before it.
    rw [operands_of_isFactorial hb] at hheight
    obtain ⟨hlistc, -⟩ := List.forall_mem_cons.mp hlisted
    obtain ⟨hoperands, -⟩ := of_heightAfter_cons hheight
    rw [hx, Bool.not_false] at hends
    exact .inr (malformed_after_factorial ha hends hb (hlistc.follows hoperands))

/-- A program that has been compiled from any text passes the check for expressions only if it is a
single operand, and otherwise it is malformed. -/
theorem checkArrangement_of_compile {expression : String} {program : List Token}
    (h : compile expression = .ok program) :
    (checkArrangement program = .ok () ↔ IsOperand program) ∧
      (¬ IsOperand program → Malformed (checkArrangement program)) := by
  obtain ⟨ts, -, hlisted, hheight⟩ := listed_of_compile h
  have hcases := isOperand_or_malformed hlisted hheight
  refine ⟨⟨fun hok => hcases.resolve_right ?_, IsOperand.checkArrangement_eq_ok⟩,
    hcases.resolve_left⟩
  rintro ⟨fault, hfault, -⟩
  cases hok.symm.trans hfault

/-- The program of `2+3` is malformed: its numbers stand side by side. -/
theorem checkArrangement_of_compile_sum :
    compile "2+3" = .ok [.number "2", .number "3", .operator "+"] ∧
      Malformed (checkArrangement [.number "2", .number "3", .operator "+"]) := by
  have h : compile "2+3" = .ok [.number "2", .number "3", .operator "+"] := by decide +kernel
  exact ⟨h, (checkArrangement_of_compile h).2 nofun⟩

end Calculator
