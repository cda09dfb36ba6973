import Calculator.SignGroup
import Mathlib.Tactic.Lemma

/-!
# Kinds of token

The stages ask of a token what begins or ends with it and whether it is of one kind or another.  All
of these questions are about its lexeme, and the answer to one often settles another: an operand
ends with a token exactly where a sign after it stands between two operands
(`isUnaryAfter_some`).
-/

namespace Calculator

namespace Token

variable {t : Token}

/-! ## Operators -/

lemma isOperator_of_isFactorial (h : t.isFactorial = true) : t.isOperator = true := by
  obtain ⟨l, n⟩ := t
  cases l <;> first | rfl | cases h

lemma not_startsOperand_of_isOperator (h : t.isOperator = true) : t.startsOperand = false := by
  obtain ⟨l, n⟩ := t
  cases l <;> first | rfl | cases h

lemma not_isOpenParen_of_isOperator (h : t.isOperator = true) : t.isOpenParen = false := by
  obtain ⟨l, n⟩ := t
  cases l <;> first | rfl | cases h

/-! ## Functions and parentheses -/

lemma not_isOpenParen_of_isFunction (h : t.isFunction = true) : t.isOpenParen = false := by
  obtain ⟨l, n⟩ := t
  cases l <;> first | rfl | cases h

lemma not_isFunction_of_isOpenParen (h : t.isOpenParen = true) : t.isFunction = false := by
  obtain ⟨l, n⟩ := t
  cases l <;> first | rfl | cases h

lemma not_completesOperand_of_isFunction (h : t.isFunction = true) :
    t.completesOperand = false := by
  obtain ⟨l, n⟩ := t
  cases l <;> first | rfl | cases h

lemma startsOperand_of_isOpenParen (h : t.isOpenParen = true) : t.startsOperand = true := by
  obtain ⟨l, n⟩ := t
  cases l <;> first | rfl | cases h

/-! ## Ends of an operand -/

lemma not_isCloseParen_of_startsOperand (h : t.startsOperand = true) : t.isCloseParen = false := by
  obtain ⟨l, n⟩ := t
  cases l <;> first | rfl | cases h

lemma not_isCloseParen_of_isOpenParen (h : t.isOpenParen = true) : t.isCloseParen = false :=
  not_isCloseParen_of_startsOperand (startsOperand_of_isOpenParen h)

lemma completesOperand_of_endsOperand (h : t.endsOperand = true) : t.completesOperand = true := by
  obtain ⟨l, n⟩ := t
  cases l <;> first | rfl | cases h

lemma not_isOpenParen_of_completesOperand (h : t.completesOperand = true) :
    t.isOpenParen = false := by
  obtain ⟨l, n⟩ := t
  cases l <;> first | rfl | cases h

lemma not_isSign_of_completesOperand (h : t.completesOperand = true) : t.isSign = false := by
  obtain ⟨l, n⟩ := t
  cases l with
  | operator symbol =>
    obtain rfl : symbol = "!" := by simpa [completesOperand] using h
    rfl
  | _ => rfl

end Token

/-- A sign stands before a lone operand wherever no operand has ended. -/
lemma isUnaryAfter_some (t : Token) : isUnaryAfter (some t) = !t.completesOperand := by
  obtain ⟨l, n⟩ := t
  cases l <;> rfl

lemma isUnaryAfter_of_completesOperand {t : Token} (h : t.completesOperand = true) :
    isUnaryAfter (some t) = false := by
  rw [isUnaryAfter_some, h, Bool.not_true]

lemma isUnaryAfter_of_not_completesOperand {t : Token} (h : t.completesOperand = false) :
    isUnaryAfter (some t) = true := by
  rw [isUnaryAfter_some, h, Bool.not_false]

end Calculator
