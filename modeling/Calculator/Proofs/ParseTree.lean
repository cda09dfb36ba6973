import Calculator.Proofs.Token
import Mathlib.Data.List.Chain

/-!
# Parse trees

The grammar of expressions, over the tokens as they are scanned, with every sign still an operator:

* an expression is a term, or an expression, a sign and a term;
* a term is a signed operand, or a term, one of `*` and `/`, and a signed operand;
* a signed operand is a sign and a signed operand, or a power;
* a power is a base, or a base, `^` and a signed operand, or the name of a function, a sign and a
  signed operand;
* a base is an atom, or an atom other than the bare unknown and a factorial;
* an atom is a number, a constant, the unknown, an expression in parentheses, or a call with at
  least one argument.

A `Tree` is a parse tree of this grammar, and it is read in three ways.  `Tree.yield` is the text it
stands over.  `Tree.written` is that text with the group of every sign written out.  `Tree.listing`
is its operands before its operators, each subtree listed as a whole before the operator over it.
Nothing in this file says how tokens are grouped, checked or converted: it is what these stages are
measured against.
-/

namespace Calculator

/-- The kinds of phrase.  Atoms are told apart by whether they are the bare unknown, which takes no
factorial. -/
inductive Phrase
  | expression
  | term
  | signed
  | power
  | base
  | atom (bare : Bool)
  | arguments
  deriving DecidableEq, Repr

/-- The operators that add, which are also the signs. -/
abbrev Sign := { op : Operator // op.precedence = 1 }

/-- The operators that multiply. -/
abbrev Scale := { op : Operator // op.precedence = 2 }

/-- The token of an operator. -/
def Operator.token (op : Operator) : Token := .operator op.symbol

namespace Operator

@[simp] lemma symbol_eq_factorial (op : Operator) : op.symbol = "!" ↔ op = .factorial := by
  cases op <;> decide

@[simp] lemma isSign_token (op : Operator) : op.token.isSign = decide (op.precedence = 1) := by
  cases op <;> decide

@[simp] lemma isFactorial_token (op : Operator) : op.token.isFactorial = (op == .factorial) := by
  cases op <;> decide

@[simp] lemma startsOperand_token (op : Operator) : op.token.startsOperand = false := rfl

@[simp] lemma completesOperand_token (op : Operator) :
    op.token.completesOperand = (op == .factorial) := by
  cases op <;> decide

@[simp] lemma isUnaryAfter_token (op : Operator) :
    isUnaryAfter (some op.token) = (op != .factorial) := by
  cases op <;> decide

@[simp] lemma bindsTighter_token (op : Operator) :
    bindsTighter (some op.token) = decide (3 ≤ op.precedence) := by
  cases op <;> decide

end Operator

lemma Sign.ne_factorial (op : Sign) : op.1 ≠ .factorial := by
  rintro h
  have := op.2
  rw [h] at this
  contradiction

lemma Scale.ne_factorial (op : Scale) : op.1 ≠ .factorial := by
  rintro h
  have := op.2
  rw [h] at this
  contradiction

/-- The parse trees of a phrase. -/
inductive Tree : Phrase → Type
  | ofTerm (t : Tree .term) : Tree .expression
  | sum (l : Tree .expression) (op : Sign) (r : Tree .term) : Tree .expression
  | ofSigned (u : Tree .signed) : Tree .term
  | product (l : Tree .term) (op : Scale) (r : Tree .signed) : Tree .term
  | ofPower (p : Tree .power) : Tree .signed
  | unary (op : Sign) (u : Tree .signed) : Tree .signed
  | ofBase (b : Tree .base) : Tree .power
  | pow (b : Tree .base) (u : Tree .signed) : Tree .power
  /-- A function before a sign, without parentheses of its own. -/
  | signCall (name : String) (op : Sign) (u : Tree .signed) : Tree .power
  | ofAtom {bare : Bool} (a : Tree (.atom bare)) : Tree .base
  | factorial (a : Tree (.atom false)) : Tree .base
  | number (text : String) : Tree (.atom false)
  | constant (name : String) : Tree (.atom false)
  | unknown : Tree (.atom true)
  | group (e : Tree .expression) : Tree (.atom false)
  | call (name : String) (args : Tree .arguments) : Tree (.atom false)
  | last (e : Tree .expression) : Tree .arguments
  | more (e : Tree .expression) (args : Tree .arguments) : Tree .arguments

namespace Tree

variable {k : Phrase}

/-- How many arguments are begun after the first. -/
def separators : {k : Phrase} → Tree k → Nat
  | _, .more _ args => args.separators + 1
  | _, _ => 0

/-- The number of arguments. -/
def arity (args : Tree .arguments) : Nat := args.separators + 1

/-- The tokens that a tree stands over. -/
def yield : {k : Phrase} → Tree k → List Token
  | _, .ofTerm t => t.yield
  | _, .sum l op r => l.yield ++ op.1.token :: r.yield
  | _, .ofSigned u => u.yield
  | _, .product l op r => l.yield ++ op.1.token :: r.yield
  | _, .ofPower p => p.yield
  | _, .unary op u => op.1.token :: u.yield
  | _, .ofBase b => b.yield
  | _, .pow b u => b.yield ++ Operator.pow.token :: u.yield
  | _, .signCall name op u => .ofLexeme (.function name) :: op.1.token :: u.yield
  | _, .ofAtom a => a.yield
  | _, .factorial a => a.yield ++ [Operator.factorial.token]
  | _, .number text => [.number text]
  | _, .constant name => [.ofLexeme (.constant name)]
  | _, .unknown => [.unknown]
  | _, .group e => .openParen :: e.yield ++ [.closeParen]
  | _, .call name args => .ofLexeme (.function name) :: .openParen :: args.yield ++ [.closeParen]
  | _, .last e => e.yield
  | _, .more e args => e.yield ++ .separator :: args.yield

/-- The tokens of a tree, with the group of every sign written out. -/
def written : {k : Phrase} → Tree k → List Token
  | _, .ofTerm t => t.written
  | _, .sum l op r => l.written ++ op.1.token :: r.written
  | _, .ofSigned u => u.written
  | _, .product l op r => l.written ++ op.1.token :: r.written
  | _, .ofPower p => p.written
  | _, .unary op u => .openParen :: .number "0" :: op.1.token :: u.written ++ [.closeParen]
  | _, .ofBase b => b.written
  | _, .pow b u => b.written ++ Operator.pow.token :: u.written
  | _, .signCall name op u =>
    .ofLexeme (.function name) :: .openParen :: .number "0" :: op.1.token :: u.written ++
      [.closeParen]
  | _, .ofAtom a => a.written
  | _, .factorial a => a.written ++ [Operator.factorial.token]
  | _, .number text => [.number text]
  | _, .constant name => [.ofLexeme (.constant name)]
  | _, .unknown => [.unknown]
  | _, .group e => .openParen :: e.written ++ [.closeParen]
  | _, .call name args =>
    .ofLexeme (.function name) :: .openParen :: args.written ++ [.closeParen]
  | _, .last e => e.written
  | _, .more e args => e.written ++ .separator :: args.written

/-- The tokens of a tree with every operator after its operands and every function after its
arguments, of which it carries the number.  A sign before an operand subtracts from, or adds to,
the number zero. -/
def listing : {k : Phrase} → Tree k → List Token
  | _, .ofTerm t => t.listing
  | _, .sum l op r => l.listing ++ r.listing ++ [op.1.token]
  | _, .ofSigned u => u.listing
  | _, .product l op r => l.listing ++ r.listing ++ [op.1.token]
  | _, .ofPower p => p.listing
  | _, .unary op u => .number "0" :: u.listing ++ [op.1.token]
  | _, .ofBase b => b.listing
  | _, .pow b u => b.listing ++ u.listing ++ [Operator.pow.token]
  | _, .signCall name op u =>
    .number "0" :: u.listing ++ [op.1.token, (Token.ofLexeme (.function name)).withArity 1]
  | _, .ofAtom a => a.listing
  | _, .factorial a => a.listing ++ [Operator.factorial.token]
  | _, .number text => [.number text]
  | _, .constant name => [.ofLexeme (.constant name)]
  | _, .unknown => [.unknown]
  | _, .group e => e.listing
  | _, .call name args =>
    args.listing ++ [(Token.ofLexeme (.function name)).withArity args.arity]
  | _, .last e => e.listing
  | _, .more e args => e.listing ++ args.listing

/-- A phrase begins as an operand does, once its signs are written out. -/
lemma written_eq_cons (t : Tree k) : ∃ a w, t.written = a :: w ∧ a.startsOperand := by
  induction t with
  | ofTerm t ih | ofSigned t ih | ofPower t ih | ofBase t ih | ofAtom t ih | last t ih => exact ih
  | sum l _ _ ih _ | product l _ _ ih _ | pow l _ ih _ | factorial l ih | more l _ ih _ =>
    obtain ⟨a, w, h, ha⟩ := ih
    exact ⟨a, _, by rw [written, h]; rfl, ha⟩
  | _ => exact ⟨_, _, rfl, rfl⟩

/-- A phrase ends as an operand does, once its signs are written out. -/
lemma written_eq_append (t : Tree k) : ∃ w a, t.written = w ++ [a] ∧ a.completesOperand := by
  induction t with
  | ofTerm t ih | ofSigned t ih | ofPower t ih | ofBase t ih | ofAtom t ih | last t ih => exact ih
  | sum _ _ _ _ ih | product _ _ _ _ ih | pow _ _ _ ih | more _ _ _ ih =>
    obtain ⟨w, a, h, ha⟩ := ih
    exact ⟨_, a, by rw [written, h, ← List.cons_append, ← List.append_assoc], ha⟩
  | number _ | constant _ | unknown => exact ⟨[], _, rfl, rfl⟩
  | _ => exact ⟨_, _, rfl, rfl⟩

end Tree

end Calculator
