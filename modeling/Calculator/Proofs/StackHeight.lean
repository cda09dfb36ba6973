import Calculator.Machine
import Calculator.Proofs.Basic
import Calculator.Proofs.ParseTree

/-!
# Heights of the stack

How many values are on the stack of the machine does not depend on the values, so `heightAfter`
counts them ahead of a run.  The count of a listing follows the parse tree
(`heightAfter_listing`): a phrase needs no value to begin with and leaves one, and arguments leave
as many as there are of them.  What a run does to the stack is what has been counted
(`heightAfter_of_steps`), so a program with the count of an expression never lacks operands and ends
with one value (`runsThrough_of_heightAfter`).
-/

namespace Calculator

/-! ## Counting ahead -/

/-- How many values a token takes off the stack. -/
def Token.operands (t : Token) : Nat :=
  match t.lexeme with
  | .operator symbol => if symbol = "!" then 1 else 2
  | .function _ => t.arity
  | _ => 0

/-- How many values are on the stack after a run from `n` values, if no token lacks any. -/
def heightAfter (n : Nat) : List Token → Option Nat
  | [] => some n
  | t :: ts => if t.operands ≤ n then heightAfter (n - t.operands + 1) ts else none

lemma heightAfter_append (n : Nat) (l r : List Token) :
    heightAfter n (l ++ r) = (heightAfter n l).bind fun m => heightAfter m r := by
  induction l generalizing n with
  | nil => rfl
  | cons t l ih =>
    rw [List.cons_append, heightAfter, heightAfter]
    split
    · exact ih _
    · rfl

lemma heightAfter_append_of_eq {n m : Nat} {l : List Token} (h : heightAfter n l = some m)
    (r : List Token) : heightAfter n (l ++ r) = heightAfter m r := by
  rw [heightAfter_append, h, Option.bind_some]

/-- A token that is counted finds its operands, and goes before others that are counted. -/
lemma of_heightAfter_cons {n m : Nat} {t : Token} {ts : List Token}
    (h : heightAfter n (t :: ts) = some m) :
    t.operands ≤ n ∧ heightAfter (n - t.operands + 1) ts = some m := by
  rw [heightAfter] at h
  split at h
  next hle => exact ⟨hle, h⟩
  · cases h

lemma Operator.operands_token (op : Operator) :
    op.token.operands = if op = .factorial then 1 else 2 := by
  cases op <;> rfl

/-- Two operands and the operator between them. -/
lemma heightAfter_binary {n : Nat} {l r : List Token} {op : Operator} (hop : op ≠ .factorial)
    (hl : ∀ n, heightAfter n l = some (n + 1)) (hr : ∀ n, heightAfter n r = some (n + 1)) :
    heightAfter n (l ++ r ++ [op.token]) = some (n + 1) := by
  rw [List.append_assoc, heightAfter_append_of_eq (hl n), heightAfter_append_of_eq (hr _)]
  simp [heightAfter, op.operands_token, hop]

/-- How many values a phrase stands for: arguments stand for as many as there are of them. -/
def Tree.values {k : Phrase} (t : Tree k) : Nat :=
  match k, t with
  | .arguments, args => args.arity
  | _, _ => 1

/-- A listing needs no values to begin with and leaves those that the phrase stands for. -/
theorem heightAfter_listing {k : Phrase} (t : Tree k) (n : Nat) :
    heightAfter n t.listing = some (n + t.values) := by
  induction t generalizing n with
  | ofTerm t ih | ofSigned t ih | ofPower t ih | ofBase t ih | ofAtom t ih => exact ih n
  | group e ih | last e ih => exact ih n
  | number text | constant name | unknown => rfl
  | sum l op r ihl ihr => exact heightAfter_binary op.ne_factorial ihl ihr
  | product l op r ihl ihr => exact heightAfter_binary op.ne_factorial ihl ihr
  | pow b u ihb ihu => exact heightAfter_binary (by decide) ihb ihu
  | unary op u ih =>
    have hzero : ∀ n, heightAfter n [.number "0"] = some (n + 1) := fun _ => rfl
    exact heightAfter_binary op.ne_factorial hzero ih
  | signCall name op u ih =>
    have hzero : ∀ n, heightAfter n [.number "0"] = some (n + 1) := fun _ => rfl
    have hu := heightAfter_binary (n := n) op.ne_factorial hzero ih
    have hlisting : (Tree.signCall name op u).listing = [.number "0"] ++ u.listing ++
        [op.1.token] ++ [(Token.ofLexeme (.function name)).withArity 1] := by
      simp [Tree.listing]
    rw [hlisting, heightAfter_append_of_eq hu]
    rfl
  | factorial a ih =>
    have ha : heightAfter n a.listing = some (n + 1) := ih n
    rw [Tree.listing, heightAfter_append_of_eq ha]
    rfl
  | call name args ih =>
    have hargs : heightAfter n args.listing = some (n + args.arity) := ih n
    rw [Tree.listing, heightAfter_append_of_eq hargs]
    have hoperands : Token.operands ((Token.ofLexeme (.function name)).withArity args.arity) =
        args.arity := rfl
    simp [heightAfter, hoperands, Tree.values]
  | more e args ihe ihargs =>
    have he : heightAfter n e.listing = some (n + 1) := ihe n
    have hargs : heightAfter (n + 1) args.listing = some (n + 1 + args.arity) := ihargs (n + 1)
    rw [Tree.listing, heightAfter_append_of_eq he, hargs]
    simp only [Tree.values, Tree.arity, Tree.separators, Option.some.injEq]
    omega

/-! ## Runs -/

namespace Machine

variable {st st' : Stack} {t : Token}

lemma length_of_runOperator {symbol : String} (h : runOperator symbol st = .ok st') :
    (if symbol = "!" then 1 else 2) ≤ st.length ∧
      st'.length = st.length - (if symbol = "!" then 1 else 2) + 1 := by
  unfold runOperator at h
  split at h
  next hsymbol =>
    rw [if_pos hsymbol]
    rcases st with _ | ⟨n, rest⟩
    · cases h
    · obtain ⟨x, -, rfl⟩ := of_map_eq_ok h
      simp
  next hsymbol =>
    rw [if_neg hsymbol]
    rcases st with _ | ⟨r, _ | ⟨l, rest⟩⟩
    · cases h
    · cases h
    · obtain ⟨x, -, rfl⟩ := of_map_eq_ok h
      simp

lemma length_of_runFunction {name : String} {arity : Nat}
    (h : runFunction name arity st = .ok st') :
    arity ≤ st.length ∧ st'.length = st.length - arity + 1 := by
  unfold runFunction at h
  split at h
  · cases h
  split at h
  · cases h
  next f hf hlength =>
    obtain ⟨x, -, rfl⟩ := of_map_eq_ok h
    refine ⟨Nat.le_of_not_lt hlength, ?_⟩
    rw [List.length_cons, List.length_drop]

/-- A step takes the operands of its token off the stack and puts one value on it. -/
lemma length_of_step (h : step st t = .ok st') :
    t.operands ≤ st.length ∧ st'.length = st.length - t.operands + 1 := by
  obtain ⟨l, n⟩ := t
  cases l with
  | operator symbol => exact length_of_runOperator h
  | function name => exact length_of_runFunction h
  | number text | constant name =>
    obtain ⟨x, -, rfl⟩ := of_map_eq_ok h
    exact ⟨Nat.zero_le _, rfl⟩
  | _ => cases h

/-- A run that succeeds leaves as many values as have been counted. -/
theorem heightAfter_of_steps {q : List Token} (h : steps st q = .ok st') :
    heightAfter st.length q = some st'.length := by
  induction q generalizing st with
  | nil =>
    cases h
    rfl
  | cons t q ih =>
    obtain ⟨mid, hstep, hrest⟩ := of_bind_eq_ok h
    obtain ⟨hle, hlength⟩ := length_of_step hstep
    rw [heightAfter, if_pos hle, ← hlength]
    exact ih hrest

end Machine

/-- Before each token of a run there are as many values as it takes, and a run that succeeds ends
with one value. -/
structure RunsThrough (q : List Token) : Prop where
  enough : ∀ l t r st, q = l ++ t :: r → Machine.steps [] l = .ok st → t.operands ≤ st.length
  single : ∀ st, Machine.steps [] q = .ok st → ∃ x, st = [x]

lemma runsThrough_of_heightAfter {q : List Token} (h : heightAfter 0 q = some 1) :
    RunsThrough q where
  enough := by
    rintro l t r st rfl hst
    have hl : heightAfter 0 l = some st.length := Machine.heightAfter_of_steps hst
    rw [heightAfter_append_of_eq hl] at h
    exact (of_heightAfter_cons h).1
  single := by
    intro st hst
    have hq : heightAfter 0 q = some st.length := Machine.heightAfter_of_steps hst
    have hlength : st.length = 1 := Option.some.inj (hq.symm.trans h)
    exact List.length_eq_one_iff.mp hlength

end Calculator
