import Calculator.Expression
import Calculator.Proofs.Scan
import Calculator.Proofs.WellFormed

/-!
# Recognition

Tokens that are arranged and converted without a fault are an expression of the grammar
(`exists_tree_of_arrange`).  The tree is found by descent: wherever a phrase is awaited, a tree of
that phrase stands over the next tokens, and it is as long as it can be, so that no operator follows
that the phrase could go on with.

`Awaits` is what is known of such a place.  The tokens are taken as they are scanned, and what is
known of them is that their signs written out are well formed; a phrase that has been found is cut
off both, by `groupSignsFrom_yield` from the one and by `WellFormed.of_written` from the other.  An
open parenthesis that no sign has opened is still to be closed, for which there must be more of them
than there are sign groups.
-/

namespace Calculator

/-! ## Places -/

namespace Phrase

/-- The place of a phrase in the nesting and in the open parentheses: sign groups are among the open
parentheses, and arguments stand in one that is none of them. -/
def Nests (k : Phrase) (s : Nesting) (calls : List Bool) : Prop :=
  match k with
  | .expression | .term => s.Settled ∧ s.groups.length ≤ calls.length
  | .arguments => s.Settled ∧ s.groups.length < calls.length
  | _ => s.Shallow ∧ s.groups.length ≤ calls.length

/-- A phrase does not go on with what comes next, and arguments have come to their parenthesis. -/
def Ends (k : Phrase) (rest : List Token) : Prop :=
  (∀ op : Operator, rest.head? = some op.token → op.precedence < k.strength) ∧
    (k = .arguments → rest.head? = some .closeParen)

lemma ends_of_lt {k : Phrase} {rest : List Token} (hk : k ≠ .arguments)
    (h : ∀ op : Operator, rest.head? = some op.token → op.precedence < k.strength) :
    k.Ends rest := ⟨h, fun heq => absurd heq hk⟩

end Phrase

/-- A phrase is awaited after the token `p`, inside of the parentheses `calls`. -/
structure Awaits (k : Phrase) (p : Token) (calls : List Bool) (s : Nesting) (rest : List Token) :
    Prop where
  scanned : ∀ t ∈ rest, Scanned t
  operand : p.completesOperand = false
  notFunction : p.isFunction = false
  nests : k.Nests s calls
  wellFormed : WellFormed p calls (groupSignsFrom (some p) s rest)

/-- A phrase stands over the first tokens, as long as it can be. -/
def Recognized (k : Phrase) (ts : List Token) : Prop :=
  ∃ (t : Tree k) (rest : List Token), ts = t.yield ++ rest ∧ k.Ends rest

namespace Scanned

variable {t : Token}

lemma exists_sign (h : Scanned t) (ht : t.isSign = true) : ∃ op : Sign, t = op.1.token := by
  cases h with
  | operator op => exact ⟨⟨op, by simpa using ht⟩, rfl⟩
  | _ => cases ht

/-- A token after which an operand can come to its end. -/
lemma cases_of_not_startsOperand (h : Scanned t) (ht : t.startsOperand = false) :
    (∃ op : Operator, t = op.token) ∨ t = .closeParen ∨ t = .separator := by
  cases h with
  | operator op => exact .inl ⟨op, rfl⟩
  | closeParen => exact .inr (.inl rfl)
  | separator => exact .inr (.inr rfl)
  | _ => cases ht

lemma bindsTighter_eq_false {rest : List Token} (h : ∀ t ∈ rest, Scanned t)
    (hends : ∀ op : Operator, rest.head? = some op.token → op.precedence < 3) :
    bindsTighter rest.head? = false := by
  cases rest with
  | nil => rfl
  | cons t rest =>
    cases h t (List.mem_cons_self ..) with
    | operator op =>
      have := hends op rfl
      simpa using this
    | _ => rfl

end Scanned

variable {k : Phrase} {p q t : Token} {calls : List Bool} {s : Nesting} {rest : List Token}

/-! ## Taking tokens off -/

/-- A token that opens no sign group is the next one. -/
lemma groupSignsFrom_eq_cons {prev : Option Token} (h : (t.isSign && isUnaryAfter prev) = false)
    (s : Nesting) (rest : List Token) : ∃ r, groupSignsFrom prev s (t :: rest) = t :: r := by
  rw [groupSignsFrom, h]
  exact ⟨_, rfl⟩

namespace WellFormed

/-- Where an operand is missing, a token comes next. -/
lemma exists_cons (h : WellFormed p calls (groupSignsFrom (some p) s rest))
    (hp : p.completesOperand = false) :
    ∃ t r, rest = t :: r ∧ (t.isSign = true ∨ t.isSign = false ∧ p.meets t = true) := by
  cases rest with
  | nil =>
    have hclose : groupSignsFrom (some p) s [] = List.replicate s.groups.length .closeParen := rfl
    rw [hclose] at h
    cases hn : s.groups.length with
    | zero =>
      rw [hn] at h
      obtain ⟨hcompletes⟩ := h
      cases hp.symm.trans hcompletes
    | succ n =>
      rw [hn] at h
      cases hp.symm.trans (Token.completesOperand_of_meets rfl h.meets)
  | cons t r =>
    refine ⟨t, r, rfl, ?_⟩
    cases ht : t.isSign with
    | true => exact .inl rfl
    | false =>
      have hsign : (t.isSign && isUnaryAfter (some p)) = false := by rw [ht, Bool.false_and]
      obtain ⟨r', hr'⟩ := groupSignsFrom_eq_cons hsign s r
      rw [hr'] at h
      exact .inr ⟨rfl, h.meets⟩

/-- What is left after a phrase. -/
lemma after (t : Tree k) (h : WellFormed p calls (groupSignsFrom (some p) s (t.yield ++ rest)))
    (hp : p.completesOperand = false) (hk : k.Fits s rest) :
    ∃ q : Token, q.completesOperand = true ∧ WellFormed q calls (afterOperand s rest) := by
  rw [groupSignsFrom_yield t (isUnaryAfter_of_not_completesOperand hp) hk] at h
  exact h.of_written t

/-- An operator between two operands. -/
lemma after_operator {op : Operator}
    (h : WellFormed q calls (afterOperand s (op.token :: rest))) (hop : op ≠ .factorial)
    (hs : s.Settled ∨ op = .pow) :
    WellFormed op.token calls (groupSignsFrom (some op.token) s rest) := by
  have hbinds : s.Settled ∨ bindsTighter (some op.token) = true :=
    hs.imp_right fun hpow => by rw [hpow]; rfl
  rw [afterOperand_cons hbinds (by simp [hop]) rfl] at h
  exact h.tail rfl

/-- A factorial after its operand. -/
lemma after_factorial (h : WellFormed q calls (afterOperand s (Operator.factorial.token :: rest))) :
    q.endsOperand = true ∧
      WellFormed Operator.factorial.token calls (afterOperand s rest) := by
  rw [afterOperand_of_bindsTighter rfl, groupSignsFrom_operand rfl] at h
  exact ⟨Token.endsOperand_of_meets rfl h.meets, h.tail rfl⟩

/-- The sign of a group that it has opened. -/
lemma after_sign {op : Sign}
    (h : WellFormed p calls (groupSignsFrom (some p) s (op.1.token :: rest)))
    (hp : isUnaryAfter (some p) = true) :
    WellFormed op.1.token (p.isFunction :: calls)
      (groupSignsFrom (some op.1.token) s.openGroup rest) := by
  rw [groupSignsFrom_sign hp (by simp [op.2])] at h
  exact ((h.tail rfl).tail rfl).tail rfl

/-- What follows the name of a function. -/
lemma after_function {name : String}
    (h : WellFormed p calls (groupSignsFrom (some p) s (.ofLexeme (.function name) :: rest))) :
    WellFormed (.ofLexeme (.function name)) calls
      (groupSignsFrom (some (.ofLexeme (.function name))) s rest) := by
  rw [groupSignsFrom_cons rfl rfl] at h
  exact h.tail rfl

lemma after_openParen
    (h : WellFormed p calls (groupSignsFrom (some p) s (.openParen :: rest))) :
    WellFormed .openParen (p.isFunction :: calls)
      (groupSignsFrom (some .openParen) ⟨s.depth + 1, s.groups⟩ rest) := by
  rw [groupSignsFrom_cons rfl rfl] at h
  exact h.tail rfl

/-- Nothing but closing parentheses closes all that are open. -/
lemma length_of_replicate {n : Nat} (h : WellFormed q calls (List.replicate n .closeParen)) :
    calls.length = n := by
  induction n generalizing q calls with
  | zero =>
    cases h
    rfl
  | succ n ih =>
    cases calls with
    | nil =>
      rcases h with _ | ⟨-, hnest, -⟩
      cases hnest
    | cons call calls =>
      have hrest : calls.length = n := ih (h.tail rfl)
      rw [List.length_cons, hrest]

/-- What an expression ends with: the end of the tokens, the parenthesis around it or a separator in
the call around it. -/
lemma after_expression (h : WellFormed q calls (afterOperand s rest))
    (hq : q.completesOperand = true) (hs : s.Settled) (hscanned : ∀ t ∈ rest, Scanned t)
    (hends : Phrase.Ends .expression rest) :
    (rest = [] ∧ calls.length = s.groups.length) ∨
      (∃ r, rest = .closeParen :: r ∧ calls ≠ []) ∨
      ∃ r, rest = .separator :: r ∧ calls.head? = some true ∧
        WellFormed .separator calls (groupSignsFrom (some .separator) s r) := by
  rw [afterOperand_of_settled hs] at h
  cases rest with
  | nil => exact .inl ⟨rfl, h.length_of_replicate⟩
  | cons t r =>
    have hsign : (t.isSign && isUnaryAfter (some .closeParen)) = false := Bool.and_false _
    obtain ⟨r', hr'⟩ := groupSignsFrom_eq_cons hsign s r
    have hstart : t.startsOperand = false := by
      rw [hr'] at h
      exact Token.not_startsOperand_of_meets hq h.meets
    rcases (hscanned t (List.mem_cons_self ..)).cases_of_not_startsOperand hstart with
      ⟨op, rfl⟩ | rfl | rfl
    · have hlt : op.precedence < 1 := hends.1 op rfl
      have := op.precedence_pos
      omega
    · refine .inr (.inl ⟨r, rfl, ?_⟩)
      rintro rfl
      rw [hr'] at h
      rcases h with _ | ⟨-, hnest, -⟩
      cases hnest
    · rw [groupSignsFrom_cons rfl rfl] at h
      exact .inr (.inr ⟨r, rfl, h.tail_separator⟩)

end WellFormed

namespace Awaits

/-- A phrase begins with a sign or with an operand. -/
lemma exists_cons (h : Awaits k p calls s rest) :
    ∃ t r, rest = t :: r ∧
      ((∃ op : Sign, t = op.1.token) ∨ t.isSign = false ∧ t.startsOperand = true) := by
  obtain ⟨t, r, rfl, hnext⟩ := h.wellFormed.exists_cons h.operand
  refine ⟨t, r, rfl, hnext.imp ?_ ?_⟩
  · exact (h.scanned t (List.mem_cons_self ..)).exists_sign
  · rintro ⟨hsign, hmeets⟩
    exact ⟨hsign, by simpa [Token.meets, h.operand, h.notFunction] using hmeets⟩

/-- What an expression ends with, where no sign group does. -/
lemma after_expression {e : Tree .expression} (h : Awaits k p calls s (e.yield ++ rest))
    (hs : s.Settled) (hends : Phrase.Ends .expression rest) :
    (rest = [] ∧ calls.length = s.groups.length) ∨
      (∃ r, rest = .closeParen :: r ∧ calls ≠ []) ∨
      ∃ r, rest = .separator :: r ∧ calls.head? = some true ∧
        WellFormed .separator calls (groupSignsFrom (some .separator) s r) := by
  have hscanned : ∀ t ∈ rest, Scanned t := fun t ht => h.scanned t (List.mem_append_right _ ht)
  have hbinds : bindsTighter rest.head? = false :=
    Scanned.bindsTighter_eq_false hscanned fun op hop => (hends.1 op hop).trans (by decide)
  obtain ⟨q, hq, hafter⟩ := h.wellFormed.after e h.operand ⟨hs, hbinds⟩
  exact hafter.after_expression hq hs hscanned hends

end Awaits

/-! ## Descent -/

/-- The phrases that other phrases hold are recognized in shorter tokens. -/
structure Recognizes (n : Nat) : Prop where
  expression : ∀ {p calls s rest}, rest.length < n → Awaits .expression p calls s rest →
    Recognized .expression rest
  signed : ∀ {p calls s rest}, rest.length < n → Awaits .signed p calls s rest →
    Recognized .signed rest
  arguments : ∀ {p calls s rest}, rest.length < n → Awaits .arguments p calls s rest →
    Recognized .arguments rest

lemma Recognizes.mono {m n : Nat} (h : Recognizes n) (hmn : m ≤ n) : Recognizes m where
  expression hlt := h.expression (by omega)
  signed hlt := h.signed (by omega)
  arguments hlt := h.arguments (by omega)

/-- An expression in its parentheses. -/
lemma recognized_group {r : List Token} (ih : Recognizes (r.length + 1))
    (h : Awaits .signed p calls s (.openParen :: r)) :
    ∃ (e : Tree .expression) (rest : List Token), r = e.yield ++ .closeParen :: rest := by
  obtain ⟨hshallow, hgroups⟩ := h.nests
  have hin : Awaits .expression .openParen (p.isFunction :: calls) ⟨s.depth + 1, s.groups⟩ r :=
    { scanned := fun t ht => h.scanned t (List.mem_cons_of_mem _ ht)
      operand := rfl
      notFunction := rfl
      nests := ⟨hshallow.settled_succ, Nat.le_succ_of_le hgroups⟩
      wellFormed := h.wellFormed.after_openParen }
  obtain ⟨e, rest, rfl, hends⟩ := ih.expression (Nat.lt_succ_self _) hin
  rcases hin.after_expression hin.nests.1 hends with ⟨-, hlength⟩ | ⟨r, rfl, -⟩ | ⟨r, rfl, hcall, -⟩
  · simp only [List.length_cons] at hlength
    omega
  · exact ⟨e, r, rfl⟩
  · simp [h.notFunction] at hcall

/-- The arguments of a call in their parentheses. -/
lemma recognized_call {name : String} {r : List Token} (ih : Recognizes (r.length + 1))
    (h : Awaits .signed p calls s (.ofLexeme (.function name) :: r))
    (hsign : ∀ (op : Sign) (r' : List Token), r ≠ op.1.token :: r') :
    ∃ (args : Tree .arguments) (rest : List Token),
      r = .openParen :: args.yield ++ .closeParen :: rest := by
  obtain ⟨hshallow, hgroups⟩ := h.nests
  have hname := h.wellFormed.after_function
  obtain ⟨u, r, rfl, hu⟩ := hname.exists_cons rfl
  have hscanned : Scanned u := h.scanned u (by simp)
  rcases hu with hu | ⟨-, hopen⟩
  · obtain ⟨op, rfl⟩ := hscanned.exists_sign hu
    exact absurd rfl (hsign op r)
  obtain rfl : u = .openParen := by
    cases hscanned <;> first | rfl | cases hopen
  have hin : Awaits .arguments .openParen (true :: calls) ⟨s.depth + 1, s.groups⟩ r :=
    { scanned := fun t ht => h.scanned t (by simp [ht])
      operand := rfl
      notFunction := rfl
      nests := ⟨hshallow.settled_succ, Nat.lt_succ_of_le hgroups⟩
      wellFormed := hname.after_openParen }
  obtain ⟨args, rest, rfl, -, hends⟩ := ih.arguments (Nat.lt_of_succ_lt (Nat.lt_succ_self _)) hin
  obtain ⟨rest, rfl⟩ := List.head?_eq_some_iff.mp (hends rfl)
  exact ⟨args, rest, rfl⟩

/-- An atom, where no sign comes next. -/
lemma recognized_atom {r : List Token} (ih : Recognizes (r.length + 1))
    (h : Awaits .signed p calls s (t :: r)) (hstart : t.startsOperand = true)
    (hsign : t.isFunction = true → ∀ (op : Sign) (r' : List Token), r ≠ op.1.token :: r') :
    ∃ (bare : Bool) (a : Tree (.atom bare)) (rest : List Token), t :: r = a.yield ++ rest := by
  have hscanned := h.scanned t (List.mem_cons_self ..)
  cases hscanned with
  | number text _ => exact ⟨false, .number text, r, rfl⟩
  | constant name _ => exact ⟨false, .constant name, r, rfl⟩
  | unknown => exact ⟨true, .unknown, r, rfl⟩
  | openParen =>
    obtain ⟨e, rest, rfl⟩ := recognized_group ih h
    exact ⟨false, .group e, rest, by simp [Tree.yield]⟩
  | function name =>
    obtain ⟨args, rest, rfl⟩ := recognized_call ih h (hsign rfl)
    exact ⟨false, .call name args, rest, by simp [Tree.yield]⟩
  | operator op => cases hstart
  | closeParen => cases hstart
  | separator => cases hstart

/-- A base, where no sign comes next. -/
lemma recognized_base {r : List Token} (ih : Recognizes (r.length + 1))
    (h : Awaits .signed p calls s (t :: r)) (hstart : t.startsOperand = true)
    (hsign : t.isFunction = true → ∀ (op : Sign) (r' : List Token), r ≠ op.1.token :: r') :
    Recognized .base (t :: r) := by
  obtain ⟨bare, a, rest, htr⟩ := recognized_atom ih h hstart hsign
  have hshallow := h.nests.1
  have hwell := h.wellFormed
  rw [htr] at hwell ⊢
  by_cases hnext : rest.head? = some Operator.factorial.token
  · obtain ⟨r', rfl⟩ := List.head?_eq_some_iff.mp hnext
    obtain ⟨q, -, hafter⟩ := hwell.after a h.operand hshallow
    obtain ⟨-, hfactorial⟩ := hafter.after_factorial
    cases bare with
    | true =>
      cases a
      rw [Tree.yield, List.singleton_append, groupSignsFrom_operand rfl] at hwell
      have hunknown : WellFormed .unknown calls
          (afterOperand s (Operator.factorial.token :: r')) := hwell.tail rfl
      cases hunknown.after_factorial.1
    | false =>
      refine ⟨.factorial a, r', by simp [Tree.yield], Phrase.ends_of_lt (by decide) fun op hop =>
        Operator.precedence_lt_of_ne_factorial ?_⟩
      rintro rfl
      obtain ⟨r'', rfl⟩ := List.head?_eq_some_iff.mp hop
      cases hfactorial.after_factorial.1
  · refine ⟨.ofAtom a, rest, rfl, Phrase.ends_of_lt (by decide) fun op hop =>
      Operator.precedence_lt_of_ne_factorial ?_⟩
    rintro rfl
    exact hnext hop

/-- What is awaited after an operator. -/
lemma awaits_of_operator {op : Operator} (hop : op ≠ .factorial) (hnests : k.Nests s calls)
    (hscanned : ∀ t ∈ rest, Scanned t)
    (h : WellFormed op.token calls (groupSignsFrom (some op.token) s rest)) :
    Awaits k op.token calls s rest where
  scanned := hscanned
  operand := by simp [hop]
  notFunction := rfl
  nests := hnests
  wellFormed := h

/-- What is awaited in the group of a sign. -/
lemma awaits_of_sign {op : Sign} (h : Phrase.signed.Nests s calls) (call : Bool)
    (hscanned : ∀ t ∈ rest, Scanned t)
    (hwell : WellFormed op.1.token (call :: calls)
      (groupSignsFrom (some op.1.token) s.openGroup rest)) :
    Awaits .signed op.1.token (call :: calls) s.openGroup rest :=
  awaits_of_operator op.ne_factorial ⟨s.shallow_openGroup, Nat.succ_le_succ h.2⟩ hscanned hwell

/-- The name of a function directly before a sign. -/
lemma recognized_signCall {r : List Token} {op : Sign} (ih : Recognizes (r.length + 1))
    (h : Awaits .signed p calls s (t :: op.1.token :: r)) (ht : t.isFunction = true) :
    Recognized .power (t :: op.1.token :: r) := by
  obtain ⟨name, rfl⟩ : ∃ name, t = .ofLexeme (.function name) := by
    cases h.scanned t (List.mem_cons_self ..) with
    | function name => exact ⟨name, rfl⟩
    | _ => cases ht
  have hscanned : ∀ a ∈ r, Scanned a := fun a ha => h.scanned a (by simp [ha])
  have hu := awaits_of_sign h.nests true hscanned (h.wellFormed.after_function.after_sign rfl)
  obtain ⟨u, rest, rfl, hends⟩ := ih.signed (Nat.lt_succ_self _) hu
  exact ⟨.signCall name op u, rest, by simp [Tree.yield], Phrase.ends_of_lt (by decide) hends.1⟩

lemma recognized_power {r : List Token} (ih : Recognizes (r.length + 1))
    (h : Awaits .signed p calls s (t :: r)) (hstart : t.startsOperand = true) :
    Recognized .power (t :: r) := by
  by_cases hcall : t.isFunction = true ∧ ∃ (op : Sign) (r' : List Token), r = op.1.token :: r'
  · obtain ⟨hfunction, op, r, rfl⟩ := hcall
    exact recognized_signCall (ih.mono (Nat.le_succ _)) h hfunction
  · obtain ⟨b, rest, htr, hends⟩ := recognized_base ih h hstart
      fun hfunction op r' hr => hcall ⟨hfunction, op, r', hr⟩
    by_cases hnext : rest.head? = some Operator.pow.token
    · obtain ⟨r', rfl⟩ := List.head?_eq_some_iff.mp hnext
      have hwell := h.wellFormed
      rw [htr] at hwell ⊢
      obtain ⟨q, -, hafter⟩ := hwell.after b h.operand h.nests.1
      have hu : Awaits .signed Operator.pow.token calls s r' :=
        awaits_of_operator (by decide) h.nests (fun a ha => h.scanned a (by simp [htr, ha]))
          (hafter.after_operator (by decide) (.inr rfl))
      have hlength := congrArg List.length htr
      simp only [List.length_append, List.length_cons] at hlength
      obtain ⟨u, rest, rfl, hlast⟩ := ih.signed (by omega) hu
      exact ⟨.pow b u, rest, by simp [Tree.yield], Phrase.ends_of_lt (by decide) hlast.1⟩
    · refine ⟨.ofBase b, rest, htr, Phrase.ends_of_lt (by decide) fun op hop =>
        Operator.precedence_lt_of_ne_pow (hends.1 op hop) ?_⟩
      rintro rfl
      exact hnext hop

lemma recognized_signed (ih : Recognizes rest.length) (h : Awaits .signed p calls s rest) :
    Recognized .signed rest := by
  obtain ⟨t, r, rfl, ⟨op, rfl⟩ | ⟨-, hstart⟩⟩ := h.exists_cons
  · have hu := awaits_of_sign h.nests p.isFunction
      (fun a ha => h.scanned a (List.mem_cons_of_mem _ ha))
      (h.wellFormed.after_sign (isUnaryAfter_of_not_completesOperand h.operand))
    obtain ⟨u, rest, rfl, hends⟩ := ih.signed (Nat.lt_succ_self _) hu
    exact ⟨.unary op u, rest, rfl, hends⟩
  · obtain ⟨b, rest, htr, hends⟩ := recognized_power ih h hstart
    exact ⟨.ofPower b, rest, htr, Phrase.ends_of_lt (by decide) hends.1⟩

/-- Phrases of one kind with operators of one strength between them, after the first of them. -/
lemma recognized_chain {m : Phrase} {n N : Nat}
    (join : Tree k → { op : Operator // op.precedence = n } → Tree m → Tree k)
    (hjoin : ∀ l op r, (join l op r).yield = l.yield ++ op.1.token :: r.yield)
    (hk : k.strength = n ∧ k ≠ .arguments) (hm : m.strength = n + 1) (hn : n ≤ 2)
    (hs : s.Settled) (hnests : m.Nests s calls)
    (hfits : ∀ rest : List Token, bindsTighter rest.head? = false → m.Fits s rest)
    (hrec : ∀ {p : Token} {rest : List Token}, rest.length < N → Awaits m p calls s rest →
      Recognized m rest)
    (l : Tree k) (hN : rest.length ≤ N) (hscanned : ∀ t ∈ rest, Scanned t) (hends : m.Ends rest)
    (hafter : WellFormed q calls (afterOperand s rest)) : Recognized k (l.yield ++ rest) := by
  induction hlength : rest.length using Nat.strong_induction_on generalizing rest l q with
  | _ length ih =>
    by_cases hnext : ∃ op : Operator, rest.head? = some op.token ∧ op.precedence = n
    · obtain ⟨op, hhead, hop⟩ := hnext
      obtain ⟨r, rfl⟩ := List.head?_eq_some_iff.mp hhead
      have hfactorial : op ≠ .factorial := by
        rintro rfl
        exact absurd (hop ▸ hn) (by decide)
      have hr : Awaits m op.token calls s r :=
        awaits_of_operator hfactorial hnests (fun t ht => hscanned t (List.mem_cons_of_mem _ ht))
          (hafter.after_operator hfactorial (.inl hs))
      obtain ⟨u, r, rfl, hu⟩ := hrec hN hr
      have hscanned' : ∀ t ∈ r, Scanned t := fun t ht => hr.scanned t (List.mem_append_right _ ht)
      have hbinds : bindsTighter r.head? = false :=
        Scanned.bindsTighter_eq_false hscanned' fun op hop => by
          have := hu.1 op hop
          omega
      obtain ⟨q', -, hafter'⟩ := hr.wellFormed.after u hr.operand (hfits r hbinds)
      simp only [List.length_cons, List.length_append] at hN hlength
      have hstep := ih r.length (by omega) (join l ⟨op, hop⟩ u) (by omega) hscanned' hu hafter' rfl
      rw [hjoin] at hstep
      simpa using hstep
    · refine ⟨l, rest, rfl, Phrase.ends_of_lt hk.2 fun op hhead => ?_⟩
      have hlt := hends.1 op hhead
      have hne : op.precedence ≠ n := fun hop => hnext ⟨op, hhead, hop⟩
      omega

lemma recognized_term (ih : Recognizes rest.length) (h : Awaits .term p calls s rest) :
    Recognized .term rest := by
  obtain ⟨hs, hgroups⟩ := h.nests
  have hsigned : Awaits .signed p calls s rest := { h with nests := ⟨hs.shallow, hgroups⟩ }
  obtain ⟨u, r, rfl, hends⟩ := recognized_signed ih hsigned
  have hscanned : ∀ t ∈ r, Scanned t := fun t ht => h.scanned t (List.mem_append_right _ ht)
  have hbinds := Scanned.bindsTighter_eq_false hscanned hends.1
  obtain ⟨q, -, hafter⟩ := h.wellFormed.after u h.operand ⟨hs.shallow, hbinds⟩
  have hlength : r.length ≤ (u.yield ++ r).length := by simp
  exact recognized_chain Tree.product (fun _ _ _ => rfl) ⟨rfl, by decide⟩ rfl le_rfl hs
    hsigned.nests (fun _ hrest => ⟨hs.shallow, hrest⟩) ih.signed (.ofSigned u) hlength hscanned
    hends hafter

lemma recognized_expression (ih : Recognizes rest.length) (h : Awaits .expression p calls s rest) :
    Recognized .expression rest := by
  have hs := h.nests.1
  have hterm : Awaits .term p calls s rest := { h with nests := h.nests }
  obtain ⟨l, r, rfl, hends⟩ := recognized_term ih hterm
  have hscanned : ∀ t ∈ r, Scanned t := fun t ht => h.scanned t (List.mem_append_right _ ht)
  have hbinds := Scanned.bindsTighter_eq_false hscanned fun op hop =>
    (hends.1 op hop).trans (by decide)
  obtain ⟨q, -, hafter⟩ := h.wellFormed.after l h.operand ⟨hs, hbinds⟩
  have hlength : r.length ≤ (l.yield ++ r).length := by simp
  exact recognized_chain Tree.sum (fun _ _ _ => rfl) ⟨rfl, by decide⟩ rfl (by decide) hs hterm.nests
    (fun _ hrest => ⟨hs, hrest⟩) (fun hlt => recognized_term (ih.mono hlt.le)) (.ofTerm l)
    hlength hscanned hends hafter

lemma recognized_arguments (ih : Recognizes rest.length) (h : Awaits .arguments p calls s rest) :
    Recognized .arguments rest := by
  obtain ⟨hs, hgroups⟩ := h.nests
  have hexpression : Awaits .expression p calls s rest := { h with nests := ⟨hs, hgroups.le⟩ }
  obtain ⟨e, r, rfl, hends⟩ := recognized_expression ih hexpression
  rcases h.after_expression hs hends with ⟨-, hlength⟩ | ⟨r, rfl, -⟩ | ⟨r, rfl, -, hnext⟩
  · omega
  · refine ⟨.last e, _, rfl, fun op hop => ?_, fun _ => rfl⟩
    cases op <;> cases hop
  · have hargs : Awaits .arguments .separator calls s r :=
      { scanned := fun t ht => h.scanned t (by simp [ht])
        operand := rfl
        notFunction := rfl
        nests := h.nests
        wellFormed := hnext }
    have hlt : r.length < (e.yield ++ .separator :: r).length := by
      rw [List.length_append, List.length_cons]
      omega
    obtain ⟨args, rest, rfl, hlast⟩ := ih.arguments hlt hargs
    exact ⟨.more e args, rest, by simp [Tree.yield], hlast⟩

theorem recognizes (n : Nat) : Recognizes n := by
  induction n with
  | zero => exact ⟨nofun, nofun, nofun⟩
  | succ n ih =>
    refine ⟨fun hlt h => ?_, fun hlt h => ?_, fun hlt h => ?_⟩
    · exact recognized_expression (ih.mono (Nat.le_of_lt_succ hlt)) h
    · exact recognized_signed (ih.mono (Nat.le_of_lt_succ hlt)) h
    · exact recognized_arguments (ih.mono (Nat.le_of_lt_succ hlt)) h

/-! ## Expressions -/

/-- Scanned tokens that are arranged and converted without a fault are an expression, and what they
are converted to is its listing. -/
theorem exists_tree_of_arrange {ts program : List Token} (hscanned : ∀ t ∈ ts, Scanned t)
    (h : arrange (groupSigns ts) = .ok program) :
    ∃ t : Tree .expression, t.yield = ts ∧ t.listing = program := by
  obtain ⟨_, hcheck, hconvert⟩ := of_bind_eq_ok h
  have hstart : Awaits .expression .openParen [] .outside ts :=
    { scanned := hscanned
      operand := rfl
      notFunction := rfl
      nests := ⟨Nesting.settled_outside, le_rfl⟩
      wellFormed := by
        have hprev : isUnaryAfter (some .openParen) = isUnaryAfter none := rfl
        rw [groupSignsFrom_congr hprev]
        exact wellFormed_groupSigns hcheck hconvert }
  obtain ⟨t, rest, rfl, hends⟩ := recognized_expression (recognizes _) hstart
  rcases hstart.after_expression Nesting.settled_outside hends with
    ⟨rfl, -⟩ | ⟨r, rfl, hcalls⟩ | ⟨r, rfl, hcall, -⟩
  · rw [List.append_nil, groupSigns_yield, convert_written] at hconvert
    exact ⟨t, (List.append_nil _).symm, Except.ok.inj hconvert⟩
  · exact absurd rfl hcalls
  · cases hcall

end Calculator
