import Calculator.Formula
import Calculator.Proofs.Compilation
import Calculator.Proofs.StackHeight
import Calculator.Proofs.Stages

/-!
# Running what has been compiled

The stack machine takes any tokens and guards against those that it cannot run.  What has been
compiled never meets these guards (`runsThrough_of_compile`): before each token as many values are
on the stack as the token takes, and at the end there is one, because the heights of the stack are
those of a listing.

The other guards are about single tokens.  Those of a listing are of few kinds (`Listed`), and a
run over them fails only for the reasons collected in `Excuses`.  Both statements are also about a
program in which numerals have taken the place of the unknown (`Fills`), which is what a formula
runs.
-/

namespace Calculator

/-! ## The tokens of a listing -/

/-- The tokens of a program that has been compiled from the tokens `ts`, or that a numeral has been
put in. -/
inductive Listed (ts : List Token) : Token → Prop
  | number (text : String) (h : Decimal.Readable text) : Listed ts (.number text)
  | operator (op : Operator) : Listed ts op.token
  | function (name : String) (n : Nat) (hn : 0 < n) (h : .ofLexeme (.function name) ∈ ts) :
    Listed ts ((Token.ofLexeme (.function name)).withArity n)
  | constant (name : String) (h : name = "pi" ∨ name = "e") :
    Listed ts (.ofLexeme (.constant name))
  | unknown (h : .unknown ∈ ts) : Listed ts .unknown

lemma readable_zero : Decimal.Readable "0" := ⟨_, rfl⟩

/-- What is in the listing of a phrase is in its tokens, the zeros before signs apart. -/
theorem listed_of_mem_listing {k : Phrase} (t : Tree k) {ts : List Token}
    (h : ∀ a ∈ t.yield, a ∈ ts ∧ Scanned a) : ∀ a ∈ t.listing, Listed ts a := by
  induction t with
  | ofTerm t ih | ofSigned t ih | ofPower t ih | ofBase t ih | ofAtom t ih | last t ih => exact ih h
  | number text =>
    obtain ⟨hts, hscanned⟩ := h _ (List.mem_singleton_self _)
    simp only [Tree.listing, List.forall_mem_singleton]
    cases hscanned with
    | number _ hread => exact .number text hread
  | constant name =>
    obtain ⟨hts, hscanned⟩ := h _ (List.mem_singleton_self _)
    simp only [Tree.listing, List.forall_mem_singleton]
    cases hscanned with
    | constant _ hname => exact .constant name hname
  | unknown =>
    simp only [Tree.listing, List.forall_mem_singleton]
    exact .unknown (h _ (List.mem_singleton_self _)).1
  | sum l op r ihl ihr | product l op r ihl ihr =>
    simp only [Tree.yield, List.forall_mem_append, List.forall_mem_cons] at h
    simp only [Tree.listing, List.forall_mem_append, List.forall_mem_singleton]
    exact ⟨⟨ihl h.1, ihr h.2.2⟩, .operator op.1⟩
  | pow b u ihb ihu =>
    simp only [Tree.yield, List.forall_mem_append, List.forall_mem_cons] at h
    simp only [Tree.listing, List.forall_mem_append, List.forall_mem_singleton]
    exact ⟨⟨ihb h.1, ihu h.2.2⟩, .operator .pow⟩
  | more e args ihe ihargs =>
    simp only [Tree.yield, List.forall_mem_append, List.forall_mem_cons] at h
    simp only [Tree.listing, List.forall_mem_append]
    exact ⟨ihe h.1, ihargs h.2.2⟩
  | unary op u ih =>
    simp only [Tree.yield, List.forall_mem_cons] at h
    simp only [Tree.listing, List.forall_mem_append, List.forall_mem_cons]
    exact ⟨⟨.number _ readable_zero, ih h.2⟩, .operator op.1, by simp⟩
  | factorial a ih =>
    simp only [Tree.yield, List.forall_mem_append] at h
    simp only [Tree.listing, List.forall_mem_append, List.forall_mem_singleton]
    exact ⟨ih h.1, .operator .factorial⟩
  | group e ih =>
    simp only [Tree.yield, List.forall_mem_append, List.forall_mem_cons] at h
    exact ih h.1.2
  | signCall name op u ih =>
    simp only [Tree.yield, List.forall_mem_cons] at h
    simp only [Tree.listing, List.forall_mem_append, List.forall_mem_cons]
    exact ⟨⟨.number _ readable_zero, ih h.2.2⟩, .operator op.1,
      .function name 1 Nat.one_pos h.1.1, by simp⟩
  | call name args ih =>
    simp only [Tree.yield, List.forall_mem_append, List.forall_mem_cons] at h
    simp only [Tree.listing, List.forall_mem_append, List.forall_mem_singleton]
    exact ⟨ih h.1.2.2, .function name args.arity (Nat.succ_pos _) h.1.1.1⟩

/-! ## Numerals in the place of the unknown -/

/-- A token, or a numeral that has taken the place of the unknown. -/
inductive Fills : Token → Token → Prop
  | same (t : Token) : Fills t t
  | numeral {t : Token} {text : String} (ht : t.isUnknown = true) (h : Decimal.Readable text) :
    Fills t (.number text)

lemma Fills.operands_eq {t u : Token} (h : Fills t u) : u.operands = t.operands := by
  cases h with
  | same => rfl
  | numeral ht hread =>
    obtain ⟨l, n⟩ := t
    obtain rfl : l = .unknown := by simpa [Token.isUnknown] using ht
    rfl

lemma Fills.listed {t u : Token} {ts : List Token} (h : Fills t u) (ht : Listed ts t) :
    Listed ts u := by
  cases h with
  | same => exact ht
  | numeral _ hread => exact .number _ hread

/-- The heights of the stack are those before the unknown was replaced. -/
lemma heightAfter_fills {p q : List Token} (h : List.Forall₂ Fills p q) (n : Nat) :
    heightAfter n q = heightAfter n p := by
  induction h generalizing n with
  | nil => rfl
  | cons hhead _ ih => rw [heightAfter, heightAfter, hhead.operands_eq, ih]

lemma listed_fills {p q ts : List Token} (h : List.Forall₂ Fills p q)
    (hp : ∀ a ∈ p, Listed ts a) : ∀ a ∈ q, Listed ts a := by
  induction h with
  | nil => nofun
  | cons hhead _ ih =>
    obtain ⟨ha, hrest⟩ := List.forall_mem_cons.mp hp
    exact List.forall_mem_cons.mpr ⟨hhead.listed ha, ih hrest⟩

/-- Every unknown replaced by one value. -/
lemma fills_substitute (x : Float) (p : List Token) :
    List.Forall₂ Fills p (p.map (Formula.substitute x)) := by
  induction p with
  | nil => exact .nil
  | cons t p ih =>
    refine .cons ?_ ih
    unfold Formula.substitute
    split
    next ht => exact .numeral ht (Decimal.readable_write x)
    · exact .same t

/-! ## Faults -/

namespace Machine

variable {st : Stack} {t : Token} {fault : Fault}

/-- The faults that a token can cause where it finds its operands: a name without a function, the
unknown itself, and operands for which the function or operator has no value. -/
def Excuses (t : Token) (fault : Fault) : Prop :=
  (∃ name, t.lexeme = .function name ∧ Builtin.ofName? name = none ∧
    fault = .evaluation (.unknownFunction name)) ∨
  (t.isUnknown = true ∧ fault.code = .unexpectedToken) ∨
  fault.code ∈ [.divisionByZero, .invalidFactorialOperand, .noUniqueMode, .badArgumentCount]

lemma code_of_factorial {x : Float} (h : factorial x = .error fault) :
    fault.code = .invalidFactorialOperand := by
  unfold factorial at h
  split at h
  · cases h
    rfl
  · cases h

lemma code_of_oneArgument {f : Builtin} {arguments : List Float}
    (h : f.oneArgument arguments = .error fault) : fault.code = .badArgumentCount := by
  unfold Builtin.oneArgument at h
  split at h
  · cases h
  · cases h
    rfl

lemma code_of_mode {values : List Float} (hne : values ≠ [])
    (h : Statistics.mode values = .error fault) : fault.code = .noUniqueMode := by
  have hempty : values.isEmpty = false := by simpa using hne
  simp only [Statistics.mode, hempty, Bool.false_eq_true, if_false] at h
  split at h
  · split at h
    · cases h
    · cases h
      rfl
  · cases h
    rfl

/-- The faults of a function that is given an argument. -/
lemma code_of_apply {f : Builtin} {arguments : List Float} (hne : arguments ≠ [])
    (h : f.apply arguments = .error fault) :
    fault.code ∈ [.invalidFactorialOperand, .noUniqueMode, .badArgumentCount] := by
  have hempty : arguments.isEmpty = false := by simpa using hne
  have hone : f.oneArgument arguments = .error fault → fault.code ∈
      [.invalidFactorialOperand, .noUniqueMode, .badArgumentCount] := by
    intro h
    simp [code_of_oneArgument h]
  cases f with
  | mean => simp [Builtin.apply, Statistics.mean, hempty] at h
  | variance => simp [Builtin.apply, Statistics.variance, hempty] at h
  | standardDeviation => simp [Builtin.apply, Statistics.standardDeviation, hempty] at h
  | median =>
    obtain ⟨x, hmedian⟩ := Statistics.medianOfFloats_eq arguments
    rw [hempty] at hmedian
    cases hmedian.symm.trans h
  | mode => simp [code_of_mode hne h]
  | factorial =>
    rcases of_bind_eq_error h with hx | ⟨x, -, hfactorial⟩
    · exact hone hx
    · simp [code_of_factorial hfactorial]
  | _ => exact hone (of_map_eq_error h)

lemma code_of_applyOperator {op : Operator} (hop : op ≠ .factorial) {l r : Float}
    (h : applyOperator op.symbol l r = .error fault) : fault.code = .divisionByZero := by
  rw [applyOperator, Operator.ofSymbol?_symbol] at h
  cases op with
  | div =>
    simp only at h
    split at h
    · cases h
      rfl
    · cases h
  | factorial => exact absurd rfl hop
  | _ => cases h

/-- The fault of a step that finds its operands is its token's own. -/
theorem excuses_of_step {ts : List Token} (ht : Listed ts t) (hst : t.operands ≤ st.length)
    (h : step st t = .error fault) : Excuses t fault := by
  cases ht with
  | number text hread =>
    obtain ⟨x, hx⟩ := hread
    simp [step, Token.number, Token.ofLexeme, numberValue, hx, Except.map] at h
  | constant name hname =>
    rcases hname with rfl | rfl
    · cases h
    · cases h
  | unknown _ =>
    cases h
    exact .inr (.inl ⟨rfl, rfl⟩)
  | operator op =>
    have hrun : runOperator op.symbol st = .error fault := h
    rw [Operator.operands_token] at hst
    by_cases hop : op = .factorial
    · subst hop
      rcases st with _ | ⟨n, rest⟩
      · cases hst
      · have hfactorial : factorial n = .error fault := of_map_eq_error hrun
        exact .inr (.inr (by simp [code_of_factorial hfactorial]))
    · rw [if_neg hop] at hst
      have hsymbol : op.symbol ≠ "!" := by simpa using hop
      rcases st with _ | ⟨r, _ | ⟨l, rest⟩⟩
      · simp at hst
      · simp at hst
      · rw [runOperator, if_neg hsymbol] at hrun
        have hvalue : applyOperator op.symbol l r = .error fault := of_map_eq_error hrun
        exact .inr (.inr (by simp [code_of_applyOperator hop hvalue]))
  | function name n hn _ =>
    have hrun : runFunction name n st = .error fault := h
    unfold runFunction at hrun
    split at hrun
    next hname =>
      cases hrun
      exact .inl ⟨name, rfl, hname, rfl⟩
    next f hname =>
      have hle : n ≤ st.length := hst
      rw [if_neg (Nat.not_lt_of_le hle)] at hrun
      have hne : (st.take n).reverse ≠ [] := by
        rw [ne_eq, List.reverse_eq_nil_iff, ← List.length_eq_zero_iff, List.length_take]
        omega
      have hcode := code_of_apply hne (of_map_eq_error hrun)
      refine .inr (.inr ?_)
      simp only [List.mem_cons, List.not_mem_nil, or_false] at hcode ⊢
      exact .inr hcode

/-- The fault of a run in which no token lacks operands is the fault of one of its tokens. -/
theorem excuses_of_steps {ts q : List Token} {n : Nat} (hq : ∀ a ∈ q, Listed ts a)
    (hheight : heightAfter st.length q = some n) (h : steps st q = .error fault) :
    ∃ t ∈ q, Excuses t fault := by
  induction q generalizing st with
  | nil => cases h
  | cons t q ih =>
    obtain ⟨ht, hrest⟩ := List.forall_mem_cons.mp hq
    obtain ⟨hst, hheight⟩ := of_heightAfter_cons hheight
    rcases of_bind_eq_error h with hstep | ⟨mid, hstep, hsteps⟩
    · exact ⟨t, List.mem_cons_self .., excuses_of_step ht hst hstep⟩
    · rw [← (length_of_step hstep).2] at hheight
      obtain ⟨u, hu, hexcuses⟩ := ih hrest hheight hsteps
      exact ⟨u, List.mem_cons_of_mem _ hu, hexcuses⟩

end Machine

/-! ## Programs -/

/-- The fault of a program is the fault of one of its tokens. -/
lemma excuses_of_run {ts q : List Token} {fault : Fault} (hq : ∀ a ∈ q, Listed ts a)
    (hheight : heightAfter 0 q = some 1) (h : run q = .error fault) :
    ∃ t ∈ q, Machine.Excuses t fault := by
  rcases of_bind_eq_error h with hsteps | ⟨st, hsteps, hanswer⟩
  · have hempty : heightAfter ([] : Stack).length q = some 1 := hheight
    exact Machine.excuses_of_steps hq hempty hsteps
  · obtain ⟨x, rfl⟩ := (runsThrough_of_heightAfter hheight).single st hsteps
    cases hanswer

/-- The tokens of a program that has been compiled, and how many values it leaves. -/
lemma listed_of_compile {expression : String} {program : List Token}
    (h : compile expression = .ok program) :
    ∃ ts, scan expression = .ok ts ∧ (∀ a ∈ program, Listed ts a) ∧
      heightAfter 0 program = some 1 := by
  obtain ⟨ts, hscan, harrange⟩ := scan_of_compile h
  have hscanned := scanned_of_scan hscan
  obtain ⟨t, rfl, rfl⟩ := exists_tree_of_arrange hscanned harrange
  exact ⟨t.yield, hscan, listed_of_mem_listing t fun a ha => ⟨ha, hscanned a ha⟩,
    heightAfter_listing t 0⟩

lemma Listed.arity_pos {ts : List Token} {t : Token} (h : Listed ts t)
    (ht : t.isFunction = true) : 1 ≤ t.arity := by
  cases h with
  | function name n hn _ => exact hn
  | _ => cases ht

/-- The codes of faults that say that a program is not one that has been compiled. -/
def internalCodes : List Code :=
  [.insufficientOperands, .tooManyResults, .numberFormat, .emptyStatisticalArgumentList]

/-- The fault is about a name in the text that no function has. -/
def NamesNoBuiltin (expression : String) (fault : Fault) : Prop :=
  ∃ ts name, scan expression = .ok ts ∧ .ofLexeme (.function name) ∈ ts ∧
    Builtin.ofName? name = none ∧ fault = .evaluation (.unknownFunction name)

/-- The codes of the faults that a token causes. -/
lemma code_of_excuses {expression : String} {ts : List Token} {t : Token} {fault : Fault}
    (hscan : scan expression = .ok ts) (ht : Listed ts t) (h : Machine.Excuses t fault) :
    fault.code ∉ internalCodes ∧
      (fault.code = .unknownOperatorOrFunction → NamesNoBuiltin expression fault) ∧
      (fault.code = .unexpectedToken → t.isUnknown = true ∧ .unknown ∈ ts) := by
  rcases h with ⟨name, hname, hnone, rfl⟩ | ⟨hunknown, hcode⟩ | hcode
  · have hcode : (Fault.evaluation (.unknownFunction name)).code = .unknownOperatorOrFunction := rfl
    rw [hcode]
    refine ⟨by decide, fun _ => ⟨ts, name, hscan, ?_, hnone, rfl⟩, nofun⟩
    cases ht with
    | function name' n _ hmem =>
      obtain rfl : name' = name := Lexeme.function.inj hname
      exact hmem
    | _ => cases hname
  · rw [hcode]
    refine ⟨by decide, nofun, fun _ => ⟨hunknown, ?_⟩⟩
    cases ht with
    | unknown hmem => exact hmem
    | _ => cases hunknown
  · simp only [List.mem_cons, List.not_mem_nil, or_false] at hcode
    rcases hcode with hcode | hcode | hcode | hcode
    all_goals
      rw [hcode]
      exact ⟨by decide, nofun, nofun⟩

lemma code_of_mem_frontCodes {code : Code} (h : code ∈ frontCodes) :
    code ∉ internalCodes ∧ code ≠ .unknownOperatorOrFunction ∧ code ≠ .unexpectedToken := by
  revert h
  cases code <;> decide

/-- A program runs through by itself and with numerals in the place of the unknown. -/
lemma runsThrough_of_fills {expression : String} {program q : List Token}
    (hprogram : compile expression = .ok program) (hq : List.Forall₂ Fills program q) :
    RunsThrough q := by
  obtain ⟨ts, -, -, hheight⟩ := listed_of_compile hprogram
  exact runsThrough_of_heightAfter ((heightAfter_fills hq 0).trans hheight)

/-- An evaluation fails before the machine runs, or for the sake of one of its tokens. -/
lemma code_of_evaluate {expression : String} {fault : Fault}
    (h : evaluate expression = .error fault) :
    fault.code ∉ internalCodes ∧
      (fault.code = .unknownOperatorOrFunction → NamesNoBuiltin expression fault) ∧
      (fault.code = .unexpectedToken → ∃ ts, scan expression = .ok ts ∧ .unknown ∈ ts) := by
  by_cases hfront : fault.code ∈ frontCodes
  · obtain ⟨hinternal, hname, htoken⟩ := code_of_mem_frontCodes hfront
    exact ⟨hinternal, fun h => absurd h hname, fun h => absurd h htoken⟩
  rcases of_bind_eq_error h with htext | ⟨_, -, hrest⟩
  · exact absurd (code_of_checkText htext) hfront
  rcases of_bind_eq_error hrest with hcompile | ⟨program, hprogram, hrun⟩
  · exact absurd (code_of_compile hcompile) hfront
  obtain ⟨ts, hscan, hlisted, hheight⟩ := listed_of_compile hprogram
  obtain ⟨t, ht, hexcuses⟩ := excuses_of_run hlisted hheight hrun
  obtain ⟨hinternal, hname, htoken⟩ := code_of_excuses hscan (hlisted t ht) hexcuses
  exact ⟨hinternal, hname, fun h => ⟨ts, hscan, (htoken h).2⟩⟩

/-- No unknown is left where a numeral has taken the place of each. -/
lemma not_isUnknown_substitute (x : Float) (t : Token) :
    (Formula.substitute x t).isUnknown = false := by
  unfold Formula.substitute
  split
  · rfl
  next ht => exact Bool.eq_false_iff.mpr ht

/-- A formula at a value fails for the sake of one of its tokens, and not of the unknown. -/
lemma code_of_value {expression : String} {f : Formula} {x : Float} {fault : Fault}
    (hf : Formula.ofText expression = .ok f) (h : f.value x = .error fault) :
    fault.code ∉ internalCodes ∧
      (fault.code = .unknownOperatorOrFunction → NamesNoBuiltin expression fault) ∧
      fault.code ≠ .unexpectedToken := by
  obtain ⟨program, hprogram, hformula⟩ := of_bind_eq_ok hf
  cases hformula
  obtain ⟨ts, hscan, hlisted, hheight⟩ := listed_of_compile hprogram
  have hfills := fills_substitute x program
  have hfilled := listed_fills hfills hlisted
  have hheights := (heightAfter_fills hfills 0).trans hheight
  obtain ⟨t, ht, hexcuses⟩ := excuses_of_run hfilled hheights h
  obtain ⟨hinternal, hname, htoken⟩ := code_of_excuses hscan (hfilled t ht) hexcuses
  refine ⟨hinternal, hname, fun h => ?_⟩
  obtain ⟨u, -, rfl⟩ := List.mem_map.mp ht
  cases (htoken h).1.symm.trans (not_isUnknown_substitute x u)

/-- Every text: what it is compiled to, by itself or with numerals in the place of the unknown, runs
through, and what fails in an evaluation is neither the machine nor one of its guards against other
programs, but for a name that no function has and the unknown itself. -/
theorem runsThrough_of_compile (expression : String) :
    (∀ program, compile expression = .ok program →
      (∀ t ∈ program, t.isFunction = true → 1 ≤ t.arity) ∧
        ∀ q, List.Forall₂ Fills program q → RunsThrough q) ∧
    (∀ fault, evaluate expression = .error fault →
      fault.code ∉ internalCodes ∧
        (fault.code = .unknownOperatorOrFunction → NamesNoBuiltin expression fault) ∧
        (fault.code = .unexpectedToken → ∃ ts, scan expression = .ok ts ∧ .unknown ∈ ts)) ∧
    ∀ f x fault, Formula.ofText expression = .ok f → f.value x = .error fault →
      fault.code ∉ internalCodes ∧
        (fault.code = .unknownOperatorOrFunction → NamesNoBuiltin expression fault) ∧
        fault.code ≠ .unexpectedToken := by
  refine ⟨fun program hprogram => ⟨?_, ?_⟩, ?_, ?_⟩
  · intro t ht
    obtain ⟨ts, -, hlisted, -⟩ := listed_of_compile hprogram
    exact (hlisted t ht).arity_pos
  · intro q hq
    exact runsThrough_of_fills hprogram hq
  · intro fault hfault
    exact code_of_evaluate hfault
  · intro f x fault hf hfault
    exact code_of_value hf hfault

theorem runsThrough_of_compile_mean :
    RunsThrough ([Token.number "0", .number "2", .operator "-", .unknown, .operator "!",
      (Token.function "mean").withArity 2].map (Formula.substitute 3.0)) :=
  ((runsThrough_of_compile "mean(-2,(x)!)").1 _ (by decide +kernel)).2 _ (fills_substitute _ _)

end Calculator
