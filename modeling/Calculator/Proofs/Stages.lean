import Calculator.Expression
import Calculator.Proofs.Basic

/-!
# Faults of each stage

Every stage has faults of its own kind: those of the look at the raw text are faults of the input,
those of the scan are lexical, those of the arrangement and of the conversion are of grammar, and
those of the machine are of the evaluation.  `FailsWith` says so of a stage, and with which codes it
fails: only the arrangement finds an expression empty, and only the conversion finds parentheses
that do not pair up.  So the code of a fault tells which stages it can come from
(`code_of_compile`, `code_of_checkText`).
-/

namespace Calculator

variable {fault : Fault}

/-! ## Failing -/

section FailsWith

variable {α β : Type} {stage : Stage} {codes : List Code}

/-- An answer that is a fault, if it is one, of this stage and with one of these codes. -/
def FailsWith (stage : Stage) (codes : List Code) (x : Except Fault α) : Prop :=
  ∀ fault, x = .error fault → fault.stage = stage ∧ fault.code ∈ codes

@[simp] lemma failsWith_ok (a : α) : FailsWith stage codes (.ok a) := nofun

lemma failsWith_error :
    FailsWith stage codes (.error fault : Except Fault α) ↔
      fault.stage = stage ∧ fault.code ∈ codes :=
  fails_error

@[simp] lemma failsWith_grammar {cause : GrammarFault} :
    FailsWith .grammar codes (.error (.grammar cause) : Except Fault α) ↔ cause.code ∈ codes := by
  rw [failsWith_error]
  exact and_iff_right rfl

@[simp] lemma failsWith_evaluation {cause : EvaluationFault} :
    FailsWith .evaluation codes (.error (.evaluation cause) : Except Fault α) ↔
      cause.code ∈ codes := by
  rw [failsWith_error]
  exact and_iff_right rfl

lemma FailsWith.mono {codes' : List Code} {x : Except Fault α} (h : FailsWith stage codes x)
    (hcodes : codes ⊆ codes') : FailsWith stage codes' x := by
  intro fault hfault
  obtain ⟨hstage, hcode⟩ := h fault hfault
  exact ⟨hstage, hcodes hcode⟩

lemma FailsWith.bind {x : Except Fault α} {f : α → Except Fault β} (hx : FailsWith stage codes x)
    (hf : ∀ a, FailsWith stage codes (f a)) : FailsWith stage codes (x >>= f) :=
  Fails.bind hx fun a _ => hf a

lemma FailsWith.map {x : Except Fault α} (hx : FailsWith stage codes x) (g : α → β) :
    FailsWith stage codes (x.map g) :=
  Fails.map hx g

end FailsWith

/-! ## The scan -/

/-- A fault of the scan quotes a stretch of the text. -/
lemma failsWith_lexemes (cs : List Char) : FailsWith .lexical [.invalidCharacter] (lexemes cs) := by
  induction cs using lexemes.induct with
  | case1 cs l rest hnext hlt ih =>
    rw [lexemes_of_some hnext]
    exact ih.map _
  | case2 cs hnext hempty =>
    rw [lexemes_of_none hnext, if_pos hempty]
    exact failsWith_ok []
  | case3 cs hnext hempty =>
    rw [lexemes_of_none hnext, if_neg hempty, failsWith_error]
    unfold Lexeme.stretchFault
    split
    · exact ⟨rfl, List.mem_singleton_self _⟩
    · exact ⟨rfl, List.mem_singleton_self _⟩

theorem failsWith_scan (expression : String) :
    FailsWith .lexical [.invalidCharacter] (scan expression) := by
  rw [scan_eq]
  exact (failsWith_lexemes _).map _

theorem failsWith_tokenize (expression : String) :
    FailsWith .lexical [.invalidCharacter] (tokenize expression) :=
  (failsWith_scan expression).map _

/-! ## The arrangement -/

/-- The codes of the rules of arrangement. -/
def ruleCodes : List Code := [.malformedSyntax, .divisionByZero]

section Arrangement

variable (prev next : Option Token) (t : Token)

lemma failsWith_requireNoOperand :
    FailsWith .grammar [.malformedSyntax] (requireNoOperand t next) := by
  unfold requireNoOperand missingOperator
  split
  · split <;> simp [GrammarFault.code]
  · simp

lemma failsWith_checkFactorial :
    FailsWith .grammar [.malformedSyntax] (checkFactorial prev t next) := by
  unfold checkFactorial
  split
  · exact failsWith_requireNoOperand next t
  · simp [GrammarFault.code]

lemma failsWith_checkOpenParen :
    FailsWith .grammar [.malformedSyntax] (checkOpenParen prev t next) := by
  unfold checkOpenParen missingOperator
  split
  · simp [GrammarFault.code]
  split
  · split <;> simp [GrammarFault.code]
  · simp

lemma failsWith_checkCloseParen :
    FailsWith .grammar [.malformedSyntax] (checkCloseParen prev t next) := by
  unfold checkCloseParen
  split
  · simp [GrammarFault.code]
  · exact failsWith_requireNoOperand next t

lemma failsWith_checkFunction (name : String) :
    FailsWith .grammar [.malformedSyntax] (checkFunction name next) := by
  unfold checkFunction
  split <;> simp [GrammarFault.code]

lemma failsWith_checkSeparator :
    FailsWith .grammar [.malformedSyntax] (checkSeparator prev next) := by
  unfold checkSeparator
  split <;> simp [GrammarFault.code]

/-- Only the rule of what may come after an operator is about a value. -/
lemma failsWith_checkSecondOperand (b : Token) :
    FailsWith .grammar ruleCodes (checkSecondOperand prev t b) := by
  unfold checkSecondOperand
  split
  · simp [GrammarFault.code, ruleCodes]
  split
  · simp [GrammarFault.code, ruleCodes]
  split
  · simp [GrammarFault.code, ruleCodes]
  split
  · split <;> simp [GrammarFault.code, ruleCodes]
  · simp

lemma malformedSyntax_subset_ruleCodes : [.malformedSyntax] ⊆ ruleCodes := by
  simp [ruleCodes]

lemma failsWith_checkOperator :
    FailsWith .grammar ruleCodes (checkOperator prev t next) := by
  unfold checkOperator
  split
  · exact (failsWith_checkFactorial prev next t).mono malformedSyntax_subset_ruleCodes
  split
  · simp [GrammarFault.code, ruleCodes]
  split
  · simp [GrammarFault.code, ruleCodes]
  · exact failsWith_checkSecondOperand prev t _

/-- The rule of a token that is no operator. -/
lemma failsWith_checkToken_of_not_isOperator (ht : t.isOperator = false) :
    FailsWith .grammar [.malformedSyntax] (checkToken prev t next) := by
  obtain ⟨l, n⟩ := t
  cases l with
  | operator symbol => cases ht
  | openParen => exact failsWith_checkOpenParen prev next _
  | closeParen => exact failsWith_checkCloseParen prev next _
  | number text | constant name | unknown => exact failsWith_requireNoOperand next _
  | function name => exact failsWith_checkFunction next name
  | separator => exact failsWith_checkSeparator prev next

lemma failsWith_checkToken : FailsWith .grammar ruleCodes (checkToken prev t next) := by
  by_cases ht : t.isOperator = true
  · rw [checkToken_of_isOperator ht]
    exact failsWith_checkOperator prev next t
  · have hrule := failsWith_checkToken_of_not_isOperator prev next t (Bool.eq_false_iff.mpr ht)
    exact hrule.mono malformedSyntax_subset_ruleCodes

lemma failsWith_checkFrom (ts : List Token) :
    FailsWith .grammar ruleCodes (checkFrom prev ts) := by
  induction ts generalizing prev with
  | nil => exact failsWith_ok _
  | cons t ts ih => exact (failsWith_checkToken prev _ t).bind fun _ => ih _

/-- Only of nothing at all is it said that it is empty. -/
theorem failsWith_checkArrangement {ts : List Token} (hne : ts ≠ []) :
    FailsWith .grammar ruleCodes (checkArrangement ts) := by
  rw [checkArrangement, if_neg (by simpa using hne)]
  exact failsWith_checkFrom none ts

lemma failsWith_checkArrangement_nil :
    FailsWith .grammar [.emptyExpression] (checkArrangement []) :=
  failsWith_grammar.mpr (List.mem_singleton_self _)

end Arrangement

/-! ## The conversion -/

/-- The codes of the conversion. -/
def conversionCodes : List Code := [.unbalancedParentheses, .malformedSyntax]

namespace Conversion

variable (c : Conversion)

lemma failsWith_onSeparator : FailsWith .grammar conversionCodes c.onSeparator := by
  simp only [onSeparator]
  split
  · split <;> simp [GrammarFault.code, conversionCodes]
  · simp [GrammarFault.code, conversionCodes]

lemma failsWith_onCloseParen : FailsWith .grammar conversionCodes c.onCloseParen := by
  simp only [onCloseParen]
  split <;> simp [GrammarFault.code, conversionCodes]

lemma failsWith_read (t : Token) : FailsWith .grammar conversionCodes (c.read t) := by
  obtain ⟨l, n⟩ := t
  cases l with
  | separator => exact failsWith_onSeparator c
  | closeParen => exact failsWith_onCloseParen c
  | _ => exact failsWith_ok _

lemma failsWith_readAll (ts : List Token) :
    FailsWith .grammar conversionCodes (c.readAll ts) := by
  induction ts generalizing c with
  | nil => exact failsWith_ok _
  | cons t ts ih => exact (failsWith_read c t).bind ih

lemma failsWith_finish : FailsWith .grammar conversionCodes c.finish := by
  unfold finish
  split <;> simp [GrammarFault.code, conversionCodes]

end Conversion

theorem failsWith_convert (ts : List Token) : FailsWith .grammar conversionCodes (convert ts) :=
  (Conversion.failsWith_readAll _ ts).bind Conversion.failsWith_finish

/-! ## The machine -/

/-- The codes of an evaluation. -/
def evaluationCodes : List Code :=
  [.divisionByZero, .invalidFactorialOperand, .unknownOperatorOrFunction, .insufficientOperands,
    .tooManyResults, .emptyStatisticalArgumentList, .noUniqueMode, .numberFormat, .unexpectedToken,
    .badArgumentCount]

section Operations

variable (xs : List Float)

lemma failsWith_factorial (x : Float) : FailsWith .evaluation evaluationCodes (factorial x) := by
  unfold factorial
  split <;> simp [EvaluationFault.code, evaluationCodes]

lemma failsWith_oneArgument (f : Builtin) :
    FailsWith .evaluation evaluationCodes (f.oneArgument xs) := by
  unfold Builtin.oneArgument
  split <;> simp [EvaluationFault.code, evaluationCodes]

lemma failsWith_mode : FailsWith .evaluation evaluationCodes (Statistics.mode xs) := by
  unfold Statistics.mode Statistics.noArguments
  split
  · simp [EvaluationFault.code, evaluationCodes]
  dsimp only
  split
  · split <;> simp [EvaluationFault.code, evaluationCodes]
  · simp [EvaluationFault.code, evaluationCodes]

/-- A statistic that has an answer for every list but the empty one. -/
lemma failsWith_unless_empty (name : String) (x : Float) :
    FailsWith .evaluation evaluationCodes
      (if xs.isEmpty then .error (Statistics.noArguments name) else .ok x) := by
  unfold Statistics.noArguments
  split <;> simp [EvaluationFault.code, evaluationCodes]

lemma failsWith_apply (f : Builtin) : FailsWith .evaluation evaluationCodes (f.apply xs) := by
  cases f with
  | mean | variance | standardDeviation => exact failsWith_unless_empty xs _ _
  | median =>
    obtain ⟨x, hmedian⟩ := Statistics.medianOfFloats_eq xs
    rw [Builtin.apply, hmedian]
    exact failsWith_unless_empty xs _ _
  | mode => exact failsWith_mode xs
  | factorial => exact (failsWith_oneArgument xs _).bind failsWith_factorial
  | _ => exact (failsWith_oneArgument xs _).map _

end Operations

namespace Machine

variable (st : Stack)

lemma failsWith_numberValue (text : String) :
    FailsWith .evaluation evaluationCodes (numberValue text) := by
  unfold numberValue
  split <;> simp [EvaluationFault.code, evaluationCodes]

lemma failsWith_constantValue (name : String) :
    FailsWith .evaluation evaluationCodes (constantValue name) := by
  unfold constantValue
  split
  · simp
  split <;> simp [EvaluationFault.code, evaluationCodes]

lemma failsWith_applyOperator (symbol : String) (l r : Float) :
    FailsWith .evaluation evaluationCodes (applyOperator symbol l r) := by
  unfold applyOperator
  split
  case h_4 => split <;> simp [EvaluationFault.code, evaluationCodes]
  all_goals simp [EvaluationFault.code, evaluationCodes]

lemma failsWith_runOperator (symbol : String) :
    FailsWith .evaluation evaluationCodes (runOperator symbol st) := by
  unfold runOperator
  split
  · split
    · simp [EvaluationFault.code, evaluationCodes]
    · exact (failsWith_factorial _).map _
  · split
    · exact (failsWith_applyOperator symbol _ _).map _
    · simp [EvaluationFault.code, evaluationCodes]

lemma failsWith_runFunction (name : String) (arity : Nat) :
    FailsWith .evaluation evaluationCodes (runFunction name arity st) := by
  unfold runFunction
  split
  · simp [EvaluationFault.code, evaluationCodes]
  split
  · simp [EvaluationFault.code, evaluationCodes]
  · exact (failsWith_apply _ _).map _

lemma failsWith_step (t : Token) : FailsWith .evaluation evaluationCodes (step st t) := by
  obtain ⟨l, n⟩ := t
  cases l with
  | number text => exact (failsWith_numberValue text).map _
  | constant name => exact (failsWith_constantValue name).map _
  | operator symbol => exact failsWith_runOperator st symbol
  | function name => exact failsWith_runFunction st name n
  | _ => simp [step, EvaluationFault.code, evaluationCodes]

lemma failsWith_steps (ts : List Token) :
    FailsWith .evaluation evaluationCodes (steps st ts) := by
  induction ts generalizing st with
  | nil => exact failsWith_ok _
  | cons t ts ih => exact (failsWith_step st t).bind ih

lemma failsWith_answer : FailsWith .evaluation evaluationCodes (answer st) := by
  unfold answer
  split <;> simp [EvaluationFault.code, evaluationCodes]

end Machine

theorem failsWith_run (ts : List Token) : FailsWith .evaluation evaluationCodes (run ts) :=
  (Machine.failsWith_steps [] ts).bind Machine.failsWith_answer

/-! ## Codes -/

/-- The codes of the faults before the evaluation. -/
def frontCodes : List Code :=
  [.invalidCharacter, .unbalancedParentheses, .emptyExpression, .malformedSyntax, .divisionByZero]

/-- What is not compiled is not scanned, not arranged or not converted. -/
lemma of_compile_eq_error {expression : String} (h : compile expression = .error fault) :
    tokenize expression = .error fault ∨
      ∃ ts, tokenize expression = .ok ts ∧
        (checkArrangement ts = .error fault ∨ convert ts = .error fault) := by
  rcases of_bind_eq_error h with htokens | ⟨ts, htokens, harrange⟩
  · exact .inl htokens
  · refine .inr ⟨ts, htokens, ?_⟩
    rcases of_bind_eq_error harrange with hcheck | ⟨_, -, hconvert⟩
    · exact .inl hcheck
    · exact .inr hconvert

lemma code_of_compile {expression : String} (h : compile expression = .error fault) :
    fault.code ∈ frontCodes := by
  have hscan : [.invalidCharacter] ⊆ frontCodes := by decide
  have hempty : [.emptyExpression] ⊆ frontCodes := by decide
  have hrules : ruleCodes ⊆ frontCodes := by decide
  have hconversion : conversionCodes ⊆ frontCodes := by decide
  rcases of_compile_eq_error h with h | ⟨ts, -, h | h⟩
  · exact hscan (failsWith_tokenize expression fault h).2
  · rcases eq_or_ne ts [] with rfl | hne
    · exact hempty (failsWith_checkArrangement_nil fault h).2
    · exact hrules (failsWith_checkArrangement hne fault h).2
  · exact hconversion (failsWith_convert ts fault h).2

lemma code_of_isPlausible {expression : String} (h : isPlausible expression = .error fault) :
    fault.code ∈ frontCodes := by
  unfold isPlausible at h
  split at h
  · cases h
  split at h
  · cases h
    simp [frontCodes, Fault.code, InputFault.code]
  · cases h

lemma code_of_checkText {expression : String} (h : checkText expression = .error fault) :
    fault.code ∈ frontCodes := by
  rcases of_bind_eq_error h with htext | ⟨_, _, h⟩
  · exact code_of_isPlausible htext
  split at h
  · cases h
  split at h
  · cases h
    decide
  · cases h
    simp [frontCodes, Fault.code, InputFault.code]

end Calculator
