import Calculator.Proofs.Conservation
import Calculator.Proofs.OneLine
import Calculator.Proofs.Trimming

/-!
# What a fault quotes

Every stage quotes what it has been given: the scan a stretch of characters, the arrangement one or
two neighbouring tokens, the machine the token that it cannot run or the name of a function.  If all
of these are on one line, then so is whatever is quoted (`Quotable`).  Lexemes hold no blanks and
writing out signs puts in nothing but parentheses and zeros, so no token breaks a line, whatever the
expression (`oneLine_of_tokenize`).  Only the look at the raw text quotes the expression as it is,
and then without the blanks at its ends (`quotable_analyze`).
-/

namespace Calculator

variable {t : Token} {ts : List Token}

/-- A fault that quotes nothing with a newline in it. -/
def Quotable (fault : Fault) : Prop := ∀ text ∈ fault.quotes, OneLine text

@[simp] lemma quotable_grammar {cause : GrammarFault} :
    Quotable (.grammar cause) ↔ ∀ text ∈ cause.quotes, OneLine text := Iff.rfl

@[simp] lemma quotable_evaluation {cause : EvaluationFault} :
    Quotable (.evaluation cause) ↔ ∀ text ∈ cause.quotes, OneLine text := Iff.rfl

/-! ## The arrangement -/

section Arrangement

variable {prev next : Option Token}

lemma quotable_requireNoOperand (ht : OneLine t.text) (hnext : ∀ a ∈ next, OneLine a.text) :
    Fails Quotable (requireNoOperand t next) := by
  unfold requireNoOperand missingOperator
  split
  · split <;> simp_all [GrammarFault.quotes]
  · simp

lemma quotable_checkFactorial (ht : OneLine t.text) (hnext : ∀ a ∈ next, OneLine a.text) :
    Fails Quotable (checkFactorial prev t next) := by
  unfold checkFactorial
  split
  · exact quotable_requireNoOperand ht hnext
  · simp [GrammarFault.quotes]

lemma quotable_checkSecondOperand {b : Token} (ht : OneLine t.text) (hb : OneLine b.text) :
    Fails Quotable (checkSecondOperand prev t b) := by
  unfold checkSecondOperand
  split
  · simp [GrammarFault.quotes, ht, hb]
  split
  · simp [GrammarFault.quotes, ht]
  split
  · simp [GrammarFault.quotes, ht]
  split
  next text hnumber =>
    have htext : OneLine text := by simpa [Token.text, hnumber, Lexeme.text] using hb
    split <;> simp [GrammarFault.quotes, htext]
  · simp

lemma quotable_checkOperator (ht : OneLine t.text) (hnext : ∀ a ∈ next, OneLine a.text) :
    Fails Quotable (checkOperator prev t next) := by
  unfold checkOperator
  split
  · exact quotable_checkFactorial ht hnext
  split
  · simp [GrammarFault.quotes, ht]
  split
  · simp [GrammarFault.quotes, ht]
  · exact quotable_checkSecondOperand ht (hnext _ rfl)

lemma quotable_checkOpenParen (hprev : ∀ a ∈ prev, OneLine a.text) (ht : OneLine t.text) :
    Fails Quotable (checkOpenParen prev t next) := by
  unfold checkOpenParen missingOperator
  split
  · simp [GrammarFault.quotes]
  split
  · split <;> simp_all [GrammarFault.quotes]
  · simp

lemma quotable_checkCloseParen (ht : OneLine t.text) (hnext : ∀ a ∈ next, OneLine a.text) :
    Fails Quotable (checkCloseParen prev t next) := by
  unfold checkCloseParen
  split
  · simp [GrammarFault.quotes]
  · exact quotable_requireNoOperand ht hnext

/-- A rule quotes no more than the token and its two neighbours. -/
lemma quotable_checkToken (hprev : ∀ a ∈ prev, OneLine a.text) (ht : OneLine t.text)
    (hnext : ∀ a ∈ next, OneLine a.text) : Fails Quotable (checkToken prev t next) := by
  obtain ⟨l, n⟩ := t
  cases l with
  | operator symbol => exact quotable_checkOperator ht hnext
  | openParen => exact quotable_checkOpenParen hprev ht
  | closeParen => exact quotable_checkCloseParen ht hnext
  | number text | constant name | unknown => exact quotable_requireNoOperand ht hnext
  | function name =>
    have hname : OneLine name := ht
    simp only [checkToken, checkFunction]
    split <;> simp [GrammarFault.quotes, hname]
  | separator =>
    simp only [checkToken, checkSeparator]
    split <;> simp [GrammarFault.quotes]

lemma quotable_checkFrom (hprev : ∀ a ∈ prev, OneLine a.text) (hts : ∀ a ∈ ts, OneLine a.text) :
    Fails Quotable (checkFrom prev ts) := by
  induction ts generalizing prev with
  | nil => exact fails_ok _
  | cons t ts ih =>
    obtain ⟨ht, hrest⟩ := List.forall_mem_cons.mp hts
    have hnext : ∀ a ∈ ts.head?, OneLine a.text := fun a ha => hrest a (List.mem_of_mem_head? ha)
    refine (quotable_checkToken hprev ht hnext).bind fun _ _ => ih ?_ hrest
    simpa using ht

lemma quotable_checkArrangement (hts : ∀ a ∈ ts, OneLine a.text) :
    Fails Quotable (checkArrangement ts) := by
  unfold checkArrangement
  split
  · simp [GrammarFault.quotes]
  · exact quotable_checkFrom (by simp) hts

end Arrangement

/-! ## The conversion -/

namespace Conversion

/-- The conversion quotes nothing. -/
lemma quotable_read (c : Conversion) (t : Token) : Fails Quotable (c.read t) := by
  obtain ⟨l, n⟩ := t
  cases l with
  | separator =>
    simp only [read, onSeparator]
    split
    · split <;> simp [GrammarFault.quotes]
    · simp [GrammarFault.quotes]
  | closeParen =>
    simp only [read, onCloseParen]
    split <;> simp [GrammarFault.quotes]
  | _ => exact fails_ok _

lemma quotable_readAll (c : Conversion) (ts : List Token) : Fails Quotable (c.readAll ts) := by
  induction ts generalizing c with
  | nil => exact fails_ok _
  | cons t ts ih => exact (quotable_read c t).bind fun d _ => ih d

end Conversion

lemma quotable_convert (ts : List Token) : Fails Quotable (convert ts) := by
  refine (Conversion.quotable_readAll _ ts).bind fun c _ => ?_
  unfold Conversion.finish
  split <;> simp [GrammarFault.quotes]

/-! ## The machine -/

lemma oneLine_name (f : Builtin) : OneLine f.name := by
  cases f <;> decide

lemma quotable_factorial (x : Float) : Fails Quotable (factorial x) := by
  unfold factorial
  split <;> simp [EvaluationFault.quotes]

/-- A function names itself. -/
lemma quotable_apply (f : Builtin) (xs : List Float) : Fails Quotable (f.apply xs) := by
  have hone : Fails Quotable (f.oneArgument xs) := by
    unfold Builtin.oneArgument
    split <;> simp [EvaluationFault.quotes, oneLine_name]
  have hempty (name : String) (hname : OneLine name) (x : Float) :
      Fails Quotable (if xs.isEmpty then .error (Statistics.noArguments name) else .ok x) := by
    unfold Statistics.noArguments
    split <;> simp [EvaluationFault.quotes, hname]
  cases f with
  | mean | variance | standardDeviation => exact hempty _ (by decide) _
  | median =>
    obtain ⟨x, hmedian⟩ := Statistics.medianOfFloats_eq xs
    rw [Builtin.apply, hmedian]
    exact hempty _ (by decide) _
  | mode =>
    simp only [Builtin.apply, Statistics.mode, Statistics.noArguments]
    split
    · simp +decide
    split
    · split <;> simp [EvaluationFault.quotes]
    · simp [EvaluationFault.quotes]
  | factorial => exact hone.bind fun x _ => quotable_factorial x
  | _ => exact hone.map _

namespace Machine

lemma quotable_runOperator {symbol : String} (h : OneLine symbol) (st : Stack) :
    Fails Quotable (runOperator symbol st) := by
  have happly (l r : Float) : Fails Quotable (applyOperator symbol l r) := by
    unfold applyOperator
    repeat' split
    all_goals simp [EvaluationFault.quotes, h]
  unfold runOperator
  split
  · split
    · simp [EvaluationFault.quotes, h]
    · exact (quotable_factorial _).map _
  · split
    · exact (happly _ _).map _
    · simp [EvaluationFault.quotes, h]

lemma quotable_runFunction {name : String} (h : OneLine name) (arity : Nat) (st : Stack) :
    Fails Quotable (runFunction name arity st) := by
  unfold runFunction
  split
  · simp [EvaluationFault.quotes, h]
  split
  · simp [EvaluationFault.quotes, h]
  · exact (quotable_apply _ _).map _

/-- A step quotes its token. -/
lemma quotable_step (st : Stack) (h : OneLine t.text) : Fails Quotable (step st t) := by
  obtain ⟨l, n⟩ := t
  have hl : OneLine l.text := h
  cases l with
  | number text =>
    refine Fails.map ?_ _
    unfold numberValue
    split <;> simp_all [EvaluationFault.quotes, Lexeme.text]
  | constant name =>
    refine Fails.map ?_ _
    unfold constantValue
    repeat' split
    all_goals simp_all [EvaluationFault.quotes, Lexeme.text]
  | operator symbol => exact quotable_runOperator hl st
  | function name => exact quotable_runFunction hl n st
  | _ => simpa [step, EvaluationFault.quotes] using h

lemma quotable_steps (st : Stack) (h : ∀ a ∈ ts, OneLine a.text) :
    Fails Quotable (steps st ts) := by
  induction ts generalizing st with
  | nil => exact fails_ok _
  | cons t ts ih =>
    obtain ⟨ht, hrest⟩ := List.forall_mem_cons.mp h
    exact (quotable_step st ht).bind fun st' _ => ih st' hrest

end Machine

lemma quotable_run (h : ∀ a ∈ ts, OneLine a.text) : Fails Quotable (run ts) := by
  refine (Machine.quotable_steps [] h).bind fun st _ => ?_
  unfold Machine.answer
  split <;> simp [EvaluationFault.quotes]

/-! ## Tokens -/

/-- A stretch that belongs to no lexeme is taken from a text without blanks. -/
lemma quotable_lexemes {cs : List Char} (h : ∀ c ∈ cs, Text.isBlank c = false) :
    Fails Quotable (lexemes cs) := by
  induction cs using lexemes.induct with
  | case1 cs l rest hnext hlt ih =>
    obtain ⟨piece, rfl, -⟩ := Lexeme.spells_of_next? hnext
    rw [lexemes_of_some hnext]
    exact (ih fun c hc => h c (List.mem_append_right _ hc)).map _
  | case2 cs hnext hempty =>
    rw [lexemes_of_none hnext, if_pos hempty]
    exact fails_ok []
  | case3 cs hnext hempty =>
    rw [lexemes_of_none hnext, if_neg hempty, fails_error]
    have hstretch : OneLine (String.ofList (cs.takeWhile fun c => !Lexeme.begins c)) := by
      refine oneLine_of_not_isBlank fun c hc => ?_
      rw [String.toList_ofList] at hc
      exact h c ((List.takeWhile_prefix _).subset hc)
    unfold Lexeme.stretchFault
    split <;> simpa [Quotable, Fault.quotes, LexicalFault.quotes] using hstretch

lemma quotable_tokenize (expression : String) : Fails Quotable (tokenize expression) := by
  rw [tokenize, scan_eq]
  exact ((quotable_lexemes fun _ => Text.not_isBlank_of_mem_withoutBlanks).map _).map _

/-- No token breaks a line, whatever the expression. -/
lemma oneLine_of_tokenize {expression : String} (h : tokenize expression = .ok ts) :
    ∀ a ∈ ts, OneLine a.text := by
  obtain ⟨scanned, hscan, rfl⟩ := of_map_eq_ok h
  intro a ha
  have hspells := (asRead_groupSigns (asRead_of_scan hscan).1 a ha).2
  exact oneLine_of_not_isBlank hspells.not_isBlank

/-- The conversion puts no token in. -/
lemma oneLine_of_convert {program : List Token} (h : convert ts = .ok program)
    (hts : ∀ a ∈ ts, OneLine a.text) : ∀ a ∈ program, OneLine a.text := by
  intro a ha
  have hmem : a.lexeme ∈ content ts := (perm_of_convert h).mem_iff.mp (List.mem_map_of_mem ha)
  obtain ⟨b, hb, hsame⟩ := List.mem_map.mp (List.mem_filter.mp hmem).1
  rw [Token.text, ← hsame]
  exact hts b hb

/-! ## Expressions -/

section Expression

variable {expression : String} (h : OneLine expression)
include h

/-- The look at the raw text quotes a character of no expression, or all of the text. -/
lemma quotable_checkText : Fails Quotable (checkText expression) := by
  have hforeign : Fails Quotable (isPlausible expression) := by
    unfold isPlausible
    split
    · exact fails_ok _
    split
    next c hc =>
      have hmem := List.mem_of_find?_eq_some hc
      have hne : c ≠ '\n' := fun heq => h (heq ▸ hmem)
      simpa [Quotable, Fault.quotes, InputFault.quotes, OneLine] using hne.symm
    · exact fails_ok _
  refine hforeign.bind fun possible _ => ?_
  repeat' split
  · exact fails_ok _
  · simp [Quotable, Fault.quotes, InputFault.quotes]
  · have htrimmed : OneLine (Text.trimmed expression) := mt Text.mem_of_mem_trimmed h
    simpa [Quotable, Fault.quotes, InputFault.quotes] using htrimmed

/-- An expression on one line has no fault that quotes a newline. -/
theorem quotable_analyze : Fails Quotable (analyze expression) := by
  rw [analyze_eq]
  refine (quotable_checkText h).bind fun _ _ => ?_
  refine (quotable_tokenize expression).bind fun ts hts => ?_
  have htexts := oneLine_of_tokenize hts
  refine ((quotable_checkArrangement htexts).bind fun _ _ => quotable_convert ts).bind ?_
  intro program harrange
  obtain ⟨_, -, hconvert⟩ := of_bind_eq_ok harrange
  split
  · exact fails_ok _
  · exact (quotable_run (oneLine_of_convert hconvert htexts)).map _

end Expression

end Calculator
