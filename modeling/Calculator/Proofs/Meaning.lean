import Calculator.Analysis
import Calculator.Proofs.Conservation
import Calculator.Proofs.Plausible

/-!
# Values and functions

There are three ways into an expression: it is evaluated, it is asked for its meaning, or it becomes
a formula.  They look at it in a different order, and a formula is made without the look at the raw
text, but they never disagree (`analyze_agrees`).  All three come down to the compiled tokens: what
is compiled has passed the look at the raw text, the conversion keeps the unknown if there is one
(`any_isUnknown_of_convert`), and no run gets past it (`any_isUnknown_of_run`).
-/

namespace Calculator

/-! ## The unknown in a run -/

namespace Machine

variable {st st' : Stack} {t : Token}

lemma not_isUnknown_of_step (h : step st t = .ok st') : t.isUnknown = false := by
  obtain ⟨l, n⟩ := t
  cases l with
  | unknown => cases h
  | _ => rfl

lemma any_isUnknown_of_steps {q : List Token} (h : steps st q = .ok st') :
    q.any Token.isUnknown = false := by
  induction q generalizing st with
  | nil => rfl
  | cons t q ih =>
    obtain ⟨mid, hstep, hrest⟩ := of_bind_eq_ok h
    rw [List.any_cons, not_isUnknown_of_step hstep, ih hrest, Bool.false_or]

end Machine

/-- What has a value holds no unknown. -/
lemma any_isUnknown_of_run {p : List Token} {v : Float} (h : run p = .ok v) :
    p.any Token.isUnknown = false := by
  obtain ⟨st, hsteps, -⟩ := of_bind_eq_ok h
  exact Machine.any_isUnknown_of_steps hsteps

/-! ## Compiled expressions -/

section Compiled

variable {expression : String} {program : List Token} {fault : Fault}

/-- What is compiled is a function if its program holds the unknown, and else has its value. -/
lemma analyze_of_compile (h : compile expression = .ok program) :
    analyze expression =
      if program.any Token.isUnknown then .ok (.functionOfX (Text.trimmed expression))
      else (run program).map .numeric := by
  obtain ⟨tokens, htokenize, harrange⟩ := of_bind_eq_ok h
  obtain ⟨_, -, hconvert⟩ := of_bind_eq_ok harrange
  rw [analyze_eq, bind_of_eq_ok (checkText_of_compile h), bind_of_eq_ok htokenize,
    bind_of_eq_ok harrange, any_isUnknown_of_convert hconvert]
  split
  · rfl
  · cases run program <;> rfl

/-- What is not compiled has one and the same fault for a value and for a meaning. -/
lemma analyze_of_compile_eq_error (h : compile expression = .error fault) :
    ∃ e, analyze expression = .error e ∧ evaluate expression = .error e := by
  cases htext : checkText expression with
  | error e => exact ⟨e, by rw [analyze_eq, htext]; rfl, by rw [evaluate, htext]; rfl⟩
  | ok _ =>
    refine ⟨fault, ?_, by rw [evaluate, htext, h]; rfl⟩
    rw [analyze_eq, htext]
    rcases of_bind_eq_error h with htokenize | ⟨tokens, htokenize, harrange⟩
    · rw [htokenize]
      rfl
    · rw [htokenize]
      simp only [bind, Except.bind, harrange]

end Compiled

/-! ## Agreement -/

section Agreement

variable (expression : String)

lemma evaluate_eq_ok_iff (v : Float) :
    evaluate expression = .ok v ↔ analyze expression = .ok (.numeric v) := by
  cases hcompile : compile expression with
  | error fault =>
    obtain ⟨e, hanalyze, hevaluate⟩ := analyze_of_compile_eq_error hcompile
    simp [hanalyze, hevaluate]
  | ok program =>
    rw [evaluate_of_compile hcompile, analyze_of_compile hcompile]
    constructor
    · intro hrun
      rw [any_isUnknown_of_run hrun, hrun]
      rfl
    · intro hmeaning
      split at hmeaning
      · cases hmeaning
      · obtain ⟨w, hrun, hw⟩ := of_map_eq_ok hmeaning
        cases hw
        exact hrun

lemma analyze_eq_functionOfX_iff (source : String) :
    analyze expression = .ok (.functionOfX source) ↔
      ∃ f, Formula.ofText expression = .ok f ∧ f.program.any Token.isUnknown = true ∧
        f.source = source := by
  cases hcompile : compile expression with
  | error fault =>
    obtain ⟨e, hanalyze, -⟩ := analyze_of_compile_eq_error hcompile
    simp [hanalyze, Formula.ofText, hcompile, bind, Except.bind]
  | ok program =>
    have hformula : Formula.ofText expression = .ok ⟨Text.trimmed expression, program⟩ := by
      rw [Formula.ofText, bind_of_eq_ok hcompile]
      rfl
    rw [analyze_of_compile hcompile, hformula]
    constructor
    · intro hmeaning
      split at hmeaning
      next hunknown =>
        cases hmeaning
        exact ⟨_, rfl, hunknown, rfl⟩
      · obtain ⟨w, -, hw⟩ := of_map_eq_ok hmeaning
        cases hw
    · rintro ⟨f, hf, hunknown, rfl⟩
      cases hf
      rw [if_pos hunknown]

lemma evaluate_of_analyze_eq_error {fault : Fault} (h : analyze expression = .error fault) :
    evaluate expression = .error fault := by
  cases hcompile : compile expression with
  | error _ =>
    obtain ⟨e, hanalyze, hevaluate⟩ := analyze_of_compile_eq_error hcompile
    cases hanalyze.symm.trans h
    exact hevaluate
  | ok program =>
    rw [analyze_of_compile hcompile] at h
    rw [evaluate_of_compile hcompile]
    split at h
    · cases h
    · exact of_map_eq_error h

lemma evaluate_of_functionOfX {source : String}
    (h : analyze expression = .ok (.functionOfX source)) :
    ∃ fault, evaluate expression = .error fault ∧ fault.stage = .evaluation := by
  obtain ⟨f, hf, hunknown, -⟩ := (analyze_eq_functionOfX_iff expression source).mp h
  obtain ⟨program, hcompile, hprogram⟩ := of_bind_eq_ok hf
  cases hprogram
  rw [evaluate_of_compile hcompile]
  cases hrun : run program with
  | ok v => cases hunknown.symm.trans (any_isUnknown_of_run hrun)
  | error fault => exact ⟨fault, rfl, (failsWith_run program fault hrun).1⟩

end Agreement

/-- A text has a value exactly if its meaning is this value, and it means a function exactly if it
is a formula with the unknown in it.  A fault of the meaning is the fault of the value, and a
function has no value for the sake of its evaluation alone. -/
theorem analyze_agrees (expression : String) :
    (∀ v, evaluate expression = .ok v ↔ analyze expression = .ok (.numeric v)) ∧
      (∀ source, analyze expression = .ok (.functionOfX source) ↔
        ∃ f, Formula.ofText expression = .ok f ∧ f.program.any Token.isUnknown = true ∧
          f.source = source) ∧
      (∀ fault, analyze expression = .error fault → evaluate expression = .error fault) ∧
      ∀ source, analyze expression = .ok (.functionOfX source) →
        ∃ fault, evaluate expression = .error fault ∧ fault.stage = .evaluation :=
  ⟨evaluate_eq_ok_iff expression, analyze_eq_functionOfX_iff expression,
    fun _ => evaluate_of_analyze_eq_error expression, fun _ => evaluate_of_functionOfX expression⟩

theorem analyze_agrees_parabola :
    (∃ fault, evaluate " X^2 - 1 " = .error fault ∧ fault.stage = .evaluation) ∧
      evaluate "mode(1, 2)" = .error (.evaluation (.noUniqueMode [1.0, 2.0])) :=
  ⟨(analyze_agrees " X^2 - 1 ").2.2.2 "X^2 - 1" (by decide +kernel),
    (analyze_agrees "mode(1, 2)").2.2.1 _ (by decide +kernel)⟩

end Calculator
