import Calculator.Decimal.Fixed
import Calculator.Proofs.Printing

/-!
# Texts on one line

Numbers and the wording of faults are written without a newline, so one could only come into a
message from what it quotes.  A fault quotes pieces of the expression (`Fault.quotes`), and is
worded on one line if each of them is on one line (`Fault.oneLine_message`).
-/

namespace Calculator

/-- A text without a newline. -/
def OneLine (text : String) : Prop := '\n' ∉ text.toList

instance (text : String) : Decidable (OneLine text) := inferInstanceAs (Decidable (_ ∉ _))

@[simp] lemma oneLine_append {a b : String} : OneLine (a ++ b) ↔ OneLine a ∧ OneLine b := by
  simp [OneLine]

@[simp] lemma oneLine_ofList {cs : List Char} : OneLine (String.ofList cs) ↔ '\n' ∉ cs := by
  simp [OneLine]

@[simp] lemma oneLine_quoted {text : String} : OneLine (quoted text) ↔ OneLine text := by
  have hmark : OneLine "'" := by decide
  simp [quoted, hmark]

/-- A newline is blank. -/
lemma oneLine_of_not_isBlank {text : String} (h : ∀ c ∈ text.toList, Text.isBlank c = false) :
    OneLine text := by
  intro hmem
  cases h _ hmem

lemma oneLine_intercalate {sep : String} (hsep : OneLine sep) {texts : List String}
    (h : ∀ text ∈ texts, OneLine text) : OneLine (String.intercalate sep texts) := by
  induction texts with
  | nil => exact List.not_mem_nil
  | cons text texts ih =>
    obtain ⟨htext, htexts⟩ := List.forall_mem_cons.mp h
    cases texts with
    | nil => simpa using htext
    | cons next texts =>
      rw [String.intercalate_cons_cons]
      simp [htext, hsep, ih htexts]

/-! ## Numbers -/

namespace Decimal

lemma newline_not_mem_numerals (n : Nat) : '\n' ∉ numerals n := by
  intro h
  cases isDigit_of_mem_numerals h

lemma newline_not_mem_pointed (places : Nat) {ds : List Char} (h : '\n' ∉ ds) :
    '\n' ∉ pointed places ds := by
  cases places with
  | zero => exact h
  | succ places =>
    have hpadded : '\n' ∉ List.replicate (places + 2 - ds.length) '0' ++ ds := by simp [h]
    simp only [pointed, List.mem_append, List.mem_cons, not_or]
    exact ⟨mt List.mem_of_mem_take hpadded, by decide, mt List.mem_of_mem_drop hpadded⟩

lemma newline_not_mem_signed (negative : Bool) {text : List Char} (h : '\n' ∉ text) :
    '\n' ∉ signed negative text := by
  unfold signed
  split <;> simp [h]

lemma newline_not_mem_positional (l : Layout) {ds : List Char} (h : '\n' ∉ ds) (exponent : Int) :
    '\n' ∉ l.positional ds exponent := by
  cases exponent with
  | ofNat zeros =>
    rw [Layout.positional]
    split <;> simp [h]
  | negSucc places => exact newline_not_mem_pointed (places + 1) h

lemma newline_not_mem_scientific (l : Layout) {ds : List Char} (h : '\n' ∉ ds) (lead : Int) :
    '\n' ∉ l.scientific ds lead := by
  simp only [Layout.scientific, List.mem_append, List.mem_cons, not_or]
  refine ⟨?mantissa, by decide, ?power⟩
  case mantissa => split <;> simp_all
  case power =>
    split
    · split <;> simp [newline_not_mem_numerals]
    · simp [newline_not_mem_numerals]

lemma newline_not_mem_magnitude (l : Layout) (mantissa : Nat) (exponent : Int) :
    '\n' ∉ l.magnitude mantissa exponent := by
  unfold Layout.magnitude
  split
  · exact newline_not_mem_positional l (by decide) 0
  · rw [Layout.decimal]
    split
    · exact newline_not_mem_scientific l (newline_not_mem_numerals _) _
    · exact newline_not_mem_positional l (newline_not_mem_numerals _) _

lemma newline_not_mem_exact (l : Layout) (value : Binary64.Exact) : '\n' ∉ l.exact value := by
  cases value with
  | nan => simp [Layout.exact]
  | infinite negative => exact newline_not_mem_signed negative (by decide)
  | finite negative mantissa exponent =>
    exact newline_not_mem_signed negative (newline_not_mem_magnitude l mantissa exponent)

/-- A number is written on one line, whatever the layout. -/
@[simp] lemma oneLine_write (l : Layout) (x : Float) : OneLine (l.write x) :=
  oneLine_ofList.mpr (newline_not_mem_exact l _)

@[simp] lemma oneLine_fixed (places : Nat) (x : Float) : OneLine (fixed places x) := by
  unfold fixed
  split
  · exact oneLine_ofList.mpr
      (newline_not_mem_signed _ (newline_not_mem_pointed places (newline_not_mem_numerals _)))
  · exact oneLine_ofList.mpr (newline_not_mem_exact _ _)

@[simp] lemma oneLine_message (reason : Misread) : OneLine reason.message := by
  cases reason <;> decide

end Decimal

@[simp] lemma oneLine_repr (n : Nat) : OneLine n.repr :=
  oneLine_ofList.mpr (Decimal.newline_not_mem_numerals n)

/-! ## Faults -/

/-- The pieces of an expression that a fault of the input quotes. -/
def InputFault.quotes : InputFault → List String
  | .empty => []
  | .foreignCharacter c | .notInQuadratic c => [String.singleton c]
  | .unbalanced text | .notATerm text | .badCoefficient text _ => [text]

/-- The stretch that belongs to no lexeme. -/
def LexicalFault.quotes : LexicalFault → List String
  | .unrecognized stretch | .unrecognizedAtEnd stretch => [stretch]

/-- The tokens that a fault of arrangement is about. -/
def GrammarFault.quotes : GrammarFault → List String
  | .bareFunction text | .leadingOperator text | .trailingOperator text | .operatorBeforeClose text
  | .operatorAfterOpen text | .literalZeroDivisor text => [text]
  | .missingOperator first second | .consecutiveOperators first second => [first, second]
  | .empty | .misplacedSeparator | .misplacedFactorial | .emptyParentheses | .leadingClose
  | .separatorOutsideCall | .unmatchedClose | .unmatchedOpen => []

/-- The tokens that a fault of evaluation names. -/
def EvaluationFault.quotes : EvaluationFault → List String
  | .missingOperand text | .needsTwoOperands text | .tooFewArguments text _ _ | .badNumber text _
  | .unknownConstant text | .unknownOperator text | .unknownFunction text | .notEvaluable text
  | .notOneArgument text _ | .noArguments text => [text]
  | .divisionByZero .. | .undefinedFactorial _ | .noValue | .surplusValues _
  | .noUniqueMode _ => []

/-- The pieces of an expression that a fault quotes. -/
def Fault.quotes : Fault → List String
  | .input cause => cause.quotes
  | .lexical cause => cause.quotes
  | .grammar cause => cause.quotes
  | .evaluation cause => cause.quotes

lemma oneLine_listing (values : List Float) : OneLine (listing values) := by
  have hopen : OneLine "[" := by decide
  have hclose : OneLine "]" := by decide
  have hcomma : OneLine ", " := by decide
  have hvalues : ∀ text ∈ values.map Decimal.Layout.full.write, OneLine text := by simp
  simp [listing, hopen, hclose, oneLine_intercalate hcomma hvalues]

lemma InputFault.oneLine_details {cause : InputFault} (h : ∀ text ∈ cause.quotes, OneLine text) :
    OneLine cause.details := by
  unfold details
  cases cause <;> simp_all +decide [quotes]

lemma LexicalFault.oneLine_details {cause : LexicalFault}
    (h : ∀ text ∈ cause.quotes, OneLine text) : OneLine cause.details := by
  unfold details
  cases cause <;> simp_all +decide [quotes]

lemma GrammarFault.oneLine_details {cause : GrammarFault}
    (h : ∀ text ∈ cause.quotes, OneLine text) : OneLine cause.details := by
  unfold details
  cases cause <;> simp_all +decide [quotes]

lemma EvaluationFault.oneLine_details {cause : EvaluationFault}
    (h : ∀ text ∈ cause.quotes, OneLine text) : OneLine cause.details := by
  unfold details
  cases cause <;> simp_all +decide [quotes, oneLine_listing]

lemma Stage.oneLine_heading (stage : Stage) : OneLine stage.heading := by
  cases stage <;> decide

lemma Code.oneLine_name (code : Code) : OneLine code.name := by
  cases code <;> decide

/-- A fault is worded on one line if what it quotes is on one. -/
lemma Fault.oneLine_message {fault : Fault} (h : ∀ text ∈ fault.quotes, OneLine text) :
    OneLine fault.message := by
  have hdetails : OneLine fault.details := by
    cases fault with
    | input => exact InputFault.oneLine_details h
    | lexical => exact LexicalFault.oneLine_details h
    | grammar => exact GrammarFault.oneLine_details h
    | evaluation => exact EvaluationFault.oneLine_details h
  have hopen : OneLine "\x7b" := by decide
  have hclose : OneLine "\x7d" := by decide
  have hcolon : OneLine ": " := by decide
  simp [message, report, Report.text, Stage.oneLine_heading, Code.oneLine_name, hopen, hclose,
    hcolon, hdetails]

end Calculator
