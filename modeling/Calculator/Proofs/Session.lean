import Calculator.CommandLine.Call
import Calculator.Proofs.Lines
import Calculator.Proofs.Quotation
import Mathlib.Data.List.ReduceOption

/-!
# Sessions and single calls

A session answers each line as a call with this line as its expression would, whatever the other
lines are (`session_eq_transcript`).  The session hands the line on without the blanks at its ends
and the call hands it on as it is, which makes no difference to the answer (`reply_trimmed`), and an
answer is on one line because the text of a line is (`oneLine_reply`).

A session and a call alike are broken off by a number that has more digits than can be printed, and
by nothing else (`exit_repl_eq_iff`).  Whether it comes to that depends on the settings and on the
expression alone (`reply_eq_none_iff`), and in JSON it never does.
-/

namespace Calculator.CommandLine

variable {s : Settings} {expression line reply : String} {lines : List (Option String)}

/-! ## Answers on one line -/

/-- A newline is written as two other characters. -/
lemma newline_not_mem_jsonChar (c : Char) : '\n' ∉ jsonChar c := by
  have hdigit (n : Nat) : '\n' ≠ n.digitChar := (Nat.digitChar_ne '\n' (by decide)).symm
  unfold jsonChar
  repeat' split
  all_goals simp_all [eq_comm]

/-- A string in JSON is on one line, whatever the text. -/
@[simp] lemma oneLine_jsonString (text : String) : OneLine (jsonString text) := by
  have hmark : OneLine "\"" := by decide
  simp [jsonString, hmark, newline_not_mem_jsonChar]

@[simp] lemma oneLine_jsonNumber (x : Float) : OneLine (jsonNumber x) := by
  unfold jsonNumber
  split
  · simp
  · decide

lemma oneLine_jsonObject {fields : List (String × String)} (h : ∀ f ∈ fields, OneLine f.2) :
    OneLine (jsonObject fields) := by
  have hcomma : OneLine "," := by decide
  have hcolon : OneLine ":" := by decide
  have hopen : OneLine "\x7b" := by decide
  have hclose : OneLine "\x7d" := by decide
  simp only [jsonObject, oneLine_append, hopen, hclose, true_and, and_true]
  refine oneLine_intercalate hcomma (List.forall_mem_map.mpr fun f hf => ?_)
  simp [hcolon, h f hf]

/-- What is said of a meaning is on one line if the source of a function is. -/
lemma oneLine_meaning {m : Meaning} (hm : ∀ source, m = .functionOfX source → OneLine source)
    (h : s.meaning m = some reply) : OneLine reply := by
  have hresult : OneLine "Result: " := by decide
  have hfunction : OneLine "f(x) = " := by decide
  unfold Settings.meaning at h
  split at h
  · cases h
    exact oneLine_jsonObject (by simp)
  · cases h
    exact oneLine_jsonObject (by simp)
  · obtain ⟨number, hnumber, rfl⟩ := Option.map_eq_some_iff.mp h
    unfold Settings.number at hnumber
    split at hnumber
    · cases hnumber
      simp [hresult]
    · cases hnumber
  · cases h
    simp [hfunction, hm _ rfl]

/-- A function is known by the text of the expression. -/
lemma source_of_analyze {source : String} (h : analyze expression = .ok (.functionOfX source)) :
    source = Text.trimmed expression := by
  rw [analyze_eq] at h
  obtain ⟨_, -, h⟩ := of_bind_eq_ok h
  obtain ⟨ts, -, h⟩ := of_bind_eq_ok h
  obtain ⟨program, -, h⟩ := of_bind_eq_ok h
  split at h
  · cases h
    rfl
  · obtain ⟨value, -, h⟩ := of_bind_eq_ok h
    cases h

/-- An expression on one line is answered on one line. -/
lemma oneLine_reply (hline : OneLine expression) (h : s.reply expression = some reply) :
    OneLine reply := by
  unfold Settings.reply at h
  split at h
  next m hm =>
    refine oneLine_meaning (fun source hsource => ?_) h
    rw [source_of_analyze (hm.trans (congrArg _ hsource))]
    exact mt Text.mem_of_mem_trimmed hline
  next fault hfault =>
    have hprefix : OneLine "error: " := by decide
    cases h
    simp [faultLine, hprefix, Fault.oneLine_message (quotable_analyze hline fault hfault)]

/-! ## Answers to an expression -/

/-- What a call shows: its standard output if it succeeds, and its error stream if it fails. -/
def Outcome.shown (o : Outcome) : String :=
  if o.exit = 0 then o.stdout else o.stderr

lemma reply_trimmed (s : Settings) (expression : String) :
    s.reply (Text.trimmed expression) = s.reply expression := by
  rw [Settings.reply, Settings.reply, analyze_trimmed]

/-- A session answers an expression with the line that a call shows for it. -/
lemma shown_eval (h : s.reply expression = some reply) (stdin : List UInt8) :
    (perform s stdin (.eval expression)).shown = reply ++ "\n" := by
  cases hanswer : analyze expression with
  | ok m =>
    have hmeaning : s.meaning m = some reply := by simpa [Settings.reply, hanswer] using h
    simp [perform, outcomeOf, hanswer, hmeaning, Outcome.shown, Outcome.success]
  | error fault =>
    obtain rfl : faultLine fault = reply := by simpa [Settings.reply, hanswer] using h
    simp [perform, outcomeOf, hanswer, Outcome.shown, Outcome.failure]

/-- There is no answer only if it is a number with too many digits. -/
lemma reply_eq_none_iff : s.reply expression = none ↔
    s.format = .text ∧ maxPrecision < s.precision ∧
      ∃ value, analyze expression = .ok (.numeric value) := by
  obtain ⟨precision, format⟩ := s
  cases hanswer : analyze expression with
  | error fault => simp [Settings.reply, hanswer]
  | ok m => cases format <;> cases m <;>
      simp [Settings.reply, hanswer, Settings.meaning, Settings.number]

/-! ## The transcript -/

/-- Whether a line ends the session: it says so, or it is not UTF-8. -/
def endsSession : Option String → Bool
  | none => true
  | some line => Text.trimmed line = "quit" || Text.trimmed line = "exit"

/-- The lines in front of the first one that ends the session. -/
def processed (lines : List (Option String)) : List String :=
  (lines.takeWhile fun line => !endsSession line).reduceOption

/-- Those of them that are not blank. -/
def answered (lines : List (Option String)) : List String :=
  (processed lines).filter fun line => !Text.isBlankText line

/-- What a session over lines comes to: what calls show for those that are answered, one after the
other, and a failure if it ends with a line that is not UTF-8. -/
def transcript (s : Settings) (lines : List (Option String)) : Outcome :=
  let failed := lines.find? endsSession = some none
  { exit := if failed then 1 else 0
    stdout := String.join ((answered lines).map fun line => (perform s [] (.eval line)).shown)
    stderr := if failed then undecodable ++ "\n" else "" }

/-- A blank line is not the end. -/
lemma endsSession_of_isBlankText (h : Text.isBlankText line = true) :
    endsSession (some line) = false := by
  simp [endsSession, (Text.trimmed_eq_empty_iff line).mpr h]

lemma exists_text_of_endsSession {line : Option String} (h : endsSession line = false) :
    ∃ text, line = some text := by
  cases line with
  | none => cases h
  | some text => exact ⟨text, rfl⟩

lemma answered_of_endsSession {line : Option String} (h : endsSession line = true) :
    answered (line :: lines) = [] := by
  rw [answered, processed, List.takeWhile_cons_of_neg (by simp [h]), List.reduceOption_nil]
  rfl

lemma answered_cons (h : endsSession (some line) = false) :
    answered (some line :: lines) =
      if Text.isBlankText line then answered lines else line :: answered lines := by
  rw [answered, processed, List.takeWhile_cons_of_pos (by simp [h]),
    List.reduceOption_cons_of_some, List.filter_cons]
  cases Text.isBlankText line <;> rfl

/-- A line that ends the session is the last that counts. -/
lemma transcript_of_endsSession {line : Option String} (h : endsSession line = true) :
    transcript s (line :: lines) = if line = none then .failure undecodable else .success "" := by
  simp only [transcript, answered_of_endsSession h, List.find?_cons_of_pos h, Option.some.injEq]
  split <;> rfl

lemma transcript_of_isBlankText (h : Text.isBlankText line = true) :
    transcript s (some line :: lines) = transcript s lines := by
  have hend := endsSession_of_isBlankText h
  simp [transcript, answered_cons hend, h, hend]

lemma transcript_cons (hend : endsSession (some line) = false)
    (hblank : Text.isBlankText line = false) (h : s.reply line = some reply) :
    transcript s (some line :: lines) = (transcript s lines).afterLine reply := by
  simp [transcript, answered_cons hend, hblank, hend, shown_eval h, Outcome.afterLine]

/-! ## Sessions -/

section Lines

variable {line : List UInt8} {text : String} {rest lines : List (List UInt8)}

lemma session_of_endsSession (h : endsSession (decodeLine? line) = true) :
    session s (line :: rest) =
      if decodeLine? line = none then .failure undecodable else .success "" := by
  rw [session]
  cases hline : decodeLine? line with
  | none => rfl
  | some text =>
    rw [hline] at h
    have hend : Text.trimmed text = "quit" ∨ Text.trimmed text = "exit" := by
      simpa [endsSession] using h
    have hne : Text.trimmed text ≠ "" := by
      rcases hend with hend | hend <;> simp [hend]
    simp [Entry.ofLine, hne, hend]

/-- A line that does not end the session is passed over or answered, and then come the others. -/
lemma session_cons (hline : decodeLine? line = some text)
    (hend : endsSession (some text) = false) :
    session s (line :: rest) =
      if Text.isBlankText text then session s rest
      else
        match s.reply text with
        | some reply => (session s rest).afterLine reply
        | none => .brokenOff := by
  have hstay : ¬(Text.trimmed text = "quit" ∨ Text.trimmed text = "exit") := by
    simpa [endsSession] using hend
  rw [session, hline]
  by_cases hblank : Text.isBlankText text = true
  · simp [Entry.ofLine, (Text.trimmed_eq_empty_iff text).mpr hblank, hblank]
  · have hne : Text.trimmed text ≠ "" := mt (Text.trimmed_eq_empty_iff text).mp hblank
    cases hreply : s.reply text <;>
      simp [Entry.ofLine, hne, hstay, hblank, reply_trimmed, hreply]

/-- A session in which all that is asked for is answered. -/
lemma session_eq_of_reply (h : ∀ text ∈ answered (lines.map decodeLine?), s.reply text ≠ none) :
    session s lines = transcript s (lines.map decodeLine?) := by
  induction lines with
  | nil => rfl
  | cons line lines ih =>
    rw [List.map_cons] at h ⊢
    cases hend : endsSession (decodeLine? line) with
    | true => rw [session_of_endsSession hend, transcript_of_endsSession hend]
    | false =>
      obtain ⟨text, hline⟩ := exists_text_of_endsSession hend
      rw [hline] at h hend ⊢
      rw [answered_cons hend] at h
      rw [session_cons hline hend]
      cases hblank : Text.isBlankText text with
      | true =>
        rw [hblank] at h
        rw [transcript_of_isBlankText hblank, ← ih h]
        rfl
      | false =>
        rw [hblank] at h
        obtain ⟨htext, hrest⟩ := List.forall_mem_cons.mp h
        obtain ⟨reply, hreply⟩ := Option.ne_none_iff_exists'.mp htext
        rw [transcript_cons hend hblank hreply, ← ih hrest, hreply]
        rfl

/-- One that cannot be answered breaks the session off, whatever comes after it. -/
lemma exit_session_of_reply_eq_none
    (h : ∃ text ∈ answered (lines.map decodeLine?), s.reply text = none) :
    (session s lines).exit = 101 := by
  induction lines with
  | nil =>
    obtain ⟨text, htext, -⟩ := h
    cases htext
  | cons line lines ih =>
    rw [List.map_cons] at h
    cases hend : endsSession (decodeLine? line) with
    | true => simp [answered_of_endsSession hend] at h
    | false =>
      obtain ⟨text, hline⟩ := exists_text_of_endsSession hend
      rw [hline] at h hend
      rw [answered_cons hend] at h
      rw [session_cons hline hend]
      cases hblank : Text.isBlankText text with
      | true =>
        rw [hblank] at h
        exact ih h
      | false =>
        cases hreply : s.reply text with
        | none => rfl
        | some reply => exact ih (by simpa [hblank, hreply] using h)

/-- Nothing after a line that ends the session is looked at. -/
lemma session_append_of_endsSession (h : (lines.map decodeLine?).any endsSession) :
    session s (lines ++ rest) = session s lines := by
  induction lines with
  | nil => cases h
  | cons line lines ih =>
    rw [List.cons_append]
    cases hend : endsSession (decodeLine? line) with
    | true => rw [session_of_endsSession hend, session_of_endsSession hend]
    | false =>
      obtain ⟨text, hline⟩ := exists_text_of_endsSession hend
      have hlater : (lines.map decodeLine?).any endsSession := by simpa [hend] using h
      rw [hline] at hend
      rw [session_cons hline hend, session_cons hline hend, ih hlater]

end Lines

/-- A session is broken off exactly if it gets to a number that has more digits than can be printed.
-/
theorem exit_repl_eq_iff (s : Settings) (bytes : List UInt8) :
    (perform s bytes .repl).exit = 101 ↔
      s.format = .text ∧ maxPrecision < s.precision ∧
        ∃ line ∈ answered (readLines bytes), ∃ value, analyze line = .ok (.numeric value) := by
  rw [← map_decodeLine?_cutLines]
  constructor
  · intro h
    by_contra hnone
    have hreply : ∀ line ∈ answered ((cutLines bytes).map decodeLine?), s.reply line ≠ none := by
      intro line hline hreply
      obtain ⟨hformat, hprecision, hvalue⟩ := reply_eq_none_iff.mp hreply
      exact hnone ⟨hformat, hprecision, line, hline, hvalue⟩
    rw [perform, session_eq_of_reply hreply, transcript] at h
    dsimp only at h
    split at h <;> cases h
  · rintro ⟨hformat, hprecision, line, hline, hvalue⟩
    exact exit_session_of_reply_eq_none
      ⟨line, hline, reply_eq_none_iff.mpr ⟨hformat, hprecision, hvalue⟩⟩

/-- A session answers each of its lines, up to the one that ends it, with a line that a call shows
for its text, whatever the other lines are; it fails if it ends at a line that is not UTF-8; and
what follows the line that ends it has no effect.  Nothing is broken off as long as no number has
more digits than can be printed. -/
theorem session_eq_transcript (s : Settings) (bytes : List UInt8)
    (h : ∀ line ∈ answered (readLines bytes), s.format = .text → maxPrecision < s.precision →
      ∀ value, analyze line ≠ .ok (.numeric value)) :
    perform s bytes .repl = transcript s (readLines bytes) ∧
      (∀ line ∈ answered (readLines bytes), ∃ reply,
        (perform s [] (.eval line)).shown = reply ++ "\n" ∧ OneLine reply) ∧
      ∀ rest, bytes.getLast? = some newline → (readLines bytes).any endsSession →
        perform s (bytes ++ rest) .repl = perform s bytes .repl := by
  have hreply : ∀ line ∈ answered (readLines bytes), s.reply line ≠ none := by
    intro line hline hnone
    obtain ⟨hformat, hprecision, value, hvalue⟩ := reply_eq_none_iff.mp hnone
    exact h line hline hformat hprecision value hvalue
  refine ⟨?_, fun line hline => ?_, fun rest hlast hend => ?_⟩
  · rw [← map_decodeLine?_cutLines] at hreply ⊢
    exact session_eq_of_reply hreply
  · obtain ⟨reply, hsome⟩ := Option.ne_none_iff_exists'.mp (hreply line hline)
    have hread : some line ∈ readLines bytes := by
      have hprocessed := (List.mem_filter.mp hline).1
      exact (List.takeWhile_prefix _).subset (List.reduceOption_mem_iff.mp hprocessed)
    exact ⟨reply, shown_eval hsome [], oneLine_reply (oneLine_of_mem_readLines hread) hsome⟩
  · rw [← map_decodeLine?_cutLines] at hend
    rw [perform, perform, cutLines_append hlast, session_append_of_endsSession hend]

/-- A function, a blank line and a fault are answered although no number could be, and the number
after the line that is not UTF-8 is not reached. -/
theorem session_eq_transcript_undecodable :
    let s : Settings := ⟨65536, .text⟩
    let bytes := " x^2 \r\n\n2*(3\n".toUTF8.toList ++ [0xff, newline]
    let shown := "f(x) = x^2\nerror: InputError\x7bunbalanced_parentheses: " ++
      "unbalanced parentheses in '2*(3'\x7d\n"
    perform s bytes .repl = ⟨1, shown, undecodable ++ "\n"⟩ ∧
      (∀ line ∈ [" x^2 ", "2*(3"], ∃ reply,
        (perform s [] (.eval line)).shown = reply ++ "\n" ∧ OneLine reply) ∧
      perform s (bytes ++ [0x31, newline]) .repl = perform s bytes .repl := by
  intro s bytes shown
  have hlines : answered (readLines bytes) = [" x^2 ", "2*(3"] := by decide +kernel
  have hfunction : analyze " x^2 " = .ok (.functionOfX "x^2") := by decide +kernel
  have hfault : analyze "2*(3" = .error (.input (.unbalanced "2*(3")) := by decide +kernel
  have hvalues : ∀ line ∈ answered (readLines bytes), s.format = .text →
      maxPrecision < s.precision → ∀ value, analyze line ≠ .ok (.numeric value) := by
    rw [hlines]
    simp [hfunction, hfault]
  obtain ⟨hsession, hreplies, hrest⟩ := session_eq_transcript s bytes hvalues
  have htranscript : transcript s (readLines bytes) = ⟨1, shown, undecodable ++ "\n"⟩ := by
    decide +kernel
  have hunread : perform s (bytes ++ [0x31, newline]) .repl = perform s bytes .repl :=
    hrest _ (by decide +kernel) (by decide +kernel)
  exact ⟨hsession.trans htranscript, hlines ▸ hreplies, hunread⟩

/-- A number with too many digits ends the session, though no line says so. -/
theorem session_of_exceeded_precision :
    let s : Settings := ⟨65536, .text⟩
    let lines := readLines [0x31, newline]
    answered lines = ["1"] ∧ lines.find? endsSession = none ∧
      perform s [0x31, newline] .repl = ⟨101, "", ""⟩ := by
  decide +kernel

end Calculator.CommandLine
