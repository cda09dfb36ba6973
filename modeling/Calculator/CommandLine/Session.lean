import Calculator.CommandLine.Answer

/-!
# Sessions

A session reads expressions from standard input, one a line, and answers each on a line of its own.
Blank lines are passed over, and a line that says `quit` or `exit` ends the session.  A line is
bytes up to a newline, which may come after a carriage return; the last line may lack it.  A line
whose bytes are not UTF-8 stops the session with an error, and what was answered before it stands.

An `Outcome` is what a program call leaves behind.  Lines are independent of each other, so a
session is a recursion over them that adds one answer in front of the rest.
-/

namespace Calculator.CommandLine

/-- What a program call leaves behind: its exit code and what it has printed.  Of the error stream
this is the line about a fault or about input that cannot be read.  Left out are the messages that
are not the calculator's own: how to use the program, and where it was broken off. -/
structure Outcome where
  exit : Nat
  stdout : String
  stderr : String
  deriving DecidableEq, Repr

namespace Outcome

/-- Success, with this text printed. -/
def success (stdout : String) : Outcome := ⟨0, stdout, ""⟩

/-- A failure that is reported in one line. -/
def failure (line : String) : Outcome := ⟨1, "", line ++ "\n"⟩

/-- A call that breaks the rules of the command line.  The explanation that it gets on the error
stream is left out. -/
def usageError : Outcome := ⟨2, "", ""⟩

/-- A call that is broken off because a number has more digits than can be printed.  The report of
it on the error stream is left out. -/
def brokenOff : Outcome := ⟨101, "", ""⟩

/-- The outcome with a line printed before all else. -/
def afterLine (o : Outcome) (line : String) : Outcome :=
  { o with stdout := line ++ "\n" ++ o.stdout }

end Outcome

/-! ## Lines -/

/-- The byte that ends a line. -/
def newline : UInt8 := 0x0a

/-- The byte that may stand before it. -/
def carriageReturn : UInt8 := 0x0d

/-- One more byte before a text that has been cut after each newline. -/
def attachByte (b : UInt8) (pieces : List (List UInt8)) : List (List UInt8) :=
  if b = newline then [b] :: pieces
  else
    match pieces with
    | [] => [[b]]
    | piece :: rest => (b :: piece) :: rest

/-- A text cut after each newline; the last piece may lack one. -/
def cutLines (bytes : List UInt8) : List (List UInt8) :=
  bytes.foldr attachByte []

/-- A text without a byte that it ends in. -/
def dropLast (b : UInt8) (bytes : List UInt8) : List UInt8 :=
  if bytes.getLast? = some b then bytes.dropLast else bytes

/-- A line without its newline and the carriage return before it. -/
def dropLineEnd (line : List UInt8) : List UInt8 :=
  if line.getLast? = some newline then dropLast carriageReturn line.dropLast else line

/-- The text of a line, if its bytes are UTF-8. -/
def decodeLine? (line : List UInt8) : Option String :=
  String.fromUTF8? ⟨(dropLineEnd line).toArray⟩

/-! ## Answers -/

/-- The answer to an expression in a session. -/
def Settings.reply (s : Settings) (expression : String) : Option String :=
  match analyze expression with
  | .ok m => s.meaning m
  | .error fault => some (faultLine fault)

/-- What a line of a session asks for. -/
inductive Entry
  | blank
  | leave
  | expression (text : String)
  deriving DecidableEq, Repr

/-- What a line asks for, without the blanks at its ends. -/
def Entry.ofLine (line : String) : Entry :=
  let text := Text.trimmed line
  if text = "" then .blank
  else if text = "quit" ∨ text = "exit" then .leave
  else .expression text

/-- The message about a line that is not UTF-8. -/
def undecodable : String := "error: stream did not contain valid UTF-8"

/-- A session over the lines of standard input. -/
def session (s : Settings) : List (List UInt8) → Outcome
  | [] => .success ""
  | line :: rest =>
    match (decodeLine? line).map Entry.ofLine with
    | none => .failure undecodable
    | some .blank => session s rest
    | some .leave => .success ""
    | some (.expression text) =>
      match s.reply text with
      | some reply => (session s rest).afterLine reply
      | none => .brokenOff

end Calculator.CommandLine
