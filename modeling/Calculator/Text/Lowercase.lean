import Calculator.Text.CaseTable

/-!
# Lower case

Names and quadratics are read without regard to case: they are put into lower case first, by the
rules of Unicode, which do not depend on a language.  All characters but two have a lower-case form
that is one character, most of them themselves.  The capital `İ` becomes an `i` with a combining
dot.  The capital sigma is a final sigma `ς` at the end of a word and `σ` elsewhere, and the end of
a word is told from the characters around it: a cased character stands before it and none after it,
when the characters that case ignores, such as an apostrophe or an accent, are skipped.

On ASCII text the rule is `Char.toLower` on each character (`lowercase_of_ascii`), which is all
that a name in an expression can need.
-/

namespace Calculator.Text

/-- Whether a character lies in one of the ranges. -/
def inRanges (ranges : List (Nat × Nat)) (c : Char) : Bool :=
  ranges.any fun (first, last) => first ≤ c.toNat && c.toNat ≤ last

/-- Whether a character has a case, or is a variant of one that has. -/
def isCased (c : Char) : Bool :=
  inRanges casedRanges c

/-- Whether a character is skipped in the search for the end of a word. -/
def isCaseIgnorable (c : Char) : Bool :=
  inRanges caseIgnorableRanges c

/-- Whether a run lists a character. -/
def CaseRun.lists (run : CaseRun) (c : Char) : Bool :=
  run.first ≤ c.toNat && c.toNat ≤ run.last && (c.toNat - run.first) % run.stride == 0

/-- The lower-case form of a character by itself. -/
def lowerChar (c : Char) : List Char :=
  if c.toNat < 0x80 then [c.toLower]
  else if c = 'İ' then ['i', '\u0307']
  else
    match caseRuns.find? (·.lists c) with
    | some run => [Char.ofNat (run.target + (c.toNat - run.first))]
    | none => [c]

/-- Whether the next character that is not skipped is cased. -/
def meetsCased (cs : List Char) : Bool :=
  ((cs.dropWhile isCaseIgnorable).head?.map isCased).getD false

/-- The lower-case form of a sigma between the characters `before` it, the nearest first, and those
`after` it. -/
def lowerSigma (before after : List Char) : Char :=
  if meetsCased before && !meetsCased after then 'ς' else 'σ'

/-- The lower-case form of the rest of a text, of which the characters `before` have been read, the
last one first. -/
def lowerFrom (before : List Char) : List Char → List Char
  | [] => []
  | c :: cs =>
    (if c = 'Σ' then [lowerSigma before cs] else lowerChar c) ++ lowerFrom (c :: before) cs

/-- A text in lower case. -/
def lowercase (text : String) : String :=
  String.ofList (lowerFrom [] text.toList)

theorem lowerChar_of_ascii {c : Char} (h : c.toNat < 0x80) : lowerChar c = [c.toLower] :=
  if_pos h

theorem lowerFrom_of_ascii {cs : List Char} (h : ∀ c ∈ cs, c.toNat < 0x80) (before : List Char) :
    lowerFrom before cs = cs.map Char.toLower := by
  induction cs generalizing before with
  | nil => rfl
  | cons c cs ih =>
    have head : c.toNat < 0x80 := h c (List.mem_cons_self ..)
    have noSigma : c ≠ 'Σ' := by
      rintro rfl
      exact absurd head (by decide)
    rw [lowerFrom, if_neg noSigma, lowerChar_of_ascii head,
      ih fun d mem => h d (List.mem_cons_of_mem c mem)]
    rfl

/-- On ASCII text lower case is character by character. -/
theorem lowercase_of_ascii {text : String} (h : ∀ c ∈ text.toList, c.toNat < 0x80) :
    lowercase text = String.ofList (text.toList.map Char.toLower) := by
  rw [lowercase, lowerFrom_of_ascii h]

example : lowercase "SQRT" = "sqrt" := by decide
example : lowercase "ΛΌΓΟΣ" = "λόγος" := by decide +kernel
example : lowercase "ΣΑΣ'Α" = "σασ'α" := by decide +kernel

end Calculator.Text
