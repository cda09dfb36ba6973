/-!
# Blank characters

An expression may be spread out with white space anywhere, also inside a number or a name: the
scanner removes all of it before it looks for lexemes.  Blank are exactly the twenty-five
characters with the Unicode property `White_Space`, among them the tab, the line breaks, the
no-break space and the ideographic space; the zero-width space is not one of them.

The module holds the class (`isBlank`), the text without its blanks (`withoutBlanks`) and the text
without the blanks at its two ends (`trim`, and `trimmed` for strings).  The small lemmas say that
removing blanks twice is removing them once, that what trimming takes away is blank
(`withoutBlanks_trim`), and that a text has nothing but blanks exactly if nothing is left of it
(`isBlankText_iff`).
-/

namespace Calculator.Text

/-- The characters with the Unicode property `White_Space`. -/
def isBlank (c : Char) : Bool :=
  let n := c.toNat
  (0x09 ≤ n && n ≤ 0x0D) || n == 0x20 || n == 0x85 || n == 0xA0 || n == 0x1680 ||
    (0x2000 ≤ n && n ≤ 0x200A) || n == 0x2028 || n == 0x2029 || n == 0x202F || n == 0x205F ||
    n == 0x3000

/-- The characters of a text that are not blank, in order. -/
def withoutBlanks (cs : List Char) : List Char :=
  cs.filter fun c => !isBlank c

/-- A text without the blanks that it ends in. -/
def trimEnd (cs : List Char) : List Char :=
  (cs.reverse.dropWhile isBlank).reverse

/-- A text without the blanks at its two ends. -/
def trim (cs : List Char) : List Char :=
  trimEnd (cs.dropWhile isBlank)

/-- A text without the blanks at its two ends, as a string. -/
def trimmed (text : String) : String :=
  String.ofList (trim text.toList)

/-- Whether a text has nothing but blanks in it. -/
def isBlankText (text : String) : Bool :=
  text.toList.all isBlank

/-- Blank is all that is white space among the ASCII characters that `Char.isWhitespace` knows. -/
theorem isBlank_of_isWhitespace {c : Char} (h : c.isWhitespace = true) : isBlank c = true := by
  simp only [Char.isWhitespace, Bool.or_eq_true, decide_eq_true_eq] at h
  rcases h with ((rfl | rfl) | rfl) | rfl <;> decide

theorem not_isBlank_of_mem_withoutBlanks {c : Char} {cs : List Char}
    (h : c ∈ withoutBlanks cs) : isBlank c = false := by
  simpa using (List.mem_filter.mp h).2

theorem withoutBlanks_append (cs ds : List Char) :
    withoutBlanks (cs ++ ds) = withoutBlanks cs ++ withoutBlanks ds :=
  List.filter_append ..

theorem withoutBlanks_withoutBlanks (cs : List Char) :
    withoutBlanks (withoutBlanks cs) = withoutBlanks cs := by
  simp [withoutBlanks]

/-- Blanks in front of a text do not change what is left of it without blanks. -/
theorem withoutBlanks_dropWhile (cs : List Char) :
    withoutBlanks (cs.dropWhile isBlank) = withoutBlanks cs := by
  induction cs with
  | nil => rfl
  | cons c cs ih =>
    by_cases h : isBlank c = true
    · rw [List.dropWhile_cons_of_pos h, ih]
      simp [withoutBlanks, h]
    · rw [List.dropWhile_cons_of_neg h]

theorem withoutBlanks_reverse (cs : List Char) :
    withoutBlanks cs.reverse = (withoutBlanks cs).reverse :=
  List.filter_reverse ..

/-- Trimming takes away nothing but blanks. -/
theorem withoutBlanks_trim (cs : List Char) : withoutBlanks (trim cs) = withoutBlanks cs := by
  rw [trim, trimEnd, withoutBlanks_reverse, withoutBlanks_dropWhile, withoutBlanks_reverse,
    List.reverse_reverse, withoutBlanks_dropWhile]

/-- A text is blank exactly if trimming leaves nothing of it. -/
theorem isBlankText_iff (text : String) :
    isBlankText text = true ↔ withoutBlanks text.toList = [] := by
  simp [isBlankText, withoutBlanks]

end Calculator.Text
