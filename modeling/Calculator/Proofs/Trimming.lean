import Calculator.Analysis
import Calculator.Proofs.Parentheses
import Mathlib.Data.List.DropRight

/-!
# Blanks at the ends

The meaning of an expression does not depend on the blanks at its ends (`analyze_trimmed`).  The
tokens and the look at the raw text see an expression without any of its blanks; where a fault or a
function quotes it, it is quoted without the blanks at its ends.  So two texts mean the same, and
have the same fault with the same details, if nothing tells them apart but blanks, and these stand
at the ends (`analyze_congr`).
-/

namespace Calculator

namespace Text

variable {c : Char} {cs : List Char}

lemma trimEnd_cons (hc : isBlank c = false) (cs : List Char) :
    trimEnd (c :: cs) = c :: trimEnd cs := by
  rw [trimEnd, List.reverse_cons, dropWhile_append_cons hc, List.reverse_append]
  rfl

lemma trimEnd_trimEnd (cs : List Char) : trimEnd (trimEnd cs) = trimEnd cs := by
  rw [trimEnd, trimEnd, List.reverse_reverse, List.dropWhile_idempotent]

/-- What has been trimmed begins with no blank. -/
lemma dropWhile_trim (cs : List Char) : (trim cs).dropWhile isBlank = trim cs := by
  rw [trim]
  cases hcs : cs.dropWhile isBlank with
  | nil => rfl
  | cons c ds =>
    have hc : isBlank c = false := head?_dropWhile isBlank cs c (by rw [hcs]; rfl)
    rw [trimEnd_cons hc, List.dropWhile_cons_of_neg (by simp [hc])]

lemma trim_trim (cs : List Char) : trim (trim cs) = trim cs := by
  rw [trim, dropWhile_trim]
  exact trimEnd_trimEnd _

@[simp] lemma trimmed_trimmed (text : String) : trimmed (trimmed text) = trimmed text := by
  rw [trimmed, trimmed, String.toList_ofList, trim_trim]

@[simp] lemma withoutBlanks_trimmed (text : String) :
    withoutBlanks (trimmed text).toList = withoutBlanks text.toList := by
  rw [trimmed, String.toList_ofList, withoutBlanks_trim]

/-- Nothing is left of a blank text. -/
lemma trimmed_eq_empty_iff (text : String) : trimmed text = "" ↔ isBlankText text = true := by
  rw [isBlankText_iff, ← withoutBlanks_trimmed]
  constructor
  · intro h
    rw [h]
    rfl
  · intro h
    rw [← String.toList_eq_nil_iff]
    cases hcs : (trimmed text).toList with
    | nil => rfl
    | cons c cs =>
      have htrim : trim text.toList = c :: cs := by rw [← hcs, trimmed, String.toList_ofList]
      have hc : isBlank c = false :=
        head?_dropWhile isBlank (trim text.toList) c (by rw [dropWhile_trim, htrim]; rfl)
      simp [hcs, withoutBlanks, hc] at h

lemma mem_of_mem_trimmed {text : String} (h : c ∈ (trimmed text).toList) : c ∈ text.toList := by
  rw [trimmed, String.toList_ofList, trim, trimEnd, List.mem_reverse] at h
  have hend := List.mem_reverse.mp ((List.dropWhile_suffix isBlank).subset h)
  exact (List.dropWhile_suffix isBlank).subset hend

end Text

/-! ## What is seen of a text -/

/-- A foreign character is no blank. -/
lemma find?_withoutBlanks (cs : List Char) :
    (Text.withoutBlanks cs).find? (fun c => !isExpressionChar c) =
      cs.find? fun c => !isExpressionChar c := by
  rw [Text.withoutBlanks, List.find?_filter]
  congr 1
  funext c
  cases hblank : Text.isBlank c <;> simp [isExpressionChar, hblank]

section Congr

variable {a b : String} (h : Text.withoutBlanks a.toList = Text.withoutBlanks b.toList)
include h

lemma isBlankText_congr : Text.isBlankText a = Text.isBlankText b := by
  rw [Bool.eq_iff_iff, Text.isBlankText_iff, Text.isBlankText_iff, h]

lemma tokenize_congr : tokenize a = tokenize b := by
  rw [tokenize, tokenize, scan_eq, scan_eq, h]

lemma isPlausible_congr : isPlausible a = isPlausible b := by
  have hforeign : a.toList.find? (fun c => !isExpressionChar c) =
      b.toList.find? fun c => !isExpressionChar c := by
    rw [← find?_withoutBlanks, h, find?_withoutBlanks]
  have hpairs : pairsUp 0 a.toList = pairsUp 0 b.toList := by
    rw [← pairsUp_withoutBlanks, h, pairsUp_withoutBlanks]
  rw [isPlausible, isPlausible, isBlankText_congr h, hforeign, hpairs]

/-- Texts that differ in nothing but the blanks at their ends mean the same. -/
lemma analyze_congr (htrimmed : Text.trimmed a = Text.trimmed b) : analyze a = analyze b := by
  have htext : checkText a = checkText b := by
    rw [checkText, checkText, isPlausible_congr h, isBlankText_congr h, htrimmed]
  rw [analyze_eq, analyze_eq, htext, tokenize_congr h, htrimmed]

end Congr

/-- The blanks at its ends change nothing in what an expression means or in why it means nothing. -/
theorem analyze_trimmed (expression : String) :
    analyze (Text.trimmed expression) = analyze expression :=
  analyze_congr (Text.withoutBlanks_trimmed expression) (Text.trimmed_trimmed expression)

end Calculator
