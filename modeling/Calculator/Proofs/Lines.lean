import Calculator.CommandLine.Session
import Calculator.Proofs.OneLine

/-!
# Lines of standard input

A session takes its lines from bytes, which it cuts after each newline and then decodes one by one.
What it gets in this way is what stands between the newlines (`map_decodeLine?_cutLines`), so the
text of a line has no newline in it (`oneLine_of_mem_readLines`), and lines that end in a newline
are cut in the same way whatever follows them (`cutLines_append`).
-/

namespace Calculator.CommandLine

/-- The lines of a text: what stands between its newlines, without a carriage return in front of a
newline.  What follows the last newline is a line if there is anything. -/
def linesOf (bytes : List UInt8) : List (List UInt8) :=
  let pieces := bytes.splitOn newline
  pieces.dropLast.map (dropLast carriageReturn) ++ pieces.getLast?.toList.filter (!·.isEmpty)

/-- The texts of the lines, as far as their bytes are UTF-8. -/
def readLines (bytes : List UInt8) : List (Option String) :=
  (linesOf bytes).map fun line => String.fromUTF8? ⟨line.toArray⟩

variable {bytes piece : List UInt8}

/-! ## Cutting -/

/-- There are as many pieces as newlines, and one more. -/
lemma cutLines_eq (bytes : List UInt8) :
    cutLines bytes = (bytes.splitOn newline).dropLast.map (· ++ [newline]) ++
      (bytes.splitOn newline).getLast?.toList.filter (!·.isEmpty) := by
  induction bytes with
  | nil => rfl
  | cons b bytes ih =>
    obtain ⟨piece, pieces, hpieces⟩ :=
      List.exists_cons_of_ne_nil (List.splitOn_ne_nil newline bytes)
    rw [cutLines, List.foldr_cons, ← cutLines, ih, List.splitOn_cons_eq_if_modifyHead, hpieces]
    by_cases hb : b = newline
    · simp [attachByte, hb]
    · cases pieces with
      | nil => cases piece <;> simp [attachByte, hb]
      | cons => simp [attachByte, hb]

/-- What follows a newline begins a line. -/
lemma cutLines_append (h : bytes.getLast? = some newline) (rest : List UInt8) :
    cutLines (bytes ++ rest) = cutLines bytes ++ cutLines rest := by
  obtain ⟨front, rfl⟩ := List.getLast?_eq_some_iff.mp h
  have hne := List.splitOn_ne_nil newline rest
  have hlast := List.getLast?_eq_some_getLast hne
  rw [List.append_assoc, List.singleton_append, cutLines_eq, cutLines_eq, cutLines_eq]
  simp [List.splitOn_append_cons_self, List.dropLast_append_of_ne_nil hne, hlast]

lemma newline_not_mem_of_mem_splitOn (h : piece ∈ bytes.splitOn newline) : newline ∉ piece := by
  induction bytes generalizing piece with
  | nil =>
    obtain rfl : piece = [] := by simpa using h
    exact List.not_mem_nil
  | cons b bytes ih =>
    obtain ⟨front, pieces, hpieces⟩ :=
      List.exists_cons_of_ne_nil (List.splitOn_ne_nil newline bytes)
    rw [hpieces] at ih
    rw [List.splitOn_cons_eq_if_modifyHead, hpieces] at h
    by_cases hb : b = newline
    · rw [if_pos (by simpa using hb)] at h
      rcases List.mem_cons.mp h with rfl | h
      · exact List.not_mem_nil
      · exact ih h
    · rw [if_neg (by simpa using hb), List.modifyHead_cons] at h
      rcases List.mem_cons.mp h with rfl | h
      · exact List.not_mem_cons_of_ne_of_not_mem (Ne.symm hb) (ih (List.mem_cons_self ..))
      · exact ih (List.mem_cons_of_mem _ h)

lemma dropLineEnd_append (piece : List UInt8) :
    dropLineEnd (piece ++ [newline]) = dropLast carriageReturn piece := by
  simp [dropLineEnd]

lemma dropLineEnd_of_not_mem (h : newline ∉ piece) : dropLineEnd piece = piece :=
  if_neg fun hlast => h (List.mem_of_getLast? hlast)

lemma map_dropLineEnd_cutLines (bytes : List UInt8) :
    (cutLines bytes).map dropLineEnd = linesOf bytes := by
  rw [cutLines_eq, linesOf, List.map_append, List.map_map]
  congr 1
  · exact List.map_congr_left fun piece _ => dropLineEnd_append piece
  · refine (List.map_congr_left fun piece h => ?_).trans (List.map_id _)
    have hlast : piece ∈ (bytes.splitOn newline).getLast? :=
      Option.mem_toList.mp (List.mem_filter.mp h).1
    exact dropLineEnd_of_not_mem (newline_not_mem_of_mem_splitOn (List.mem_of_getLast? hlast))

/-- A session reads the lines of its input. -/
lemma map_decodeLine?_cutLines (bytes : List UInt8) :
    (cutLines bytes).map decodeLine? = readLines bytes := by
  rw [readLines, ← map_dropLineEnd_cutLines, List.map_map]
  rfl

/-! ## One line at a time -/

lemma mem_of_mem_dropLast {b c : UInt8} (h : c ∈ dropLast b bytes) : c ∈ bytes := by
  unfold dropLast at h
  split at h
  · exact List.dropLast_subset bytes h
  · exact h

lemma newline_not_mem_of_mem_linesOf {line : List UInt8} (h : line ∈ linesOf bytes) :
    newline ∉ line := by
  rcases List.mem_append.mp h with h | h
  · obtain ⟨piece, hpiece, rfl⟩ := List.mem_map.mp h
    have hnot := newline_not_mem_of_mem_splitOn (List.dropLast_subset _ hpiece)
    exact fun hmem => hnot (mem_of_mem_dropLast hmem)
  · have hlast : line ∈ (bytes.splitOn newline).getLast? :=
      Option.mem_toList.mp (List.mem_filter.mp h).1
    exact newline_not_mem_of_mem_splitOn (List.mem_of_getLast? hlast)

/-- The bytes of the characters, in order. -/
lemma bytes_of_fromUTF8? {text : String} (h : String.fromUTF8? ⟨bytes.toArray⟩ = some text) :
    bytes = text.toList.flatMap String.utf8EncodeChar := by
  have htext : text.toByteArray = ⟨bytes.toArray⟩ := by
    unfold String.fromUTF8? at h
    split at h
    · cases h
      rfl
    · cases h
  have hencode : text.toByteArray = (text.toList.flatMap String.utf8EncodeChar).toByteArray := by
    conv_lhs => rw [← String.ofList_toList (s := text), String.toByteArray_ofList]
    rfl
  have hdata := congrArg (fun a => a.data.toList) (htext.symm.trans hencode)
  simpa using hdata

/-- A newline is a byte by itself. -/
lemma oneLine_of_fromUTF8? {text : String} (h : String.fromUTF8? ⟨bytes.toArray⟩ = some text)
    (hbytes : newline ∉ bytes) : OneLine text := by
  intro hmem
  have hencode : newline ∈ String.utf8EncodeChar '\n' := by decide
  exact hbytes (bytes_of_fromUTF8? h ▸ List.mem_flatMap_of_mem hmem hencode)

/-- A line that is read has no newline in it. -/
lemma oneLine_of_mem_readLines {text : String} (h : some text ∈ readLines bytes) :
    OneLine text := by
  obtain ⟨line, hline, htext⟩ := List.mem_map.mp h
  exact oneLine_of_fromUTF8? htext (newline_not_mem_of_mem_linesOf hline)

end Calculator.CommandLine
