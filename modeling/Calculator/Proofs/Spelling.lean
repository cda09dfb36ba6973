import Calculator.Proofs.Scan

/-!
# Spelling

Which texts have which lexemes, said without the scanner.  Every lexeme has its own characters
(`Lexeme.Spells`): digits, possibly with a point and more digits, are a numeral; letters are a word;
and every other character of an expression stands for itself.  A text is spelled out of such pieces
one after the other (`Spelling`), if two numerals or two words never touch, because they would be
one.

The scanner finds the spelling of a text wherever there is one, and finds nothing else
(`lexemes_eq_ok_iff`).  So what has been scanned can be written again, each lexeme by its own text
or by other lexemes in its place, and the scan of the new text is known from that of the old one
(`lexemes_flatMap`).
-/

namespace Calculator

/-! ## Shapes -/

namespace Lexeme

/-- Whether a numeral can hold a character. -/
def isNumeralChar (c : Char) : Bool := c.isDigit || c = '.'

/-- What a lexeme is made of. -/
inductive Shape
  | numeral
  | word
  | symbol
  deriving DecidableEq, Repr

/-- What a character is a part of. -/
def Shape.ofChar (c : Char) : Shape :=
  if isNumeralChar c then .numeral else if c.isAlpha then .word else .symbol

/-- The shape of a lexeme. -/
def shape : Lexeme → Shape
  | .number _ => .numeral
  | .function _ | .constant _ | .unknown => .word
  | .operator _ | .openParen | .closeParen | .separator => .symbol

/-- Two lexemes that stay apart when nothing is between them. -/
def Apart (l m : Lexeme) : Prop := l.shape = m.shape → l.shape = .symbol

/-- The characters of a lexeme by itself. -/
inductive Spells : List Char → Lexeme → Prop
  | numeral {cs : List Char} (h : Decimal.IsPlain cs) : Spells cs (.number (String.ofList cs))
  | word {cs : List Char} (hne : cs ≠ []) (h : ∀ c ∈ cs, c.isAlpha = true) : Spells cs (ofWord cs)
  | symbol {c : Char} {l : Lexeme} (h : ofSymbol? c = some l) : Spells [c] l

variable {cs rest : List Char} {l : Lexeme}

lemma shape_ofWord (cs : List Char) : (ofWord cs).shape = .word := by
  simp only [ofWord]
  split
  · rfl
  split
  · rfl
  · rfl

lemma shape_of_ofSymbol? {c : Char} (h : ofSymbol? c = some l) : l.shape = .symbol := by
  unfold ofSymbol? at h
  repeat' split at h
  all_goals cases h
  all_goals rfl

lemma isNumeralChar_of_isPlain (h : Decimal.IsPlain cs) : ∀ c ∈ cs, isNumeralChar c = true := by
  obtain ⟨whole, fraction, rfl, -, hwhole, hfraction⟩ := h
  intro c hc
  rcases List.mem_append.mp hc with hc | hc
  · simp [isNumeralChar, hwhole c hc]
  rcases hfraction with rfl | ⟨ds, rfl, -, hds⟩
  · cases hc
  rcases List.mem_cons.mp hc with rfl | hc
  · rfl
  · simp [isNumeralChar, hds c hc]

lemma not_isNumeralChar_of_isAlpha {c : Char} (h : c.isAlpha = true) :
    isNumeralChar c = false := by
  have hpoint : c ≠ '.' := by
    rintro rfl
    cases h
  simp [isNumeralChar, (isAlpha_cases h).1, hpoint]

lemma Shape.ofChar_eq_numeral {c : Char} : ofChar c = .numeral ↔ isNumeralChar c = true := by
  unfold ofChar
  split
  next h => simp [h]
  next h => split <;> simp [h]

lemma Shape.ofChar_eq_word {c : Char} : ofChar c = .word ↔ c.isAlpha = true := by
  unfold ofChar
  split
  next h =>
    constructor
    · nofun
    · intro halpha
      cases h.symm.trans (not_isNumeralChar_of_isAlpha halpha)
  · split <;> simp [*]

lemma Shape.ofChar_ne_numeral {c : Char} : ofChar c ≠ .numeral ↔ isNumeralChar c = false := by
  rw [ne_eq, ofChar_eq_numeral, Bool.not_eq_true]

lemma Shape.ofChar_ne_word {c : Char} : ofChar c ≠ .word ↔ c.isAlpha = false := by
  rw [ne_eq, ofChar_eq_word, Bool.not_eq_true]

namespace Spells

lemma ne_nil (h : Spells cs l) : cs ≠ [] := by
  cases h with
  | numeral h =>
    obtain ⟨whole, fraction, rfl, hne, -⟩ := h
    simp [hne]
  | word hne _ => exact hne
  | symbol _ => exact List.cons_ne_nil _ _

/-- A lexeme is made of characters of its shape. -/
lemma shape_eq (h : Spells cs l) : ∀ c ∈ cs, Shape.ofChar c = l.shape := by
  intro c hc
  cases h with
  | numeral h => exact Shape.ofChar_eq_numeral.mpr (isNumeralChar_of_isPlain h c hc)
  | word _ h =>
    rw [shape_ofWord]
    exact Shape.ofChar_eq_word.mpr (h c hc)
  | symbol h =>
    obtain rfl := List.mem_singleton.mp hc
    obtain ⟨hdigit, halpha, hpoint, -⟩ := of_ofSymbol? h
    simp [Shape.ofChar, isNumeralChar, hdigit, halpha, hpoint, shape_of_ofSymbol? h]

/-- No lexeme begins with a point. -/
lemma head_ne_point (h : Spells cs l) : cs.head? ≠ some '.' := by
  cases h with
  | numeral h =>
    obtain ⟨whole, fraction, rfl, hne, hwhole, -⟩ := h
    obtain ⟨c, whole, rfl⟩ := List.exists_cons_of_ne_nil hne
    rintro ⟨⟩
    cases hwhole '.' (List.mem_cons_self ..)
  | word hne h =>
    obtain ⟨c, cs, rfl⟩ := List.exists_cons_of_ne_nil hne
    rintro ⟨⟩
    cases h '.' (List.mem_cons_self ..)
  | symbol h =>
    rintro ⟨⟩
    cases h

/-- A lexeme holds no blank. -/
lemma not_isBlank (h : Spells cs l) : ∀ c ∈ cs, Text.isBlank c = false := by
  intro c hc
  cases h with
  | numeral h =>
    have hnumeral := isNumeralChar_of_isPlain h c hc
    simp only [isNumeralChar, Bool.or_eq_true, decide_eq_true_eq] at hnumeral
    rcases hnumeral with hdigit | rfl
    · have hrange : 48 ≤ c.toNat ∧ c.toNat ≤ 57 := Char.isDigit_iff_toNat.mp hdigit
      simp only [Text.isBlank, Bool.or_eq_false_iff, Bool.and_eq_false_iff,
        decide_eq_false_iff_not, beq_eq_false_iff_ne]
      omega
    · rfl
  | word _ h => exact (isAlpha_cases (h c hc)).2.1
  | symbol h =>
    obtain rfl := List.mem_singleton.mp hc
    exact (of_ofSymbol? h).2.2.2

end Spells

/-! ## One lexeme -/

/-- A plain numeral at the front of a text that goes on with something else. -/
lemma splitNumeral_append_of_isPlain (h : Decimal.IsPlain cs)
    (hrest : ∀ c ∈ rest.head?, isNumeralChar c = false) :
    splitNumeral (cs ++ rest) = (cs, rest) := by
  have hdigit : ∀ c ∈ rest.head?, c.isDigit = false := by
    intro c hc
    have hc := hrest c hc
    simp only [isNumeralChar, Bool.or_eq_false_iff] at hc
    exact hc.1
  obtain ⟨whole, fraction, rfl, hne, hwhole, rfl | ⟨ds, rfl, hds, hdigits⟩⟩ := h
  · have hfraction : splitFraction rest = ([], rest) := by
      cases rest with
      | nil => rfl
      | cons c rest =>
        apply splitFraction_of_ne
        rintro rfl
        cases hrest '.' rfl
    simp only [List.append_nil, splitNumeral, takeWhile_append_of_head hwhole hdigit,
      dropWhile_append_of_head hwhole hdigit, hfraction]
  · have hpoint : ∀ c ∈ ('.' :: ds ++ rest).head?, c.isDigit = false := by
      rintro c ⟨⟩
      rfl
    have hfraction : splitFraction ('.' :: ds ++ rest) = ('.' :: ds, rest) := by
      have htake := takeWhile_append_of_head hdigits hdigit
      have hdrop := dropWhile_append_of_head hdigits hdigit
      obtain ⟨d, ds, rfl⟩ := List.exists_cons_of_ne_nil hds
      rw [List.cons_append] at htake hdrop
      rw [List.cons_append, List.cons_append, splitFraction, htake, hdrop,
        if_pos (hdigits d (List.mem_cons_self ..))]
    rw [List.append_assoc, splitNumeral, takeWhile_append_of_head hwhole hpoint,
      dropWhile_append_of_head hwhole hpoint, hfraction]

/-- The scanner takes a lexeme off a text, if the lexeme does not go on. -/
lemma Spells.next?_append (h : Spells cs l)
    (hrest : ∀ c ∈ rest.head?, Shape.ofChar c = l.shape → l.shape = .symbol) :
    next? (cs ++ rest) = some (l, rest) := by
  cases h with
  | numeral h =>
    have hend : ∀ c ∈ rest.head?, isNumeralChar c = false := by
      refine fun c hc => Shape.ofChar_ne_numeral.mp fun hshape => ?_
      cases hrest c hc hshape
    have hsplit := splitNumeral_append_of_isPlain h hend
    obtain ⟨whole, fraction, rfl, hne, hwhole, -⟩ := h
    obtain ⟨c, whole, rfl⟩ := List.exists_cons_of_ne_nil hne
    simp only [List.cons_append] at hsplit ⊢
    rw [next?, if_pos (hwhole c (List.mem_cons_self ..)), hsplit]
  | word hne h =>
    rw [shape_ofWord] at hrest
    have hend : ∀ c ∈ rest.head?, c.isAlpha = false := by
      refine fun c hc => Shape.ofChar_ne_word.mp fun hshape => ?_
      cases hrest c hc hshape
    have htake := takeWhile_append_of_head h hend
    have hdrop := dropWhile_append_of_head h hend
    obtain ⟨c, cs, rfl⟩ := List.exists_cons_of_ne_nil hne
    have halpha := h c (List.mem_cons_self ..)
    simp only [List.cons_append] at htake hdrop ⊢
    rw [next?, if_neg (by simp [(isAlpha_cases halpha).1]), if_pos halpha, htake, hdrop]
  | symbol h => exact next?_symbol h rest

/-- What follows a numeral is no digit. -/
lemma head_splitFraction (hcs : ∀ c ∈ cs.head?, c.isDigit = false) :
    ∀ c ∈ (splitFraction cs).2.head?, c.isDigit = false := by
  intro c hc
  unfold splitFraction at hc
  split at hc
  · split at hc
    · exact head?_dropWhile _ _ c hc
    · exact hcs c hc
  · exact hcs c hc

/-- What the scanner takes off a text is a lexeme by itself, and it goes on at most with a point. -/
lemma spells_of_next? (h : next? cs = some (l, rest)) :
    ∃ piece, cs = piece ++ rest ∧ Spells piece l ∧
      ∀ c ∈ rest.head?, Shape.ofChar c = l.shape → l.shape = .symbol ∨ c = '.' := by
  unfold next? at h
  split at h
  · cases h
  next c cs =>
  split at h
  next hdigit =>
    cases h
    refine ⟨_, (splitNumeral_append (c :: cs)).symm, .numeral (isPlain_splitNumeral hdigit), ?_⟩
    intro d hd hshape
    have hnot : d.isDigit = false := head_splitFraction (head?_dropWhile _ _) d hd
    have hnumeral : isNumeralChar d = true := Shape.ofChar_eq_numeral.mp hshape
    exact .inr (by simpa [isNumeralChar, hnot] using hnumeral)
  split at h
  next halpha =>
    cases h
    refine ⟨_, (List.takeWhile_append_dropWhile (p := Char.isAlpha)).symm, .word ?_ ?_, ?_⟩
    · rw [List.takeWhile_cons_of_pos halpha]
      exact List.cons_ne_nil _ _
    · exact fun d hd => List.mem_takeWhile_imp hd
    · intro d hd hshape
      rw [shape_ofWord] at hshape
      cases (head?_dropWhile _ _ d hd).symm.trans (Shape.ofChar_eq_word.mp hshape)
  · obtain ⟨symbol, hsymbol, heq⟩ := Option.map_eq_some_iff.mp h
    cases heq
    exact ⟨[c], rfl, .symbol hsymbol, fun _ _ _ => .inl (shape_of_ofSymbol? hsymbol)⟩

end Lexeme

/-! ## All of them -/

/-- A text of lexemes, each of which begins where the one before it cannot go on. -/
inductive Spelling : List Char → List Lexeme → Prop
  | nil : Spelling [] []
  | cons {cs rest : List Char} {l : Lexeme} {ls : List Lexeme} (h : l.Spells cs)
      (hapart : ∀ m ∈ ls.head?, l.Apart m) (hrest : Spelling rest ls) :
      Spelling (cs ++ rest) (l :: ls)

section Spelling

variable {cs : List Char} {ls : List Lexeme}

/-- The first character is of the shape of the first lexeme, and is no point. -/
lemma Spelling.head (h : Spelling cs ls) :
    cs.head?.map Lexeme.Shape.ofChar = ls.head?.map Lexeme.shape ∧ cs.head? ≠ some '.' := by
  cases h with
  | nil => exact ⟨rfl, nofun⟩
  | cons h hapart hrest =>
    have hpoint := h.head_ne_point
    obtain ⟨c, cs, rfl⟩ := List.exists_cons_of_ne_nil h.ne_nil
    exact ⟨congrArg some (h.shape_eq c (List.mem_cons_self ..)), hpoint⟩

/-- What the lexeme before a text is made of does not go on in the text. -/
lemma Spelling.head_apart {l : Lexeme} (h : Spelling cs ls) (hapart : ∀ m ∈ ls.head?, l.Apart m) :
    ∀ c ∈ cs.head?, Lexeme.Shape.ofChar c = l.shape → l.shape = .symbol := by
  intro c hc hshape
  have hhead := h.head.1
  rw [hc] at hhead
  obtain ⟨m, hm, hcm⟩ := Option.map_eq_some_iff.mp hhead.symm
  exact hapart m hm (hshape.symm.trans hcm.symm)

/-- A lexeme before a text that does not begin with what the lexeme is made of. -/
lemma Spelling.cons_of_head {rest : List Char} {l : Lexeme} (h : l.Spells cs)
    (hend : ∀ c ∈ rest.head?, Lexeme.Shape.ofChar c = l.shape → l.shape = .symbol)
    (hrest : Spelling rest ls) : Spelling (cs ++ rest) (l :: ls) := by
  refine .cons h (fun m hm hshape => ?_) hrest
  have hhead := hrest.head.1
  rw [hm] at hhead
  obtain ⟨c, hc, hcm⟩ := Option.map_eq_some_iff.mp hhead
  exact hend c hc (hcm.trans hshape.symm)

lemma lexemes_of_spelling (h : Spelling cs ls) : lexemes cs = .ok ls := by
  induction h with
  | nil => exact lexemes_of_none rfl
  | @cons cs rest l ls h hapart hrest ih =>
    rw [lexemes_of_some (h.next?_append (hrest.head_apart hapart)), ih]
    rfl

lemma spelling_of_lexemes (h : lexemes cs = .ok ls) : Spelling cs ls := by
  induction cs using lexemes.induct generalizing ls with
  | case1 cs l rest hnext hlt ih =>
    rw [lexemes_of_some hnext] at h
    obtain ⟨ms, hms, rfl⟩ := of_map_eq_ok h
    obtain ⟨piece, rfl, hpiece, hend⟩ := Lexeme.spells_of_next? hnext
    have hrest := ih hms
    refine .cons_of_head hpiece (fun c hc hshape => ?_) hrest
    -- Where the numeral could only go on with a point, the next lexeme would begin with it.
    refine (hend c hc hshape).resolve_right ?_
    rintro rfl
    exact hrest.head.2 hc
  | case2 cs hnext hempty =>
    rw [lexemes_of_none hnext, if_pos hempty] at h
    cases h
    obtain rfl : cs = [] := List.isEmpty_iff.mp hempty
    exact .nil
  | case3 cs hnext hempty =>
    rw [lexemes_of_none hnext, if_neg hempty] at h
    cases h

/-- The scanner finds the spelling of a text, and nothing else. -/
theorem lexemes_eq_ok_iff : lexemes cs = .ok ls ↔ Spelling cs ls :=
  ⟨spelling_of_lexemes, lexemes_of_spelling⟩

end Spelling

/-! ## Texts of lexemes -/

namespace Lexeme

lemma toNat_toLower (c : Char) :
    c.toLower.toNat = if 65 ≤ c.toNat ∧ c.toNat ≤ 90 then c.toNat + 32 else c.toNat := by
  have hupper : c.val ≥ 'A'.val ∧ c.val ≤ 'Z'.val ↔ 65 ≤ c.toNat ∧ c.toNat ≤ 90 := by
    simp only [ge_iff_le, UInt32.le_iff_toNat_le]
    rfl
  unfold Char.toLower
  by_cases h : c.val ≥ 'A'.val ∧ c.val ≤ 'Z'.val
  · have hrange := hupper.mp h
    have hval : c.val.toNat = c.toNat := rfl
    have hstep : ('a'.val - 'A'.val).toNat = 32 := rfl
    rw [dif_pos h, if_pos hrange]
    show (c.val + ('a'.val - 'A'.val)).toNat = c.toNat + 32
    rw [UInt32.toNat_add]
    omega
  · rw [dif_neg h, if_neg (hupper.not.mp h)]

lemma isAlpha_toLower {c : Char} (h : c.isAlpha = true) : c.toLower.isAlpha = true := by
  rw [isAlpha_iff] at h ⊢
  rw [toNat_toLower]
  split <;> omega

lemma toLower_toLower (c : Char) : c.toLower.toLower = c.toLower := by
  apply Char.toNat_inj.mp
  rw [toNat_toLower c.toLower, toNat_toLower c]
  split_ifs <;> omega

/-- A lexeme is spelled by its own text. -/
lemma Spells.text {cs : List Char} {l : Lexeme} (h : Spells cs l) : Spells l.text.toList l := by
  cases h with
  | numeral h =>
    rw [Lexeme.text, String.toList_ofList]
    exact .numeral h
  | word hne h =>
    have hword : ofWord (cs.map Char.toLower) = ofWord cs := by
      have hmap : (cs.map Char.toLower).map Char.toLower = cs.map Char.toLower := by
        rw [List.map_map]
        exact List.map_congr_left fun c _ => toLower_toLower c
      simp only [ofWord, hmap]
    rw [text_ofWord]
    have hspells : Spells (cs.map Char.toLower) (ofWord (cs.map Char.toLower)) :=
      .word (by simpa using hne) (List.forall_mem_map.mpr fun c hc => isAlpha_toLower (h c hc))
    rwa [hword] at hspells
  | symbol h =>
    rw [text_of_ofSymbol? h]
    exact .symbol h

end Lexeme

lemma Spelling.spells {cs : List Char} {ls : List Lexeme} (h : Spelling cs ls) :
    ∀ l ∈ ls, l.Spells l.text.toList := by
  induction h with
  | nil => nofun
  | cons h _ _ ih => exact List.forall_mem_cons.mpr ⟨h.text, ih⟩

lemma Spelling.isChain {cs : List Char} {ls : List Lexeme} (h : Spelling cs ls) :
    ls.IsChain Lexeme.Apart := by
  induction h with
  | nil => exact .nil
  | cons _ hapart _ ih => exact List.isChain_cons.mpr ⟨hapart, ih⟩

/-- Lexemes that stay apart, written one after the other. -/
lemma spelling_flatMap {ls : List Lexeme} (hspells : ∀ l ∈ ls, l.Spells l.text.toList)
    (hchain : ls.IsChain Lexeme.Apart) : Spelling (ls.flatMap fun l => l.text.toList) ls := by
  induction ls with
  | nil => exact .nil
  | cons l ls ih =>
    obtain ⟨hl, hls⟩ := List.forall_mem_cons.mp hspells
    obtain ⟨hapart, hrest⟩ := List.isChain_cons.mp hchain
    exact .cons hl hapart (ih hls hrest)

/-- The scan of lexemes that stay apart, written one after the other. -/
theorem lexemes_flatMap {ls : List Lexeme} (hspells : ∀ l ∈ ls, l.Spells l.text.toList)
    (hchain : ls.IsChain Lexeme.Apart) :
    lexemes (Text.withoutBlanks (ls.flatMap fun l => l.text.toList)) = .ok ls := by
  have hblank : Text.withoutBlanks (ls.flatMap fun l => l.text.toList) =
      ls.flatMap fun l => l.text.toList := by
    refine List.filter_eq_self.mpr fun c hc => ?_
    obtain ⟨l, hl, hcl⟩ := List.mem_flatMap.mp hc
    simp [(hspells l hl).not_isBlank c hcl]
  rw [hblank]
  exact lexemes_of_spelling (spelling_flatMap hspells hchain)

end Calculator
