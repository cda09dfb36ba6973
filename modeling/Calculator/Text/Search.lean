/-!
# Searching a text

A pattern says what it finds at the front of a text.  A search tries it at every place from the
left: behind a match it goes on with what follows the match, and where nothing is found with the
next character.  The matches come in order and do not overlap, but they need not be next to each
other.  What the characters between them mean is for the caller to say, who is given the positions
of every match.

`Pattern.skipped` is what a search passes over before its first match, and
`Pattern.matchesFrom_of_gap` finds it again between positions.
-/

namespace Calculator.Text

/-- What stands between two positions of a text. -/
def slice (text : List Char) (start stop : Nat) : List Char :=
  (text.drop start).take (stop - start)

/-- The slice behind a text of that length. -/
theorem slice_append (front middle rest : List Char) :
    slice (front ++ (middle ++ rest)) front.length (front.length + middle.length) = middle := by
  simp [slice]

/-- What is looked for in a text.  It says what it finds at the front and what follows that, and
how many characters what it finds takes. -/
structure Pattern (α : Type) where
  next? : List Char → Option (α × List Char)
  width : α → Nat
  exists_piece : ∀ {cs rest : List Char} {a : α}, next? cs = some (a, rest) →
    ∃ piece, piece ≠ [] ∧ piece.length = width a ∧ piece ++ rest = cs

/-- A place where a pattern was found, and what was found there. -/
structure Match (α : Type) where
  start : Nat
  stop : Nat
  value : α
  deriving DecidableEq, Repr

namespace Pattern

variable {α : Type} (p : Pattern α)

theorem next?_nil : p.next? [] = none := by
  cases h : p.next? [] with
  | none => rfl
  | some found =>
    obtain ⟨piece, nonempty, -, whole⟩ := p.exists_piece h
    exact absurd (List.append_eq_nil_iff.mp whole).1 nonempty

variable {p} in
theorem length_lt_of_next? {cs rest : List Char} {a : α} (h : p.next? cs = some (a, rest)) :
    rest.length < cs.length := by
  obtain ⟨piece, nonempty, -, rfl⟩ := p.exists_piece h
  have := List.length_pos_iff.mpr nonempty
  rw [List.length_append]
  omega

/-- The matches in a text whose first character has the position `pos`. -/
def matchesFrom (pos : Nat) : List Char → List (Match α)
  | [] => []
  | c :: cs =>
    match h : p.next? (c :: cs) with
    | some (a, rest) => ⟨pos, pos + p.width a, a⟩ :: matchesFrom (pos + p.width a) rest
    | none => matchesFrom (pos + 1) cs
termination_by cs => cs.length
decreasing_by
  · exact length_lt_of_next? h
  · exact Nat.lt_succ_self cs.length

/-- The matches in a text. -/
def findAll (text : List Char) : List (Match α) :=
  p.matchesFrom 0 text

theorem matchesFrom_nil (pos : Nat) : p.matchesFrom pos [] = [] := by
  rw [matchesFrom]

theorem matchesFrom_of_some {pos : Nat} {cs rest : List Char} {a : α}
    (h : p.next? cs = some (a, rest)) :
    p.matchesFrom pos cs = ⟨pos, pos + p.width a, a⟩ :: p.matchesFrom (pos + p.width a) rest := by
  cases cs with
  | nil => cases h.symm.trans p.next?_nil
  | cons c cs =>
    rw [matchesFrom]
    split
    · next found =>
      cases h.symm.trans found
      rfl
    · next missing => cases h.symm.trans missing

theorem matchesFrom_of_none {pos : Nat} {c : Char} {cs : List Char}
    (h : p.next? (c :: cs) = none) :
    p.matchesFrom pos (c :: cs) = p.matchesFrom (pos + 1) cs := by
  rw [matchesFrom]
  split
  · next found => cases h.symm.trans found
  · rfl

/-! ## Up to the first match -/

/-- The text up to the first place where something is found. -/
def skipped : List Char → List Char
  | [] => []
  | c :: cs => if (p.next? (c :: cs)).isSome then [] else c :: skipped cs

/-- A search passes over all of a text, or its first match begins behind what it passes over. -/
theorem matchesFrom_of_skipped (pos : Nat) (cs : List Char) :
    (p.skipped cs = cs ∧ p.matchesFrom pos cs = []) ∨
      ∃ rest m others, p.skipped cs ++ rest = cs ∧ rest ≠ [] ∧
        p.matchesFrom pos cs = m :: others ∧ m.start = pos + (p.skipped cs).length := by
  induction cs generalizing pos with
  | nil => exact .inl ⟨rfl, p.matchesFrom_nil pos⟩
  | cons c cs ih =>
    rw [skipped]
    cases found : p.next? (c :: cs) with
    | some here =>
      exact .inr ⟨_, _, _, rfl, List.cons_ne_nil c cs, p.matchesFrom_of_some found, rfl⟩
    | none =>
      rw [p.matchesFrom_of_none found]
      rcases ih (pos + 1) with ⟨all, nothing⟩ | ⟨rest, m, others, whole, nonempty, first, start⟩
      · exact .inl ⟨congrArg (c :: ·) all, nothing⟩
      · refine .inr ⟨rest, m, others, congrArg (c :: ·) whole, nonempty, first, ?_⟩
        rw [start]
        simp only [Option.isSome_none, Bool.false_eq_true, if_false, List.length_cons]
        omega

/-- Where nothing is found at the front, a search passes over something. -/
theorem skipped_ne_nil {cs : List Char} (nonempty : cs ≠ []) (h : p.next? cs = none) :
    p.skipped cs ≠ [] := by
  cases cs with
  | nil => exact absurd rfl nonempty
  | cons c cs =>
    rw [skipped, h]
    exact List.cons_ne_nil c _

/-- Behind `front` there is text without a match, or a gap before the first match.  What stands in
the gap is what the search passes over. -/
theorem matchesFrom_of_gap (front : List Char) {cs : List Char} (nonempty : cs ≠ [])
    (h : p.next? cs = none) :
    (p.skipped cs = cs ∧ p.matchesFrom front.length cs = [] ∧
        front.length < (front ++ cs).length) ∨
      ∃ rest m others, p.skipped cs ++ rest = cs ∧ rest ≠ [] ∧
        p.matchesFrom front.length cs = m :: others ∧ front.length < m.start ∧
        slice (front ++ cs) front.length m.start = p.skipped cs := by
  rcases p.matchesFrom_of_skipped front.length cs with
    ⟨all, nothing⟩ | ⟨rest, m, others, whole, more, first, start⟩
  · refine .inl ⟨all, nothing, ?_⟩
    rw [List.length_append]
    exact Nat.lt_add_of_pos_right (List.length_pos_iff.mpr nonempty)
  · have gap := List.length_pos_iff.mpr (p.skipped_ne_nil nonempty h)
    refine .inr ⟨rest, m, others, whole, more, first, by omega, ?_⟩
    calc slice (front ++ cs) front.length m.start
        = slice (front ++ (p.skipped cs ++ rest)) front.length
            (front.length + (p.skipped cs).length) := by rw [whole, start]
      _ = p.skipped cs := slice_append ..

end Pattern

end Calculator.Text
