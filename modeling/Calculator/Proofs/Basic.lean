import Mathlib.Data.List.TakeWhile

/-!
# Answers and fronts

A stage that answers or fails goes on with the answer of the stage before it.  What comes out at the
end is taken apart here, so that no proof about a stage has to look inside of the sequence.

The scanner cuts a lexeme off the front of a text as far as its characters go, and the conversion
lets waiting tokens go in the same way.  Both ask for the front of two lists in a row.
-/

namespace Calculator

/-! ## Answers -/

variable {ε α β : Type} {x : Except ε α} {f : α → Except ε β} {g : α → β} {a : α} {b : β} {e : ε}

lemma bind_of_eq_ok (h : x = .ok a) (f : α → Except ε β) : (x >>= f) = f a := by
  rw [h]
  rfl

/-- An answer at the end has an answer before it. -/
lemma of_bind_eq_ok (h : (x >>= f) = .ok b) : ∃ a, x = .ok a ∧ f a = .ok b := by
  cases x with
  | error e => cases h
  | ok a => exact ⟨a, rfl, h⟩

/-- A fault at the end is the fault of one of the stages. -/
lemma of_bind_eq_error (h : (x >>= f) = .error e) :
    x = .error e ∨ ∃ a, x = .ok a ∧ f a = .error e := by
  cases x with
  | error d =>
    cases h
    exact .inl rfl
  | ok a => exact .inr ⟨a, rfl, h⟩

lemma of_map_eq_ok (h : x.map g = .ok b) : ∃ a, x = .ok a ∧ g a = b := by
  cases x with
  | error e => cases h
  | ok a => exact ⟨a, rfl, Except.ok.inj h⟩

lemma of_map_eq_error (h : x.map g = .error e) : x = .error e := by
  cases x with
  | error e => exact congrArg _ (Except.error.inj h)
  | ok a => cases h

/-- An answer that has the property `P` if it is a fault. -/
def Fails (P : ε → Prop) (x : Except ε α) : Prop := ∀ e, x = .error e → P e

section Fails

variable {P : ε → Prop}

@[simp] lemma fails_ok (a : α) : Fails P (.ok a : Except ε α) := nofun

@[simp] lemma fails_error : Fails P (.error e : Except ε α) ↔ P e :=
  ⟨fun h => h e rfl, fun h _ heq => Except.error.inj heq ▸ h⟩

lemma Fails.bind (hx : Fails P x) (hf : ∀ a, x = .ok a → Fails P (f a)) : Fails P (x >>= f) := by
  intro e h
  rcases of_bind_eq_error h with h | ⟨a, ha, h⟩
  · exact hx e h
  · exact hf a ha e h

lemma Fails.map (hx : Fails P x) (g : α → β) : Fails P (x.map g) :=
  fun e h => hx e (of_map_eq_error h)

end Fails

/-! ## Fronts -/

section Front

variable {p : α → Bool}

/-- A front stops before something that is not in it. -/
lemma head?_dropWhile (p : α → Bool) (l : List α) : ∀ a ∈ (l.dropWhile p).head?, p a = false := by
  intro a ha
  have hnot := List.head?_dropWhile_not p l
  rw [ha] at hnot
  simpa using hnot

/-- A front that goes on to where the second list begins. -/
lemma takeWhile_append_of_head {l r : List α} (hl : ∀ a ∈ l, p a = true)
    (hr : ∀ a ∈ r.head?, p a = false) : (l ++ r).takeWhile p = l := by
  have hnil : r.takeWhile p = [] := by
    cases r with
    | nil => rfl
    | cons a r => exact List.takeWhile_cons_of_neg (by simp [hr a rfl])
  rw [List.takeWhile_append_of_pos hl, hnil, List.append_nil]

lemma dropWhile_append_of_head {l r : List α} (hl : ∀ a ∈ l, p a = true)
    (hr : ∀ a ∈ r.head?, p a = false) : (l ++ r).dropWhile p = r := by
  rw [List.dropWhile_append_of_pos hl]
  cases r with
  | nil => rfl
  | cons a r => exact List.dropWhile_cons_of_neg (by simp [hr a rfl])

/-- A front that does not reach into the second list. -/
lemma takeWhile_append_cons {a : α} (ha : p a = false) (l r : List α) :
    (l ++ a :: r).takeWhile p = l.takeWhile p := by
  induction l with
  | nil => simp [ha]
  | cons b l ih => cases hb : p b <;> simp [hb, ih]

lemma dropWhile_append_cons {a : α} (ha : p a = false) (l r : List α) :
    (l ++ a :: r).dropWhile p = l.dropWhile p ++ a :: r := by
  induction l with
  | nil => simp [ha]
  | cons b l ih => cases hb : p b <;> simp [hb, ih]

end Front

end Calculator
