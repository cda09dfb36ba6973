import Calculator.Proofs.Parentheses

/-!
# Balanced tokens and their open parentheses

`Balanced` says of tokens that their parentheses pair up, by the numbers of parentheses in every
front of them and without following them one by one.  `depthAfter` decides it (`balanced_iff`), so
that what is known of the count is known of balanced tokens.

A parenthesis is open at the end of some tokens, and is the innermost such parenthesis, if what
comes after it is balanced.  There is one at most (`Encloses.unique`): balanced tokens never close a
parenthesis that is opened before them (`not_balanced_append`).
-/

namespace Calculator

variable {l r ts : List Token} {t o : Token} {d m : Nat}

/-- Parentheses that pair up: no front of the tokens closes more than it opens, and the whole closes
as many as it opens. -/
structure Balanced (ts : List Token) : Prop where
  front : ∀ l, l <+: ts → l.countP Token.isCloseParen ≤ l.countP Token.isOpenParen
  whole : ts.countP Token.isCloseParen = ts.countP Token.isOpenParen

/-! ## Counting -/

/-- The fronts of a sequence are the empty one and those that begin with its first element. -/
lemma forall_prefix_cons {α : Type} {P : List α → Prop} {a : α} {l : List α} :
    (∀ r, r <+: a :: l → P r) ↔ P [] ∧ ∀ r, r <+: l → P (a :: r) := by
  constructor
  · intro h
    exact ⟨h [] List.nil_prefix, fun r hr => h (a :: r) ((List.prefix_cons_inj a).mpr hr)⟩
  · rintro ⟨hnil, hcons⟩ r hr
    rcases List.prefix_cons_iff.mp hr with rfl | ⟨s, rfl, hs⟩
    · exact hnil
    · exact hcons s hs

/-- The count in numbers of parentheses: no front closes more parentheses than are open, and at the
end those are left that have not been closed. -/
theorem depthAfter_eq_some_iff :
    depthAfter d ts = some m ↔
      (∀ l, l <+: ts → l.countP Token.isCloseParen ≤ d + l.countP Token.isOpenParen) ∧
        m + ts.countP Token.isCloseParen = d + ts.countP Token.isOpenParen := by
  induction ts generalizing d with
  | nil => simp [depthAfter, eq_comm]
  | cons t ts ih =>
    rw [depthAfter, Option.bind_eq_some_iff, forall_prefix_cons]
    obtain ⟨l, n⟩ := t
    cases l with
    | openParen =>
      have hassoc (a : Nat) : d + 1 + a = d + (a + 1) := by omega
      simp [Token.depthAfter, Token.isOpenParen, Token.isCloseParen, ih, hassoc]
    | closeParen =>
      cases d with
      | zero =>
        refine iff_of_false (by simp [Token.depthAfter]) fun h => ?_
        have hfront := h.1.2 [] List.nil_prefix
        simp [Token.isOpenParen, Token.isCloseParen] at hfront
      | succ d =>
        have hle (a b : Nat) : a + 1 ≤ d + 1 + b ↔ a ≤ d + b := by omega
        have heq (a b : Nat) : m + (a + 1) = d + 1 + b ↔ m + a = d + b := by omega
        simp [Token.depthAfter, Token.isOpenParen, Token.isCloseParen, ih, hle, heq]
    | _ => simp [Token.depthAfter, Token.isOpenParen, Token.isCloseParen, ih]

/-- Parentheses pair up exactly if the count comes back to where it began. -/
theorem balanced_iff : Balanced ts ↔ depthAfter 0 ts = some 0 := by
  rw [depthAfter_eq_some_iff]
  simp only [Nat.zero_add]
  exact ⟨fun h => ⟨h.front, h.whole⟩, fun h => ⟨h.1, h.2⟩⟩

/-- Parentheses that are open before and stay open do not matter to the count. -/
lemma depthAfter_add (h : depthAfter d ts = some m) (k : Nat) :
    depthAfter (d + k) ts = some (m + k) := by
  obtain ⟨hfront, hwhole⟩ := depthAfter_eq_some_iff.mp h
  refine depthAfter_eq_some_iff.mpr ⟨fun l hl => ?_, by omega⟩
  have hl := hfront l hl
  omega

/-! ## Balanced tokens -/

lemma balanced_nil : Balanced [] := balanced_iff.mpr rfl

lemma balanced_singleton (hopen : t.isOpenParen = false) (hclose : t.isCloseParen = false) :
    Balanced [t] := by
  obtain ⟨l, n⟩ := t
  cases l with
  | openParen => cases hopen
  | closeParen => cases hclose
  | _ => exact balanced_iff.mpr rfl

lemma Balanced.append (hl : Balanced l) (hr : Balanced r) : Balanced (l ++ r) := by
  rw [balanced_iff] at hl hr ⊢
  rw [depthAfter_append_of_eq hl, hr]

/-- Balanced tokens in parentheses. -/
lemma Balanced.enclosed (h : Balanced ts) (ho : o.isOpenParen = true)
    (ht : t.isCloseParen = true) : Balanced (o :: ts ++ [t]) := by
  obtain ⟨lo, no⟩ := o
  obtain ⟨lt, nt⟩ := t
  obtain rfl : lo = .openParen := of_decide_eq_true ho
  obtain rfl : lt = .closeParen := of_decide_eq_true ht
  have hinside : depthAfter 1 ts = some 1 := depthAfter_add (balanced_iff.mp h) 1
  have houtside : depthAfter 1 (ts ++ [⟨.closeParen, nt⟩]) = some 0 := by
    rw [depthAfter_append_of_eq hinside]
    rfl
  exact balanced_iff.mpr houtside

/-- Tokens that close no more than they open do not close a parenthesis that is opened before them.
-/
lemma not_balanced_of_countP_le (ho : o.isOpenParen = true)
    (hr : r.countP Token.isCloseParen ≤ r.countP Token.isOpenParen) : ¬ Balanced (l ++ o :: r) := by
  intro h
  have hclose : ¬ o.isCloseParen = true := by simp [Token.not_isCloseParen_of_isOpenParen ho]
  have hfront := h.front l (List.prefix_append ..)
  have hwhole := h.whole
  rw [List.countP_append, List.countP_append, List.countP_cons_of_neg hclose,
    List.countP_cons_of_pos ho] at hwhole
  omega

/-- A parenthesis that is opened before balanced tokens is never closed by them. -/
lemma not_balanced_append (ho : o.isOpenParen = true) (hts : Balanced ts) :
    ¬ Balanced (l ++ o :: ts) :=
  not_balanced_of_countP_le ho hts.whole.le

/-- Tokens that go on after balanced ones with a closing parenthesis are not balanced. -/
lemma Balanced.not_append_close (hl : Balanced l) (ht : t.isCloseParen = true) :
    ¬ Balanced (l ++ t :: r) := by
  obtain ⟨lt, n⟩ := t
  obtain rfl : lt = .closeParen := of_decide_eq_true ht
  rw [balanced_iff, depthAfter_append_of_eq (balanced_iff.mp hl)]
  nofun

/-! ## The innermost open parenthesis -/

/-- The tokens `outside` stand before the innermost of the parentheses that are open at the end of
`ts`. -/
def Encloses (outside ts : List Token) : Prop :=
  ∃ o inside, o.isOpenParen = true ∧ Balanced inside ∧ ts = outside ++ o :: inside

/-- Of the open parentheses one is the innermost. -/
theorem Encloses.unique {a b : List Token} (ha : Encloses a ts) (hb : Encloses b ts) : a = b := by
  obtain ⟨o, x, ho, hx, rfl⟩ := ha
  obtain ⟨q, y, hq, hy, heq⟩ := hb
  rcases List.append_eq_append_iff.mp heq with ⟨c, rfl, hc⟩ | ⟨c, rfl, hc⟩
  · cases c with
    | nil => exact (List.append_nil _).symm
    | cons _ c =>
      obtain ⟨rfl, rfl⟩ := List.cons.inj hc
      exact absurd hx (not_balanced_append hq hy)
  · cases c with
    | nil => exact List.append_nil _
    | cons _ c =>
      obtain ⟨rfl, rfl⟩ := List.cons.inj hc
      exact absurd hy (not_balanced_append ho hx)

lemma Balanced.not_encloses (h : Balanced ts) (outside : List Token) : ¬ Encloses outside ts := by
  rintro ⟨o, inside, ho, hinside, rfl⟩
  exact not_balanced_append ho hinside h

end Calculator
