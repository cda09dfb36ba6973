import Calculator.Proofs.Balance

/-!
# What writing out signs puts in

Writing out signs moves no token and leaves none out.  `Grouped` says of two sequences that the
second is the first with `(0` before every lone sign and with a closing parenthesis, somewhere after
it, for every `(0`; it knows nothing of depths and of where an operand ends.  Whatever the tokens
are, written out they are related in that way to what they were (`grouped_groupSignsFrom`): the pass
opens one group for each entry of its list of groups, and every entry that leaves the list closes
one.

The depth of the pass is reduced with every group that it closes.  `groupSigns?` is the same pass
with a depth that may not fall below zero, and it never fails: a group is only closed at the depth
at which it was opened, and no group is opened at depth zero (`groupSignsFrom?_eq_some`).
-/

namespace Calculator

variable {prev : Option Token} {t : Token} {ts out : List Token} {n : Nat} {s : Nesting}

/-! ## Lone signs -/

/-- A plus or a minus without an operand on its left: it comes first, or after an operator other
than the factorial, an opening parenthesis, a function or a separator. -/
def IsLoneSign (prev : Option Token) (t : Token) : Prop :=
  t.isSign = true ∧ ∀ p ∈ prev, p.isOperator = true ∧ p.isFactorial = false ∨
    p.isOpenParen = true ∨ p.isFunction = true ∨ p.lexeme = .separator

instance (prev : Option Token) (t : Token) : Decidable (IsLoneSign prev t) :=
  inferInstanceAs (Decidable (_ ∧ _))

/-- How many signs without an operand on their left there are after the token `prev`. -/
def loneSigns (prev : Option Token) : List Token → Nat
  | [] => 0
  | t :: ts => (if IsLoneSign prev t then 1 else 0) + loneSigns (some t) ts

/-- The lone signs are those that the pass takes for them. -/
lemma isLoneSign_iff : IsLoneSign prev t ↔ (t.isSign && isUnaryAfter prev) = true := by
  rw [IsLoneSign, Bool.and_eq_true_iff]
  refine and_congr_right fun _ => ?_
  cases prev with
  | none => simp [isUnaryAfter]
  | some p =>
    obtain ⟨l, k⟩ := p
    cases l <;> simp [isUnaryAfter, Token.isOperator, Token.isFactorial, Token.isSymbol,
      Token.isOpenParen, Token.isFunction]

/-! ## Groups put in -/

/-- After the token `prev` and inside of `n` groups, the tokens `ts` have become `out`: a group has
been opened before each lone sign, all groups have been closed, and the tokens stand in between as
they did. -/
inductive Grouped : Option Token → Nat → List Token → List Token → Prop
  | done {prev : Option Token} : Grouped prev 0 [] []
  | close {prev : Option Token} {n : Nat} {ts out : List Token} (h : Grouped prev n ts out) :
      Grouped prev (n + 1) ts (.closeParen :: out)
  | sign {prev : Option Token} {t : Token} {n : Nat} {ts out : List Token}
      (ht : IsLoneSign prev t) (h : Grouped (some t) (n + 1) ts out) :
      Grouped prev n (t :: ts) (.openParen :: .number "0" :: t :: out)
  | keep {prev : Option Token} {t : Token} {n : Nat} {ts out : List Token}
      (ht : ¬ IsLoneSign prev t) (h : Grouped (some t) n ts out) :
      Grouped prev n (t :: ts) (t :: out)

/-- The tokens that are put in for one sign. -/
def groupTokens : List Token := [.openParen, .number "0", .closeParen]

namespace Grouped

/-- Several groups that end at one place. -/
lemma closes (h : Grouped prev n ts out) (k : Nat) :
    Grouped prev (k + n) ts (List.replicate k .closeParen ++ out) := by
  induction k with
  | zero => rwa [Nat.zero_add]
  | succ k ih =>
    rw [Nat.add_right_comm]
    exact ih.close

/-- What has been put in: two tokens before each lone sign, and a closing parenthesis for each group
that is open before or opened for a sign. -/
lemma count_eq (h : Grouped prev n ts out) (a : Token) :
    out.count a = ts.count a + loneSigns prev ts * groupTokens.count a +
      n * [Token.closeParen].count a := by
  induction h with
  | done => simp [loneSigns]
  | close _ ih =>
    rw [← List.singleton_append, List.count_append, ih, Nat.succ_mul]
    omega
  | @sign prev t n ts out ht _ ih =>
    have hout : .openParen :: .number "0" :: t :: out = [Token.openParen, .number "0", t] ++ out :=
      rfl
    have hgroup : [Token.openParen, .number "0", t].count a + [Token.closeParen].count a =
        groupTokens.count a + [t].count a := by
      simp only [groupTokens, List.count_cons, List.count_nil]
      omega
    have hts : t :: ts = [t] ++ ts := rfl
    rw [hout, List.count_append, ih, loneSigns, if_pos ht, hts, List.count_append]
    simp only [Nat.add_mul, Nat.one_mul]
    omega
  | keep ht _ ih =>
    rw [List.count_cons, List.count_cons, ih, loneSigns, if_neg ht, Nat.zero_add]
    omega

/-- Outside of every group, as many groups have been put in as there are lone signs. -/
lemma perm (h : Grouped prev 0 ts out) :
    out.Perm (ts ++ (List.replicate (loneSigns prev ts) groupTokens).flatten) := by
  refine List.perm_iff_count.mpr fun a => ?_
  rw [h.count_eq a, List.count_append, List.count_flatten, List.map_replicate,
    List.sum_replicate_nat]
  simp

end Grouped

/-- A group that ends leaves the list of groups. -/
lemma Nesting.length_closeGroups (depth : Nat) (groups : List Nat) :
    (closeGroups depth groups).1 + (closeGroups depth groups).2.groups.length = groups.length := by
  induction groups generalizing depth with
  | nil => rfl
  | cons d groups ih =>
    unfold closeGroups
    split
    · rw [List.length_cons, ← ih (depth - 1)]
      exact Nat.add_right_comm ..
    · exact Nat.zero_add _

lemma Nesting.after_groups (s : Nesting) (t : Token) : (s.after t).groups = s.groups := by
  unfold after
  split <;> rfl

/-- The groups that the pass has opened are those it closes. -/
theorem grouped_groupSignsFrom (prev : Option Token) (s : Nesting) (ts : List Token) :
    Grouped prev s.groups.length ts (groupSignsFrom prev s ts) := by
  induction ts generalizing prev s with
  | nil =>
    have hdone : Grouped prev 0 [] [] := .done
    have h := hdone.closes s.groups.length
    rwa [List.append_nil] at h
  | cons t ts ih =>
    by_cases ht : IsLoneSign prev t
    · obtain ⟨hsign, hprev⟩ := Bool.and_eq_true_iff.mp (isLoneSign_iff.mp ht)
      rw [groupSignsFrom_sign hprev hsign]
      exact .sign ht (ih (some t) s.openGroup)
    · rw [groupSignsFrom, if_neg (mt isLoneSign_iff.mpr ht)]
      refine .keep ht ?_
      rw [← s.after_groups t]
      cases t.completesOperand && !bindsTighter ts.head? with
      | false => exact ih (some t) (s.after t)
      | true =>
        rw [← Nesting.length_closeGroups (s.after t).depth (s.after t).groups]
        exact (ih (some t) _).closes _

/-! ## The depth -/

/-- `closeGroups` with a depth that cannot be reduced below zero: none if it would have to be. -/
def Nesting.closeGroups? : Nat → List Nat → Option (Nat × Nesting)
  | depth, [] => some (0, ⟨depth, []⟩)
  | depth, d :: groups =>
    if d = depth then
      if depth = 0 then none
      else (closeGroups? (depth - 1) groups).map fun (closed, s) => (closed + 1, s)
    else some (0, ⟨depth, d :: groups⟩)

/-- `groupSignsFrom` with a depth that cannot be reduced below zero. -/
def groupSignsFrom? (prev : Option Token) (s : Nesting) : List Token → Option (List Token)
  | [] => some (List.replicate s.groups.length Token.closeParen)
  | t :: rest =>
    if t.isSign && isUnaryAfter prev then
      (groupSignsFrom? (some t) s.openGroup rest).map fun out =>
        Token.openParen :: Token.number "0" :: t :: out
    else do
      let inner := s.after t
      let (closed, next) ←
        if t.completesOperand && !bindsTighter rest.head? then
          Nesting.closeGroups? inner.depth inner.groups
        else some (0, inner)
      let out ← groupSignsFrom? (some t) next rest
      return t :: (List.replicate closed Token.closeParen ++ out)

/-- `groupSigns` with a depth that cannot be reduced below zero. -/
def groupSigns? (tokens : List Token) : Option (List Token) :=
  groupSignsFrom? none .outside tokens

/-- No group was opened at depth zero. -/
def Nesting.Grounded (groups : List Nat) : Prop := ∀ d ∈ groups, 0 < d

namespace Nesting.Grounded

variable {groups : List Nat}

lemma outside : Grounded outside.groups := List.forall_mem_nil _

lemma openGroup (h : Grounded s.groups) : Grounded s.openGroup.groups :=
  List.forall_mem_cons.mpr ⟨s.depth.succ_pos, h⟩

/-- A group ends at the depth where it was opened, so that something can be taken off. -/
lemma closeGroups?_eq_some (h : Grounded groups) (depth : Nat) :
    closeGroups? depth groups = some (closeGroups depth groups) := by
  induction groups generalizing depth with
  | nil => rfl
  | cons d groups ih =>
    obtain ⟨hd, hgroups⟩ := List.forall_mem_cons.mp h
    unfold closeGroups? closeGroups
    split
    next heq =>
      have hdepth : depth ≠ 0 := (heq ▸ hd).ne'
      rw [if_neg hdepth, ih hgroups]
      rfl
    · rfl

lemma closeGroups (h : Grounded groups) (depth : Nat) :
    Grounded (closeGroups depth groups).2.groups := by
  induction groups generalizing depth with
  | nil => exact h
  | cons d groups ih =>
    unfold Nesting.closeGroups
    split
    · exact ih (List.forall_mem_cons.mp h).2 (depth - 1)
    · exact h

end Nesting.Grounded

/-- Whatever the tokens are, no depth is reduced below zero. -/
theorem groupSignsFrom?_eq_some (prev : Option Token) (hs : Nesting.Grounded s.groups)
    (ts : List Token) : groupSignsFrom? prev s ts = some (groupSignsFrom prev s ts) := by
  induction ts generalizing prev s with
  | nil => rfl
  | cons t ts ih =>
    have hafter : Nesting.Grounded (s.after t).groups := by rwa [Nesting.after_groups]
    unfold groupSignsFrom? groupSignsFrom
    cases t.isSign && isUnaryAfter prev with
    | true => simp [ih _ hs.openGroup]
    | false =>
      cases t.completesOperand && !bindsTighter ts.head? with
      | true => simp [hafter.closeGroups?_eq_some, ih _ (hafter.closeGroups _)]
      | false => simp [ih _ hafter]

/-! ## Any tokens -/

/-- Whatever the tokens are, writing out their signs puts a group around each lone sign and does
nothing else, never reduces the depth below zero, and leaves balanced tokens balanced. -/
theorem grouped_groupSigns (ts : List Token) :
    Grouped none 0 ts (groupSigns ts) ∧
      (groupSigns ts).Perm (ts ++ (List.replicate (loneSigns none ts) groupTokens).flatten) ∧
      groupSigns? ts = some (groupSigns ts) ∧
      (Balanced ts → Balanced (groupSigns ts)) := by
  have hgrouped : Grouped none 0 ts (groupSigns ts) := grouped_groupSignsFrom none .outside ts
  refine ⟨hgrouped, hgrouped.perm, groupSignsFrom?_eq_some none .outside ts, fun h => ?_⟩
  exact balanced_iff.mpr (depthAfter_groupSigns (balanced_iff.mp h))

/-- `(-2` with its parenthesis closed stays balanced. -/
theorem grouped_groupSigns_parenthesized :
    Balanced [.openParen, .operator "-", .number "2", .closeParen] ∧
      Balanced (groupSigns [.openParen, .operator "-", .number "2", .closeParen]) := by
  have h : Balanced [.openParen, .operator "-", .number "2", .closeParen] :=
    balanced_iff.mpr (by decide)
  exact ⟨h, (grouped_groupSigns _).2.2.2 h⟩

/-- The groups of signs that stand without an operand end where the tokens end, and a parenthesis
that closes nothing stays as it is. -/
example :
    groupSigns [.closeParen, .number "5", .operator "*", .operator "-", .operator "-"] =
      [.closeParen, .number "5", .operator "*", .openParen, .number "0", .operator "-",
        .openParen, .number "0", .operator "-", .closeParen, .closeParen] := by
  decide

end Calculator
