import Calculator.Proofs.ParseTree

/-!
# The signs of a parse tree

Writing out the signs of a tree's tokens gives `Tree.written`: every group opens before its sign and
closes where the operand of the sign ends, whatever the tree stands in (`groupSignsFrom_yield`), so
that an expression by itself becomes its written tokens (`groupSigns_yield`).

What comes after an operand does not depend on how the operand ended, only on the groups that end
with it.  `afterOperand` is that rest, and the statement about a tree is one about it: a group is
closed exactly when the phrase after its sign is complete and nothing that binds tighter follows.

The pass also leaves no sign without an operand on its left, whatever tokens it is given
(`isChain_groupSigns`), and so it changes nothing when it is made again (`groupSigns_groupSigns`).
-/

namespace Calculator

/-! ## One step -/

/-- Of the token before, only whether an operand ends in it is asked. -/
lemma groupSignsFrom_congr {p q : Option Token} (h : isUnaryAfter p = isUnaryAfter q) (s : Nesting)
    (ts : List Token) : groupSignsFrom p s ts = groupSignsFrom q s ts := by
  cases ts with
  | nil => rfl
  | cons t rest => simp only [groupSignsFrom, h]

/-- The rest of an expression after an operand that has just ended in the nesting `s`. -/
def afterOperand (s : Nesting) (rest : List Token) : List Token :=
  if bindsTighter rest.head? then groupSignsFrom (some .closeParen) s rest
  else
    List.replicate (Nesting.closeGroups s.depth s.groups).1 .closeParen ++
      groupSignsFrom (some .closeParen) (Nesting.closeGroups s.depth s.groups).2 rest

/-- A sign before an operand opens a group. -/
lemma groupSignsFrom_sign {prev : Option Token} {t : Token} (hprev : isUnaryAfter prev = true)
    (ht : t.isSign = true) (s : Nesting) (rest : List Token) :
    groupSignsFrom prev s (t :: rest) =
      .openParen :: .number "0" :: t :: groupSignsFrom (some t) s.openGroup rest := by
  rw [groupSignsFrom, ht, hprev]
  rfl

/-- Any other token is kept as it is, and ends no group if it completes no operand. -/
lemma groupSignsFrom_cons {prev : Option Token} {t : Token}
    (hsign : (t.isSign && isUnaryAfter prev) = false) (ht : t.completesOperand = false)
    (s : Nesting) (rest : List Token) :
    groupSignsFrom prev s (t :: rest) = t :: groupSignsFrom (some t) (s.after t) rest := by
  simp [groupSignsFrom, hsign, ht]

/-- After a token that completes an operand comes what comes after an operand. -/
lemma groupSignsFrom_operand {t : Token} (ht : t.completesOperand = true) (prev : Option Token)
    (s : Nesting) (rest : List Token) :
    groupSignsFrom prev s (t :: rest) = t :: afterOperand (s.after t) rest := by
  have hafter : isUnaryAfter (some t) = isUnaryAfter (some .closeParen) :=
    isUnaryAfter_of_completesOperand ht
  rw [groupSignsFrom, Token.not_isSign_of_completesOperand ht, ht, afterOperand]
  cases bindsTighter rest.head? <;> simp [groupSignsFrom_congr hafter]

/-! ## After an operand -/

namespace Nesting

/-- No sign group has been opened further in than the place itself. -/
def Shallow (s : Nesting) : Prop := ∀ d ∈ s.groups.head?, d ≤ s.depth

/-- No sign group has been opened at the place itself, so that an operand ends none. -/
def Settled (s : Nesting) : Prop := ∀ d ∈ s.groups.head?, d < s.depth

variable {s : Nesting}

lemma Settled.shallow (h : s.Settled) : s.Shallow := fun d hd => (h d hd).le

lemma settled_nil {depth : Nat} : Settled ⟨depth, []⟩ := nofun

lemma settled_outside : outside.Settled := settled_nil

lemma shallow_openGroup (s : Nesting) : s.openGroup.Shallow := by
  rintro d ⟨⟩
  exact le_refl _

/-- Inside of a parenthesis that is not a group's, no group ends. -/
lemma Shallow.settled_succ (h : s.Shallow) : Settled ⟨s.depth + 1, s.groups⟩ :=
  fun d hd => Nat.lt_succ_of_le (h d hd)

lemma Settled.closeGroups (h : s.Settled) : closeGroups s.depth s.groups = (0, s) := by
  obtain ⟨depth, _ | ⟨d, groups⟩⟩ := s
  · rfl
  · have hd : d ≠ depth := (h d rfl).ne
    simp [Nesting.closeGroups, hd]

end Nesting

lemma afterOperand_of_bindsTighter {rest : List Token} (h : bindsTighter rest.head? = true)
    (s : Nesting) : afterOperand s rest = groupSignsFrom (some .closeParen) s rest := by
  rw [afterOperand, if_pos h]

lemma afterOperand_of_settled {s : Nesting} (h : s.Settled) (rest : List Token) :
    afterOperand s rest = groupSignsFrom (some .closeParen) s rest := by
  rw [afterOperand, h.closeGroups]
  simp

/-- A sign group ends with its operand, and with it whatever ends there. -/
lemma afterOperand_openGroup {rest : List Token} (h : bindsTighter rest.head? = false)
    (s : Nesting) : afterOperand s.openGroup rest = .closeParen :: afterOperand s rest := by
  simp [afterOperand, h, Nesting.openGroup, Nesting.closeGroups, List.replicate_succ]

/-- An operator or a separator after an operand that ends no group. -/
lemma afterOperand_cons {s : Nesting} {t : Token} (h : s.Settled ∨ bindsTighter (some t) = true)
    (ht : t.completesOperand = false) (hafter : s.after t = s) (rest : List Token) :
    afterOperand s (t :: rest) = t :: groupSignsFrom (some t) s rest := by
  have step : afterOperand s (t :: rest) = groupSignsFrom (some .closeParen) s (t :: rest) :=
    h.elim (fun hs => afterOperand_of_settled hs _) fun hb =>
      afterOperand_of_bindsTighter (show bindsTighter (t :: rest).head? = true from hb) s
  rw [step, groupSignsFrom_cons (Bool.and_false _) ht, hafter]

/-! ## Trees -/

/-- Where a phrase can stand for its groups to close at its end.  A phrase that an operator of the
weaker kinds can divide does not stand directly in a sign group, and only a base goes on with an
operator that binds tighter than a sign. -/
def Phrase.Fits (k : Phrase) (s : Nesting) (rest : List Token) : Prop :=
  match k with
  | .expression | .term | .arguments => s.Settled ∧ bindsTighter rest.head? = false
  | .signed | .power => s.Shallow ∧ bindsTighter rest.head? = false
  | .base | .atom _ => s.Shallow

/-- Two phrases with an operator or a separator between them. -/
lemma groupSignsFrom_joined {prev : Option Token} {s : Nesting} {l w r v rest : List Token}
    {t : Token} (ht : t.completesOperand = false) (hafter : s.after t = s)
    (hs : s.Settled ∨ bindsTighter (some t) = true)
    (hl : groupSignsFrom prev s (l ++ t :: (r ++ rest)) = w ++ afterOperand s (t :: (r ++ rest)))
    (hr : groupSignsFrom (some t) s (r ++ rest) = v ++ afterOperand s rest) :
    groupSignsFrom prev s ((l ++ t :: r) ++ rest) = (w ++ t :: v) ++ afterOperand s rest := by
  rw [List.append_assoc, List.cons_append, hl, afterOperand_cons hs ht hafter, hr,
    List.append_assoc, List.cons_append]

/-- A phrase in parentheses, before which the opening one has been read. -/
lemma groupSignsFrom_closed {s : Nesting} {l w rest : List Token} (hs : s.Shallow)
    (hl : groupSignsFrom (some .openParen) ⟨s.depth + 1, s.groups⟩ (l ++ .closeParen :: rest) =
      w ++ afterOperand ⟨s.depth + 1, s.groups⟩ (.closeParen :: rest)) :
    groupSignsFrom (some .openParen) ⟨s.depth + 1, s.groups⟩ (l ++ .closeParen :: rest) =
      w ++ .closeParen :: afterOperand s rest := by
  rw [hl, afterOperand_of_settled hs.settled_succ, groupSignsFrom_operand rfl]
  rfl

/-- A sign and the phrase that it stands before. -/
lemma groupSignsFrom_signed {prev : Option Token} {s : Nesting} {l w rest : List Token}
    (hprev : isUnaryAfter prev = true) (op : Sign) (hrest : bindsTighter rest.head? = false)
    (hl : groupSignsFrom (some op.1.token) s.openGroup (l ++ rest) =
      w ++ afterOperand s.openGroup rest) :
    groupSignsFrom prev s (op.1.token :: l ++ rest) =
      (.openParen :: .number "0" :: op.1.token :: w ++ [.closeParen]) ++ afterOperand s rest := by
  rw [List.cons_append, groupSignsFrom_sign hprev (by simp [op.2]), hl,
    afterOperand_openGroup hrest]
  simp

/-- The signs of a tree written out, before any rest in which the tree is complete. -/
theorem groupSignsFrom_yield {k : Phrase} (t : Tree k) {prev : Option Token} {s : Nesting}
    {rest : List Token} (hprev : isUnaryAfter prev = true) (hk : k.Fits s rest) :
    groupSignsFrom prev s (t.yield ++ rest) = t.written ++ afterOperand s rest := by
  induction t generalizing prev s rest with
  | ofTerm t ih | ofPower t ih | ofAtom t ih | last t ih => exact ih hprev hk
  | ofSigned u ih => exact ih hprev ⟨hk.1.shallow, hk.2⟩
  | ofBase t ih => exact ih hprev hk.1
  | sum l op r ihl ihr =>
    have hop : bindsTighter (some op.1.token) = false := by simp [op.2]
    exact groupSignsFrom_joined (by simp [op.ne_factorial]) rfl (.inl hk.1)
      (ihl hprev ⟨hk.1, hop⟩) (ihr (by simp [op.ne_factorial]) hk)
  | product l op r ihl ihr =>
    have hop : bindsTighter (some op.1.token) = false := by simp [op.2]
    exact groupSignsFrom_joined (by simp [op.ne_factorial]) rfl (.inl hk.1)
      (ihl hprev ⟨hk.1, hop⟩) (ihr (by simp [op.ne_factorial]) ⟨hk.1.shallow, hk.2⟩)
  | pow b u ihb ihu =>
    exact groupSignsFrom_joined rfl rfl (.inr rfl) (ihb hprev hk.1) (ihu rfl hk)
  | more e args ihe ihargs =>
    exact groupSignsFrom_joined rfl rfl (.inl hk.1) (ihe hprev ⟨hk.1, rfl⟩) (ihargs rfl hk)
  | unary op u ih =>
    exact groupSignsFrom_signed hprev op hk.2
      (ih (by simp [op.ne_factorial]) ⟨s.shallow_openGroup, hk.2⟩)
  | signCall name op u ih =>
    have hunary : isUnaryAfter (some (.ofLexeme (.function name))) = true := rfl
    have hu := groupSignsFrom_signed hunary op hk.2
      (ih (by simp [op.ne_factorial]) ⟨s.shallow_openGroup, hk.2⟩)
    rw [Tree.yield, List.cons_append, groupSignsFrom_cons rfl rfl, Tree.written]
    exact congrArg _ hu
  | factorial a ih =>
    rw [Tree.yield, List.append_assoc, ih hprev hk, Tree.written, List.append_assoc]
    rw [afterOperand_of_bindsTighter rfl, List.singleton_append, groupSignsFrom_operand rfl]
    rfl
  | number text => exact groupSignsFrom_operand rfl ..
  | constant name => exact groupSignsFrom_operand rfl ..
  | unknown => exact groupSignsFrom_operand rfl ..
  | group e ih =>
    have hrest : bindsTighter (Token.closeParen :: rest).head? = false := rfl
    have he := groupSignsFrom_closed hk (ih rfl ⟨hk.settled_succ, hrest⟩)
    rw [Tree.yield, List.append_assoc, List.cons_append, groupSignsFrom_cons rfl rfl, Tree.written,
      List.append_assoc]
    exact congrArg _ he
  | call name args ih =>
    have hrest : bindsTighter (Token.closeParen :: rest).head? = false := rfl
    have hargs := groupSignsFrom_closed hk (ih rfl ⟨hk.settled_succ, hrest⟩)
    rw [Tree.yield, List.append_assoc, List.cons_append, groupSignsFrom_cons rfl rfl,
      List.cons_append, groupSignsFrom_cons rfl rfl, Tree.written, List.append_assoc]
    exact congrArg _ (congrArg _ hargs)

/-- The tokens of an expression with their signs written out. -/
theorem groupSigns_yield (t : Tree .expression) : groupSigns t.yield = t.written := by
  have h : groupSignsFrom none .outside (t.yield ++ []) = t.written ++ afterOperand .outside [] :=
    groupSignsFrom_yield t rfl ⟨Nesting.settled_outside, rfl⟩
  rw [List.append_nil, afterOperand_of_settled Nesting.settled_outside] at h
  exact h.trans (List.append_nil _)

/-! ## Neighbours

Any tokens at all, whether or not they are an expression.  Writing out their signs puts parentheses
and zeros between them and separates a sign from what stood before it, so what holds of neighbours
afterwards is what held before, if the tokens put in do not matter to it. -/

/-- A relation of neighbours to which the tokens of a sign group do not matter. -/
structure Permits (R : Token → Token → Prop) : Prop where
  before_open : ∀ a, R a .openParen
  open_zero : R .openParen (.number "0")
  zero_sign : ∀ t : Token, t.isSign = true → R (.number "0") t
  before_close : ∀ a, R a .closeParen
  after_close : ∀ b, R .closeParen b

variable {R : Token → Token → Prop}

lemma Permits.isChain_replicate (hR : Permits R) {p : Token} {l : List Token}
    (hp : (p :: l).IsChain R) (hclose : (.closeParen :: l).IsChain R) (n : Nat) :
    (p :: (List.replicate n .closeParen ++ l)).IsChain R := by
  induction n generalizing p with
  | zero => exact hp
  | succ n ih => exact .cons_cons (hR.before_close p) (ih hclose)

/-- The neighbours in tokens whose signs have been written out. -/
theorem Permits.isChain_groupSignsFrom (hR : Permits R) (prev : Option Token) {p : Token}
    {ts : List Token} (hp : isUnaryAfter prev = isUnaryAfter (some p))
    (h : (p :: ts).IsChain fun a b => (b.isSign && isUnaryAfter (some a)) = false → R a b)
    (s : Nesting) : (p :: groupSignsFrom prev s ts).IsChain R := by
  induction ts generalizing prev p s with
  | nil =>
    have := hR.isChain_replicate (.singleton p) (.singleton _) s.groups.length
    rwa [List.append_nil] at this
  | cons t rest ih =>
    obtain ⟨hpt, hrest⟩ := List.isChain_cons_cons.mp h
    by_cases hsign : (t.isSign && isUnaryAfter prev) = true
    · obtain ⟨ht, hprev⟩ := Bool.and_eq_true_iff.mp hsign
      rw [groupSignsFrom_sign hprev ht]
      exact .cons_cons (hR.before_open p) (.cons_cons hR.open_zero
        (.cons_cons (hR.zero_sign t ht) (ih _ rfl hrest _)))
    · have hfalse := Bool.eq_false_iff.mpr hsign
      have step : R p t := hpt (hp ▸ hfalse)
      cases ht : t.completesOperand with
      | false =>
        rw [groupSignsFrom_cons hfalse ht]
        exact .cons_cons step (ih _ rfl hrest _)
      | true =>
        have hunary := isUnaryAfter_of_completesOperand ht
        have hclose : (.closeParen :: rest).IsChain fun a b =>
            (b.isSign && isUnaryAfter (some a)) = false → R a b :=
          hrest.imp_head fun _ _ => hR.after_close _
        -- A closing parenthesis that is put in is as good a neighbour as the operand before it.
        have direct (s) : (t :: groupSignsFrom (some .closeParen) s rest).IsChain R :=
          ih (some .closeParen) hunary.symm hrest s
        rw [groupSignsFrom_operand ht, afterOperand]
        split
        · exact .cons_cons step (direct _)
        · exact .cons_cons step (hR.isChain_replicate (direct _) (ih _ rfl hclose _) _)

/-- Neighbours in tokens remain neighbours of the same kind when the signs are written out. -/
lemma Permits.isChain_groupSigns (hR : Permits R) {ts : List Token} (h : ts.IsChain R)
    (hopen : ∀ b ∈ ts.head?, R .openParen b) : (groupSigns ts).IsChain R := by
  have hchain : (.openParen :: ts).IsChain fun a b =>
      (b.isSign && isUnaryAfter (some a)) = false → R a b :=
    (h.imp fun a b hab (_ : (b.isSign && isUnaryAfter (some a)) = false) => hab).cons
      fun b hb _ => hopen b hb
  exact (hR.isChain_groupSignsFrom none rfl hchain _).of_cons

/-- A sign between two operands: none is left where the operand on the left is missing. -/
def SignHasLeft (a b : Token) : Prop := b.isSign = true → isUnaryAfter (some a) = false

lemma permits_signHasLeft : Permits SignHasLeft where
  before_open _ h := absurd h (by decide)
  open_zero h := absurd h (by decide)
  zero_sign _ _ _ := rfl
  before_close _ h := absurd h (by decide)
  after_close _ _ := rfl

/-- Written out, no sign is without an operand on its left, whatever the tokens were. -/
theorem isChain_groupSigns (ts : List Token) :
    (.openParen :: groupSigns ts).IsChain SignHasLeft := by
  have always : (.openParen :: ts).IsChain fun a b =>
      (b.isSign && isUnaryAfter (some a)) = false → SignHasLeft a b :=
    (List.isChain_isInfix _).imp fun a b _ hab hb => by simpa [hb] using hab
  exact permits_signHasLeft.isChain_groupSignsFrom none rfl always _

/-! ## Signs written out again -/

/-- Tokens in which every sign has an operand on its left stay as they are outside of a group. -/
lemma groupSignsFrom_eq_self (prev : Option Token) {p : Token} {ts : List Token}
    (hp : isUnaryAfter prev = isUnaryAfter (some p)) (h : (p :: ts).IsChain SignHasLeft)
    (depth : Nat) : groupSignsFrom prev ⟨depth, []⟩ ts = ts := by
  induction ts generalizing prev p depth with
  | nil => rfl
  | cons t rest ih =>
    obtain ⟨hpt, hrest⟩ := List.isChain_cons_cons.mp h
    have hsign : (t.isSign && isUnaryAfter prev) = false := by
      rw [hp, Bool.and_eq_false_imp]
      exact hpt
    -- The depth may change with a parenthesis, but no group is opened.
    obtain ⟨inner, hinner⟩ : ∃ inner, Nesting.after ⟨depth, []⟩ t = ⟨inner, []⟩ := by
      unfold Nesting.after
      split
      · exact ⟨_, rfl⟩
      · exact ⟨_, rfl⟩
      · exact ⟨_, rfl⟩
    by_cases ht : t.completesOperand = true
    · have hunary : isUnaryAfter (some .closeParen) = isUnaryAfter (some t) :=
        (isUnaryAfter_of_completesOperand ht).symm
      rw [groupSignsFrom_operand ht, hinner, afterOperand_of_settled Nesting.settled_nil,
        ih _ hunary hrest]
    · rw [groupSignsFrom_cons hsign (Bool.eq_false_iff.mpr ht), hinner, ih _ rfl hrest]

/-- Writing out signs a second time changes nothing, whatever the tokens were. -/
theorem groupSigns_groupSigns (ts : List Token) : groupSigns (groupSigns ts) = groupSigns ts :=
  groupSignsFrom_eq_self none rfl (isChain_groupSigns ts) 0

/-- Writing out signs puts in nothing but parentheses and zeros. -/
lemma forall_mem_groupSignsFrom {P : Token → Prop} (hopen : P .openParen) (hzero : P (.number "0"))
    (hclose : P .closeParen) (prev : Option Token) (s : Nesting) {ts : List Token}
    (h : ∀ t ∈ ts, P t) : ∀ t ∈ groupSignsFrom prev s ts, P t := by
  have hreplicate (n : Nat) : ∀ t ∈ List.replicate n Token.closeParen, P t := by
    intro t ht
    rwa [List.eq_of_mem_replicate ht]
  induction ts generalizing prev s with
  | nil => exact hreplicate _
  | cons t rest ih =>
    obtain ⟨ht, hrest⟩ := List.forall_mem_cons.mp h
    rw [groupSignsFrom]
    split
    · simp only [List.forall_mem_cons]
      exact ⟨hopen, hzero, ht, ih _ _ hrest⟩
    · exact List.forall_mem_cons.mpr
        ⟨ht, List.forall_mem_append.mpr ⟨hreplicate _, ih _ _ hrest⟩⟩

end Calculator
