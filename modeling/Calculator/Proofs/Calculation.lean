import Calculator.Proofs.StackHeight

/-!
# Calculations

What the stack machine computes is a tree: every operator and function has its operands below it,
and a number, a constant or the unknown has none.  A `Calculation` is such a tree, of any shape and
with any names, whether or not it comes from an expression.  `Calculation.value` evaluates it from
the left, its operands first, and the first fault is the fault of the whole.
`Calculation.listing` is its tokens, those of the operands before the token over them.

The machine evaluates calculations and nothing else (`run_listing_and_existsUnique`).  A run over a
listing comes to the value of its calculation, or to the fault of it, on top of whatever was on the
stack before (`steps_listing`).  The other way round, a run that succeeds has put together a
calculation for every value on its stack (`exists_listings_of_steps`), and the tokens of
calculations in a row tell where each of them begins (`listings_injective`), because the last token
says how many of those before it are its operands.
-/

namespace Calculator

/-! ## Trees -/

/-- A tree of operations.  Each node carries the argument count of its token; in a call it is the
number of arguments. -/
inductive Calculation
  | number (text : String) (arity : Nat)
  | constant (name : String) (arity : Nat)
  | unknown (arity : Nat)
  | factorial (operand : Calculation) (arity : Nat)
  | binary (symbol : { symbol : String // symbol ≠ "!" }) (left right : Calculation) (arity : Nat)
  | call (name : String) (arguments : List Calculation)

namespace Calculation

mutual

/-- The value of a tree: its operands from the left, and then the operation on their values. -/
def value : Calculation → Except Fault Float
  | .number text _ => Machine.numberValue text
  | .constant name _ => Machine.constantValue name
  | .unknown _ => .error (.evaluation (.notEvaluable "x"))
  | .factorial operand _ => do
    let n ← operand.value
    Calculator.factorial n
  | .binary symbol left right _ => do
    let l ← left.value
    let r ← right.value
    Machine.applyOperator symbol l r
  | .call name arguments => do
    let xs ← values arguments
    match Builtin.ofName? name with
    | some f => f.apply xs
    | none => .error (.evaluation (.unknownFunction name))

/-- The values of trees from the left, up to the first fault. -/
def values : List Calculation → Except Fault (List Float)
  | [] => .ok []
  | t :: ts => do
    let x ← t.value
    let xs ← values ts
    return x :: xs

end

mutual

/-- The tokens of a tree, operands before the token over them. -/
def listing : Calculation → List Token
  | .number text n => [⟨.number text, n⟩]
  | .constant name n => [⟨.constant name, n⟩]
  | .unknown n => [⟨.unknown, n⟩]
  | .factorial operand n => operand.listing ++ [⟨.operator "!", n⟩]
  | .binary symbol left right n => left.listing ++ right.listing ++ [⟨.operator symbol, n⟩]
  | .call name arguments => listings arguments ++ [⟨.function name, arguments.length⟩]

/-- The tokens of trees in a row. -/
def listings : List Calculation → List Token
  | [] => []
  | t :: ts => t.listing ++ listings ts

end

@[simp] lemma listings_append (ts us : List Calculation) :
    listings (ts ++ us) = listings ts ++ listings us := by
  induction ts with
  | nil => rfl
  | cons t ts ih => simp [listings, ih]

lemma listings_singleton (t : Calculation) : listings [t] = t.listing := by
  simp [listings]

lemma length_of_values {ts : List Calculation} {xs : List Float} (h : values ts = .ok xs) :
    xs.length = ts.length := by
  induction ts generalizing xs with
  | nil =>
    cases h
    rfl
  | cons t ts ih =>
    rw [values] at h
    obtain ⟨x, -, h⟩ := of_bind_eq_ok h
    obtain ⟨ys, hys, h⟩ := of_bind_eq_ok h
    cases h
    rw [List.length_cons, List.length_cons, ih hys]

/-! ## From a tree to its value -/

section Run

variable (st : Stack) (q : List Token)

open Machine in
/-- An operation whose result goes on top of the stack. -/
lemma bind_steps (x : Except Fault Float) :
    (x.map (· :: st) >>= fun st => steps st q) = x >>= fun v => steps (v :: st) q := by
  cases x <;> rfl

/-- A call finds its arguments on top of the stack, the last of them uppermost. -/
lemma runFunction_reverse (name : String) (xs : List Float) :
    Machine.runFunction name xs.length (xs.reverse ++ st) =
      (match Builtin.ofName? name with
        | some f => f.apply xs
        | none => .error (.evaluation (.unknownFunction name))).map (· :: st) := by
  have hlength : ¬ (xs.reverse ++ st).length < xs.length := by
    rw [List.length_append, List.length_reverse]
    omega
  have htake : (xs.reverse ++ st).take xs.length = xs.reverse :=
    List.take_left' List.length_reverse
  have hdrop : (xs.reverse ++ st).drop xs.length = st :=
    List.drop_left' List.length_reverse
  unfold Machine.runFunction
  cases Builtin.ofName? name with
  | none => rfl
  | some f => simp only [if_neg hlength, htake, hdrop, List.reverse_reverse]

end Run

mutual

/-- A run over the tokens of a tree puts its value on the stack, or ends with its fault. -/
theorem steps_listing (t : Calculation) (st : Stack) (q : List Token) :
    Machine.steps st (t.listing ++ q) = t.value >>= fun v => Machine.steps (v :: st) q := by
  cases t with
  | number text n => exact bind_steps st q (Machine.numberValue text)
  | constant name n => exact bind_steps st q (Machine.constantValue name)
  | unknown n => rfl
  | factorial operand n =>
    rw [listing, List.append_assoc, steps_listing operand, value, bind_assoc]
    congr 1
    funext v
    exact bind_steps st q (Calculator.factorial v)
  | binary symbol left right n =>
    rw [listing, List.append_assoc, List.append_assoc, steps_listing left, value, bind_assoc]
    congr 1
    funext l
    rw [steps_listing right, bind_assoc]
    congr 1
    funext r
    have hstep : Machine.step (r :: l :: st) ⟨.operator symbol, n⟩ =
        (Machine.applyOperator symbol l r).map (· :: st) := by
      simp [Machine.step, Machine.runOperator, symbol.2]
    rw [List.singleton_append, Machine.steps, hstep]
    exact bind_steps st q _
  | call name arguments =>
    rw [listing, List.append_assoc, steps_listings arguments, value, bind_assoc]
    cases hvalues : values arguments with
    | error fault => rfl
    | ok xs =>
      have hstep : Machine.step (xs.reverse ++ st) ⟨.function name, arguments.length⟩ = _ :=
        length_of_values hvalues ▸ runFunction_reverse st name xs
      rw [bind_of_eq_ok rfl, bind_of_eq_ok rfl, List.singleton_append, Machine.steps, hstep]
      exact bind_steps st q _

/-- A run over the tokens of trees in a row puts their values on the stack, the last on top. -/
theorem steps_listings (ts : List Calculation) (st : Stack) (q : List Token) :
    Machine.steps st (listings ts ++ q) =
      values ts >>= fun xs => Machine.steps (xs.reverse ++ st) q := by
  cases ts with
  | nil => rfl
  | cons t ts =>
    rw [listings, List.append_assoc, steps_listing t, values, bind_assoc]
    congr 1
    funext x
    rw [steps_listings ts, bind_assoc]
    congr 1
    funext xs
    simp

end

/-- A run over the tokens of a tree by itself. -/
theorem run_listing (t : Calculation) : run t.listing = t.value := by
  have hsteps := steps_listing t [] []
  rw [List.append_nil] at hsteps
  rw [run, hsteps]
  cases t.value <;> rfl

/-! ## From a run to its tree -/

/-- The token over the operands of a tree. -/
def root : Calculation → Token
  | .number text n => ⟨.number text, n⟩
  | .constant name n => ⟨.constant name, n⟩
  | .unknown n => ⟨.unknown, n⟩
  | .factorial _ n => ⟨.operator "!", n⟩
  | .binary symbol _ _ n => ⟨.operator symbol, n⟩
  | .call name arguments => ⟨.function name, arguments.length⟩

/-- The trees directly below the root. -/
def operands : Calculation → List Calculation
  | .number .. | .constant .. | .unknown _ => []
  | .factorial operand _ => [operand]
  | .binary _ left right _ => [left, right]
  | .call _ arguments => arguments

lemma listing_eq (t : Calculation) : t.listing = listings t.operands ++ [t.root] := by
  cases t <;> simp [listing, listings, operands, root]

/-- The token over the operands says how many there are. -/
lemma length_operands (t : Calculation) : t.operands.length = t.root.operands := by
  cases t with
  | binary symbol _ _ _ => simp [operands, root, Token.operands, symbol.2]
  | _ => rfl

/-- A tree is known by its root and its operands. -/
lemma eq_of_root {t u : Calculation} (hroot : t.root = u.root) (h : t.operands = u.operands) :
    t = u := by
  cases t with
  | binary symbol _ _ _ =>
    cases u with
    | factorial _ _ => exact absurd (congrArg List.length h) (by simp [operands])
    | _ => simp_all [root, operands, Subtype.ext_iff]
  | _ => cases u <;> simp_all [root, operands]

/-- The tokens of trees in a row tell the trees apart. -/
theorem listings_injective : Function.Injective listings := by
  intro ts us h
  -- The last token decides which trees before it are its operands, and these are again a row.
  induction hlength : (listings ts).length using Nat.strong_induction_on generalizing ts us with
  | _ n ih =>
    rcases List.eq_nil_or_concat ts with rfl | ⟨ts, t, rfl⟩
    · rcases List.eq_nil_or_concat us with rfl | ⟨us, u, rfl⟩
      · rfl
      · simp [listings, listing_eq] at h
    rcases List.eq_nil_or_concat us with rfl | ⟨us, u, rfl⟩
    · simp [listings, listing_eq] at h
    have hts (ts : List Calculation) (t : Calculation) :
        listings (ts ++ [t]) = listings (ts ++ t.operands) ++ [t.root] := by
      rw [listings_append, listings_singleton, listing_eq, listings_append, List.append_assoc]
    simp only [List.concat_eq_append, hts] at h hlength ⊢
    obtain ⟨hrow, hroot⟩ := List.append_inj' h rfl
    have hshort : (listings (ts ++ t.operands)).length < n := by
      rw [← hlength, List.length_append]
      exact Nat.lt_succ_self _
    obtain hrow := ih _ hshort hrow rfl
    have hroot : t.root = u.root := List.singleton_inj.mp hroot
    have hlength : t.operands.length = u.operands.length := by
      rw [length_operands, length_operands, hroot]
    obtain ⟨hts, hoperands⟩ := List.append_inj' hrow hlength
    rw [hts, eq_of_root hroot hoperands]

/-- A token that the machine can run is the root of a tree over any operands of the right number. -/
lemma exists_root_of_step {st st' : Stack} {t : Token} (h : Machine.step st t = .ok st')
    {ts : List Calculation} (hts : ts.length = t.operands) :
    ∃ u : Calculation, u.root = t ∧ u.operands = ts := by
  obtain ⟨l, n⟩ := t
  cases l with
  | number text =>
    obtain rfl := List.length_eq_zero_iff.mp hts
    exact ⟨.number text n, rfl, rfl⟩
  | constant name =>
    obtain rfl := List.length_eq_zero_iff.mp hts
    exact ⟨.constant name n, rfl, rfl⟩
  | operator symbol =>
    by_cases hsymbol : symbol = "!"
    · subst hsymbol
      obtain ⟨operand, rfl⟩ := List.length_eq_one_iff.mp hts
      exact ⟨.factorial operand n, rfl, rfl⟩
    · have htwo : ts.length = 2 := by simpa [Token.operands, hsymbol] using hts
      obtain ⟨left, right, rfl⟩ := List.length_eq_two.mp htwo
      exact ⟨.binary ⟨symbol, hsymbol⟩ left right n, rfl, rfl⟩
  | function name =>
    obtain rfl : ts.length = n := hts
    exact ⟨.call name ts, rfl, rfl⟩
  | _ => cases h

/-- One step puts the trees of its operands together to one. -/
lemma exists_listings_of_step {st st' : Stack} {t : Token} (h : Machine.step st t = .ok st')
    {ts : List Calculation} (hts : ts.length = st.length) :
    ∃ us : List Calculation, us.length = st'.length ∧ listings us = listings ts ++ [t] := by
  obtain ⟨henough, hlength⟩ := Machine.length_of_step h
  have hoperands : (ts.drop (ts.length - t.operands)).length = t.operands := by
    rw [List.length_drop]
    omega
  obtain ⟨u, hroot, hu⟩ := exists_root_of_step h hoperands
  refine ⟨ts.take (ts.length - t.operands) ++ [u], ?_, ?_⟩
  · rw [List.length_append, List.length_take, List.length_singleton, hlength]
    omega
  · rw [listings_append, listings_singleton, listing_eq, hroot, hu, ← List.append_assoc,
      ← listings_append, List.take_append_drop]

/-- A run that succeeds has put together a tree for every value on its stack. -/
theorem exists_listings_of_steps {st st' : Stack} {q : List Token}
    (h : Machine.steps st q = .ok st') {ts : List Calculation} (hts : ts.length = st.length) :
    ∃ us : List Calculation, us.length = st'.length ∧ listings us = listings ts ++ q := by
  induction q generalizing st ts with
  | nil =>
    cases h
    exact ⟨ts, hts, (List.append_nil _).symm⟩
  | cons t q ih =>
    obtain ⟨mid, hstep, hrest⟩ := of_bind_eq_ok h
    obtain ⟨us, hus, hlist⟩ := exists_listings_of_step hstep hts
    obtain ⟨vs, hvs, hlists⟩ := ih hrest hus
    exact ⟨vs, hvs, by rw [hlists, hlist, List.append_assoc, List.singleton_append]⟩

/-- What has a value is the tokens of a tree. -/
lemma exists_listing_of_run {p : List Token} {v : Float} (h : run p = .ok v) :
    ∃ t : Calculation, t.listing = p := by
  obtain ⟨st, hsteps, hanswer⟩ := of_bind_eq_ok h
  have hempty : ([] : List Calculation).length = ([] : Stack).length := rfl
  obtain ⟨us, hus, hlist⟩ := exists_listings_of_steps hsteps hempty
  obtain ⟨x, rfl⟩ : ∃ x, st = [x] := by
    unfold Machine.answer at hanswer
    split at hanswer
    · exact ⟨_, rfl⟩
    · cases hanswer
    · cases hanswer
  obtain ⟨t, rfl⟩ := List.length_eq_one_iff.mp hus
  exact ⟨t, by simpa [listings] using hlist⟩

end Calculation

/-- The machine gives the tokens of a calculation its value or its fault, and tokens that it gives a
value are those of exactly one calculation. -/
theorem run_listing_and_existsUnique :
    (∀ t : Calculation, run t.listing = t.value) ∧
      ∀ p v, run p = .ok v → ∃! t : Calculation, t.listing = p := by
  refine ⟨Calculation.run_listing, ?_⟩
  intro p v h
  obtain ⟨t, rfl⟩ := Calculation.exists_listing_of_run h
  refine ⟨t, rfl, ?_⟩
  intro u hu
  have hrow : Calculation.listings [u] = Calculation.listings [t] := by
    rw [Calculation.listings_singleton, Calculation.listings_singleton, hu]
  exact List.singleton_inj.mp (Calculation.listings_injective hrow)

/-- The tokens `2 3 ! mean`, of which the call takes both values and the second is a factorial, with
an argument count on the numeral that it does not need. -/
theorem run_listing_and_existsUnique_mean :
    ∃! t : Calculation, t.listing =
      [⟨.number "2", 7⟩, .number "3", .operator "!", (Token.function "mean").withArity 2] :=
  run_listing_and_existsUnique.2 _ 4.0 (by decide +kernel)

end Calculator
