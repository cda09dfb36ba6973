import Calculator.Arrangement
import Calculator.Proofs.Basic
import Calculator.Proofs.SignGroup

/-!
# Neighbours in an arranged sequence

The rules of `checkArrangement` look at a token with both of its neighbours, but each of them is
about two tokens side by side.  `Token.meets` is what they say together of two neighbours once no
sign is without an operand on its left: operands and operators alternate.  Two pairs of neighbours
are refused beyond that, a slash before a literal zero (`Token.dividesZero`) and a factorial before
a separator (`Token.cutsShort`).

For sequences whose signs are written out, the rules accept exactly those whose neighbours meet and
are none of the two pairs, that are not empty, and that end in an operand or in an opening
parenthesis (`checkFrom_append`, `isChain_of_checkFrom`).  A parenthesis at the end is found by the
conversion.
-/

namespace Calculator

namespace Token

/-- Whether one token may stand directly after another: after an operand no operand may begin, and
a factorial only stands where it may; after the name of a function its parenthesis opens; after
anything else an operand begins. -/
def meets (a b : Token) : Bool :=
  if a.completesOperand then !b.startsOperand && (!b.isFactorial || a.endsOperand)
  else if a.isFunction then b.isOpenParen
  else b.startsOperand

/-- One token may stand directly after another. -/
abbrev Meets (a b : Token) : Prop := a.meets b = true

/-- Whether a token is a numeral for zero. -/
def isZero (t : Token) : Bool :=
  match t.lexeme with
  | .number text => isLiteralZero text
  | _ => false

/-- Whether two tokens are a slash and a numeral for zero. -/
def dividesZero (a b : Token) : Bool := a.isSymbol "/" && b.isZero

/-- Whether two tokens are a factorial and a separator. -/
def cutsShort (a b : Token) : Bool := a.isFactorial && b.lexeme = .separator

/-- Whether one token is accepted directly after another. -/
def Fits (a b : Token) : Prop :=
  a.meets b = true ∧ a.dividesZero b = false ∧ a.cutsShort b = false

lemma not_startsOperand_of_meets {a b : Token} (ha : a.completesOperand = true)
    (h : a.meets b = true) : b.startsOperand = false := by
  simp only [meets, ha, if_true, Bool.and_eq_true, Bool.not_eq_true'] at h
  exact h.1

lemma not_endsOperand_of_meets_openParen {a b : Token} (hb : b.startsOperand = true)
    (h : a.meets b = true) : a.endsOperand = false := by
  by_contra ha
  have hcompletes := completesOperand_of_endsOperand (eq_true_of_ne_false ha)
  cases hb.symm.trans (not_startsOperand_of_meets hcompletes h)

/-- What no operand begins with stands after an operand. -/
lemma completesOperand_of_meets {a b : Token} (hb : b.startsOperand = false)
    (h : a.meets b = true) : a.completesOperand = true := by
  by_contra ha
  have hopen : b.isOpenParen = false := by
    by_contra hopen
    cases hb.symm.trans (startsOperand_of_isOpenParen (eq_true_of_ne_false hopen))
  simp [meets, ha, hb, hopen] at h

lemma endsOperand_of_meets {a b : Token} (hb : b.isFactorial = true) (h : a.meets b = true) :
    a.endsOperand = true := by
  have hstart := not_startsOperand_of_isOperator (isOperator_of_isFactorial hb)
  simpa [meets, completesOperand_of_meets hstart h, hstart, hb] using h

/-- Nothing but an operand stands after an opening parenthesis. -/
lemma meets_openParen (b : Token) : Token.openParen.meets b = b.startsOperand := rfl

end Token

/-! ## Accepted neighbours -/

lemma requireNoOperand_eq_ok {a : Token} {next : Option Token} (ha : a.completesOperand = true)
    (h : ∀ b ∈ next, a.meets b = true) : requireNoOperand a next = .ok () := by
  cases next with
  | none => rfl
  | some b => simp [requireNoOperand, Token.not_startsOperand_of_meets ha (h b rfl)]

/-- Of what completes an operand only the factorial does not stand before a separator. -/
lemma endsArgument_of_completesOperand {a : Token} (ha : a.completesOperand = true) :
    endsArgument a = !a.isFactorial := by
  obtain ⟨l, n⟩ := a
  cases l with
  | operator symbol =>
    obtain rfl : symbol = "!" := by simpa [Token.completesOperand] using ha
    rfl
  | _ => first | rfl | cases ha

lemma endsArgument_of_meets {a : Token} {n : Nat} (h : a.meets ⟨.separator, n⟩ = true)
    (hcut : a.cutsShort ⟨.separator, n⟩ = false) : endsArgument a = true := by
  rw [endsArgument_of_completesOperand (Token.completesOperand_of_meets rfl h)]
  simpa [Token.cutsShort] using hcut

lemma startsArgument_of_startsOperand {b : Token} (h : b.startsOperand = true) :
    startsArgument b = true := by
  obtain ⟨l, n⟩ := b
  cases l <;> first | rfl | cases h

lemma checkSecondOperand_eq_ok {prev : Option Token} {a b : Token}
    (hprev : prev.any Token.isOpenParen = false) (hb : b.startsOperand = true)
    (hzero : a.dividesZero b = false) : checkSecondOperand prev a b = .ok () := by
  have hclose := Token.not_isCloseParen_of_startsOperand hb
  obtain ⟨l, n⟩ := b
  cases l with
  | number text =>
    have hdiv : (a.isSymbol "/" && isLiteralZero text) = false := hzero
    simp [checkSecondOperand, Token.isOperator, hclose, hprev, hdiv]
  | operator symbol => cases hb
  | _ => simp [checkSecondOperand, Token.isOperator, hclose, hprev]

/-- The rule of a token holds if it meets the token before and the token after. -/
lemma checkToken_eq_ok {prev next : Option Token} {t : Token}
    (hprev : (prev.getD .openParen).meets t = true)
    (hcut : (prev.getD .openParen).cutsShort t = false)
    (hnext : ∀ b ∈ next, t.meets b = true ∧ t.dividesZero b = false)
    (hend : next = none → t.completesOperand = true ∨ t.isOpenParen = true) :
    checkToken prev t next = .ok () := by
  obtain ⟨l, n⟩ := t
  cases l with
  | number text => exact requireNoOperand_eq_ok rfl fun b hb => (hnext b hb).1
  | constant name => exact requireNoOperand_eq_ok rfl fun b hb => (hnext b hb).1
  | unknown => exact requireNoOperand_eq_ok rfl fun b hb => (hnext b hb).1
  | function name =>
    cases next with
    | none => simp [Token.completesOperand, Token.isOpenParen] at hend
    | some b =>
      have hb : b.isOpenParen = true := (hnext b rfl).1
      simp [checkToken, checkFunction, hb]
  | openParen =>
    have hclose : next.any Token.isCloseParen = false := by
      cases next with
      | none => rfl
      | some b => exact Token.not_isCloseParen_of_startsOperand (hnext b rfl).1
    cases prev with
    | none => simp [checkToken, checkOpenParen, hclose]
    | some a =>
      have ha : a.endsOperand = false := Token.not_endsOperand_of_meets_openParen rfl hprev
      simp [checkToken, checkOpenParen, hclose, ha]
  | closeParen =>
    cases prev with
    | none => cases hprev
    | some a => exact requireNoOperand_eq_ok rfl fun b hb => (hnext b hb).1
  | separator =>
    cases prev with
    | none => cases hprev
    | some a =>
      cases next with
      | none => simp [Token.completesOperand, Token.isOpenParen] at hend
      | some b =>
        have ha : endsArgument a = true := endsArgument_of_meets hprev hcut
        have hb := startsArgument_of_startsOperand (hnext b rfl).1
        simp [checkToken, checkSeparator, ha, hb]
  | operator symbol =>
    cases prev with
    | none => cases hprev
    | some a =>
      by_cases hsymbol : symbol = "!"
      · subst hsymbol
        have ha : a.endsOperand = true := Token.endsOperand_of_meets rfl hprev
        have hb : requireNoOperand ⟨.operator "!", n⟩ next = .ok () :=
          requireNoOperand_eq_ok rfl fun b hb => (hnext b hb).1
        simp [checkToken, checkOperator, checkFactorial, ha, hb, Token.isFactorial, Token.isSymbol]
      · cases next with
        | none => simp [Token.completesOperand, Token.isOpenParen, hsymbol] at hend
        | some b =>
          have hopen : (some a).any Token.isOpenParen = false :=
            Token.not_isOpenParen_of_completesOperand (Token.completesOperand_of_meets rfl hprev)
          have hb : b.startsOperand = true := by
            simpa [Token.meets, Token.completesOperand, Token.isFunction, hsymbol]
              using (hnext b rfl).1
          simp [checkToken, checkOperator, Token.isFactorial, Token.isSymbol, hsymbol,
            checkSecondOperand_eq_ok hopen hb (hnext b rfl).2]

/-- Tokens whose neighbours are accepted are read to their end, if what comes after them is accepted
after the last of them. -/
theorem checkFrom_append (prev : Option Token) {ts : List Token} (rest : List Token)
    (h : (prev.getD .openParen :: ts).IsChain Token.Fits)
    (hlast : ∀ a ∈ ts.getLast?, (∀ b ∈ rest.head?, a.meets b = true ∧ a.dividesZero b = false) ∧
      (rest = [] → a.completesOperand = true ∨ a.isOpenParen = true)) :
    checkFrom prev (ts ++ rest) = checkFrom (ts.getLast?.or prev) rest := by
  induction ts generalizing prev with
  | nil => simp
  | cons t ts ih =>
    obtain ⟨⟨hmeets, -, hcut⟩, htail⟩ := List.isChain_cons_cons.mp h
    have htoken : checkToken prev t (ts ++ rest).head? = .ok () := by
      cases ts with
      | nil =>
        obtain ⟨hnext, hend⟩ := hlast t rfl
        exact checkToken_eq_ok hmeets hcut hnext fun h => hend (List.head?_eq_none_iff.mp h)
      | cons u us =>
        refine checkToken_eq_ok hmeets hcut ?_ nofun
        rintro b ⟨⟩
        exact ⟨htail.rel.1, htail.rel.2.1⟩
    rw [List.cons_append, checkFrom, htoken]
    have hrest : checkFrom (some t) (ts ++ rest) = checkFrom (ts.getLast?.or (some t)) rest := by
      refine ih (some t) htail ?_
      cases ts with
      | nil => nofun
      | cons u us => simpa using hlast
    have hlast' : (t :: ts).getLast?.or prev = ts.getLast?.or (some t) := by
      cases h : ts.getLast? <;> simp [List.getLast?_cons, h]
    rw [hlast']
    exact hrest

/-- A sequence of accepted neighbours, of which the first begins and the last ends an operand, is
accepted. -/
theorem checkArrangement_eq_ok {ts : List Token} (hne : ts ≠ [])
    (h : (.openParen :: ts).IsChain Token.Fits)
    (hlast : ∀ a ∈ ts.getLast?, a.completesOperand = true) : checkArrangement ts = .ok () := by
  have hempty : ts.isEmpty = false := by simpa using hne
  have hread := checkFrom_append none [] h fun a ha => ⟨nofun, fun _ => .inl (hlast a ha)⟩
  rw [List.append_nil] at hread
  simp only [checkArrangement, hempty, hread]
  rfl

/-! ## What the rules say of neighbours -/

lemma not_startsOperand_of_requireNoOperand {a b : Token}
    (h : requireNoOperand a (some b) = .ok ()) : b.startsOperand = false := by
  cases hb : b.startsOperand with
  | false => rfl
  | true => simp [requireNoOperand, hb] at h

lemma completesOperand_of_endsArgument {a : Token} (h : endsArgument a = true) :
    a.completesOperand = true := by
  obtain ⟨l, n⟩ := a
  cases l <;> first | rfl | cases h

lemma of_startsArgument {b : Token} (h : startsArgument b = true) :
    b.isCloseParen = false ∧ b.isOperator = false := by
  obtain ⟨l, n⟩ := b
  cases l <;> first | exact ⟨rfl, rfl⟩ | cases h

lemma endsArgument_of_checkSeparator {a : Token} {next : Option Token}
    (h : checkSeparator (some a) next = .ok ()) : endsArgument a = true := by
  cases ha : endsArgument a with
  | true => rfl
  | false => simp [checkSeparator, ha] at h

lemma endsOperand_of_checkFactorial {a b : Token} {next : Option Token}
    (h : checkFactorial (some a) b next = .ok ()) : a.endsOperand = true := by
  cases ha : a.endsOperand with
  | true => rfl
  | false => simp [checkFactorial, ha] at h

/-- What follows an operator is neither a closing parenthesis nor an operator, a pair of signs
apart, and only a sign follows an opening parenthesis. -/
lemma of_checkSecondOperand {prev : Option Token} {a b : Token}
    (h : checkSecondOperand prev a b = .ok ()) :
    (b.isOperator = true → b.isSign = true) ∧ b.isCloseParen = false ∧
      (prev.any Token.isOpenParen = true → a.isSign = true) ∧ a.dividesZero b = false := by
  unfold checkSecondOperand at h
  split at h
  · cases h
  next hop =>
  split at h
  · cases h
  next hclose =>
  split at h
  · cases h
  next hopen =>
  refine ⟨?_, by simpa using hclose, by simpa using hopen, ?_⟩
  · intro hb
    simp_all
  · obtain ⟨l, n⟩ := b
    cases l with
    | number text =>
      simp only at h
      split at h
      · cases h
      next hzero => simpa [Token.dividesZero, Token.isZero] using hzero
    | _ => exact Bool.and_false _

/-- The rule of an operator that is not the factorial. -/
lemma of_checkOperator {prev next : Option Token} {a : Token} (ha : a.isFactorial = false)
    (h : checkOperator prev a next = .ok ()) :
    (prev = none → a.isSign = true) ∧
      ∃ b, next = some b ∧ checkSecondOperand prev a b = .ok () := by
  simp only [checkOperator, ha, Bool.false_eq_true, if_false] at h
  split at h
  · cases h
  next hprev =>
  cases next with
  | none => cases h
  | some b =>
    refine ⟨?_, b, rfl, h⟩
    rintro rfl
    simpa using hprev

lemma checkOperator_of_checkToken {prev next : Option Token} {t : Token}
    (ht : t.isOperator = true) (h : checkToken prev t next = .ok ()) :
    checkOperator prev t next = .ok () := by
  rwa [checkToken_of_isOperator ht] at h

lemma checkFactorial_of_checkToken {prev next : Option Token} {t : Token}
    (ht : t.isFactorial = true) (h : checkToken prev t next = .ok ()) :
    checkFactorial prev t next = .ok () := by
  have hoperator := checkOperator_of_checkToken (Token.isOperator_of_isFactorial ht) h
  simpa [checkOperator, ht] using hoperator

lemma not_startsOperand_of_checkFactorial {prev : Option Token} {a b : Token}
    (h : checkFactorial prev a (some b) = .ok ()) : b.startsOperand = false := by
  unfold checkFactorial at h
  split at h
  · exact not_startsOperand_of_requireNoOperand h
  · cases h

/-- After an operand, where none begins. -/
lemma fits_of_completesOperand {a b : Token} {next : Option Token}
    (ha : a.completesOperand = true) (hstart : b.startsOperand = false)
    (hb : checkToken (some a) b next = .ok ()) : a.Fits b := by
  have hfactorial : b.isFactorial = true → a.endsOperand = true := by
    intro h
    exact endsOperand_of_checkFactorial (checkFactorial_of_checkToken h hb)
  refine ⟨?_, ?_, ?_⟩
  · simp only [Token.meets, ha, hstart]
    cases h : b.isFactorial <;> simp [hfactorial, h]
  · have hzero : b.isZero = false := by
      obtain ⟨l, n⟩ := b
      cases l <;> first | rfl | cases hstart
    simp [Token.dividesZero, hzero]
  · obtain ⟨l, n⟩ := b
    cases l with
    | separator =>
      have hargument : endsArgument a = true := endsArgument_of_checkSeparator hb
      rw [endsArgument_of_completesOperand ha] at hargument
      simpa [Token.cutsShort] using hargument
    | _ => exact Bool.and_false _

/-- Where an operand is expected, one begins unless the token is an operator that could be a sign,
and a sign has its operand on the left. -/
lemma startsOperand_of_checkToken {a b : Token} {next : Option Token}
    (ha : a.completesOperand = false) (hunary : isUnaryAfter (some a) = true)
    (hclose : b.isCloseParen = false) (hop : b.isOperator = true → b.isSign = true)
    (hb : checkToken (some a) b next = .ok ()) (hs : SignHasLeft a b) : b.startsOperand = true := by
  obtain ⟨l, n⟩ := b
  cases l with
  | separator =>
    have hargument := completesOperand_of_endsArgument (endsArgument_of_checkSeparator hb)
    cases ha.symm.trans hargument
  | operator symbol => cases hunary.symm.trans (hs (hop rfl))
  | closeParen => cases hclose
  | _ => rfl

/-- Neighbours are accepted if the rules of both hold and the second is no sign without an operand
on its left. -/
lemma fits_of_checkToken {prev next : Option Token} {a b : Token}
    (ha : checkToken prev a (some b) = .ok ()) (hb : checkToken (some a) b next = .ok ())
    (hs : SignHasLeft a b) : a.Fits b := by
  obtain ⟨l, n⟩ := a
  cases l with
  | number text | constant name | unknown =>
    exact fits_of_completesOperand rfl (not_startsOperand_of_requireNoOperand ha) hb
  | closeParen =>
    have hstart : requireNoOperand ⟨.closeParen, n⟩ (some b) = .ok () := by
      cases prev with
      | none => cases ha
      | some _ => exact ha
    exact fits_of_completesOperand rfl (not_startsOperand_of_requireNoOperand hstart) hb
  | function name =>
    have hopen : b.isOpenParen = true := by
      cases h : b.isOpenParen with
      | true => rfl
      | false => simp [checkToken, checkFunction, h] at ha
    exact ⟨hopen, rfl, rfl⟩
  | openParen =>
    have hclose : b.isCloseParen = false := by
      cases h : b.isCloseParen with
      | false => rfl
      | true => simp [checkToken, checkOpenParen, h] at ha
    refine ⟨startsOperand_of_checkToken rfl rfl hclose ?_ hb hs, rfl, rfl⟩
    -- The rule of what follows an opening parenthesis lets a sign through, and no other operator.
    intro hop
    cases hfactorial : b.isFactorial with
    | true =>
      have := endsOperand_of_checkFactorial (checkFactorial_of_checkToken hfactorial hb)
      cases this
    | false =>
      obtain ⟨-, c, -, hc⟩ := of_checkOperator hfactorial (checkOperator_of_checkToken hop hb)
      exact (of_checkSecondOperand hc).2.2.1 rfl
  | separator =>
    have hstart : startsArgument b = true := by
      cases h : startsArgument b with
      | true => rfl
      | false => simp [checkToken, checkSeparator, h] at ha
    obtain ⟨hclose, hop⟩ := of_startsArgument hstart
    refine ⟨startsOperand_of_checkToken rfl rfl hclose ?_ hb hs, rfl, rfl⟩
    simp [hop]
  | operator symbol =>
    by_cases hsymbol : symbol = "!"
    · subst hsymbol
      have hstart := not_startsOperand_of_checkFactorial (checkFactorial_of_checkToken rfl ha)
      exact fits_of_completesOperand rfl hstart hb
    · have hcompletes : Token.completesOperand ⟨.operator symbol, n⟩ = false := by
        simp [Token.completesOperand, hsymbol]
      have hfactorial : Token.isFactorial ⟨.operator symbol, n⟩ = false := by
        simp [Token.isFactorial, Token.isSymbol, hsymbol]
      have hunary : isUnaryAfter (some ⟨.operator symbol, n⟩) = true := by
        simp [isUnaryAfter, hsymbol]
      obtain ⟨-, c, hc, hsecond⟩ := of_checkOperator hfactorial ha
      obtain rfl : b = c := Option.some.inj hc
      obtain ⟨hop, hclose, -, hzero⟩ := of_checkSecondOperand hsecond
      have hstart := startsOperand_of_checkToken hcompletes hunary hclose hop hb hs
      exact ⟨by simp [Token.meets, hcompletes, Token.isFunction, hstart], hzero,
        by simp [Token.cutsShort, hfactorial]⟩

/-- The first token of an arranged sequence stands as if a parenthesis had been opened before it. -/
lemma fits_openParen_of_checkToken {next : Option Token} {b : Token}
    (h : checkToken none b next = .ok ()) (hs : SignHasLeft .openParen b) :
    Token.openParen.Fits b := by
  refine ⟨?_, rfl, rfl⟩
  rw [Token.meets_openParen]
  cases hop : b.isOperator with
  | true =>
    cases hfactorial : b.isFactorial with
    | true => cases checkFactorial_of_checkToken hfactorial h
    | false =>
      have hsign := (of_checkOperator hfactorial (checkOperator_of_checkToken hop h)).1 rfl
      cases hs hsign
  | false =>
    obtain ⟨l, n⟩ := b
    cases l <;> first | rfl | cases h | cases hop

lemma of_checkFrom_cons {prev : Option Token} {t : Token} {ts : List Token}
    (h : checkFrom prev (t :: ts) = .ok ()) :
    checkToken prev t ts.head? = .ok () ∧ checkFrom (some t) ts = .ok () := by
  obtain ⟨_, ht, hts⟩ := of_bind_eq_ok h
  exact ⟨ht, hts⟩

/-- The neighbours in a sequence that the rules accept, if no sign in it is without an operand on
its left. -/
theorem isChain_of_checkFrom (prev : Option Token) {ts : List Token}
    (h : checkFrom prev ts = .ok ()) (hs : (prev.getD .openParen :: ts).IsChain SignHasLeft)
    (hprev : ∀ a ∈ prev, ∃ pp, checkToken pp a ts.head? = .ok ()) :
    (prev.getD .openParen :: ts).IsChain Token.Fits := by
  induction ts generalizing prev with
  | nil => exact .singleton _
  | cons t ts ih =>
    obtain ⟨ht, hts⟩ := of_checkFrom_cons h
    obtain ⟨hsign, hsigns⟩ := List.isChain_cons_cons.mp hs
    have hrest := ih (some t) hts hsigns fun a ha => ⟨prev, Option.some.inj ha ▸ ht⟩
    refine .cons_cons ?_ hrest
    cases prev with
    | none => exact fits_openParen_of_checkToken ht hsign
    | some a =>
      obtain ⟨pp, ha⟩ := hprev a rfl
      exact fits_of_checkToken ha ht hsign

/-- A sequence that the rules accept ends in an operand or an opening parenthesis. -/
theorem getLast_of_checkFrom {prev : Option Token} {ts : List Token}
    (h : checkFrom prev ts = .ok ()) :
    ∀ a ∈ ts.getLast?, a.completesOperand = true ∨ a.isOpenParen = true := by
  induction ts generalizing prev with
  | nil => nofun
  | cons t ts ih =>
    obtain ⟨ht, hts⟩ := of_checkFrom_cons h
    cases ts with
    | cons u us => simpa using ih hts
    | nil =>
      rintro a ⟨⟩
      obtain ⟨l, n⟩ := t
      cases l with
      | operator symbol =>
        by_cases hsymbol : symbol = "!"
        · exact .inl (by simp [Token.completesOperand, hsymbol])
        · have hfactorial : Token.isFactorial ⟨.operator symbol, n⟩ = false := by
            simp [Token.isFactorial, Token.isSymbol, hsymbol]
          obtain ⟨-, b, hb, -⟩ := of_checkOperator hfactorial ht
          cases hb
      | function name => cases ht
      | separator => simp [checkToken, checkSeparator] at ht
      | openParen => exact .inr rfl
      | _ => exact .inl rfl

/-- What `checkArrangement` says of tokens whose signs have been written out. -/
theorem of_checkArrangement {ts : List Token} (h : checkArrangement (groupSigns ts) = .ok ()) :
    groupSigns ts ≠ [] ∧ (.openParen :: groupSigns ts).IsChain Token.Fits ∧
      ∀ a ∈ (groupSigns ts).getLast?, a.completesOperand = true ∨ a.isOpenParen = true := by
  unfold checkArrangement at h
  split at h
  · cases h
  next hempty =>
    exact ⟨by simpa using hempty,
      isChain_of_checkFrom none h (isChain_groupSigns ts) nofun, getLast_of_checkFrom h⟩

/-! ## Trees -/

lemma Token.meets_of_completesOperand {a b : Token} (ha : a.completesOperand = true)
    (hb : b.startsOperand = false) (hfactorial : b.isFactorial = false) : a.meets b = true := by
  simp [meets, ha, hb, hfactorial]

lemma Token.meets_of_startsOperand {a b : Token} (ha : a.completesOperand = false)
    (hfunction : a.isFunction = false) (hb : b.startsOperand = true) : a.meets b = true := by
  simp [meets, ha, hfunction, hb]

lemma Token.meets_factorial {a : Token} (ha : a.endsOperand = true) :
    a.meets Operator.factorial.token = true := by
  obtain ⟨l, n⟩ := a
  cases l <;> first | rfl | cases ha

namespace Tree

/-- An atom that is not the bare unknown ends in what a factorial can follow. -/
lemma endsOperand_of_written (t : Tree (.atom false)) :
    ∃ w a, t.written = w ++ [a] ∧ a.endsOperand = true := by
  cases t with
  | number _ | constant _ => exact ⟨[], _, rfl, rfl⟩
  | group _ | call _ _ => exact ⟨_, _, rfl, rfl⟩

variable {k : Phrase}

/-- More tokens before a phrase. -/
lemma isChain_cons {t : Tree k} {a : Token} (h : t.written.IsChain Token.Meets)
    (ha : a.completesOperand = false) (hfunction : a.isFunction = false) :
    (a :: t.written).IsChain Token.Meets := by
  obtain ⟨b, w, hw, hb⟩ := t.written_eq_cons
  rw [hw] at h ⊢
  exact .cons_cons (Token.meets_of_startsOperand ha hfunction hb) h

/-- More tokens after a phrase, whatever stands before it. -/
lemma isChain_append {t : Tree k} {l r : List Token} {b : Token}
    (hl : (l ++ t.written).IsChain Token.Meets)
    (hr : (b :: r).IsChain Token.Meets) (hb : b.startsOperand = false)
    (hfactorial : b.isFactorial = false) :
    (l ++ t.written ++ b :: r).IsChain Token.Meets := by
  obtain ⟨w, a, hw, ha⟩ := t.written_eq_append
  refine hl.append hr ?_
  rw [hw, ← List.append_assoc, List.getLast?_concat]
  rintro _ ⟨⟩ _ ⟨⟩
  exact Token.meets_of_completesOperand ha hb hfactorial

/-- The group of a sign. -/
lemma isChain_signed (op : Sign) {u : Tree k} (h : u.written.IsChain Token.Meets) :
    List.IsChain Token.Meets
      (.openParen :: .number "0" :: op.1.token :: u.written ++ [.closeParen]) := by
  have hzero : (Token.number "0").meets op.1.token = true :=
    Token.meets_of_completesOperand rfl rfl (by simp [op.ne_factorial])
  have hop := isChain_cons h (a := op.1.token) (by simp [op.ne_factorial]) rfl
  exact isChain_append (l := [.openParen, .number "0", op.1.token])
    (.cons_cons rfl (.cons_cons hzero hop)) (.singleton _) rfl rfl

/-- Neighbours meet in every phrase whose signs are written out. -/
theorem isChain_written (t : Tree k) : t.written.IsChain Token.Meets := by
  induction t with
  | ofTerm t ih | ofSigned t ih | ofPower t ih | ofBase t ih | ofAtom t ih | last t ih => exact ih
  | number text | constant name | unknown => exact .singleton _
  | sum l op r ihl ihr =>
    exact isChain_append (l := []) ihl (isChain_cons ihr (by simp [op.ne_factorial]) rfl) rfl
      (by simp [op.ne_factorial])
  | product l op r ihl ihr =>
    exact isChain_append (l := []) ihl (isChain_cons ihr (by simp [op.ne_factorial]) rfl) rfl
      (by simp [op.ne_factorial])
  | pow b u ihb ihu => exact isChain_append (l := []) ihb (isChain_cons ihu rfl rfl) rfl rfl
  | more e args ihe ihargs =>
    exact isChain_append (l := []) ihe (isChain_cons ihargs rfl rfl) rfl rfl
  | factorial a ih =>
    obtain ⟨w, b, hw, hb⟩ := a.endsOperand_of_written
    refine ih.append (.singleton _) ?_
    rw [hw, List.getLast?_concat]
    rintro _ ⟨⟩ _ ⟨⟩
    exact Token.meets_factorial hb
  | group e ih =>
    exact isChain_append (l := [.openParen]) (isChain_cons ih rfl rfl) (.singleton _) rfl rfl
  | call name args ih =>
    exact isChain_append (l := [.ofLexeme (.function name), .openParen])
      (.cons_cons rfl (isChain_cons ih rfl rfl)) (.singleton _) rfl rfl
  | unary op u ih => exact isChain_signed op ih
  | signCall name op u ih => exact .cons_cons rfl (isChain_signed op ih)

/-- The neighbours in an expression whose signs are written out, apart from the two pairs that are
refused, are accepted. -/
theorem fits_written (t : Tree k)
    (hzero : t.written.IsChain fun a b => a.dividesZero b = false)
    (hcut : t.written.IsChain fun a b => a.cutsShort b = false) :
    (.openParen :: t.written).IsChain Token.Fits := by
  obtain ⟨b, w, hw, hb⟩ := t.written_eq_cons
  have hmeets := t.isChain_written
  rw [hw] at hmeets hzero hcut ⊢
  refine .cons_cons ⟨hb, rfl, rfl⟩ ?_
  rw [List.isChain_iff_getElem] at hmeets hzero hcut ⊢
  exact fun i hi => ⟨hmeets i hi, hzero i hi, hcut i hi⟩

lemma checkArrangement_of_fits (t : Tree k) (h : (.openParen :: t.written).IsChain Token.Fits) :
    checkArrangement t.written = .ok () := by
  obtain ⟨w, a, hw, ha⟩ := t.written_eq_append
  refine checkArrangement_eq_ok (by simp [hw]) h ?_
  rw [hw, List.getLast?_concat]
  rintro _ ⟨⟩
  exact ha

theorem checkArrangement_written (t : Tree k)
    (hzero : t.written.IsChain fun a b => a.dividesZero b = false)
    (hcut : t.written.IsChain fun a b => a.cutsShort b = false) :
    checkArrangement t.written = .ok () :=
  t.checkArrangement_of_fits (t.fits_written hzero hcut)

end Tree

/-! ## Slashes and zeros -/

/-- Writing out signs puts no zero directly after a slash. -/
lemma permits_dividesZero : Permits fun a b => a.dividesZero b = false where
  before_open _ := Bool.and_false _
  open_zero := rfl
  zero_sign _ _ := rfl
  before_close _ := Bool.and_false _
  after_close _ := rfl

theorem dividesZero_groupSigns {ts : List Token}
    (h : ts.IsChain fun a b => a.dividesZero b = false) :
    (groupSigns ts).IsChain fun a b => a.dividesZero b = false :=
  permits_dividesZero.isChain_groupSigns h fun _ _ => rfl

end Calculator
