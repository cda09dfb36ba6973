import Calculator.Proofs.Recognition

/-!
# What is compiled

The texts that `compile` accepts are those whose scan is an expression of the grammar, but for two
pairs of neighbours: a slash before a literal zero, and a factorial before a separator once signs
are written out.  Every text that it accepts is an expression (`exists_tree_of_compile`), every
expression without these pairs is accepted (`compile_eq_listing`), and in both cases the tokens that
come out are the listing of the expression, which does not depend on how it was parsed.

A function needs its parentheses only where no sign stands before its argument, since the group of
the sign brings its own (`after_function_of_compile`).
-/

namespace Calculator

/-- What is compiled has been scanned, and its tokens arranged with their signs written out. -/
lemma scan_of_compile {expression : String} {program : List Token}
    (h : compile expression = .ok program) :
    ∃ ts, scan expression = .ok ts ∧ arrange (groupSigns ts) = .ok program := by
  obtain ⟨_, htokenize, harrange⟩ := of_bind_eq_ok h
  obtain ⟨ts, hscan, rfl⟩ := of_map_eq_ok htokenize
  exact ⟨ts, hscan, harrange⟩

/-- The tree of a text that is compiled, and what the rules say of its tokens. -/
lemma exists_fits_of_compile {text : String} {program : List Token}
    (h : compile text = .ok program) :
    ∃ t : Tree .expression, scan text = .ok t.yield ∧ t.listing = program ∧
      (.openParen :: t.written).IsChain Token.Fits := by
  obtain ⟨ts, hscan, harrange⟩ := scan_of_compile h
  obtain ⟨t, rfl, hlisting⟩ := exists_tree_of_arrange (scanned_of_scan hscan) harrange
  obtain ⟨_, hcheck, _⟩ := of_bind_eq_ok harrange
  have hfits := (of_checkArrangement hcheck).2.1
  rw [groupSigns_yield] at hfits
  exact ⟨t, hscan, hlisting, hfits⟩

/-- An expression whose neighbours are accepted, once its signs are written out, is compiled. -/
lemma compile_of_fits {text : String} (t : Tree .expression) (hscan : scan text = .ok t.yield)
    (hfits : (.openParen :: t.written).IsChain Token.Fits) : compile text = .ok t.listing := by
  have htokenize : tokenize text = .ok t.written := by
    rw [tokenize, hscan, ← groupSigns_yield]
    rfl
  rw [compile, bind_of_eq_ok htokenize, arrange, bind_of_eq_ok (t.checkArrangement_of_fits hfits)]
  exact convert_written t

/-- A text that is compiled is an expression, and it is compiled to the listing of the expression.
-/
theorem exists_tree_of_compile {expression : String} {program : List Token}
    (h : compile expression = .ok program) :
    ∃ t : Tree .expression, scan expression = .ok t.yield ∧ t.listing = program := by
  obtain ⟨ts, hscan, harrange⟩ := scan_of_compile h
  obtain ⟨t, rfl, hlisting⟩ := exists_tree_of_arrange (scanned_of_scan hscan) harrange
  exact ⟨t, hscan, hlisting⟩

theorem exists_tree_of_compile_signed_power :
    ∃ t : Tree .expression, scan "-2^x" = .ok t.yield ∧
      t.listing = [.number "0", .number "2", .unknown, .operator "^", .operator "-"] :=
  exists_tree_of_compile (by decide +kernel)

/-- An expression is compiled to its listing, unless a slash stands directly before a literal zero
in it, or a factorial directly before a separator when its signs have been written out. -/
theorem compile_eq_listing {expression : String} (t : Tree .expression)
    (hscan : scan expression = .ok t.yield)
    (hzero : t.yield.IsChain fun a b => a.dividesZero b = false)
    (hcut : ∀ ts, tokenize expression = .ok ts → ts.IsChain fun a b => a.cutsShort b = false) :
    compile expression = .ok t.listing ∧
      ∀ u : Tree .expression, u.yield = t.yield → u.listing = t.listing := by
  have htokenize : tokenize expression = .ok t.written := by
    simp [tokenize, hscan, Except.map, groupSigns_yield]
  constructor
  · have hwritten := dividesZero_groupSigns hzero
    rw [groupSigns_yield] at hwritten
    have hcheck := t.checkArrangement_written hwritten (hcut _ htokenize)
    rw [compile, bind_of_eq_ok htokenize, arrange, bind_of_eq_ok hcheck]
    exact convert_written t
  · intro u hu
    have hwritten : u.written = t.written := by
      rw [← groupSigns_yield, ← groupSigns_yield, hu]
    exact Except.ok.inj ((convert_written u).symm.trans (hwritten ▸ convert_written t))

/-- The parse tree of `f(x,2!)/3`. -/
def callOverThree : Tree .expression :=
  let first : Tree .base := .ofAtom .unknown
  let second : Tree .base := .factorial (.number "2")
  let argument (b : Tree .base) : Tree .expression := .ofTerm (.ofSigned (.ofPower (.ofBase b)))
  let call : Tree .base := .ofAtom (.call "f" (.more (argument first) (.last (argument second))))
  let three : Tree .base := .ofAtom (.number "3")
  .ofTerm (.product (.ofSigned (.ofPower (.ofBase call))) ⟨.div, rfl⟩ (.ofPower (.ofBase three)))

theorem compile_eq_listing_callOverThree :
    compile "f(x,2!)/3" = .ok callOverThree.listing ∧
      ∀ u : Tree .expression, u.yield = callOverThree.yield →
        u.listing = callOverThree.listing := by
  refine compile_eq_listing callOverThree (by decide +kernel) (by decide +kernel) ?_
  have htokenize : tokenize "f(x,2!)/3" = .ok callOverThree.written := by decide +kernel
  intro ts hts
  obtain rfl := Except.ok.inj (htokenize.symm.trans hts)
  decide +kernel

/-! ## What follows a function -/

/-- After a function stands a token of some kind. -/
def Token.Introduces (P : Token → Prop) (a b : Token) : Prop := a.isFunction = true → P b

section Function

variable {P : Token → Prop} {rest : List Token}

lemma isChain_introduces_cons {t : Token} (ht : t.isFunction = false)
    (h : rest.IsChain (Token.Introduces P)) : (t :: rest).IsChain (Token.Introduces P) := by
  refine h.cons fun b _ hfunction => ?_
  cases ht.symm.trans hfunction

/-- A parenthesis or a sign follows every function of a phrase, and no phrase ends with a function,
so that the tokens after it may be any of the same kind. -/
lemma Tree.isChain_introduces {k : Phrase} (t : Tree k) (hopen : P .openParen)
    (hsign : ∀ op : Sign, P op.1.token) (h : rest.IsChain (Token.Introduces P)) :
    (t.yield ++ rest).IsChain (Token.Introduces P) := by
  induction t generalizing rest with
  | ofTerm t ih | ofSigned t ih | ofPower t ih | ofBase t ih | ofAtom t ih | last t ih => exact ih h
  | number _ | constant _ | unknown => exact isChain_introduces_cons rfl h
  | sum l op r ihl ihr | product l op r ihl ihr =>
    rw [yield, List.append_assoc]
    exact ihl (isChain_introduces_cons rfl (ihr h))
  | pow l r ihl ihr | more l r ihl ihr =>
    rw [yield, List.append_assoc]
    exact ihl (isChain_introduces_cons rfl (ihr h))
  | unary op u ih => exact isChain_introduces_cons rfl (ih h)
  | factorial a ih =>
    rw [yield, List.append_assoc]
    exact ih (isChain_introduces_cons rfl h)
  | group e ih =>
    rw [yield, List.append_assoc]
    exact isChain_introduces_cons rfl (ih (isChain_introduces_cons rfl h))
  | call name args ih =>
    rw [yield, List.append_assoc]
    exact .cons_cons (fun _ => hopen)
      (isChain_introduces_cons rfl (ih (isChain_introduces_cons rfl h)))
  | signCall name op u ih =>
    exact .cons_cons (fun _ => hsign op) (isChain_introduces_cons rfl (ih h))

/-- The token after a function, wherever tokens are divided there.  The function is not the last of
them, if a closing parenthesis could not stand after it. -/
lemma exists_after_function {ts before after : List Token} {f : Token} (hclose : ¬ P .closeParen)
    (h : (ts ++ [Token.closeParen]).IsChain (Token.Introduces P)) (hts : ts = before ++ f :: after)
    (hf : f.isFunction = true) : ∃ b ∈ after.head?, P b := by
  rw [hts, List.append_assoc, List.cons_append] at h
  have hnext := (List.isChain_append.mp h).2.1
  cases after with
  | nil => exact absurd (hnext.rel hf) hclose
  | cons b after => exact ⟨b, rfl, hnext.rel hf⟩

end Function

/-- In a text that is compiled every function is followed by its parenthesis or by a sign, and by a
parenthesis when the signs are written out: before a sign it is the one of the sign's group. -/
theorem after_function_of_compile {expression : String} {program scanned : List Token}
    (h : compile expression = .ok program) (hscan : scan expression = .ok scanned) :
    (∀ before f after, scanned = before ++ f :: after → f.isFunction = true →
        ∃ b ∈ after.head?, b.isOpenParen = true ∨ b.isSign = true) ∧
      ∀ tokens, tokenize expression = .ok tokens →
        ∀ before f after, tokens = before ++ f :: after → f.isFunction = true →
          ∃ b ∈ after.head?, b.isOpenParen = true := by
  obtain ⟨t, hyield, -⟩ := exists_fits_of_compile h
  obtain rfl : t.yield = scanned := Except.ok.inj (hyield.symm.trans hscan)
  constructor
  · intro before f after
    have hchain := t.isChain_introduces (P := fun b => b.isOpenParen = true ∨ b.isSign = true)
      (.inl rfl) (fun op => .inr (by simp [op.2])) (.singleton .closeParen)
    exact exists_after_function (by decide) hchain
  · intro tokens htokens before f after
    obtain rfl : t.written = tokens := by
      rw [tokenize, hyield] at htokens
      exact (groupSigns_yield t).symm.trans (Except.ok.inj htokens)
    have hmeets : (t.written ++ [Token.closeParen]).IsChain Token.Meets :=
      Tree.isChain_append (l := []) t.isChain_written (.singleton _) rfl rfl
    refine exists_after_function (by decide) (hmeets.imp fun a b hab ha => ?_)
    simpa [Token.Meets, Token.meets, ha, Token.not_completesOperand_of_isFunction ha] using hab

/-- A function before a sign has no parenthesis in the text. -/
theorem exists_function_before_sign :
    ¬ ∀ (expression : String) (program scanned : List Token),
      compile expression = .ok program → scan expression = .ok scanned →
        ∀ before f after, scanned = before ++ f :: after → f.isFunction = true →
          ∃ b ∈ after.head?, b.isOpenParen = true := by
  intro h
  obtain ⟨b, hb, hopen⟩ := h "sin-2"
    [.number "0", .number "2", .operator "-", .ofLexeme (.function "sin")]
    [.ofLexeme (.function "sin"), .operator "-", .number "2"] (by decide +kernel)
    (by decide +kernel) [] _ _ rfl rfl
  cases hb
  cases hopen

theorem after_function_of_compile_nested :
    let call : List Token := [.ofLexeme (.function "ln"), .openParen, .unknown, .closeParen]
    compile "2*SIN-ln(X)" = .ok [.number "2", .number "0", .unknown, .ofLexeme (.function "ln"),
        .operator "-", .ofLexeme (.function "sin"), .operator "*"] ∧
      (∃ b ∈ (Token.operator "-" :: call).head?, b.isOpenParen = true ∨ b.isSign = true) ∧
      (∃ b ∈ call.tail.head?, b.isOpenParen = true ∨ b.isSign = true) ∧
      ∃ b ∈ (Token.openParen :: .number "0" :: .operator "-" :: (call ++ [.closeParen])).head?,
        b.isOpenParen = true := by
  intro call
  have hcompile : compile "2*SIN-ln(X)" = .ok [.number "2", .number "0", .unknown,
      .ofLexeme (.function "ln"), .operator "-", .ofLexeme (.function "sin"), .operator "*"] := by
    decide +kernel
  have hscan : scan "2*SIN-ln(X)" = .ok (.number "2" :: .operator "*" ::
      .ofLexeme (.function "sin") :: .operator "-" :: call) := by decide +kernel
  obtain ⟨hscanned, htokens⟩ := after_function_of_compile hcompile hscan
  refine ⟨hcompile, ?_, ?_, ?_⟩
  · exact hscanned [.number "2", .operator "*"] (.ofLexeme (.function "sin")) _ rfl rfl
  · exact hscanned [.number "2", .operator "*", .ofLexeme (.function "sin"), .operator "-"]
      (.ofLexeme (.function "ln")) _ rfl rfl
  · exact htokens _ (by decide +kernel) [.number "2", .operator "*"] (.ofLexeme (.function "sin"))
      (.openParen :: .number "0" :: .operator "-" :: (call ++ [.closeParen])) rfl rfl

end Calculator
