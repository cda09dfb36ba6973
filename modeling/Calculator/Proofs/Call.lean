import Calculator.Proofs.Compilation

/-!
# Calls of compiled expressions

A text that is compiled by itself can stand as an argument of a call, and the call is compiled to
what its arguments are compiled to, one after the other, and the function with their number
(`compile_callText`).  There is one exception, and it is the only one: an argument that ends in a
factorial is refused where another one follows it, because the rule of the separator takes the
factorial for an operator that still wants an operand.
-/

namespace Calculator

/-! ## The scan of a call -/

/-- The text of a call with the texts of its arguments. -/
def callText (name : String) (arguments : List String) : String :=
  name ++ "(" ++ String.intercalate "," arguments ++ ")"

/-- The scan of a name that is not reserved. -/
lemma scan_name {name : String} (hne : name ≠ "") (halpha : ∀ c ∈ name.toList, c.isAlpha = true)
    (hreserved : Text.lowercase name ∉ ["x", "pi", "e"]) :
    scan name = .ok [Token.function name] := by
  have hblank : Text.withoutBlanks name.toList = name.toList :=
    List.filter_eq_self.mpr fun c hc => by simp [(isAlpha_cases (halpha c hc)).2.1]
  have hlower : Text.lowercase name = String.ofList (name.toList.map Char.toLower) :=
    Text.lowercase_of_ascii fun c hc => (isAlpha_cases (halpha c hc)).2.2
  have hword : Lexeme.ofWord name.toList = .function (Text.lowercase name) := by
    rw [hlower] at hreserved ⊢
    unfold Lexeme.ofWord
    rw [if_neg, if_neg]
    · rintro (h | h)
      · exact hreserved (by rw [h]; decide)
      · exact hreserved (by rw [h]; decide)
    · intro h
      exact hreserved (by rw [h]; decide)
  have hnext : Lexeme.next? name.toList = some (.function (Text.lowercase name), []) := by
    obtain ⟨c, cs, hcs⟩ := List.exists_cons_of_ne_nil fun h => hne (String.toList_eq_nil_iff.mp h)
    rw [hcs] at halpha hword ⊢
    have hc : c.isAlpha = true := halpha c (List.mem_cons_self ..)
    have htake : (c :: cs).takeWhile Char.isAlpha = c :: cs :=
      List.takeWhile_eq_self_iff.mpr halpha
    have hdrop : (c :: cs).dropWhile Char.isAlpha = [] := List.dropWhile_eq_nil_iff.mpr halpha
    rw [Lexeme.next?, if_neg (by simp [(isAlpha_cases hc).1]), if_pos hc, htake, hdrop, hword]
  have hlexemes : lexemes name.toList = .ok [.function (Text.lowercase name)] := by
    rw [lexemes_of_some hnext, lexemes_of_none rfl]
    rfl
  rw [scan_eq, hblank, hlexemes]
  rfl

/-! ## Arguments -/

/-- Whether the tokens of a text end in a factorial, when its signs have been written out. -/
def endsInFactorial (text : String) : Bool :=
  match tokenize text with
  | .ok ts => ts.getLast?.any Token.isFactorial
  | .error _ => false

/-- The rules go through an argument to its end, whether it is the first one or not. -/
lemma checkFrom_argument {t : Tree .expression} {prev : Option Token}
    (hprev : prev = some .openParen ∨ prev = some .separator)
    (h : (.openParen :: t.written).IsChain Token.Fits) {b : Token} (hb : b.startsOperand = false)
    (hfactorial : b.isFactorial = false) (hzero : b.isZero = false) (rest : List Token) :
    ∃ a, t.written.getLast? = some a ∧ a.completesOperand = true ∧
      checkFrom prev (t.written ++ b :: rest) = checkFrom (some a) (b :: rest) := by
  obtain ⟨w, a, hw, ha⟩ := t.written_eq_append
  have hlast : t.written.getLast? = some a := by rw [hw, List.getLast?_concat]
  have hchain : (prev.getD .openParen :: t.written).IsChain Token.Fits := by
    rcases hprev with rfl | rfl
    · exact h
    · exact h.imp_head fun hfits => ⟨hfits.1, rfl, rfl⟩
  refine ⟨a, hlast, ha, ?_⟩
  rw [checkFrom_append prev (b :: rest) hchain, hlast]
  · rfl
  · rw [hlast]
    rintro _ ⟨⟩
    refine ⟨?_, nofun⟩
    rintro _ ⟨⟩
    exact ⟨Token.meets_of_completesOperand ha hb hfactorial, by simp [Token.dividesZero, hzero]⟩

/-- The rule of the separator, between an operand and a token that begins one. -/
lemma checkFrom_separator {a b : Token} (ha : a.completesOperand = true)
    (hb : b.startsOperand = true) (rest : List Token) :
    checkFrom (some a) (.separator :: b :: rest) =
      if a.isFactorial then .error (.grammar .misplacedSeparator)
      else checkFrom (some .separator) (b :: rest) := by
  have hrule : checkToken (some a) .separator (some b) =
      if a.isFactorial then .error (.grammar .misplacedSeparator) else .ok () := by
    have hstart := startsArgument_of_startsOperand hb
    cases ha' : a.isFactorial <;>
      simp [checkToken, Token.separator, Token.ofLexeme, checkSeparator, hstart,
        endsArgument_of_completesOperand ha, ha']
  rw [checkFrom, List.head?_cons, hrule]
  cases a.isFactorial <;> rfl

/-- The rules of several arguments are those of all but the first, if they come to these. -/
lemma checkFrom_more {e : Tree .expression} {prev : Option Token}
    (hprev : prev = some .openParen ∨ prev = some .separator)
    (h : (.openParen :: e.written).IsChain Token.Fits) (args : Tree .arguments) :
    ∃ a, e.written.getLast? = some a ∧
      checkFrom prev ((Tree.more e args).written ++ [.closeParen]) =
        if a.isFactorial then .error (.grammar .misplacedSeparator)
        else checkFrom (some .separator) (args.written ++ [.closeParen]) := by
  obtain ⟨a, hlast, ha, hcheck⟩ := checkFrom_argument hprev h (b := .separator) rfl rfl rfl
    (args.written ++ [.closeParen])
  obtain ⟨b, w, hw, hb⟩ := args.written_eq_cons
  refine ⟨a, hlast, ?_⟩
  rw [hw] at hcheck ⊢
  rw [Tree.written, List.append_assoc, List.cons_append, hw, hcheck]
  exact checkFrom_separator ha hb _

lemma endsInFactorial_eq {text : String} {t : Tree .expression} {a : Token}
    (hscan : scan text = .ok t.yield) (hlast : t.written.getLast? = some a) :
    endsInFactorial text = a.isFactorial := by
  have htokenize : tokenize text = .ok t.written := by
    rw [tokenize, hscan, ← groupSigns_yield]
    rfl
  simp [endsInFactorial, htokenize, hlast]

/-- The arguments of a call as a tree: its scan, its listing, and what the rules say of its tokens.
-/
lemma exists_arguments {parts : List (String × List Token)} (hne : parts ≠ [])
    (h : ∀ part ∈ parts, compile part.1 = .ok part.2) :
    ∃ args : Tree .arguments,
      scan (String.intercalate "," (parts.map Prod.fst)) = .ok args.yield ∧
      args.listing = parts.flatMap Prod.snd ∧ args.arity = parts.length ∧
      ∀ prev, prev = some Token.openParen ∨ prev = some Token.separator →
        checkFrom prev (args.written ++ [.closeParen]) =
          if parts.dropLast.any (fun part => endsInFactorial part.1) then
            .error (.grammar .misplacedSeparator)
          else .ok () := by
  induction parts with
  | nil => exact absurd rfl hne
  | cons part parts ih =>
    obtain ⟨hpart, hparts⟩ := List.forall_mem_cons.mp h
    obtain ⟨e, hscan, hlisting, hfits⟩ := exists_fits_of_compile hpart
    cases parts with
    | nil =>
      refine ⟨.last e, ?_, ?_, rfl, fun prev hprev => ?_⟩
      · simpa [Tree.yield] using hscan
      · simpa [Tree.listing] using hlisting
      · obtain ⟨a, _, _, hcheck⟩ := checkFrom_argument hprev hfits (b := .closeParen) rfl rfl rfl []
        exact hcheck
    | cons next parts =>
      obtain ⟨args, hscans, hlistings, harity, hchecks⟩ := ih (by simp) hparts
      refine ⟨.more e args, ?_, ?_, ?_, fun prev hprev => ?_⟩
      · have hsymbol : Lexeme.ofSymbol? ',' = some .separator := rfl
        have hjoin : String.intercalate "," ((part :: next :: parts).map Prod.fst) =
            part.1 ++ String.singleton ',' ++
              String.intercalate "," ((next :: parts).map Prod.fst) := by
          simp only [List.map_cons, String.intercalate_cons_cons]
          rfl
        rw [hjoin, scan_append hscan hsymbol, hscans]
        rfl
      · rw [Tree.listing, hlisting, hlistings]
        rfl
      · rw [Tree.arity, Tree.separators, ← Tree.arity, harity]
        rfl
      · obtain ⟨a, hlast, hcheck⟩ := checkFrom_more hprev hfits args
        rw [hcheck, hchecks (some .separator) (.inr rfl), List.dropLast_cons_cons, List.any_cons,
          endsInFactorial_eq hscan hlast]
        cases a.isFactorial <;> rfl

/-! ## Calls -/

/-- The tree of a call by itself. -/
def Tree.ofCall (name : String) (args : Tree .arguments) : Tree .expression :=
  .ofTerm (.ofSigned (.ofPower (.ofBase (.ofAtom (.call name args)))))

lemma scan_callText {name joined : String} {args : Tree .arguments}
    (hname : scan name = .ok [Token.function name]) (hargs : scan joined = .ok args.yield) :
    scan (name ++ "(" ++ joined ++ ")") =
      .ok (Tree.ofCall (Text.lowercase name) args).yield := by
  have hopen : Lexeme.ofSymbol? '(' = some .openParen := rfl
  have hclose : Lexeme.ofSymbol? ')' = some .closeParen := rfl
  have hinside : scan (joined ++ ")") = .ok (args.yield ++ [.closeParen]) := by
    have hempty : scan "" = .ok [] := by
      rw [scan_eq, lexemes_of_none rfl]
      rfl
    have happend := scan_append (r := "") hargs hclose
    rw [String.append_empty, hempty] at happend
    exact happend
  have houtside := scan_append (r := joined ++ ")") hname hopen
  rw [hinside, ← String.append_assoc] at houtside
  exact houtside

/-- The rules of a call are those of its arguments. -/
lemma checkArrangement_call (name : String) (args : Tree .arguments) :
    checkArrangement (Tree.ofCall name args).written =
      checkFrom (some .openParen) (args.written ++ [.closeParen]) := by
  obtain ⟨b, w, hw, hb⟩ := args.written_eq_cons
  have hclose := Token.not_isCloseParen_of_startsOperand hb
  have hopen : checkToken (some (.ofLexeme (.function name))) .openParen (some b) = .ok () := by
    simp [checkToken, Token.openParen, Token.ofLexeme, checkOpenParen, hclose, Token.endsOperand]
  have hwritten : (Tree.ofCall name args).written =
      .ofLexeme (.function name) :: .openParen :: (args.written ++ [.closeParen]) := rfl
  have hfunction : checkToken none (.ofLexeme (.function name)) (some .openParen) = .ok () := rfl
  rw [hwritten, hw]
  simp only [checkArrangement, checkFrom, List.cons_append, List.isEmpty_cons, List.head?_cons,
    hfunction, hopen]
  rfl

/-- A call of texts that are compiled is compiled to what they are compiled to, and after it the
function with their number, unless one of them that is not the last ends in a factorial. -/
theorem compile_callText {name : String} (hne : name ≠ "")
    (halpha : ∀ c ∈ name.toList, c.isAlpha = true)
    (hreserved : Text.lowercase name ∉ ["x", "pi", "e"]) {parts : List (String × List Token)}
    (hparts : parts ≠ []) (hcompile : ∀ part ∈ parts, compile part.1 = .ok part.2) :
    compile (callText name (parts.map Prod.fst)) =
      if parts.dropLast.any (fun part => endsInFactorial part.1) then
        .error (.grammar .misplacedSeparator)
      else .ok (parts.flatMap Prod.snd ++ [(Token.function name).withArity parts.length]) := by
  obtain ⟨args, hscan, hlisting, harity, hcheck⟩ := exists_arguments hparts hcompile
  have htokenize : tokenize (callText name (parts.map Prod.fst)) =
      .ok (Tree.ofCall (Text.lowercase name) args).written := by
    rw [tokenize, callText, scan_callText (scan_name hne halpha hreserved) hscan,
      ← groupSigns_yield]
    rfl
  have hlistings : (Tree.ofCall (Text.lowercase name) args).listing =
      parts.flatMap Prod.snd ++ [(Token.function name).withArity parts.length] := by
    rw [← hlisting, ← harity]
    rfl
  have harranged := (checkArrangement_call (Text.lowercase name) args).trans
    (hcheck (some .openParen) (.inl rfl))
  rw [compile, bind_of_eq_ok htokenize, arrange, harranged, ← hlistings]
  cases parts.dropLast.any fun part => endsInFactorial part.1 with
  | true => rfl
  | false => exact convert_written _

theorem compile_callText_mean :
    compile (callText "Mean" ["-2", "3!"]) =
      .ok [.number "0", .number "2", .operator "-", .number "3", .operator "!",
        (Token.function "Mean").withArity 2] := by
  have hcompile : ∀ part ∈ [("-2", [.number "0", .number "2", .operator "-"]),
      ("3!", [.number "3", .operator "!"])], compile part.1 = .ok part.2 := by decide +kernel
  have halpha : ∀ c ∈ "Mean".toList, c.isAlpha = true := by simp
  have hreserved : Text.lowercase "Mean" ∉ ["x", "pi", "e"] := by decide +kernel
  have hcall := compile_callText (by simp) halpha hreserved (by simp) hcompile
  exact hcall.trans (if_neg (by decide +kernel))

/-- Two texts that are compiled and make no call, the first of them ending in a factorial. -/
theorem compile_callText_factorial_first :
    compile "3!" = .ok [.number "3", .operator "!"] ∧ compile "2" = .ok [.number "2"] ∧
      compile (callText "mean" ["3!", "2"]) = .error (.grammar .misplacedSeparator) := by
  decide +kernel

end Calculator
