import Calculator.Proofs.Balance
import Calculator.Proofs.WellFormed
import Mathlib.Data.List.Infix

/-!
# Where the conversion fails

The conversion takes any tokens, arranged as an expression or not.  If every function in them is
directly followed by its parenthesis, it can only fail for how the tokens are bracketed: because of
a parenthesis that closes none, because of a separator that does not stand in a call, or because of
a parenthesis that is never closed.  The first such fault decides (`FirstFault`).

Which parenthesis a separator stands in is said here of the tokens alone, by `Encloses`.  The
conversion asks its two stacks.  `OpenCalls` lists the open parentheses of some tokens, the
innermost first, with each of them whether it belongs to a call; after any tokens that have been
read, the frames are that list (`Conversion.Follows`).  One more token keeps it so, and it is
refused exactly where it is misplaced (`Conversion.Follows.misplaced_of_read`,
`Conversion.Follows.exists_fault`).
-/

namespace Calculator

variable {ts : List Token} {t : Token} {code : Code} {calls inner : List Bool}

/-- Whether a parenthesis is open at the end of the tokens. -/
def IsInside (ts : List Token) : Prop := ∃ outside, Encloses outside ts

/-- Whether the innermost parenthesis that is open at the end of the tokens belongs to a call: it
stands directly after a function. -/
def InCall (ts : List Token) : Prop :=
  ∃ outside, Encloses outside ts ∧ outside.getLast?.any Token.isFunction = true

/-- A token that cannot be read after the tokens `before`, with the kind of failure. -/
inductive Misplaced (before : List Token) (t : Token) : Code → Prop
  | close (ht : t.isCloseParen = true) (h : ¬ IsInside before) :
      Misplaced before t .unbalancedParentheses
  | separator (ht : t.lexeme = .separator) (h : ¬ InCall before) :
      Misplaced before t .malformedSyntax

/-- No token is misplaced after those before it. -/
def Placed (ts : List Token) : Prop :=
  ∀ before t after, ts = before ++ t :: after → ∀ code, ¬ Misplaced before t code

/-- The kind of failure of the first misplaced token, or of a parenthesis that is never closed if no
token is misplaced. -/
inductive FirstFault : List Token → Code → Prop
  | misplaced {before after : List Token} {t : Token} {code : Code} (hbefore : Placed before)
      (ht : Misplaced before t code) : FirstFault (before ++ t :: after) code
  | unclosed {ts : List Token} (hts : Placed ts) (hopen : IsInside ts) :
      FirstFault ts .unbalancedParentheses

/-! ## Open parentheses -/

/-- The parentheses that are open at the end of some tokens, the innermost first, with each of them
whether it belongs to a call. -/
inductive OpenCalls : List Token → List Bool → Prop
  | closed {ts : List Token} (h : Balanced ts) : OpenCalls ts []
  | inside {outside inside : List Token} {o : Token} {calls : List Bool}
      (h : OpenCalls outside calls) (ho : o.isOpenParen = true) (hinside : Balanced inside) :
      OpenCalls (outside ++ o :: inside) (outside.getLast?.any Token.isFunction :: calls)

namespace OpenCalls

lemma append (h : OpenCalls ts calls) {r : List Token} (hr : Balanced r) :
    OpenCalls (ts ++ r) calls := by
  cases h with
  | closed h => exact .closed (h.append hr)
  | inside h ho hinside =>
    rw [List.append_assoc, List.cons_append]
    exact .inside h ho (hinside.append hr)

/-- One more token. -/
lemma concat (h : OpenCalls ts calls)
    (hnest : (ts.getLast?.getD .openParen).nest t calls = some inner) :
    OpenCalls (ts ++ [t]) inner := by
  obtain ⟨l, n⟩ := t
  cases l with
  | openParen =>
    cases hnest
    have hlast : (ts.getLast?.getD .openParen).isFunction = ts.getLast?.any Token.isFunction := by
      cases ts.getLast? <;> rfl
    rw [hlast]
    exact .inside h rfl balanced_nil
  | closeParen =>
    cases h with
    | closed => cases hnest
    | inside h ho hinside =>
      cases hnest
      rw [List.append_assoc]
      exact h.append (hinside.enclosed ho rfl)
  | separator =>
    simp only [Token.nest] at hnest
    split at hnest
    · cases hnest
      exact h.append (balanced_singleton rfl rfl)
    · cases hnest
  | _ =>
    cases hnest
    exact h.append (balanced_singleton rfl rfl)

lemma balanced_iff_eq_nil (h : OpenCalls ts calls) : Balanced ts ↔ calls = [] := by
  cases h with
  | closed h => simp [h]
  | inside _ ho hinside => simp [not_balanced_append ho hinside]

lemma isInside_iff (h : OpenCalls ts calls) : IsInside ts ↔ calls ≠ [] := by
  cases h with
  | closed h => simp [IsInside, h.not_encloses]
  | inside _ ho hinside => simpa using ⟨_, _, _, ho, hinside, rfl⟩

lemma inCall_iff (h : OpenCalls ts calls) : InCall ts ↔ calls.head? = some true := by
  cases h with
  | closed h => simp [InCall, h.not_encloses]
  | @inside outside inside o _ _ ho hinside =>
    have hencloses : Encloses outside (outside ++ o :: inside) := ⟨o, inside, ho, hinside, rfl⟩
    rw [List.head?_cons, Option.some.injEq]
    constructor
    · rintro ⟨other, hother, hcall⟩
      rwa [hencloses.unique hother]
    · exact fun hcall => ⟨outside, hencloses, hcall⟩

end OpenCalls

/-! ## Reading -/

namespace Conversion

variable {c d : Conversion} {fault : Fault}

/-- After these tokens the conversion has got so far, and its frames are the open parentheses. -/
structure Follows (c : Conversion) (ts : List Token) : Prop where
  read : start.readAll ts = .ok c
  coherent : c.Coherent (ts.getLast?.getD .openParen)
  calls : OpenCalls ts (c.frames.map Frame.isCall)

namespace Follows

lemma nil : start.Follows [] := ⟨rfl, coherent_start, .closed balanced_nil⟩

lemma isInside_iff (h : c.Follows ts) : IsInside ts ↔ c.frames ≠ [] := by
  rw [h.calls.isInside_iff, ne_eq, List.map_eq_nil_iff]

/-- One more token that is read, a parenthesis if it comes after a function. -/
lemma concat (h : c.Follows ts) (hopens : ∀ p ∈ ts.getLast?, Opens p t)
    (ht : c.read t = .ok d) : d.Follows (ts ++ [t]) := by
  have hprev : Opens (ts.getLast?.getD .openParen) t := by
    cases hlast : ts.getLast? with
    | none => nofun
    | some p => exact hopens p hlast
  obtain ⟨hd, hnest⟩ := h.coherent.read hprev ht
  refine ⟨?_, ?_, h.calls.concat hnest⟩
  · rw [readAll_append_of_ok h.read, readAll_cons ht]
    rfl
  · simpa using hd

/-- A token that is refused is misplaced. -/
lemma misplaced_of_read (h : c.Follows ts) (ht : c.read t = .error fault) :
    fault.stage = .grammar ∧ Misplaced ts t fault.code := by
  rcases h.coherent.read_eq_error_iff.mp ht with ⟨hclose, hframes, rfl⟩ | ⟨hsep, hcall, rfl⟩
  · have hinside : ¬ IsInside ts := by simpa [h.isInside_iff] using hframes
    exact ⟨rfl, .close hclose hinside⟩
  · exact ⟨rfl, .separator hsep (mt h.calls.inCall_iff.mp hcall)⟩

/-- A misplaced token is refused. -/
lemma exists_fault (h : c.Follows ts) (ht : Misplaced ts t code) :
    ∃ fault, c.read t = .error fault ∧ fault.code = code := by
  cases ht with
  | close hclose hinside =>
    have hframes : c.frames = [] := by simpa [h.isInside_iff] using hinside
    exact ⟨_, h.coherent.read_eq_error_iff.mpr (.inl ⟨hclose, hframes, rfl⟩), rfl⟩
  | separator hsep hcall =>
    rw [h.calls.inCall_iff] at hcall
    exact ⟨_, h.coherent.read_eq_error_iff.mpr (.inr ⟨hsep, hcall, rfl⟩), rfl⟩

end Follows

/-- Whatever has been read has led to the parentheses that are open. -/
theorem follows_of_readAll (hchain : ts.IsChain Opens) (h : start.readAll ts = .ok c) :
    c.Follows ts := by
  induction ts using List.reverseRecOn generalizing c with
  | nil =>
    cases h
    exact .nil
  | append_singleton ts t ih =>
    obtain ⟨hts, -, hlast⟩ := List.isChain_append.mp hchain
    rw [readAll_append] at h
    obtain ⟨d, hd, ht⟩ := of_bind_eq_ok h
    obtain ⟨e, he, hdone⟩ := of_bind_eq_ok ht
    cases hdone
    exact (ih hts hd).concat (fun p hp => hlast p hp t rfl) he

/-- Where reading stops, the tokens before have been read. -/
lemma of_readAll_eq_error (h : c.readAll ts = .error fault) :
    ∃ before t after d, ts = before ++ t :: after ∧ c.readAll before = .ok d ∧
      d.read t = .error fault := by
  induction ts generalizing c with
  | nil => cases h
  | cons t ts ih =>
    rcases of_bind_eq_error h with ht | ⟨d, ht, hts⟩
    · exact ⟨[], t, ts, c, rfl, rfl, ht⟩
    · obtain ⟨before, u, after, e, rfl, hbefore, hu⟩ := ih hts
      exact ⟨t :: before, u, after, e, rfl, (readAll_cons ht before).trans hbefore, hu⟩

/-- What can be read is placed. -/
lemma placed_of_readAll (hchain : ts.IsChain Opens) (h : start.readAll ts = .ok c) :
    Placed ts := by
  rintro before t after rfl code hmisplaced
  rw [readAll_append] at h
  obtain ⟨d, hbefore, hrest⟩ := of_bind_eq_ok h
  have hfollows := follows_of_readAll hchain.left_of_append hbefore
  obtain ⟨fault, ht, -⟩ := hfollows.exists_fault hmisplaced
  obtain ⟨e, he, -⟩ := of_bind_eq_ok hrest
  cases ht.symm.trans he

/-- Where reading stops, the first token is misplaced. -/
lemma exists_misplaced_of_readAll (hchain : ts.IsChain Opens)
    (h : start.readAll ts = .error fault) :
    fault.stage = .grammar ∧ ∃ before t after, ts = before ++ t :: after ∧ Placed before ∧
      Misplaced before t fault.code := by
  obtain ⟨before, t, after, d, rfl, hbefore, ht⟩ := of_readAll_eq_error h
  have hfollows := follows_of_readAll hchain.left_of_append hbefore
  obtain ⟨hstage, hmisplaced⟩ := hfollows.misplaced_of_read ht
  have hplaced := placed_of_readAll hchain.left_of_append hbefore
  exact ⟨hstage, before, t, after, rfl, hplaced, hmisplaced⟩

/-- What is placed can be read. -/
lemma exists_follows (hchain : ts.IsChain Opens) (h : Placed ts) :
    ∃ c : Conversion, c.Follows ts := by
  cases hread : start.readAll ts with
  | ok c => exact ⟨c, follows_of_readAll hchain hread⟩
  | error fault =>
    obtain ⟨-, before, t, after, hts, -, ht⟩ := exists_misplaced_of_readAll hchain hread
    exact absurd ht (h before t after hts _)

end Conversion

/-! ## The whole conversion -/

section Chain

open Conversion

variable {fault : Fault} (hchain : ts.IsChain Opens)
include hchain

lemma firstFault_of_convert (h : convert ts = .error fault) :
    fault.stage = .grammar ∧ FirstFault ts fault.code := by
  rcases of_bind_eq_error h with hread | ⟨c, hread, hfinish⟩
  · obtain ⟨hstage, before, t, after, rfl, hplaced, ht⟩ :=
      exists_misplaced_of_readAll hchain hread
    exact ⟨hstage, .misplaced hplaced ht⟩
  · have hfollows := follows_of_readAll hchain hread
    obtain ⟨hopen, rfl⟩ := hfollows.coherent.finish_eq_error_iff.mp hfinish
    exact ⟨rfl, .unclosed (placed_of_readAll hchain hread) (hfollows.isInside_iff.mpr hopen)⟩

lemma exists_fault_of_firstFault (h : FirstFault ts code) :
    ∃ fault, convert ts = .error fault ∧ fault.code = code := by
  cases h with
  | @misplaced before after t _ hbefore ht =>
    obtain ⟨c, hc⟩ := exists_follows hchain.left_of_append hbefore
    obtain ⟨fault, hread, hcode⟩ := hc.exists_fault ht
    have hstop : start.readAll (before ++ t :: after) = .error fault := by
      rw [readAll_append_of_ok hc.read, readAll, hread]
      rfl
    refine ⟨fault, ?_, hcode⟩
    rw [convert, hstop]
    rfl
  | unclosed hts hopen =>
    obtain ⟨c, hc⟩ := exists_follows hchain hts
    have hfinish := hc.coherent.finish_eq_error_iff.mpr ⟨hc.isInside_iff.mp hopen, rfl⟩
    exact ⟨.grammar .unmatchedOpen, (bind_of_eq_ok hc.read _).trans hfinish, rfl⟩

/-- There is no first fault if and only if the parentheses pair up and every separator stands in a
call. -/
lemma forall_not_firstFault_iff :
    (∀ code, ¬ FirstFault ts code) ↔
      Balanced ts ∧ ∀ before t after, ts = before ++ t :: after → t.lexeme = .separator →
        InCall before := by
  constructor
  · intro h
    cases hread : start.readAll ts with
    | error fault =>
      obtain ⟨-, before, t, after, rfl, hbefore, ht⟩ := exists_misplaced_of_readAll hchain hread
      exact absurd (.misplaced hbefore ht) (h _)
    | ok c =>
      have hplaced := placed_of_readAll hchain hread
      have hinside : ¬ IsInside ts := fun hopen => h _ (.unclosed hplaced hopen)
      have hcalls := (follows_of_readAll hchain hread).calls
      rw [hcalls.isInside_iff, not_not] at hinside
      refine ⟨hcalls.balanced_iff_eq_nil.mpr hinside, fun before t after hts hsep => ?_⟩
      by_contra hcall
      exact hplaced before t after hts _ (.separator hsep hcall)
  · rintro ⟨hbalanced, hcalls⟩ code h
    cases h with
    | @misplaced before after t _ hbefore ht =>
      obtain ⟨c, hc⟩ := exists_follows hchain.left_of_append hbefore
      cases ht with
      | close hclose hinside =>
        rw [hc.calls.isInside_iff, not_not, ← hc.calls.balanced_iff_eq_nil] at hinside
        exact hinside.not_append_close hclose hbalanced
      | separator hsep hcall => exact hcall (hcalls before t after rfl hsep)
    | unclosed _ hopen =>
      obtain ⟨outside, h⟩ := hopen
      exact hbalanced.not_encloses outside h

end Chain

/-- Tokens in which every function is directly followed by its parenthesis are converted if and only
if their parentheses pair up and every separator stands in a call.  Otherwise the grammar is at
fault, and the kind of failure is that of the first fault. -/
theorem convert_decided_by_brackets
    (hcalls : ∀ before t after, ts = before ++ t :: after → t.isFunction = true →
      after.head?.any Token.isOpenParen = true) :
    ((∃ p, convert ts = .ok p) ↔
      Balanced ts ∧ ∀ before t after, ts = before ++ t :: after → t.lexeme = .separator →
        InCall before) ∧
    (∀ fault, convert ts = .error fault →
      fault.stage = .grammar ∧ FirstFault ts fault.code) ∧
    ∀ code, FirstFault ts code → ∃ fault, convert ts = .error fault ∧ fault.code = code := by
  have hchain : ts.IsChain Conversion.Opens := by
    rw [List.isChain_iff_forall_rel_of_append_cons_cons]
    intro a b l r hts ha
    exact hcalls l a (b :: r) hts ha
  refine ⟨?_, fun fault => firstFault_of_convert hchain,
    fun code => exists_fault_of_firstFault hchain⟩
  rw [← forall_not_firstFault_iff hchain]
  constructor
  · rintro ⟨p, hp⟩ code hcode
    obtain ⟨fault, hfault, -⟩ := exists_fault_of_firstFault hchain hcode
    cases hp.symm.trans hfault
  · intro h
    cases hconvert : convert ts with
    | ok p => exact ⟨p, rfl⟩
    | error fault => exact absurd (firstFault_of_convert hchain hconvert).2 (h _)

/-- `max(2),3` fails for its separator, which stands after the call. -/
theorem convert_decided_by_brackets_after_call :
    let ts : List Token := [.ofLexeme (.function "max"), .openParen, .number "2", .closeParen,
      .separator, .number "3"]
    convert ts = .error (.grammar .separatorOutsideCall) ∧ FirstFault ts .malformedSyntax := by
  intro ts
  have htails : ∀ l ∈ ts.tails, l.head?.any Token.isFunction = true →
      l.tail.head?.any Token.isOpenParen = true := by decide
  have hcalls : ∀ before t after, ts = before ++ t :: after → t.isFunction = true →
      after.head?.any Token.isOpenParen = true :=
    fun before t after hts => htails (t :: after) ((List.mem_tails ..).mpr ⟨before, hts.symm⟩)
  have hconvert : convert ts = .error (.grammar .separatorOutsideCall) := by decide
  exact ⟨hconvert, ((convert_decided_by_brackets hcalls).2.1 _ hconvert).2⟩

end Calculator
