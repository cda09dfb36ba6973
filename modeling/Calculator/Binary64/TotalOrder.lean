import Calculator.Binary64.Datum
import Calculator.Binary64.Exact

/-!
# A total order of data

The order of numbers leaves two gaps among the data: it does not tell the two zeros apart, and it
has no place for what is not a number.  Ranking a list needs a total order that agrees with it.  The
one used here reads the bits: the larger the magnitude, the further from zero, on the side that the
sign says.  So the negative zero comes just before the positive one; and of the data that are not
numbers, those with a sign come before negative infinity and those without one after positive
infinity, the larger the payload the further out.

`rank` is an integer that decides the order, and distinct data have distinct ranks.
-/

namespace Calculator.Binary64

/-- The place of a datum in the total order. -/
def rank (d : Datum) : Int :=
  let bits := d.bits.toNat
  if bits < signBit then bits else -(bits - signBit : Nat) - 1

/-- Whether a datum comes before another in the total order, or is the same. -/
def ranksLe (d e : Datum) : Bool :=
  rank d ≤ rank e

theorem ranksLe_total (d e : Datum) : (ranksLe d e || ranksLe e d) = true := by
  simpa [ranksLe] using Int.le_total (rank d) (rank e)

theorem ranksLe_trans {d e f : Datum} (hde : ranksLe d e = true) (hef : ranksLe e f = true) :
    ranksLe d f = true :=
  decide_eq_true (Int.le_trans (of_decide_eq_true hde) (of_decide_eq_true hef))

/-- Data of one rank are one datum. -/
theorem eq_of_rank_eq {d e : Datum} (h : rank d = rank e) : d = e := by
  obtain ⟨d⟩ := d
  obtain ⟨e⟩ := e
  apply congrArg Datum.mk
  apply UInt64.toNat_inj.mp
  simp only [rank] at h
  split at h <;> split at h <;> omega

/-- The total order is antisymmetric. -/
theorem eq_of_ranksLe {d e : Datum} (hde : ranksLe d e = true) (hed : ranksLe e d = true) :
    d = e :=
  eq_of_rank_eq (Int.le_antisymm (of_decide_eq_true hde) (of_decide_eq_true hed))

example : rank (.ofFloat (-0.0)) < rank (.ofFloat 0.0) := by decide
example : rank (.ofFloat (-1.0)) < rank (.ofFloat (-0.5)) := by decide
example : rank ⟨0xFFF8000000000000⟩ < rank (.ofFloat (-1.0 / 0.0)) := by decide
example : rank (.ofFloat (1.0 / 0.0)) < rank ⟨0x7FF8000000000000⟩ := by decide

end Calculator.Binary64
