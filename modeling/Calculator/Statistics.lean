import Calculator.Binary64.TotalOrder
import Calculator.Fault

/-!
# Statistics of a list

Mean, median, mode, variance and standard deviation of a list of floats.  Each refuses the empty
list.

Sums run from left to right and begin with the negative zero, which is neutral also for a list of
negative zeros.  The median ranks the list and takes the middle, or half the sum of the two in the
middle; as the ranking tells apart what is not a number, it is a median of data.  The mode counts
the values in groups of the same value, where the two zeros are the same and so is all that is not a
number, and answers only if one group has more members than every other; the answer is the first
member of it.
-/

namespace Calculator.Statistics

/-- A statistic has no answer for an empty list. -/
def noArguments (name : String) : Fault :=
  .evaluation (.noArguments name)

/-- The sum of a list from left to right. -/
def sum (values : List Float) : Float :=
  values.foldl (· + ·) (-0.0)

/-- The mean of a list that has been found not to be empty. -/
def meanOf (values : List Float) : Float :=
  sum values / Float.ofNat values.length

/-- The sum of a list, divided by its length. -/
def mean (values : List Float) : Except Fault Float :=
  if values.isEmpty then .error (noArguments "mean") else .ok (meanOf values)

/-! ## Spread -/

/-- The mean of the squared distances from the mean. -/
def varianceOf (values : List Float) : Float :=
  let center := meanOf values
  meanOf (values.map fun v => (v - center) * (v - center))

/-- The mean of the squared distances from the mean, where there is a value at all. -/
def variance (values : List Float) : Except Fault Float :=
  if values.isEmpty then .error (noArguments "variance") else .ok (varianceOf values)

/-- The square root of the variance. -/
def standardDeviation (values : List Float) : Except Fault Float :=
  if values.isEmpty then .error (noArguments "standarddeviation")
  else .ok (varianceOf values).sqrt

/-! ## Median -/

section Median

open Binary64 (Datum NaNRule ranksLe)

/-- A list in increasing order with one more datum, put in its place. -/
def insertRanked (d : Datum) : List Datum → List Datum
  | [] => [d]
  | e :: es => if ranksLe d e then d :: e :: es else e :: insertRanked d es

/-- A list in increasing order. -/
def ranked (data : List Datum) : List Datum :=
  data.foldr insertRanked []

theorem insertRanked_perm (d : Datum) (es : List Datum) : (insertRanked d es).Perm (d :: es) := by
  induction es with
  | nil => exact .refl _
  | cons e es ih =>
    rw [insertRanked]
    split
    · exact .refl _
    · exact (ih.cons e).trans (.swap d e es)

theorem ranked_perm (data : List Datum) : (ranked data).Perm data := by
  induction data with
  | nil => exact .refl _
  | cons d data ih => exact (insertRanked_perm d _).trans (ih.cons d)

theorem length_ranked (data : List Datum) : (ranked data).length = data.length :=
  (ranked_perm data).length_eq

/-- Putting a datum in its place keeps the order. -/
theorem insertRanked_pairwise (d : Datum) {es : List Datum}
    (h : es.Pairwise fun a b => ranksLe a b = true) :
    (insertRanked d es).Pairwise fun a b => ranksLe a b = true := by
  induction es with
  | nil => exact List.pairwise_singleton ..
  | cons e es ih =>
    obtain ⟨head, tail⟩ := List.pairwise_cons.mp h
    rw [insertRanked]
    split
    · next le =>
      refine List.pairwise_cons.mpr ⟨fun f mem => ?_, h⟩
      rcases List.mem_cons.mp mem with rfl | mem
      · exact le
      · exact Binary64.ranksLe_trans le (head f mem)
    · next gt =>
      have le : ranksLe e d = true :=
        (Bool.or_eq_true _ _ ▸ Binary64.ranksLe_total d e).resolve_left gt
      refine List.pairwise_cons.mpr ⟨fun f mem => ?_, ih tail⟩
      rcases List.mem_cons.mp ((insertRanked_perm d es).mem_iff.mp mem) with rfl | mem
      · exact le
      · exact head f mem

/-- A list that is ranked is in increasing order. -/
theorem ranked_pairwise (data : List Datum) :
    (ranked data).Pairwise fun a b => ranksLe a b = true := by
  induction data with
  | nil => exact .nil
  | cons d data ih => exact insertRanked_pairwise d ih

/-- Lists with the same members are ranked alike. -/
theorem ranked_eq_of_perm {ds es : List Datum} (h : ds.Perm es) : ranked ds = ranked es :=
  List.Perm.eq_of_pairwise (fun _ _ _ _ => Binary64.eq_of_ranksLe) (ranked_pairwise ds)
    (ranked_pairwise es) (((ranked_perm ds).trans h).trans (ranked_perm es).symm)

variable (rule : NaNRule)

/-- The middle of a list in increasing order that is not empty. -/
def middle (sorted : List Datum) (h : sorted ≠ []) : Datum :=
  have pos : 0 < sorted.length := List.length_pos_iff.mpr h
  let upper := sorted.get ⟨sorted.length / 2, by omega⟩
  if sorted.length % 2 = 0 then
    rule.div (rule.add (sorted.get ⟨sorted.length / 2 - 1, by omega⟩) upper) (.ofFloat 2.0)
  else upper

/-- The middle of a list in increasing order, or half the sum of the two in the middle. -/
def median (data : List Datum) : Except Fault Datum :=
  if h : ranked data = [] then .error (noArguments "median")
  else .ok (middle rule (ranked data) h)

example :
    median .plain [⟨0xFFF8000000000000⟩, .ofFloat 1.0, .ofFloat 2.0] = .ok (.ofFloat 1.0) := by
  decide +kernel

/-- The median of the floats that a calculation has come to.  Which sign the result of an undefined
operation has is left open by arithmetic.  Here it has none, so what is not a number comes last. -/
def medianOfFloats (values : List Float) : Except Fault Float :=
  (median .plain (values.map .ofFloat)).map Datum.toFloat

/-- As the other statistics, the median fails for the empty list alone. -/
theorem medianOfFloats_eq (values : List Float) :
    ∃ x, medianOfFloats values =
      if values.isEmpty then .error (noArguments "median") else .ok x := by
  have same : ranked (values.map .ofFloat) = [] ↔ values = [] := by
    simp only [← List.length_eq_zero_iff, length_ranked, List.length_map]
  by_cases h : values = []
  · refine ⟨0.0, ?_⟩
    rw [medianOfFloats, median, dif_pos (same.mpr h), h]
    rfl
  · have nonempty := mt same.mp h
    refine ⟨(middle .plain _ nonempty).toFloat, ?_⟩
    rw [medianOfFloats, median, dif_neg nonempty, if_neg (by simpa using h)]
    rfl

example : medianOfFloats [3.0, -0.0, 0.0, 1.0] = .ok 0.5 := by decide +kernel
example : medianOfFloats [0.0 / 0.0, 1.0, 2.0] = .ok 2.0 := by decide +kernel

end Median

/-! ## Mode -/

/-- The bits by which a value is known: those of the float, but one zero stands for both.  All that
is not a number has the same bits already. -/
def groupKey (x : Float) : UInt64 :=
  if x.toBits = (-0.0 : Float).toBits then (0.0 : Float).toBits else x.toBits

/-- Whether two floats count as one value: the two zeros do, and all that is not a number. -/
def sameValue (x y : Float) : Bool :=
  groupKey x == groupKey y

theorem sameValue_refl (x : Float) : sameValue x x = true :=
  beq_self_eq_true _

theorem sameValue_symm {x y : Float} (h : sameValue x y = true) : sameValue y x = true :=
  beq_iff_eq.mpr (beq_iff_eq.mp h).symm

theorem sameValue_trans {x y z : Float} (hxy : sameValue x y = true)
    (hyz : sameValue y z = true) : sameValue x z = true :=
  beq_iff_eq.mpr ((beq_iff_eq.mp hxy).trans (beq_iff_eq.mp hyz))

/-- A tally with one more value.  An entry of a tally is a group: the member that was met first, and
how many have been met. -/
def recordValue (v : Float) : List (Float × Nat) → List (Float × Nat)
  | [] => [(v, 1)]
  | (w, n) :: tally =>
    if sameValue w v then (w, n + 1) :: tally else (w, n) :: recordValue v tally

/-- The tally of a list, from left to right. -/
def tallyOf (values : List Float) : List (Float × Nat) :=
  values.foldl (fun tally v => recordValue v tally) []

/-- The number of members of the largest group. -/
def largestCount (tally : List (Float × Nat)) : Nat :=
  (tally.map Prod.snd).max?.getD 0

/-- The first member of the group that has more members than every other, if one has.  A value that
occurs once is the answer only where there is no other. -/
def mode (values : List Float) : Except Fault Float :=
  if values.isEmpty then .error (noArguments "mode")
  else
    let tally := tallyOf values
    let most := largestCount tally
    match tally.filter fun group => group.2 == most with
    | [(v, _)] =>
      if 1 < most || tally.length == 1 then .ok v
      else .error (.evaluation (.noUniqueMode values))
    | _ => .error (.evaluation (.noUniqueMode values))

example : mode [-0.0, 0.0, 1.0] = .ok (-0.0) := by decide +kernel
example : mode [1.0, 0.0 / 0.0, 0.0 / 0.0] = .ok (0.0 / 0.0) := by decide +kernel
example : mode [2.0, 1.0] = .error (.evaluation (.noUniqueMode [2.0, 1.0])) := by decide +kernel

end Calculator.Statistics
