import Calculator.Proofs.TotalOrder
import Calculator.Statistics
import Mathlib

/-!
# The median

The median is read off the ranked list, and lists with the same members are ranked alike, so it does
not depend on the order of its arguments.  What has to be said is where the middle stands among
data that may be repeated.  In a list in increasing order at most `i` members come before the one
at the place `i`, and at least `i + 1` do not come after it (`countP_before_le`,
`lt_countP_upTo`).  `HasRank` is this property without the list being in any order, and
`median_eq_middle` states the median by it.

The list may hold any data, several that are not numbers among them.  Which of these a sum or a
quotient answers is open, and does not matter to the float that the median stands for
(`NaNRule.toFloat_lift`).
-/

namespace Calculator

namespace Binary64

@[simp] lemma Datum.toFloat_ofFloat (x : Float) : (Datum.ofFloat x).toFloat = x :=
  Float.ofBits_toBits x

/-- An operation of data does on floats what it is lifted from, whatever the rule. -/
lemma NaNRule.toFloat_lift (rule : NaNRule) (op : Float → Float → Float) (d e : Datum) :
    (rule.lift op d e).toFloat = op d.toFloat e.toFloat := by
  rw [lift]
  split
  next hvalue =>
    have hanswer : (rule d e).val.toFloat.isNaN = true := (rule d e).property
    rw [Float.isNaN_eq_decide_eq_nan, decide_eq_true_eq] at hanswer hvalue
    rw [hanswer, hvalue]
  · exact Datum.toFloat_ofFloat _

end Binary64

namespace Statistics

open Binary64 (Datum NaNRule rank ranksLe)

/-! ## Places in an order -/

section Order

variable {l : List Datum} {i : Nat}

lemma rank_getElem_le (h : l.Pairwise fun a b => ranksLe a b = true) {j : Nat} (hij : i ≤ j)
    (hj : j < l.length) : rank l[i] ≤ rank l[j] := by
  rcases Nat.eq_or_lt_of_le hij with rfl | hlt
  · exact le_refl _
  · exact of_decide_eq_true (List.pairwise_iff_getElem.mp h i j (by omega) hj hlt)

/-- At most `i` members of a list in increasing order come before the one at the place `i`. -/
lemma countP_before_le (h : l.Pairwise fun a b => ranksLe a b = true) (hi : i < l.length) :
    (l.countP fun x => rank x < rank l[i]) ≤ i := by
  have hdrop : ((l.drop i).countP fun x => rank x < rank l[i]) = 0 := by
    rw [List.countP_eq_zero]
    intro x hx
    obtain ⟨j, hj, rfl⟩ := List.mem_iff_getElem.mp hx
    rw [List.length_drop] at hj
    have hle := rank_getElem_le h (Nat.le_add_right i j) (by omega)
    rw [List.getElem_drop]
    simpa using hle
  calc (l.countP fun x => rank x < rank l[i])
      = ((l.take i).countP fun x => rank x < rank l[i]) +
          (l.drop i).countP fun x => rank x < rank l[i] := by
        rw [← List.countP_append, List.take_append_drop]
    _ ≤ (l.take i).length := by
        rw [hdrop, Nat.add_zero]
        exact List.countP_le_length
    _ ≤ i := List.length_take_le i l

/-- At least `i + 1` members of a list in increasing order are not after the one at the place `i`.
-/
lemma lt_countP_upTo (h : l.Pairwise fun a b => ranksLe a b = true) (hi : i < l.length) :
    i < l.countP fun x => rank x ≤ rank l[i] := by
  have htake : ((l.take (i + 1)).countP fun x => rank x ≤ rank l[i]) = (l.take (i + 1)).length := by
    rw [List.countP_eq_length]
    intro x hx
    obtain ⟨j, hj, rfl⟩ := List.mem_iff_getElem.mp hx
    rw [List.length_take] at hj
    have hle := rank_getElem_le h (show j ≤ i by omega) hi
    rw [List.getElem_take]
    simpa using hle
  have hsub : ((l.take (i + 1)).countP fun x => rank x ≤ rank l[i]) ≤
      l.countP fun x => rank x ≤ rank l[i] := (List.take_sublist _ _).countP_le
  rw [htake, List.length_take] at hsub
  omega

end Order

/-- A member of a list that has the place `k` in the total order, the first place being the one: it
has fewer than `k` members before it, and no fewer than `k` with itself and its like. -/
def HasRank (data : List Datum) (k : Nat) (d : Datum) : Prop :=
  d ∈ data ∧ (data.countP fun e => rank e < rank d) < k ∧
    k ≤ data.countP fun e => rank e ≤ rank d

/-- The ranked list has its members at their ranks. -/
lemma hasRank_ranked (data : List Datum) {i : Nat} (hi : i < (ranked data).length) :
    HasRank data (i + 1) (ranked data)[i] := by
  have hperm := ranked_perm data
  refine ⟨hperm.mem_iff.mp (List.getElem_mem hi), ?_, ?_⟩
  · rw [← hperm.countP_eq]
    exact Nat.lt_succ_of_le (countP_before_le (ranked_pairwise data) hi)
  · rw [← hperm.countP_eq]
    exact lt_countP_upTo (ranked_pairwise data) hi

/-- What has a rank has few members after it. -/
lemma countP_after_of_hasRank {data : List Datum} {k : Nat} {d : Datum}
    (h : HasRank data k d) :
    (data.countP fun e => rank d < rank e) ≤ data.length - k := by
  have hparts := List.length_eq_countP_add_countP (fun e => decide (rank e ≤ rank d)) (l := data)
  have hnot : (data.countP fun e => ¬ decide (rank e ≤ rank d) = true) =
      data.countP fun e => rank d < rank e := by
    congr 1
    funext e
    simp
  rw [hnot] at hparts
  have hrank := h.2.2
  omega

/-! ## The median -/

section Median

variable (rule : NaNRule) {data : List Datum}

lemma ranked_ne_nil (h : data ≠ []) : ranked data ≠ [] := by
  intro hnil
  have hlength := length_ranked data
  rw [hnil, List.length_nil] at hlength
  exact h (List.length_eq_zero_iff.mp hlength.symm)

lemma median_of_ne_nil (h : data ≠ []) :
    median rule data = .ok (middle rule (ranked data) (ranked_ne_nil h)) :=
  dif_neg (ranked_ne_nil h)

/-- The middle of a list of odd length is one of its members. -/
lemma middle_of_odd {sorted : List Datum} (hne : sorted ≠ []) (hodd : sorted.length % 2 = 1)
    (hi : sorted.length / 2 < sorted.length) :
    middle rule sorted hne = sorted[sorted.length / 2] := by
  rw [middle, if_neg (by omega)]
  rfl

/-- The middle of a list of even length is half the sum of two neighbours. -/
lemma middle_of_even {sorted : List Datum} (hne : sorted ≠ []) (heven : sorted.length % 2 = 0)
    (hi : sorted.length / 2 < sorted.length) :
    middle rule sorted hne =
      rule.div (rule.add sorted[sorted.length / 2 - 1] sorted[sorted.length / 2])
        (.ofFloat 2.0) := by
  rw [middle, if_pos heven]
  rfl

/-- Half the sum of two data stands for half the sum of what they stand for. -/
lemma toFloat_half_sum (d e : Datum) :
    (rule.div (rule.add d e) (.ofFloat 2.0)).toFloat = (d.toFloat + e.toFloat) / 2.0 := by
  rw [NaNRule.div, NaNRule.toFloat_lift, NaNRule.add, NaNRule.toFloat_lift,
    Datum.toFloat_ofFloat]

/-- No more numbers are less than a datum than come before it. -/
lemma countP_less_le (data : List Datum) (m : Datum) :
    (data.countP fun d => d.toFloat < m.toFloat) ≤ data.countP fun d => rank d < rank m :=
  List.countP_mono_left fun _ _ h => decide_eq_true (Binary64.rank_lt_rank (of_decide_eq_true h))

/-- No more numbers are greater than a datum than come after it. -/
lemma countP_greater_le (data : List Datum) (m : Datum) :
    (data.countP fun d => m.toFloat < d.toFloat) ≤ data.countP fun d => rank m < rank d :=
  List.countP_mono_left fun _ _ h => decide_eq_true (Binary64.rank_lt_rank (of_decide_eq_true h))

/-- The median does not depend on the order of the data.  Of an odd number of data it is one with
at most half of the others before it and at most half of them after it, whether by the total order
or by the order of numbers; of an even number it is half the sum of the two in the middle.  The
places that are read are places of the ranked list. -/
theorem median_eq_middle (rule : NaNRule) (data : List Datum) (h : data ≠ []) :
    (∀ others, data.Perm others → median rule others = median rule data) ∧
      (data.length % 2 = 1 →
        ∃ m ∈ data, median rule data = .ok m ∧
          (ranked data)[data.length / 2]? = some m ∧
          (data.countP fun d => rank d < rank m) ≤ (data.length - 1) / 2 ∧
          (data.countP fun d => rank m < rank d) ≤ (data.length - 1) / 2 ∧
          (data.countP fun d => d.toFloat < m.toFloat) ≤ (data.length - 1) / 2 ∧
          (data.countP fun d => m.toFloat < d.toFloat) ≤ (data.length - 1) / 2) ∧
      (data.length % 2 = 0 →
        ∃ a b m, median rule data = .ok m ∧
          m = rule.div (rule.add a b) (.ofFloat 2.0) ∧
          m.toFloat = (a.toFloat + b.toFloat) / 2.0 ∧
          1 ≤ data.length / 2 ∧
          (ranked data)[data.length / 2 - 1]? = some a ∧
          (ranked data)[data.length / 2]? = some b ∧
          HasRank data (data.length / 2) a ∧ HasRank data (data.length / 2 + 1) b) := by
  have hpos : 0 < data.length := List.length_pos_iff.mpr h
  have hlength : (ranked data).length = data.length := length_ranked data
  have hupper : data.length / 2 < (ranked data).length := by omega
  refine ⟨fun others hperm => ?_, fun hodd => ?_, fun heven => ?_⟩
  · simp only [median, ranked_eq_of_perm hperm]
  · have hmedian : median rule data = .ok (ranked data)[data.length / 2] := by
      rw [median_of_ne_nil rule h, middle_of_odd rule _ (by omega) (by omega)]
      simp only [hlength]
    have hrank := hasRank_ranked data hupper
    have hbefore := hrank.2.1
    have hafter := countP_after_of_hasRank hrank
    have hless := countP_less_le data (ranked data)[data.length / 2]
    have hgreater := countP_greater_le data (ranked data)[data.length / 2]
    exact ⟨_, hrank.1, hmedian, List.getElem?_eq_getElem hupper, by omega, by omega, by omega,
      by omega⟩
  · have hlower : data.length / 2 - 1 < (ranked data).length := by omega
    have hmedian : median rule data =
        .ok (rule.div (rule.add (ranked data)[data.length / 2 - 1]
          (ranked data)[data.length / 2]) (.ofFloat 2.0)) := by
      rw [median_of_ne_nil rule h, middle_of_even rule _ (by omega) (by omega)]
      simp only [hlength]
    have hrank := hasRank_ranked data hlower
    rw [Nat.sub_add_cancel (by omega)] at hrank
    exact ⟨_, _, _, hmedian, rfl, toFloat_half_sum rule _ _, by omega,
      List.getElem?_eq_getElem hlower, List.getElem?_eq_getElem hupper, hrank,
      hasRank_ranked data hupper⟩

/-- Of the data that are not numbers, the one with a sign comes before all others and the one
without after them.  With both, the middle is where it is without them; with one, it is moved. -/
theorem median_eq_middle_of_signed_nan :
    median .plain [⟨0x7FF8000000000000⟩, .ofFloat 1.0, ⟨0xFFF8000000000000⟩, .ofFloat 3.0] =
        .ok (.ofFloat 2.0) ∧
      HasRank [⟨0x7FF8000000000000⟩, .ofFloat 1.0, ⟨0xFFF8000000000000⟩, .ofFloat 3.0] 2
        (.ofFloat 1.0) ∧
      median .plain [⟨0xFFF8000000000000⟩, .ofFloat 1.0, .ofFloat 3.0] = .ok (.ofFloat 1.0) ∧
      median .plain [.ofFloat 1.0, .ofFloat 3.0, ⟨0xFFF8000000000000⟩] =
        median .plain [⟨0xFFF8000000000000⟩, .ofFloat 1.0, .ofFloat 3.0] := by
  obtain ⟨-, -, heven⟩ := median_eq_middle .plain
    [⟨0x7FF8000000000000⟩, .ofFloat 1.0, ⟨0xFFF8000000000000⟩, .ofFloat 3.0] (by simp)
  obtain ⟨a, b, m, hmedian, hm, -, -, ha, hb, hrank, -⟩ := heven (by decide)
  obtain rfl : .ofFloat 1.0 = a := Option.some.inj (Eq.trans (by decide +kernel) ha)
  obtain rfl : .ofFloat 3.0 = b := Option.some.inj (Eq.trans (by decide +kernel) hb)
  obtain ⟨hperm, hodd, -⟩ := median_eq_middle .plain
    [⟨0xFFF8000000000000⟩, .ofFloat 1.0, .ofFloat 3.0] (by simp)
  obtain ⟨n, -, hsigned, hn, -⟩ := hodd (by decide)
  obtain rfl : .ofFloat 1.0 = n := Option.some.inj (Eq.trans (by decide +kernel) hn)
  refine ⟨?_, hrank, hsigned, hperm _ (by decide +kernel)⟩
  rw [hmedian, hm]
  decide +kernel

end Median

end Statistics

end Calculator
