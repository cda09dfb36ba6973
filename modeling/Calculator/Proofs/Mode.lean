import Calculator.Statistics
import Mathlib

/-!
# The mode

The mode is counted in one pass.  The tally of a list holds one entry for each group, with the
member of the group that comes first and the number of all its members; one more value preserves
this (`Tallies.recordValue`), so the whole pass arrives at it (`tallies_tallyOf`).

The entry with the largest number is the only one exactly if its group outnumbers every other
(`outnumbers_of_filter`, `filter_of_outnumbers`).  A value that occurs once is refused if there are
other values, but then it was not the only entry with the largest number: no count is below one
(`length_eq_one_of_filter`).  So the mode is the first member of the group that outnumbers every
other (`mode_eq_ok_iff`), and that group is the same in whatever order the values come.

Values are one group if they are equal as floats or both not a number (`sameValue_eq_isSameNumber`).
-/

namespace Calculator.Statistics

/-! ## Groups -/

/-- Whether two floats count as one value: the two zeros are equal, and all that is not a number is
one value as well. -/
def isSameNumber (x y : Float) : Bool :=
  x == y || x.isNaN && y.isNaN

/-- The bits of a group are those of its number, the positive zero if it is zero. -/
lemma groupKey_eq (x : Float) : groupKey x = (if x = -0.0 then 0.0 else x : Float).toBits := by
  rw [groupKey]
  simp only [Float.toBits_inj]
  split <;> rfl

/-- The values are sorted into groups by the equality of floats, but for what is not a number. -/
lemma sameValue_eq_isSameNumber (x y : Float) : sameValue x y = isSameNumber x y := by
  have hzeros : (0.0 : Float) ≠ -0.0 := by decide +kernel
  have hnan : Float.nan ≠ 0.0 ∧ Float.nan ≠ -0.0 := by decide +kernel
  rw [Bool.eq_iff_iff, sameValue, beq_iff_eq, groupKey_eq, groupKey_eq, Float.toBits_inj,
    isSameNumber, Bool.or_eq_true, Bool.and_eq_true, Float.beq_iff_ne_nan_and_eq,
    show (0 : Float) = 0.0 by decide +kernel, Float.isNaN_eq_decide_eq_nan,
    Float.isNaN_eq_decide_eq_nan, decide_eq_true_eq, decide_eq_true_eq]
  grind

/-! ## The tally -/

section Tally

variable {values : List Float} {tally : List (Float × Nat)} {v w : Float}

/-- The number of members of the group of a value. -/
def frequency (values : List Float) (v : Float) : Nat :=
  values.countP (sameValue v)

/-- A tally of a list: one entry for each group, with the first member and the number of members. -/
structure Tallies (tally : List (Float × Nat)) (values : List Float) : Prop where
  first : ∀ g ∈ tally, values.find? (sameValue g.1) = some g.1
  count : ∀ g ∈ tally, g.2 = frequency values g.1
  complete : ∀ v ∈ values, ∃ g ∈ tally, sameValue g.1 v = true
  distinct : tally.Pairwise fun g g' => sameValue g.1 g'.1 = false

lemma sameValue_comm (v w : Float) : sameValue v w = sameValue w v := by
  rw [Bool.eq_iff_iff]
  exact ⟨sameValue_symm, sameValue_symm⟩

/-- Values of one group are the same as the same values. -/
lemma sameValue_congr (h : sameValue v w = true) : sameValue v = sameValue w := by
  funext x
  rw [Bool.eq_iff_iff]
  exact ⟨fun hv => sameValue_trans (sameValue_symm h) hv, fun hw => sameValue_trans h hw⟩

/-- The members of a group agree on the number of its members. -/
lemma frequency_congr (h : sameValue v w = true) : frequency values v = frequency values w := by
  rw [frequency, frequency, sameValue_congr h]

/-- One more value begins a group at the end of the tally, or is counted in a group that is there.
-/
lemma recordValue_cases (v : Float) (tally : List (Float × Nat)) :
    ((∀ g ∈ tally, sameValue g.1 v = false) ∧ recordValue v tally = tally ++ [(v, 1)]) ∨
      ∃ l w n r, tally = l ++ (w, n) :: r ∧ sameValue w v = true ∧
        recordValue v tally = l ++ (w, n + 1) :: r := by
  induction tally with
  | nil => exact .inl ⟨nofun, rfl⟩
  | cons g tally ih =>
    obtain ⟨w, n⟩ := g
    by_cases hsame : sameValue w v = true
    · exact .inr ⟨[], w, n, tally, rfl, hsame, by simp [recordValue, hsame]⟩
    · rcases ih with ⟨hnone, hrecord⟩ | ⟨l, u, m, r, rfl, hu, hrecord⟩
      · refine .inl ⟨List.forall_mem_cons.mpr ⟨by simpa using hsame, hnone⟩, ?_⟩
        simp [recordValue, hsame, hrecord]
      · exact .inr ⟨(w, n) :: l, u, m, r, rfl, hu, by simp [recordValue, hsame, hrecord]⟩

namespace Tallies

/-- An entry stays the first of its group when more values come. -/
lemma find?_append (h : Tallies tally values) (v : Float) {g : Float × Nat} (hg : g ∈ tally) :
    (values ++ [v]).find? (sameValue g.1) = some g.1 := by
  rw [List.find?_append, h.first g hg, Option.some_or]

lemma frequency_append (values : List Float) (v w : Float) :
    frequency (values ++ [v]) w = frequency values w + if sameValue w v then 1 else 0 := by
  simp [frequency, List.countP_append, List.countP_singleton]

/-- A value that begins a group is its first member. -/
lemma recordValue_of_new (h : Tallies tally values) (hnew : ∀ g ∈ tally, sameValue g.1 v = false) :
    Tallies (tally ++ [(v, 1)]) (values ++ [v]) := by
  have hbefore : ∀ x ∈ values, ¬ sameValue v x = true := by
    intro x hx hsame
    obtain ⟨g, hg, hgx⟩ := h.complete x hx
    have hgv := hnew g hg
    rw [sameValue_trans hgx (sameValue_symm hsame)] at hgv
    exact Bool.noConfusion hgv
  refine ⟨?_, ?_, ?_, ?_⟩
  · intro g hg
    rcases List.mem_append.mp hg with hg | hg
    · exact h.find?_append v hg
    · obtain rfl := List.mem_singleton.mp hg
      rw [List.find?_append, List.find?_eq_none.mpr hbefore, Option.none_or]
      simp [sameValue_refl]
  · intro g hg
    rw [frequency_append]
    rcases List.mem_append.mp hg with hg | hg
    · simp [h.count g hg, hnew g hg]
    · obtain rfl := List.mem_singleton.mp hg
      have hzero : frequency values v = 0 := List.countP_eq_zero.mpr hbefore
      simp [hzero, sameValue_refl]
  · intro x hx
    rcases List.mem_append.mp hx with hx | hx
    · obtain ⟨g, hg, hgx⟩ := h.complete x hx
      exact ⟨g, List.mem_append_left _ hg, hgx⟩
    · obtain rfl := List.mem_singleton.mp hx
      exact ⟨(x, 1), by simp, sameValue_refl x⟩
  · refine List.pairwise_append.mpr ⟨h.distinct, List.pairwise_singleton .., fun g hg g' hg' => ?_⟩
    obtain rfl := List.mem_singleton.mp hg'
    exact hnew g hg

/-- A value of a group that is there adds one to it and to no other. -/
lemma recordValue_of_old {l r : List (Float × Nat)} {n : Nat}
    (h : Tallies (l ++ (w, n) :: r) values) (hsame : sameValue w v = true) :
    Tallies (l ++ (w, n + 1) :: r) (values ++ [v]) := by
  obtain ⟨hl, hr, hlr⟩ := List.pairwise_append.mp h.distinct
  obtain ⟨hwr, hrr⟩ := List.pairwise_cons.mp hr
  have hother : ∀ g ∈ l ++ r, sameValue g.1 v = false := by
    intro g hg
    rw [sameValue_comm, ← sameValue_congr hsame]
    rcases List.mem_append.mp hg with hg | hg
    · rw [sameValue_comm]
      exact hlr g hg (w, n) (by simp)
    · exact hwr g hg
  have hold : ∀ g ∈ l ++ (w, n + 1) :: r, g = (w, n + 1) ∨ g ∈ l ++ r := by
    intro g hg
    simp only [List.mem_append, List.mem_cons] at hg ⊢
    tauto
  have hmem : ∀ g ∈ l ++ r, g ∈ l ++ (w, n) :: r := by
    intro g hg
    simp only [List.mem_append, List.mem_cons] at hg ⊢
    tauto
  refine ⟨?_, ?_, ?_, ?_⟩
  · intro g hg
    rcases hold g hg with rfl | hg
    · exact h.find?_append (g := (w, n)) v (by simp)
    · exact h.find?_append v (hmem g hg)
  · intro g hg
    rw [frequency_append]
    rcases hold g hg with rfl | hg
    · have hcount := h.count (w, n) (by simp)
      simp only at hcount ⊢
      rw [← hcount, if_pos hsame]
    · simp [h.count g (hmem g hg), hother g hg]
  · intro x hx
    rcases List.mem_append.mp hx with hx | hx
    · obtain ⟨g, hg, hgx⟩ := h.complete x hx
      rcases List.mem_append.mp hg with hg | hg
      · exact ⟨g, List.mem_append_left _ hg, hgx⟩
      · rcases List.mem_cons.mp hg with rfl | hg
        · exact ⟨(w, n + 1), by simp, hgx⟩
        · exact ⟨g, by simp [hg], hgx⟩
    · obtain rfl := List.mem_singleton.mp hx
      exact ⟨(w, n + 1), by simp, hsame⟩
  · exact List.pairwise_append.mpr ⟨hl, List.pairwise_cons.mpr ⟨hwr, hrr⟩, fun g hg g' hg' => by
      rcases List.mem_cons.mp hg' with rfl | hg'
      · exact hlr g hg (w, n) (by simp)
      · exact hlr g hg g' (by simp [hg'])⟩

/-- One more value keeps a tally. -/
theorem recordValue (h : Tallies tally values) (v : Float) :
    Tallies (recordValue v tally) (values ++ [v]) := by
  rcases recordValue_cases v tally with ⟨hnew, hrecord⟩ | ⟨l, w, n, r, rfl, hsame, hrecord⟩
  · rw [hrecord]
    exact h.recordValue_of_new hnew
  · rw [hrecord]
    exact h.recordValue_of_old hsame

end Tallies

/-- The pass over a list arrives at its tally. -/
theorem tallies_tallyOf (values : List Float) : Tallies (tallyOf values) values := by
  induction values using List.reverseRecOn with
  | nil => exact ⟨nofun, nofun, nofun, .nil⟩
  | append_singleton values v ih =>
    rw [tallyOf, List.foldl_append]
    exact ih.recordValue v

end Tally

/-! ## The entry with the largest number -/

section Largest

variable {values : List Float} {tally : List (Float × Nat)} {g : Float × Nat}

lemma le_largestCount (hg : g ∈ tally) : g.2 ≤ largestCount tally := by
  have hmem : g.2 ∈ tally.map Prod.snd := List.mem_map_of_mem hg
  cases hmax : (tally.map Prod.snd).max? with
  | none =>
    rw [List.max?_eq_none_iff.mp hmax] at hmem
    exact absurd hmem (List.not_mem_nil)
  | some n =>
    rw [largestCount, hmax]
    exact (List.max?_eq_some_iff.mp hmax).2 _ hmem

/-- Every group has a member. -/
lemma Tallies.one_le (h : Tallies tally values) (hg : g ∈ tally) : 1 ≤ g.2 := by
  rw [h.count g hg, frequency, Nat.one_le_iff_ne_zero, ← Nat.pos_iff_ne_zero, List.countP_pos_iff]
  exact ⟨g.1, List.mem_of_find?_eq_some (h.first g hg), sameValue_refl g.1⟩

/-- Where the entry with the largest number is the only one and counts a single member, there is no
other entry, for that would count no fewer. -/
lemma length_eq_one_of_filter (h : Tallies tally values)
    (hfilter : (tally.filter fun group => group.2 == largestCount tally) = [g])
    (hone : ¬ 1 < largestCount tally) : tally.length = 1 := by
  have hall : ∀ g' ∈ tally, (g'.2 == largestCount tally) = true := by
    intro g' hg'
    have hlower := h.one_le hg'
    have hupper := le_largestCount hg'
    rw [beq_iff_eq]
    omega
  rw [List.filter_eq_self.mpr hall] at hfilter
  rw [hfilter, List.length_singleton]

/-- The only entry with the largest number is the mode, and where there is more than one there is no
mode. -/
lemma mode_cases (hne : values ≠ []) :
    (∃ x n, ((tallyOf values).filter fun group =>
        group.2 == largestCount (tallyOf values)) = [(x, n)] ∧ mode values = .ok x) ∨
      (∀ g, ((tallyOf values).filter fun group =>
        group.2 == largestCount (tallyOf values)) ≠ [g]) ∧
          mode values = .error (.evaluation (.noUniqueMode values)) := by
  have hempty : values.isEmpty = false := by simpa using hne
  simp only [mode, hempty, Bool.false_eq_true, if_false]
  split
  next v n hfilter =>
    have hguard : (decide (1 < largestCount (tallyOf values)) ||
        (tallyOf values).length == 1) = true := by
      rw [Bool.or_eq_true, decide_eq_true_eq, beq_iff_eq]
      by_cases hmost : 1 < largestCount (tallyOf values)
      · exact .inl hmost
      · exact .inr (length_eq_one_of_filter (tallies_tallyOf values) hfilter hmost)
    exact .inl ⟨v, n, hfilter, if_pos hguard⟩
  next hnot => exact .inr ⟨fun g hfilter => hnot g.1 g.2 hfilter, rfl⟩

/-- A group that outnumbers every other. -/
def Outnumbers (values : List Float) (v : Float) : Prop :=
  ∀ w ∈ values, sameValue v w = false → frequency values w < frequency values v

/-- The only entry with the largest number is that of a group that outnumbers every other. -/
lemma outnumbers_of_filter (h : Tallies tally values)
    (hfilter : (tally.filter fun group => group.2 == largestCount tally) = [g]) :
    g ∈ tally ∧ Outnumbers values g.1 := by
  have hmem : g ∈ tally.filter fun group => group.2 == largestCount tally := by
    rw [hfilter]
    exact List.mem_singleton.mpr rfl
  obtain ⟨hg, hlargest⟩ := List.mem_filter.mp hmem
  refine ⟨hg, fun w hw hother => ?_⟩
  obtain ⟨g', hg', hgw⟩ := h.complete w hw
  have hle := le_largestCount hg'
  have hne : g'.2 ≠ largestCount tally := by
    intro hmost
    have hmem' : g' ∈ tally.filter fun group => group.2 == largestCount tally :=
      List.mem_filter.mpr ⟨hg', beq_iff_eq.mpr hmost⟩
    rw [hfilter, List.mem_singleton] at hmem'
    rw [hmem', hother] at hgw
    exact Bool.noConfusion hgw
  have hmost := beq_iff_eq.mp hlargest
  rw [← frequency_congr hgw, ← h.count g' hg', ← h.count g hg]
  omega

/-- A group that outnumbers every other has the only entry with the largest number. -/
lemma filter_of_outnumbers (h : Tallies tally values) (hg : g ∈ tally)
    (houtnumbers : Outnumbers values g.1) :
    (tally.filter fun group => group.2 == largestCount tally) = [g] := by
  obtain ⟨l, r, rfl⟩ := List.append_of_mem hg
  obtain ⟨-, hr, hlr⟩ := List.pairwise_append.mp h.distinct
  have hfewer : ∀ g' ∈ l ++ r, g'.2 < g.2 := by
    intro g' hg'
    have hmem : g' ∈ l ++ g :: r := by
      simp only [List.mem_append, List.mem_cons] at hg' ⊢
      tauto
    have hother : sameValue g.1 g'.1 = false := by
      rcases List.mem_append.mp hg' with hg' | hg'
      · rw [sameValue_comm]
        exact hlr g' hg' g (List.mem_cons_self ..)
      · exact (List.pairwise_cons.mp hr).1 g' hg'
    rw [h.count g hg, h.count g' hmem]
    exact houtnumbers g'.1 (List.mem_of_find?_eq_some (h.first g' hmem)) hother
  have hmost : largestCount (l ++ g :: r) = g.2 := by
    have hle := le_largestCount hg
    have hmax : (List.map Prod.snd (l ++ g :: r)).max? = some g.2 := by
      refine List.max?_eq_some_iff.mpr ⟨List.mem_map_of_mem hg, fun n hn => ?_⟩
      obtain ⟨g', hg', rfl⟩ := List.mem_map.mp hn
      by_cases hsame : g' = g
      · rw [hsame]
      · refine (hfewer g' ?_).le
        simp only [List.mem_append, List.mem_cons] at hg' ⊢
        tauto
    rw [largestCount, hmax, Option.getD_some]
  have hnone : ∀ g' ∈ l ++ r, ¬ (g'.2 == g.2) = true := by
    intro g' hg'
    have hlt := hfewer g' hg'
    rw [beq_iff_eq]
    omega
  have hkeep : (g.2 == g.2) = true := beq_self_eq_true g.2
  rw [hmost, List.filter_append, List.filter_cons, if_pos hkeep,
    List.filter_eq_nil_iff.mpr fun g' hg' => hnone g' (List.mem_append_left _ hg'),
    List.filter_eq_nil_iff.mpr fun g' hg' => hnone g' (List.mem_append_right _ hg')]
  rfl

end Largest

/-! ## The mode -/

section Mode

variable {values : List Float}

/-- The mode is the first member of the group that outnumbers every other. -/
theorem mode_eq_ok_iff (hne : values ≠ []) (x : Float) :
    mode values = .ok x ↔ values.find? (sameValue x) = some x ∧ Outnumbers values x := by
  have h := tallies_tallyOf values
  constructor
  · intro hmode
    rcases mode_cases hne with ⟨y, n, hfilter, hok⟩ | ⟨-, herror⟩
    · obtain rfl := Except.ok.inj (hmode.symm.trans hok)
      obtain ⟨hg, houtnumbers⟩ := outnumbers_of_filter h hfilter
      exact ⟨h.first _ hg, houtnumbers⟩
    · cases hmode.symm.trans herror
  · rintro ⟨hfirst, houtnumbers⟩
    obtain ⟨⟨v, n⟩, hg, hgx⟩ := h.complete x (List.mem_of_find?_eq_some hfirst)
    have hsame : v = x := by
      apply Option.some.inj
      rw [← h.first _ hg, sameValue_congr hgx, hfirst]
    subst hsame
    have honly := filter_of_outnumbers h hg houtnumbers
    rcases mode_cases hne with ⟨y, m, hfilter, hok⟩ | ⟨hnone, -⟩
    · obtain ⟨rfl, -⟩ := Prod.mk.inj (List.singleton_inj.mp (hfilter.symm.trans honly))
      exact hok
    · exact absurd honly (hnone _)

/-- Whether a group outnumbers the others does not depend on the order of the values. -/
lemma Outnumbers.perm {others : List Float} {v : Float} (h : Outnumbers values v)
    (hperm : values.Perm others) : Outnumbers others v := by
  intro w hw hother
  rw [frequency, frequency, ← hperm.countP_eq, ← hperm.countP_eq]
  exact h w (hperm.mem_iff.mpr hw) hother

/-- A group that outnumbers every other has a first member, which is the mode. -/
lemma exists_mode_of_outnumbers {v : Float} (hv : v ∈ values) (h : Outnumbers values v) :
    ∃ x, mode values = .ok x ∧ values.find? (sameValue v) = some x := by
  obtain ⟨x, hx⟩ : ∃ x, values.find? (sameValue v) = some x :=
    Option.isSome_iff_exists.mp (List.find?_isSome.mpr ⟨v, hv, sameValue_refl v⟩)
  have hsame : sameValue v x = true := List.find?_some hx
  refine ⟨x, (mode_eq_ok_iff (List.ne_nil_of_mem hv) x).mpr ⟨?_, ?_⟩, hx⟩
  · rw [← sameValue_congr hsame, hx]
  · intro w hw hother
    rw [← frequency_congr hsame]
    rw [← sameValue_congr hsame] at hother
    exact h w hw hother

/-- A list in another order has a mode as well, of the same group. -/
lemma exists_mode_of_perm {others : List Float} {x : Float} (hperm : values.Perm others)
    (hne : values ≠ []) (hx : mode values = .ok x) :
    ∃ y, mode others = .ok y ∧ sameValue x y = true := by
  obtain ⟨hfirst, houtnumbers⟩ := (mode_eq_ok_iff hne x).mp hx
  have hmem : x ∈ others := hperm.mem_iff.mp (List.mem_of_find?_eq_some hfirst)
  obtain ⟨y, hy, hsame⟩ := exists_mode_of_outnumbers hmem (houtnumbers.perm hperm)
  exact ⟨y, hy, List.find?_some hsame⟩

/-- A value whose group outnumbers the group of every member of the list that is another number. -/
def IsMostFrequent (values : List Float) (v : Float) : Prop :=
  v ∈ values ∧ ∀ w ∈ values, isSameNumber v w = true ∨
    values.countP (isSameNumber w) < values.countP (isSameNumber v)

lemma isMostFrequent_iff {v : Float} :
    IsMostFrequent values v ↔ v ∈ values ∧ Outnumbers values v := by
  have hsame (x : Float) : isSameNumber x = sameValue x :=
    funext fun y => (sameValue_eq_isSameNumber x y).symm
  refine and_congr_right fun _ => forall₂_congr fun w _ => ?_
  rw [hsame, hsame, or_iff_not_imp_left, Bool.not_eq_true]
  rfl

/-- The mode of a list is the first member of its largest group, where exactly one group is largest,
and there is no mode otherwise.  Values are one group if they are equal as floats or both not a
number.  So the order of the values decides neither whether there is a mode nor which group it
stands for. -/
theorem mode_eq_unique_most_frequent (values : List Float) (h : values ≠ []) :
    ((∃ x, mode values = .ok x) ↔ ∃ v, IsMostFrequent values v) ∧
      (∀ v, IsMostFrequent values v →
        ∃ x, mode values = .ok x ∧ values.find? (isSameNumber v) = some x) ∧
      ((¬ ∃ v, IsMostFrequent values v) →
        mode values = .error (.evaluation (.noUniqueMode values))) ∧
      ∀ others, values.Perm others →
        ((∃ x, mode others = .ok x) ↔ ∃ x, mode values = .ok x) ∧
        ∀ x y, mode values = .ok x → mode others = .ok y → isSameNumber x y = true := by
  have hiff : (∃ x, mode values = .ok x) ↔ ∃ v, IsMostFrequent values v := by
    constructor
    · rintro ⟨x, hx⟩
      obtain ⟨hfirst, houtnumbers⟩ := (mode_eq_ok_iff h x).mp hx
      exact ⟨x, isMostFrequent_iff.mpr ⟨List.mem_of_find?_eq_some hfirst, houtnumbers⟩⟩
    · rintro ⟨v, hv⟩
      obtain ⟨hmem, houtnumbers⟩ := isMostFrequent_iff.mp hv
      obtain ⟨x, hx, -⟩ := exists_mode_of_outnumbers hmem houtnumbers
      exact ⟨x, hx⟩
  refine ⟨hiff, fun v hv => ?_, fun hnone => ?_, fun others hperm => ⟨?_, fun x y hx hy => ?_⟩⟩
  · obtain ⟨hmem, houtnumbers⟩ := isMostFrequent_iff.mp hv
    rw [← funext (sameValue_eq_isSameNumber v)]
    exact exists_mode_of_outnumbers hmem houtnumbers
  · rcases mode_cases h with ⟨x, n, -, hok⟩ | ⟨-, herror⟩
    · exact absurd (hiff.mp ⟨x, hok⟩) hnone
    · exact herror
  · have hothers : others ≠ [] := fun hnil => h (List.perm_nil.mp (hnil ▸ hperm))
    constructor
    · rintro ⟨y, hy⟩
      obtain ⟨x, hx, -⟩ := exists_mode_of_perm hperm.symm hothers hy
      exact ⟨x, hx⟩
    · rintro ⟨x, hx⟩
      obtain ⟨y, hy, -⟩ := exists_mode_of_perm hperm h hx
      exact ⟨y, hy⟩
  · obtain ⟨z, hz, hsame⟩ := exists_mode_of_perm hperm h hx
    rw [← sameValue_eq_isSameNumber, Except.ok.inj (hy.symm.trans hz)]
    exact hsame

/-- Of a group of zeros the first is the mode, whichever of the two zeros it is, and a list with two
groups of the same number of members has none. -/
theorem mode_eq_unique_most_frequent_zeros :
    mode [1.0, -0.0, 0.0] = .ok (-0.0) ∧
      mode [1.0, -0.0, 1.0, 0.0] = .error (.evaluation (.noUniqueMode [1.0, -0.0, 1.0, 0.0])) ∧
      ∀ y, mode [0.0, 1.0, -0.0] = .ok y → isSameNumber (-0.0) y = true := by
  obtain ⟨-, hfirst, -, hperm⟩ := mode_eq_unique_most_frequent [1.0, -0.0, 0.0] (by simp)
  obtain ⟨hiff, -, hnone, -⟩ := mode_eq_unique_most_frequent [1.0, -0.0, 1.0, 0.0] (by simp)
  obtain ⟨x, hmode, hx⟩ := hfirst 0.0 ⟨by simp, by decide +kernel⟩
  obtain rfl : -0.0 = x := Option.some.inj (Eq.trans (by decide +kernel) hx)
  refine ⟨hmode, hnone ?_, fun y hy => (hperm _ (by decide +kernel)).2 _ y hmode hy⟩
  intro hmost
  obtain ⟨x, hx⟩ := hiff.mpr hmost
  have hrefused : mode [1.0, -0.0, 1.0, 0.0] =
      .error (.evaluation (.noUniqueMode [1.0, -0.0, 1.0, 0.0])) := by decide +kernel
  cases hrefused.symm.trans hx

end Mode

end Calculator.Statistics
