import Mathlib.Algebra.Order.BigOperators.Group.List
import Mathlib.Data.List.Induction
import RuleBroker.Proofs.FloatOrder
import RuleBroker.Result
import RuleBroker.Summary
/-! The average of a summary beside its extremes. The extremes are times of results; the average
is a sum that is rounded with every time added to it, and divided once. It lies between the
extremes where the sum lies between as many of them, and is near to the mean in any case. -/
namespace RuleBroker

namespace Binary64

variable {x y t : Binary64} {negative : Bool} {num den n : Nat}

theorem infiniteOfUnits (beyond : (ofUnits negative num den).isFinite = false) :
    ofUnits negative num den = infinity negative := by
  have most : nearestMagnitude num den ≤ infinityMagnitude := Nat.min_le_right _ _
  rw [isFinite, magnitudeOfUnits, decide_eq_false_iff_not, Nat.not_lt] at beyond
  rw [ofUnits, le_antisymm most beyond, infinity]

theorem valueOrder (left : Nonnegative x) (right : Nonnegative y) :
    x.value ≤ y.value ↔ x.units ≤ y.units := by
  rw [left.units, right.units, div_le_div_iff_of_pos_right unitsPerOneCast, Nat.cast_le]

section Sum

theorem addZero (time : Nonnegative y) : Unsigned (zero.add y) ∧ (zero.add y).value = y.value := by
  have start : Unsigned zero := ⟨by decide, by decide⟩
  have unitless : zero.units = 0 := by decide
  have magnitude : (zero.add y).magnitude = y.magnitude := by
    rw [addUnits start time, unitless, Nat.zero_add, magnitudeOfUnits]
    simpa using nearestMagnitudeUnits time.finite Nat.one_pos
  have sum : Unsigned (zero.add y) := by
    refine ⟨?_, ?_⟩
    · rw [addUnits start time, negativeOfUnits]
    · rw [isFinite, magnitude]
      exact time.finite
  exact ⟨sum, by rw [sum.units, time.units, unitsAlike magnitude]⟩

theorem sumValue (left : Unsigned x) (right : Nonnegative y) :
    ((x.units + y.units : ℕ) : ℚ) / unitsPerOne = x.value + y.value := by
  rw [left.units, right.units, ← add_div, Nat.cast_add]

theorem offTime (sum : Unsigned x) (time : Nonnegative y) (finite : (x.add y).isFinite = true) :
    Unsigned (x.add y) ∧ Off 1 (x.add y).value (x.value + y.value) := by
  rw [addUnits sum time] at finite ⊢
  have unsigned : Unsigned (ofUnits false (x.units + y.units) 1) := ⟨negativeOfUnits, finite⟩
  refine ⟨unsigned, ?_⟩
  rw [unsigned.units, ← sumValue sum time]
  exact offWhole finite

theorem beyondTime (sum : Unsigned x) (time : Nonnegative y) (beyond : (x.add y).isFinite = false) :
    x.add y = infinity false ∧ greatest.value < x.value + y.value := by
  rw [addUnits sum time] at beyond ⊢
  refine ⟨infiniteOfUnits beyond, ?_⟩
  by_contra within
  rw [← sumValue sum time, not_lt, Unsigned.units ⟨by decide, by decide⟩,
    div_le_div_iff_of_pos_right unitsPerOneCast, Nat.cast_le] at within
  have finite : (ofUnits false (x.units + y.units) 1).isFinite = true :=
    (roundedAtMost (x := greatest) (by decide) Nat.one_pos (within.trans_eq (Nat.mul_one _).symm)).1
  rw [beyond] at finite
  cases finite

theorem infinityAdd (finite : y.isFinite = true) : (infinity false).add y = infinity false := by
  have number : (infinity false).isNaN = false := by decide
  have infinite : (infinity false).isInfinite = true := by decide
  simp [add, number, infinite, notNaN finite, notInfinite finite]

end Sum

section Quotient

theorem counted (positive : 0 < n) (word : n < twoTo 64) :
    Unsigned (ofNat n) ∧ unitsPerOne ≤ (ofNat n).units := by
  have room : n ≤ 2 ^ 64 := word.le
  exact ⟨(offNat room (by norm_num)).1, (ofNatAtLeastOne positive).1⟩

variable (count : Unsigned y)
include count

theorem infinityDiv : (infinity false).div y = infinity false := by
  have number : (infinity false).isNaN = false := by decide
  have infinite : (infinity false).isInfinite = true := by decide
  have sign : (infinity false).negative = false := by decide
  simp [div, number, infinite, sign, count.sign, notNaN count.finite, notInfinite count.finite]

theorem divided (total : Unsigned t) (whole : unitsPerOne ≤ y.units) :
    Unsigned (t.div y) ∧ Near 1 (t.div y).value (t.value / y.value) ∧
    ∀ x, Nonnegative x → (y.value * x.value ≤ t.value → x.value ≤ (t.div y).value) ∧
      (t.value ≤ y.value * x.value → (t.div y).value ≤ x.value) := by
  have one := unitsPerOneCast
  have divides : 0 < y.units := unitsPerOnePos.trans_le whole
  have finite : (ofUnits false (t.units * unitsPerOne) y.units).isFinite = true :=
    (roundedAtMost total.finite divides (Nat.mul_le_mul_left t.units whole)).1
  rw [divUnits total count divides]
  have unsigned : Unsigned (ofUnits false (t.units * unitsPerOne) y.units) :=
    ⟨negativeOfUnits, finite⟩
  have quotient := unsigned.nonnegative
  have scaled : t.value = ((t.units * unitsPerOne : ℕ) : ℚ) / unitsPerOne / unitsPerOne := by
    rw [total.units, Nat.cast_mul, mul_div_assoc, div_self one.ne', mul_one]
  refine ⟨unsigned, ?_, fun x time => ?_⟩
  · rw [unsigned.units]
    refine nearRounded divides (div_nonneg total.nonneg count.nonneg) ?_ finite
    have nonzero : (y.units : ℚ) ≠ 0 := by exact_mod_cast divides.ne'
    rw [total.units, count.units]
    push_cast
    field_simp
  · have product : y.value * x.value = ((x.units * y.units : ℕ) : ℚ) / unitsPerOne / unitsPerOne := by
      rw [count.units, time.units]
      push_cast
      ring
    rw [product, scaled, div_le_div_iff_of_pos_right one, div_le_div_iff_of_pos_right one,
      div_le_div_iff_of_pos_right one, div_le_div_iff_of_pos_right one, Nat.cast_le, Nat.cast_le,
      valueOrder time quotient, valueOrder quotient time]
    exact ⟨roundedAtLeast time.finite divides, fun most => (roundedAtMost time.finite divides most).2⟩

end Quotient

section Fold
variable {v : Binary64 → ℚ} {f : Binary64 → Binary64 → Binary64} {ys : List Binary64}

theorem foldPicks (picks : ∀ {x y : Binary64}, x.isFinite = true → y.isFinite = true →
      f x y = if v y < v x then y else x)
    (start : x.isFinite = true) (finite : ∀ y ∈ ys, y.isFinite = true) :
    (ys.foldl f x = x ∨ ys.foldl f x ∈ ys) ∧ v (ys.foldl f x) ≤ v x ∧
      ∀ y ∈ ys, v (ys.foldl f x) ≤ v y := by
  induction ys generalizing x with
  | nil => exact ⟨.inl rfl, le_rfl, by simp⟩
  | cons y rest ih =>
    obtain ⟨here, later⟩ := List.forall_mem_cons.mp finite
    rw [List.foldl_cons, picks start here]
    split
    · next better =>
      obtain ⟨member, first, all⟩ := ih here later
      refine ⟨.inr ?_, first.trans better.le, List.forall_mem_cons.mpr ⟨first, all⟩⟩
      exact List.mem_cons.mpr member
    · next worse =>
      obtain ⟨member, first, all⟩ := ih start later
      refine ⟨member.imp_right (List.mem_cons_of_mem y), first, List.forall_mem_cons.mpr ⟨?_, all⟩⟩
      exact first.trans (not_lt.mp worse)

theorem lesserPicks (left : x.isFinite = true) (right : y.isFinite = true) :
    x.lesser y = if y.value < x.value then y else x := by
  simp [lesser, notNaN left, lessValue right left]

theorem greaterPicks (left : x.isFinite = true) (right : y.isFinite = true) :
    x.greater y = if -y.value < -x.value then y else x := by
  simp [greater, notNaN left, lessValue left right]

theorem greatestOnly (time : Nonnegative y) (most : greatest.value ≤ y.value) : y = greatest := by
  have top : Unsigned greatest := ⟨by decide, by decide⟩
  rw [valueOrder top.nonnegative time] at most
  have positive : 0 < greatest.units := by decide +kernel
  have sign : y.negative = false := by
    have signed := time.signedUnits
    unfold signedUnits at signed
    split at signed
    · omega
    · next sign => exact Bool.eq_false_iff.mpr sign
  refine sameBits (sign.trans top.sign.symm) ?_
  have above : greatest.magnitude ≤ y.magnitude :=
    Nat.le_of_not_lt fun less => absurd (unitsAscend less) (Nat.not_lt.mpr most)
  have last : greatest.magnitude = infinityMagnitude - 1 := by decide
  have below := time.finite
  rw [isFinite, decide_eq_true_eq] at below
  omega

end Fold
end Binary64

namespace Summary
open Binary64 (Nonnegative Unsigned Off Near slack value infinity)

variable {rs : List Result}

def exactTotal (rs : List Result) : ℚ := (rs.map fun r => r.milliseconds.value).sum

theorem totalSnoc (rs : List Result) (r : Result) :
    totalTime (rs ++ [r]) = (totalTime rs).add r.milliseconds := List.foldl_append

theorem exactSnoc (rs : List Result) (r : Result) :
    exactTotal (rs ++ [r]) = exactTotal rs + r.milliseconds.value := by
  simp [exactTotal]

theorem exactNonneg (times : ∀ r ∈ rs, Nonnegative r.milliseconds) : 0 ≤ exactTotal rs := by
  refine List.sum_nonneg fun time inside => ?_
  obtain ⟨r, member, rfl⟩ := List.mem_map.mp inside
  exact (times r member).nonneg

theorem totalled (times : ∀ r ∈ rs, Nonnegative r.milliseconds) :
    totalTime rs = infinity false ∧
        Binary64.greatest.value < (1 + slack) ^ (rs.length - 1) * exactTotal rs ∨
      Unsigned (totalTime rs) ∧ Off (rs.length - 1) (totalTime rs).value (exactTotal rs) := by
  induction rs using List.reverseRecOn with
  | nil => exact .inr ⟨⟨by decide, by decide⟩, by decide +kernel, by decide +kernel⟩
  | append_singleton rs r ih =>
    have last : Nonnegative r.milliseconds := times r (by simp)
    have earlier : ∀ r ∈ rs, Nonnegative r.milliseconds := fun r inside => times r (by simp [inside])
    rw [totalSnoc, exactSnoc, List.length_append, List.length_singleton, Nat.add_sub_cancel]
    -- The first time is added to nothing and not rounded; every later one may be.
    rcases eq_or_ne rs [] with rfl | nonempty
    · obtain ⟨unsigned, same⟩ := Binary64.addZero last
      have exact : exactTotal [] + r.milliseconds.value = ((totalTime []).add r.milliseconds).value :=
        (zero_add _).trans same.symm
      rw [exact]
      exact .inr ⟨unsigned, .self _⟩
    · have before := exactNonneg earlier
      have wide : (1 + slack) ^ (rs.length - 1) * (exactTotal rs + r.milliseconds.value) ≤
          (1 + slack) ^ rs.length * (exactTotal rs + r.milliseconds.value) :=
        mul_le_mul_of_nonneg_right
          (pow_le_pow_right₀ (by norm_num [slack]) (Nat.sub_le _ 1)) (add_nonneg before last.nonneg)
      rcases ih earlier with ⟨infinite, beyond⟩ | ⟨sum, off⟩
      · rw [infinite]
        refine .inl ⟨Binary64.infinityAdd last.finite, beyond.trans_le (le_trans ?_ wide)⟩
        exact mul_le_mul_of_nonneg_left (le_add_of_nonneg_right last.nonneg)
          (pow_nonneg Off.moreSlack _)
      · have joined : Off (rs.length - 1) ((totalTime rs).value + r.milliseconds.value)
            (exactTotal rs + r.milliseconds.value) :=
          off.add ((Off.self _).mono last.nonneg (Nat.zero_le _))
        cases finite : ((totalTime rs).add r.milliseconds).isFinite with
        | false =>
          obtain ⟨infinite, beyond⟩ := Binary64.beyondTime sum last finite
          exact .inl ⟨infinite, beyond.trans_le (joined.most.trans wide)⟩
        | true =>
          obtain ⟨unsigned, rounded⟩ := Binary64.offTime sum last finite
          have roundings : rs.length - 1 + 1 = rs.length :=
            Nat.sub_add_cancel (List.length_pos_iff.mpr nonempty)
          exact .inr ⟨unsigned, roundings ▸ rounded.trans joined⟩

section Extremes
variable (nonempty : rs ≠ []) (times : ∀ r ∈ rs, Nonnegative r.milliseconds)
include nonempty times

theorem leastMember : (∃ r ∈ rs, r.milliseconds = (ofResults rs).least) ∧
    ∀ r ∈ rs, (ofResults rs).least.value ≤ r.milliseconds.value := by
  have least : (ofResults rs).least =
      (rs.map Result.milliseconds).foldl Binary64.lesser Binary64.greatest := by
    rw [List.foldl_map, ofResults, if_neg (by rwa [List.isEmpty_iff])]
  obtain ⟨member, -, all⟩ := Binary64.foldPicks (v := value) Binary64.lesserPicks
    (by decide : Binary64.greatest.isFinite = true)
    (List.forall_mem_map.mpr fun r inside => (times r inside).finite)
  rw [← least, List.forall_mem_map] at all
  rw [← least, List.mem_map] at member
  refine ⟨member.elim (fun start => ?_) id, all⟩
  obtain ⟨r, inside⟩ := List.exists_mem_of_ne_nil rs nonempty
  exact ⟨r, inside, start ▸ Binary64.greatestOnly (times r inside) (start ▸ all r inside)⟩

theorem greatestMember : (∃ r ∈ rs, r.milliseconds = (ofResults rs).greatest) ∧
    ∀ r ∈ rs, r.milliseconds.value ≤ (ofResults rs).greatest.value := by
  have greatest : (ofResults rs).greatest =
      (rs.map Result.milliseconds).foldl Binary64.greater Binary64.least := by
    rw [List.foldl_map, ofResults, if_neg (by rwa [List.isEmpty_iff])]
  obtain ⟨member, -, all⟩ := Binary64.foldPicks (v := fun x => -value x) Binary64.greaterPicks
    (by decide : Binary64.least.isFinite = true)
    (List.forall_mem_map.mpr fun r inside => (times r inside).finite)
  rw [← greatest, List.forall_mem_map] at all
  rw [← greatest, List.mem_map] at member
  have all : ∀ r ∈ rs, r.milliseconds.value ≤ (ofResults rs).greatest.value :=
    fun r inside => neg_le_neg_iff.mp (all r inside)
  refine ⟨member.elim (fun start => ?_) id, all⟩
  obtain ⟨r, inside⟩ := List.exists_mem_of_ne_nil rs nonempty
  have below : Binary64.least.value < 0 := by decide +kernel
  have above := (times r inside).nonneg.trans (all r inside)
  rw [start] at above
  exact absurd above (not_le.mpr below)

end Extremes

theorem exactBetween {low high : ℚ} (below : ∀ r ∈ rs, low ≤ r.milliseconds.value)
    (above : ∀ r ∈ rs, r.milliseconds.value ≤ high) :
    rs.length * low ≤ exactTotal rs ∧ exactTotal rs ≤ rs.length * high := by
  have least := List.card_nsmul_le_sum (rs.map fun r => r.milliseconds.value) low (by simpa)
  have most := List.sum_le_card_nsmul (rs.map fun r => r.milliseconds.value) high (by simpa)
  rw [List.length_map, nsmul_eq_mul] at least most
  exact ⟨least, most⟩

/-- The extremes are the least and the greatest time. The average is off from the mean by as many
roundings as there are results, and passes an extreme only where the rounded sum passes as many of
it, which a sum without rounding does not. A sum beyond the floats makes it infinite. -/
theorem averageNearMean (nonempty : rs ≠ []) (word : rs.length < twoTo 64)
    (times : ∀ r ∈ rs, Nonnegative r.milliseconds) :
    let s := ofResults rs
    let count := (Binary64.ofNat rs.length).value
    ((∃ r ∈ rs, r.milliseconds = s.least) ∧ (∃ r ∈ rs, r.milliseconds = s.greatest) ∧
      ∀ r ∈ rs, s.least.value ≤ r.milliseconds.value ∧ r.milliseconds.value ≤ s.greatest.value) ∧
    (rs.length < twoTo 53 → count = rs.length) ∧
    (s.average = infinity false ∧
        Binary64.greatest.value < (1 + slack) ^ (rs.length - 1) * exactTotal rs ∨
      Unsigned s.average ∧ Near rs.length s.average.value (exactTotal rs / count) ∧
        (count * s.least.value ≤ (totalTime rs).value → s.least.value ≤ s.average.value) ∧
        ((totalTime rs).value ≤ count * s.greatest.value → s.average.value ≤ s.greatest.value) ∧
        ((totalTime rs).value = exactTotal rs → count = rs.length →
          s.least.value ≤ s.average.value ∧ s.average.value ≤ s.greatest.value)) := by
  intro s count
  have positive : 0 < rs.length := List.length_pos_iff.mpr nonempty
  have average : s.average = (totalTime rs).div (Binary64.ofNat rs.length) := by
    simp only [s, ofResults, List.isEmpty_iff, if_neg nonempty]
  obtain ⟨⟨lowest, lowestIn, lowestSame⟩, low⟩ := leastMember nonempty times
  obtain ⟨⟨highest, highestIn, highestSame⟩, high⟩ := greatestMember nonempty times
  obtain ⟨unsignedCount, whole⟩ := Binary64.counted positive word
  refine ⟨⟨⟨lowest, lowestIn, lowestSame⟩, ⟨highest, highestIn, highestSame⟩,
    fun r inside => ⟨low r inside, high r inside⟩⟩, Binary64.natExact, ?_⟩
  rw [average]
  rcases totalled times with ⟨infinite, beyond⟩ | ⟨sum, off⟩
  · rw [infinite]
    exact .inl ⟨Binary64.infinityDiv unsignedCount, beyond⟩
  · obtain ⟨unsigned, near, passes⟩ := Binary64.divided unsignedCount sum whole
    have all := near.after (off.divided unsignedCount.nonneg)
    rw [Nat.sub_add_cancel positive] at all
    have least := (passes s.least (lowestSame ▸ times lowest lowestIn)).1
    have most := (passes s.greatest (highestSame ▸ times highest highestIn)).2
    refine .inr ⟨unsigned, all, least, most, fun exact same => ?_⟩
    obtain ⟨below, above⟩ := exactBetween low high
    rw [← exact, ← same] at below above
    exact ⟨least below, most above⟩

theorem wholeTimesBetween :
    let timed (n : Nat) : Result :=
      ⟨"rec", "one", "band", "simple", true, none, none, none, .ofNat n, .leaf⟩
    let rs := [timed 1, timed 3, timed 5]
    rs ≠ [] ∧ rs.length < twoTo 64 ∧ (∀ r ∈ rs, Nonnegative r.milliseconds) ∧
      (totalTime rs).value = exactTotal rs ∧
      (ofResults rs).least.value ≤ (ofResults rs).average.value ∧
      (ofResults rs).average.value ≤ (ofResults rs).greatest.value := by
  intro timed rs
  have times : ∀ r ∈ rs, Nonnegative r.milliseconds := by decide +kernel
  have exact : (totalTime rs).value = exactTotal rs := by decide +kernel
  obtain ⟨_, few, either⟩ := averageNearMean (by simp [rs]) (by decide) times
  rcases either with ⟨infinite, _⟩ | ⟨_, _, _, _, between⟩
  · exact absurd infinite (by decide +kernel)
  · exact ⟨by simp [rs], by decide, times, exact, between exact (few (by decide))⟩

theorem equalTimesAverageMore :
    let outcomes := [(Outcome.success "band").withChildren [.success "red"],
      .success "country", .success "size"]
    ∃ rs, (Result.flatten ⟨"rec", "one", "simple"⟩ outcomes).map (Result.apportion 100000) =
        some rs ∧
      rs ≠ [] ∧ (∀ r ∈ rs, Nonnegative r.milliseconds) ∧
      (ofResults rs).least = (ofResults rs).greatest ∧
      (ofResults rs).greatest.value < (ofResults rs).average.value := by
  intro outcomes
  refine ⟨_, rfl, by decide, by decide +kernel, by decide +kernel, by decide +kernel⟩

end Summary
end RuleBroker
