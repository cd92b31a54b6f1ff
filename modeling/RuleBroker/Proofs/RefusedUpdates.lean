import RuleBroker.Proofs.DecimalRange
import RuleBroker.Proofs.MovingAverage
import Mathlib.Data.List.DropRight
/-! Updates that fail, and the slots as a ring. A value is refused for the size of two sums, that of
the values that stay and that of what the slots would hold, and a run is the same run without the
values that it refused. Read around from the index the slots hold the last values written, in the
order of writing, behind the zeros that none has replaced yet. -/
namespace RuleBroker

def Decimal.Whole (d : Decimal) : Prop := ∃ z : Int, d.value = z

theorem Decimal.wholeUnscaled {d : Decimal} (unscaled : d.scale = 0) : d.Whole :=
  ⟨d.coefficient, by rw [value, unscaled, tenToZero, Nat.cast_one, div_one]⟩

namespace Window
open Decimal (value rounded Beyond)

def Refuses (w : Window) (next : Decimal) : Prop := ∃ e, w.update next = .error e

def keptSum (w : Window) : ℚ := (w.recent.tail.map value).sum

def sumWith (w : Window) (next : Decimal) : ℚ := ((w.recent.tail ++ [next]).map value).sum

def taken (w : Window) (values : List Decimal) : List Decimal :=
  ((values.zip (w.answers values)).filter fun (_, answer) => answer.isOk).map Prod.fst

structure WholeSlots (w : Window) : Prop where
  undrifted : w.drift = 0
  whole : ∀ d ∈ w.recent, d.Whole

variable {w fresh : Window} {next sum average : Decimal} {rest values : List Decimal} {k : Nat}

theorem averageTotal (w : Window) (sum : Decimal) : ∃ average, w.average sum = some average :=
  Decimal.divNatSome sum w.sizePositive

theorem refusesSum : w.Refuses next ↔ w.nextSum next = none := by
  rw [Refuses, updateSettle, settle]
  cases w.nextSum next with
  | none => simp
  | some sum =>
    obtain ⟨average, divided⟩ := averageTotal w sum
    simp [divided]

theorem refusesStages : w.Refuses next ↔ w.sum.sub w.oldest = none ∨
    ∃ rest, w.sum.sub w.oldest = some rest ∧ rest.add next = none := by
  rw [refusesSum, nextSum]
  cases w.sum.sub w.oldest <;> simp

theorem refusesBeyond : w.Refuses next ↔ Beyond (w.keptSum + w.drift) ∨
    ∃ rest, (rounded (w.keptSum + w.drift)).map value = some rest ∧ Beyond (rest + next.value) := by
  rw [refusesStages, keptSum, ← sumLessOldest, ← Decimal.subNone, ← Decimal.subValue]
  refine or_congr_right ⟨?_, ?_⟩
  · rintro ⟨rest, found, overflows⟩
    exact ⟨rest.value, by rw [found, Option.map_some], (Decimal.addNone rest next).mp overflows⟩
  · rintro ⟨_, stands, beyond⟩
    obtain ⟨rest, found, rfl⟩ := Option.map_eq_some_iff.mp stands
    exact ⟨rest, found, (Decimal.addNone rest next).mpr beyond⟩

theorem sumWithKept (w : Window) (next : Decimal) : w.sumWith next = w.keptSum + next.value := by
  simp [sumWith, keptSum]

section Whole

theorem wholeSum {ds : List Decimal} (whole : ∀ d ∈ ds, d.Whole) :
    ∃ z : Int, (ds.map value).sum = z := by
  induction ds with
  | nil => exact ⟨0, by simp⟩
  | cons d ds ih =>
    obtain ⟨head, headSame⟩ := whole d (by simp)
    obtain ⟨tail, tailSame⟩ := ih fun e inside => whole e (by simp [inside])
    exact ⟨head + tail, by simp [headSame, tailSame]⟩

theorem keptWhole (slots : w.WholeSlots) : ∃ z : Int, w.keptSum = z :=
  wholeSum fun d inside => slots.whole d (List.mem_of_mem_tail inside)

theorem wholeOfSize (opened : ofSize k = .ok fresh) : fresh.WholeSlots := by
  obtain ⟨empty, _, _⟩ := ofSizeEmpty opened
  refine ⟨driftOfSize opened, fun d inside => ⟨0, ?_⟩⟩
  rw [empty] at inside
  rw [List.eq_of_mem_replicate inside, Decimal.zeroValue, Int.cast_zero]

theorem wholeStep (slots : w.WholeSlots) (whole : next.Whole) : (w.step next).2.WholeSlots := by
  rw [stepSettle]
  cases settled : w.settle next with
  | none => exact slots
  | some result =>
    obtain ⟨sum, average⟩ := result
    simp only [settle, nextSum, Option.bind_eq_some_iff, Option.map_eq_some_iff,
      Prod.mk.injEq] at settled
    obtain ⟨_, ⟨left, subtracted, added⟩, _, _, rfl, rfl⟩ := settled
    obtain ⟨z, kept⟩ := keptWhole slots
    obtain ⟨m, written⟩ := whole
    have exact : w.sum.value - w.oldest.value = z := by
      rw [sumLessOldest, slots.undrifted, add_zero, ← keptSum, kept]
    have left := Decimal.subWhole exact subtracted
    have total := Decimal.addWhole (z := z + m) (by rw [left, written, Int.cast_add]) added
    refine ⟨?_, ?_⟩
    · rw [drift, sumAdvance, recentAdvance, ← sumWith, sumWithKept, kept, written, total]
      push_cast
      ring
    · rw [recentAdvance]
      exact forallWritten slots.whole ⟨m, written⟩

theorem wholeRun (slots : w.WholeSlots) (whole : ∀ d ∈ values, d.Whole) :
    (w.after values).WholeSlots := by
  induction values generalizing w with
  | nil => exact slots
  | cons next rest ih =>
    exact ih (wholeStep slots (whole next (by simp))) fun d inside => whole d (by simp [inside])

theorem refusesWhole (slots : w.WholeSlots) :
    w.Refuses next ↔ Beyond w.keptSum ∨ Beyond (w.sumWith next) := by
  obtain ⟨z, kept⟩ := keptWhole slots
  rw [refusesBeyond, slots.undrifted, add_zero, sumWithKept, kept]
  by_cases beyond : Beyond z
  · exact ⟨fun _ => .inl beyond, fun _ => .inl beyond⟩
  · rw [Decimal.roundedWhole beyond]
    simp

theorem keptBeyond (alike : w.size ≤ 2 ∨ 0 ≤ w.keptSum * next.value) (beyond : Beyond w.keptSum) :
    Beyond (w.sumWith next) := by
  rcases alike with small | alike
  · have few : w.recent.tail.length ≤ 1 := by
      rw [List.length_tail, lengthRecent]
      omega
    have within : ¬Beyond w.keptSum := by
      unfold keptSum
      match w.recent.tail, few with
      | [], _ =>
        rw [List.map_nil, List.sum_nil, ← Decimal.zeroValue]
        exact Decimal.withinRange .zero
      | [d], _ =>
        rw [List.map_singleton, List.sum_singleton]
        exact Decimal.withinRange d
    exact absurd beyond within
  · refine Decimal.beyondMono ?_ beyond
    rw [sumWithKept, abs_add_eq_add_abs_iff _ _ |>.mpr (mul_nonneg_iff.mp alike)]
    exact le_add_of_nonneg_right (abs_nonneg _)

end Whole

/-- An update is refused where the values that stay, or what they would make with the new one,
are beyond every decimal, with what rounding has added to them. Whole numbers are never rounded;
among them the new sum decides alone in a window of two, or where it is the larger one. -/
theorem refusedBeyondRange (positive : 0 < k) : ∃ fresh, ofSize k = .ok fresh ∧
    ∀ (values : List Decimal) (next : Decimal), let w := fresh.after values
      let kept := w.keptSum + fresh.slips values
      (w.Refuses next ↔ Beyond kept ∨
        ∃ rest, (rounded kept).map value = some rest ∧ Beyond (rest + next.value)) ∧
      ((∀ d ∈ values ++ [next], d.Whole) →
        (w.Refuses next ↔ Beyond w.keptSum ∨ Beyond (w.sumWith next)) ∧
        (k ≤ 2 ∨ 0 ≤ w.keptSum * next.value → (w.Refuses next ↔ Beyond (w.sumWith next)))) := by
  obtain ⟨fresh, opened⟩ := ofSizeSome positive
  refine ⟨fresh, opened, fun values next => ⟨?_, fun whole => ?_⟩⟩
  · have drifted := fresh.driftAfter values
    rw [driftOfSize opened, zero_add] at drifted
    rw [← drifted]
    exact refusesBeyond
  · have earlier : ∀ d ∈ values, d.Whole := fun d inside => whole d (by simp [inside])
    have slots := wholeRun (wholeOfSize opened) earlier
    have size : (fresh.after values).size = k := by
      rw [sizeAfter, (ofSizeEmpty opened).2.2]
    refine ⟨refusesWhole slots, fun alike => ?_⟩
    rw [refusesWhole slots, or_iff_right_iff_imp]
    exact keptBeyond (size ▸ alike)

theorem departingValueOverflows :
    let most : Decimal := ⟨false, Decimal.greatestCoefficient, 0, by decide, by decide⟩
    let one : Decimal := ⟨false, 1, 0, by decide, by decide⟩
    let values := [most, one.neg, most.neg]
    ∃ fresh, ofSize 3 = .ok fresh ∧ fresh.Accepts values ∧ (fresh.after values).Refuses one ∧
      (fresh.after values).recent.tail ++ [one] = [one.neg, most.neg, one] ∧
      (fresh.after values).sumWith one = most.neg.value ∧
      ¬Beyond ((fresh.after values).sumWith one) := by
  intro most one values
  have opened : ofSize 3 = .ok ⟨[.zero, .zero, .zero], 0, .zero, by decide⟩ := rfl
  refine ⟨_, opened, by decide +kernel, refusesSum.mpr (by decide +kernel), by decide +kernel, ?_, ?_⟩
  · decide +kernel
  · decide +kernel

theorem largestTakesNoMore :
    let most : Decimal := ⟨false, Decimal.greatestCoefficient, 0, by decide, by decide⟩
    let one : Decimal := ⟨false, 1, 0, by decide, by decide⟩
    ∃ fresh, ofSize 2 = .ok fresh ∧ (fresh.after [most]).Refuses one ∧
      ¬(fresh.after [most]).Refuses most.neg := by
  intro most one
  obtain ⟨fresh, opened, refused⟩ := refusedBeyondRange (by decide : 0 < 2)
  cases opened
  have unscaled : ∀ d ∈ [most, one, most.neg], d.scale = 0 := by decide
  have whole {next : Decimal} (known : next ∈ [most, one, most.neg]) :
      ∀ d ∈ [most] ++ [next], d.Whole := by
    intro d inside
    rcases List.mem_cons.mp inside with rfl | last
    · exact Decimal.wholeUnscaled (unscaled most (by simp))
    · exact Decimal.wholeUnscaled (unscaled d (List.mem_singleton.mp last ▸ known))
  refine ⟨_, rfl, ?_, ?_⟩
  · rw [((refused [most] one).2 (whole (by simp))).2 (.inl (by decide))]
    decide +kernel
  · rw [((refused [most] most.neg).2 (whole (by simp))).2 (.inl (by decide))]
    decide +kernel

section Taken

theorem takenSettled (settled : w.settle next = some (sum, average)) :
    w.taken (next :: rest) = next :: (w.advance next sum).taken rest := by
  simp [taken, answers, stepTaken settled, Except.isOk, Except.toBool]

theorem takenRefused (refused : w.settle next = none) : w.taken (next :: rest) = w.taken rest := by
  simp [taken, answers, stepRefused refused, Except.isOk, Except.toBool]

theorem answersTaken (w : Window) (values : List Decimal) :
    w.answers (w.taken values) = (w.answers values).filter Except.isOk := by
  induction values generalizing w with
  | nil => rfl
  | cons next rest ih =>
    cases settled : w.settle next with
    | none =>
      rw [takenRefused settled, ih, answers, stepRefused settled]
      rfl
    | some result =>
      obtain ⟨sum, average⟩ := result
      rw [takenSettled settled, answers, answers, stepTaken settled, ih]
      rfl

theorem afterTaken (w : Window) (values : List Decimal) :
    w.after (w.taken values) = w.after values := by
  induction values generalizing w with
  | nil => rfl
  | cons next rest ih =>
    rw [afterCons]
    cases settled : w.settle next with
    | none => rw [takenRefused settled, ih, stepRefused settled]
    | some result =>
      obtain ⟨sum, average⟩ := result
      rw [takenSettled settled, afterCons, stepTaken settled, ih]

theorem acceptsTaken (w : Window) (values : List Decimal) : w.Accepts (w.taken values) := by
  intro answer inside
  rw [answersTaken] at inside
  exact (List.mem_filter.mp inside).2

theorem indexAfter (w : Window) (values : List Decimal) :
    (w.after values).index = (w.index + (w.taken values).length) % w.size := by
  induction values generalizing w with
  | nil => exact (Nat.mod_eq_of_lt w.index_lt).symm
  | cons next rest ih =>
    rw [afterCons]
    cases settled : w.settle next with
    | none => rw [takenRefused settled, stepRefused settled, ih]
    | some result =>
      obtain ⟨sum, average⟩ := result
      have onward : (w.advance next sum).index = (w.index + 1) % w.size := rfl
      rw [takenSettled settled, stepTaken settled, ih, onward, sizeAdvance, List.length_cons,
        Nat.mod_add_mod, Nat.add_assoc, Nat.add_comm 1]

end Taken

/-- A run without the values that it refused is the same run: it answers the same averages and
ends in the same window. Only the two sums can refuse a value, and the slots are read in range. -/
theorem refusalsLeaveNoTrace (positive : 0 < k) : ∃ fresh, ofSize k = .ok fresh ∧
    ∀ values : List Decimal, let w := fresh.after values
      (fresh.Accepts (fresh.taken values) ∧
        fresh.answers (fresh.taken values) = (fresh.answers values).filter Except.isOk ∧
        fresh.after (fresh.taken values) = w) ∧
      (w.slots.length = k ∧ w.index = (fresh.taken values).length % k ∧ w.index < k) ∧
      (∀ next, w.Refuses next ↔ w.sum.sub w.oldest = none ∨
        ∃ rest, w.sum.sub w.oldest = some rest ∧ rest.add next = none) ∧
      ∀ sum, ∃ average, w.average sum = some average := by
  obtain ⟨fresh, opened⟩ := ofSizeSome positive
  obtain ⟨_, _, size⟩ := ofSizeEmpty opened
  refine ⟨fresh, opened, fun values => ⟨⟨fresh.acceptsTaken values, fresh.answersTaken values,
    fresh.afterTaken values⟩, ⟨?_, ?_, ?_⟩, fun next => refusesStages, averageTotal _⟩⟩
  · exact (sizeAfter fresh values).trans size
  · rw [indexAfter, indexOfSize opened, Nat.zero_add, size]
  · have within := (fresh.after values).index_lt
    rwa [← Window.size, sizeAfter, size] at within

theorem overflowingOneLeavesNoTrace :
    let most : Decimal := ⟨false, Decimal.greatestCoefficient, 0, by decide, by decide⟩
    let one : Decimal := ⟨false, 1, 0, by decide, by decide⟩
    ∃ fresh, ofSize 2 = .ok fresh ∧ fresh.taken [most, one, most.neg] = [most, most.neg] ∧
      fresh.Accepts [most, most.neg] ∧
      fresh.answers [most, most.neg] = (fresh.answers [most, one, most.neg]).filter Except.isOk ∧
      fresh.after [most, most.neg] = fresh.after [most, one, most.neg] := by
  intro most one
  obtain ⟨fresh, opened, untraced⟩ := refusalsLeaveNoTrace (by decide : 0 < 2)
  cases opened
  have kept : Window.taken ⟨[.zero, .zero], 0, .zero, by decide⟩ [most, one, most.neg] =
      [most, most.neg] := by decide +kernel
  obtain ⟨accepted, answered, after⟩ := (untraced [most, one, most.neg]).1
  refine ⟨_, rfl, kept, ?_, ?_, ?_⟩
  · exact kept ▸ accepted
  · exact kept ▸ answered
  · exact kept ▸ after


theorem lengthTaken (w : Window) (values : List Decimal) :
    (w.taken values).length = (w.answers values).countP Except.isOk := by
  rw [← lengthAnswers, answersTaken, List.countP_eq_length_filter]

theorem recentTaken (w : Window) (values : List Decimal) :
    (w.after values).recent = (w.recent ++ w.taken values).drop (w.taken values).length := by
  rw [← afterTaken]
  exact recentAfter (acceptsTaken w values)

theorem slotAround {w : Window} {i : Nat} (inside : i < w.size) :
    w.slots[(w.index + i) % w.size]? = w.recent[i]? := by
  rw [recent, List.getElem?_rotate inside, Nat.add_comm, size]

theorem zerosFirst (k : Nat) (written : List Decimal) :
    (List.replicate k Decimal.zero ++ written).drop written.length =
      List.replicate (k - written.length) .zero ++ written.rtake k := by
  rw [List.drop_append, List.drop_replicate, List.length_replicate, List.rtake]

/-- After any updates, refused ones among them, the index has gone on by one for each value
written, and the slots around from it hold the last of these values behind zeros. -/
theorem slotsHoldLastWritten (positive : 0 < k) : ∃ fresh, ofSize k = .ok fresh ∧
    ∀ values : List Decimal, let w := fresh.after values; let written := fresh.taken values
      w.slots.length = k ∧ w.index < k ∧ w.index = written.length % k ∧
      written.length = (fresh.answers values).countP Except.isOk ∧
      (∀ i < k, w.slots[(w.index + i) % k]? =
        (List.replicate (k - written.length) .zero ++ written.rtake k)[i]?) ∧
      (List.replicate (k - written.length) Decimal.zero ++ written.rtake k).length = k := by
  obtain ⟨fresh, opened⟩ := ofSizeSome positive
  obtain ⟨empty, _, size⟩ := ofSizeEmpty opened
  refine ⟨fresh, opened, fun values => ?_⟩
  intro w written
  have length : w.size = k := (sizeAfter fresh values).trans size
  have index : w.index = written.length % k := by
    rw [indexAfter, indexOfSize opened, Nat.zero_add, size]
  have around : w.recent = List.replicate (k - written.length) .zero ++ written.rtake k := by
    rw [recentTaken, empty, zerosFirst]
  refine ⟨length, index ▸ Nat.mod_lt _ positive, index, lengthTaken fresh values,
    fun i inside => ?_, ?_⟩
  · have slot := slotAround (w := w) (length.symm ▸ inside)
    rw [length] at slot
    rw [slot, around]
  · rw [← around, lengthRecent, length]

theorem ringTurnsOverRefused :
    let most : Decimal := ⟨false, Decimal.greatestCoefficient, 0, by decide, by decide⟩
    let one : Decimal := ⟨false, 1, 0, by decide, by decide⟩
    0 < 2 ∧ ∃ fresh, ofSize 2 = .ok fresh ∧
      fresh.taken [most, one, most.neg, one] = [most, most.neg, one] ∧
      (fresh.after [most, one, most.neg, one]).index = 1 ∧
      ∀ i < 2, (fresh.after [most, one, most.neg, one]).slots[(1 + i) % 2]? = [most.neg, one][i]? := by
  intro most one
  obtain ⟨fresh, opened, ring⟩ := slotsHoldLastWritten (by decide : 0 < 2)
  obtain rfl : ⟨[.zero, .zero], 0, .zero, by decide⟩ = fresh := Except.ok.inj opened
  have written : Window.taken ⟨[.zero, .zero], 0, .zero, by decide⟩ [most, one, most.neg, one] =
      [most, most.neg, one] := by decide +kernel
  obtain ⟨_, _, index, _, around, _⟩ := ring [most, one, most.neg, one]
  rw [written] at index around
  replace index := index.trans (by decide : [most, most.neg, one].length % 2 = 1)
  rw [index] at around
  exact ⟨by decide, ⟨[.zero, .zero], 0, .zero, by decide⟩, rfl, written, index, around⟩

end Window
end RuleBroker
