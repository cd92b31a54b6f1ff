import Mathlib.Data.List.DropRight
import RuleBroker.Function.ProfitTrend
import RuleBroker.Proofs.DecimalRange
import RuleBroker.Proofs.MovingAverage
/-! Windows in which nothing is rounded. Where as many values of one scale as the window has
slots have room in one coefficient, the running sum is the sum of the slots, and an average is
off the exact one by its own division alone. -/
namespace RuleBroker

namespace Decimal

structure Summable (count scale : Nat) (d : Decimal) : Prop where
  scaled : d.scale ≤ scale
  small : |d.value| ≤ ((greatestCoefficient / count : Nat) : ℚ) / tenTo scale

instance (count scale d) : Decidable (Summable count scale d) :=
  decidable_of_iff (d.scale ≤ scale ∧
    |d.value| ≤ ((greatestCoefficient / count : Nat) : ℚ) / tenTo scale)
    ⟨fun fits => ⟨fits.1, fits.2⟩, fun fits => ⟨fits.scaled, fits.small⟩⟩

/-- The exact sum, divided once: no other operation has rounded. -/
structure DividedOnce (ds : List Decimal) (k : Nat) (average : Decimal) : Prop where
  divided : ∃ sum : Decimal, sum.value = (ds.map value).sum ∧ sum.divNat k = some average
  nearest : (rounded ((ds.map value).sum / k)).map value = some average.value

variable {count scale : Nat} {d : Decimal} {ds : List Decimal}

theorem unitsOfSummable (fits : d.Summable count scale) :
    ∃ z : Int, z.natAbs ≤ greatestCoefficient / count ∧ d.value = (z : ℚ) / tenTo scale := by
  have unit : (0 : ℚ) < tenTo scale := Nat.cast_pos.mpr (tenToPos scale)
  have same := valueAt d fits.scaled
  have small := fits.small
  rw [same, abs_div, abs_of_pos unit, div_le_div_iff_of_pos_right unit] at small
  refine ⟨d.coefficient * tenTo (scale - d.scale), ?_, by push_cast; exact same⟩
  have whole : (((d.coefficient * tenTo (scale - d.scale)).natAbs : Nat) : ℚ) ≤
      (greatestCoefficient / count : Nat) := by
    rw [Nat.cast_natAbs]
    push_cast at small ⊢
    exact small
  exact Nat.cast_le.mp whole

theorem unitsOfSum (each : ∀ d ∈ ds, d.Summable count scale) :
    ∃ z : Int, z.natAbs ≤ ds.length * (greatestCoefficient / count) ∧
      (ds.map value).sum = (z : ℚ) / tenTo scale := by
  induction ds with
  | nil => exact ⟨0, by simp, by simp⟩
  | cons d rest ih =>
    obtain ⟨head, headSmall, headSame⟩ := unitsOfSummable (each d (by simp))
    obtain ⟨tail, tailSmall, tailSame⟩ := ih fun e inside => each e (by simp [inside])
    refine ⟨head + tail, ?_, ?_⟩
    · have together := Int.natAbs_add_le head tail
      rw [List.length_cons, Nat.add_mul, Nat.one_mul]
      omega
    · rw [List.map_cons, List.sum_cons, headSame, tailSame]
      push_cast
      ring

theorem roundedSum (each : ∀ d ∈ ds, d.Summable count scale) (few : ds.length ≤ count)
    (scaled : scale ≤ greatestScale) :
    (rounded (ds.map value).sum).map value = some (ds.map value).sum := by
  obtain ⟨z, small, same⟩ := unitsOfSum each
  have room : z.natAbs ≤ greatestCoefficient :=
    calc z.natAbs ≤ ds.length * (greatestCoefficient / count) := small
      _ ≤ count * (greatestCoefficient / count) := Nat.mul_le_mul_right _ few
      _ ≤ greatestCoefficient := Nat.mul_div_le _ _
  rw [same]
  exact roundedUnits room scaled

end Decimal

namespace Window
open Decimal (value rounded Summable DividedOnce greatestScale)

structure Exact (scale : Nat) (w : Window) : Prop where
  undrifted : w.drift = 0
  room : ∀ d ∈ w.recent, d.Summable w.size scale

variable {w : Window} {next : Decimal} {values : List Decimal} {scale k : Nat} {fresh : Window}

theorem exactSettle (exact : w.Exact scale) (scaled : scale ≤ greatestScale)
    (fits : next.Summable w.size scale) : ∃ sum average, w.settle next = some (sum, average) ∧
      sum.value = ((w.recent.tail ++ [next]).map value).sum := by
  have kept : w.sum.value - w.oldest.value = (w.recent.tail.map value).sum := by
    rw [sumLessOldest, exact.undrifted, add_zero]
  have longer : ((w.recent.tail.map value).sum + next.value) =
      ((w.recent.tail ++ [next]).map value).sum := by simp
  have written := forallWritten exact.room fits
  have tail : ∀ d ∈ w.recent.tail, d.Summable w.size scale := fun d inside =>
    written d (List.mem_append_left _ inside)
  have size : w.recent.tail.length + 1 = w.size := by
    rw [← lengthRecent, recentSplit, List.tail_cons, List.length_cons]
  -- Both steps stay among sums of at most so many values as the window has slots.
  have subtracted := Decimal.subValue w.sum w.oldest
  rw [kept, Decimal.roundedSum tail (by omega) scaled] at subtracted
  obtain ⟨rest, restFound, restValue⟩ := Option.map_eq_some_iff.mp subtracted
  have few : (w.recent.tail ++ [next]).length ≤ w.size := by
    rw [List.length_append, List.length_singleton, size]
  have added := Decimal.addValue rest next
  rw [restValue, longer, Decimal.roundedSum written few scaled] at added
  obtain ⟨sum, sumFound, sumValue⟩ := Option.map_eq_some_iff.mp added
  obtain ⟨average, divided⟩ := Decimal.divNatSome sum w.sizePositive
  refine ⟨sum, average, ?_, sumValue⟩
  rw [settle, nextSum, restFound, Option.bind_some, sumFound, Option.bind_some, Window.average,
    divided, Option.map_some]

theorem exactStep (exact : w.Exact scale) (scaled : scale ≤ greatestScale)
    (fits : next.Summable w.size scale) : (w.step next).2.Exact scale := by
  obtain ⟨sum, average, settled, total⟩ := exactSettle exact scaled fits
  rw [stepTaken settled]
  refine ⟨?_, ?_⟩
  · rw [drift, sumAdvance, recentAdvance, total, sub_self]
  · rw [sizeAdvance, recentAdvance]
    exact forallWritten exact.room fits

theorem exactRun (exact : w.Exact scale) (scaled : scale ≤ greatestScale)
    (fits : ∀ d ∈ values, d.Summable w.size scale) :
    w.Accepts values ∧ (w.after values).Exact scale := by
  induction values generalizing w with
  | nil => exact ⟨nofun, exact⟩
  | cons next rest ih =>
    have first : next.Summable w.size scale := fits next (by simp)
    obtain ⟨sum, average, settled, _⟩ := exactSettle exact scaled first
    have onward := exactStep exact scaled first
    have later : ∀ d ∈ rest, d.Summable (w.step next).2.size scale := by
      intro d inside
      rw [sizeStep]
      exact fits d (by simp [inside])
    obtain ⟨accepted, kept⟩ := ih onward later
    exact ⟨acceptsCons.mpr ⟨⟨sum, average, settled⟩, accepted⟩, kept⟩

theorem answerAt (accepted : w.Accepts values) {n : Nat} (within : n < values.length) :
    ∃ average, (w.answers values)[n]? = some (.ok average) ∧
      (w.after (values.take (n + 1))).sum.divNat w.size = some average := by
  induction values generalizing w n with
  | nil => simp at within
  | cons next rest ih =>
    obtain ⟨⟨sum, average, settled⟩, onward⟩ := acceptsCons.mp accepted
    cases n with
    | zero =>
      refine ⟨average, ?_, ?_⟩
      · rw [answers, stepTaken settled, List.getElem?_cons_zero]
      · have divided := averageSettled settled
        rw [List.take_succ_cons, List.take_zero, afterCons, stepTaken settled]
        exact divided
    | succ n =>
      obtain ⟨average, found, divided⟩ := ih onward (Nat.lt_of_succ_lt_succ within)
      refine ⟨average, ?_, ?_⟩
      · rw [answers, List.getElem?_cons_succ, found]
      · rw [List.take_succ_cons, afterCons, ← divided, sizeStep]

theorem exactOfSize (opened : ofSize k = .ok fresh) : fresh.Exact scale := by
  obtain ⟨empty, _, size⟩ := ofSizeEmpty opened
  refine ⟨driftOfSize opened, fun d inside => ?_⟩
  rw [empty] at inside
  rw [List.eq_of_mem_replicate inside]
  refine ⟨Nat.zero_le _, ?_⟩
  rw [Decimal.zeroValue, abs_zero]
  exact div_nonneg (Nat.cast_nonneg _) (Nat.cast_nonneg _)

theorem sumPadded (k : Nat) (values : List Decimal) :
    (((List.replicate k Decimal.zero ++ values).drop values.length).map value).sum =
      ((values.rtake k).map value).sum := by
  rw [List.drop_append, List.length_replicate, List.rtake]
  simp

theorem dividedAt (opened : ofSize k = .ok fresh) (scaled : scale ≤ greatestScale)
    (fits : ∀ d ∈ values, d.Summable k scale) {n : Nat} (within : n < values.length) :
    ∃ average, (fresh.answers values)[n]? = some (.ok average) ∧
      DividedOnce ((values.take (n + 1)).rtake k) k average := by
  obtain ⟨empty, _, size⟩ := ofSizeEmpty opened
  subst size
  obtain ⟨accepted, _⟩ := exactRun (exactOfSize opened) scaled fits
  obtain ⟨average, found, divided⟩ := answerAt accepted within
  have earlier : ∀ d ∈ values.take (n + 1), d.Summable fresh.size scale := fun d inside =>
    fits d (List.mem_of_mem_take inside)
  obtain ⟨upTo, exact⟩ := exactRun (exactOfSize opened) scaled earlier
  have total : (fresh.after (values.take (n + 1))).sum.value =
      (((values.take (n + 1)).rtake fresh.size).map value).sum := by
    rw [sub_eq_zero.mp exact.undrifted, recentAfter upTo, empty, sumPadded]
  have nearest := Decimal.divNatValue (fresh.after (values.take (n + 1))).sum fresh.sizePositive
  rw [divided, total, Option.map_some] at nearest
  exact ⟨average, found, ⟨⟨_, total, divided⟩, nearest.symm⟩⟩

end Window

namespace ProfitTrend
open Decimal (Summable DividedOnce greatestScale)

variable {w : Window} {average : Decimal} {profits : List Profit} {scale : Nat}

theorem lastAverageCons (w : Window) (average : Decimal) (p : Profit) (rest : List Profit) :
    lastAverage w average (p :: rest) = match (w.step p.amount).1 with
      | .ok next => lastAverage (w.step p.amount).2 next rest
      | .error e => .error e := by
  rw [lastAverage, Window.step]
  cases w.update p.amount <;> rfl

theorem lastAverageAccepted (accepted : w.Accepts (profits.map Profit.amount)) :
    lastAverage w average profits =
      (w.answers (profits.map Profit.amount)).getLast?.getD (.ok average) := by
  induction profits generalizing w average with
  | nil => rfl
  | cons p rest ih =>
    obtain ⟨⟨sum, next, settled⟩, onward⟩ := Window.acceptsCons.mp accepted
    rw [Window.stepTaken settled] at onward
    simp only [lastAverageCons, Window.stepTaken settled, ih onward, List.map_cons, Window.answers]
    cases rest with
    | nil => rfl
    | cons q more =>
      simp only [List.map_cons, Window.answers, List.getLast?_cons_cons]
      rfl

theorem averageBelow {least : Int} (few : profits.length < least ∨ profits = []) :
    ProfitTrend.average profits least = .ok .zero := by
  unfold ProfitTrend.average
  split
  · rfl
  · next enough =>
    rcases few with few | empty
    · exact absurd few enough
    · rw [empty]
      rfl

theorem averageDivided {least : Int} (enough : least ≤ profits.length) (nonempty : profits ≠ [])
    (scaled : scale ≤ greatestScale) (fits : ∀ p ∈ profits, p.amount.Summable windowSize scale) :
    ∃ average, ProfitTrend.average profits least = .ok average ∧
      DividedOnce ((profits.map Profit.amount).rtake windowSize) windowSize average := by
  obtain ⟨fresh, opened⟩ : ∃ fresh, Window.ofSize windowSize = .ok fresh := ⟨_, rfl⟩
  have amounts : ∀ d ∈ profits.map Profit.amount, d.Summable windowSize scale := by
    intro d inside
    obtain ⟨p, member, rfl⟩ := List.mem_map.mp inside
    exact fits p member
  have positive : 0 < profits.length := List.length_pos_iff.mpr nonempty
  have last : profits.length - 1 < (profits.map Profit.amount).length := by
    rw [List.length_map]
    omega
  obtain ⟨average, found, divided⟩ := Window.dividedAt opened scaled amounts last
  have whole : (profits.map Profit.amount).take (profits.length - 1 + 1) =
      profits.map Profit.amount := by
    rw [List.take_of_length_le]
    rw [List.length_map]
    omega
  rw [whole] at divided
  refine ⟨average, ?_, divided⟩
  obtain ⟨_, _, size⟩ := Window.ofSizeEmpty opened
  rw [← size] at amounts
  obtain ⟨accepted, _⟩ := Window.exactRun (Window.exactOfSize opened) scaled amounts
  have ending : (fresh.answers (profits.map Profit.amount)).getLast? = some (.ok average) := by
    rw [List.getLast?_eq_getElem?, Window.lengthAnswers, List.length_map]
    exact found
  have unopened : ProfitTrend.average profits least = lastAverage fresh .zero profits := by
    rw [ProfitTrend.average, if_neg (by omega), opened]
    rfl
  rw [unopened, lastAverageAccepted accepted, ending, Option.getD_some]

end ProfitTrend

namespace Window
open Decimal (Summable DividedOnce greatestScale)

/-- Where nothing can be rounded on the way, every update succeeds and answers the sum of the
last values divided once; and so does the average of profits, over its last four amounts. -/
theorem averagesOfLastValues {k scale : Nat} (positive : 0 < k) (scaled : scale ≤ greatestScale) :
    (∃ fresh, ofSize k = .ok fresh ∧
      ∀ values : List Decimal, (∀ d ∈ values, d.Summable k scale) →
        (fresh.answers values).length = values.length ∧
        ∀ n < values.length, ∃ average, (fresh.answers values)[n]? = some (.ok average) ∧
          DividedOnce ((values.take (n + 1)).rtake k) k average) ∧
    ∀ (profits : List Profit) (least : Int), (∀ p ∈ profits, p.amount.Summable 4 scale) →
      (profits.length < least ∨ profits = [] → ProfitTrend.average profits least = .ok .zero) ∧
      (least ≤ profits.length → profits ≠ [] →
        ∃ average, ProfitTrend.average profits least = .ok average ∧
          DividedOnce ((profits.map Profit.amount).rtake 4) 4 average) := by
  have opened : ∃ fresh, ofSize k = .ok fresh := ⟨_, dif_pos positive⟩
  obtain ⟨fresh, opened⟩ := opened
  refine ⟨⟨fresh, opened, fun values fits => ⟨lengthAnswers fresh values, fun n within => ?_⟩⟩,
    fun profits least fits => ⟨ProfitTrend.averageBelow, fun enough nonempty => ?_⟩⟩
  · exact dividedAt opened scaled fits within
  · exact ProfitTrend.averageDivided enough nonempty scaled fits

theorem firstValueLeaves :
    let high : Decimal := ⟨false, 905, 2, by decide, by decide⟩
    let loss : Decimal := ⟨true, 1, 0, by decide, by decide⟩
    let low : Decimal := ⟨false, 2, 1, by decide, by decide⟩
    let profit (d : Decimal) : Profit := ⟨2020, d, rfl⟩
    (∃ fresh, ofSize 2 = .ok fresh ∧
      ∃ average, (fresh.answers [high, loss, low])[2]? = some (.ok average) ∧
        DividedOnce [loss, low] 2 average) ∧
    ∃ average, ProfitTrend.average ([high, low, loss, low, high].map profit) 5 = .ok average ∧
      DividedOnce [low, loss, low, high] 4 average := by
  intro high loss low profit
  obtain ⟨⟨fresh, opened, answered⟩, _⟩ :=
    averagesOfLastValues (by decide : 0 < 2) (by decide : 2 ≤ greatestScale)
  obtain ⟨average, found, divided⟩ := (answered [high, loss, low] (by decide +kernel)).2 2 (by decide)
  refine ⟨⟨fresh, opened, average, found, divided⟩, ?_⟩
  have fits : ∀ p ∈ [high, low, loss, low, high].map profit, p.amount.Summable 4 2 := by
    decide +kernel
  exact ((averagesOfLastValues (k := 4) (by decide) (by decide)).2 _ 5 fits).2 (by decide) (by simp)

end Window
end RuleBroker
