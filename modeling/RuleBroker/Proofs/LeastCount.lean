import RuleBroker.Proofs.FloatValue
import RuleBroker.Proofs.ProfitSeries
/-! The least count of years of a moving average, given as a number. A number on which a list
falls short by one or more leaves no average; the part of it behind the point is dropped, so that
a list may fall short of it by less. -/
namespace RuleBroker

namespace Binary64

variable {x : Binary64} {lo hi : Int}

theorem wholeAtLeast {z : Int} (positive : x.negative = false) :
    z ≤ x.whole ↔ z * unitsPerOne ≤ x.units := by
  rw [whole, positive, if_neg Bool.false_ne_true,
    Int.le_ediv_iff_mul_le (Int.natCast_pos.mpr unitsPerOnePos)]

theorem wholeNegative (negative : x.negative = true) : x.whole ≤ 0 := by
  have parts : (0 : Int) ≤ x.units / unitsPerOne :=
    Int.ediv_nonneg (Int.natCast_nonneg _) (Int.natCast_nonneg _)
  rw [whole, if_pos negative]
  omega

theorem wholeBelow (n : Nat) (x : Binary64) : (n : Int) < x.whole ↔ (n : ℚ) + 1 ≤ x.value := by
  have one : (0 : ℚ) < unitsPerOne := Nat.cast_pos.mpr unitsPerOnePos
  cases negative : x.negative with
  | true =>
    have below : x.value ≤ 0 := by
      rw [value, signedUnits, if_pos negative, Int.cast_neg, neg_div]
      exact neg_nonpos.mpr (div_nonneg (Nat.cast_nonneg _) one.le)
    have count : (0 : ℚ) ≤ n := Nat.cast_nonneg n
    have part := wholeNegative negative
    constructor
    · intro less
      omega
    · intro least
      linarith
  | false =>
    rw [Int.lt_iff_add_one_le, wholeAtLeast negative, value, signedUnits, negative,
      if_neg Bool.false_ne_true, le_div_iff₀ one]
    exact_mod_cast Iff.rfl

theorem wholeWithinNegative (negative : x.negative = true) (low : lo ≤ 0) :
    x.wholeWithin lo hi ≤ 0 := by
  have part := wholeNegative negative
  unfold wholeWithin
  split
  · rfl
  · split
    · exact low
    · omega

theorem wholeWithinFinite (finite : x.isFinite = true) :
    x.wholeWithin lo hi = max lo (min hi x.whole) := by
  rw [wholeWithin, notNaN finite, notInfinite finite]
  rfl

theorem wholeWithinGreat {n k : Nat} (large : twoTo k ≤ n) (representable : k ≤ 1024)
    (bounds : lo ≤ hi) (below : hi ≤ twoTo k) : (ofNat n).wholeWithin lo hi = hi := by
  have number : (ofNat n).isNaN = false := numberOfUnits
  have positive : (ofNat n).negative = false := negativeOfUnits
  have part : (twoTo k : Int) ≤ (ofNat n).whole := by
    have units := ofNatAtLeast large representable
    rw [Nat.add_comm, twoToAdd] at units
    exact (wholeAtLeast positive).mpr (by exact_mod_cast units)
  rw [wholeWithin, number, if_neg Bool.false_ne_true, positive, if_neg Bool.false_ne_true]
  split
  · rfl
  · omega

end Binary64

inductive Value.Numeral : Value → ℚ → Prop
  | int (n : Int) : Numeral (.int n) n
  | float {x : Binary64} (finite : x.isFinite = true) : Numeral (.float x) x.value

namespace ProfitTrend
open Text (leastI64 greatestI64 fitsI64)

variable {arg : Value} {m : ℚ} {n : Nat} {z : Int}

theorem countBelow : (n : ℚ) + 1 ≤ z ↔ (n : Int) < z := by
  rw [Int.lt_iff_add_one_le]
  exact_mod_cast Iff.rfl

theorem leastNegative (negative : z < 0) :
    (Binary64.ofInt z).wholeWithin leastI64 greatestI64 ≤ 0 := by
  have sign : (Binary64.ofInt z).negative = true :=
    Binary64.negativeOfUnits.trans (decide_eq_true negative)
  exact Binary64.wholeWithinNegative sign (by decide)

theorem leastGreat (great : greatestI64 < z) :
    (Binary64.ofInt z).wholeWithin leastI64 greatestI64 = greatestI64 := by
  have positive : 0 < z := Int.lt_trans (by decide) great
  have natural : Binary64.ofInt z = Binary64.ofNat z.natAbs := by
    rw [Binary64.ofInt, decide_eq_false (by omega)]
    rfl
  have word : greatestI64 + 1 = twoTo 63 := rfl
  rw [natural]
  exact Binary64.wholeWithinGreat (k := 63) (by omega) (by decide) (by decide) (by omega)

theorem leastInteger (z : Int) : ∃ least, ProfitTrend.least (.int z) = .ok least ∧
    ∀ n : Nat, (n : Int) < least ↔ (n : Int) < greatestI64 ∧ (n : Int) < z := by
  have range : fitsI64 z = true ↔ leastI64 ≤ z ∧ z ≤ greatestI64 := by simp [fitsI64]
  by_cases fits : fitsI64 z = true
  · refine ⟨z, by rw [least, least?, if_pos fits], fun n => ?_⟩
    have most := (range.mp fits).2
    omega
  · have known : ProfitTrend.least (.int z) =
        .ok ((Binary64.ofInt z).wholeWithin leastI64 greatestI64) := by
      rw [least, least?, if_neg fits]
      rfl
    refine ⟨_, known, fun n => ?_⟩
    rw [range, not_and_or, Int.not_le, Int.not_le] at fits
    rcases fits with low | great
    · have negative : z < 0 := Int.lt_trans low (by decide)
      have bound := leastNegative negative
      omega
    · rw [leastGreat great]
      omega

theorem leastNumeral (number : arg.Numeral m) : ∃ least, ProfitTrend.least arg = .ok least ∧
    ∀ n : Nat, (n : Int) < least ↔ (n : Int) < greatestI64 ∧ (n : ℚ) + 1 ≤ m := by
  cases number with
  | int z =>
    obtain ⟨least, known, below⟩ := leastInteger z
    exact ⟨least, known, fun n => by rw [below, countBelow]⟩
  | @float x finite =>
    refine ⟨x.wholeWithin leastI64 greatestI64, rfl, fun n => ?_⟩
    have low : leastI64 < 0 := by decide
    rw [← Binary64.wholeBelow, Binary64.wholeWithinFinite finite]
    omega

variable {view : RecordView} {seriesArg leastArg : Value} {profits : List Profit} {least : Int}

theorem averageReached (enough : ¬(profits.length : Int) < least) :
    average profits least = average profits 0 := by
  rw [average, average, if_neg enough, if_neg (by omega)]

/-- A list that falls short of the least count by one or more is answered zero, and one that
does not is averaged as without a least count, also where it falls short of it by a fraction.
A list longer than every count is always averaged. -/
theorem leastCountIsWhole (decoded : series view seriesArg = .ok profits)
    (number : leastArg.Numeral m) :
    ((profits.length : Int) < greatestI64 → (profits.length : ℚ) + 1 ≤ m →
      call view [seriesArg, leastArg] = .ok (.number .zero)) ∧
    (greatestI64 ≤ profits.length ∨ m < profits.length + 1 →
      call view [seriesArg, leastArg] = .number <$> average profits 0) := by
  obtain ⟨least, known, below⟩ := leastNumeral number
  rw [callDecoded decoded known]
  refine ⟨fun short few => ?_, fun enough => ?_⟩
  · rw [averageBelow (.inl ((below _).mpr ⟨short, few⟩))]
    rfl
  · rw [averageReached]
    rw [below, not_and_or, Int.not_lt, not_le]
    exact enough

theorem fractionIsDropped :
    let year : Profit := ⟨2020, ⟨false, 40, 0, by decide, by decide⟩, rfl⟩
    let years : Value := .list [.object [("amount", .int 40), ("year", .int 2020)]]
    let least : Binary64 := ⟨0x3FF8000000000000⟩
    series {} years = .ok [year] ∧ (Value.float least).Numeral (3 / 2) ∧
      ([year].length : ℚ) < 3 / 2 ∧
      call {} [years, .float least] = .ok (.number ⟨false, 10, 0, by decide, by decide⟩) ∧
      call {} [years, .float least] ≠ .ok (.number .zero) := by
  intro year years least
  have value : least.value = 3 / 2 := by decide +kernel
  have part : least.wholeWithin leastI64 greatestI64 = 1 := by decide +kernel
  have known : ProfitTrend.least (.float least) = .ok 1 := congrArg Except.ok part
  have decoded : series {} years = .ok [year] := rfl
  have averaged : average [year] 1 = .ok ⟨false, 10, 0, by decide, by decide⟩ := by decide +kernel
  have answer := callDecoded decoded known
  rw [averaged] at answer
  refine ⟨decoded, value ▸ .float (by decide), by norm_num, answer, ?_⟩
  rw [answer]
  nofun

theorem oneYearIsShortOfTwo :
    let year : Profit := ⟨2020, ⟨false, 40, 0, by decide, by decide⟩, rfl⟩
    let years : Value := .list [.object [("amount", .int 40), ("year", .int 2020)]]
    series {} years = .ok [year] ∧ call {} [years, .int 2] = .ok (.number .zero) ∧
      call {} [years, .int 1] = .number <$> average [year] 0 := by
  intro year years
  have decoded : series {} years = .ok [year] := rfl
  refine ⟨decoded, ?_, ?_⟩
  · exact (leastCountIsWhole decoded (.int 2)).1 (by decide) (by norm_num)
  · exact (leastCountIsWhole decoded (.int 1)).2 (.inr (by norm_num))

end ProfitTrend
end RuleBroker
