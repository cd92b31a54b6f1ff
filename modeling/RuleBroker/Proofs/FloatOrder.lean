import Mathlib.Data.Nat.Log
import RuleBroker.Proofs.FloatValue
/-! The order of floats, and rounding in it. Floats lie as their magnitudes do, a float is the
float nearest to itself, and rounding keeps the order of what it rounds. So rounding takes no
number over a float, and what it takes away is told by the number or by the least step. -/
namespace RuleBroker

namespace Binary64

variable {x y : Binary64} {negative : Bool} {num den num' den' : Nat}

theorem unitsBelow (x : Binary64) : x.units < twoTo (52 + x.exponentField) := by
  have small := x.fractionSmall
  have carry : twoTo 53 = 2 * twoTo 52 := rfl
  unfold units
  split
  · next field => rwa [field]
  · next field =>
    calc (twoTo 52 + x.fraction) * twoTo (x.exponentField - 1)
        < twoTo 53 * twoTo (x.exponentField - 1) :=
          Nat.mul_lt_mul_of_pos_right (by omega) (twoToPos _)
      _ = twoTo (53 + (x.exponentField - 1)) := (twoToAdd _ _).symm
      _ = twoTo (52 + x.exponentField) := congrArg twoTo (by omega)

theorem unitsAscend (less : x.magnitude < y.magnitude) : x.units < y.units := by
  have fields : x.exponentField ≤ y.exponentField := Nat.div_le_div_right less.le
  rcases Nat.lt_or_eq_of_le fields with below | same
  · obtain ⟨s, field⟩ := Nat.exists_eq_succ_of_ne_zero (Nat.ne_zero_of_lt below)
    have least : (s + 1) * twoTo 52 ≤ y.magnitude := by
      rw [← magnitudeSplit y, field]
      exact Nat.le_add_right _ _
    calc x.units < twoTo (52 + x.exponentField) := unitsBelow x
      _ ≤ twoTo (52 + s) := twoToMono (by omega)
      _ ≤ y.units := unitsAtLeast least
  · have fractions : x.fraction < y.fraction := by
      rw [← magnitudeSplit x, ← magnitudeSplit y, same] at less
      exact Nat.lt_of_add_lt_add_left less
    unfold units
    rw [same]
    split
    · exact fractions
    · exact Nat.mul_lt_mul_of_pos_right (Nat.add_lt_add_left fractions _) (twoToPos _)

theorem unitsMono (le : x.magnitude ≤ y.magnitude) : x.units ≤ y.units := by
  rcases Nat.lt_or_eq_of_le le with less | same
  · exact (unitsAscend less).le
  · exact (unitsAlike same).le

theorem unitsLess : x.units < y.units ↔ x.magnitude < y.magnitude := by
  refine ⟨fun less => ?_, unitsAscend⟩
  by_contra above
  exact absurd (unitsMono (Nat.le_of_not_lt above)) (Nat.not_le.mpr less)

theorem nearestMagnitudeMono (positive : 0 < den) (positive' : 0 < den')
    (ascending : num * den' ≤ num' * den) :
    nearestMagnitude num den ≤ nearestMagnitude num' den' := by
  have bits : (num / den).log2 ≤ (num' / den').log2 := by
    rw [Nat.log2_eq_log_two, Nat.log2_eq_log_two]
    exact Nat.log_mono_right (Rounding.divAscending positive positive' ascending)
  refine min_le_min_right _ ?_
  rcases Nat.lt_or_eq_of_le (Nat.sub_le_sub_right bits 52) with less | same
  -- A significand that fills its bits is no more than the least one of the next step.
  · have carry : twoTo 53 = 2 * twoTo 52 := rfl
    have most : Rounding.halfEven num (den * twoTo ((num / den).log2 - 52)) ≤ twoTo 53 :=
      significandAtMost positive (by omega)
    have normal : den' * twoTo 52 ≤ num' := by
      have nonzero : num' / den' ≠ 0 := by
        intro zero
        simp [zero] at less
      have first : twoTo 52 ≤ num' / den' :=
        (twoToMono (by omega)).trans (Nat.log2_self_le nonzero)
      rw [Nat.mul_comm]
      exact (Nat.le_div_iff_mul_le positive').mp first
    have full := stepBelow positive' normal
    have least := significandAtLeast positive' (Nat.mul_comm (twoTo 52) _ ▸ full)
    have steps := Nat.mul_le_mul_right (twoTo 52) less
    rw [Nat.succ_mul] at steps
    omega
  · rw [same]
    have step := twoToPos ((num' / den').log2 - 52)
    refine Nat.add_le_add_left (Rounding.halfEvenAscending (Nat.mul_pos positive step)
      (Nat.mul_pos positive' step) ?_) _
    rw [← Nat.mul_assoc, ← Nat.mul_assoc]
    exact Nat.mul_le_mul_right _ ascending

theorem nearestMagnitudeUnits (finite : x.isFinite = true) (positive : 0 < den) :
    nearestMagnitude (x.units * den) den = x.magnitude := by
  have below : x.magnitude ≤ infinityMagnitude := by
    rw [isFinite, decide_eq_true_eq] at finite
    exact finite.le
  suffices sum : (x.units.log2 - 52) * twoTo 52 +
      Rounding.halfEven (x.units * den) (den * twoTo (x.units.log2 - 52)) = x.magnitude by
    rw [nearestMagnitude, Nat.mul_div_cancel _ positive, sum, Nat.min_eq_left below]
  rw [← magnitudeSplit x]
  by_cases field : x.exponentField = 0
  · have units : x.units = x.fraction := by rw [units, if_pos field]
    have bits : x.fraction.log2 - 52 = 0 := by
      by_cases zero : x.fraction = 0
      · rw [zero, Nat.log2_zero]
      · exact Nat.sub_eq_zero_of_le ((Nat.log2_lt zero).mpr x.fractionSmall).le
    rw [units, bits, field, twoToZero, Nat.mul_one, Rounding.halfEvenMul _ positive]
  · obtain ⟨s, field⟩ := Nat.exists_eq_succ_of_ne_zero field
    have units : x.units = (twoTo 52 + x.fraction) * twoTo s := by
      rw [units, field, if_neg (Nat.succ_ne_zero _), Nat.succ_sub_one]
    have bits : x.units.log2 - 52 = s := by
      have bottom : twoTo (52 + s) ≤ x.units := by
        rw [units, twoToAdd]
        exact Nat.mul_le_mul_right _ (Nat.le_add_right _ _)
      have nonzero : x.units ≠ 0 := Nat.ne_of_gt (Nat.lt_of_lt_of_le (twoToPos _) bottom)
      have least := logAtLeast bottom
      have most := (Nat.log2_lt nonzero).mpr (unitsBelow x)
      omega
    have scaled : x.units * den = (twoTo 52 + x.fraction) * (den * twoTo s) := by
      rw [units]
      ring
    rw [bits, scaled, Rounding.halfEvenMul _ (Nat.mul_pos positive (twoToPos s)), field,
      Nat.succ_mul, Nat.add_assoc]

section Bounded
variable (finite : x.isFinite = true) (positive : 0 < den)
include finite positive

theorem roundedAtLeast (least : x.units * den ≤ num) : x.units ≤ (ofUnits negative num den).units := by
  refine unitsMono ?_
  rw [magnitudeOfUnits, ← nearestMagnitudeUnits finite positive]
  exact nearestMagnitudeMono positive positive (Nat.mul_le_mul_right _ least)

theorem roundedAtMost (most : num ≤ x.units * den) :
    (ofUnits negative num den).isFinite = true ∧ (ofUnits negative num den).units ≤ x.units := by
  have magnitude : (ofUnits negative num den).magnitude ≤ x.magnitude := by
    rw [magnitudeOfUnits, ← nearestMagnitudeUnits finite positive]
    exact nearestMagnitudeMono positive positive (Nat.mul_le_mul_right _ most)
  refine ⟨?_, unitsMono magnitude⟩
  rw [isFinite, decide_eq_true_eq] at finite ⊢
  exact magnitude.trans_lt finite

end Bounded

section Short
variable {q : ℚ}

theorem unitsOfLow (low : x.magnitude ≤ twoTo 52) : x.units = x.magnitude := by
  rcases Nat.lt_or_eq_of_le low with below | first
  · have field : x.exponentField = 0 := Nat.div_eq_of_lt below
    have fraction : x.fraction = x.magnitude := Nat.mod_eq_of_lt below
    rw [units, if_pos field, fraction]
  · have split : x.magnitude = 0 * twoTo 52 + twoTo 52 := by omega
    rw [unitsOfMagnitude split le_rfl (twoToMono (by decide)), first, twoToZero, Nat.mul_one]

theorem unitsOfShort (short : num < den * twoTo 52) :
    (ofUnits negative num den).units = Rounding.halfEven num den := by
  have quotient : num / den < twoTo 52 := Nat.div_lt_of_lt_mul short
  have unshifted : (num / den).log2 - 52 = 0 := by
    by_cases zero : num / den = 0
    · rw [zero, Nat.log2_zero]
    · exact Nat.sub_eq_zero_of_le ((Nat.log2_lt zero).mpr quotient).le
  have low : Rounding.halfEven num den ≤ twoTo 52 :=
    (Rounding.halfEvenCeil num den).trans quotient
  have representable : twoTo 52 ≤ infinityMagnitude := by decide
  have magnitude : (ofUnits negative num den).magnitude = Rounding.halfEven num den := by
    rw [magnitudeOfUnits, nearestMagnitude, unshifted, twoToZero, Nat.mul_one, Nat.zero_mul,
      Nat.zero_add, Nat.min_eq_left (low.trans representable)]
  rw [unitsOfLow (magnitude ▸ low), magnitude]

theorem offWhole (finite : (ofUnits negative num 1).isFinite = true) :
    Off 1 ((ofUnits negative num 1).units / unitsPerOne) (num / unitsPerOne) := by
  rcases Nat.lt_or_ge num (1 * twoTo 52) with short | normal
  · rw [unitsOfShort short, Rounding.halfEvenOne]
    exact (Off.self _).mono (div_nonneg (Nat.cast_nonneg _) unitsPerOneCast.le) (Nat.zero_le 1)
  · refine offNormal negative Nat.one_pos ?_ normal finite
    rw [div_mul_cancel₀ _ unitsPerOneCast.ne', Nat.cast_one, mul_one]

def halfStep : ℚ := 1 / 2 / unitsPerOne

theorem halfStepNonneg : 0 ≤ halfStep := div_nonneg (by norm_num) unitsPerOneCast.le

/-- Off by so many roundings at most, the last of which may be one to a whole number of least
steps. -/
structure Near (k : ℕ) (x q : ℚ) : Prop where
  least : (1 - slack) ^ k * q - halfStep ≤ x
  most : x ≤ (1 + slack) ^ k * q + halfStep

theorem Near.after {k : ℕ} {a b : ℚ} (near : Near 1 a b) (off : Off k b q) : Near (k + 1) a q where
  least := by
    have inner := mul_le_mul_of_nonneg_left off.least Off.lessSlack
    have least := near.least
    rw [pow_one] at least
    rw [pow_succ', mul_assoc]
    exact (sub_le_sub_right inner _).trans least
  most := by
    have inner := mul_le_mul_of_nonneg_left off.most Off.moreSlack
    have most := near.most
    rw [pow_one] at most
    rw [pow_succ', mul_assoc]
    exact most.trans (add_le_add_left inner _)

theorem nearRounded (positive : 0 < den) (nonneg : 0 ≤ q) (exact : (num : ℚ) = q * unitsPerOne * den)
    (finite : (ofUnits negative num den).isFinite = true) :
    Near 1 ((ofUnits negative num den).units / unitsPerOne) q := by
  have one := unitsPerOneCast
  have half := halfStepNonneg
  rcases Nat.lt_or_ge num (den * twoTo 52) with short | normal
  · have divisor : (0 : ℚ) < den := Nat.cast_pos.mpr positive
    have part : 0 ≤ slack * q := mul_nonneg (by norm_num [slack]) nonneg
    have above := Rounding.halfEvenAtMost num positive
    have below := Rounding.halfEvenAtLeast num positive
    rw [unitsOfShort short]
    generalize Rounding.halfEven num den = u at above below ⊢
    have above : 2 * ((u : ℚ) * den) ≤ 2 * num + den := by exact_mod_cast above
    have below : 2 * (num : ℚ) ≤ 2 * (u * den) + den := by exact_mod_cast below
    rw [exact] at above below
    have most : (u : ℚ) / unitsPerOne ≤ q + halfStep := by
      rw [halfStep, div_le_iff₀ one, add_mul, div_mul_cancel₀ _ one.ne']
      refine le_of_mul_le_mul_right ?_ divisor
      linarith
    have least : q - halfStep ≤ (u : ℚ) / unitsPerOne := by
      rw [halfStep, le_div_iff₀ one, sub_mul, div_mul_cancel₀ _ one.ne']
      refine le_of_mul_le_mul_right ?_ divisor
      linarith
    exact ⟨by linarith, by linarith⟩
  · have off := offNormal negative positive exact normal finite
    exact ⟨by linarith [off.least], by linarith [off.most]⟩

end Short

theorem wordSplit (x : Binary64) :
    x.bits.toNat = (if x.negative then twoTo 63 else 0) + x.magnitude := by
  have half : 2 ^ (64 - 1) = twoTo 63 := rfl
  have whole : twoTo 63 + twoTo 63 = 2 ^ 64 := rfl
  have word := x.bits.isLt
  rw [magnitude, negative, BitVec.msb_eq_decide, half]
  by_cases sign : twoTo 63 ≤ x.bits.toNat
  · rw [if_pos (decide_eq_true sign), Nat.mod_eq_sub_mod sign, Nat.mod_eq_of_lt (by omega)]
    omega
  · rw [if_neg (by simpa using sign), Nat.mod_eq_of_lt (by omega), Nat.zero_add]

theorem sameBits (sign : x.negative = y.negative) (magnitude : x.magnitude = y.magnitude) :
    x = y := by
  have bits : x.bits = y.bits := by
    refine BitVec.eq_of_toNat_eq ?_
    rw [wordSplit x, wordSplit y, sign, magnitude]
  cases x
  exact congrArg mk bits

theorem signedUnitsLess : x.signedUnits < y.signedUnits ↔ x.key < y.key := by
  have zero {z : Binary64} : z.units = 0 ↔ z.magnitude = 0 := by
    rw [← zeroUnits, isZero, decide_eq_true_iff]
  have above := unitsLess (x := x) (y := y)
  have below := unitsLess (x := y) (y := x)
  have left := zero (z := x)
  have right := zero (z := y)
  unfold signedUnits key
  split <;> split <;> omega

theorem lessValue (finite : x.isFinite = true) (finite' : y.isFinite = true) :
    x.less y = true ↔ x.value < y.value := by
  rw [value, value, div_lt_div_iff_of_pos_right unitsPerOneCast, Int.cast_lt, signedUnitsLess]
  simp [less, notNaN finite, notNaN finite']

end Binary64
end RuleBroker
