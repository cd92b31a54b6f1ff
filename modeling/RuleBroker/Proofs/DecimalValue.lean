import Mathlib.Algebra.Order.Field.Rat
import Mathlib.Data.Rat.Lemmas
import Mathlib.Tactic.FieldSimp
import Mathlib.Tactic.Ring
import RuleBroker.Decimal
/-! Decimals as the numbers they stand for. A sum, a difference and a quotient are the exact
number rounded once, so what they stand for does not depend on how their operands are
written. -/
namespace RuleBroker

namespace Rounding

theorem halfEvenScaled (num den : Nat) {c : Nat} (positive : 0 < c) :
    halfEven (num * c) (den * c) = halfEven num den := by
  have double (n : Nat) : 2 * (n * c) = 2 * n * c := by ring
  simp only [halfEven, Nat.mul_div_mul_right _ _ positive, Nat.mul_mod_mul_right, double,
    Nat.mul_lt_mul_right positive]

theorem halfEvenCross {num den num' den' : Nat} (positive : 0 < den) (positive' : 0 < den')
    (same : num * den' = num' * den) : halfEven num den = halfEven num' den' := by
  rw [← halfEvenScaled num den positive', same, Nat.mul_comm den, halfEvenScaled _ _ positive]

end Rounding

namespace Decimal

def value (d : Decimal) : ℚ := d.coefficient / tenTo d.scale

/-- The decimal nearest to a number, half to even, at the largest scale at which there is one. -/
def rounded (q : ℚ) : Option Decimal := fit (q < 0) q.num.natAbs q.den greatestScale

theorem tenToCast (n : Nat) : (tenTo n : ℚ) ≠ 0 := Nat.cast_ne_zero.mpr (tenToPos n).ne'

theorem valueEqual {x y : Decimal} : x.value = y.value ↔ Equal x y := by
  rw [value, value, div_eq_div_iff (tenToCast _) (tenToCast _), Equal]
  exact_mod_cast Iff.rfl

theorem valueZero {d : Decimal} (zero : d.isZero = true) : d.value = 0 := by
  have coefficient : d.coefficient = 0 := by
    rw [← Int.natAbs_eq_zero, natAbsCoefficient]
    simpa [isZero] using zero
  simp [value, coefficient]

@[simp]
theorem zeroValue : Decimal.zero.value = 0 := valueZero rfl

theorem valueNeg (d : Decimal) : d.neg.value = -d.value := by
  have opposite : d.neg.coefficient = -d.coefficient := by
    cases sign : d.negative <;> simp [coefficient, neg, signedCoefficient, sign]
  rw [value, opposite, Int.cast_neg, neg_div]
  rfl

theorem signedTimes (negative : Bool) (m n : Nat) :
    signedCoefficient negative (m * n) = signedCoefficient negative m * n := by
  cases negative <;> simp [signedCoefficient]

theorem valueOfSome {c : Int} {scale : Nat} {d : Decimal} (found : of? c scale = some d) :
    d.value = (c : ℚ) / tenTo scale := by
  unfold of? ofParts? at found
  split at found
  · cases found
    rw [value, coefficient, signedOfNatAbs]
  · contradiction

theorem valueOf {c : Int} {scale : Nat} (fits : c.natAbs ≤ greatestCoefficient)
    (scaled : scale ≤ greatestScale) :
    (of? c scale).map value = some ((c : ℚ) / tenTo scale) := by
  simp [of?, ofParts?, fits, scaled, value, coefficient, signedOfNatAbs]

section Fit
open Rounding

variable {negative : Bool} {num den num' den' scale : Nat}

theorem fitHere (fits : halfEven (num * tenTo scale) den ≤ greatestCoefficient) :
    fit negative num den scale =
      of? (signedCoefficient negative (halfEven (num * tenTo scale) den)) scale := by
  cases scale with
  | zero => rw [fit, tenToZero, Nat.mul_one]
  | succ scale => rw [fit, if_pos fits]

theorem fitBelow (large : ¬halfEven (num * tenTo (scale + 1)) den ≤ greatestCoefficient) :
    fit negative num den (scale + 1) = fit negative num den scale := by
  rw [fit, if_neg large]

theorem fitCross (positive : 0 < den) (positive' : 0 < den')
    (same : num * den' = num' * den) :
    fit negative num den scale = fit negative num' den' scale := by
  have alike (scale : Nat) :
      halfEven (num * tenTo scale) den = halfEven (num' * tenTo scale) den' := by
    refine halfEvenCross positive positive' ?_
    rw [Nat.mul_right_comm, same, Nat.mul_right_comm]
  induction scale with
  | zero => rw [fit, fit, halfEvenCross positive positive' same]
  | succ scale ih => rw [fit, fit, alike, ih]

theorem fitRaise (positive : 0 < den) (whole : den ∣ num * tenTo scale)
    (scaled : scale + 1 ≤ greatestScale) :
    (fit negative num den (scale + 1)).map value = (fit negative num den scale).map value := by
  obtain ⟨c, exact⟩ := whole
  have here : halfEven (num * tenTo scale) den = c := by
    rw [exact, Nat.mul_comm, halfEvenMul c positive]
  have next : halfEven (num * tenTo (scale + 1)) den = c * 10 := by
    rw [tenToSucc, ← Nat.mul_assoc, exact, Nat.mul_assoc, Nat.mul_comm, halfEvenMul _ positive]
  by_cases fits : c * 10 ≤ greatestCoefficient
  · have fitsHere : c ≤ greatestCoefficient := by omega
    rw [fitHere (next ▸ fits), fitHere (here ▸ fitsHere), here, next,
      valueOf (by rwa [natAbsSignedCoefficient]) scaled,
      valueOf (by rwa [natAbsSignedCoefficient]) (Nat.le_of_succ_le scaled), signedTimes, tenToSucc]
    push_cast
    rw [mul_div_mul_right _ _ (by norm_num)]
  · rw [fitBelow (next ▸ fits)]

theorem fitGreatest (positive : 0 < den) (whole : den ∣ num * tenTo scale)
    (scaled : scale ≤ greatestScale) : (fit negative num den greatestScale).map value =
      (fit negative num den scale).map value := by
  have raised (more : Nat) (scaled : scale + more ≤ greatestScale) :
      (fit negative num den (scale + more)).map value =
        (fit negative num den scale).map value := by
    induction more with
    | zero => rfl
    | succ more ih =>
      have wholeAbove : den ∣ num * tenTo (scale + more) := by
        rw [tenToAdd, ← Nat.mul_assoc]
        exact Nat.dvd_mul_right_of_dvd whole _
      exact (fitRaise positive wholeAbove scaled).trans (ih (Nat.le_of_succ_le scaled))
  obtain ⟨more, same⟩ := Nat.exists_eq_add_of_le scaled
  rw [same]
  exact raised more (Nat.le_of_eq same.symm)

theorem fitRounded (z : Int) (positive : 0 < den) :
    fit (z < 0) z.natAbs den greatestScale = rounded (z / den) := by
  have nonzero : (den : ℚ) ≠ 0 := Nat.cast_ne_zero.mpr positive.ne'
  have cross : ((z : ℚ) / den).num * den = z * ((z : ℚ) / den).den := by
    have := Rat.num_div_den ((z : ℚ) / den)
    rw [div_eq_div_iff (Nat.cast_ne_zero.mpr (Rat.den_nz _)) nonzero] at this
    exact_mod_cast this
  have sign : (z : ℚ) / den < 0 ↔ z < 0 := by
    rw [div_lt_iff₀ (Nat.cast_pos.mpr positive), zero_mul, Int.cast_lt_zero]
  rw [rounded, decide_eq_decide.mpr sign]
  refine fitCross positive (Rat.den_pos _) ?_
  have sizes := congrArg Int.natAbs cross
  rw [Int.natAbs_mul, Int.natAbs_mul, Int.natAbs_natCast, Int.natAbs_natCast] at sizes
  exact sizes.symm

end Fit

theorem roundedValue (d : Decimal) : (rounded d.value).map value = some d.value := by
  have whole : tenTo d.scale ∣ d.coefficient.natAbs * tenTo d.scale := Nat.dvd_mul_left _ _
  have exact : Rounding.halfEven (d.coefficient.natAbs * tenTo d.scale) (tenTo d.scale) =
      d.magnitude := by
    rw [Rounding.halfEvenMul _ (tenToPos _), natAbsCoefficient]
  rw [value, ← fitRounded _ (tenToPos _), fitGreatest (tenToPos _) whole d.scale_le,
    fitHere (exact ▸ d.magnitude_le), exact, ← natAbsCoefficient, signedOfNatAbs]
  exact valueOf (natAbsCoefficient d ▸ d.magnitude_le) d.scale_le

theorem valueAt (d : Decimal) {scale : Nat} (scaled : d.scale ≤ scale) :
    d.value = (d.coefficient * tenTo (scale - d.scale) : ℚ) / tenTo scale := by
  have whole : tenTo scale = tenTo d.scale * tenTo (scale - d.scale) := by
    rw [← tenToAdd, Nat.add_sub_cancel' scaled]
  rw [whole, Nat.cast_mul, mul_div_mul_right _ _ (tenToCast _), value]

theorem valueAligned (x y : Decimal) :
    x.value + y.value = (alignedSum x y : ℚ) / tenTo (max x.scale y.scale) := by
  rw [valueAt x (Nat.le_max_left _ _), valueAt y (Nat.le_max_right _ _), ← add_div, alignedSum]
  push_cast
  rfl

theorem addValue (x y : Decimal) :
    (x.add y).map value = (rounded (x.value + y.value)).map value := by
  unfold add
  split
  · next zero => rw [valueZero zero, zero_add, roundedValue, Option.map_some]
  · split
    · next zero => rw [valueZero zero, add_zero, roundedValue, Option.map_some]
    · have whole : tenTo (max x.scale y.scale) ∣
          (alignedSum x y).natAbs * tenTo (max x.scale y.scale) := Nat.dvd_mul_left _ _
      rw [valueAligned, ← fitRounded _ (tenToPos _)]
      exact (fitGreatest (tenToPos _) whole (Nat.max_le.mpr ⟨x.scale_le, y.scale_le⟩)).symm

theorem subValue (x y : Decimal) :
    (x.sub y).map value = (rounded (x.value - y.value)).map value := by
  rw [sub, addValue, valueNeg, sub_eq_add_neg]

theorem valueNormalize (d : Decimal) : d.normalize.value = d.value :=
  valueEqual.mpr d.normalizeEqual

theorem valueWithZero (d : Decimal) : d.withZero.value = d.value := by
  unfold withZero
  cases found : of? (d.coefficient * 10) (d.scale + 1) with
  | none => rfl
  | some e =>
    rw [Option.getD_some, valueOfSome found, tenToSucc, value]
    push_cast
    rw [mul_div_mul_right _ _ (by norm_num)]

theorem valueShedZeros (scale : Nat) (d : Decimal) : (shedZeros scale d).value = d.value := by
  unfold shedZeros
  dsimp only
  split
  · rw [valueWithZero, valueNormalize]
  · exact valueNormalize d

theorem negativeCoefficient {d : Decimal} (nonzero : d.coefficient ≠ 0) :
    decide (d.coefficient < 0) = d.negative := by
  cases sign : d.negative <;> simp_all [coefficient, signedCoefficient]
  omega

theorem divNatValue (d : Decimal) {k : Nat} (positive : 0 < k) :
    (d.divNat k).map value = (rounded (d.value / k)).map value := by
  have nonzero : (k : ℚ) ≠ 0 := Nat.cast_ne_zero.mpr positive.ne'
  rw [divNat, if_neg positive.ne']
  split
  · next whole =>
    obtain ⟨c, exact⟩ := Int.dvd_of_emod_eq_zero whole
    have quotient : d.coefficient / k = c := by
      rw [exact, Int.mul_ediv_cancel_left _ (Int.natCast_ne_zero.mpr positive.ne')]
    have fits : c.natAbs ≤ greatestCoefficient := by
      refine Nat.le_trans ?_ (natAbsCoefficient d ▸ d.magnitude_le)
      rw [exact, Int.natAbs_mul]
      exact Nat.le_mul_of_pos_left _ positive
    have same : d.value / k = (c : ℚ) / tenTo d.scale := by
      rw [value, exact]
      push_cast
      field_simp
    obtain ⟨e, found, stands⟩ := Option.map_eq_some_iff.mp (valueOf fits d.scale_le)
    rw [quotient, same, found, ← stands, roundedValue, Option.map_some]
  · next broken =>
    have nonzero : d.coefficient ≠ 0 := fun zero => broken (by simp [zero])
    have same : d.value / k = (d.coefficient : ℚ) / (k * tenTo d.scale : Nat) := by
      rw [value]
      push_cast
      field_simp
    rw [same, ← fitRounded _ (Nat.mul_pos positive (tenToPos _)), negativeCoefficient nonzero,
      natAbsCoefficient, Option.map_map]
    exact congrArg (Option.map · _) (funext fun quotient => valueShedZeros d.scale quotient)

end Decimal
end RuleBroker
