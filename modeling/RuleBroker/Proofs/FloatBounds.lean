import Mathlib.Tactic.ByContra
import Mathlib.Tactic.Ring
import RuleBroker.Binary64
/-! Floats that stay in range. Rounding does not carry a number over a power of two, so
that bounds in units pass through sums, products and quotients, and a bound far below
the greatest float says that the result is finite. -/
namespace RuleBroker.Binary64

theorem logAtLeast {n k : Nat} (h : twoTo k ≤ n) : k ≤ n.log2 := by
  have nonzero : n ≠ 0 := Nat.ne_of_gt (Nat.lt_of_lt_of_le (twoToPos k) h)
  exact (Nat.le_log2 nonzero).mpr h

theorem wordOfMagnitude {negative : Bool} {m : Nat} (small : m < twoTo 63) :
    (ofMagnitude negative m).bits.toNat = (if negative then twoTo 63 else 0) + m := by
  have whole : twoTo 63 + twoTo 63 = 2 ^ 64 := rfl
  simp only [ofMagnitude, BitVec.toNat_ofNat]
  refine Nat.mod_eq_of_lt ?_
  split <;> omega

theorem magnitudeOfMagnitude {negative : Bool} {m : Nat} (small : m < twoTo 63) :
    (ofMagnitude negative m).magnitude = m := by
  rw [magnitude, wordOfMagnitude small]
  split
  · rw [Nat.add_mod_left, Nat.mod_eq_of_lt small]
  · rw [Nat.zero_add, Nat.mod_eq_of_lt small]

theorem negativeOfMagnitude {negative : Bool} {m : Nat} (small : m < twoTo 63) :
    (ofMagnitude negative m).negative = negative := by
  have half : 2 ^ (64 - 1) = twoTo 63 := rfl
  rw [Binary64.negative, BitVec.msb_eq_decide, wordOfMagnitude small, half]
  cases negative with
  | true => exact decide_eq_true (Nat.le_add_right _ _)
  | false =>
    refine decide_eq_false ?_
    rw [if_neg Bool.false_ne_true, Nat.zero_add]
    omega

theorem infinityMagnitudeSmall : infinityMagnitude < twoTo 63 := by decide

section Rounded
variable {negative : Bool} {num den : Nat}

theorem nearestMagnitudeSmall : nearestMagnitude num den < twoTo 63 :=
  Nat.lt_of_le_of_lt (Nat.min_le_right _ _) infinityMagnitudeSmall

theorem magnitudeOfUnits : (ofUnits negative num den).magnitude = nearestMagnitude num den :=
  magnitudeOfMagnitude nearestMagnitudeSmall

theorem negativeOfUnits : (ofUnits negative num den).negative = negative :=
  negativeOfMagnitude nearestMagnitudeSmall

theorem numberOfUnits : (ofUnits negative num den).isNaN = false := by
  have inRange : nearestMagnitude num den ≤ infinityMagnitude := Nat.min_le_right _ _
  rw [isNaN, magnitudeOfUnits, decide_eq_false_iff_not]
  omega

end Rounded

/- The significand has 53 bits above the step between neighbours, or one more unit where
rounding fills them. -/
theorem significandAtMost {num den shift : Nat} (positive : 0 < den)
    (fits : (num / den).log2 < 53 + shift) :
    Rounding.halfEven num (den * twoTo shift) ≤ twoTo 53 := by
  have top : num / den < twoTo (53 + shift) :=
    Nat.lt_of_lt_of_le Nat.lt_log2_self (twoToMono (m := (num / den).log2 + 1) fits)
  have below : num < twoTo 53 * (den * twoTo shift) := by
    have next := Nat.lt_mul_of_div_lt top positive
    rw [twoToAdd] at next
    calc num < twoTo 53 * twoTo shift * den := next
      _ = twoTo 53 * (den * twoTo shift) := by ring
  have rounded := Rounding.halfEvenAtMost num (Nat.mul_pos positive (twoToPos shift))
  by_contra above
  have wide := Nat.mul_le_mul_right (den * twoTo shift) (Nat.lt_of_not_le above)
  rw [Nat.succ_mul] at wide
  omega

theorem significandAtLeast {num den shift : Nat} (positive : 0 < den)
    (full : twoTo 52 * (den * twoTo shift) ≤ num) :
    twoTo 52 ≤ Rounding.halfEven num (den * twoTo shift) := by
  have step := Nat.mul_pos positive (twoToPos shift)
  have rounded := Rounding.halfEvenAtLeast num step
  by_contra under
  have narrow := Nat.mul_le_mul_right (den * twoTo shift) (Nat.lt_of_not_le under)
  rw [Nat.succ_mul] at narrow
  omega

theorem nearestMagnitudeAtMost {num den s : Nat} (positive : 0 < den)
    (bound : num < den * twoTo (53 + s)) :
    nearestMagnitude num den ≤ (s + 2) * twoTo 52 := by
  have quotient : num / den < twoTo (53 + s) := Nat.div_lt_of_lt_mul bound
  have bits : (num / den).log2 < 53 + s := by
    by_cases zero : num / den = 0
    · rw [zero, Nat.log2_zero]
      omega
    · exact (Nat.log2_lt zero).mpr quotient
  have significand : Rounding.halfEven num (den * twoTo ((num / den).log2 - 52)) ≤ twoTo 53 :=
    significandAtMost positive (by omega)
  have steps : ((num / den).log2 - 52) * twoTo 52 ≤ s * twoTo 52 :=
    Nat.mul_le_mul_right _ (by omega)
  have carry : twoTo 53 = 2 * twoTo 52 := rfl
  calc nearestMagnitude num den
      ≤ ((num / den).log2 - 52) * twoTo 52 +
          Rounding.halfEven num (den * twoTo ((num / den).log2 - 52)) := Nat.min_le_left _ _
    _ ≤ s * twoTo 52 + twoTo 53 := Nat.add_le_add steps significand
    _ = (s + 2) * twoTo 52 := by rw [carry, Nat.add_mul]

theorem magnitudeSplit (x : Binary64) : x.exponentField * twoTo 52 + x.fraction = x.magnitude :=
  Nat.div_add_mod' x.magnitude (twoTo 52)

theorem fractionSmall (x : Binary64) : x.fraction < twoTo 52 := Nat.mod_lt _ (twoToPos 52)

theorem unitsAtMost {x : Binary64} {s : Nat} (bound : x.magnitude ≤ (s + 2) * twoTo 52) :
    x.units ≤ twoTo (53 + s) := by
  have split := x.magnitudeSplit
  have small := x.fractionSmall
  have carry : twoTo 53 = 2 * twoTo 52 := rfl
  unfold units
  split
  · calc x.fraction ≤ twoTo 52 := Nat.le_of_lt small
      _ ≤ twoTo (53 + s) := twoToMono (by omega)
  · have field : x.exponentField ≤ s + 2 := by
      by_contra above
      have wide := Nat.mul_le_mul_right (twoTo 52) (Nat.lt_of_not_le above)
      rw [Nat.succ_mul] at wide
      have := twoToPos 52
      omega
    rcases Nat.lt_or_eq_of_le field with less | last
    · calc (twoTo 52 + x.fraction) * twoTo (x.exponentField - 1)
          ≤ twoTo 53 * twoTo s := Nat.mul_le_mul (by omega) (twoToMono (by omega))
        _ = twoTo (53 + s) := (twoToAdd 53 s).symm
    · have whole : x.fraction = 0 := by
        rw [last] at split
        omega
      rw [whole, last]
      calc (twoTo 52 + 0) * twoTo (s + 2 - 1) = twoTo (52 + (s + 1)) := (twoToAdd 52 (s + 1)).symm
        _ ≤ twoTo (53 + s) := twoToMono (by omega)

theorem unitsAtLeast {x : Binary64} {s : Nat} (bound : (s + 1) * twoTo 52 ≤ x.magnitude) :
    twoTo (52 + s) ≤ x.units := by
  have field : s + 1 ≤ x.exponentField := (Nat.le_div_iff_mul_le (twoToPos 52)).mpr bound
  rw [units, if_neg (by omega), twoToAdd]
  exact Nat.mul_le_mul (Nat.le_add_right _ _) (twoToMono (by omega))

structure Within (s : Nat) (x : Binary64) : Prop where
  finite : x.isFinite = true
  units : x.units ≤ twoTo (53 + s)

variable {s t : Nat} {x y : Binary64} {negative : Bool}

theorem withinMono (within : x.Within s) (h : s ≤ t) : x.Within t :=
  ⟨within.finite, Nat.le_trans within.units (twoToMono (by omega))⟩

theorem withinOfUnits {num den : Nat} (positive : 0 < den) (bound : num < den * twoTo (53 + s))
    (representable : s < 2045) : (ofUnits negative num den).Within s := by
  have nearest := nearestMagnitudeAtMost positive bound
  have below : nearestMagnitude num den < infinityMagnitude :=
    Nat.lt_of_le_of_lt nearest (Nat.mul_lt_mul_of_pos_right (by omega) (twoToPos 52))
  refine ⟨?_, unitsAtMost (magnitudeOfUnits ▸ nearest)⟩
  simp only [isFinite, magnitudeOfUnits, below, decide_true]

theorem withinSignedZero : (signedZero negative).Within 0 := by
  cases negative <;> exact ⟨by decide, by decide⟩

theorem notNaN (finite : x.isFinite = true) : x.isNaN = false := by
  simp only [isFinite, isNaN, decide_eq_true_eq, decide_eq_false_iff_not] at finite ⊢
  omega

theorem notInfinite (finite : x.isFinite = true) : x.isInfinite = false := by
  simp only [isFinite, isInfinite, decide_eq_true_eq, decide_eq_false_iff_not] at finite ⊢
  omega

theorem Within.notNaN (within : x.Within s) : x.isNaN = false := Binary64.notNaN within.finite

theorem Within.notInfinite (within : x.Within s) : x.isInfinite = false :=
  Binary64.notInfinite within.finite

theorem signedUnitsNatAbs (x : Binary64) : x.signedUnits.natAbs = x.units := by
  unfold signedUnits
  split <;> simp

theorem withinAdd (left : x.Within s) (right : y.Within s) (representable : s < 2043) :
    (x.add y).Within (s + 2) := by
  simp only [add, left.notNaN, right.notNaN, left.notInfinite, right.notInfinite, Bool.or_false,
    Bool.false_eq_true, if_false]
  split
  · exact withinMono withinSignedZero (Nat.zero_le _)
  · refine withinOfUnits Nat.one_pos ?_ (by omega)
    have total := Int.natAbs_add_le x.signedUnits y.signedUnits
    rw [signedUnitsNatAbs, signedUnitsNatAbs] at total
    have room : twoTo (53 + (s + 2)) = twoTo (53 + s) * 2 * 2 := rfl
    have positive := twoToPos (53 + s)
    have left := left.units
    have right := right.units
    omega

theorem withinMul {bound : Nat} (left : x.Within s) (right : y.Within t)
    (fits : 53 + s + (53 + t) < 1074 + (53 + bound)) (representable : bound < 2045) :
    (x.mul y).Within bound := by
  simp only [mul, left.notNaN, right.notNaN, left.notInfinite, right.notInfinite, Bool.or_false,
    Bool.false_eq_true, if_false]
  refine withinOfUnits (twoToPos 1074) ?_ representable
  calc x.units * y.units ≤ twoTo (53 + s) * twoTo (53 + t) := Nat.mul_le_mul left.units right.units
    _ = twoTo (53 + s + (53 + t)) := (twoToAdd _ _).symm
    _ < twoTo (1074 + (53 + bound)) := Nat.pow_lt_pow_right (by decide) fits
    _ = unitsPerOne * twoTo (53 + bound) := twoToAdd _ _

theorem withinDiv (left : x.Within s) (divisor : unitsPerOne ≤ y.units)
    (number : y.isNaN = false) (representable : s < 2044) : (x.div y).Within (s + 1) := by
  have positive : 0 < y.units := Nat.lt_of_lt_of_le (twoToPos 1074) divisor
  have nonzero : y.isZero = false := by
    simp only [isZero, decide_eq_false_iff_not]
    intro zero
    simp [units, exponentField, fraction, zero] at positive
  simp only [div, left.notNaN, number, left.notInfinite, nonzero, Bool.or_false,
    Bool.false_eq_true, if_false]
  split
  · exact withinMono withinSignedZero (Nat.zero_le _)
  · refine withinOfUnits positive ?_ (by omega)
    calc x.units * unitsPerOne ≤ twoTo (53 + s) * y.units := Nat.mul_le_mul left.units divisor
      _ < twoTo (53 + (s + 1)) * y.units :=
        Nat.mul_lt_mul_of_pos_right (Nat.pow_lt_pow_right (by decide) (by omega)) positive
      _ = y.units * twoTo (53 + (s + 1)) := Nat.mul_comm _ _

theorem withinOfWhole {n k : Nat} (bound : n < twoTo k) (fits : 1074 + k ≤ 53 + s)
    (representable : s < 2045) : (ofRatio negative n 1).Within s := by
  refine withinOfUnits Nat.one_pos ?_ representable
  calc n * unitsPerOne < twoTo k * unitsPerOne :=
        Nat.mul_lt_mul_of_pos_right bound (twoToPos 1074)
    _ = twoTo (k + 1074) := (twoToAdd _ _).symm
    _ ≤ twoTo (53 + s) := twoToMono (by omega)
    _ = 1 * twoTo (53 + s) := (Nat.one_mul _).symm

theorem withinOfNat {n k : Nat} (bound : n < twoTo k) (fits : 1074 + k ≤ 53 + s)
    (representable : s < 2045) : (ofNat n).Within s :=
  withinOfWhole bound fits representable

theorem ofNatAtLeast {n k : Nat} (large : twoTo k ≤ n) (representable : k ≤ 1024) :
    twoTo (1074 + k) ≤ (ofNat n).units := by
  have enough : twoTo (1074 + k) ≤ n * unitsPerOne := by
    rw [Nat.add_comm, twoToAdd]
    exact Nat.mul_le_mul_right _ large
  have nonzero : n * unitsPerOne ≠ 0 := Nat.ne_of_gt (Nat.lt_of_lt_of_le (twoToPos _) enough)
  have bits : 1074 + k ≤ (n * unitsPerOne).log2 := logAtLeast enough
  have full : twoTo 52 * (1 * twoTo ((n * unitsPerOne).log2 - 52)) ≤ n * unitsPerOne := by
    rw [Nat.one_mul, ← twoToAdd, Nat.add_sub_of_le (by omega)]
    exact Nat.log2_self_le nonzero
  have significand := significandAtLeast Nat.one_pos full
  have steps : (1022 + k) * twoTo 52 ≤ ((n * unitsPerOne).log2 - 52) * twoTo 52 :=
    Nat.mul_le_mul_right _ (by omega)
  have magnitude : (1022 + k + 1) * twoTo 52 ≤ (ofNat n).magnitude := by
    rw [ofNat, ofRatio, magnitudeOfUnits, nearestMagnitude, Nat.div_one]
    refine Nat.le_min.mpr ⟨?_, Nat.mul_le_mul_right _ (by omega)⟩
    rw [Nat.add_mul, Nat.one_mul]
    exact Nat.add_le_add steps significand
  have exponent : 52 + (1022 + k) = 1074 + k := by omega
  exact exponent ▸ unitsAtLeast magnitude

theorem ofNatAtLeastOne {n : Nat} (positive : 0 < n) :
    unitsPerOne ≤ (ofNat n).units ∧ (ofNat n).isNaN = false :=
  ⟨ofNatAtLeast (k := 0) positive (Nat.zero_le _), numberOfUnits⟩

end RuleBroker.Binary64
