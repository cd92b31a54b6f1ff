import Mathlib.Algebra.Order.Field.Rat
import Mathlib.Tactic.FieldSimp
import Mathlib.Tactic.Linarith
import Mathlib.Tactic.NormNum
import Mathlib.Tactic.Positivity
import RuleBroker.Proofs.FloatBounds
/-! The numbers that floats stand for, and how far one rounding takes them from the exact
number. The distances of several roundings are kept as a number of roundings. -/
namespace RuleBroker.Binary64

def value (x : Binary64) : ℚ := x.signedUnits / unitsPerOne

theorem unitsPerOnePos : 0 < unitsPerOne := twoToPos 1074

section Value
variable {x : Binary64}

theorem unitsAlike {x y : Binary64} (same : x.magnitude = y.magnitude) : x.units = y.units := by
  unfold Binary64.units exponentField fraction
  rw [same]

theorem zeroUnits : x.isZero = true ↔ x.units = 0 := by
  have split := x.magnitudeSplit
  rw [isZero, decide_eq_true_iff]
  constructor
  · intro zero
    simp [units, exponentField, fraction, zero]
  · intro vanish
    unfold units at vanish
    split at vanish
    · next field => rw [← split, field, vanish, Nat.zero_mul]
    · rw [Nat.mul_eq_zero, Nat.add_eq_zero_iff] at vanish
      have := twoToPos 52
      have := twoToPos (x.exponentField - 1)
      omega

theorem magnitudeSmall (x : Binary64) : x.magnitude < twoTo 63 := Nat.mod_lt _ (twoToPos 63)

theorem magnitudeNeg (x : Binary64) : x.neg.magnitude = x.magnitude :=
  magnitudeOfMagnitude x.magnitudeSmall

theorem valueNeg (x : Binary64) : x.neg.value = -x.value := by
  have units : x.neg.units = x.units := unitsAlike (magnitudeNeg x)
  have sign : x.neg.negative = !x.negative := negativeOfMagnitude x.magnitudeSmall
  have signed : x.neg.signedUnits = -x.signedUnits := by
    rw [signedUnits, signedUnits, units, sign]
    cases x.negative <;> simp
  rw [value, value, signed, Int.cast_neg, neg_div]

theorem finiteNeg (x : Binary64) : x.neg.isFinite = x.isFinite := by
  rw [isFinite, isFinite, magnitudeNeg]

theorem valueSame {y : Binary64} (same : x.same y = true) : x.value = y.value := by
  have key : x.key = y.key := by
    simp only [Binary64.same, Bool.and_eq_true, decide_eq_true_eq] at same
    exact same.2
  have magnitude : x.magnitude = y.magnitude := by
    have absolute := congrArg Int.natAbs key
    unfold Binary64.key at absolute
    split at absolute <;> split at absolute <;> simpa using absolute
  have units : x.units = y.units := unitsAlike magnitude
  suffices signed : x.signedUnits = y.signedUnits by rw [value, value, signed]
  rw [signedUnits, signedUnits, units]
  by_cases alike : x.negative = y.negative
  · rw [alike]
  · have bare : x.magnitude = 0 := by
      unfold Binary64.key at key
      rw [magnitude] at key ⊢
      cases left : x.negative <;> cases right : y.negative <;> simp_all
    have zero : y.units = 0 := by
      rw [← units]
      exact zeroUnits.mp (by rw [isZero, bare, decide_eq_true rfl])
    simp [zero]

end Value

theorem unitsOfMagnitude {x : Binary64} {shift significand : Nat}
    (magnitude : x.magnitude = shift * twoTo 52 + significand)
    (least : twoTo 52 ≤ significand) (most : significand ≤ twoTo 53) :
    x.units = significand * twoTo shift := by
  have carry : twoTo 53 = 2 * twoTo 52 := rfl
  have positive := twoToPos 52
  rcases Nat.lt_or_eq_of_le most with below | full
  · have field : x.exponentField = shift + 1 := by
      rw [exponentField, magnitude]
      refine Nat.div_eq_of_lt_le ?_ ?_
      · rw [Nat.succ_mul]
        omega
      · rw [Nat.succ_mul, Nat.succ_mul]
        omega
    have rest : x.fraction = significand - twoTo 52 := by
      have split := x.magnitudeSplit
      rw [field, magnitude, Nat.succ_mul] at split
      omega
    rw [units, field, if_neg (Nat.succ_ne_zero _), rest, Nat.add_sub_of_le least,
      Nat.add_sub_cancel]
  · have whole : x.magnitude = (shift + 2) * twoTo 52 := by
      rw [magnitude, full, carry, Nat.add_mul]
    have field : x.exponentField = shift + 2 := by
      rw [exponentField, whole, Nat.mul_div_cancel _ positive]
    have rest : x.fraction = 0 := by rw [fraction, whole, Nat.mul_mod_left]
    rw [units, field, if_neg (Nat.succ_ne_zero _), rest, full, carry, Nat.add_zero,
      Nat.mul_comm 2, Nat.mul_assoc, Nat.add_sub_assoc (by decide), Nat.mul_comm 2, ← twoToSucc]

section Rounded
variable (negative : Bool) {num den : Nat}

theorem stepBelow (positive : 0 < den) (normal : den * twoTo 52 ≤ num) :
    den * twoTo ((num / den).log2 - 52) * twoTo 52 ≤ num := by
  have quotient : twoTo 52 ≤ num / den :=
    (Nat.le_div_iff_mul_le positive).mpr (Nat.mul_comm den _ ▸ normal)
  have nonzero : num / den ≠ 0 := Nat.ne_of_gt (Nat.lt_of_lt_of_le (twoToPos 52) quotient)
  have first : twoTo ((num / den).log2 - 52 + 52) ≤ num / den := by
    rw [Nat.sub_add_cancel (logAtLeast quotient)]
    exact Nat.log2_self_le nonzero
  calc den * twoTo ((num / den).log2 - 52) * twoTo 52
      = den * twoTo ((num / den).log2 - 52 + 52) := by rw [twoToAdd, Nat.mul_assoc]
    _ ≤ den * (num / den) := Nat.mul_le_mul_left _ first
    _ ≤ num := Nat.mul_div_le num den

theorem unitsOfUnits (positive : 0 < den) (normal : den * twoTo 52 ≤ num)
    (finite : (ofUnits negative num den).isFinite = true) :
    ∃ shift, den * twoTo shift * twoTo 52 ≤ num ∧
      (ofUnits negative num den).units = Rounding.halfEven num (den * twoTo shift) * twoTo shift := by
  let shift := (num / den).log2 - 52
  have full : den * twoTo shift * twoTo 52 ≤ num := stepBelow positive normal
  have least := significandAtLeast positive (Nat.mul_comm (twoTo 52) _ ▸ full)
  have most : Rounding.halfEven num (den * twoTo shift) ≤ twoTo 53 :=
    significandAtMost positive (by omega)
  have magnitude : (ofUnits negative num den).magnitude =
      shift * twoTo 52 + Rounding.halfEven num (den * twoTo shift) := by
    rw [isFinite, magnitudeOfUnits, decide_eq_true_eq] at finite
    rw [magnitudeOfUnits]
    refine Nat.min_eq_left (Nat.le_of_not_le fun above => ?_)
    exact absurd (Nat.min_eq_right above) finite.ne
  exact ⟨shift, full, unitsOfMagnitude magnitude least most⟩

theorem roundedOnce (positive : 0 < den) (normal : den * twoTo 52 ≤ num)
    (finite : (ofUnits negative num den).isFinite = true) :
    twoTo 53 * ((ofUnits negative num den).units * den) ≤ twoTo 53 * num + num ∧
      twoTo 53 * num ≤ twoTo 53 * ((ofUnits negative num den).units * den) + num := by
  obtain ⟨shift, full, units⟩ := unitsOfUnits negative positive normal finite
  have step := Nat.mul_pos positive (twoToPos shift)
  have above := Rounding.halfEvenAtMost num step
  have below := Rounding.halfEvenAtLeast num step
  have carry : twoTo 53 = 2 * twoTo 52 := rfl
  have scaled : (ofUnits negative num den).units * den =
      Rounding.halfEven num (den * twoTo shift) * (den * twoTo shift) := by
    rw [units]
    ring
  rw [scaled, carry]
  generalize Rounding.halfEven num (den * twoTo shift) * (den * twoTo shift) = near at *
  generalize den * twoTo shift = step at *
  constructor
  · have wide := Nat.mul_le_mul_right (twoTo 52) above
    ring_nf at wide full ⊢
    omega
  · have wide := Nat.mul_le_mul_right (twoTo 52) below
    ring_nf at wide full ⊢
    omega

theorem unitsOfZero (positive : 0 < den) : (ofUnits negative 0 den).magnitude = 0 := by
  have rounds : Rounding.halfEven 0 (den * twoTo (0 - 52)) = 0 := by
    have whole := Rounding.halfEvenMul 0 (Nat.mul_pos positive (twoToPos (0 - 52)))
    rwa [Nat.zero_mul] at whole
  rw [magnitudeOfUnits, nearestMagnitude, Nat.zero_div, Nat.log2_zero, rounds]
  rfl

end Rounded

def slack : ℚ := 1 / 2 ^ 53

/-- Off from a number by so many roundings at most. -/
structure Off (k : ℕ) (x q : ℚ) : Prop where
  least : (1 - slack) ^ k * q ≤ x
  most : x ≤ (1 + slack) ^ k * q

namespace Off
variable {k l : ℕ} {x y q r c : ℚ}

theorem lessSlack : 0 ≤ 1 - slack := by norm_num [slack]
theorem moreSlack : 0 ≤ 1 + slack := by norm_num [slack]

theorem self (q : ℚ) : Off 0 q q := ⟨by simp, by simp⟩

theorem zero (k : ℕ) : Off k 0 0 := ⟨by simp, by simp⟩

theorem mono (off : Off k x q) (nonneg : 0 ≤ q) (h : k ≤ l) : Off l x q where
  least := (mul_le_mul_of_nonneg_right
    (pow_le_pow_of_le_one lessSlack (by norm_num [slack]) h) nonneg).trans off.least
  most := off.most.trans (mul_le_mul_of_nonneg_right
    (pow_le_pow_right₀ (by norm_num [slack]) h) nonneg)

theorem trans (first : Off k x y) (second : Off l y q) : Off (l + k) x q where
  least := by
    have inner := mul_le_mul_of_nonneg_left second.least (pow_nonneg lessSlack k)
    rw [add_comm l k, pow_add, mul_assoc]
    exact inner.trans first.least
  most := by
    have inner := mul_le_mul_of_nonneg_left second.most (pow_nonneg moreSlack k)
    rw [add_comm l k, pow_add, mul_assoc]
    exact first.most.trans inner

theorem add (left : Off k x q) (right : Off k y r) : Off k (x + y) (q + r) where
  least := by rw [mul_add]; exact add_le_add left.least right.least
  most := by rw [mul_add]; exact add_le_add left.most right.most

theorem scale (off : Off k x q) (nonneg : 0 ≤ c) : Off k (x * c) (q * c) where
  least := by rw [← mul_assoc]; exact mul_le_mul_of_nonneg_right off.least nonneg
  most := by rw [← mul_assoc]; exact mul_le_mul_of_nonneg_right off.most nonneg

theorem divided (off : Off k x q) (nonneg : 0 ≤ c) : Off k (x / c) (q / c) := by
  rw [div_eq_mul_inv, div_eq_mul_inv]
  exact off.scale (inv_nonneg.mpr nonneg)

theorem positive (off : Off k x q) (positive : 0 < q) : 0 < x :=
  lt_of_lt_of_le (mul_pos (pow_pos (by norm_num [slack]) k) positive) off.least

theorem divisor (off : Off 1 y r) (positive : 0 < r) (nonneg : 0 ≤ q) : Off 2 (q / y) (q / r) := by
  have divides : 0 < y := off.positive positive
  obtain ⟨least, most⟩ := off
  rw [pow_one] at least most
  constructor
  · rw [mul_div_assoc', div_le_div_iff₀ positive divides]
    have shrunk : (1 - slack) ^ 2 * y ≤ r := by
      calc (1 - slack) ^ 2 * y ≤ (1 - slack) ^ 2 * ((1 + slack) * r) :=
            mul_le_mul_of_nonneg_left most (pow_nonneg lessSlack 2)
        _ = ((1 - slack) ^ 2 * (1 + slack)) * r := by ring
        _ ≤ 1 * r := mul_le_mul_of_nonneg_right (by norm_num [slack]) positive.le
        _ = r := one_mul r
    calc (1 - slack) ^ 2 * q * y = q * ((1 - slack) ^ 2 * y) := by ring
      _ ≤ q * r := mul_le_mul_of_nonneg_left shrunk nonneg
  · rw [mul_div_assoc', div_le_div_iff₀ divides positive]
    have grown : r ≤ (1 + slack) ^ 2 * y := by
      calc r = 1 * r := (one_mul r).symm
        _ ≤ ((1 + slack) ^ 2 * (1 - slack)) * r :=
            mul_le_mul_of_nonneg_right (by norm_num [slack]) positive.le
        _ = (1 + slack) ^ 2 * ((1 - slack) * r) := by ring
        _ ≤ (1 + slack) ^ 2 * y := mul_le_mul_of_nonneg_left least (pow_nonneg moreSlack 2)
    calc q * r ≤ q * ((1 + slack) ^ 2 * y) := mul_le_mul_of_nonneg_left grown nonneg
      _ = (1 + slack) ^ 2 * q * y := by ring

theorem distance {e : ℚ} (off : Off k x q) (nonneg : 0 ≤ q) (below : 1 - e ≤ (1 - slack) ^ k)
    (above : (1 + slack) ^ k ≤ 1 + e) : |x - q| ≤ e * q := by
  have least := (mul_le_mul_of_nonneg_right below nonneg).trans off.least
  have most := off.most.trans (mul_le_mul_of_nonneg_right above nonneg)
  rw [abs_le]
  constructor <;> linarith

end Off

structure Moderate (m : ℕ) (q : ℚ) : Prop where
  least : 1 / 2 ^ m ≤ q
  most : q ≤ 2 ^ m

theorem Off.moderate {k m : ℕ} {a q : ℚ} (off : Off k a q) (few : k ≤ 20)
    (moderate : q = 0 ∨ Moderate m q) : a = 0 ∨ Moderate (m + 1) a := by
  rcases moderate with rfl | moderate
  · obtain ⟨least, most⟩ := off
    rw [mul_zero] at least most
    exact .inl (le_antisymm most least)
  have nonneg : 0 ≤ q := le_trans (by positivity) moderate.least
  have wide := off.mono nonneg few
  have half : (1 / 2 : ℚ) ≤ (1 - slack) ^ 20 := by norm_num [slack]
  have double : (1 + slack) ^ 20 ≤ 2 := by norm_num [slack]
  refine .inr ⟨?_, ?_⟩
  · calc (1 : ℚ) / 2 ^ (m + 1) = 1 / 2 * (1 / 2 ^ m) := by rw [pow_succ]; field_simp
      _ ≤ (1 - slack) ^ 20 * q :=
        mul_le_mul half moderate.least (by positivity) (pow_nonneg Off.lessSlack 20)
      _ ≤ a := wide.least
  · calc a ≤ (1 + slack) ^ 20 * q := wide.most
      _ ≤ 2 * 2 ^ m := mul_le_mul double moderate.most nonneg (by norm_num)
      _ = 2 ^ (m + 1) := by rw [pow_succ, mul_comm]

section Operations
variable {x y : Binary64} {num den m n : Nat} {q : ℚ}

theorem unitsPerOneCast : (0 : ℚ) < unitsPerOne := Nat.cast_pos.mpr unitsPerOnePos

theorem twoToCast (n : Nat) : (twoTo n : ℚ) = 2 ^ n := by
  rw [twoTo, Nat.pow_eq, Nat.cast_pow, Nat.cast_ofNat]

theorem moderateUnits (moderate : Moderate m q) (room : m ≤ 900) :
    (twoTo 52 : ℚ) ≤ q * unitsPerOne ∧ q * unitsPerOne < twoTo (53 + 2000) := by
  have wide : (2 : ℚ) ^ m ≤ 2 ^ 900 := pow_le_pow_right₀ (by norm_num) room
  have one : (unitsPerOne : ℚ) = 2 ^ 174 * 2 ^ 900 := by
    rw [unitsPerOne, twoToCast, ← pow_add]
  rw [one, twoToCast, twoToCast]
  have least : 1 / 2 ^ 900 ≤ q := (one_div_le_one_div_of_le (by positivity) wide).trans moderate.least
  have most : q ≤ 2 ^ 900 := moderate.most.trans wide
  constructor
  · calc (2 : ℚ) ^ 52 ≤ 2 ^ 174 := pow_le_pow_right₀ (by norm_num) (by norm_num)
      _ = 1 / 2 ^ 900 * (2 ^ 174 * 2 ^ 900) := by
          rw [mul_comm, mul_assoc, mul_one_div_cancel (by positivity), mul_one]
      _ ≤ q * (2 ^ 174 * 2 ^ 900) := mul_le_mul_of_nonneg_right least (by positivity)
  · calc q * (2 ^ 174 * 2 ^ 900) ≤ 2 ^ 900 * (2 ^ 174 * 2 ^ 900) :=
          mul_le_mul_of_nonneg_right most (by positivity)
      _ = 2 ^ 1974 := by rw [← pow_add, ← pow_add]
      _ < 2 ^ (53 + 2000) := pow_lt_pow_right₀ (by norm_num) (by norm_num)

theorem offNormal (negative : Bool) (positive : 0 < den)
    (exact : (num : ℚ) = q * unitsPerOne * den) (normal : den * twoTo 52 ≤ num)
    (finite : (ofUnits negative num den).isFinite = true) :
    Off 1 ((ofUnits negative num den).units / unitsPerOne) q := by
  have one := unitsPerOneCast
  have divisor : (0 : ℚ) < den := Nat.cast_pos.mpr positive
  obtain ⟨above, below⟩ := roundedOnce negative positive normal finite
  generalize (ofUnits negative num den).units = u at above below ⊢
  have above : (twoTo 53 : ℚ) * (u * den) ≤ twoTo 53 * num + num := by exact_mod_cast above
  have below : (twoTo 53 : ℚ) * num ≤ twoTo 53 * (u * den) + num := by exact_mod_cast below
  rw [exact, twoToCast] at above below
  constructor
  · rw [pow_one, le_div_iff₀ one]
    refine le_of_mul_le_mul_right ?_ divisor
    rw [slack]
    linarith
  · rw [pow_one, div_le_iff₀ one]
    refine le_of_mul_le_mul_right ?_ divisor
    rw [slack]
    linarith

theorem offRounded (negative : Bool) (positive : 0 < den) (exact : (num : ℚ) = q * unitsPerOne * den)
    (moderate : q = 0 ∨ Moderate m q) (room : m ≤ 900) :
    (ofUnits negative num den).isFinite = true ∧
      Off 1 ((ofUnits negative num den).units / unitsPerOne) q := by
  have divisor : (0 : ℚ) < den := Nat.cast_pos.mpr positive
  rcases moderate with rfl | moderate
  · rw [zero_mul, zero_mul, Nat.cast_eq_zero] at exact
    subst exact
    have bare := unitsOfZero negative positive
    have units : (ofUnits negative 0 den).units = 0 :=
      zeroUnits.mp (by rw [isZero, bare, decide_eq_true rfl])
    refine ⟨?_, ?_⟩
    · rw [isFinite, bare]
      decide
    · rw [units, Nat.cast_zero, zero_div]
      exact .zero 1
  · obtain ⟨least, most⟩ := moderateUnits moderate room
    have normal : den * twoTo 52 ≤ num := by
      have wide := mul_le_mul_of_nonneg_right least divisor.le
      rw [← exact, mul_comm] at wide
      exact_mod_cast wide
    have bound : num < den * twoTo (53 + 2000) := by
      have wide := mul_lt_mul_of_pos_right most divisor
      rw [← exact, mul_comm (twoTo (53 + 2000) : ℚ)] at wide
      exact_mod_cast wide
    have finite : (ofUnits negative num den).isFinite = true :=
      (withinOfUnits positive bound (by norm_num)).finite
    exact ⟨finite, offNormal negative positive exact normal finite⟩

structure Unsigned (x : Binary64) : Prop where
  sign : x.negative = false
  finite : x.isFinite = true

structure Nonnegative (x : Binary64) : Prop where
  finite : x.isFinite = true
  nonneg : 0 ≤ x.value

instance (x : Binary64) : Decidable (Nonnegative x) :=
  decidable_of_iff (x.isFinite = true ∧ 0 ≤ x.value)
    ⟨fun both => ⟨both.1, both.2⟩, fun each => ⟨each.finite, each.nonneg⟩⟩

theorem Nonnegative.signedUnits (nonnegative : Nonnegative x) : x.signedUnits = x.units := by
  have nonneg : 0 ≤ x.signedUnits := by
    have numerator := mul_nonneg nonnegative.nonneg unitsPerOneCast.le
    rw [value, div_mul_cancel₀ _ unitsPerOneCast.ne'] at numerator
    exact_mod_cast numerator
  rw [← signedUnitsNatAbs, Int.natAbs_of_nonneg nonneg]

theorem Nonnegative.units (nonnegative : Nonnegative x) : x.value = x.units / unitsPerOne := by
  rw [value, nonnegative.signedUnits]
  rfl

theorem Unsigned.nonneg (unsigned : Unsigned x) : 0 ≤ x.value := by
  rw [value, signedUnits, unsigned.sign]
  exact div_nonneg (Nat.cast_nonneg _) unitsPerOneCast.le

theorem Unsigned.nonnegative (unsigned : Unsigned x) : Nonnegative x :=
  ⟨unsigned.finite, unsigned.nonneg⟩

theorem Unsigned.units (unsigned : Unsigned x) : x.value = x.units / unitsPerOne :=
  unsigned.nonnegative.units

theorem Unsigned.zero (unsigned : Unsigned x) : x.isZero = true ↔ x.value = 0 := by
  rw [zeroUnits, unsigned.units, div_eq_zero_iff, or_iff_left unitsPerOneCast.ne', Nat.cast_eq_zero]

theorem unsignedRounded (positive : 0 < den) (exact : (num : ℚ) = q * unitsPerOne * den)
    (moderate : q = 0 ∨ Moderate m q) (room : m ≤ 900) :
    Unsigned (ofUnits false num den) ∧ Off 1 (ofUnits false num den).value q := by
  obtain ⟨finite, off⟩ := offRounded false positive exact moderate room
  have unsigned : Unsigned (ofUnits false num den) := ⟨negativeOfUnits, finite⟩
  exact ⟨unsigned, unsigned.units ▸ off⟩

theorem natModerate (bound : n ≤ 2 ^ m) : (n : ℚ) = 0 ∨ Moderate m n := by
  rcases Nat.eq_zero_or_pos n with rfl | positive
  · exact .inl Nat.cast_zero
  · refine .inr ⟨?_, by exact_mod_cast bound⟩
    have one : (1 : ℚ) ≤ n := by exact_mod_cast positive
    exact (div_le_one_of_le₀ (one_le_pow₀ (by norm_num)) (by positivity)).trans one

theorem offNat (bound : n ≤ 2 ^ m) (room : m ≤ 900) :
    Unsigned (ofNat n) ∧ Off 1 (ofNat n).value n :=
  unsignedRounded Nat.one_pos (by push_cast; ring) (natModerate bound) room

theorem natExact (small : n < twoTo 53) : (ofNat n).value = n := by
  have unsigned := (offNat (m := 53) (Nat.le_of_lt small) (by norm_num)).1
  rw [unsigned.units, div_eq_iff unitsPerOneCast.ne']
  rcases Nat.eq_zero_or_pos n with rfl | positive
  · have zero : (ofNat 0).units = 0 := by decide +kernel
    rw [zero, Nat.cast_zero, zero_mul]
  · have normal : 1 * twoTo 52 ≤ n * unitsPerOne :=
      Nat.mul_le_mul positive (twoToMono (by norm_num))
    have bound : n * unitsPerOne < 1 * twoTo (53 + 1074) := by
      rw [Nat.one_mul, twoToAdd, ← unitsPerOne]
      exact Nat.mul_lt_mul_of_pos_right small unitsPerOnePos
    obtain ⟨shift, full, units⟩ :=
      unitsOfUnits false Nat.one_pos normal (withinOfUnits Nat.one_pos bound (by norm_num)).finite
    have shifted : shift ≤ 1074 := by
      by_contra above
      have wide : twoTo (53 + 1074) ≤ twoTo (shift + 52) := twoToMono (by omega)
      rw [twoToAdd shift] at wide
      rw [Nat.one_mul] at full bound
      exact absurd (wide.trans full) (Nat.not_le.mpr bound)
    have whole : n * unitsPerOne = n * twoTo (1074 - shift) * twoTo shift := by
      rw [Nat.mul_assoc, ← twoToAdd, Nat.sub_add_cancel shifted, unitsPerOne]
    have kept : (ofNat n).units = n * unitsPerOne := by
      rw [ofNat, ofRatio, units, Nat.one_mul, whole, Rounding.halfEvenMul _ (twoToPos shift)]
    rw [kept, Nat.cast_mul]

/- No sum of numbers not below zero is a zero with a sign, the first of them having none. -/
theorem addUnits (left : Unsigned x) (right : Nonnegative y) :
    x.add y = ofUnits false (x.units + y.units) 1 := by
  have sum : x.signedUnits + y.signedUnits = ((x.units + y.units : ℕ) : Int) := by
    rw [left.nonnegative.signedUnits, right.signedUnits, Nat.cast_add]
  simp only [add, notNaN left.finite, notNaN right.finite, notInfinite left.finite,
    notInfinite right.finite, Bool.or_false, Bool.false_eq_true, if_false, sum]
  split
  · next zero =>
    rw [Nat.cast_eq_zero.mp zero, left.sign, Bool.false_and]
    decide +kernel
  · have sign : decide (((x.units + y.units : ℕ) : Int) < 0) = false := by
      rw [decide_eq_false_iff_not]
      omega
    rw [sign, Int.natAbs_natCast]

theorem divUnits (left : Unsigned x) (right : Unsigned y) (divides : 0 < y.units) :
    x.div y = ofUnits false (x.units * unitsPerOne) y.units := by
  have number : y.isZero = false := by
    rw [Bool.eq_false_iff, ne_eq, zeroUnits]
    exact divides.ne'
  simp only [div, notNaN left.finite, notNaN right.finite, notInfinite left.finite,
    notInfinite right.finite, Bool.or_false, Bool.false_eq_true, if_false, left.sign, right.sign,
    bne_self_eq_false, number]

theorem offAdd (left : Unsigned x) (right : Unsigned y)
    (moderate : x.value + y.value = 0 ∨ Moderate m (x.value + y.value)) (room : m ≤ 900) :
    Unsigned (x.add y) ∧ Off 1 (x.add y).value (x.value + y.value) := by
  have one := unitsPerOneCast
  rw [addUnits left right.nonnegative]
  refine unsignedRounded Nat.one_pos ?_ moderate room
  rw [left.units, right.units, ← add_div, Nat.cast_one, mul_one, div_mul_cancel₀ _ one.ne']
  push_cast
  rfl

theorem offMul (left : Unsigned x) (right : Unsigned y)
    (moderate : x.value * y.value = 0 ∨ Moderate m (x.value * y.value)) (room : m ≤ 900) :
    Unsigned (x.mul y) ∧ Off 1 (x.mul y).value (x.value * y.value) := by
  have one := unitsPerOneCast
  simp only [mul, notNaN left.finite, notNaN right.finite, notInfinite left.finite,
    notInfinite right.finite, Bool.or_false, Bool.false_eq_true, if_false, left.sign, right.sign,
    bne_self_eq_false]
  refine unsignedRounded unitsPerOnePos ?_ moderate room
  rw [left.units, right.units]
  push_cast
  field_simp

theorem offDiv (left : Unsigned x) (right : Unsigned y) (divides : 0 < y.value)
    (moderate : x.value / y.value = 0 ∨ Moderate m (x.value / y.value)) (room : m ≤ 900) :
    Unsigned (x.div y) ∧ Off 1 (x.div y).value (x.value / y.value) := by
  have one := unitsPerOneCast
  have positive : 0 < y.units := by
    rw [right.units, div_pos_iff_of_pos_right one] at divides
    exact_mod_cast divides
  rw [divUnits left right positive]
  refine unsignedRounded positive ?_ moderate room
  have nonzero : (y.units : ℚ) ≠ 0 := by exact_mod_cast positive.ne'
  rw [left.units, right.units]
  push_cast
  field_simp

theorem nearestWhole (unsigned : Unsigned x) : ∃ n : ℕ, x.roundAway = ofNat n ∧
    (n : ℚ) ≤ x.value + 1 / 2 ∧ x.value ≤ n + 1 / 2 := by
  have one := unitsPerOneCast
  refine ⟨Rounding.halfUp x.units unitsPerOne, ?_, ?_, ?_⟩
  · rw [roundAway, unsigned.finite, unsigned.sign]
    rfl
  all_goals
    rw [unsigned.units]
    generalize unitsPerOne = unit at one ⊢
  · have below := Rounding.halfUpAtMost x.units unit
    have below : 2 * ((Rounding.halfUp x.units unit : ℚ) * unit) ≤ 2 * x.units + unit := by
      exact_mod_cast below
    rw [div_add_div _ _ one.ne' (by norm_num), le_div_iff₀ (by positivity)]
    linarith
  · have above := Rounding.halfUpAtLeast x.units (Nat.cast_pos.mp one)
    have above : 2 * (x.units : ℚ) ≤ 2 * ((Rounding.halfUp x.units unit : ℚ) * unit) + unit := by
      exact_mod_cast above
    rw [div_le_iff₀ one]
    linarith

end Operations
end RuleBroker.Binary64
