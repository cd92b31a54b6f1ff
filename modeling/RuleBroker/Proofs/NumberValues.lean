import RuleBroker.Function
import RuleBroker.Proofs.DecimalValue
import RuleBroker.Proofs.FloatValue
/-! Decimals as the floats of values. A float is a few roundings off from its decimal, so
that decimals of few digits stay apart and those that fall together were near. -/
namespace RuleBroker
open Binary64 (Off Unsigned Moderate slack offNat offAdd offMul offDiv natExact)

namespace Decimal

def unsignedFloat (d : Decimal) : Binary64 :=
  let unit := tenTo d.scale
  let whole := Binary64.ofNat (d.magnitude / unit)
  let part := (Binary64.ofNat (d.magnitude % unit)).div (Binary64.ofNat unit)
  if part.isZero then whole
  else ((whole.add part).mul (Binary64.ofNat unit)).roundAway.div (Binary64.ofNat unit)

theorem toBinary64Sign (d : Decimal) :
    d.toBinary64 = if d.negative then d.unsignedFloat.neg else d.unsignedFloat := rfl

section Rounded
variable {n unit : Nat}

structure Places (unit : Nat) : Prop where
  positive : 0 < unit
  most : unit ≤ 2 ^ 94

theorem placesOf (d : Decimal) : Places (tenTo d.scale) where
  positive := tenToPos _
  most := by
    have most : tenTo d.scale ≤ tenTo 28 := Nat.pow_le_pow_right (by decide) d.scale_le
    exact most.trans (by decide)

theorem offPlaces (places : Places unit) : Unsigned (Binary64.ofNat unit) ∧
    Off 1 (Binary64.ofNat unit).value unit ∧ 0 < (Binary64.ofNat unit).value := by
  obtain ⟨unsigned, off⟩ := offNat places.most (by norm_num)
  exact ⟨unsigned, off, off.positive (Nat.cast_pos.mpr places.positive)⟩

theorem quotientModerate (places : Places unit) {a : Nat} (most : a ≤ 2 ^ 96) :
    (a : ℚ) / (Binary64.ofNat unit).value = 0 ∨
      Moderate 98 ((a : ℚ) / (Binary64.ofNat unit).value) := by
  obtain ⟨_, off, divides⟩ := offPlaces places
  rcases Nat.eq_zero_or_pos a with rfl | positive
  · exact .inl (by simp)
  · have unitPositive : (0 : ℚ) < unit := Nat.cast_pos.mpr places.positive
    have quotient : Moderate 97 ((a : ℚ) / unit) := by
      have one : (1 : ℚ) ≤ a := by exact_mod_cast positive
      have first : (1 : ℚ) ≤ unit := by exact_mod_cast places.positive
      have most : (a : ℚ) ≤ 2 ^ 96 := by exact_mod_cast most
      have last : (unit : ℚ) ≤ 2 ^ 94 := by exact_mod_cast places.most
      constructor
      · rw [div_le_div_iff₀ (by positivity) unitPositive]
        linarith
      · rw [div_le_iff₀ unitPositive]
        nlinarith
    exact (off.divisor unitPositive (Nat.cast_nonneg a)).moderate (by norm_num) (.inr quotient)

theorem productOff {k : ℕ} (places : Places unit) (most : n ≤ 2 ^ 96) (few : k ≤ 2)
    (whole : Off k (Binary64.ofNat (n / unit)).value
      ((n / unit : ℕ) * unit / (Binary64.ofNat unit).value))
    (part : Off k (Binary64.ofNat (n % unit)).value (n % unit : ℕ)) :
    let product := ((Binary64.ofNat (n / unit)).add
      ((Binary64.ofNat (n % unit)).div (Binary64.ofNat unit))).mul (Binary64.ofNat unit)
    Unsigned product ∧ Off (k + 3) product.value n := by
  obtain ⟨unsignedUnit, offUnit, divides⟩ := offPlaces places
  have wholeMost : n / unit ≤ 2 ^ 96 := (Nat.div_le_self _ _).trans most
  have partMost : n % unit ≤ 2 ^ 96 := (Nat.mod_le _ _).trans most
  have unsignedWhole := (offNat wholeMost (by norm_num)).1
  have unsignedPart := (offNat partMost (by norm_num)).1
  have partDivided := part.divided divides.le
  obtain ⟨unsignedRest, rest⟩ := offDiv unsignedPart unsignedUnit divides
    (partDivided.moderate (by omega) (quotientModerate places partMost)) (by norm_num)
  have rest : Off (k + 1) _ _ := rest.trans partDivided
  have sum := (whole.mono (by positivity) (Nat.le_succ k)).add rest
  have split : ((n / unit : ℕ) * unit / (Binary64.ofNat unit).value +
      (n % unit : ℕ) / (Binary64.ofNat unit).value : ℚ) = n / (Binary64.ofNat unit).value := by
    rw [← add_div]
    congr 1
    exact_mod_cast Nat.div_add_mod' n unit
  rw [split] at sum
  obtain ⟨unsignedSum, rounded⟩ := offAdd unsignedWhole unsignedRest
    (sum.moderate (by omega) (quotientModerate places most)) (by norm_num)
  have scaled := (rounded.trans sum).scale divides.le
  rw [div_mul_cancel₀ _ divides.ne'] at scaled
  obtain ⟨unsigned, product⟩ := offMul unsignedSum unsignedUnit
    (scaled.moderate (by omega) (Binary64.natModerate most)) (by norm_num)
  exact ⟨unsigned, product.trans scaled⟩

theorem wholeOff (places : Places unit) (most : n ≤ 2 ^ 96) :
    Off 2 (Binary64.ofNat (n / unit)).value
      ((n / unit : ℕ) * unit / (Binary64.ofNat unit).value) := by
  obtain ⟨_, offUnit, divides⟩ := offPlaces places
  have own := (offNat ((Nat.div_le_self n unit).trans most) (by norm_num)).2
  have places := offUnit.scale (c := (n / unit : ℕ) / (Binary64.ofNat unit).value) (by positivity)
  rw [mul_div_cancel₀ _ divides.ne', mul_div_assoc', mul_comm (unit : ℚ)] at places
  exact own.trans places

theorem wholeExact (small : n < tenTo 15) : (Binary64.ofNat (n / unit)).value =
    (n / unit : ℕ) * unit / (Binary64.ofNat unit).value := by
  have bits : tenTo 15 < twoTo 53 := by decide
  rw [natExact (((Nat.div_le_self n unit).trans_lt small).trans bits)]
  rcases Nat.lt_or_ge n unit with below | above
  · simp [Nat.div_eq_of_lt below]
  · rw [natExact ((above.trans_lt small).trans bits)]
    rcases Nat.eq_zero_or_pos unit with rfl | positive
    · simp
    · rw [mul_div_cancel_right₀ _ (Nat.cast_pos.mpr positive).ne']

theorem nearestOff {m : ℕ} {x : ℚ} (large : tenTo 15 ≤ n) (off : Off 5 x n)
    (above : (m : ℚ) ≤ x + 1 / 2) (below : x ≤ m + 1 / 2) : Off 10 m n := by
  have digits : (10 : ℚ) ^ 15 ≤ n := by exact_mod_cast large
  have part : (1 : ℚ) / 2 ≤ n * (1 / (2 * 10 ^ 15)) := by
    rw [mul_one_div, div_le_div_iff₀ (by norm_num) (by norm_num)]
    linarith
  have nonneg : (0 : ℚ) ≤ n := Nat.cast_nonneg n
  constructor
  · have room : (1 - slack) ^ 10 ≤ (1 - slack) ^ 5 - 1 / (2 * 10 ^ 15) := by norm_num [slack]
    have scaled := mul_le_mul_of_nonneg_right room nonneg
    have := off.least
    linarith
  · have room : (1 + slack) ^ 5 + 1 / (2 * 10 ^ 15) ≤ (1 + slack) ^ 10 := by norm_num [slack]
    have scaled := mul_le_mul_of_nonneg_right room nonneg
    have := off.most
    linarith

theorem nearestExact {m : ℕ} {x : ℚ} (small : n < tenTo 15) (off : Off 3 x n)
    (above : (m : ℚ) ≤ x + 1 / 2) (below : x ≤ m + 1 / 2) : m = n := by
  have digits : (n : ℚ) ≤ 10 ^ 15 := by exact_mod_cast small.le
  have distance : |x - n| ≤ 4 / 2 ^ 53 * n :=
    off.distance (Nat.cast_nonneg n) (by norm_num [slack]) (by norm_num [slack])
  have close : |x - n| < 1 / 2 := by
    refine distance.trans_lt ?_
    calc (4 : ℚ) / 2 ^ 53 * n ≤ 4 / 2 ^ 53 * 10 ^ 15 := mul_le_mul_of_nonneg_left digits (by norm_num)
      _ < 1 / 2 := by norm_num
  obtain ⟨least, most⟩ := abs_lt.mp close
  have up : (m : ℚ) < n + 1 := by linarith
  have down : (n : ℚ) < m + 1 := by linarith
  have up : m < n + 1 := by exact_mod_cast up
  have down : n < m + 1 := by exact_mod_cast down
  omega

theorem quotientOff {m k : ℕ} (places : Places unit) (bound : m ≤ 2 ^ 97)
    (off : Off k (Binary64.ofNat m).value n) (few : k ≤ 11) (most : n ≤ 2 ^ 96) :
    let result := (Binary64.ofNat m).div (Binary64.ofNat unit)
    Unsigned result ∧ Off (k + 3) result.value (n / unit) := by
  obtain ⟨unsignedUnit, offUnit, divides⟩ := offPlaces places
  have divided := off.divided divides.le
  obtain ⟨unsigned, rounded⟩ := offDiv (offNat bound (by norm_num)).1 unsignedUnit divides
    (divided.moderate (by omega) (quotientModerate places most)) (by norm_num)
  have unitOff := offUnit.divisor (Nat.cast_pos.mpr places.positive) (Nat.cast_nonneg n)
  refine ⟨unsigned, ?_⟩
  have all := (rounded.trans divided).trans unitOff
  rwa [show 2 + (k + 1) = k + 3 by omega] at all

theorem noPart (places : Places unit) (most : n ≤ 2 ^ 96)
    (zero : ((Binary64.ofNat (n % unit)).div (Binary64.ofNat unit)).isZero = true) :
    n % unit = 0 := by
  obtain ⟨unsignedUnit, _, divides⟩ := offPlaces places
  have partMost : n % unit ≤ 2 ^ 96 := (Nat.mod_le _ _).trans most
  obtain ⟨unsignedPart, offPart⟩ := offNat partMost (by norm_num)
  have divided := offPart.divided divides.le
  obtain ⟨unsigned, rounded⟩ := offDiv unsignedPart unsignedUnit divides
    (divided.moderate (by norm_num) (quotientModerate places partMost)) (by norm_num)
  have vanishes := unsigned.zero.mp zero
  by_contra left
  have positive : (0 : ℚ) < (n % unit : ℕ) := Nat.cast_pos.mpr (Nat.pos_of_ne_zero left)
  have := (rounded.trans divided).positive (div_pos positive divides)
  exact this.ne' vanishes

end Rounded

section Float
variable {d e : Decimal}

theorem magnitudeMost (d : Decimal) : d.magnitude ≤ 2 ^ 96 := d.magnitude_le.trans (by decide)

theorem wholeValue (whole : d.magnitude % tenTo d.scale = 0) :
    ((d.magnitude / tenTo d.scale : ℕ) : ℚ) = d.magnitude / tenTo d.scale := by
  rw [eq_div_iff (tenToCast _)]
  exact_mod_cast Nat.div_mul_cancel (Nat.dvd_of_mod_eq_zero whole)

theorem unsignedFloatOff {k l : ℕ} (few : k ≤ 2) (few' : l ≤ 11)
    (whole : Off k (Binary64.ofNat (d.magnitude / tenTo d.scale)).value
      ((d.magnitude / tenTo d.scale : ℕ) * (tenTo d.scale : ℕ) /
        (Binary64.ofNat (tenTo d.scale)).value))
    (part : Off k (Binary64.ofNat (d.magnitude % tenTo d.scale)).value
      (d.magnitude % tenTo d.scale : ℕ))
    (settled : ∀ (m : ℕ) (x : ℚ), Off (k + 3) x d.magnitude → (m : ℚ) ≤ x + 1 / 2 →
      x ≤ m + 1 / 2 → m ≤ 2 ^ 97 ∧ Off l (Binary64.ofNat m).value d.magnitude) :
    Unsigned d.unsignedFloat ∧ Off (l + 3) d.unsignedFloat.value (d.magnitude / tenTo d.scale) := by
  have places := placesOf d
  have most := magnitudeMost d
  simp only [unsignedFloat]
  split
  · next zero =>
    obtain ⟨unsigned, off⟩ := offNat ((Nat.div_le_self _ (tenTo d.scale)).trans most) (by norm_num)
    rw [wholeValue (noPart places most zero)] at off
    exact ⟨unsigned, off.mono (by positivity) (by omega)⟩
  · obtain ⟨unsigned, off⟩ := productOff places most few whole part
    obtain ⟨m, nearest, above, below⟩ := Binary64.nearestWhole unsigned
    obtain ⟨bound, exact⟩ := settled m _ off above below
    rw [nearest]
    exact quotientOff places bound exact few' most

theorem unsignedFloatNear (small : d.magnitude < tenTo 15) : Unsigned d.unsignedFloat ∧
    Off 3 d.unsignedFloat.value (d.magnitude / tenTo d.scale) := by
  have bits : tenTo 15 < twoTo 53 := by decide
  refine unsignedFloatOff (k := 0) (l := 0) (by norm_num) (by norm_num) ?_ ?_ ?_
  · rw [wholeExact small]
    exact .self _
  · rw [natExact (((Nat.mod_le _ _).trans_lt small).trans bits)]
    exact .self _
  · intro m x off above below
    rw [nearestExact small off above below, natExact (small.trans bits)]
    exact ⟨(magnitudeMost d).trans (by norm_num), .self _⟩

theorem unsignedFloatFar (large : tenTo 15 ≤ d.magnitude) : Unsigned d.unsignedFloat ∧
    Off 14 d.unsignedFloat.value (d.magnitude / tenTo d.scale) := by
  have most := magnitudeMost d
  refine unsignedFloatOff (k := 2) (l := 11) (by norm_num) (by norm_num)
    (wholeOff (placesOf d) most) ?_ ?_
  · exact (offNat ((Nat.mod_le _ _).trans most) (by norm_num)).2.mono (Nat.cast_nonneg _) (by norm_num)
  · intro m x off above below
    have near := nearestOff large off above below
    have bound : m ≤ 2 ^ 97 := by
      have double : (1 + slack) ^ 10 ≤ 2 := by norm_num [slack]
      have magnitude : (d.magnitude : ℚ) ≤ 2 ^ 96 := by exact_mod_cast most
      have wide := near.most.trans (mul_le_mul double magnitude (Nat.cast_nonneg _) (by norm_num))
      rw [← pow_succ'] at wide
      exact_mod_cast wide
    exact ⟨bound, (offNat bound (by norm_num)).2.trans near⟩

theorem valueSign (d : Decimal) : d.value =
    if d.negative then -((d.magnitude : ℚ) / tenTo d.scale) else d.magnitude / tenTo d.scale := by
  rw [value, coefficient, signedCoefficient]
  cases d.negative <;> simp [neg_div]

theorem valueSize (d : Decimal) : |d.value| = d.magnitude / tenTo d.scale := by
  have nonneg : (0 : ℚ) ≤ d.magnitude / tenTo d.scale := by positivity
  rw [valueSign]
  cases d.negative <;> simp [abs_of_nonneg nonneg]

theorem distanceSign {part : ℚ} (unsigned : Unsigned d.unsignedFloat)
    (near : |d.unsignedFloat.value - d.magnitude / tenTo d.scale| ≤
      part * (d.magnitude / tenTo d.scale)) :
    d.toBinary64.isFinite = true ∧ |d.toBinary64.value - d.value| ≤ part * |d.value| := by
  rw [valueSize, toBinary64Sign, valueSign]
  by_cases negative : d.negative = true
  · rw [if_pos negative, if_pos negative, Binary64.finiteNeg, Binary64.valueNeg, neg_sub_neg,
      abs_sub_comm]
    exact ⟨unsigned.finite, near⟩
  · rw [if_neg negative, if_neg negative]
    exact ⟨unsigned.finite, near⟩

theorem toBinary64Near (d : Decimal) : d.toBinary64.isFinite = true ∧
    |d.toBinary64.value - d.value| ≤ 1 / 2 ^ 49 * |d.value| := by
  have nonneg : (0 : ℚ) ≤ d.magnitude / tenTo d.scale := by positivity
  have off : Unsigned d.unsignedFloat ∧
      Off 14 d.unsignedFloat.value (d.magnitude / tenTo d.scale) := by
    rcases Nat.lt_or_ge d.magnitude (tenTo 15) with small | large
    · obtain ⟨unsigned, off⟩ := unsignedFloatNear small
      exact ⟨unsigned, off.mono nonneg (by norm_num)⟩
    · exact unsignedFloatFar large
  exact distanceSign off.1 (off.2.distance nonneg (by norm_num [slack]) (by norm_num [slack]))

theorem toBinary64Nearer (small : d.magnitude < tenTo 15) :
    |d.toBinary64.value - d.value| ≤ 1 / 2 ^ 51 * |d.value| := by
  obtain ⟨unsigned, off⟩ := unsignedFloatNear small
  exact (distanceSign unsigned
    (off.distance (by positivity) (by norm_num [slack]) (by norm_num [slack]))).2

theorem mergedNear {part : ℚ} (left : |d.toBinary64.value - d.value| ≤ part * |d.value|)
    (right : |e.toBinary64.value - e.value| ≤ part * |e.value|)
    (same : d.toBinary64.same e.toBinary64 = true) :
    |d.value - e.value| ≤ part * (|d.value| + |e.value|) := by
  have through := abs_sub_le d.value d.toBinary64.value e.value
  rw [abs_sub_comm d.value d.toBinary64.value] at through
  rw [← Binary64.valueSame same] at right
  linarith

theorem differPlace (differ : ¬ Equal d e) (fewer : e.scale ≤ d.scale) :
    1 ≤ |d.value - e.value| * tenTo d.scale := by
  have whole : (d.value - e.value) * tenTo d.scale =
      ((d.coefficient - e.coefficient * tenTo (d.scale - e.scale) : Int) : ℚ) := by
    have split : (tenTo d.scale : ℚ) = tenTo (d.scale - e.scale) * tenTo e.scale := by
      rw [← Nat.cast_mul, ← tenToAdd, Nat.sub_add_cancel fewer]
    have here := tenToCast d.scale
    have there := tenToCast e.scale
    rw [value, value, sub_mul, div_mul_cancel₀ _ here, split]
    push_cast
    field_simp
  have nonzero : d.coefficient - e.coefficient * tenTo (d.scale - e.scale) ≠ 0 := by
    intro zero
    rw [zero, Int.cast_zero, mul_eq_zero, sub_eq_zero, or_iff_left (tenToCast _)] at whole
    exact differ (valueEqual.mp whole)
  calc (1 : ℚ) ≤ |((d.coefficient - e.coefficient * tenTo (d.scale - e.scale) : Int) : ℚ)| := by
        exact_mod_cast Int.one_le_abs nonzero
    _ = |d.value - e.value| * tenTo d.scale := by
        rw [← whole, abs_mul, Nat.abs_cast]

theorem differPart (small : d.magnitude < tenTo 15) (differ : ¬ Equal d e)
    (fewer : e.scale ≤ d.scale) : |d.value| ≤ 10 ^ 15 * |d.value - e.value| := by
  have place := differPlace differ fewer
  have positive : (0 : ℚ) < tenTo d.scale := Nat.cast_pos.mpr (tenToPos _)
  have digits : (d.magnitude : ℚ) ≤ 10 ^ 15 := by exact_mod_cast small.le
  have size : |d.value| * tenTo d.scale = d.magnitude := by
    rw [valueSize, div_mul_cancel₀ _ positive.ne']
  refine le_of_mul_le_mul_right ?_ positive
  rw [size, mul_assoc]
  linarith

theorem fewDigitsApart (small : d.magnitude < tenTo 15) (small' : e.magnitude < tenTo 15)
    (differ : ¬ Equal d e) : d.toBinary64.same e.toBinary64 = false := by
  by_contra same
  have near := mergedNear (toBinary64Nearer small) (toBinary64Nearer small')
    (Bool.not_eq_false _ ▸ same)
  have differ' : ¬ Equal e d := fun same => differ same.symm
  have triangle := abs_sub_abs_le_abs_sub d.value e.value
  have triangle' := abs_sub_abs_le_abs_sub e.value d.value
  have symm := abs_sub_comm d.value e.value
  have apart : 0 < |d.value - e.value| :=
    abs_pos.mpr (sub_ne_zero.mpr fun same => differ (valueEqual.mp same))
  rcases Nat.le_total e.scale d.scale with fewer | fewer
  · have part := differPart small differ fewer
    linarith
  · have part := differPart small' differ' fewer
    linarith

end Float
end Decimal

namespace FunctionValue

/-- A number always becomes a float, near the number, and never its text. Numbers that become
the same are near each other, and those of up to fifteen digits do not become the same. -/
theorem numbersMergeOnlyNearby (d e : Decimal) :
    (number d).toValue = .float d.toBinary64 ∧
    |d.toBinary64.value - d.value| ≤ 1 / 2 ^ 49 * |d.value| ∧
    ((number d).toValue.same (number e).toValue = true →
      |d.value - e.value| ≤ 1 / 2 ^ 49 * (|d.value| + |e.value|)) ∧
    (d.magnitude < tenTo 15 → e.magnitude < tenTo 15 → ¬ Decimal.Equal d e →
      (number d).toValue.same (number e).toValue = false) := by
  obtain ⟨finite, near⟩ := Decimal.toBinary64Near d
  obtain ⟨finite', near'⟩ := Decimal.toBinary64Near e
  have float : (number d).toValue = .float d.toBinary64 := if_pos finite
  have float' : (number e).toValue = .float e.toBinary64 := if_pos finite'
  rw [float, float', Value.same]
  exact ⟨rfl, near, Decimal.mergedNear near near', Decimal.fewDigitsApart⟩

theorem greatestNeighboursApart :
    let d : Decimal := ⟨false, 999999999999999, 3, by decide, by decide⟩
    let e : Decimal := ⟨false, 999999999999998, 3, by decide, by decide⟩
    d.magnitude < tenTo 15 ∧ e.magnitude < tenTo 15 ∧ ¬ Decimal.Equal d e ∧
      (number d).toValue.same (number e).toValue = false := by
  intro d e
  have small : d.magnitude < tenTo 15 := by decide
  have small' : e.magnitude < tenTo 15 := by decide
  have differ : ¬ Decimal.Equal d e := by decide
  exact ⟨small, small', differ, (numbersMergeOnlyNearby d e).2.2.2 small small' differ⟩

theorem neighboursOfSixteenDigitsMerge :
    let d : Decimal := ⟨false, 9007199254740993, 0, by decide, by decide⟩
    let e : Decimal := ⟨false, 9007199254740992, 0, by decide, by decide⟩
    ¬ Decimal.Equal d e ∧ (number d).toValue.same (number e).toValue = true := by
  decide +kernel

end FunctionValue
end RuleBroker
