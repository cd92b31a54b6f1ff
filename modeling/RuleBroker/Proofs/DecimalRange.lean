import Mathlib.Algebra.Order.Field.Basic
import RuleBroker.Proofs.DecimalValue
/-! The range of decimals. A number has a decimal exactly if it does not exceed the greatest
coefficient when it is rounded to a whole number. So a sum and a difference fail by the size of
the exact result alone, and a quotient by a whole number never does. -/
namespace RuleBroker

namespace Decimal
open Rounding

def Beyond (q : ℚ) : Prop := greatestCoefficient < halfEven q.num.natAbs q.den

instance (q : ℚ) : Decidable (Beyond q) := by unfold Beyond; infer_instance

variable {scale : Nat} {q q' : ℚ} {x y sum : Decimal}

theorem crossMultiplied (le : |q| ≤ |q'|) : q.num.natAbs * q'.den ≤ q'.num.natAbs * q.den := by
  have positive (r : ℚ) : (0 : ℚ) < r.den := Nat.cast_pos.mpr r.den_pos
  simp only [Rat.abs_def, Rat.divInt_eq_div, Int.cast_natCast] at le
  rw [div_le_div_iff₀ (positive q) (positive q')] at le
  exact_mod_cast le

theorem beyondMono (le : |q| ≤ |q'|) (beyond : Beyond q) : Beyond q' :=
  Nat.lt_of_lt_of_le beyond (halfEvenAscending q.den_pos q'.den_pos (crossMultiplied le))

theorem ofSome {c : Int} (fits : c.natAbs ≤ greatestCoefficient) (scaled : scale ≤ greatestScale) :
    ∃ d, of? c scale = some d := by
  obtain ⟨d, found, _⟩ := Option.map_eq_some_iff.mp (valueOf fits scaled)
  exact ⟨d, found⟩

theorem fitSome {negative : Bool} {num den : Nat}
    (whole : halfEven num den ≤ greatestCoefficient) (scaled : scale ≤ greatestScale) :
    ∃ d, fit negative num den scale = some d := by
  induction scale with
  | zero => exact ofSome (by rwa [natAbsSignedCoefficient]) scaled
  | succ scale ih =>
    unfold fit
    dsimp only
    split
    · next fits => exact ofSome (by rwa [natAbsSignedCoefficient]) scaled
    · exact ih (Nat.le_of_succ_le scaled)

theorem fitNone {negative : Bool} {num den : Nat} (positive : 0 < den)
    (large : greatestCoefficient < halfEven num den) (scale : Nat) :
    fit negative num den scale = none := by
  induction scale with
  | zero =>
    have room : ¬((signedCoefficient negative (halfEven num den)).natAbs ≤ greatestCoefficient ∧
        0 ≤ greatestScale) := by
      rw [natAbsSignedCoefficient]
      omega
    exact dif_neg room
  | succ scale ih =>
    have larger := halfEvenAscending positive positive
      (Nat.mul_le_mul_right den (Nat.le_mul_of_pos_right num (tenToPos (scale + 1))))
    rw [fitBelow (by omega), ih]

theorem roundedNone : rounded q = none ↔ Beyond q := by
  constructor
  · intro unrounded
    by_contra within
    obtain ⟨d, found⟩ : ∃ d, rounded q = some d :=
      fitSome (Nat.le_of_not_lt within) (Nat.le_refl greatestScale)
    rw [found] at unrounded
    cases unrounded
  · intro large
    exact fitNone q.den_pos large greatestScale

theorem roundedUnits {z : Int} (fits : z.natAbs ≤ greatestCoefficient)
    (scaled : scale ≤ greatestScale) :
    (rounded (z / tenTo scale)).map value = some ((z : ℚ) / tenTo scale) := by
  obtain ⟨d, _, stands⟩ := Option.map_eq_some_iff.mp (valueOf fits scaled)
  rw [← stands, roundedValue]

theorem withinRange (d : Decimal) : ¬Beyond d.value := by
  rw [← roundedNone]
  intro unrounded
  have exact := roundedValue d
  rw [unrounded] at exact
  cases exact

theorem addNone (x y : Decimal) : x.add y = none ↔ Beyond (x.value + y.value) := by
  rw [← roundedNone, ← Option.map_eq_none_iff, addValue, Option.map_eq_none_iff]

theorem subNone (x y : Decimal) : x.sub y = none ↔ Beyond (x.value - y.value) := by
  rw [← roundedNone, ← Option.map_eq_none_iff, subValue, Option.map_eq_none_iff]

theorem roundedWhole {z : Int} (within : ¬Beyond z) : (rounded z).map value = some (z : ℚ) := by
  have fits : z.natAbs ≤ greatestCoefficient := by
    rw [Beyond, Rat.num_intCast, Rat.den_intCast, halfEvenOne] at within
    exact Nat.le_of_not_lt within
  have exact := roundedUnits fits (Nat.zero_le greatestScale)
  rw [tenToZero, Nat.cast_one, div_one] at exact
  exact exact

theorem addWhole {z : Int} (whole : x.value + y.value = z) (added : x.add y = some sum) :
    sum.value = z := by
  have within : ¬Beyond z := by
    rw [← whole, ← addNone, added]
    nofun
  have exact := addValue x y
  rw [added, whole, roundedWhole within] at exact
  exact Option.some.inj exact

theorem subWhole {z : Int} (whole : x.value - y.value = z) (taken : x.sub y = some sum) :
    sum.value = z := by
  refine addWhole (y := y.neg) ?_ taken
  rw [valueNeg, ← sub_eq_add_neg, whole]

theorem divNatSome (d : Decimal) {k : Nat} (positive : 0 < k) : ∃ q, d.divNat k = some q := by
  have room := d.magnitude_le
  unfold divNat
  rw [if_neg positive.ne']
  split
  · refine ofSome ?_ d.scale_le
    have sizes := Int.natAbs_ediv_le_natAbs d.coefficient k
    rw [natAbsCoefficient] at sizes
    omega
  · have unit : 0 < k * tenTo d.scale := Nat.mul_pos positive (tenToPos _)
    have whole : halfEven d.magnitude (k * tenTo d.scale) ≤ greatestCoefficient :=
      calc halfEven d.magnitude (k * tenTo d.scale)
          ≤ halfEven (d.magnitude * (k * tenTo d.scale)) (k * tenTo d.scale) :=
            halfEvenAscending unit unit (Nat.mul_le_mul_right _ (Nat.le_mul_of_pos_right _ unit))
        _ = d.magnitude := halfEvenMul _ unit
        _ ≤ greatestCoefficient := room
    obtain ⟨q, found⟩ := fitSome whole (Nat.le_refl greatestScale)
    exact ⟨shedZeros d.scale q, by rw [found, Option.map_some]⟩

end Decimal
end RuleBroker
