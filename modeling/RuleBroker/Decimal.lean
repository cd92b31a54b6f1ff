import RuleBroker.Rounding
/-! Decimal numbers of bounded precision: a coefficient of at most 96 bits over a
power of ten of at most 28. Sums, differences and quotients are exact first, then
rounded half to even at the largest scale at which the coefficient fits. -/
namespace RuleBroker

def Decimal.greatestCoefficient : Nat := twoTo 96 - 1

def Decimal.greatestScale : Nat := 28

/-- The sign stands apart from the magnitude: a zero may keep the sign of the number
that it was rounded from. -/
structure Decimal where
  negative : Bool
  magnitude : Nat
  scale : Nat
  magnitude_le : magnitude ≤ Decimal.greatestCoefficient
  scale_le : scale ≤ Decimal.greatestScale
  deriving DecidableEq, Repr

namespace Decimal

def signedCoefficient (negative : Bool) (n : Nat) : Int := if negative then -(n : Int) else n

theorem natAbsSignedCoefficient (negative : Bool) (n : Nat) :
    (signedCoefficient negative n).natAbs = n := by
  cases negative <;> simp [signedCoefficient]

def coefficient (d : Decimal) : Int := signedCoefficient d.negative d.magnitude

theorem natAbsCoefficient (d : Decimal) : d.coefficient.natAbs = d.magnitude :=
  natAbsSignedCoefficient d.negative d.magnitude

def ofParts? (negative : Bool) (magnitude scale : Nat) : Option Decimal :=
  if h : magnitude ≤ greatestCoefficient ∧ scale ≤ greatestScale then
    some ⟨negative, magnitude, scale, h.1, h.2⟩
  else none

def of? (coefficient : Int) (scale : Nat) : Option Decimal :=
  ofParts? (coefficient < 0) coefficient.natAbs scale

def zero : Decimal := ⟨false, 0, 0, by decide, by decide⟩

def ofInt? (z : Int) : Option Decimal := of? z 0

def Equal (x y : Decimal) : Prop :=
  x.coefficient * tenTo y.scale = y.coefficient * tenTo x.scale

instance (x y : Decimal) : Decidable (Equal x y) := by unfold Equal; infer_instance

def isZero (d : Decimal) : Bool := d.magnitude = 0
def isPositive (d : Decimal) : Bool := 0 < d.coefficient

/-- The signed quotient rounded at the largest scale, from the given one down, at
which the coefficient fits; none if it does not fit as a whole number. -/
def fit (negative : Bool) (num den : Nat) : Nat → Option Decimal
  | 0 => of? (signedCoefficient negative (Rounding.halfEven num den)) 0
  | scale + 1 =>
    let rounded := Rounding.halfEven (num * tenTo (scale + 1)) den
    if rounded ≤ greatestCoefficient then
      of? (signedCoefficient negative rounded) (scale + 1)
    else fit negative num den scale

def alignedSum (x y : Decimal) : Int :=
  let scale := max x.scale y.scale
  x.coefficient * tenTo (scale - x.scale) + y.coefficient * tenTo (scale - y.scale)

def neg (d : Decimal) : Decimal := { d with negative := !d.negative }

def add (x y : Decimal) : Option Decimal :=
  if x.isZero then some y
  else if y.isZero then some x
  else
    let sum := alignedSum x y
    let scale := max x.scale y.scale
    fit (sum < 0) sum.natAbs (tenTo scale) scale

def sub (x y : Decimal) : Option Decimal := add x y.neg

theorem trimLe {c : Int} (h : c.natAbs ≤ greatestCoefficient) :
    (c / 10).natAbs ≤ greatestCoefficient := by
  omega

def normalizeAt (coefficient : Int) : (scale : Nat) →
    coefficient.natAbs ≤ greatestCoefficient → scale ≤ greatestScale → Decimal
  | 0, hc, hs => ⟨coefficient < 0, coefficient.natAbs, 0, hc, hs⟩
  | scale + 1, hc, hs =>
    if coefficient % 10 = 0 then
      normalizeAt (coefficient / 10) scale (trimLe hc) (Nat.le_of_succ_le hs)
    else ⟨coefficient < 0, coefficient.natAbs, scale + 1, hc, hs⟩

def normalize (d : Decimal) : Decimal :=
  normalizeAt d.coefficient d.scale (by simpa [natAbsCoefficient] using d.magnitude_le)
    d.scale_le

theorem signedOfNatAbs (z : Int) : signedCoefficient (z < 0) z.natAbs = z := by
  unfold signedCoefficient
  split
  · next h =>
    have below : z < 0 := of_decide_eq_true h
    omega
  · next h =>
    have notBelow : ¬z < 0 := fun below => h (decide_eq_true below)
    omega

theorem normalizeAtEqual (coefficient : Int) (scale : Nat) (hc hs) :
    (normalizeAt coefficient scale hc hs).coefficient * tenTo scale =
      coefficient * tenTo (normalizeAt coefficient scale hc hs).scale := by
  induction scale generalizing coefficient with
  | zero => simp [normalizeAt, Decimal.coefficient, signedOfNatAbs]
  | succ scale ih =>
    unfold normalizeAt
    split
    · next h =>
      have whole : coefficient = coefficient / 10 * 10 := by omega
      have step := ih (coefficient / 10) (trimLe hc) (Nat.le_of_succ_le hs)
      rw [tenToSucc, Int.natCast_mul, ← Int.mul_assoc, step, Int.mul_right_comm]
      simp [← whole]
    · simp [Decimal.coefficient, signedOfNatAbs]

theorem normalizeEqual (d : Decimal) : Equal d.normalize d :=
  normalizeAtEqual d.coefficient d.scale _ d.scale_le

def withZero (d : Decimal) : Decimal := (of? (d.coefficient * 10) (d.scale + 1)).getD d

def hasRoom (d : Decimal) (places : Nat) : Bool :=
  d.magnitude * tenTo places ≤ greatestCoefficient && d.scale + places ≤ greatestScale

/-- A quotient grows nine places at a time and then sheds at most seven zeros, so one
that ends on the first of nine places keeps a zero behind it. -/
def shedZeros (scale : Nat) (quotient : Decimal) : Decimal :=
  let shed := quotient.normalize
  if (shed.scale - scale) % 9 = 1 ∧ shed.hasRoom 8 then shed.withZero else shed

def divNat (d : Decimal) (k : Nat) : Option Decimal :=
  if k = 0 then none
  else if d.coefficient % k = 0 then of? (d.coefficient / k) d.scale
  else
    (fit d.negative d.magnitude (k * tenTo d.scale) greatestScale).map (shedZeros d.scale)

end Decimal
end RuleBroker
