import RuleBroker.Rounding
/-! Binary floating-point numbers of 64 bits, given by their bit pattern. A finite
number is a whole number of units of 2^-1074; every operation takes the exact result
and rounds it once, to nearest, ties to even. -/
namespace RuleBroker

structure Binary64 where
  bits : BitVec 64
  deriving DecidableEq, Repr

namespace Binary64

def negative (x : Binary64) : Bool := x.bits.msb

def magnitude (x : Binary64) : Nat := x.bits.toNat % twoTo 63
def exponentField (x : Binary64) : Nat := x.magnitude / twoTo 52
def fraction (x : Binary64) : Nat := x.magnitude % twoTo 52

def infinityMagnitude : Nat := 2047 * twoTo 52

def isNaN (x : Binary64) : Bool := infinityMagnitude < x.magnitude
def isInfinite (x : Binary64) : Bool := x.magnitude = infinityMagnitude
def isFinite (x : Binary64) : Bool := x.magnitude < infinityMagnitude
def isZero (x : Binary64) : Bool := x.magnitude = 0

def unitsPerOne : Nat := twoTo 1074

def units (x : Binary64) : Nat :=
  if x.exponentField = 0 then x.fraction
  else (twoTo 52 + x.fraction) * twoTo (x.exponentField - 1)

def signedUnits (x : Binary64) : Int :=
  if x.negative then -(x.units : Int) else x.units

def ofMagnitude (negative : Bool) (magnitude : Nat) : Binary64 :=
  ⟨BitVec.ofNat 64 ((if negative then twoTo 63 else 0) + magnitude)⟩

def zero : Binary64 := ofMagnitude false 0
def signedZero (negative : Bool) : Binary64 := ofMagnitude negative 0
def infinity (negative : Bool) : Binary64 := ofMagnitude negative infinityMagnitude
def nan : Binary64 := ofMagnitude false (infinityMagnitude + twoTo 51)
def greatest : Binary64 := ofMagnitude false (infinityMagnitude - 1)
def least : Binary64 := ofMagnitude true (infinityMagnitude - 1)

/-- The magnitude nearest to a quotient of units. Steps between neighbours double
with each power of two above 2^53, and the patterns of two neighbours are consecutive
numbers, so a step too far carries into the next power by itself. -/
def nearestMagnitude (num den : Nat) : Nat :=
  let shift := (num / den).log2 - 52
  min (shift * twoTo 52 + Rounding.halfEven num (den * twoTo shift)) infinityMagnitude

def ofUnits (negative : Bool) (num den : Nat) : Binary64 :=
  ofMagnitude negative (nearestMagnitude num den)

def ofRatio (negative : Bool) (num den : Nat) : Binary64 :=
  ofUnits negative (num * unitsPerOne) den

def ofNat (n : Nat) : Binary64 := ofRatio false n 1
def ofInt (z : Int) : Binary64 := ofRatio (z < 0) z.natAbs 1

/-- Numbers that are not NaN compare as these keys do; both zeros share one. -/
def key (x : Binary64) : Int := if x.negative then -(x.magnitude : Int) else x.magnitude

def same (x y : Binary64) : Bool := !x.isNaN && !y.isNaN && x.key = y.key
def less (x y : Binary64) : Bool := !x.isNaN && !y.isNaN && x.key < y.key

def lesser (x y : Binary64) : Binary64 :=
  if x.isNaN then y else if less y x then y else x

def greater (x y : Binary64) : Binary64 :=
  if x.isNaN then y else if less x y then y else x

def neg (x : Binary64) : Binary64 := ofMagnitude (!x.negative) x.magnitude

def add (x y : Binary64) : Binary64 :=
  if x.isNaN || y.isNaN then nan
  else if x.isInfinite then
    if y.isInfinite && x.negative != y.negative then nan else x
  else if y.isInfinite then y
  else
    let sum := x.signedUnits + y.signedUnits
    if sum = 0 then signedZero (x.negative && y.negative)
    else ofUnits (sum < 0) sum.natAbs 1

def mul (x y : Binary64) : Binary64 :=
  let sign := x.negative != y.negative
  if x.isNaN || y.isNaN then nan
  else if x.isInfinite || y.isInfinite then
    if x.isZero || y.isZero then nan else infinity sign
  else ofUnits sign (x.units * y.units) unitsPerOne

def div (x y : Binary64) : Binary64 :=
  let sign := x.negative != y.negative
  if x.isNaN || y.isNaN then nan
  else if x.isInfinite then if y.isInfinite then nan else infinity sign
  else if y.isInfinite then signedZero sign
  else if y.isZero then if x.isZero then nan else infinity sign
  else ofUnits sign (x.units * unitsPerOne) y.units

def roundAway (x : Binary64) : Binary64 :=
  if x.isFinite then ofRatio x.negative (Rounding.halfUp x.units unitsPerOne) 1 else x

def whole (x : Binary64) : Int :=
  let n : Int := x.units / unitsPerOne
  if x.negative then -n else n

def wholeWithin (lo hi : Int) (x : Binary64) : Int :=
  if x.isNaN then 0
  else if x.isInfinite then if x.negative then lo else hi
  else max lo (min hi x.whole)

def ofBinary32 (bits : BitVec 32) : Binary64 :=
  let magnitude := bits.toNat % twoTo 31
  let field := magnitude / twoTo 23
  let fraction := magnitude % twoTo 23
  if field = 255 then
    if fraction = 0 then infinity bits.msb else nan
  else
    let units := if field = 0 then fraction else (twoTo 23 + fraction) * twoTo (field - 1)
    ofRatio bits.msb units (twoTo 149)

end Binary64
end RuleBroker
