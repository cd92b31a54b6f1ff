import RuleBroker.Binary64
import RuleBroker.Text.Digits
/-! Decimal text of a floating-point number, plain or with an exponent, and the number nearest to
a decimal text. A text has the fewest digits that read back as the number, and of those the nearest
to it. Each count of digits is a grid; the first grid with a point between the halfway marks around
the number wins. What happens in the middle between two points is up to the form that the digits
are for. -/
namespace RuleBroker.Binary64
open Text (digits)

structure Scientific where
  coefficient : Nat
  exponent : Int
  deriving DecidableEq, Repr

namespace Scientific

def ratio (d : Scientific) : Nat × Nat :=
  match d.exponent with
  | .ofNat n => (d.coefficient * tenTo n, 1)
  | .negSucc n => (d.coefficient, tenTo (n + 1))

def trimmed (fuel : Nat) (d : Scientific) : Scientific :=
  match fuel with
  | 0 => d
  | fuel + 1 =>
    if d.coefficient ≠ 0 ∧ d.coefficient % 10 = 0 then
      trimmed fuel ⟨d.coefficient / 10, d.exponent + 1⟩
    else d

end Scientific

/-- A positive number with the halfway marks below and above it, over a common
denominator; the marks themselves belong to it if its significand is even. -/
structure Marks where
  below : Nat
  centre : Nat
  above : Nat
  perOne : Nat
  closed : Bool

def Marks.of (units exponentField fraction unitsPerOne : Nat) : Marks :=
  let step := twoTo (exponentField - 1)
  let centre := 4 * units
  let lower := if fraction = 0 ∧ 1 < exponentField then step else 2 * step
  ⟨centre - lower, centre, centre + 2 * step, 4 * unitsPerOne, fraction % 2 = 0⟩

def Marks.admits (m : Marks) (d : Scientific) : Bool :=
  let (num, den) := d.ratio
  let point := num * m.perOne
  if m.closed then m.below * den ≤ point && point ≤ m.above * den
  else m.below * den < point && point < m.above * den

def Marks.distance (m : Marks) (d : Scientific) : Nat :=
  let (num, den) := d.ratio
  let point := num * m.perOne
  if point ≤ m.centre * den then m.centre * den - point else point - m.centre * den

def Marks.leadingPower (m : Marks) : Int :=
  ((Nat.toDigits 10 (m.centre * tenTo 400 / m.perOne)).length : Int) - 401

def Marks.neighbours (m : Marks) (exponent : Int) : Scientific × Scientific :=
  let floor := match exponent with
    | .ofNat n => m.centre / (m.perOne * tenTo n)
    | .negSucc n => m.centre * tenTo (n + 1) / m.perOne
  (⟨floor, exponent⟩, ⟨floor + 1, exponent⟩)

/-- Which of two equally near decimals is taken: the one with an even coefficient, or the
greater one. -/
inductive Tie where
  | even
  | up
  deriving DecidableEq, Repr

def Marks.onGrid (m : Marks) (tie : Tie) (exponent : Int) : Option Scientific :=
  let (low, high) := m.neighbours exponent
  match m.admits low, m.admits high with
  | true, true =>
    let dl := m.distance low
    let dh := m.distance high
    if dl < dh then some low
    else if dh < dl then some high
    else some (if tie = .even ∧ low.coefficient % 2 = 0 then low else high)
  | true, false => some low
  | false, true => some high
  | false, false => none

def Marks.shortest (m : Marks) (tie : Tie) : Scientific :=
  let top := m.leadingPower
  let grids := (List.range 17).map fun (n : Nat) => top - (n : Int)
  ((grids.findSome? (m.onGrid tie)).getD ⟨m.centre / m.perOne, 0⟩).trimmed 400

def shortest (x : Binary64) (tie : Tie) : Scientific :=
  if x.isZero then ⟨0, 0⟩
  else (Marks.of x.units x.exponentField x.fraction unitsPerOne).shortest tie

def placePoint (ds : List Char) (point : Int) : List Char × List Char :=
  if point ≤ 0 then ([], List.replicate point.natAbs '0' ++ ds)
  else
    let n := point.toNat
    (ds.take n ++ List.replicate (n - ds.length) '0', ds.drop n)

def signed (negative : Bool) (text : List Char) : List Char :=
  if negative then '-' :: text else text

def plainText (x : Binary64) : List Char :=
  if x.isNaN then "NaN".toList
  else if x.isInfinite then signed x.negative "inf".toList
  else
    let d := x.shortest .up
    let ds := digits d.coefficient
    let (whole, part) := placePoint ds (ds.length + d.exponent)
    let whole := if whole.isEmpty then ['0'] else whole
    signed x.negative (if part.isEmpty then whole else whole ++ '.' :: part)

/-- Which numbers are written without an exponent: those with at most so many zeros
right behind the point, and with at most so many places in front of it. -/
structure PointRange where
  zeros : Nat
  places : Nat

def Scientific.documentText (d : Scientific) (range : PointRange) : List Char :=
  let ds := digits d.coefficient
  let point : Int := ds.length + d.exponent
  if -(range.zeros : Int) ≤ point ∧ point ≤ range.places then
    let (whole, part) := placePoint ds point
    let whole := if whole.isEmpty then ['0'] else whole
    whole ++ '.' :: (if part.isEmpty then ['0'] else part)
  else
    let power := point - 1
    let sign := if power < 0 then '-' else '+'
    let mantissa := match ds with
      | [] => []
      | [c] => [c]
      | c :: cs => c :: '.' :: cs
    mantissa ++ ['e', sign] ++ digits power.natAbs

def documentText (x : Binary64) : List Char :=
  signed x.negative ((x.shortest .even).documentText ⟨4, 16⟩)

def documentText32 (bits : BitVec 32) : List Char :=
  let magnitude := bits.toNat % twoTo 31
  let field := magnitude / twoTo 23
  let fraction := magnitude % twoTo 23
  let units := if field = 0 then fraction else (twoTo 23 + fraction) * twoTo (field - 1)
  let marks := Marks.of units field fraction (twoTo 149)
  let d := if magnitude = 0 then ⟨0, 0⟩ else marks.shortest .even
  signed bits.msb (d.documentText ⟨5, 13⟩)

/-- The number nearest to a coefficient times a power of ten. Powers beyond every
finite number are settled by their sign. -/
def ofScientific (negative : Bool) (coefficient : Nat) (exponent : Int) : Binary64 :=
  if coefficient = 0 then signedZero negative
  else
    let top : Int := (digits coefficient).length + exponent
    if 400 < top then infinity negative
    else if top < -400 then signedZero negative
    else
      let (num, den) := Scientific.ratio ⟨coefficient, exponent⟩
      ofRatio negative num den

def readDecimal (negative : Bool) (cs : List Char) : Option Binary64 := do
  let whole := cs.takeWhile Char.isDigit
  let rest := cs.dropWhile Char.isDigit
  let (part, rest) := match rest with
    | '.' :: r => (r.takeWhile Char.isDigit, r.dropWhile Char.isDigit)
    | r => ([], r)
  if whole.isEmpty && part.isEmpty then none
  else
    let exponent ← match rest with
      | [] => some (0 : Int)
      | 'e' :: r => Text.readInteger r
      | 'E' :: r => Text.readInteger r
      | _ => none
    some (ofScientific negative (Nat.ofDigitChars 10 (whole ++ part) 0)
      (exponent - part.length))

def wordIn (words : List String) (cs : List Char) : Bool :=
  words.contains (String.ofList (cs.map Char.toLower))

def read (cs : List Char) : Option Binary64 :=
  let (negative, body) := match cs with
    | '-' :: r => (true, r)
    | '+' :: r => (false, r)
    | r => (false, r)
  if wordIn ["inf", "infinity"] body then some (infinity negative)
  else if wordIn ["nan"] body then some (if negative then neg nan else nan)
  else readDecimal negative body

end RuleBroker.Binary64
