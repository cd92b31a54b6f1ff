import RuleBroker.Decimal
import RuleBroker.Text.Digits
import RuleBroker.Binary64.Text
/-! Decimal numbers as text and as floating-point numbers. A plain text is a sign, digits, at most
one point, and low lines between digits; an exponent form shifts the scale of a plain one. -/
namespace RuleBroker.Decimal

open Text (digits paddedDigits readUnsigned)

def text (d : Decimal) : List Char :=
  let unit := tenTo d.scale
  let body :=
    if d.scale = 0 then digits d.magnitude
    else digits (d.magnitude / unit) ++ '.' :: paddedDigits d.scale (d.magnitude % unit)
  if d.negative then '-' :: body else body

def toText (d : Decimal) : String := String.ofList d.text

def digitValue (c : Char) : Nat := c.toNat - '0'.toNat

def mayFollow (c : Char) : Bool := c.isDigit || c = '_'

/-- Settles the last place by the next character alone: five and more go up, and a
coefficient that then has no room gives up one place. A low line settles nothing. What
follows has to be digits and low lines. -/
def settle (coefficient scale : Nat) (next : Char) (rest : List Char) : Option (Nat × Nat) :=
  if !(mayFollow next && rest.all mayFollow) then none
  else if next = '_' ∨ digitValue next < 5 then some (coefficient, scale)
  else if coefficient < greatestCoefficient then some (coefficient + 1, scale)
  else if scale = 0 then none
  else some ((coefficient + 5) / 10, scale - 1)

/-- A coefficient from which on low lines are passed over also where the last place is
to be settled. -/
def wideFrom : Nat := (twoTo 64 - 1) / 10 - 255

def scan (coefficient scale : Nat) (point digit wide : Bool) : List Char → Option (Nat × Nat)
  | [] => if digit then some (coefficient, scale) else none
  | c :: cs =>
    if point ∧ greatestScale ≤ scale then
      if c = '_' ∧ wide then scan coefficient scale point digit wide cs
      else settle coefficient scale c cs
    else if c.isDigit then
      let next := coefficient * 10 + digitValue c
      let places := if point then scale + 1 else scale
      if next ≤ greatestCoefficient then
        scan next places point true (wide || (places < greatestScale && wideFrom ≤ next)) cs
      else if point then settle coefficient scale c cs
      else none
    else if c = '.' ∧ !point then scan coefficient scale true digit wide cs
    else if c = '_' ∧ digit then scan coefficient scale point digit wide cs
    else none

def readSigned (negative : Bool) (cs : List Char) : Option Decimal := do
  let (coefficient, scale) ← scan 0 0 false false false cs
  of? (signedCoefficient negative coefficient) scale

def readPlain : List Char → Option Decimal
  | '-' :: cs => readSigned true cs
  | '+' :: cs => readSigned false cs
  | cs => readSigned false cs

/-- Divides by a power of ten by raising the scale; places past the greatest scale are
rounded off first, a half away from zero. The sign stays even if nothing else does. -/
def shiftDown (d : Decimal) (n : Nat) : Option Decimal :=
  if greatestScale < n then none
  else
    let surplus := d.scale + n - greatestScale
    ofParts? d.negative (Rounding.halfUp d.magnitude (tenTo surplus)) (d.scale + n - surplus)

def shiftUp (d : Decimal) (n : Nat) : Option Decimal :=
  if greatestScale < n then none
  else if n ≤ d.scale then ofParts? d.negative d.magnitude (d.scale - n)
  else of? (d.coefficient * tenTo (n - d.scale)) 0

def isExponentMark (c : Char) : Bool := c = 'e' || c = 'E'

def readScientific (cs : List Char) : Option Decimal := do
  let base := cs.takeWhile (!isExponentMark ·)
  match cs.dropWhile (!isExponentMark ·) with
  | [] => none
  | _ :: '-' :: power => (← readPlain base).shiftDown (← readUnsigned power)
  | _ :: power => (← readPlain base).shiftUp (← readUnsigned power)

def read (cs : List Char) : Option Decimal := readPlain cs <|> readScientific cs

def ofText? (s : String) : Option Decimal := read s.toList

/-- Whole part and fraction are converted apart and added; a fraction then is rounded
to the decimal's own places. A whole number becomes the nearest float. -/
def toBinary64 (d : Decimal) : Binary64 :=
  let unit := tenTo d.scale
  let n := d.magnitude
  let whole := Binary64.ofNat (n / unit)
  let part := (Binary64.ofNat (n % unit)).div (Binary64.ofNat unit)
  let size :=
    if part.isZero then whole
    else
      let places := Binary64.ofNat unit
      ((whole.add part).mul places).roundAway.div places
  if d.negative then size.neg else size

def ofBinary64? (x : Binary64) : Option Decimal := readPlain x.plainText

end RuleBroker.Decimal
