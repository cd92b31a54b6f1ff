import RuleBroker.Text.Digits
import RuleBroker.Binary64.Text
import RuleBroker.Text.Segments
import RuleBroker.Value
/-! Values of TOML without brackets: truth values, numbers, dates and times, strings. Dates and times
are kept as text in one form: a capital T between date and time, a capital Z, and a fraction of a
second without zeros behind its first place. Strings have escapes or stand as they are, on one line
or on several; their reader takes the text behind the opening quotes and answers what is left behind
the closing ones. -/
namespace RuleBroker.Toml

namespace Moment

def number (count : Nat) (cs : List Char) : Option (Nat × List Char) :=
  let ds := cs.take count
  if ds.length = count then (Text.readNat ds).map (·, cs.drop count) else none

def expect (c : Char) : List Char → Option (List Char)
  | d :: rest => if d = c then some rest else none
  | [] => none

def isLeap (year : Nat) : Bool := year % 4 = 0 && (year % 100 ≠ 0 || year % 400 = 0)

def daysIn (year month : Nat) : Nat :=
  if month = 2 then (if isLeap year then 29 else 28)
  else if month = 4 ∨ month = 6 ∨ month = 9 ∨ month = 11 then 30
  else 31

def readDate (cs : List Char) : Option (List Char × List Char) := do
  let (year, rest) ← number 4 cs
  let (month, rest) ← number 2 (← expect '-' rest)
  let (day, rest) ← number 2 (← expect '-' rest)
  if 1 ≤ month ∧ month ≤ 12 ∧ 1 ≤ day ∧ day ≤ daysIn year month then
    some (cs.take 10, rest)
  else none

/-- A fraction of a second, of which nine places are kept, and at least one is shown. -/
def readFraction : List Char → Option (List Char × List Char)
  | '.' :: cs =>
    let ds := cs.takeWhile Char.isDigit
    let kept := ((ds.take 9).reverse.dropWhile (· = '0')).reverse
    if ds.isEmpty then none
    else some ('.' :: (if kept.isEmpty then ['0'] else kept), cs.dropWhile Char.isDigit)
  | cs => some ([], cs)

/-- A time of day. Seconds may be left out, and a minute may have sixty-one of them. -/
def readTime (cs : List Char) : Option (List Char × List Char) := do
  let (hour, rest) ← number 2 cs
  let (minute, rest) ← number 2 (← expect ':' rest)
  if 23 < hour ∨ 59 < minute then none
  else match rest with
    | ':' :: rest => do
      let (second, rest) ← number 2 rest
      if 60 < second then none
      else
        let (fraction, rest) ← readFraction rest
        some (cs.take 8 ++ fraction, rest)
    | rest => some (cs.take 5, rest)

def readOffset : List Char → Option (List Char)
  | [] => some []
  | ['Z'] => some ['Z']
  | ['z'] => some ['Z']
  | sign :: cs => do
    let (hours, rest) ← number 2 cs
    let (minutes, rest) ← number 2 (← expect ':' rest)
    if (sign = '+' ∨ sign = '-') ∧ hours ≤ 23 ∧ minutes ≤ 59 ∧ rest = [] then
      some ((if hours = 0 ∧ minutes = 0 then '+' else sign) :: cs)
    else none

def read (cs : List Char) : Option (List Char) :=
  match readDate cs with
  | none => (readTime cs).bind fun (time, rest) => if rest = [] then some time else none
  | some (date, rest) =>
    match rest with
    | [] => some date
    | mark :: rest =>
      if mark = 'T' ∨ mark = 't' ∨ mark = ' ' then do
        let (time, rest) ← readTime rest
        some (date ++ 'T' :: time ++ (← readOffset rest))
      else none

end Moment

namespace Quoted
open Text.Radix (character)

def isControl (c : Char) : Bool := (c.toNat < 32 && c ≠ '\t') || c.toNat = 127

def behindBreak? : List Char → Option (List Char)
  | '\n' :: rest => some rest
  | '\r' :: '\n' :: rest => some rest
  | _ => none

def readEscape : List Char → Option (Char × List Char)
  | 'b' :: rest => some ('\x08', rest)
  | 't' :: rest => some ('\t', rest)
  | 'n' :: rest => some ('\n', rest)
  | 'f' :: rest => some ('\x0c', rest)
  | 'r' :: rest => some ('\r', rest)
  | 'e' :: rest => some ('\x1b', rest)
  | '"' :: rest => some ('"', rest)
  | '\\' :: rest => some ('\\', rest)
  | 'x' :: rest => character 2 rest
  | 'u' :: rest => character 4 rest
  | 'U' :: rest => character 8 rest
  | _ => none

def readEscaped : (fuel : Nat) → (sofar : List Char) → List Char → Option (List Char × List Char)
  | 0, _, _ => none
  | fuel + 1, sofar, cs =>
    match cs with
    | [] => none
    | '"' :: rest => some (sofar.reverse, rest)
    | '\\' :: rest => (readEscape rest).bind fun (c, rest) => readEscaped fuel (c :: sofar) rest
    | c :: rest => if isControl c then none else readEscaped fuel (c :: sofar) rest

def readPlain (cs : List Char) : Option (List Char × List Char) :=
  let inside := fun c => c ≠ '\'' && !isControl c
  match cs.dropWhile inside with
  | '\'' :: rest => some (cs.takeWhile inside, rest)
  | _ => none

def skipBlank : List Char → List Char
  | '\r' :: '\n' :: rest => skipBlank rest
  | c :: rest => if c = ' ' ∨ c = '\t' ∨ c = '\n' then skipBlank rest else c :: rest
  | [] => []

def behindLine? (cs : List Char) : Option (List Char) :=
  behindBreak? (cs.dropWhile fun c => c = ' ' || c = '\t')

/-- Reads on in a string of several lines. Three quotes close it; up to two more in front
of them belong to it. A line break stays as it is written. A backslash at the end of a line
drops the blanks around the break. -/
def readLines (quote : Char) (escapes : Bool) :
    (fuel : Nat) → (sofar : List Char) → List Char → Option (List Char × List Char)
  | 0, _, _ => none
  | fuel + 1, sofar, cs =>
    match cs with
    | [] => none
    | c :: rest =>
      if c = quote then
        let count := min 5 (cs.takeWhile (· = quote)).length
        if 3 ≤ count then
          some (sofar.reverse ++ List.replicate (count - 3) quote, cs.drop count)
        else readLines quote escapes fuel (c :: sofar) rest
      else if c = '\\' ∧ escapes then
        match behindLine? rest with
        | some below => readLines quote escapes fuel sofar (skipBlank below)
        | none =>
          (readEscape rest).bind fun (c, rest) => readLines quote escapes fuel (c :: sofar) rest
      else match cs with
        | '\r' :: '\n' :: below => readLines quote escapes fuel ('\n' :: '\r' :: sofar) below
        | _ =>
          if isControl c ∧ c ≠ '\n' then none
          else readLines quote escapes fuel (c :: sofar) rest

def readLong (quote : Char) (escapes : Bool) (cs : List Char) : Option (List Char × List Char) :=
  let body := (behindBreak? cs).getD cs
  readLines quote escapes (body.length + 1) [] body

def readShort? : List Char → Option (List Char × List Char)
  | '"' :: rest => readEscaped (rest.length + 1) [] rest
  | '\'' :: rest => readPlain rest
  | _ => none

def read? : List Char → Option (List Char × List Char)
  | '"' :: '"' :: '"' :: rest => readLong '"' true rest
  | '\'' :: '\'' :: '\'' :: rest => readLong '\'' false rest
  | cs => readShort? cs

end Quoted

namespace Scalar
open Text.Radix (isDigit number)

def grouped (base : Nat) (cs : List Char) : Option (List Char) :=
  let groups := Text.pieces '_' cs
  if groups.all fun g => !g.isEmpty && g.all (isDigit base) then
    some groups.flatten
  else none

def decimal (cs : List Char) : Option (List Char) :=
  (grouped 10 cs).filter fun ds => ds.head? ≠ some '0' || ds.length = 1

def signOf : List Char → Bool × List Char
  | '-' :: cs => (true, cs)
  | '+' :: cs => (false, cs)
  | cs => (false, cs)

def readInteger (cs : List Char) : Option Int :=
  let natural : Option Int := match cs with
    | '0' :: 'x' :: r => (grouped 16 r).map fun ds => (number 16 ds : Int)
    | '0' :: 'o' :: r => (grouped 8 r).map fun ds => (number 8 ds : Int)
    | '0' :: 'b' :: r => (grouped 2 r).map fun ds => (number 2 ds : Int)
    | cs =>
      let (negative, r) := signOf cs
      (decimal r).map fun ds => if negative then -(number 10 ds : Int) else number 10 ds
  natural.filter Text.fitsI64

def readExponent (cs : List Char) : Option Int :=
  let (negative, r) := signOf cs
  (grouped 10 r).map fun ds => if negative then -(number 10 ds : Int) else number 10 ds

def readFloat (cs : List Char) : Option Binary64 := do
  let (negative, body) := signOf cs
  if body = "inf".toList then some (Binary64.infinity negative)
  else if body = "nan".toList then some (if negative then Binary64.nan.neg else Binary64.nan)
  else
    let isMark := fun c => c = 'e' || c = 'E'
    let mantissa := body.takeWhile fun c => !isMark c
    let exponent ← match body.dropWhile fun c => !isMark c with
      | [] => some (0 : Int)
      | _ :: r => readExponent r
    let whole ← decimal (mantissa.takeWhile (· ≠ '.'))
    let part ← match mantissa.dropWhile (· ≠ '.') with
      | [] => some []
      | _ :: r => grouped 10 r
    let x := Binary64.ofScientific negative (number 10 (whole ++ part))
      (exponent - part.length)
    if whole = body ∨ x.isInfinite then none else some x

def isPart (c : Char) : Bool := c.isAlphanum || c = '+' || c = '-' || c = '_' || c = '.' || c = ':'

def spanOf (cs : List Char) : List Char × List Char :=
  let text := cs.takeWhile isPart
  let rest := cs.dropWhile isPart
  match Moment.readDate text, rest with
  | some (_, []), ' ' :: c :: more =>
    if c.isDigit then
      (text ++ ' ' :: (c :: more).takeWhile isPart, (c :: more).dropWhile isPart)
    else (text, rest)
  | _, _ => (text, rest)

def read (cs : List Char) : Option Value :=
  if cs = "true".toList then some (.bool true)
  else if cs = "false".toList then some (.bool false)
  else match readInteger cs with
    | some n => some (.int n)
    | none =>
      match readFloat cs with
      | some x => some (.float x)
      | none => (Moment.read cs).map fun text => .text (String.ofList text)

end Scalar
end RuleBroker.Toml
