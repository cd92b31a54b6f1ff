import RuleBroker.Text.Digits
import RuleBroker.Value
/-! Reading a value from document text. A reader answers the value and the text left
behind it, or nothing where the text is no document. Fields stay as written. -/
namespace RuleBroker.Value.Reader

def isSpace (c : Char) : Bool := c = ' ' || c = '\n' || c = '\t' || c = '\r'

def skipSpaces (cs : List Char) : List Char := cs.dropWhile isSpace

def greatestGathered : Nat := twoTo 64 - 1

def digitValue (c : Char) : Nat := c.toNat - '0'.toNat

def gather (n taken : Nat) : List Char → Nat × Nat × List Char
  | [] => (n, taken, [])
  | c :: cs =>
    if c.isDigit && n * 10 + digitValue c ≤ greatestGathered then
      gather (n * 10 + digitValue c) (taken + 1) cs
    else (n, taken, c :: cs)

/-- Scales a float by powers of ten, each step rounded. A result past the greatest
float is an error; one below the least is zero. -/
def scale : (fuel : Nat) → Binary64 → Int → Option Binary64
  | 0, x, _ => some x
  | fuel + 1, x, exponent =>
    if exponent.natAbs ≤ 308 then
      let power := Binary64.ofNat (tenTo exponent.natAbs)
      if 0 ≤ exponent then
        let y := x.mul power
        if y.isInfinite then none else some y
      else some (x.div power)
    else if x.isZero then some x
    else if 0 ≤ exponent then none
    else scale fuel (x.div (Binary64.ofNat (tenTo 308))) (exponent + 308)

def scaled (negative : Bool) (n : Nat) (exponent : Int) : Option Binary64 :=
  (scale 4 (Binary64.ofNat n) exponent).map fun x => if negative then x.neg else x

def greatestExponent : Nat := twoTo 31 - 1

def readExponent (negative : Bool) (n : Nat) (start : Int) (cs : List Char) :
    Option (Binary64 × List Char) :=
  let (down, cs) := match cs with
    | '-' :: r => (true, r)
    | '+' :: r => (false, r)
    | r => (false, r)
  let ds := cs.takeWhile Char.isDigit
  let rest := cs.dropWhile Char.isDigit
  if ds.isEmpty then none
  else
    let power := Nat.ofDigitChars 10 ds 0
    if power ≤ greatestExponent then
      (scaled negative n (if down then start - power else start + power)).map (·, rest)
    else if n ≠ 0 ∧ !down then none
    else some (Binary64.signedZero negative, rest)

def finish (negative : Bool) (n : Nat) (exponent : Int) :
    List Char → Option (Binary64 × List Char)
  | 'e' :: cs => readExponent negative n exponent cs
  | 'E' :: cs => readExponent negative n exponent cs
  | cs => (scaled negative n exponent).map (·, cs)

/-- Reads the places behind a point; those without room are dropped. -/
def readPlaces (negative : Bool) (n : Nat) (exponent : Int) (cs : List Char) :
    Option (Binary64 × List Char) :=
  let (m, taken, rest) := gather n 0 cs
  match rest with
  | c :: _ =>
    if c.isDigit then finish negative m (exponent - taken) (rest.dropWhile Char.isDigit)
    else if taken = 0 then none
    else finish negative m (exponent - taken) rest
  | [] => if taken = 0 then none else finish negative m (exponent - taken) []

def floatValue : Option (Binary64 × List Char) → Option (Value × List Char) :=
  Option.map fun (x, rest) => (.float x, rest)

def wholeValue (negative : Bool) (n : Nat) : Value :=
  if negative then
    if n = 0 ∨ twoTo 63 < n then .float (Binary64.ofNat n).neg else .int (-(n : Int))
  else .int n

def readNumber (negative : Bool) (cs : List Char) : Option (Value × List Char) :=
  let (n, taken, rest) := gather 0 0 cs
  let zeroLed := match cs with
    | '0' :: c :: _ => c.isDigit
    | _ => false
  if taken = 0 || zeroLed then none
  else
    let further := (rest.takeWhile Char.isDigit).length
    match rest.dropWhile Char.isDigit with
    | '.' :: r => floatValue (readPlaces negative n further r)
    | 'e' :: r => floatValue (readExponent negative n further r)
    | 'E' :: r => floatValue (readExponent negative n further r)
    | r =>
      if further = 0 then some (wholeValue negative n, r)
      else floatValue ((scaled negative n further).map (·, r))

def readHex (cs : List Char) : Option (Nat × List Char) :=
  let ds := cs.take 4
  if ds.length = 4 then (Text.Radix.read? 16 ds).map (·, cs.drop 4) else none

def readNumbered (cs : List Char) : Option (Char × List Char) := do
  let (high, rest) ← readHex cs
  if 0xDC00 ≤ high ∧ high ≤ 0xDFFF then none
  else if 0xD800 ≤ high ∧ high ≤ 0xDBFF then
    match rest with
    | '\\' :: 'u' :: more => do
      let (low, rest) ← readHex more
      if 0xDC00 ≤ low ∧ low ≤ 0xDFFF then
        some (Char.ofNat (0x10000 + (high - 0xD800) * 0x400 + (low - 0xDC00)), rest)
      else none
    | _ => none
  else some (Char.ofNat high, rest)

def readChars : (fuel : Nat) → (sofar : List Char) → List Char → Option (String × List Char)
  | 0, _, _ => none
  | fuel + 1, sofar, cs =>
    match cs with
    | [] => none
    | '"' :: rest => some (String.ofList sofar.reverse, rest)
    | '\\' :: e :: rest =>
      match e with
      | '"' => readChars fuel ('"' :: sofar) rest
      | '\\' => readChars fuel ('\\' :: sofar) rest
      | '/' => readChars fuel ('/' :: sofar) rest
      | 'b' => readChars fuel ('\x08' :: sofar) rest
      | 'f' => readChars fuel ('\x0c' :: sofar) rest
      | 'n' => readChars fuel ('\n' :: sofar) rest
      | 'r' => readChars fuel ('\r' :: sofar) rest
      | 't' => readChars fuel ('\t' :: sofar) rest
      | 'u' => match readNumbered rest with
        | some (c, rest) => readChars fuel (c :: sofar) rest
        | none => none
      | _ => none
    | c :: rest => if c = '\\' ∨ c.toNat < 32 then none else readChars fuel (c :: sofar) rest

mutual

def readValue : (fuel : Nat) → (limit : Nat) → List Char → Option (Value × List Char)
  | 0, _, _ => none
  | fuel + 1, limit, cs =>
    match skipSpaces cs with
    | 'n' :: 'u' :: 'l' :: 'l' :: rest => some (.null, rest)
    | 't' :: 'r' :: 'u' :: 'e' :: rest => some (.bool true, rest)
    | 'f' :: 'a' :: 'l' :: 's' :: 'e' :: rest => some (.bool false, rest)
    | '"' :: rest => (readChars (rest.length + 1) [] rest).map fun (s, r) => (.text s, r)
    | '-' :: rest => readNumber true rest
    | '[' :: rest =>
      if limit = 0 then none
      else match skipSpaces rest with
        | ']' :: rest => some (.list [], rest)
        | rest => (readItems fuel (limit - 1) rest).map fun (vs, r) => (.list vs, r)
    | '\x7b' :: rest =>
      if limit = 0 then none
      else match skipSpaces rest with
        | '\x7d' :: rest => some (.object [], rest)
        | rest => (readFields fuel (limit - 1) rest).map fun (fs, r) => (.object fs, r)
    | c :: rest => if c.isDigit then readNumber false (c :: rest) else none
    | [] => none

def readItems : (fuel : Nat) → (limit : Nat) → List Char → Option (List Value × List Char)
  | 0, _, _ => none
  | fuel + 1, limit, cs =>
    match readValue fuel limit cs with
    | none => none
    | some (v, rest) =>
      match skipSpaces rest with
      | ']' :: rest => some ([v], rest)
      | ',' :: rest => (readItems fuel limit rest).map fun (vs, r) => (v :: vs, r)
      | _ => none

def readFields : (fuel : Nat) → (limit : Nat) → List Char →
    Option (List (String × Value) × List Char)
  | 0, _, _ => none
  | fuel + 1, limit, cs =>
    match skipSpaces cs with
    | '"' :: rest =>
      match readChars (rest.length + 1) [] rest with
      | none => none
      | some (name, rest) =>
        match skipSpaces rest with
        | ':' :: rest =>
          match readValue fuel limit rest with
          | none => none
          | some (v, rest) =>
            match skipSpaces rest with
            | '\x7d' :: rest => some ([(name, v)], rest)
            | ',' :: rest => (readFields fuel limit rest).map fun (fs, r) => ((name, v) :: fs, r)
            | _ => none
        | _ => none
    | _ => none

end

end Reader

def nestingLimit : Nat := 127

def readFirst (s : String) : Option (Value × List Char) :=
  Reader.readValue (2 * s.length + 2) nestingLimit s.toList

def ofText? (s : String) : Option Value :=
  match readFirst s with
  | some (v, rest) => if (Reader.skipSpaces rest).isEmpty then some v else none
  | none => none

end RuleBroker.Value
