import RuleBroker.Binary64.Text
import RuleBroker.Text.Digits
import RuleBroker.Value.Canonical
/-! Reading a RON document: a value with named fields in parentheses, maps in braces and
lists in brackets. Names of types in front of parentheses do not count. -/
namespace RuleBroker.Ron

def isSpace (c : Char) : Bool := c = ' ' || c = '\t' || c = '\n' || c = '\r'

def behindComment? (depth : Nat) : List Char → Option (List Char)
  | '*' :: '/' :: rest => if depth = 0 then some rest else behindComment? (depth - 1) rest
  | '/' :: '*' :: rest => behindComment? (depth + 1) rest
  | _ :: rest => behindComment? depth rest
  | [] => none

def skipAll : (fuel : Nat) → List Char → List Char
  | 0, cs => cs
  | fuel + 1, cs =>
    match cs.dropWhile isSpace with
    | '/' :: '/' :: rest => skipAll fuel (rest.dropWhile (· ≠ '\n'))
    | '/' :: '*' :: rest =>
      match behindComment? 0 rest with
      | some rest => skipAll fuel rest
      | none => '/' :: '*' :: rest
    | cs => cs

def skip (cs : List Char) : List Char := skipAll (cs.length + 1) cs

def startsName (c : Char) : Bool := c.isAlpha || c = '_'
def isInName (c : Char) : Bool := c.isAlphanum || c = '_'

def readName? (cs : List Char) : Option (String × List Char) :=
  if (cs.head?.map startsName).getD false then
    some (String.ofList (cs.takeWhile isInName), cs.dropWhile isInName)
  else none

def readNumbered : List Char → Option (Char × List Char)
  | '\x7b' :: cs =>
    let ds := cs.takeWhile (· ≠ '\x7d')
    if 6 < ds.length then none
    else do
      let n ← Text.Radix.read? 16 ds
      if n.isValidChar then some (Char.ofNat n, cs.drop (ds.length + 1)) else none
  | _ => none

def readEscape : List Char → Option (Char × List Char)
  | '\'' :: rest => some ('\'', rest)
  | '"' :: rest => some ('"', rest)
  | '\\' :: rest => some ('\\', rest)
  | 'n' :: rest => some ('\n', rest)
  | 'r' :: rest => some ('\r', rest)
  | 't' :: rest => some ('\t', rest)
  | '0' :: rest => some (Char.ofNat 0, rest)
  | 'x' :: rest => Text.Radix.character 2 rest
  | 'u' :: rest => readNumbered rest
  | _ => none

def readChars : (fuel : Nat) → (sofar : List Char) → List Char → Option (String × List Char)
  | 0, _, _ => none
  | fuel + 1, sofar, cs =>
    match cs with
    | [] => none
    | '"' :: rest => some (String.ofList sofar.reverse, rest)
    | '\\' :: rest => (readEscape rest).bind fun (c, rest) => readChars fuel (c :: sofar) rest
    | c :: rest => readChars fuel (c :: sofar) rest

def readRaw (close : List Char) : (sofar : List Char) → List Char → Option (String × List Char)
  | sofar, c :: rest =>
    if (c :: rest).take close.length = close then
      some (String.ofList sofar.reverse, (c :: rest).drop close.length)
    else readRaw close (c :: sofar) rest
  | _, [] => none

def readString? : List Char → Option (String × List Char)
  | '"' :: rest => readChars (rest.length + 1) [] rest
  | 'r' :: cs =>
    let marks := cs.takeWhile (· = '#')
    match cs.drop marks.length with
    | '"' :: rest => readRaw ('"' :: marks) [] rest
    | _ => none
  | _ => none

def readCharacter? : List Char → Option (Char × List Char)
  | '\'' :: '\\' :: rest =>
    match readEscape rest with
    | some (c, '\'' :: rest) => some (c, rest)
    | _ => none
  | '\'' :: c :: '\'' :: rest => some (c, rest)
  | _ => none

def isFloatPart (c : Char) : Bool :=
  c.isDigit || c = 'e' || c = 'E' || c = '.' || c = '+' || c = '-' || c = '_'

def isWholePart (c : Char) : Bool := Text.Radix.isDigit 16 c || c = '_'

def readWhole (negative : Bool) (base : Nat) (cs : List Char) : Option (Value × List Char) :=
  let digits := cs.takeWhile isWholePart
  if digits.head? = some '_' then none
  else do
    let n ← Text.Radix.read? base (digits.filter (· ≠ '_'))
    let z : Int := if negative then -(n : Int) else n
    if Text.fitsI64 z || Text.fitsU64 z then some (.int z, cs.drop digits.length) else none

/-- A number is a float if it reads on further as one than as digits. -/
def readNumber (cs : List Char) : Option (Value × List Char) :=
  let (negative, body) := match cs with
    | '-' :: rest => (true, rest)
    | '+' :: rest => (false, rest)
    | rest => (false, rest)
  let float := body.takeWhile isFloatPart
  if body.take 3 = "inf".toList then
    some (.float (Binary64.infinity negative), body.drop 3)
  else if body.take 3 = "NaN".toList then some (.float Binary64.nan, body.drop 3)
  else if (body.takeWhile isWholePart).length < float.length then
    (Binary64.readDecimal negative float).map fun x => (.float x, body.drop float.length)
  else match body with
    | '0' :: 'x' :: rest => readWhole negative 16 rest
    | '0' :: 'o' :: rest => readWhole negative 8 rest
    | '0' :: 'b' :: rest => readWhole negative 2 rest
    | rest => readWhole negative 10 rest

def startsField (cs : List Char) : Bool :=
  match (readName? cs).map fun (_, rest) => skip rest with
  | some (':' :: _) => true
  | _ => false

def keyText : Value → Option String
  | .text s => some s
  | _ => none

mutual

def readValue : (fuel : Nat) → List Char → Option (Value × List Char)
  | 0, _ => none
  | fuel + 1, cs =>
    match readString? cs with
    | some (s, rest) => some (.text s, rest)
    | none =>
      match readName? cs with
      | some (name, rest) => readNamed fuel name rest
      | none =>
        match cs with
        | '(' :: ')' :: rest => some (.null, rest)
        | '(' :: rest => readGroup fuel rest
        | '[' :: rest => (readItems fuel ']' rest).map fun (vs, rest) => (.list vs, rest)
        | '\x7b' :: rest => (readPairs fuel rest).map fun (fs, rest) => (.object fs, rest)
        | '\'' :: _ => (readCharacter? cs).map fun (c, rest) => (.text (String.singleton c), rest)
        | cs => readNumber cs

def readNamed : (fuel : Nat) → (name : String) → List Char → Option (Value × List Char)
  | 0, _, _ => none
  | fuel + 1, name, cs =>
    if name = "true" then some (.bool true, cs)
    else if name = "false" then some (.bool false, cs)
    else if name = "None" then some (.null, cs)
    else if name = "inf" then some (.float (Binary64.infinity false), cs)
    else if name = "NaN" then some (.float Binary64.nan, cs)
    else match skip cs with
      | '(' :: rest =>
        if name = "Some" then
          match readValue fuel (skip rest) with
          | some (v, rest) =>
            match skip rest with
            | ')' :: rest => some (v, rest)
            | _ => none
          | none => none
        else readGroup fuel rest
      | _ => some (.null, cs)

def readGroup : (fuel : Nat) → List Char → Option (Value × List Char)
  | 0, _ => none
  | fuel + 1, cs =>
    if startsField (skip cs) then
      (readFields fuel cs).map fun (fs, rest) => (.object fs, rest)
    else (readItems fuel ')' cs).map fun (vs, rest) => (.list vs, rest)

def readItems : (fuel : Nat) → (close : Char) → List Char → Option (List Value × List Char)
  | 0, _, _ => none
  | fuel + 1, close, cs =>
    match skip cs with
    | [] => none
    | c :: rest =>
      if c = close then some ([], rest)
      else match readValue fuel (c :: rest) with
        | none => none
        | some (v, rest) =>
          match skip rest with
          | ',' :: rest => (readItems fuel close rest).map fun (vs, rest) => (v :: vs, rest)
          | d :: rest => if d = close then some ([v], rest) else none
          | [] => none

def readFields : (fuel : Nat) → List Char → Option (List (String × Value) × List Char)
  | 0, _ => none
  | fuel + 1, cs =>
    match skip cs with
    | ')' :: rest => some ([], rest)
    | cs =>
      match (readName? cs).map fun (name, rest) => (name, skip rest) with
      | some (name, ':' :: rest) =>
        match readValue fuel (skip rest) with
        | none => none
        | some (v, rest) =>
          match skip rest with
          | ',' :: rest => (readFields fuel rest).map fun (fs, rest) => ((name, v) :: fs, rest)
          | ')' :: rest => some ([(name, v)], rest)
          | _ => none
      | _ => none

def readPairs : (fuel : Nat) → List Char → Option (List (String × Value) × List Char)
  | 0, _ => none
  | fuel + 1, cs =>
    match skip cs with
    | '\x7d' :: rest => some ([], rest)
    | cs =>
      match readValue fuel cs with
      | none => none
      | some (k, rest) =>
        match keyText k, skip rest with
        | some name, ':' :: rest =>
          match readValue fuel (skip rest) with
          | none => none
          | some (v, rest) =>
            match skip rest with
            | ',' :: rest => (readPairs fuel rest).map fun (fs, rest) => ((name, v) :: fs, rest)
            | '\x7d' :: rest => some ([(name, v)], rest)
            | _ => none
        | _, _ => none

end

def behindExtensions? : (fuel : Nat) → List Char → Option (List Char)
  | 0, _ => none
  | fuel + 1, cs =>
    match skip cs with
    | '#' :: '!' :: '[' :: rest =>
      match rest.dropWhile (· ≠ ']') with
      | _ :: rest => behindExtensions? fuel rest
      | [] => none
    | cs => some cs

def read (s : String) : Option Value := do
  let cs ← behindExtensions? (s.length + 1) s.toList
  let (v, rest) ← readValue (4 * s.length + 4) cs
  if (skip rest).isEmpty then some v.canonical else none

end RuleBroker.Ron
