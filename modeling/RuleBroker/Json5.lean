import RuleBroker.Binary64.Text
import RuleBroker.Text.Alphanumeric
import RuleBroker.Text.Segments
import RuleBroker.Value.Reader
/-! Reading a JSON5 document: a value with comments, single quotes, names without quotes,
and commas behind last items. -/
namespace RuleBroker.Json5

def isBreak (c : Char) : Bool := c = '\n' || c = '\r' || c = '\u2028' || c = '\u2029'

/-- Blanks and line breaks, but not the next-line control character; a byte order mark
counts as one. -/
def isSpace (c : Char) : Bool := (Text.isBlank c && c ≠ '\u0085') || c = '\ufeff'

def behindComment? : List Char → Option (List Char)
  | '*' :: '/' :: rest => some rest
  | _ :: rest => behindComment? rest
  | [] => none

def skipAll : (fuel : Nat) → List Char → List Char
  | 0, cs => cs
  | fuel + 1, cs =>
    match cs.dropWhile isSpace with
    | '/' :: '/' :: rest => skipAll fuel (rest.dropWhile fun c => !isBreak c)
    | '/' :: '*' :: rest =>
      match behindComment? rest with
      | some rest => skipAll fuel rest
      | none => '/' :: '*' :: rest
    | cs => cs

def skip (cs : List Char) : List Char := skipAll (cs.length + 1) cs

def readEscape : List Char → Option (List Char × List Char)
  | 'b' :: rest => some (['\x08'], rest)
  | 'f' :: rest => some (['\x0c'], rest)
  | 'n' :: rest => some (['\n'], rest)
  | 'r' :: rest => some (['\r'], rest)
  | 't' :: rest => some (['\t'], rest)
  | 'v' :: rest => some (['\x0b'], rest)
  | '0' :: rest => some ([Char.ofNat 0], rest)
  | 'x' :: rest => (Text.Radix.character 2 rest).map fun (c, rest) => ([c], rest)
  | 'u' :: rest => (Value.Reader.readNumbered rest).map fun (c, rest) => ([c], rest)
  | '\r' :: '\n' :: rest => some ([], rest)
  | c :: rest => if isBreak c then some ([], rest) else if c.isDigit then none else some ([c], rest)
  | [] => none

def readChars (quote : Char) :
    (fuel : Nat) → (sofar : List Char) → List Char → Option (String × List Char)
  | 0, _, _ => none
  | fuel + 1, sofar, cs =>
    match cs with
    | [] => none
    | c :: rest =>
      if c = quote then some (String.ofList sofar.reverse, rest)
      else if c = '\\' then
        (readEscape rest).bind fun (held, rest) => readChars quote fuel (held ++ sofar) rest
      else if isBreak c then none
      else readChars quote fuel (c :: sofar) rest

def readString? : List Char → Option (String × List Char)
  | '"' :: rest => readChars '"' (rest.length + 1) [] rest
  | '\'' :: rest => readChars '\'' (rest.length + 1) [] rest
  | _ => none

def startsName (c : Char) : Bool :=
  c = '$' || c = '_' || (Text.Alphanumeric.isAlphanumeric c && !c.isDigit)

def isInName (c : Char) : Bool := startsName c || c.isDigit || c = '\u200c' || c = '\u200d'

def readName (cs : List Char) : Option (String × List Char) :=
  match cs with
  | [] => none
  | c :: _ =>
    if startsName c then some (String.ofList (cs.takeWhile isInName), cs.dropWhile isInName)
    else readString? cs

def wholeDigits : List Char → List Char × List Char
  | '0' :: rest => (['0'], rest)
  | cs => (cs.takeWhile Char.isDigit, cs.dropWhile Char.isDigit)

def exponentText (cs : List Char) : List Char × List Char :=
  match cs with
  | mark :: rest =>
    let (sign, rest) := match rest with
      | '+' :: rest => (['+'], rest)
      | '-' :: rest => (['-'], rest)
      | rest => ([], rest)
    let ds := rest.takeWhile Char.isDigit
    if (mark = 'e' ∨ mark = 'E') ∧ ds ≠ [] then
      (mark :: sign ++ ds, rest.dropWhile Char.isDigit)
    else ([], cs)
  | [] => ([], [])

/-- A number in decimal digits behind its sign. One with a point or an exponent is a
float, and finite; a whole one has to fit a signed word of 64 bits. -/
def readDecimal (sign : List Char) (cs : List Char) : Option (Value × List Char) :=
  let (whole, rest) := wholeDigits cs
  let (part, rest) := match rest with
    | '.' :: rest => ('.' :: rest.takeWhile Char.isDigit, rest.dropWhile Char.isDigit)
    | rest => ([], rest)
  let (exponent, rest) := exponentText rest
  if part = [] ∧ exponent = [] then (Text.readI64 (sign ++ whole)).map fun n => (.int n, rest)
  else ((Binary64.read (sign ++ whole ++ part ++ exponent)).filter fun x => !x.isInfinite).map
    fun x => (.float x, rest)

def readWord (sign : List Char) (cs : List Char) : Option (Value × List Char) :=
  if cs.take 8 = "Infinity".toList ∧ sign ≠ ['+'] then
    some (.float (Binary64.infinity (sign = ['-'])), cs.drop 8)
  else if cs.take 3 = "NaN".toList ∧ sign ≠ ['+'] then some (.float Binary64.nan, cs.drop 3)
  else none

def readNumber (cs : List Char) : Option (Value × List Char) :=
  let hexadecimal (ds : List Char) : Option (Value × List Char) :=
    let (number, rest) :=
      (ds.takeWhile (Text.Radix.isDigit 16), ds.dropWhile (Text.Radix.isDigit 16))
    ((Text.Radix.read? 16 number).filter (· < twoTo 32)).map fun n => (.int n, rest)
  match cs with
  | '0' :: 'x' :: ds => hexadecimal ds
  | '0' :: 'X' :: ds => hexadecimal ds
  | '+' :: cs => (readWord ['+'] cs).or (readDecimal ['+'] cs)
  | '-' :: cs => (readWord ['-'] cs).or (readDecimal ['-'] cs)
  | cs => (readWord [] cs).or (readDecimal [] cs)

mutual

def readValue : (fuel : Nat) → List Char → Option (Value × List Char)
  | 0, _ => none
  | fuel + 1, cs =>
    match cs with
    | 'n' :: 'u' :: 'l' :: 'l' :: rest => some (.null, rest)
    | 't' :: 'r' :: 'u' :: 'e' :: rest => some (.bool true, rest)
    | 'f' :: 'a' :: 'l' :: 's' :: 'e' :: rest => some (.bool false, rest)
    | '[' :: rest => (readItems fuel rest).map fun (vs, rest) => (.list vs, rest)
    | '\x7b' :: rest => (readFields fuel rest).map fun (fs, rest) => (.object fs, rest)
    | cs =>
      match readString? cs with
      | some (s, rest) => some (.text s, rest)
      | none => readNumber cs

def readItems : (fuel : Nat) → List Char → Option (List Value × List Char)
  | 0, _ => none
  | fuel + 1, cs =>
    match skip cs with
    | ']' :: rest => some ([], rest)
    | cs =>
      match readValue fuel cs with
      | none => none
      | some (v, rest) =>
        match skip rest with
        | ',' :: rest => (readItems fuel rest).map fun (vs, rest) => (v :: vs, rest)
        | ']' :: rest => some ([v], rest)
        | _ => none

def readFields : (fuel : Nat) → List Char →
    Option (List (String × Value) × List Char)
  | 0, _ => none
  | fuel + 1, cs =>
    match skip cs with
    | '\x7d' :: rest => some ([], rest)
    | cs =>
      match readName cs with
      | none => none
      | some (name, rest) =>
        match skip rest with
        | ':' :: rest =>
          match readValue fuel (skip rest) with
          | none => none
          | some (v, rest) =>
            match skip rest with
            | ',' :: rest =>
              (readFields fuel rest).map fun (fs, rest) => ((name, v) :: fs, rest)
            | '\x7d' :: rest => some ([(name, v)], rest)
            | _ => none
        | _ => none

end

def read (s : String) : Option Value :=
  match readValue (2 * s.length + 2) (skip s.toList) with
  | some (v, rest) => if (skip rest).isEmpty then some v.canonical else none
  | none => none

end RuleBroker.Json5
