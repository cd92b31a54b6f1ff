import RuleBroker.Value
import RuleBroker.Binary64.Text
import RuleBroker.Text.Digits
/-! The scalars of a YAML document and their texts: plain, in quotes, or as a block. A text may go on
over several lines, which are folded: one line break stands for a blank, and of more the first does
not count. What a line says depends on the column where it starts, so a place has its line and column
beside the text that is left. -/
namespace RuleBroker.Yaml

def isGap (c : Char) : Bool := c = ' ' || c = '\t'

def startsBlank : List Char → Bool
  | [] => true
  | c :: _ => isGap c || c = '\n'

/-- Where reading stands. A place is fresh if nothing but gaps stands before it on its
line. The values named so far go with it, the latest first. -/
structure Cursor where
  rest : List Char
  line : Nat := 0
  column : Nat := 0
  fresh : Bool := true
  named : List (String × Value) := []

namespace Cursor

def next (c : Cursor) : Cursor :=
  match c.rest with
  | [] => c
  | '\n' :: rest => { c with rest, line := c.line + 1, column := 0, fresh := true }
  | _ :: rest => { c with rest, column := c.column + 1, fresh := false }

def forward : (count : Nat) → Cursor → Cursor
  | 0, c => c
  | count + 1, c => forward count c.next

def upTo (c : Cursor) (rest : List Char) : Cursor :=
  c.forward (c.rest.length - rest.length)

/-- Whether a tab may stand here in front of what a line says: not where it would count
as indentation, unless the line says nothing. -/
def tabFits (least : Int) (column : Nat) (behind : List Char) : Bool :=
  least ≤ column ||
    match behind.dropWhile isGap with
    | [] => true
    | c :: _ => c = '\n' || c = '#'

def skipFrom (c : Cursor) (least : Int) (comment gap : Bool) : (rest : List Char) →
    (line column : Nat) → (fresh : Bool) → Cursor
  | [], line, column, fresh => { c with rest := [], line, column, fresh }
  | d :: ds, line, column, fresh =>
    if d = '\n' then skipFrom c least false true ds (line + 1) 0 true
    else if comment then skipFrom c least true true ds line (column + 1) fresh
    else if d = '#' ∧ gap then skipFrom c least true true ds line (column + 1) fresh
    else if d = ' ' ∨ (d = '\t' ∧ (!fresh ∨ tabFits least column ds)) then
      skipFrom c least false true ds line (column + 1) fresh
    else { c with rest := d :: ds, line, column, fresh }

def skip (c : Cursor) (least : Int) : Cursor :=
  skipFrom c least false (c.column = 0) c.rest c.line c.column c.fresh

def atMark (c : Cursor) (mark : Char) : Bool :=
  c.column = 0 && c.rest.take 3 = [mark, mark, mark] && startsBlank (c.rest.drop 3)

def atEnd (c : Cursor) : Bool := c.rest.isEmpty || c.atMark '-' || c.atMark '.'

def atSign (c : Cursor) (sign : Char) : Bool :=
  match c.rest with
  | d :: ds => d = sign && startsBlank ds
  | [] => false

def isWithin (c : Cursor) (column : Int) : Bool := !c.atEnd && column < c.column

end Cursor

inductive Scalar where
  | quoted (text : List Char)
  | plain (text : List Char)
  deriving DecidableEq, Repr

namespace Scalar

def infinityWords : List String :=
  [".inf", ".Inf", ".INF", "+.inf", "+.Inf", "+.INF", "-.inf", "-.Inf", "-.INF"]

def nanWords : List String := [".nan", ".NaN", ".NAN"]

def readInBase (base : Nat) (cs : List Char) : Option Int :=
  let z : Option Int := match cs with
    | '-' :: ds => (Text.Radix.read? base ds).map fun n => -(n : Int)
    | '+' :: ds => (Text.Radix.read? base ds).map fun n => (n : Int)
    | ds => (Text.Radix.read? base ds).map fun n => (n : Int)
  z.filter Text.fitsI64

def readInteger (cs : List Char) : Option Int :=
  let marked : Option Int := match cs with
    | '0' :: 'x' :: ds => readInBase 16 ds
    | '0' :: 'o' :: ds => readInBase 8 ds
    | '+' :: ds => Text.readI64 ds
    | _ => none
  marked.or (Text.readI64 cs)

def isFloat (cs : List Char) : Bool :=
  (infinityWords ++ nanWords).contains (String.ofList cs) ||
    (cs.any Char.isDigit && (Binary64.read cs).isSome)

def float? (cs : List Char) : Option Value := (Binary64.read cs).map .float

def plainValue (cs : List Char) : Option Value :=
  match readInteger cs with
  | some n => some (.int n)
  | none =>
    if cs = ['~'] ∨ cs = "null".toList then some .null
    else if cs = "true".toList then some (.bool true)
    else if cs = "false".toList then some (.bool false)
    else if isFloat cs then float? cs
    else some (.text (String.ofList cs))

def taggedValue (tag cs : List Char) : Option Value :=
  if tag = "!!bool".toList then
    some (if cs = "true".toList then .bool true
      else if cs = "false".toList then .bool false else .null)
  else if tag = "!!int".toList then some (Value.ofOption .int (Text.readI64 cs))
  else if tag = "!!float".toList then if isFloat cs then float? cs else some .null
  else if tag = "!!null".toList then some .null
  else some (.text (String.ofList cs))

def value (tag : Option (List Char)) : Scalar → Option Value
  | quoted cs => some (.text (String.ofList cs))
  | plain cs =>
    match tag with
    | none => plainValue cs
    | some tag => taggedValue tag cs

/-- The text of a key: an integer in its decimal digits, anything else as written. A key
of nothing is none. -/
def keyText : Scalar → Option String
  | quoted cs => some (String.ofList cs)
  | plain cs =>
    match readInteger cs with
    | some n => some (String.ofList (Text.integer n))
    | none => if cs = ['~'] ∨ cs = "null".toList then none else some (String.ofList cs)

end Scalar

def isFlowMark (c : Char) : Bool :=
  c = ',' || c = '[' || c = ']' || c = '\x7b' || c = '\x7d'

def startsFlowMark : List Char → Bool
  | [] => false
  | c :: _ => isFlowMark c

def behindBreaks (count column : Nat) : List Char → Nat × Nat × List Char
  | [] => (count, column, [])
  | c :: cs =>
    if c = '\n' then behindBreaks (count + 1) 0 cs
    else if isGap c then behindBreaks count (column + 1) cs
    else (count, column, c :: cs)

def folded (count : Nat) : List Char :=
  if count = 1 then [' '] else List.replicate (count - 1) '\n'

namespace Quoted

def readEscape : List Char → Option (List Char × List Char)
  | '0' :: rest => some ([Char.ofNat 0], rest)
  | 'a' :: rest => some (['\x07'], rest)
  | 'b' :: rest => some (['\x08'], rest)
  | 't' :: rest => some (['\t'], rest)
  | '\t' :: rest => some (['\t'], rest)
  | 'n' :: rest => some (['\n'], rest)
  | 'v' :: rest => some (['\x0b'], rest)
  | 'f' :: rest => some (['\x0c'], rest)
  | 'r' :: rest => some (['\r'], rest)
  | 'e' :: rest => some (['\x1b'], rest)
  | ' ' :: rest => some ([' '], rest)
  | '"' :: rest => some (['"'], rest)
  | '/' :: rest => some (['/'], rest)
  | '\\' :: rest => some (['\\'], rest)
  | 'N' :: rest => some (['\u0085'], rest)
  | '_' :: rest => some (['\u00a0'], rest)
  | 'L' :: rest => some (['\u2028'], rest)
  | 'P' :: rest => some (['\u2029'], rest)
  | 'x' :: rest => (Text.Radix.character 2 rest).map fun (c, rest) => ([c], rest)
  | 'u' :: rest => (Text.Radix.character 4 rest).map fun (c, rest) => ([c], rest)
  | 'U' :: rest => (Text.Radix.character 8 rest).map fun (c, rest) => ([c], rest)
  | '\n' :: rest =>
    let (count, _, rest) := behindBreaks 0 0 rest
    some (List.replicate count '\n', rest)
  | _ => none

def readChars (quote : Char) :
    (fuel : Nat) → (sofar : List Char) → List Char → Option (List Char × List Char)
  | 0, _, _ => none
  | fuel + 1, sofar, cs =>
    let gaps := cs.takeWhile isGap
    match cs.drop gaps.length with
    | [] => none
    | '\n' :: rest =>
      let (count, _, rest) := behindBreaks 1 0 rest
      readChars quote fuel ((folded count).reverse ++ sofar) rest
    | c :: rest =>
      let sofar := gaps.reverse ++ sofar
      if c = quote then
        if quote = '\'' ∧ rest.head? = some '\'' then
          readChars quote fuel ('\'' :: sofar) (rest.drop 1)
        else some (sofar.reverse, rest)
      else if c = '\\' ∧ quote = '"' then
        (readEscape rest).bind fun (held, rest) =>
          readChars quote fuel (held.reverse ++ sofar) rest
      else readChars quote fuel (c :: sofar) rest

def read? : List Char → Option (List Char × List Char)
  | '"' :: rest => readChars '"' (rest.length + 1) [] rest
  | '\'' :: rest => readChars '\'' (rest.length + 1) [] rest
  | _ => none

end Quoted

namespace Plain

def signs : List Char :=
  ['#', '&', '*', '!', '|', '>', '\'', '"', '%', '@', '\x60', ' ', '\t', '\n']

def starts (inFlow : Bool) : List Char → Bool
  | [] => false
  | c :: cs =>
    if c = '-' ∨ c = '?' ∨ c = ':' then !(startsBlank cs || (inFlow && startsFlowMark cs))
    else !(isFlowMark c || signs.contains c)

def run (inFlow gap : Bool) : List Char → List Char
  | [] => []
  | c :: cs =>
    if c = '\n' ∨ (c = '#' ∧ gap) ∨ (inFlow ∧ isFlowMark c) then []
    else if c = ':' ∧ (startsBlank cs ∨ (inFlow ∧ startsFlowMark cs)) then []
    else c :: run inFlow (isGap c) cs

def readLine (inFlow gap : Bool) (cs : List Char) : List Char × List Char :=
  let text := ((run inFlow gap cs).reverse.dropWhile isGap).reverse
  (text, cs.drop text.length)

def readLines (inFlow : Bool) (least : Int) :
    (fuel : Nat) → (sofar : List Char) → List Char → List Char × List Char
  | 0, sofar, cs => (sofar, cs)
  | fuel + 1, sofar, cs =>
    let (count, column, below) := behindBreaks 0 0 cs
    let ended := column = 0 ∧ (Cursor.mk below 0 0 true []).atEnd
    let (text, rest) := readLine inFlow true below
    if count = 0 ∨ ended ∨ text = [] ∨ (!inFlow ∧ (column : Int) < least) then (sofar, cs)
    else readLines inFlow least fuel (sofar ++ folded count ++ text) rest

def read (inFlow : Bool) (least : Int) (cs : List Char) : List Char × List Char :=
  let (text, rest) := readLine inFlow false cs
  readLines inFlow least (rest.length + 1) text rest

end Plain

namespace Block

inductive Chomp where
  | clip
  | strip
  | keep
  deriving DecidableEq, Repr

structure Header where
  chomp : Chomp := .clip
  indent : Option Nat := none

def readHeader (cs : List Char) : Option (Header × List Char) :=
  let isSign := fun c : Char => c = '+' || c = '-' || c.isDigit
  let signs := cs.takeWhile isSign
  let header : Option Header := match signs with
    | [] => some {}
    | ['+'] => some { chomp := .keep }
    | ['-'] => some { chomp := .strip }
    | [d] => some { indent := some (d.toNat - '0'.toNat) }
    | ['+', d] => if d.isDigit then some ⟨.keep, some (d.toNat - '0'.toNat)⟩ else none
    | ['-', d] => if d.isDigit then some ⟨.strip, some (d.toNat - '0'.toNat)⟩ else none
    | [d, '+'] => some ⟨.keep, some (d.toNat - '0'.toNat)⟩
    | [d, '-'] => some ⟨.strip, some (d.toNat - '0'.toNat)⟩
    | _ => none
  let behind := cs.drop signs.length
  let rest := behind.dropWhile isGap
  let rest := match rest with
    | '#' :: _ => if rest.length < behind.length then rest.dropWhile (· ≠ '\n') else rest
    | rest => rest
  match header.filter (·.indent ≠ some 0), rest with
  | some header, [] => some (header, [])
  | some header, '\n' :: rest => some (header, rest)
  | _, _ => none

def foundIndent : (fuel : Nat) → List Char → Nat
  | 0, _ => 0
  | fuel + 1, cs =>
    let spaces := (cs.takeWhile (· = ' ')).length
    match cs.drop spaces with
    | '\n' :: rest => max spaces (foundIndent fuel rest)
    | _ => spaces

def readLines (indent : Nat) : (fuel : Nat) → List Char → List (List Char) × List Char
  | 0, cs => ([], cs)
  | fuel + 1, cs =>
    let line := cs.takeWhile (· ≠ '\n')
    let spaces := (line.takeWhile (· = ' ')).length
    if cs = [] ∨ (spaces < indent ∧ spaces < line.length) then ([], cs)
    else
      let (lines, rest) := readLines indent fuel (cs.drop (line.length + 1))
      (line.drop indent :: lines, rest)

/-- The text of a block so far: whether a line of it has ended, whether that line started
with a gap, and the empty lines behind it. -/
structure State where
  text : List Char := []
  ended : Bool := false
  gapped : Bool := false
  breaks : Nat := 0

/-- Puts a line behind the earlier ones. In a folded block a line break between lines that
do not start with a gap is folded. -/
def State.add (isFolded : Bool) (s : State) (line : List Char) : State :=
  match line with
  | [] => { s with breaks := s.breaks + 1 }
  | c :: _ =>
    let between :=
      if !s.ended then []
      else if isFolded ∧ !s.gapped ∧ !isGap c then (if s.breaks = 0 then [' '] else [])
      else ['\n']
    { text := s.text ++ between ++ List.replicate s.breaks '\n' ++ line, ended := true,
      gapped := isGap c }

def State.close (s : State) : Chomp → List Char
  | .strip => s.text
  | .clip => s.text ++ (if s.ended then ['\n'] else [])
  | .keep => s.text ++ (if s.ended then ['\n'] else []) ++ List.replicate s.breaks '\n'

def read (isFolded : Bool) (outer : Int) (cs : List Char) : Option (List Char × List Char) :=
  (readHeader cs).map fun (header, body) =>
    let indent := match header.indent with
      | some n => outer.toNat + n
      | none => max (foundIndent (body.length + 1) body) (outer + 1).toNat
    let (lines, rest) := readLines indent (body.length + 1) body
    ((lines.foldl (State.add isFolded) {}).close header.chomp, rest)

end Block
end RuleBroker.Yaml
