import RuleBroker.Text.Segments
import RuleBroker.Text.Digits
import RuleBroker.Value
/-! Reading an INI document: keys with texts, some of them in sections. The answer is a
table with a table for every section, or nothing if the document is at fault. -/
namespace RuleBroker.Ini
open Text (isBlank)

def readEscape : List Char → Option (List Char × List Char)
  | '0' :: rest => some ([Char.ofNat 0], rest)
  | 'a' :: rest => some (['\x07'], rest)
  | 'b' :: rest => some (['\x08'], rest)
  | 't' :: rest => some (['\t'], rest)
  | 'r' :: rest => some (['\r'], rest)
  | 'n' :: rest => some (['\n'], rest)
  | 'x' :: rest => (Text.Radix.character 4 rest).map fun (c, rest) => ([c], rest)
  | '\n' :: rest => some ([], rest)
  | c :: rest => some ([c], rest)
  | [] => none

def readUntil (stops : Char → Bool) (endStops : Bool) :
    (fuel : Nat) → (sofar : List Char) → List Char → Option (List Char × List Char)
  | 0, _, _ => none
  | fuel + 1, sofar, cs =>
    match cs with
    | [] => if endStops then some (sofar.reverse, []) else none
    | c :: rest =>
      if stops c then some (sofar.reverse, cs)
      else if c = '\\' then
        (readEscape rest).bind fun (held, rest) =>
          readUntil stops endStops fuel (held ++ sofar) rest
      else readUntil stops endStops fuel (c :: sofar) rest

def readTo (stops : Char → Bool) (cs : List Char) : Option (List Char × List Char) :=
  readUntil stops false (cs.length + 1) [] cs

def readName (stops : Char → Bool) (cs : List Char) : Option (String × List Char) :=
  (readTo stops cs).map fun (name, rest) => (String.ofList (Text.trim name), rest)

def isBreak (c : Char) : Bool := c = '\n' || c = '\r'

def readLine (cs : List Char) : Option (List Char × List Char) :=
  (readUntil isBreak true (cs.length + 1) [] cs).map fun (text, rest) => (Text.trim text, rest)

def readText (cs : List Char) : Option (String × List Char) := do
  let cs := cs.dropWhile fun c => isBlank c && !isBreak c
  let (quoted, cs) ← match cs with
    | [] => some ([], [])
    | c :: rest =>
      if c = '"' ∨ c = '\'' then
        (readTo (· = c) rest).map fun (text, rest) => (text, rest.drop 1)
      else some ([], cs)
  let (text, rest) ← readLine cs
  some (String.ofList (quoted ++ text), rest)

structure State where
  front : List (String × Value) := []
  sections : List (String × List (String × Value)) := []

namespace State

def put (s : State) (key text : String) : State :=
  match s.sections.reverse with
  | [] => { s with front := s.front ++ [(key, .text text)] }
  | (name, held) :: earlier =>
    { s with sections := earlier.reverse ++ [(name, held ++ [(key, .text text)])] }

def toValue (s : State) : Value :=
  .object (Fields.ofList (s.front ++
    s.sections.map fun (name, held) => (name, .object (Fields.ofList held))))

end State

def readEntries : (fuel : Nat) → (lineStart : Bool) → State → List Char → Option State
  | 0, _, _, _ => none
  | fuel + 1, lineStart, s, cs =>
    match cs with
    | [] => some s
    | '[' :: rest => do
      let (name, rest) ← readName (· = ']') rest
      readEntries fuel false { s with sections := s.sections ++ [(name, [])] } (rest.drop 1)
    | c :: rest =>
      if isBlank c then readEntries fuel (c = '\n') s rest
      else if c = ';' ∨ c = '#' then
        if lineStart then readEntries fuel lineStart s (rest.dropWhile (· ≠ '\n')) else none
      else do
        let (key, rest) ← readName (fun c => c = '=' || c = ':') cs
        let (text, rest) ← readText (rest.drop 1)
        if key.isEmpty then none else readEntries fuel false (s.put key text) rest

def read (s : String) : Option Value :=
  (readEntries (s.length + 1) true {} s.toList).map State.toValue

end RuleBroker.Ini
