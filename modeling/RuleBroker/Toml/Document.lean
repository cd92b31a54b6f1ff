import RuleBroker.Value
import RuleBroker.Toml.Scalar
/-! Reading a TOML document: its lines set keys and open tables, one after the other. What made a
table decides what may still be done to it, so that nothing is defined twice. The answer is the value
of the whole document, or nothing if any line is at fault. -/
namespace RuleBroker.Toml

inductive Maker where
  | header
  | passing
  | dotted
  deriving DecidableEq, Repr

/-- What stands under a key. A series holds the tables that double headers opened; the
last one is open to further lines. -/
inductive Node where
  | value (v : Value)
  | table (maker : Maker) (fields : List (String × Node))
  | series (tables : List (List (String × Node)))

namespace Node

mutual

def toValue : Node → Value
  | .value v => v
  | .table _ fields => .object (fieldValues fields)
  | .series tables => .list (tableValues tables)

def fieldValues : List (String × Node) → List (String × Value)
  | [] => []
  | (name, n) :: rest => (name, toValue n) :: fieldValues rest

def tableValues : List (List (String × Node)) → List Value
  | [] => []
  | fields :: rest => .object (fieldValues fields) :: tableValues rest

end

end Node

structure Table where
  maker : Maker := .header
  fields : List (String × Node) := []

namespace Table

def node (t : Table) : Node := .table t.maker t.fields

def put (t : Table) (name : String) (n : Node) : Table :=
  { t with fields := Fields.put name n t.fields }

/-- Changes the table at the end of a path. Tables that are not there are made; of a
series the last table is taken. A dotted key leads into no table with its own header. -/
def change (maker : Maker) (edit : Table → Option Table) : List String → Table → Option Table
  | [], t => edit t
  | name :: path, t =>
    match Fields.find name t.fields with
    | none => (change maker edit path { maker }).map fun below => t.put name below.node
    | some (.table made fields) =>
      if maker = .dotted ∧ made = .header then none
      else (change maker edit path { maker := made, fields }).map fun below =>
        t.put name below.node
    | some (.series tables) =>
      match tables.getLast? with
      | none => none
      | some fields => (change maker edit path { fields }).map fun below =>
          t.put name (.series (tables.dropLast ++ [below.fields]))
    | some (.value _) => none

def openNamed (name : String) (t : Table) : Option Table :=
  match Fields.find name t.fields with
  | none => some (t.put name (.table .header []))
  | some (.table .passing fields) => some (t.put name (.table .header fields))
  | _ => none

def openNext (name : String) (t : Table) : Option Table :=
  match Fields.find name t.fields with
  | none => some (t.put name (.series [[]]))
  | some (.series tables) => some (t.put name (.series (tables ++ [[]])))
  | _ => none

def setNew (name : String) (v : Value) (t : Table) : Option Table :=
  match Fields.find name t.fields with
  | none => some (t.put name (.value v))
  | some _ => none

def lastOf : List String → Option (List String × String)
  | [] => none
  | [name] => some ([], name)
  | name :: rest => (lastOf rest).map fun (front, last) => (name :: front, last)

def withHeader (t : Table) (path : List String) : Option Table :=
  (lastOf path).bind fun (front, name) => t.change .passing (openNamed name) front

def withSeriesHeader (t : Table) (path : List String) : Option Table :=
  (lastOf path).bind fun (front, name) => t.change .passing (openNext name) front

/-- A line with a key and a value. The pieces in front of a dotted key's last one lead
through tables that dotted keys made. -/
def withKey (t : Table) (key : List String) (v : Value) : Option Table :=
  (lastOf key).bind fun (front, name) =>
    t.change .dotted (fun below =>
      if front ≠ [] ∧ below.maker ≠ .dotted then none else setNew name v below) front

def withKeyUnder (t : Table) (header key : List String) (v : Value) : Option Table :=
  t.change .passing (fun below => below.withKey key v) header

end Table

namespace Document
open Quoted (behindBreak? isControl)

def skipGaps (cs : List Char) : List Char := cs.dropWhile fun c => c = ' ' || c = '\t'

def skipComment : List Char → List Char
  | '#' :: rest => rest.dropWhile fun c => !isControl c
  | cs => cs

def endLine (cs : List Char) : Option (List Char) :=
  match skipComment (skipGaps cs) with
  | [] => some []
  | cs => behindBreak? cs

def skipLines : (fuel : Nat) → List Char → List Char
  | 0, cs => cs
  | fuel + 1, cs =>
    let cs := skipComment (skipGaps cs)
    match behindBreak? cs with
    | some below => skipLines fuel below
    | none => cs

def skip (cs : List Char) : List Char := skipLines (cs.length + 1) cs

def isBare (c : Char) : Bool := c.isAlphanum || c = '_' || c = '-'

def readPiece (cs : List Char) : Option (String × List Char) :=
  let word := cs.takeWhile isBare
  if word.isEmpty then
    (Quoted.readShort? cs).map fun (piece, rest) => (String.ofList piece, rest)
  else some (String.ofList word, cs.dropWhile isBare)

def readKey : (fuel : Nat) → List Char → Option (List String × List Char)
  | 0, _ => none
  | fuel + 1, cs =>
    (readPiece (skipGaps cs)).bind fun (piece, rest) =>
      match skipGaps rest with
      | '.' :: rest => (readKey fuel rest).map fun (pieces, rest) => (piece :: pieces, rest)
      | rest => some ([piece], rest)

def nestingLimit : Nat := 80

def pieceLimit : Nat := 80

def readPath (cs : List Char) : Option (List String × List Char) :=
  (readKey (cs.length + 1) cs).filter fun (path, _) => path.length ≤ pieceLimit

mutual

def readValue : (fuel : Nat) → (limit : Nat) → List Char → Option (Value × List Char)
  | 0, _, _ => none
  | fuel + 1, limit, cs =>
    match cs with
    | '[' :: rest =>
      if limit = 0 then none
      else (readItems fuel (limit - 1) rest).map fun (items, rest) => (.list items, rest)
    | '\x7b' :: rest =>
      if limit = 0 then none
      else (readPairs fuel (limit - 1) { maker := .dotted } rest).map fun (table, rest) =>
        (table.node.toValue, rest)
    | c :: _ =>
      if c = '"' ∨ c = '\'' then
        (Quoted.read? cs).map fun (s, rest) => (.text (String.ofList s), rest)
      else
        let (text, rest) := Scalar.spanOf cs
        (Scalar.read text).map (·, rest)
    | [] => none

def readItems : (fuel : Nat) → (limit : Nat) → List Char → Option (List Value × List Char)
  | 0, _, _ => none
  | fuel + 1, limit, cs =>
    match skip cs with
    | ']' :: rest => some ([], rest)
    | cs =>
      match readValue fuel limit cs with
      | none => none
      | some (v, rest) =>
        match skip rest with
        | ',' :: rest => (readItems fuel limit rest).map fun (vs, rest) => (v :: vs, rest)
        | ']' :: rest => some ([v], rest)
        | _ => none

def readPairs : (fuel : Nat) → (limit : Nat) → Table → List Char → Option (Table × List Char)
  | 0, _, _, _ => none
  | fuel + 1, limit, table, cs =>
    match skip cs with
    | '\x7d' :: rest => some (table, rest)
    | cs =>
      match readPath cs with
      | none => none
      | some (key, rest) =>
        match skip rest with
        | '=' :: rest =>
          match readValue fuel limit (skip rest) with
          | none => none
          | some (v, rest) =>
            match table.withKey key v with
            | none => none
            | some table =>
              match skip rest with
              | ',' :: rest => readPairs fuel limit table rest
              | '\x7d' :: rest => some (table, rest)
              | _ => none
        | _ => none

end

structure State where
  root : Table := {}
  header : List String := []

def readHeader (close : List Char) (cs : List Char) : Option (List String × List Char) :=
  match readPath cs with
  | some (path, rest) =>
    if rest.take close.length = close then some (path, rest.drop close.length) else none
  | none => none

def readLine (s : State) (cs : List Char) : Option (State × List Char) :=
  match cs with
  | '[' :: '[' :: rest => do
    let (path, rest) ← readHeader [']', ']'] rest
    some ({ root := ← s.root.withSeriesHeader path, header := path }, rest)
  | '[' :: rest => do
    let (path, rest) ← readHeader [']'] rest
    some ({ root := ← s.root.withHeader path, header := path }, rest)
  | cs =>
    match readPath cs with
    | some (key, '=' :: rest) => do
      let (v, rest) ← readValue (2 * rest.length + 2) nestingLimit (skipGaps rest)
      some ({ s with root := ← s.root.withKeyUnder s.header key v }, rest)
    | _ => none

def readLines : (fuel : Nat) → State → List Char → Option State
  | 0, _, _ => none
  | fuel + 1, s, cs =>
    match skip cs with
    | [] => some s
    | cs => do
      let (s, rest) ← readLine s cs
      readLines fuel s (← endLine rest)

end Document

def read (s : String) : Option Value :=
  let cs := match s.toList with
    | '\ufeff' :: cs => cs
    | cs => cs
  (Document.readLines (cs.length + 1) {} cs).map fun s => s.root.node.toValue

end RuleBroker.Toml
