import RuleBroker.Text.Alphanumeric
import RuleBroker.Text.Digits
/-! Which texts are patterns for the values of fields: characters, classes of them in
brackets, groups, alternatives and repetitions. Classes by name are not among them, nor is
a count of repetitions. -/
namespace RuleBroker.Logging.Pattern
open Text.Radix (character)

def escaped : List Char → Option (Char × List Char)
  | 'x' :: cs => character 2 cs
  | 'u' :: cs => character 4 cs
  | 'U' :: cs => character 8 cs
  | 'a' :: cs => some ('\x07', cs)
  | 'f' :: cs => some ('\x0c', cs)
  | 'n' :: cs => some ('\n', cs)
  | 'r' :: cs => some ('\r', cs)
  | 't' :: cs => some ('\t', cs)
  | 'v' :: cs => some ('\x0b', cs)
  | c :: cs =>
    if c.isAlphanum ∨ c = '<' ∨ c = '>' ∨ 127 < c.toNat then none else some (c, cs)
  | [] => none

def member : List Char → Option (Char × List Char)
  | '\\' :: cs => escaped cs
  | c :: cs => some (c, cs)
  | [] => none

/-- The text behind the opening of a class: a caret, hyphens, and a bracket that cannot
close a class with nothing in it. -/
def behindOpening (cs : List Char) : List Char :=
  let cs := match cs with
    | '^' :: cs => cs
    | cs => cs
  match cs with
  | '-' :: _ => cs.dropWhile (· = '-')
  | ']' :: cs => cs
  | cs => cs

def classNames : List String :=
  ["alnum", "alpha", "ascii", "blank", "cntrl", "digit", "graph", "lower", "print", "punct",
    "space", "upper", "word", "xdigit"]

def behindNamed? (cs : List Char) : Option (List Char) :=
  match cs with
  | ':' :: cs =>
    let cs := match cs with
      | '^' :: cs => cs
      | cs => cs
    let name := cs.takeWhile (· ≠ ':')
    match cs.drop name.length with
    | ':' :: ']' :: rest => if classNames.contains (String.ofList name) then some rest else none
    | _ => none
  | _ => none

def startsRange : List Char → Bool
  | '-' :: ']' :: _ => false
  | '-' :: '-' :: _ => false
  | '-' :: _ => true
  | _ => false

def behindClass? : (fuel depth : Nat) → List Char → Option (List Char)
  | 0, _, _ => none
  | fuel + 1, depth, cs =>
    match cs with
    | ']' :: rest => if depth = 0 then some rest else behindClass? fuel (depth - 1) rest
    | '[' :: rest =>
      match behindNamed? rest with
      | some rest => behindClass? fuel depth rest
      | none => behindClass? fuel (depth + 1) (behindOpening rest)
    | '&' :: '&' :: rest => behindClass? fuel depth rest
    | '-' :: '-' :: rest => behindClass? fuel depth rest
    | '~' :: '~' :: rest => behindClass? fuel depth rest
    | cs =>
      match member cs with
      | none => none
      | some (first, rest) =>
        if startsRange rest then
          match member (rest.drop 1) with
          | some (last, rest) => if first ≤ last then behindClass? fuel depth rest else none
          | none => none
        else behindClass? fuel depth rest

def groupName? (cs : List Char) : Option (String × List Char) :=
  let mayStart := fun c => c = '_' || Text.Alphanumeric.isAlphanumeric c && !c.isDigit
  let mayFollow := fun c =>
    c = '_' || c = '.' || c = '[' || c = ']' || Text.Alphanumeric.isAlphanumeric c
  let name := cs.takeWhile (· ≠ '>')
  match name, cs.drop name.length with
  | c :: more, '>' :: rest =>
    if mayStart c ∧ more.all mayFollow then some (String.ofList name, rest) else none
  | _, _ => none

def areFlags (cs : List Char) : Bool :=
  let on := cs.takeWhile (· ≠ '-')
  let off := (cs.drop on.length).drop 1
  let known := fun c => ['m', 's', 'U', 'u', 'R', 'x'].contains c
  on.all known && off.all (fun c => known c || c = 'i') && (on ++ off).Nodup &&
    (off ≠ [] || on.length = cs.length) && cs ≠ []

inductive Opening where
  | group (name : Option String) (rest : List Char)
  | flags (rest : List Char)

def opening? : List Char → Option Opening
  | ':' :: rest => some (.group none rest)
  | 'P' :: '<' :: rest => (groupName? rest).map fun (name, rest) => .group (some name) rest
  | '<' :: rest => (groupName? rest).map fun (name, rest) => .group (some name) rest
  | cs =>
    let flags := cs.takeWhile fun c => c ≠ ')' && c ≠ ':'
    if !areFlags flags then none
    else match cs.drop flags.length with
      | ':' :: rest => some (.group none rest)
      | ')' :: rest => some (.flags rest)
      | _ => none

structure State where
  depth : Nat := 0
  names : List String := []
  repeatable : Bool := false

def check : (fuel : Nat) → State → List Char → Bool
  | 0, _, _ => false
  | fuel + 1, s, cs =>
    match cs with
    | [] => s.depth = 0
    | '(' :: '?' :: rest =>
      match opening? rest with
      | none => false
      | some (.flags rest) => check fuel { s with repeatable := false } rest
      | some (.group none rest) =>
        check fuel { s with depth := s.depth + 1, repeatable := false } rest
      | some (.group (some name) rest) =>
        !s.names.contains name &&
          check fuel ⟨s.depth + 1, name :: s.names, false⟩ rest
    | '(' :: rest => check fuel { s with depth := s.depth + 1, repeatable := false } rest
    | ')' :: rest =>
      s.depth ≠ 0 && check fuel { s with depth := s.depth - 1, repeatable := true } rest
    | '|' :: rest => check fuel { s with repeatable := false } rest
    | '\x7b' :: _ => false
    | '[' :: rest =>
      match behindClass? (rest.length + 1) 0 (behindOpening rest) with
      | some rest => check fuel { s with repeatable := true } rest
      | none => false
    | '\\' :: 'A' :: rest => check fuel { s with repeatable := true } rest
    | '\\' :: 'z' :: rest => check fuel { s with repeatable := true } rest
    | '\\' :: rest =>
      match escaped rest with
      | some (_, rest) => check fuel { s with repeatable := true } rest
      | none => false
    | c :: rest =>
      if c = '*' ∨ c = '+' ∨ c = '?' then s.repeatable && check fuel s rest
      else check fuel { s with repeatable := true } rest

def isPattern (cs : List Char) : Bool := check (cs.length + 1) {} cs

end RuleBroker.Logging.Pattern
