import RuleBroker.Binary64.Text
import RuleBroker.Logging.Pattern
import RuleBroker.Text.Alphanumeric
import RuleBroker.Text.Segments
import RuleBroker.Text.Digits
/-! Filters of log records: a text of directives, each with a level and what it is for:
targets, spans, fields. The directive that says so most closely decides. -/
namespace RuleBroker.Logging

inductive Level where
  | off
  | error
  | warn
  | info
  | debug
  | trace
  deriving DecidableEq, Repr

namespace Level

def all : List Level := [off, error, warn, info, debug, trace]

def name : Level → String
  | off => "OFF"
  | error => "ERROR"
  | warn => "WARN"
  | info => "INFO"
  | debug => "DEBUG"
  | trace => "TRACE"

def rank : Level → Nat
  | off => 0
  | error => 1
  | warn => 2
  | info => 3
  | debug => 4
  | trace => 5

def ofText? (cs : List Char) : Option Level :=
  match Text.readU64 cs with
  | some n => all.find? (·.rank = n)
  | none => all.find? (·.name.toList = cs.map Char.toUpper)

def orTrace (cs : List Char) : Option Level := if cs.isEmpty then some trace else ofText? cs

end Level

structure FieldTest where
  name : String
  tested : Bool
  deriving DecidableEq, Repr

namespace FieldTest

def isTest (cs : List Char) : Bool :=
  cs = "true".toList || cs = "false".toList || (Text.readI64 cs).isSome ||
    (Text.readU64 cs).isSome || (Binary64.read cs).isSome || Pattern.isPattern cs

def read (cs : List Char) : Option FieldTest :=
  if cs.isEmpty then none
  else match Text.pieces '=' cs with
    | name :: value :: _ => if isTest value then some ⟨String.ofList name, true⟩ else none
    | _ => some ⟨String.ofList cs, false⟩

end FieldTest

/-- A level for the targets that begin with a text, or for all of them. It may be for what
happens within a span only, and for what has a field. -/
structure Directive where
  target : Option (List Char) := none
  scope : Option (List Char) := none
  field : Option FieldTest := none
  level : Level := .trace
  deriving DecidableEq, Repr

namespace Directive

def mayStart (c : Char) : Bool :=
  c = '-' || c = ':' || c = '_' || Text.Alphanumeric.isAlphanumeric c

def slice (cs : List Char) (first last : Nat) : List Char := (cs.take last).drop first

def readEnd (cs : List Char) (d : Directive) (place : Nat) : List Char → Option Directive
  | [] => some d
  | '=' :: _ => (Level.orTrace (cs.drop (place + 1))).map fun level => { d with level }
  | _ => none

def readField (cs : List Char) (d : Directive) (place : Nat) (ahead : List Char) :
    Option Directive :=
  let size := (ahead.takeWhile (· ≠ '\x7d')).length
  match ahead.drop size with
  | '\x7d' :: ']' :: rest => do
    let test ← FieldTest.read (slice cs place (place + size))
    readEnd cs { d with field := some test } (place + size + 2) rest
  | _ => none

def readScope (cs : List Char) (d : Directive) (place : Nat) (ahead : List Char) :
    Option Directive :=
  let size := (ahead.takeWhile fun c => c ≠ ']' && c ≠ '\x7b').length
  let name := slice cs place (place + size)
  match ahead.drop size with
  | ']' :: rest => readEnd cs { d with scope := some name } (place + size + 1) rest
  | '\x7b' :: rest =>
    readField cs { d with scope := if name.isEmpty then none else some name }
      (place + size + 1) rest
  | _ => none

/-- Reads a directive. Blanks around it do not count when it is scanned, but places
found so are taken in the whole text. -/
def read (cs : List Char) : Option Directive :=
  match Text.trim cs with
  | [] => none
  | '[' :: ahead => readScope cs {} 1 ahead
  | c :: more =>
    let front := (c :: more).takeWhile fun c => c ≠ '=' && c ≠ '['
    let target := some (cs.take front.length)
    if !mayStart c then none
    else match (c :: more).drop front.length with
      | [] =>
        match Level.ofText? cs with
        | some level => some { level }
        | none => some { target := some cs }
      | '[' :: ahead => readScope cs { target } (front.length + 1) ahead
      | ahead => readEnd cs { target } front.length ahead

def isPlain (d : Directive) : Bool := d.scope.isNone && !(d.field.any (·.tested))

def closeness (d : Directive) : Nat :=
  match d.target with
  | none => 0
  | some t => t.length + 1

/-- Whether a directive decides in place of another one that fits: it has the longer
target, or with the same it alone asks for a field, or for one later in the order of names,
or for the same. -/
def overrides (d other : Directive) : Bool :=
  if d.closeness = other.closeness then
    match d.field, other.field with
    | none, some _ => false
    | some f, some g => !(f.name < g.name)
    | _, none => true
  else other.closeness < d.closeness

def fits (d : Directive) (target : String) (fields : List String) : Bool :=
  (match d.target with
    | none => true
    | some t => t.isPrefixOf target.toList) &&
  (match d.field with
    | none => true
    | some f => fields.contains f.name)

end Directive

structure Filter where
  directives : List Directive
  deriving DecidableEq, Repr

namespace Filter

def atLevel (level : Level) : Filter := ⟨[{ level }]⟩

def read (s : String) : Option Filter :=
  let pieces := (Text.pieces ',' s.toList).filter (· ≠ [])
  if pieces = [] then some (atLevel .error)
  else (pieces.mapM Directive.read).map Filter.mk

/-- The directive that decides about a record made outside of all spans: of the plain ones
that fit the one that overrides the others. -/
def deciding? (f : Filter) (target : String) (fields : List String) : Option Directive :=
  (f.directives.filter fun d => d.isPlain && d.fits target fields).foldl (fun held d =>
    match held with
    | none => some d
    | some other => if d.overrides other then some d else some other) none

def passes (f : Filter) (target : String) (fields : List String) (level : Level) : Bool :=
  match f.deciding? target fields with
  | none => false
  | some d => level.rank ≤ d.level.rank

end Filter
end RuleBroker.Logging
