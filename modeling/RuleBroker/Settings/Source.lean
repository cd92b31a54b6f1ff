import RuleBroker.Ini
import RuleBroker.Json5
import RuleBroker.Ron
import RuleBroker.Settings.Layer
import RuleBroker.Store.FileTree
import RuleBroker.Store.Files
import RuleBroker.Toml.Document
import RuleBroker.Yaml.Document
/-! Files with settings: how one is found, in which format it is, and what layer it brings. Their
bytes may be damaged: those that begin a character without ending it become one replacement character
together, any other stray byte one of its own. -/
namespace RuleBroker

namespace Text

def replacement : Char := '\ufffd'

/-- A character of which bytes are still to come: how many, what its bits are so far,
and between which bounds the next byte has to lie. -/
structure Unfinished where
  missing : Nat
  bits : Nat
  lo : Nat := 0x80
  hi : Nat := 0xBF
  deriving DecidableEq, Repr

/-- What a first byte begins. The bounds of the second byte leave out what is longer
than need be, surrogates, and what lies past the last plane. -/
inductive Beginning where
  | character (c : Char)
  | unfinished (u : Unfinished)
  | stray
  deriving DecidableEq, Repr

def beginning (b : Nat) : Beginning :=
  if b < 0x80 then .character (Char.ofNat b)
  else if b < 0xC2 then .stray
  else if b < 0xE0 then .unfinished { missing := 1, bits := b % 32 }
  else if b = 0xE0 then .unfinished { missing := 2, bits := 0, lo := 0xA0 }
  else if b = 0xED then .unfinished { missing := 2, bits := 13, hi := 0x9F }
  else if b < 0xF0 then .unfinished { missing := 2, bits := b % 16 }
  else if b = 0xF0 then .unfinished { missing := 3, bits := 0, lo := 0x90 }
  else if b < 0xF4 then .unfinished { missing := 3, bits := b % 8 }
  else if b = 0xF4 then .unfinished { missing := 3, bits := 4, hi := 0x8F }
  else .stray

def begin (b : Nat) : List Char × Option Unfinished :=
  match beginning b with
  | .character c => ([c], none)
  | .unfinished u => ([], some u)
  | .stray => ([replacement], none)

def next (u : Option Unfinished) (b : Nat) : List Char × Option Unfinished :=
  match u with
  | none => begin b
  | some u =>
    if u.lo ≤ b ∧ b ≤ u.hi then
      let bits := u.bits * 64 + b % 64
      if u.missing = 1 then ([Char.ofNat bits], none)
      else ([], some { missing := u.missing - 1, bits })
    else
      let (cs, v) := begin b
      (replacement :: cs, v)

def decodeFrom (u : Option Unfinished) : List UInt8 → List Char
  | [] => if u.isSome then [replacement] else []
  | b :: bs =>
    let (cs, v) := next u b.toNat
    cs ++ decodeFrom v bs

def decode (bytes : List UInt8) : List Char := decodeFrom none bytes

end Text

namespace Settings

inductive Format where
  | toml
  | json
  | yaml
  | ini
  | ron
  | json5
  deriving DecidableEq, Repr

namespace Format

def all : List Format := [toml, json, yaml, ini, ron, json5]

def extensions : Format → List String
  | toml => [".toml"]
  | json => [".json"]
  | yaml => [".yaml", ".yml"]
  | ini => [".ini"]
  | ron => [".ron"]
  | json5 => [".json5"]

mutual

def narrowed : Value → Value
  | .int n => if Text.fitsI64 n then .int n else .float (Binary64.ofInt n)
  | .list items => .list (narrowedItems items)
  | .object fields => .object (narrowedFields fields)
  | v => v

def narrowedItems : List Value → List Value
  | [] => []
  | v :: rest => narrowed v :: narrowedItems rest

def narrowedFields : List (String × Value) → List (String × Value)
  | [] => []
  | (name, v) :: rest => (name, narrowed v) :: narrowedFields rest

end

def read (text : String) : Format → Option Value
  | toml => Toml.read text
  | json => (Value.ofText? text).map fun v => narrowed v.canonical
  | yaml => Yaml.read text
  | ini => Ini.read text
  | ron => Ron.read text
  | json5 => Json5.read text

end Format

structure SourceFile where
  path : String
  format : Format
  content : List UInt8

namespace SourceFile

def isNameless (path : String) : Bool := path.endsWith "/.toml" || path = ".toml"

/-- The file of a name in a directory. If there is none, one with a further extension takes
its place; a name of nothing but an extension stands for no file. -/
def find? (fs : FileSystem) (directory name : String) : Option SourceFile :=
  let path := String.ofList (Path.join directory.toList (name ++ ".toml").toList)
  match fs.file? path with
  | some content => if isNameless path then none else some ⟨path, .toml, content⟩
  | none =>
    Format.all.findSome? fun format => format.extensions.findSome? fun extension =>
      (fs.file? (path ++ extension)).map fun content => ⟨path ++ extension, format, content⟩

def text (f : SourceFile) : String :=
  match Text.decode f.content with
  | '\ufeff' :: cs => String.ofList cs
  | cs => String.ofList cs

def layer? (f : SourceFile) : Option Layer :=
  match f.format.read f.text with
  | some (.object fields) => some ⟨fields⟩
  | _ => none

end SourceFile
end Settings
end RuleBroker
