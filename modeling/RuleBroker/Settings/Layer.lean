import RuleBroker.Text.Digits
import RuleBroker.Text.Segments
import RuleBroker.Value
import RuleBroker.Binary64.Text
/-! Layers of settings, one put over the other, and the layer of environment variables. A table goes
into a table key by key; any other value takes the place of what was there. Names of variables count
in lower case; two underscores in one stand for the point between a section and a key. -/
namespace RuleBroker

namespace Value

def heldFields : Value → List (String × Value)
  | .object fields => fields
  | _ => []

mutual

def overlay (below : Value) : Value → Value
  | .object fields => .object (overlayFields below.heldFields fields)
  | v => v

def overlayFields (held : List (String × Value)) :
    List (String × Value) → List (String × Value)
  | [] => held
  | (name, v) :: rest =>
    overlayFields (Fields.put name (overlay ((Fields.find name held).getD .null) v) held) rest

end

end Value

namespace Settings

/-- A step of a key: into a table by name, or into a list by place. A negative place
counts from the end. -/
inductive Step where
  | named (name : String)
  | placed (index : Int)
  deriving DecidableEq, Repr

namespace Key

def isWord (c : Char) : Bool := c.isAlphanum || c = '_' || c = '-'

def isGap (c : Char) : Bool := c = ' ' || c = '\t'

def readPlace (cs : List Char) : Option Int :=
  match ((cs.dropWhile isGap).reverse.dropWhile isGap).reverse with
  | '-' :: ds => (Text.readNat ds).map fun n => -(n : Int)
  | ds => (Text.readNat ds).map fun n => (n : Int)

def readSteps : (fuel : Nat) → List Char → Option (List Step)
  | 0, _ => none
  | _, [] => some []
  | fuel + 1, '.' :: cs =>
    let name := cs.takeWhile isWord
    if name.isEmpty then none
    else (readSteps fuel (cs.dropWhile isWord)).map (.named (String.ofList name) :: ·)
  | fuel + 1, '[' :: cs =>
    match (readPlace (cs.takeWhile (· ≠ ']'))).filter Text.fitsI64, cs.dropWhile (· ≠ ']') with
    | some n, ']' :: rest => (readSteps fuel rest).map (.placed n :: ·)
    | _, _ => none
  | _, _ => none

/-- The steps of a key. A key that does not read as steps is one name as a whole. -/
def steps (key : String) : List Step :=
  let cs := key.toList
  let first := cs.takeWhile isWord
  match (if first.isEmpty then none else readSteps (cs.length + 1) (cs.dropWhile isWord)) with
  | some more => .named (String.ofList first) :: more
  | none => [.named key]

end Key

def reach (items : List Value) (index : Int) : List Value × Nat :=
  let size := items.length
  if 0 ≤ index then (items ++ List.replicate (index.toNat + 1 - size) .null, index.toNat)
  else if index.natAbs ≤ size then (items, size - index.natAbs)
  else (List.replicate (index.natAbs - size) .null ++ items, 0)

/-- Puts a value over what stands at the end of the steps. What stands on the way and
cannot be stepped into is replaced. -/
def assign (v : Value) : List Step → Value → Value
  | [], below => below.overlay v
  | .named name :: rest, below =>
    let held := below.heldFields
    .object (Fields.put name (assign v rest ((Fields.find name held).getD .null)) held)
  | .placed index :: rest, below =>
    let (items, i) := reach (match below with | .list items => items | _ => []) index
    .list (items.set i (assign v rest (items[i]?.getD .null)))

structure Layer where
  entries : List (String × Value) := []

namespace Layer

def ofValue (v : Value) : Layer := ⟨v.heldFields⟩

def onto (below : Value) (layer : Layer) : Value :=
  layer.entries.foldl (fun held (key, v) => assign v (Key.steps key) held) below

def merge (layers : List Layer) : Value := layers.foldl onto (.object [])

end Layer

abbrev Variables := List (String × String)

namespace Variables

def namePrefix : String := "rules_"

/-- The lower case of a letter, as far as it can be a letter of a setting's name: those of
ASCII, and the Kelvin sign. -/
def lower (c : Char) : Char := if c = '\u212a' then 'k' else c.toLower

def pointed : List Char → List Char
  | '_' :: '_' :: cs => '.' :: pointed cs
  | c :: cs => c :: pointed cs
  | [] => []

def key? (name : String) : Option String :=
  let cs := name.toList.map lower
  let front := namePrefix.toList
  if cs.take front.length = front then some (String.ofList (pointed (cs.drop front.length)))
  else none

def listKey : String := "broker.workflows"

/-- What a text stands for: a truth value in any case, an integer, a float, a list if the
key takes one, and otherwise the text itself. -/
def valueOf (key text : String) : Value :=
  let cs := text.toList
  if cs.map Char.toLower = "true".toList then .bool true
  else if cs.map Char.toLower = "false".toList then .bool false
  else match Text.readI64 cs with
    | some n => .int n
    | none =>
      match Binary64.read cs with
      | some x => .float x
      | none => if key = listKey then .list ((Text.segments ',' text).map .text) else .text text

def layer (env : Variables) : Layer :=
  ⟨Fields.ofList (env.filterMap fun (name, text) =>
    (key? name).map fun key => (key, valueOf key text))⟩

def get? (env : Variables) (name : String) : Option String :=
  env.reverse.lookup name

end Variables
end Settings
end RuleBroker
