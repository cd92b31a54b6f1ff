import RuleBroker.RuleError
import RuleBroker.Text.Digits
import RuleBroker.Text.Segments
import RuleBroker.Value
import RuleBroker.Binary64.Text
import RuleBroker.Decimal.Text
/-! Typed records, their projection to views, and look-up by path in a view. Parts are projected in
order and the first that has no structured form fails the whole record. A path is cut at its points;
each piece is a field name of an object or an index of a list. -/
namespace RuleBroker

namespace Value

/-- One step into a value. An index is an unsigned number, a plus sign allowed. -/
def step (v : Value) (piece : List Char) : Option Value :=
  match v with
  | .object fields => Fields.find (String.ofList piece) fields
  | .list items => (Text.readU64 piece).bind fun i => items[i]?
  | _ => none

def descend (v : Value) (pieces : List (List Char)) : Option Value := pieces.foldlM step v

def at? (v : Value) (path : String) : Option Value :=
  v.descend (Text.pieces '.' path.toList)

theorem descendAppend (v : Value) (ps qs : List (List Char)) :
    v.descend (ps ++ qs) = (v.descend ps).bind fun w => w.descend qs := by
  simp only [descend, List.foldlM_append]
  rfl

end Value

structure RecordView where
  data : Value := .null

def RecordView.field? (view : RecordView) (path : String) : Option Value := view.data.at? path

inductive Shape where
  | plain (v : Value)
  | boolean (b : Bool)
  | integer (n : Int)
  | wide (n : Int)
  | float32 (bits : BitVec 32)
  | float64 (x : Binary64)
  | character (c : Char)
  | string (s : String)
  | decimal (d : Decimal)
  | bytes (bs : List Nat)
  | absent
  | present (s : Shape)
  | unit
  | sequence (items : List Shape)
  | map (entries : List (Shape × Shape))
  | variant (name : String)
  | wrapped (name : String) (s : Shape)
  | failing (fault : String)
  deriving Inhabited

namespace Shape

inductive Fault where
  | wideInteger
  | floatKey
  | keyKind
  | own (fault : String)
  deriving DecidableEq, Repr

def Fault.message : Fault → String
  | .wideInteger => "number out of range"
  | .floatKey => "float key must be finite (got NaN or +/-inf)"
  | .keyKind => "key must be a string"
  | .own fault => (Complaint.ofText fault).message

def integerText (n : Int) : String := String.ofList (Text.integer n)

def finiteText (x : Binary64) (text : List Char) : Except Fault String :=
  if x.isFinite then .ok (String.ofList text) else .error .floatKey

def truthText (b : Bool) : String := if b then "true" else "false"

def key : Shape → Except Fault String
  | .string s => .ok s
  | .integer n => .ok (integerText n)
  | .wide n => .ok (integerText n)
  | .boolean b => .ok (truthText b)
  | .character c => .ok (String.ofList [c])
  | .variant name => .ok name
  | .decimal d => .ok d.toText
  | .float64 x => finiteText x x.documentText
  | .float32 bits => finiteText (.ofBinary32 bits) (Binary64.documentText32 bits)
  | .plain (.text s) => .ok s
  | .plain (.int n) => .ok (integerText n)
  | .plain (.bool b) => .ok (truthText b)
  | .plain (.float x) => finiteText x x.documentText
  | .failing fault => .error (.own fault)
  | _ => .error .keyKind

mutual

def project : Shape → Except Fault Value
  | .plain v => .ok v
  | .boolean b => .ok (.bool b)
  | .integer n => .ok (.int n)
  | .wide n =>
    if Text.fitsU64 n || Text.fitsI64 n then .ok (.int n) else .error .wideInteger
  | .float32 bits => .ok (.ofFloat (.ofBinary32 bits))
  | .float64 x => .ok (.ofFloat x)
  | .character c => .ok (.text (String.ofList [c]))
  | .string s => .ok (.text s)
  | .decimal d => .ok (.text d.toText)
  | .bytes bs => .ok (.list (bs.map fun (b : Nat) => .int b))
  | .absent => .ok .null
  | .present s => project s
  | .unit => .ok .null
  | .sequence items => do .ok (.list (← projectAll items))
  | .map entries => do .ok (.object (Fields.ofList (← projectEntries entries)))
  | .variant name => .ok (.text name)
  | .wrapped name s => do .ok (.object [(name, ← project s)])
  | .failing fault => .error (.own fault)

def projectAll : List Shape → Except Fault (List Value)
  | [] => .ok []
  | s :: rest => do
    let v ← project s
    let vs ← projectAll rest
    .ok (v :: vs)

def projectEntries : List (Shape × Shape) → Except Fault (List (String × Value))
  | [] => .ok []
  | (k, s) :: rest => do
    let name ← key k
    let v ← project s
    let fields ← projectEntries rest
    .ok ((name, v) :: fields)

end

end Shape

structure Record where
  id : String
  descriptor : String
  shape : Shape

def Record.view (r : Record) : Except RuleError RecordView :=
  match r.shape.project with
  | .ok data => .ok { data }
  | .error fault => .error (.serialization r.id fault.message)

end RuleBroker
