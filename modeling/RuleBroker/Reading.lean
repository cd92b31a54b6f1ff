import RuleBroker.Binary64.Text
import RuleBroker.Decimal.Text
import RuleBroker.Text.Escaped
import RuleBroker.Value
/-! Reading typed data from values: what can be wrong with a value, and readers for
scalars. The first thing wrong, in the order in which a value stands, is reported. -/
namespace RuleBroker

inductive Wanted where
  | string
  | boolean
  | sequence
  | float
  | integer64
  | integer32
  | map
  | decimal
  | record (name : String)
  deriving DecidableEq, Repr

def Wanted.text : Wanted → String
  | .string => "a string"
  | .boolean => "a boolean"
  | .sequence => "a sequence"
  | .float => "f64"
  | .integer64 => "i64"
  | .integer32 => "i32"
  | .map => "a map"
  | .decimal => "a Decimal type representing a fixed-point number"
  | .record name => "struct " ++ name

inductive Found where
  | null
  | boolean (b : Bool)
  | integer (n : Int)
  | float (x : Binary64)
  | string (s : String)
  | sequence
  | map
  deriving DecidableEq, Repr

def Found.ofValue : Value → Found
  | .null => .null
  | .bool b => .boolean b
  | .int n => .integer n
  | .float x => .float x
  | .text s => .string s
  | .list _ => .sequence
  | .object _ => .map

def Found.text : Found → String
  | .null => "null"
  | .boolean b => "boolean `" ++ (if b then "true" else "false") ++ "`"
  | .integer n => "integer `" ++ String.ofList (Text.integer n) ++ "`"
  | .float x => "floating point `" ++ String.ofList x.documentText ++ "`"
  | .string s => "string " ++ Text.quoted s
  | .sequence => "sequence"
  | .map => "map"

inductive Mismatch where
  | missing (field : String)
  | duplicate (field : String)
  | type (found : Found) (wanted : Wanted)
  | value (found : Found) (wanted : Wanted)
  | tooShort (length : Nat) (record : String) (size : Nat)
  | tooLong (length : Nat)
  deriving DecidableEq, Repr

def countText (n : Nat) : String := String.ofList (Text.digits n)

def Mismatch.message : Mismatch → String
  | .missing field => "missing field `" ++ field ++ "`"
  | .duplicate field => "duplicate field `" ++ field ++ "`"
  | .type found wanted => "invalid type: " ++ found.text ++ ", expected " ++ wanted.text
  | .value found wanted => "invalid value: " ++ found.text ++ ", expected " ++ wanted.text
  | .tooShort length record size =>
    "invalid length " ++ countText length ++ ", expected struct " ++ record ++ " with " ++
      countText size ++ " elements"
  | .tooLong length =>
    "invalid length " ++ countText length ++ ", expected fewer elements in array"

namespace Reading

def wrongType (v : Value) (wanted : Wanted) : Except Mismatch α :=
  .error (.type (.ofValue v) wanted)

def text : Value → Except Mismatch String
  | .text s => .ok s
  | v => wrongType v .string

def boolean : Value → Except Mismatch Bool
  | .bool b => .ok b
  | v => wrongType v .boolean

def optional (read : Value → Except Mismatch α) : Value → Except Mismatch (Option α)
  | .null => .ok none
  | v => some <$> read v

def float : Value → Except Mismatch Binary64
  | .float x => .ok x
  | .int n => .ok (Binary64.ofInt n)
  | v => wrongType v .float

def integer (fits : Int → Bool) (wanted : Wanted) : Value → Except Mismatch Int
  | .int n => if fits n then .ok n else .error (.value (.integer n) wanted)
  | v => wrongType v wanted

def integer64 : Value → Except Mismatch Int := integer Text.fitsI64 .integer64

def orWrongValue (v : Value) : Option Decimal → Except Mismatch Decimal
  | some d => .ok d
  | none => .error (.value (.ofValue v) .decimal)

/-- An integer is exact; a float counts as the text of its shortest digits. -/
def decimal : Value → Except Mismatch Decimal
  | .int n => orWrongValue (.int n) (Decimal.ofInt? n)
  | .float x => orWrongValue (.float x) (Decimal.ofBinary64? x)
  | .text s => orWrongValue (.text s) (Decimal.ofText? s)
  | v => wrongType v .decimal

def items (read : Value → Except Mismatch α) : List Value → Except Mismatch (List α)
  | [] => .ok []
  | v :: rest => do
    let a ← read v
    let as ← items read rest
    .ok (a :: as)

def sequence (read : Value → Except Mismatch α) : Value → Except Mismatch (List α)
  | .list vs => items read vs
  | v => wrongType v .sequence

def place (field : String) (held : Option α) (read : Value → Except Mismatch α) (v : Value) :
    Except Mismatch (Option α) :=
  if held.isSome then .error (.duplicate field) else some <$> read v

def required (field : String) : Option α → Except Mismatch α
  | some a => .ok a
  | none => .error (.missing field)

end Reading
end RuleBroker
