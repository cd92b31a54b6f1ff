import RuleBroker.Binary64
import RuleBroker.Fields
import RuleBroker.Binary64.Text
/-! Structured values, what documents, records and outputs are made of, and their compact text. A
value as read keeps its fields in the order written; the canonical form has them in ascending order,
each name once, the last one written. -/
namespace RuleBroker

inductive Value where
  | null
  | bool (b : Bool)
  | int (n : Int)
  | float (x : Binary64)
  | text (s : String)
  | list (items : List Value)
  | object (fields : List (String × Value))
  deriving Inhabited

namespace Value

mutual

def canonical : Value → Value
  | .list items => .list (canonicalItems items)
  | .object fields => .object (Fields.ofList (canonicalFields fields))
  | v => v

def canonicalItems : List Value → List Value
  | [] => []
  | v :: rest => canonical v :: canonicalItems rest

def canonicalFields : List (String × Value) → List (String × Value)
  | [] => []
  | (name, v) :: rest => (name, canonical v) :: canonicalFields rest

end

mutual

def same : Value → Value → Bool
  | .null, .null => true
  | .bool a, .bool b => a = b
  | .int a, .int b => a = b
  | .float a, .float b => a.same b
  | .text a, .text b => a = b
  | .list as, .list bs => sameItems as bs
  | .object as, .object bs => sameFields as bs
  | _, _ => false

def sameItems : List Value → List Value → Bool
  | [], [] => true
  | a :: as, b :: bs => same a b && sameItems as bs
  | _, _ => false

def sameFields : List (String × Value) → List (String × Value) → Bool
  | [], [] => true
  | (m, a) :: as, (n, b) :: bs => m = n && same a b && sameFields as bs
  | _, _ => false

end

def isNull : Value → Bool
  | .null => true
  | _ => false

def ofOption (f : α → Value) : Option α → Value
  | none => .null
  | some a => f a

/-- A float that is not finite has no structured form and becomes null. -/
def ofFloat (x : Binary64) : Value := if x.isFinite then .float x else .null


def hexDigits (width n : Nat) : List Char :=
  let ds := Nat.toDigits 16 n
  List.replicate (width - ds.length) '0' ++ ds

def escapedChar (c : Char) : List Char :=
  if c = '"' then ['\\', '"']
  else if c = '\\' then ['\\', '\\']
  else if c = '\n' then ['\\', 'n']
  else if c = '\r' then ['\\', 'r']
  else if c = '\t' then ['\\', 't']
  else if c.toNat = 8 then ['\\', 'b']
  else if c.toNat = 12 then ['\\', 'f']
  else if c.toNat < 32 then ['\\', 'u'] ++ hexDigits 4 c.toNat
  else [c]

def stringText (s : String) : String :=
  String.ofList ('"' :: s.toList.flatMap escapedChar ++ ['"'])

def floatText (x : Binary64) : String :=
  if x.isFinite then String.ofList x.documentText else "null"

mutual

def toText : Value → String
  | .null => "null"
  | .bool b => if b then "true" else "false"
  | .int n => String.ofList (Text.integer n)
  | .float x => floatText x
  | .text s => stringText s
  | .list items => "[" ++ ",".intercalate (itemTexts items) ++ "]"
  | .object fields => "\x7b" ++ ",".intercalate (fieldTexts fields) ++ "\x7d"

def itemTexts : List Value → List String
  | [] => []
  | v :: rest => toText v :: itemTexts rest

def fieldTexts : List (String × Value) → List String
  | [] => []
  | (name, v) :: rest => (stringText name ++ ":" ++ toText v) :: fieldTexts rest

end

end Value
end RuleBroker
