import RuleBroker.Decimal.Text
import RuleBroker.Record
import RuleBroker.Text.Escaped
/-! Functions that rule expressions may call, what they return, and those of all providers under
their qualified names. A bare name stands for a function only while no other function has the same
one. -/
namespace RuleBroker

inductive FunctionValue where
  | truth (b : Bool)
  | number (d : Decimal)
  | text (s : String)
  deriving DecidableEq

namespace FunctionValue

def asTruth : FunctionValue → Option Bool
  | truth b => some b
  | _ => none

def asNumber : FunctionValue → Option Decimal
  | number d => some d
  | _ => none

def asText : FunctionValue → Option String
  | text s => some s
  | _ => none

def toValue : FunctionValue → Value
  | truth b => .bool b
  | number d => if d.toBinary64.isFinite then .float d.toBinary64 else .text d.toText
  | text s => .text s

end FunctionValue

structure Function where
  name : String
  call : RecordView → List Value → Except RuleError FunctionValue

structure Provider where
  qualifier : String
  functions : List Function

def Provider.qualified (p : Provider) (f : Function) : String := p.qualifier ++ "." ++ f.name

/-- Functions by qualified name in order of registration; qualified names by bare name. -/
structure Registry where
  functions : List (String × Function) := []
  aliases : List (String × String) := []

namespace Registry

structure Draft where
  functions : List (String × Function) := []
  aliases : List (String × String) := []
  ambiguous : List String := []

def Draft.add (d : Draft) (qualified : String) (f : Function) : Except RuleError Draft :=
  if (d.functions.lookup qualified).isSome then
    .error (.configuration ("自定义函数重复注册: " ++ qualified))
  else
    let d := { d with functions := d.functions ++ [(qualified, f)] }
    if (d.aliases.lookup f.name).isSome then
      .ok { d with ambiguous := f.name :: d.ambiguous }
    else .ok { d with aliases := d.aliases ++ [(f.name, qualified)] }

def Draft.finish (d : Draft) : Registry where
  functions := d.functions
  aliases := d.aliases.filter fun (bare, _) => !d.ambiguous.contains bare

def contributions (providers : List Provider) : List (String × Function) :=
  providers.flatMap fun p => p.functions.map fun f => (p.qualified f, f)

def ofProviders (providers : List Provider) : Except RuleError Registry := do
  let d ← (contributions providers).foldlM (fun (d : Draft) (name, f) => d.add name f) {}
  .ok d.finish

def get? (r : Registry) (name : String) : Option Function :=
  r.functions.lookup name <|> (r.aliases.lookup name).bind fun q => r.functions.lookup q

def contains (r : Registry) (name : String) : Bool := (r.get? name).isSome

def call (r : Registry) (name : String) (view : RecordView) (args : List Value) :
    Except RuleError FunctionValue :=
  match r.get? name with
  | some f => f.call view args
  | none => .error (.function name "未注册的自定义函数")

def names (r : Registry) : List String :=
  (r.functions.map Prod.fst).mergeSort fun a b => decide (a ≤ b)

def size (r : Registry) : Nat := r.functions.length
def isEmpty (r : Registry) : Bool := r.size = 0

def toText (r : Registry) : String :=
  "FunctionRegistry \x7b functions: " ++ Text.quotedList r.names ++ " \x7d"

end Registry
end RuleBroker
