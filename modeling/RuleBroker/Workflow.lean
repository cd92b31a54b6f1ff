import RuleBroker.Value.Canonical
import RuleBroker.Text.Segments
import RuleBroker.Text.Digits
/-! Workflows: named lists of rules. A rule carries an expression for the evaluator, or rules of its
own that an operator combines, or both. When workflows may be put to use is a predicate and a check
that names the first fault. Names of siblings differ; in other branches a name may come again. -/
namespace RuleBroker

structure Rule where
  name : String
  expression : String := ""
  successEvent : Option String := none
  errorMessage : Option String := none
  operator : Option String := none
  enabled : Bool := true
  expressionType : Option String := none
  properties : Properties := .empty
  rules : List Rule := []

structure Workflow where
  name : String
  rules : List Rule := []

namespace Rule

def withSuccessEvent (r : Rule) (event : String) : Rule := { r with successEvent := some event }
def withErrorMessage (r : Rule) (message : String) : Rule := { r with errorMessage := some message }
def withRules (r : Rule) (operator : String) (rules : List Rule) : Rule :=
  { r with operator := some operator, rules := rules }

def isNested (r : Rule) : Bool := !r.rules.isEmpty

mutual

def count : Rule → Nat
  | { rules, .. } => 1 + countAll rules

def countAll : List Rule → Nat
  | [] => 0
  | r :: rest => count r + countAll rest

end

end Rule

def Workflow.ruleCount (w : Workflow) : Nat := Rule.countAll w.rules

open Text (Blank)

inductive Rule.WellFormedAll : List Rule → Prop where
  | intro {rules : List Rule}
      (named : ∀ r ∈ rules, ¬ Blank r.name)
      (distinct : (rules.map Rule.name).Nodup)
      (meaningful : ∀ r ∈ rules, Blank r.expression → r.rules ≠ [])
      (below : ∀ r ∈ rules, WellFormedAll r.rules) :
      WellFormedAll rules

structure Workflow.WellFormed (w : Workflow) : Prop where
  named : ¬ Blank w.name
  nonempty : w.rules ≠ []
  rules : Rule.WellFormedAll w.rules

structure Workflow.WellFormedAll (ws : List Workflow) : Prop where
  each : ∀ w ∈ ws, w.WellFormed
  distinct : (ws.map Workflow.name).Nodup

namespace Workflow

inductive Fault where
  | unnamed
  | noRules (workflow : String)
  | unnamedRule (place : String)
  | repeatedRule (name place : String)
  | emptyRule (name : String)
  | repeated (workflow : String)
  deriving DecidableEq, Repr

def Fault.message : Fault → String
  | .unnamed => "工作流名称不能为空"
  | .noRules workflow => "工作流 '" ++ workflow ++ "' 至少需要一条规则"
  | .unnamedRule place => "规则 '" ++ place ++ "' 的名称不能为空"
  | .repeatedRule name place => "规则名称在同级中重复: " ++ name ++ " (" ++ place ++ ")"
  | .emptyRule name => "规则 '" ++ name ++ "' 需要表达式或子规则"
  | .repeated workflow => "工作流名称重复: " ++ workflow

def placeOf (path : String) (index : Nat) : String :=
  path ++ ".Rules[" ++ String.ofList (Text.digits index) ++ "]"

mutual

def checkBelow (path : String) : Rule → Except Fault Unit
  | { name, rules, .. } => checkRules (path ++ "." ++ name) 0 [] rules

def checkRules (path : String) (index : Nat) (seen : List String) :
    List Rule → Except Fault Unit
  | [] => .ok ()
  | r :: rest =>
    if Blank r.name then .error (.unnamedRule (placeOf path index))
    else if r.name ∈ seen then .error (.repeatedRule r.name (placeOf path index))
    else if Blank r.expression ∧ !r.isNested then .error (.emptyRule r.name)
    else do
      checkBelow path r
      checkRules path (index + 1) (r.name :: seen) rest

end

def check (w : Workflow) : Except Fault Unit :=
  if Blank w.name then .error .unnamed
  else if w.rules.isEmpty then .error (.noRules w.name)
  else checkRules w.name 0 [] w.rules

def checkFrom (seen : List String) (total : Nat) : List Workflow → Except Fault Nat
  | [] => .ok total
  | w :: rest => do
    check w
    if w.name ∈ seen then .error (.repeated w.name)
    else checkFrom (w.name :: seen) (total + w.ruleCount) rest

def checkAll (ws : List Workflow) : Except Fault Nat := checkFrom [] 0 ws

end Workflow
end RuleBroker
