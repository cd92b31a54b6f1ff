import RuleBroker.Value
/-! What an evaluator answers for a rule: a status, and for a rule with rules below it
their outcomes. -/
namespace RuleBroker

/-- The nodes below a node. A leaf has none; an empty list of them is another state,
which building from a list never gives. -/
inductive Children (α : Type) where
  | leaf
  | nested (items : List α)
  deriving DecidableEq, Repr

namespace Children

variable {α β : Type}

def ofList : List α → Children α
  | [] => .leaf
  | a :: as => .nested (a :: as)

def ofOption : Option (List α) → Children α
  | none => .leaf
  | some items => ofList items

def toList : Children α → List α
  | .leaf => []
  | .nested items => items

def isLeaf : Children α → Bool
  | .leaf => true
  | .nested _ => false

def length (c : Children α) : Nat := c.toList.length
def isEmpty (c : Children α) : Bool := c.length = 0

def map (f : α → β) : Children α → Children β
  | .leaf => .leaf
  | .nested items => .nested (items.map f)

def toValue (f : List α → Value) : Children α → Value
  | .leaf => .null
  | .nested items => f items

@[simp] theorem toListOfList (items : List α) : (ofList items).toList = items := by
  cases items <;> rfl

end Children

inductive Status where
  | success
  | failure (message : String)
  deriving DecidableEq, Repr

structure Outcome where
  ruleName : String
  status : Status
  successEvent : Option String := none
  output : Option Value := none
  children : Children Outcome := .leaf

namespace Outcome

def success (ruleName : String) : Outcome := { ruleName, status := .success }
def failure (ruleName message : String) : Outcome := { ruleName, status := .failure message }
def withSuccessEvent (o : Outcome) (event : Option String) : Outcome :=
  { o with successEvent := event }
def withOutput (o : Outcome) (output : Value) : Outcome := { o with output := some output }
def withChildren (o : Outcome) (children : List Outcome) : Outcome :=
  { o with children := .ofList children }

def isSuccess (o : Outcome) : Bool := o.status = .success

mutual

def nodeCount : Outcome → Nat
  | { children, .. } => 1 + countBelow children

def countBelow : Children Outcome → Nat
  | .leaf => 0
  | .nested items => countAll items

def countAll : List Outcome → Nat
  | [] => 0
  | o :: rest => nodeCount o + countAll rest

end

end Outcome
end RuleBroker
