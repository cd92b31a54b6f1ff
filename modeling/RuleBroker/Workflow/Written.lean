import RuleBroker.Reading
import RuleBroker.Workflow
/-! Workflows as values. What a rule leaves at its default is left out when written,
apart from whether it is enabled; what is left out reads as the default. -/
namespace RuleBroker

namespace Rule

def optionalText (name : String) : Option String → List (String × Value)
  | none => []
  | some s => [(name, .text s)]

mutual

def toValue : Rule → Value
  | { name, expression, successEvent, errorMessage, operator, enabled, expressionType,
      properties, rules } =>
    .object <|
      [("RuleName", .text name)] ++
      (if expression.isEmpty then [] else [("Expression", .text expression)]) ++
      optionalText "SuccessEvent" successEvent ++
      optionalText "ErrorMessage" errorMessage ++
      optionalText "Operator" operator ++
      [("Enabled", .bool enabled)] ++
      optionalText "RuleExpressionType" expressionType ++
      (if properties.isEmpty then [] else [("Properties", .object properties.fields)]) ++
      (if rules.isEmpty then [] else [("Rules", .list (toValues rules))])

def toValues : List Rule → List Value
  | [] => []
  | r :: rest => toValue r :: toValues rest

end

inductive Slot where
  | name
  | expression
  | successEvent
  | errorMessage
  | operator
  | enabled
  | expressionType
  | properties
  | rules
  deriving DecidableEq, Repr

namespace Slot

def all : List Slot :=
  [name, expression, successEvent, errorMessage, operator, enabled, expressionType, properties,
    rules]

def label : Slot → String
  | name => "RuleName"
  | expression => "Expression"
  | successEvent => "SuccessEvent"
  | errorMessage => "ErrorMessage"
  | operator => "Operator"
  | enabled => "Enabled"
  | expressionType => "RuleExpressionType"
  | properties => "Properties"
  | rules => "Rules"

def ofLabel? (s : String) : Option Slot := all.find? (·.label = s)

theorem ofLabelLabel (slot : Slot) : ofLabel? slot.label = some slot := by
  cases slot <;> decide

end Slot

structure Draft where
  name : Option String := none
  expression : Option String := none
  successEvent : Option (Option String) := none
  errorMessage : Option (Option String) := none
  operator : Option (Option String) := none
  enabled : Option Bool := none
  expressionType : Option (Option String) := none
  properties : Option Properties := none
  rules : Option (List Rule) := none

def readProperties : Value → Except Mismatch Properties
  | .object fields => .ok (.ofFields fields)
  | v => Reading.wrongType v .map

namespace Draft

def put (d : Draft) (v : Value) (below : Unit → Except Mismatch (List Rule)) :
    Slot → Except Mismatch Draft
  | .name => do
    let name ← Reading.place "RuleName" d.name Reading.text v
    .ok { d with name }
  | .expression => do
    let expression ← Reading.place "Expression" d.expression Reading.text v
    .ok { d with expression }
  | .successEvent => do
    let successEvent ← Reading.place "SuccessEvent" d.successEvent (Reading.optional Reading.text) v
    .ok { d with successEvent }
  | .errorMessage => do
    let errorMessage ← Reading.place "ErrorMessage" d.errorMessage (Reading.optional Reading.text) v
    .ok { d with errorMessage }
  | .operator => do
    let operator ← Reading.place "Operator" d.operator (Reading.optional Reading.text) v
    .ok { d with operator }
  | .enabled => do
    let enabled ← Reading.place "Enabled" d.enabled Reading.boolean v
    .ok { d with enabled }
  | .expressionType => do
    let expressionType ←
      Reading.place "RuleExpressionType" d.expressionType (Reading.optional Reading.text) v
    .ok { d with expressionType }
  | .properties => do
    let properties ← Reading.place "Properties" d.properties readProperties v
    .ok { d with properties }
  | .rules => do
    let rules ← Reading.place "Rules" d.rules (fun _ => below ()) v
    .ok { d with rules }

def finish (d : Draft) : Except Mismatch Rule := do
  let name ← Reading.required "RuleName" d.name
  .ok {
    name
    expression := d.expression.getD ""
    successEvent := d.successEvent.getD none
    errorMessage := d.errorMessage.getD none
    operator := d.operator.getD none
    enabled := d.enabled.getD true
    expressionType := d.expressionType.getD none
    properties := d.properties.getD .empty
    rules := d.rules.getD [] }

end Draft

mutual

def read : Value → Except Mismatch Rule
  | .object fields => do (← readFields {} fields).finish
  | .list values =>
    if values.isEmpty then .error (.tooShort 0 "RuleDefinition" Slot.all.length)
    else do
      let d ← readPlaces Slot.all {} values
      if Slot.all.length < values.length then .error (.tooLong values.length) else d.finish
  | v => Reading.wrongType v (.record "RuleDefinition")

def readFields (d : Draft) : List (String × Value) → Except Mismatch Draft
  | [] => .ok d
  | (label, v) :: rest =>
    match Slot.ofLabel? label with
    | none => readFields d rest
    | some slot => do readFields (← d.put v (fun _ => readList v) slot) rest

def readPlaces (slots : List Slot) (d : Draft) : List Value → Except Mismatch Draft
  | [] => .ok d
  | v :: rest =>
    match slots with
    | [] => .ok d
    | slot :: slots => do readPlaces slots (← d.put v (fun _ => readList v) slot) rest

def readList : Value → Except Mismatch (List Rule)
  | .list values => readAll values
  | v => Reading.wrongType v .sequence

def readAll : List Value → Except Mismatch (List Rule)
  | [] => .ok []
  | v :: rest => do
    let r ← read v
    let rs ← readAll rest
    .ok (r :: rs)

end

end Rule

namespace Workflow

def toValue (w : Workflow) : Value :=
  .object [("WorkflowName", .text w.name), ("Rules", .list (Rule.toValues w.rules))]

structure Draft where
  name : Option String := none
  rules : Option (List Rule) := none

def Draft.finish (d : Draft) : Except Mismatch Workflow := do
  let name ← Reading.required "WorkflowName" d.name
  .ok { name, rules := d.rules.getD [] }

def readFields (d : Draft) : List (String × Value) → Except Mismatch Draft
  | [] => .ok d
  | (label, v) :: rest =>
    if label = "WorkflowName" then do
      let name ← Reading.place "WorkflowName" d.name Reading.text v
      readFields { d with name } rest
    else if label = "Rules" then do
      let rules ← Reading.place "Rules" d.rules Rule.readList v
      readFields { d with rules } rest
    else readFields d rest

def read : Value → Except Mismatch Workflow
  | .object fields => do (← readFields {} fields).finish
  | .list [] => .error (.tooShort 0 "Workflow" 2)
  | .list [n] => do .ok { name := ← Reading.text n }
  | .list (n :: rs :: rest) => do
    let name ← Reading.text n
    let rules ← Rule.readList rs
    if rest.isEmpty then .ok { name, rules } else .error (.tooLong (rest.length + 2))
  | v => Reading.wrongType v (.record "Workflow")

def readAll : Value → Except Mismatch (List Workflow) := Reading.sequence read

end Workflow
end RuleBroker
