import RuleBroker.Reading
import RuleBroker.Result
/-! Results as values. All ten fields are written, absent ones as null; nodes below are
a list, or null for a leaf, and an empty list reads as a leaf. -/
namespace RuleBroker.Result

def optionalText : Option String → Value := Value.ofOption .text

mutual

def toValue : Result → Value
  | { recordId, recordDescription, ruleName, workflow, success, successEvent, lastError, output,
      milliseconds, subResults } =>
    .object [
      ("RecordId", .text recordId),
      ("RecordDescription", .text recordDescription),
      ("RuleName", .text ruleName),
      ("RulesScript", .text workflow),
      ("Success", .bool success),
      ("SuccessResult", optionalText successEvent),
      ("LastError", optionalText lastError),
      ("RuleOutput", output.getD .null),
      ("ApproxExecutionMilliseconds", .ofFloat milliseconds),
      ("SubResults", childrenValue subResults)]

def childrenValue : Children Result → Value
  | .leaf => .null
  | .nested items => .list (toValues items)

def toValues : List Result → List Value
  | [] => []
  | r :: rest => toValue r :: toValues rest

end

inductive Slot where
  | recordId
  | recordDescription
  | ruleName
  | workflow
  | success
  | successEvent
  | lastError
  | output
  | milliseconds
  | subResults
  deriving DecidableEq, Repr

namespace Slot

def all : List Slot :=
  [recordId, recordDescription, ruleName, workflow, success, successEvent, lastError, output,
    milliseconds, subResults]

def label : Slot → String
  | recordId => "RecordId"
  | recordDescription => "RecordDescription"
  | ruleName => "RuleName"
  | workflow => "RulesScript"
  | success => "Success"
  | successEvent => "SuccessResult"
  | lastError => "LastError"
  | output => "RuleOutput"
  | milliseconds => "ApproxExecutionMilliseconds"
  | subResults => "SubResults"

def ofLabel? (s : String) : Option Slot := all.find? (·.label = s)

theorem ofLabelLabel (slot : Slot) : ofLabel? slot.label = some slot := by
  cases slot <;> decide

end Slot

structure Draft where
  recordId : Option String := none
  recordDescription : Option String := none
  ruleName : Option String := none
  workflow : Option String := none
  success : Option Bool := none
  successEvent : Option (Option String) := none
  lastError : Option (Option String) := none
  output : Option (Option Value) := none
  milliseconds : Option Binary64 := none
  subResults : Option (Children Result) := none

namespace Draft

def put (d : Draft) (v : Value) (below : Unit → Except Mismatch (Children Result)) :
    Slot → Except Mismatch Draft
  | .recordId => do
    let recordId ← Reading.place "RecordId" d.recordId Reading.text v
    .ok { d with recordId }
  | .recordDescription => do
    let recordDescription ←
      Reading.place "RecordDescription" d.recordDescription Reading.text v
    .ok { d with recordDescription }
  | .ruleName => do
    let ruleName ← Reading.place "RuleName" d.ruleName Reading.text v
    .ok { d with ruleName }
  | .workflow => do
    let workflow ← Reading.place "RulesScript" d.workflow Reading.text v
    .ok { d with workflow }
  | .success => do
    let success ← Reading.place "Success" d.success Reading.boolean v
    .ok { d with success }
  | .successEvent => do
    let successEvent ←
      Reading.place "SuccessResult" d.successEvent (Reading.optional Reading.text) v
    .ok { d with successEvent }
  | .lastError => do
    let lastError ← Reading.place "LastError" d.lastError (Reading.optional Reading.text) v
    .ok { d with lastError }
  | .output => do
    let output ← Reading.place "RuleOutput" d.output (Reading.optional .ok) v
    .ok { d with output }
  | .milliseconds => do
    let milliseconds ←
      Reading.place "ApproxExecutionMilliseconds" d.milliseconds Reading.float v
    .ok { d with milliseconds }
  | .subResults => do
    let subResults ← Reading.place "SubResults" d.subResults (fun _ => below ()) v
    .ok { d with subResults }

def finish (d : Draft) : Except Mismatch Result := do
  let recordId ← Reading.required "RecordId" d.recordId
  let recordDescription ← Reading.required "RecordDescription" d.recordDescription
  let ruleName ← Reading.required "RuleName" d.ruleName
  let workflow ← Reading.required "RulesScript" d.workflow
  let success ← Reading.required "Success" d.success
  let milliseconds ← Reading.required "ApproxExecutionMilliseconds" d.milliseconds
  .ok {
    recordId
    recordDescription
    ruleName
    workflow
    success
    successEvent := d.successEvent.getD none
    lastError := d.lastError.getD none
    output := d.output.getD none
    milliseconds
    subResults := d.subResults.getD .leaf }

end Draft

mutual

def read : Value → Except Mismatch Result
  | .object fields => do (← readFields {} fields).finish
  | .list values => do
    let d ← readPlaces Slot.all {} values
    if values.length + 1 < Slot.all.length then
      .error (.tooShort values.length "RulesResult" Slot.all.length)
    else if Slot.all.length < values.length then .error (.tooLong values.length)
    else d.finish
  | v => Reading.wrongType v (.record "RulesResult")

def readFields (d : Draft) : List (String × Value) → Except Mismatch Draft
  | [] => .ok d
  | (label, v) :: rest =>
    match Slot.ofLabel? label with
    | none => readFields d rest
    | some slot => do readFields (← d.put v (fun _ => readChildren v) slot) rest

def readPlaces (slots : List Slot) (d : Draft) : List Value → Except Mismatch Draft
  | [] => .ok d
  | v :: rest =>
    match slots with
    | [] => .ok d
    | slot :: slots => do readPlaces slots (← d.put v (fun _ => readChildren v) slot) rest

def readChildren : Value → Except Mismatch (Children Result)
  | .null => .ok .leaf
  | .list values => do .ok (.ofList (← readAll values))
  | v => Reading.wrongType v .sequence

def readAll : List Value → Except Mismatch (List Result)
  | [] => .ok []
  | v :: rest => do
    let r ← read v
    let rs ← readAll rest
    .ok (r :: rs)

end

def readList : Value → Except Mismatch (List Result)
  | .list values => readAll values
  | v => Reading.wrongType v .sequence

end RuleBroker.Result
