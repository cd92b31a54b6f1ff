import RuleBroker.Outcome
/-! Results: what a rule gave for a record, in trees that follow the rules. They are an evaluator's
outcomes, stamped with their record and workflow, and the time spent on the record is shared out
evenly among the nodes. Main statement: a tree's count is the length of its nodes in order. -/
namespace RuleBroker

structure Result where
  recordId : String
  recordDescription : String
  ruleName : String
  workflow : String
  success : Bool
  successEvent : Option String
  lastError : Option String
  output : Option Value
  milliseconds : Binary64
  subResults : Children Result

namespace Result

mutual

def nodeCount : Result → Nat
  | { subResults, .. } => 1 + countBelow subResults

def countBelow : Children Result → Nat
  | .leaf => 0
  | .nested items => countAll items

def countAll : List Result → Nat
  | [] => 0
  | r :: rest => nodeCount r + countAll rest

end

mutual

def nodes : Result → List Result
  | r@{ subResults, .. } => r :: nodesBelow subResults

def nodesBelow : Children Result → List Result
  | .leaf => []
  | .nested items => nodesAll items

def nodesAll : List Result → List Result
  | [] => []
  | r :: rest => nodes r ++ nodesAll rest

end

mutual

theorem lengthNodes : ∀ r : Result, r.nodes.length = r.nodeCount
  | { subResults, .. } => by
    simp [nodes, nodeCount, lengthNodesBelow subResults, Nat.add_comm]

theorem lengthNodesBelow : ∀ c : Children Result, (nodesBelow c).length = countBelow c
  | .leaf => rfl
  | .nested items => by simp [nodesBelow, countBelow, lengthNodesAll items]

theorem lengthNodesAll : ∀ rs : List Result, (nodesAll rs).length = countAll rs
  | [] => rfl
  | r :: rest => by simp [nodesAll, countAll, lengthNodes r, lengthNodesAll rest]

end

end Result

structure Stamp where
  recordId : String
  recordDescription : String
  workflow : String
  deriving DecidableEq, Repr

namespace Result

mutual

def ofOutcome (stamp : Stamp) : Outcome → Result
  | { ruleName, status, successEvent, output, children } => {
      recordId := stamp.recordId
      recordDescription := stamp.recordDescription
      ruleName
      workflow := stamp.workflow
      success := status = .success
      successEvent
      lastError := match status with
        | .success => none
        | .failure message => some message
      output
      milliseconds := .zero
      subResults := ofChildren stamp children }

def ofChildren (stamp : Stamp) : Children Outcome → Children Result
  | .leaf => .leaf
  | .nested items => .ofList (ofOutcomes stamp items)

def ofOutcomes (stamp : Stamp) : List Outcome → List Result
  | [] => []
  | o :: rest => ofOutcome stamp o :: ofOutcomes stamp rest

end

/-- No outcomes give no results, which is not an empty list of them. -/
def flatten (stamp : Stamp) (outcomes : List Outcome) : Option (List Result) :=
  if outcomes.isEmpty then none else some (ofOutcomes stamp outcomes)

mutual

def assign (time : Binary64) : Result → Result
  | { recordId, recordDescription, ruleName, workflow, success, successEvent, lastError, output,
      milliseconds := _, subResults } =>
    ⟨recordId, recordDescription, ruleName, workflow, success, successEvent, lastError, output,
      time, assignBelow time subResults⟩

def assignBelow (time : Binary64) : Children Result → Children Result
  | .leaf => .leaf
  | .nested items => .nested (assignAll time items)

def assignAll (time : Binary64) : List Result → List Result
  | [] => []
  | r :: rest => assign time r :: assignAll time rest

end

def seconds (nanoseconds : Nat) : Binary64 :=
  (Binary64.ofNat (nanoseconds / tenTo 9)).add
    ((Binary64.ofNat (nanoseconds % tenTo 9)).div (Binary64.ofNat (tenTo 9)))

def share (nanoseconds nodes : Nat) : Binary64 :=
  ((seconds nanoseconds).mul (Binary64.ofNat 1000)).div (Binary64.ofNat nodes)

def apportion (nanoseconds : Nat) (results : List Result) : List Result :=
  if countAll results = 0 then results
  else assignAll (share nanoseconds (countAll results)) results

end Result
end RuleBroker
