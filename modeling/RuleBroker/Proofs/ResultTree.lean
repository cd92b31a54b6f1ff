import RuleBroker.Result
/-! Trees of results beside the outcomes they are made from. A tree carries its stamp at
every depth, keeps every outcome in its place whether it failed or not, and differs from
another reading of the clock in nothing but the times. -/
namespace RuleBroker

namespace Outcome

mutual

def nodes : Outcome → List Outcome
  | o@{ children, .. } => o :: nodesBelow children

def nodesBelow : Children Outcome → List Outcome
  | .leaf => []
  | .nested items => nodesAll items

def nodesAll : List Outcome → List Outcome
  | [] => []
  | o :: rest => nodes o ++ nodesAll rest

end

mutual

theorem lengthNodes : ∀ o : Outcome, o.nodes.length = o.nodeCount
  | { children, .. } => by
    simp [nodes, nodeCount, lengthNodesBelow children, Nat.add_comm]

theorem lengthNodesBelow : ∀ c : Children Outcome, (nodesBelow c).length = countBelow c
  | .leaf => rfl
  | .nested items => by simp [nodesBelow, countBelow, lengthNodesAll items]

theorem lengthNodesAll : ∀ os : List Outcome, (nodesAll os).length = countAll os
  | [] => rfl
  | o :: rest => by simp [nodesAll, countAll, lengthNodes o, lengthNodesAll rest]

end

end Outcome

namespace Result

def untimed (results : List Result) : List Result := assignAll .zero results

structure Stamped (stamp : Stamp) (n : Result) : Prop where
  recordId : n.recordId = stamp.recordId
  recordDescription : n.recordDescription = stamp.recordDescription
  workflow : n.workflow = stamp.workflow

theorem timeAssign (time : Binary64) (n : Result) : (assign time n).milliseconds = time := by
  cases n
  rfl

theorem assignAllAppend (time : Binary64) (xs ys : List Result) :
    assignAll time (xs ++ ys) = assignAll time xs ++ assignAll time ys := by
  induction xs with
  | nil => rfl
  | cons x rest ih => simp only [List.cons_append, assignAll, ih]

theorem untimedAppend (xs ys : List Result) : untimed (xs ++ ys) = untimed xs ++ untimed ys :=
  assignAllAppend .zero xs ys

mutual

theorem assignAssign (later time : Binary64) : ∀ r : Result,
    assign later (assign time r) = assign later r
  | { subResults, .. } => by simp [assign, assignBelowAssign later time subResults]

theorem assignBelowAssign (later time : Binary64) : ∀ c : Children Result,
    assignBelow later (assignBelow time c) = assignBelow later c
  | .leaf => rfl
  | .nested items => by simp [assignBelow, assignAllAssign later time items]

theorem assignAllAssign (later time : Binary64) : ∀ rs : List Result,
    assignAll later (assignAll time rs) = assignAll later rs
  | [] => rfl
  | r :: rest => by
    simp [assignAll, assignAssign later time r, assignAllAssign later time rest]

end

theorem countNone (rs : List Result) : countAll rs = 0 ↔ rs = [] := by
  rcases rs with _ | ⟨⟨⟩, rest⟩
  · exact ⟨fun _ => rfl, fun _ => rfl⟩
  · simp [countAll, nodeCount]

theorem apportionAll (elapsed : Nat) (rs : List Result) :
    apportion elapsed rs = assignAll (share elapsed (countAll rs)) rs := by
  unfold apportion
  split
  · next zero =>
    rw [(countNone rs).mp zero]
    rfl
  · rfl

theorem untimedApportion (elapsed : Nat) (rs : List Result) :
    untimed (apportion elapsed rs) = untimed rs := by
  rw [apportionAll]
  exact assignAllAssign .zero _ rs

/- Outcomes have no time yet, so that taking it away again changes nothing. An empty
list of children is a leaf on either side. -/
mutual

theorem assignOfOutcome (stamp : Stamp) : ∀ o : Outcome,
    assign .zero (ofOutcome stamp o) = ofOutcome stamp o
  | { children, .. } => by simp [ofOutcome, assign, assignOfChildren stamp children]

theorem assignOfChildren (stamp : Stamp) : ∀ c : Children Outcome,
    assignBelow .zero (ofChildren stamp c) = ofChildren stamp c
  | .leaf => rfl
  | .nested [] => rfl
  | .nested (o :: rest) => by
    simp [ofChildren, ofOutcomes, Children.ofList, assignBelow, assignAll,
      assignOfOutcome stamp o, assignOfOutcomes stamp rest]

theorem assignOfOutcomes (stamp : Stamp) : ∀ os : List Outcome,
    assignAll .zero (ofOutcomes stamp os) = ofOutcomes stamp os
  | [] => rfl
  | o :: rest => by
    simp [ofOutcomes, assignAll, assignOfOutcome stamp o, assignOfOutcomes stamp rest]

end

theorem untimedOfOutcomes (stamp : Stamp) (os : List Outcome) :
    untimed (ofOutcomes stamp os) = ofOutcomes stamp os := assignOfOutcomes stamp os

theorem nodesBelowOfList (rs : List Result) : nodesBelow (.ofList rs) = nodesAll rs := by
  cases rs <;> rfl

mutual

theorem nodesOfOutcome (stamp : Stamp) : ∀ o : Outcome,
    nodes (ofOutcome stamp o) = (Outcome.nodes o).map (ofOutcome stamp)
  | { children, .. } => by
    simp [ofOutcome, nodes, Outcome.nodes, nodesOfChildren stamp children]

theorem nodesOfChildren (stamp : Stamp) : ∀ c : Children Outcome,
    nodesBelow (ofChildren stamp c) = (Outcome.nodesBelow c).map (ofOutcome stamp)
  | .leaf => rfl
  | .nested items => by
    simp [ofChildren, nodesBelowOfList, Outcome.nodesBelow, nodesOfOutcomes stamp items]

theorem nodesOfOutcomes (stamp : Stamp) : ∀ os : List Outcome,
    nodesAll (ofOutcomes stamp os) = (Outcome.nodesAll os).map (ofOutcome stamp)
  | [] => rfl
  | o :: rest => by
    simp [ofOutcomes, nodesAll, Outcome.nodesAll, nodesOfOutcome stamp o,
      nodesOfOutcomes stamp rest]

end

mutual

theorem nodesAssign (time : Binary64) : ∀ r : Result,
    nodes (assign time r) = (nodes r).map (assign time)
  | { subResults, .. } => by simp [assign, nodes, nodesBelowAssign time subResults]

theorem nodesBelowAssign (time : Binary64) : ∀ c : Children Result,
    nodesBelow (assignBelow time c) = (nodesBelow c).map (assign time)
  | .leaf => rfl
  | .nested items => by simp [assignBelow, nodesBelow, nodesAllAssign time items]

theorem nodesAllAssign (time : Binary64) : ∀ rs : List Result,
    nodesAll (assignAll time rs) = (nodesAll rs).map (assign time)
  | [] => rfl
  | r :: rest => by
    simp [assignAll, nodesAll, nodesAssign time r, nodesAllAssign time rest]

end

theorem stampedOutcome (stamp : Stamp) (o : Outcome) : Stamped stamp (ofOutcome stamp o) := by
  cases o
  exact ⟨rfl, rfl, rfl⟩

theorem stampedAssign {stamp : Stamp} {time : Binary64} {n : Result} :
    Stamped stamp (assign time n) ↔ Stamped stamp n := by
  cases n
  exact ⟨fun h => ⟨h.1, h.2, h.3⟩, fun h => ⟨h.1, h.2, h.3⟩⟩

end Result
end RuleBroker
