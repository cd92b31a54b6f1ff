import Mathlib.Data.List.Forall2
import RuleBroker.Proofs.Batch
/-! Flattening keeps the shape of an evaluator's answer. Results are to outcomes as a
mirror is, and no other results are; node counts and the order of rule names agree with
the outcomes' own. -/
namespace RuleBroker.Result

variable {stamp : Stamp}

/-- What a result before any time is given to it has in common with its outcome: all of
its own fields, and node by node in the same places those below. Whether an outcome
without nodes below has an empty list of them or none, the result is a leaf. -/
inductive Mirrors (stamp : Stamp) : Outcome → Result → Prop where
  | node {o r} (stamped : Stamped stamp r)
      (ruleName : r.ruleName = o.ruleName)
      (success : r.success = true ↔ o.status = .success)
      (successEvent : r.successEvent = o.successEvent)
      (lastError : ∀ message, r.lastError = some message ↔ o.status = .failure message)
      (output : r.output = o.output)
      (untimed : r.milliseconds = .zero)
      (leaf : r.subResults = .leaf ↔ o.children.toList = [])
      (below : List.Forall₂ (Mirrors stamp) o.children.toList r.subResults.toList) :
      Mirrors stamp o r

theorem ofChildrenOfList (c : Children Outcome) :
    ofChildren stamp c = .ofList (ofOutcomes stamp c.toList) := by
  cases c <;> rfl

mutual

theorem mirrorsOfOutcome : ∀ o : Outcome, Mirrors stamp o (ofOutcome stamp o)
  | ⟨ruleName, status, successEvent, output, children⟩ => by
    have below := mirrorsOfChildren children
    refine .node ⟨rfl, rfl, rfl⟩ rfl ?_ rfl ?_ rfl rfl ?_ ?_
    · simp [ofOutcome]
    · cases status <;> simp [ofOutcome]
    · simp only [ofOutcome, ofChildrenOfList]
      cases children.toList <;> simp [ofOutcomes, Children.ofList]
    · exact below

theorem mirrorsOfChildren : ∀ c : Children Outcome,
    List.Forall₂ (Mirrors stamp) c.toList (ofChildren stamp c).toList
  | .leaf => .nil
  | .nested items => by
    rw [ofChildrenOfList, Children.toListOfList]
    exact mirrorsOfOutcomes items

theorem mirrorsOfOutcomes : ∀ os : List Outcome,
    List.Forall₂ (Mirrors stamp) os (ofOutcomes stamp os)
  | [] => .nil
  | o :: rest => .cons (mirrorsOfOutcome o) (mirrorsOfOutcomes rest)

end

theorem ofListToList {α : Type} {c : Children α} (leaf : c = .leaf ↔ c.toList = []) :
    c = .ofList c.toList := by
  cases c with
  | leaf => rfl
  | nested items =>
    cases items with
    | nil => exact leaf.mpr rfl
    | cons => rfl

theorem ofOutcomesNil {os : List Outcome} : ofOutcomes stamp os = [] ↔ os = [] := by
  cases os <;> simp [ofOutcomes]

theorem successOnly (stamp : Stamp) {o : Outcome} {flag : Bool}
    (h : flag = true ↔ o.status = .success) : flag = (ofOutcome stamp o).success := by
  rw [Bool.eq_iff_iff, h]
  cases o
  simp [ofOutcome]

theorem lastErrorOnly (stamp : Stamp) {o : Outcome} {error : Option String}
    (h : ∀ message, error = some message ↔ o.status = .failure message) :
    error = (ofOutcome stamp o).lastError := by
  obtain ⟨_, status, _, _, _⟩ := o
  cases status with
  | success =>
    refine Option.eq_none_iff_forall_ne_some.mpr fun message found => ?_
    cases (h message).mp found
  | failure message => exact (h message).mpr rfl

mutual

theorem mirrorsOnly : ∀ (o : Outcome) {r : Result}, Mirrors stamp o r → r = ofOutcome stamp o
  | ⟨ruleName, status, successEvent, output, children⟩, r, mirrors => by
    obtain ⟨⟨id, description, workflow⟩, named, success, event, lastError, kept, untimed, leaf,
      below⟩ := mirrors
    have items := mirrorsOnlyChildren children below
    have shape : r.subResults = ofChildren stamp children := by
      rw [ofChildrenOfList, ← items]
      exact ofListToList (leaf.trans (by rw [items, ofOutcomesNil]))
    have flag := successOnly stamp success
    have error := lastErrorOnly stamp lastError
    cases r
    exact (mk.injEq ..).mpr ⟨id, description, named, workflow, flag, event, error, kept, untimed,
      shape⟩

theorem mirrorsOnlyChildren : ∀ (c : Children Outcome) {rs : List Result},
    List.Forall₂ (Mirrors stamp) c.toList rs → rs = ofOutcomes stamp c.toList
  | .leaf, rs, mirrors => by cases mirrors; rfl
  | .nested items, rs, mirrors => mirrorsOnlyAll items mirrors

theorem mirrorsOnlyAll : ∀ (os : List Outcome) {rs : List Result},
    List.Forall₂ (Mirrors stamp) os rs → rs = ofOutcomes stamp os
  | [], rs, mirrors => by cases mirrors; rfl
  | o :: rest, rs, mirrors => by
    obtain _ | ⟨head, tail⟩ := mirrors
    rw [mirrorsOnly o head, mirrorsOnlyAll rest tail]
    rfl

end

theorem normalOutcome (o : Outcome) : (ofOutcome stamp o).subResults ≠ .nested [] := by
  obtain ⟨_, _, _, _, children⟩ := o
  simp only [ofOutcome, ofChildrenOfList]
  cases ofOutcomes stamp children.toList <;> simp [Children.ofList]

theorem flattenSome {os : List Outcome} {rs : List Result} :
    flatten stamp os = some rs ↔ os ≠ [] ∧ rs = ofOutcomes stamp os := by
  cases os with
  | nil => simp [flatten]
  | cons o rest => simp [flatten, eq_comm]

theorem countOfOutcomes (os : List Outcome) :
    countAll (ofOutcomes stamp os) = Outcome.countAll os := by
  calc countAll (ofOutcomes stamp os)
      = (nodesAll (ofOutcomes stamp os)).length := (lengthNodesAll _).symm
    _ = (Outcome.nodesAll os).length := by rw [nodesOfOutcomes, List.length_map]
    _ = Outcome.countAll os := Outcome.lengthNodesAll os

theorem ruleNamesOfOutcomes (os : List Outcome) :
    (nodesAll (ofOutcomes stamp os)).map Result.ruleName =
      (Outcome.nodesAll os).map Outcome.ruleName := by
  rw [nodesOfOutcomes, List.map_map]
  exact List.map_congr_left fun o _ => by cases o; rfl

/-- No outcomes give no list, and any others give the list that mirrors them: as many
nodes, in the same order, each with its record and workflow, and none with an empty list. -/
theorem flattenMirrorsOutcomes (r : Record) (workflow : String) (os : List Outcome) :
    (flatten (r.stamp workflow) os = none ↔ os = []) ∧
    (∀ rs, flatten (r.stamp workflow) os = some rs ↔
      os ≠ [] ∧ List.Forall₂ (Mirrors (r.stamp workflow)) os rs) ∧
    ∀ rs, flatten (r.stamp workflow) os = some rs →
      rs.length = os.length ∧
      (∀ n ∈ nodesAll rs, n.recordId = r.id ∧ n.recordDescription = r.descriptor ∧
        n.workflow = workflow ∧ n.subResults ≠ .nested []) ∧
      countAll rs = Outcome.countAll os ∧
      (nodesAll rs).map Result.ruleName = (Outcome.nodesAll os).map Outcome.ruleName := by
  refine ⟨by cases os <;> simp [flatten], fun rs => flattenSome.trans ?_, fun rs given => ?_⟩
  · refine and_congr_right fun _ => ⟨?_, mirrorsOnlyAll os⟩
    rintro rfl
    exact mirrorsOfOutcomes os
  · obtain ⟨_, rfl⟩ := flattenSome.mp given
    refine ⟨(mirrorsOfOutcomes os).length_eq.symm, fun n member => ?_, countOfOutcomes os,
      ruleNamesOfOutcomes os⟩
    rw [nodesOfOutcomes] at member
    obtain ⟨o, _, rfl⟩ := List.mem_map.mp member
    have stamped := stampedOutcome (r.stamp workflow) o
    exact ⟨stamped.recordId, stamped.recordDescription, stamped.workflow, normalOutcome o⟩

example : (flatten ⟨"rec", "one", "simple"⟩
    [{ Outcome.success "any" with children := .nested [] }]).map (·.map (·.subResults.isLeaf)) =
    some [true] := rfl

end RuleBroker.Result
