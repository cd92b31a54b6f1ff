import RuleBroker.Proofs.Flattening
import RuleBroker.Proofs.FloatBounds
/-! Time shared out among the nodes of a record's results. Every node at every depth gets the
same share, which is one division by the number of outcomes; nothing else of a tree changes,
and no tree but that one differs from it in so little. -/
namespace RuleBroker.Result

variable {time : Binary64} {rs ts : List Result}

inductive Retimed (time : Binary64) : Result → Result → Prop where
  | node {r t} (recordId : t.recordId = r.recordId)
      (recordDescription : t.recordDescription = r.recordDescription)
      (ruleName : t.ruleName = r.ruleName)
      (workflow : t.workflow = r.workflow)
      (success : t.success = r.success)
      (successEvent : t.successEvent = r.successEvent)
      (lastError : t.lastError = r.lastError)
      (output : t.output = r.output)
      (timed : t.milliseconds = time)
      (leaf : t.subResults = .leaf ↔ r.subResults = .leaf)
      (below : List.Forall₂ (Retimed time) r.subResults.toList t.subResults.toList) :
      Retimed time r t

theorem assignBelowLeaf (time : Binary64) (c : Children Result) :
    assignBelow time c = .leaf ↔ c = .leaf := by
  cases c <;> simp [assignBelow]

theorem assignBelowToList (time : Binary64) (c : Children Result) :
    (assignBelow time c).toList = assignAll time c.toList := by
  cases c <;> rfl

mutual

theorem retimedAssign : ∀ r : Result, Retimed time r (assign time r)
  | ⟨_, _, _, _, _, _, _, _, _, subResults⟩ =>
    .node rfl rfl rfl rfl rfl rfl rfl rfl rfl (assignBelowLeaf time subResults)
      (retimedBelow subResults)

theorem retimedBelow : ∀ c : Children Result,
    List.Forall₂ (Retimed time) c.toList (assignBelow time c).toList
  | .leaf => .nil
  | .nested items => retimedAll items

theorem retimedAll : ∀ rs : List Result, List.Forall₂ (Retimed time) rs (assignAll time rs)
  | [] => .nil
  | r :: rest => .cons (retimedAssign r) (retimedAll rest)

end

theorem sameChildren {α : Type} {c d : Children α} (leaf : c = .leaf ↔ d = .leaf)
    (items : c.toList = d.toList) : c = d := by
  cases c with
  | leaf => exact (leaf.mp rfl).symm
  | nested cs =>
    cases d with
    | leaf => exact leaf.mpr rfl
    | nested ds => exact congrArg _ items

mutual

theorem retimedOnly : ∀ (r : Result) {t : Result}, Retimed time r t → t = assign time r
  | ⟨_, _, _, _, _, _, _, _, _, subResults⟩, t, retimed => by
    obtain ⟨recordId, recordDescription, ruleName, workflow, success, successEvent, lastError,
      output, timed, leaf, below⟩ := retimed
    have items := (retimedOnlyBelow subResults below).trans (assignBelowToList time _).symm
    have shape := sameChildren (leaf.trans (assignBelowLeaf time subResults).symm) items
    cases t
    exact (mk.injEq ..).mpr ⟨recordId, recordDescription, ruleName, workflow, success,
      successEvent, lastError, output, timed, shape⟩

theorem retimedOnlyBelow : ∀ (c : Children Result) {ts : List Result},
    List.Forall₂ (Retimed time) c.toList ts → ts = assignAll time c.toList
  | .leaf, ts, retimed => by cases retimed; rfl
  | .nested items, ts, retimed => retimedOnlyAll items retimed

theorem retimedOnlyAll : ∀ (rs : List Result) {ts : List Result},
    List.Forall₂ (Retimed time) rs ts → ts = assignAll time rs
  | [], ts, retimed => by cases retimed; rfl
  | r :: rest, ts, retimed => by
    obtain _ | ⟨head, tail⟩ := retimed
    rw [retimedOnly r head, retimedOnlyAll rest tail]
    rfl

end

theorem forallRetimed : List.Forall₂ (Retimed time) rs ts ↔ ts = assignAll time rs := by
  refine ⟨retimedOnlyAll rs, ?_⟩
  rintro rfl
  exact retimedAll rs

theorem countNotZero {n : Nat} (positive : n ≠ 0) : (Binary64.ofNat n).isZero = false := by
  have atLeast := (Binary64.ofNatAtLeastOne (Nat.pos_of_ne_zero positive)).1
  by_contra zero
  have magnitude : (Binary64.ofNat n).magnitude = 0 := by
    simpa [Binary64.isZero] using zero
  have units : (Binary64.ofNat n).units = 0 := by
    simp [Binary64.units, Binary64.exponentField, Binary64.fraction, magnitude]
  rw [units] at atLeast
  exact absurd atLeast (Nat.not_le.mpr (twoToPos 1074))

/-- After its time is shared out a record's results are those of flattening, node by node in
the same places, with one time in all nodes: the milliseconds divided once by the number of
outcomes, parents and children alike. Without nodes nothing is divided. -/
theorem timeSharedByAllNodes (r : Record) (workflow : String) (os : List Outcome)
    (elapsed : Nat) :
    let nodes := (Outcome.nodesAll os).length
    let time := ((seconds elapsed).mul (.ofNat 1000)).div (.ofNat nodes)
    (∀ ts, (flatten (r.stamp workflow) os).map (apportion elapsed) = some ts ↔
      ∃ rs, flatten (r.stamp workflow) os = some rs ∧ List.Forall₂ (Retimed time) rs ts) ∧
    (∀ ts, (flatten (r.stamp workflow) os).map (apportion elapsed) = some ts →
      (nodesAll ts).length = nodes ∧ ∀ n ∈ nodesAll ts, n.milliseconds = time) ∧
    (∀ rs, countAll rs = 0 ↔ rs = []) ∧ apportion elapsed [] = [] ∧
    ∀ rs, countAll rs ≠ 0 → (Binary64.ofNat (countAll rs)).isZero = false := by
  intro nodes time
  have count : nodes = Outcome.countAll os := Outcome.lengthNodesAll os
  have shared {rs : List Result} (flattened : flatten (r.stamp workflow) os = some rs) :
      apportion elapsed rs = assignAll time rs := by
    obtain ⟨_, rfl⟩ := flattenSome.mp flattened
    rw [apportionAll, countOfOutcomes, ← count]
    rfl
  refine ⟨fun ts => ?_, fun ts given => ?_, countNone, rfl, fun rs => countNotZero⟩
  · simp only [Option.map_eq_some_iff, forallRetimed]
    refine exists_congr fun rs => and_congr_right fun flattened => ?_
    rw [shared flattened, eq_comm]
  · obtain ⟨rs, flattened, rfl⟩ := Option.map_eq_some_iff.mp given
    obtain ⟨_, own⟩ := flattenSome.mp flattened
    rw [shared flattened, nodesAllAssign]
    constructor
    · rw [List.length_map, lengthNodesAll, own, countOfOutcomes, count]
    · intro n member
      obtain ⟨m, _, rfl⟩ := List.mem_map.mp member
      exact timeAssign time m

theorem twoNodesShare :
    let os := [(Outcome.success "band").withChildren [.failure "red" "too low"]]
    ∃ ts, (flatten (Record.stamp ⟨"rec", "one", .unit⟩ "simple") os).map (apportion 4000000) =
        some ts ∧
      (nodesAll ts).length = 2 ∧ ∀ n ∈ nodesAll ts, n.milliseconds = Binary64.ofNat 2 := by
  intro os
  obtain ⟨_, each, _⟩ := timeSharedByAllNodes ⟨"rec", "one", .unit⟩ "simple" os 4000000
  obtain ⟨length, timed⟩ := each _ rfl
  have share : ((seconds 4000000).mul (.ofNat 1000)).div (.ofNat 2) = Binary64.ofNat 2 := by
    decide +kernel
  exact ⟨_, rfl, length, fun n member => (timed n member).trans share⟩

end RuleBroker.Result
