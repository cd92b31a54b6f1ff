import Mathlib.Data.List.Forall2
import RuleBroker.Broker
import RuleBroker.Proofs.ResultTree
import RuleBroker.RuleError
/-! What a batch that runs alone returns. Main statement: the entries of all records in
input order, each record's its own apart from the times, or the error of the first
record that has no view or no outcomes. -/
namespace RuleBroker

def Configuration.Answers (c : Configuration) (workflow : String) (r : Record)
    (outcomes : Option (List Outcome)) : Prop :=
  ∃ view, r.view = .ok view ∧ c.handle workflow view = .ok outcomes

inductive Configuration.Fails (c : Configuration) (workflow : String) (r : Record) :
    RuleError → Prop where
  | unprojected {e} (fault : r.view = .error e) : Fails c workflow r e
  | unevaluated {view e} (projected : r.view = .ok view)
      (fault : c.handle workflow view = .error e) : Fails c workflow r e

inductive Configuration.Completes (c : Configuration) (workflow : String) :
    List Record → List Record → Prop where
  | nil : Completes c workflow [] []
  | fail {r rest e} (failed : c.Fails workflow r e) : Completes c workflow (r :: rest) []
  | cons {r rest done outcomes} (answer : c.Answers workflow r outcomes)
      (next : Completes c workflow rest done) : Completes c workflow (r :: rest) (r :: done)

def Record.stamp (r : Record) (workflow : String) : Stamp := ⟨r.id, r.descriptor, workflow⟩

/-- The entries that a record adds to a batch's output: none, or the tree of its outcomes. -/
inductive Configuration.Gives (c : Configuration) (workflow : String) (r : Record) :
    List Result → Prop where
  | absent (answer : c.Answers workflow r none) : Gives c workflow r []
  | empty (answer : c.Answers workflow r (some [])) : Gives c workflow r []
  | tree {os block}
      (answer : c.Answers workflow r (some os))
      (flattened : Result.flatten (r.stamp workflow) os = some (Result.untimed block))
      (stamped : ∀ n ∈ Result.nodesAll block, Result.Stamped (r.stamp workflow) n)
      (kept : (Result.nodesAll block).map (fun n => (n.ruleName, n.success)) =
        (Outcome.nodesAll os).map fun o => (o.ruleName, o.isSuccess)) :
      Gives c workflow r block

namespace Configuration

variable {c : Configuration} {workflow : String} {r : Record}
  {outcomes others : Option (List Outcome)} {e : RuleError} {records done before : List Record}

theorem outcomesOk : c.outcomes workflow r = .ok outcomes ↔ c.Answers workflow r outcomes :=
  Stages.bindOk

theorem outcomesError : c.outcomes workflow r = .error e ↔ c.Fails workflow r e := by
  constructor
  · intro faulty
    rcases Stages.bindError.mp faulty with fault | ⟨view, projected, fault⟩
    · exact .unprojected fault
    · exact .unevaluated projected fault
  · intro fails
    refine Stages.bindError.mpr ?_
    cases fails with
    | unprojected fault => exact .inl fault
    | @unevaluated view _ projected fault => exact .inr ⟨view, projected, fault⟩

theorem answersOnly (left : c.Answers workflow r outcomes) (right : c.Answers workflow r others) :
    outcomes = others :=
  Except.ok.inj ((outcomesOk.mpr left).symm.trans (outcomesOk.mpr right))

theorem answersOrFails (left : c.Answers workflow r outcomes) (right : c.Fails workflow r e) :
    False := by
  have answer := outcomesOk.mpr left
  rw [outcomesError.mpr right] at answer
  cases answer

theorem somethingCompleted (c : Configuration) (workflow : String) (records : List Record) :
    ∃ done, c.Completes workflow records done := by
  induction records with
  | nil => exact ⟨[], .nil⟩
  | cons r rest ih =>
    cases answer : c.outcomes workflow r with
    | error e => exact ⟨[], .fail (outcomesError.mp answer)⟩
    | ok outcomes =>
      obtain ⟨done, next⟩ := ih
      exact ⟨r :: done, .cons (outcomesOk.mp answer) next⟩

theorem Completes.split (completes : c.Completes workflow records done) :
    (∀ r ∈ done, ∃ outcomes, c.Answers workflow r outcomes) ∧
      (done = records ∨ ∃ r rest e, records = done ++ r :: rest ∧ c.Fails workflow r e) := by
  induction completes with
  | nil => exact ⟨nofun, .inl rfl⟩
  | @fail r rest e failed => exact ⟨nofun, .inr ⟨r, rest, e, rfl, failed⟩⟩
  | @cons r rest done outcomes answer next ih =>
    obtain ⟨fine, stop⟩ := ih
    refine ⟨List.forall_mem_cons.mpr ⟨⟨outcomes, answer⟩, fine⟩, ?_⟩
    rcases stop with whole | ⟨x, behind, e, shape, failed⟩
    · exact .inl (congrArg (r :: ·) whole)
    · exact .inr ⟨x, behind, e, congrArg (r :: ·) shape, failed⟩

end Configuration

namespace Result

theorem nodesApportion {stamp : Stamp} {elapsed : Nat} {os : List Outcome} {n : Result}
    (member : n ∈ nodesAll (apportion elapsed (ofOutcomes stamp os))) : Stamped stamp n := by
  rw [apportionAll, nodesAllAssign, nodesOfOutcomes, List.map_map] at member
  obtain ⟨o, _, rfl⟩ := List.mem_map.mp member
  exact stampedAssign.mpr (stampedOutcome stamp o)

theorem markedOutcome (stamp : Stamp) (time : Binary64) (o : Outcome) :
    ((assign time (ofOutcome stamp o)).ruleName, (assign time (ofOutcome stamp o)).success) =
      (o.ruleName, o.isSuccess) := by
  cases o
  rfl

theorem keptApportion (stamp : Stamp) (elapsed : Nat) (os : List Outcome) :
    (nodesAll (apportion elapsed (ofOutcomes stamp os))).map (fun n => (n.ruleName, n.success)) =
      (Outcome.nodesAll os).map fun o => (o.ruleName, o.isSuccess) := by
  rw [apportionAll, nodesAllAssign, nodesOfOutcomes, List.map_map, List.map_map]
  exact List.map_congr_left fun o _ => markedOutcome stamp _ o

end Result

namespace Broker

def block (r : Record) (workflow : String) (outcomes : Option (List Outcome)) (elapsed : Nat) :
    List Result :=
  (resultsOf r workflow outcomes elapsed).getD []

theorem blockGiven {c : Configuration} {workflow : String} {r : Record}
    {outcomes : Option (List Outcome)} (elapsed : Nat) (answer : c.Answers workflow r outcomes) :
    c.Gives workflow r (block r workflow outcomes elapsed) := by
  rcases outcomes with _ | _ | ⟨o, rest⟩
  · exact .absent answer
  · exact .empty answer
  · have flat : Result.flatten (r.stamp workflow) (o :: rest) =
        some (Result.ofOutcomes (r.stamp workflow) (o :: rest)) := rfl
    have shown : block r workflow (some (o :: rest)) elapsed =
        Result.apportion elapsed (Result.ofOutcomes (r.stamp workflow) (o :: rest)) := rfl
    rw [shown]
    refine .tree answer ?_ (fun n member => Result.nodesApportion member)
      (Result.keptApportion _ elapsed _)
    rw [Result.untimedApportion, Result.untimedOfOutcomes, flat]

def entries (clock : Nat → Nat) (c : Configuration) (workflow : String) (index : Nat) :
    List Record → Except RuleError (List Result)
  | [] => .ok []
  | r :: rest => do
    let outcomes ← c.outcomes workflow r
    let later ← entries clock c workflow (index + 1) rest
    .ok (block r workflow outcomes (clock index) ++ later)

variable {clock : Nat → Nat} {c : Configuration} {workflow : String} {index : Nat}

theorem entriesFaulty {r : Record} {e : RuleError} (rest : List Record)
    (faulty : c.outcomes workflow r = .error e) :
    entries clock c workflow index (r :: rest) = .error e := by
  simp [entries, faulty, bind, Except.bind]

theorem entriesAnswered {r : Record} {outcomes : Option (List Outcome)} (rest : List Record)
    (answer : c.outcomes workflow r = .ok outcomes) :
    entries clock c workflow index (r :: rest) =
      (entries clock c workflow (index + 1) rest).map
        (block r workflow outcomes (clock index) ++ ·) := by
  cases later : entries clock c workflow (index + 1) rest <;>
    simp [entries, answer, later, bind, Except.bind, Except.map]

theorem entriesAppend (rs more : List Record) :
    entries clock c workflow index (rs ++ more) = (do
      let first ← entries clock c workflow index rs
      let second ← entries clock c workflow (index + rs.length) more
      .ok (first ++ second)) := by
  induction rs generalizing index with
  | nil =>
    cases second : entries clock c workflow index more <;>
      simp [entries, second, bind, Except.bind]
  | cons r rest ih =>
    have shifted : index + 1 + rest.length = index + (r :: rest).length := by
      simp only [List.length_cons]; omega
    cases answer : c.outcomes workflow r with
    | error e =>
      rw [List.cons_append, entriesFaulty _ answer, entriesFaulty _ answer]
      rfl
    | ok outcomes =>
      rw [List.cons_append, entriesAnswered _ answer, entriesAnswered _ answer, ih, shifted]
      cases entries clock c workflow (index + 1) rest with
      | error e => rfl
      | ok first =>
        cases entries clock c workflow (index + (r :: rest).length) more with
        | error e => rfl
        | ok second => simp [bind, Except.bind, Except.map]

theorem entriesCongr {other : Nat → Nat} {rs : List Record}
    (same : ∀ k, index ≤ k → k < index + rs.length → clock k = other k) :
    entries clock c workflow index rs = entries other c workflow index rs := by
  induction rs generalizing index with
  | nil => rfl
  | cons r rest ih =>
    have first : clock index = other index := same index (Nat.le_refl _) (by simp)
    have later : entries clock c workflow (index + 1) rest =
        entries other c workflow (index + 1) rest := by
      refine ih fun k low high => same k (by omega) ?_
      simp only [List.length_cons]
      omega
    cases answer : c.outcomes workflow r with
    | error e => rw [entriesFaulty _ answer, entriesFaulty _ answer]
    | ok outcomes => rw [entriesAnswered _ answer, entriesAnswered _ answer, first, later]

theorem untimedBlock (r : Record) (outcomes : Option (List Outcome)) (time elapsed : Nat) :
    Result.untimed (block r workflow outcomes time) =
      Result.untimed (block r workflow outcomes elapsed) := by
  unfold block resultsOf
  cases outcomes.bind (Result.flatten ⟨r.id, r.descriptor, workflow⟩) with
  | none => simp only [Option.map_none]
  | some results => exact (Result.untimedApportion _ _).trans (Result.untimedApportion _ _).symm

theorem entriesUntimed (other : Nat → Nat) (start : Nat) (rs : List Record) :
    (entries clock c workflow index rs).map Result.untimed =
      (entries other c workflow start rs).map Result.untimed := by
  induction rs generalizing index start with
  | nil => rfl
  | cons r rest ih =>
    cases answer : c.outcomes workflow r with
    | error e => rw [entriesFaulty _ answer, entriesFaulty _ answer]
    | ok outcomes =>
      have later := @ih (index + 1) (start + 1)
      rw [entriesAnswered _ answer, entriesAnswered _ answer]
      cases left : entries clock c workflow (index + 1) rest <;>
        cases right : entries other c workflow (start + 1) rest <;>
          simp_all [Except.map, Result.untimedAppend]
      exact untimedBlock r outcomes _ _

theorem entriesGiven {rs : List Record} (fine : ∀ r ∈ rs, ∃ outcomes, c.Answers workflow r outcomes) :
    ∃ blocks : List (List Result), entries clock c workflow index rs = .ok blocks.flatten ∧
      List.Forall₂ (c.Gives workflow) rs blocks := by
  induction rs generalizing index with
  | nil => exact ⟨[], rfl, .nil⟩
  | cons r rest ih =>
    obtain ⟨⟨outcomes, answer⟩, fine⟩ := List.forall_mem_cons.mp fine
    obtain ⟨blocks, found, each⟩ := @ih (index + 1) fine
    refine ⟨block r workflow outcomes (clock index) :: blocks, ?_,
      .cons (blockGiven _ answer) each⟩
    rw [entriesAnswered _ (Configuration.outcomesOk.mpr answer), found]
    rfl

theorem entriesFirstError {before : List Record} {r : Record} {e : RuleError}
    (fine : ∀ x ∈ before, ∃ outcomes, c.Answers workflow x outcomes) (failed : c.Fails workflow r e)
    (rest : List Record) :
    entries clock c workflow index (before ++ r :: rest) = .error e := by
  obtain ⟨blocks, found, _⟩ : ∃ blocks : List (List Result),
      entries clock c workflow index before = .ok blocks.flatten ∧
        List.Forall₂ (c.Gives workflow) before blocks := entriesGiven fine
  rw [entriesAppend, found, entriesFaulty rest (Configuration.outcomesError.mpr failed)]
  rfl

theorem runRecordsAnswer (b : Broker) (batch : Batch) (rs : List Record) :
    (runRecords clock b batch rs).1 =
      (entries clock batch.configuration batch.workflow b.processed rs).map
        (batch.output ++ ·) := by
  induction rs generalizing b batch with
  | nil => simp [runRecords, entries, Except.map]
  | cons r rest ih =>
    cases answer : batch.configuration.outcomes batch.workflow r with
    | error e => simp [runRecords, evaluate, answer, entriesFaulty, Except.map]
    | ok outcomes =>
      rw [entriesAnswered _ answer]
      simp only [runRecords, evaluate, answer, ih]
      cases later : entries clock batch.configuration batch.workflow (b.processed + 1) rest <;>
        simp [complete, later, block, Except.map]

theorem runRecordsBlind {before : List Record} {r : Record} {e : RuleError}
    (fine : ∀ x ∈ before, ∃ outcomes, c.Answers workflow x outcomes)
    (failed : c.Fails workflow r e) (rest other : List Record) (b : Broker)
    {batch twin : Batch}
    (configured : batch.configuration = c ∧ twin.configuration = c)
    (named : batch.workflow = workflow ∧ twin.workflow = workflow) :
    runRecords clock b batch (before ++ r :: rest) =
      runRecords clock b twin (before ++ r :: other) := by
  have faulty : c.outcomes workflow r = .error e := Configuration.outcomesError.mpr failed
  induction before generalizing b batch twin with
  | nil =>
    simp only [List.nil_append, runRecords, evaluate, configured.1, configured.2, named.1,
      named.2, faulty]
  | cons x before ih =>
    obtain ⟨⟨outcomes, answers⟩, fine⟩ := List.forall_mem_cons.mp fine
    have answer : c.outcomes workflow x = .ok outcomes := Configuration.outcomesOk.mpr answers
    have moved : (b.complete batch x outcomes (clock b.processed)).2 =
        (b.complete twin x outcomes (clock b.processed)).2 := by
      simp only [complete, named.1, named.2]
    simp only [List.cons_append, runRecords, evaluate, configured.1, configured.2, named.1,
      named.2, answer, moved]
    exact ih fine _ configured named

def entered (b : Broker) : Broker := { b with executing := true, processed := 0, lastRun := {} }

variable {b : Broker}

theorem acquireTaken (taken : b.executing = true) : b.acquire = .error .alreadyExecuting := by
  simp [acquire, taken]

theorem acquireFree (free : b.executing = false) :
    b.acquire = .ok { b with executing := true } := by
  simp [acquire, free]

theorem acceptKnown {request : Option String} (known : c.Admits request) (records : List Record) :
    b.accept c records request =
      .ok (c.opened records request, { b with processed := 0, lastRun := {} }) := by
  simp only [accept, if_pos known]

theorem acceptUnknown {request : Option String} (unknown : ¬ c.Admits request)
    (records : List Record) :
    b.accept c records request = .error (unknownWorkflow (c.chosen request) c.workflows) := by
  simp only [accept, if_neg unknown]

theorem beginAdmitted {request : Option String} (active : b.active = some c)
    (free : b.executing = false) (known : c.Admits request) (records : List Record) :
    b.begin records request = .ok (c.opened records request, b.entered) := by
  have loaded : b.load = .ok c := by simp only [load, active]
  simp only [begin, loaded, acquireFree free, bind, Except.bind, acceptKnown known records]
  rfl

theorem executeAdmitted {request : Option String} (active : b.active = some c)
    (free : b.executing = false) (known : c.Admits request) (records : List Record) :
    b.execute clock records request =
      runRecords clock b.entered (c.opened records request) records := by
  simp only [execute, beginAdmitted active free known records]
  rfl

theorem executeAnswer {request : Option String} (active : b.active = some c)
    (free : b.executing = false) (known : c.Admits request) (records : List Record) :
    (b.execute clock records request).1 =
      entries clock c (c.chosen request) 0 records := by
  rw [executeAdmitted active free known, runRecordsAnswer]
  change (entries clock c (c.chosen request) 0 records).map ([] ++ ·) = _
  cases entries clock c (c.chosen request) 0 records <;> rfl

theorem givesAlone {r : Record} {xs ys : List Result} (left : c.Gives workflow r xs)
    (right : c.Gives workflow r ys) : Result.untimed xs = Result.untimed ys := by
  have same {os ps : Option (List Outcome)} (first : c.Answers workflow r os)
      (second : c.Answers workflow r ps) : os = ps := Configuration.answersOnly first second
  cases left with
  | absent answer =>
    cases right with
    | absent | empty => rfl
    | tree other => cases same answer other
  | empty answer =>
    cases right with
    | absent | empty => rfl
    | tree other flattened =>
      cases same answer other
      cases flattened
  | tree answer flattened =>
    cases right with
    | absent other => cases same answer other
    | empty other =>
      cases same answer other
      cases flattened
    | tree other flattened' =>
      cases same answer other
      exact Option.some.inj (flattened.symm.trans flattened')

/-- All records' entries in input order, or the error of the first record that has no view or on
whose view the evaluator fails, behind which nothing is looked at; and batches add up. -/
theorem batchAddsEveryRecordOrFirstError (clock : Nat → Nat) {b : Broker} {c : Configuration}
    {request : Option String} (active : b.active = some c) (free : b.executing = false)
    (known : c.Admits request) (records : List Record) :
    ((∀ r ∈ records, ∃ outcomes, c.Answers (c.chosen request) r outcomes) →
      ∃ blocks : List (List Result),
        (b.execute clock records request).1 = .ok blocks.flatten ∧
        List.Forall₂ (c.Gives (c.chosen request)) records blocks) ∧
    (∀ r xs ys, c.Gives (c.chosen request) r xs → c.Gives (c.chosen request) r ys →
      Result.untimed xs = Result.untimed ys) ∧
    (∀ more, (b.execute clock (records ++ more) request).1.map Result.untimed = (do
      let first ← (b.execute clock records request).1.map Result.untimed
      let second ← (b.execute clock more request).1.map Result.untimed
      .ok (first ++ second))) ∧
    ((∀ r ∈ records, ∃ outcomes, c.Answers (c.chosen request) r outcomes) ∨
      ∃ before r rest e, records = before ++ r :: rest ∧
        (∀ x ∈ before, ∃ outcomes, c.Answers (c.chosen request) x outcomes) ∧
        c.Fails (c.chosen request) r e) ∧
    ∀ before r rest e, records = before ++ r :: rest →
      (∀ x ∈ before, ∃ outcomes, c.Answers (c.chosen request) x outcomes) →
      c.Fails (c.chosen request) r e →
      (b.execute clock records request).1 = .error e ∧
      ∀ other, b.execute clock (before ++ r :: other) request = b.execute clock records request := by
  refine ⟨fun fine => ?_, fun r xs ys left right => givesAlone left right, fun more => ?_, ?_,
    fun before r rest e shape fine failed => ?_⟩
  · rw [executeAnswer active free known]
    exact entriesGiven fine
  · rw [executeAnswer active free known, executeAnswer active free known,
      executeAnswer active free known, entriesAppend]
    have second : (entries clock c (c.chosen request) (0 + records.length) more).map
        Result.untimed = (entries clock c (c.chosen request) 0 more).map Result.untimed :=
      entriesUntimed clock 0 more
    cases first : entries clock c (c.chosen request) 0 records with
    | error e => rfl
    | ok xs =>
      cases left : entries clock c (c.chosen request) (0 + records.length) more <;>
        cases right : entries clock c (c.chosen request) 0 more <;>
          simp_all [bind, Except.bind, Except.map, Result.untimedAppend]
  · obtain ⟨done, completes⟩ := c.somethingCompleted (c.chosen request) records
    obtain ⟨fine, rfl | ⟨r, rest, e, shape, failed⟩⟩ := completes.split
    · exact .inl fine
    · exact .inr ⟨done, r, rest, e, shape, fine, failed⟩
  · subst shape
    refine ⟨?_, fun other => ?_⟩
    · rw [executeAnswer active free known, entriesFirstError fine failed]
    · rw [executeAdmitted active free known, executeAdmitted active free known]
      exact runRecordsBlind fine failed other rest _ ⟨rfl, rfl⟩ ⟨rfl, rfl⟩

def bandOutcomes : List Outcome :=
  [{ Outcome.failure "band" "too low" with
    children := .nested [.success "red", .failure "green" "no"] }]

def bandHandle : Handle := fun workflow view =>
  match view.data with
  | .int 0 => .ok none
  | .int 1 => .error (.evaluator workflow)
  | _ => .ok (some bandOutcomes)

def bandConfiguration : Configuration := ⟨bandHandle, "simple", ["simple", "other"]⟩

def bandBroker : Broker := { active := some bandConfiguration }

def beyondWord : Int := 18446744073709551616

def numbered (id : String) (n : Int) : Record := ⟨id, "numbered", .wide n⟩

def bandTree (id workflow : String) : Result :=
  ⟨id, "numbered", "band", workflow, false, none, some "too low", none, .zero, .nested [
    ⟨id, "numbered", "red", workflow, true, none, none, none, .zero, .leaf⟩,
    ⟨id, "numbered", "green", workflow, false, none, some "no", none, .zero, .leaf⟩]⟩

theorem bandBatches :
    (bandBroker.active = some bandConfiguration ∧ bandBroker.executing = false ∧
      bandConfiguration.Admits (some "other")) ∧
    (bandBroker.execute (fun _ => 5) [numbered "a" 2, numbered "b" 0, numbered "c" 3]
      (some "other")).1.map Result.untimed = .ok [bandTree "a" "other", bandTree "c" "other"] ∧
    (bandBroker.execute (fun _ => 5) [numbered "a" 2, numbered "b" 1, numbered "c" 3]
      (some "other")).1 = .error (.evaluator "other") ∧
    (bandBroker.execute (fun _ => 5) [numbered "a" 2, numbered "b" beyondWord, numbered "c" 1]
      (some "other")).1 = .error (.serialization "b" "number out of range") := by
  have known : bandConfiguration.Admits (some "other") := by decide
  have law := batchAddsEveryRecordOrFirstError (fun _ => 5) (b := bandBroker) rfl rfl known
  have fine (x : Record) (first : x ∈ [numbered "a" 2]) :
      ∃ outcomes, bandConfiguration.Answers "other" x outcomes := by
    obtain rfl := List.mem_singleton.mp first
    exact ⟨_, _, rfl, rfl⟩
  obtain ⟨whole, only, _, _, _⟩ := law [numbered "a" 2, numbered "b" 0, numbered "c" 3]
  obtain ⟨_, _, _, _, broken⟩ := law [numbered "a" 2, numbered "b" 1, numbered "c" 3]
  obtain ⟨_, _, _, _, wide⟩ := law [numbered "a" 2, numbered "b" beyondWord, numbered "c" 1]
  refine ⟨⟨rfl, rfl, known⟩, ?_, ?_, ?_⟩
  · have all (x : Record) (member : x ∈ [numbered "a" 2, numbered "b" 0, numbered "c" 3]) :
        ∃ outcomes, bandConfiguration.Answers "other" x outcomes := by
      rcases List.mem_cons.mp member with rfl | member
      · exact ⟨_, _, rfl, rfl⟩
      · rcases List.mem_pair.mp member with rfl | rfl <;> exact ⟨_, _, rfl, rfl⟩
    obtain ⟨blocks, found, _ | ⟨given, _ | ⟨given', _ | ⟨given'', _ | _⟩⟩⟩⟩ := whole all
    have first : bandConfiguration.Answers "other" (numbered "a" 2) (some bandOutcomes) :=
      ⟨_, rfl, rfl⟩
    have last : bandConfiguration.Answers "other" (numbered "c" 3) (some bandOutcomes) :=
      ⟨_, rfl, rfl⟩
    have one := only _ _ _ given (blockGiven 5 first)
    have two := only _ _ _ given' (.absent ⟨_, rfl, rfl⟩)
    have three := only _ _ _ given'' (blockGiven 5 last)
    rw [found, List.flatten_cons, List.flatten_cons, List.flatten_cons, List.flatten_nil,
      Except.map, Result.untimedAppend, Result.untimedAppend, Result.untimedAppend, one, two, three]
    rfl
  · exact (broken [numbered "a" 2] (numbered "b" 1) _ _ rfl fine (.unevaluated rfl rfl)).1
  · exact (wide [numbered "a" 2] (numbered "b" beyondWord) _ _ rfl fine (.unprojected rfl)).1

end Broker
end RuleBroker
