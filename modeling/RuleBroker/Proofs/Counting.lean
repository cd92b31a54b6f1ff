import RuleBroker.Proofs.Exclusion
/-! The counter of processed records. A batch begins it anew and counts each record that
it completes, so that it ends at the first record without an answer, or at all of them;
who is not let in leaves it alone. -/
namespace RuleBroker
open Broker (unknownWorkflow)

theorem Configuration.Completes.shorter {c : Configuration} {workflow : String}
    {records done : List Record} (completes : c.Completes workflow records done) :
    done = records ↔ done.length = records.length := by
  refine ⟨congrArg List.length, fun same => ?_⟩
  obtain ⟨_, whole | ⟨r, rest, e, rfl, _⟩⟩ := completes.split
  · exact whole
  · rw [List.length_append, List.length_cons] at same
    omega

theorem Configuration.Completes.only {c : Configuration} {workflow : String}
    {records done others : List Record} (left : c.Completes workflow records done)
    (right : c.Completes workflow records others) : done = others := by
  induction left generalizing others with
  | nil =>
    cases right
    rfl
  | fail failed =>
    cases right with
    | fail => rfl
    | cons answer => exact (answersOrFails answer failed).elim
  | cons answer next ih =>
    cases right with
    | fail failed => exact (answersOrFails answer failed).elim
    | cons _ later => exact congrArg _ (ih later)

structure Batch.Ran (batch : Batch) (records done : List Record) (b : Broker)
    (answer : Except RuleError (List Result)) (after : Broker) : Prop where
  counted : after.processed = b.processed + done.length
  whole : (∃ results, answer = .ok results) ↔ done = records
  reported : ∀ results, answer = .ok results → after.lastRun = ⟨batch.records, results.length⟩
  released : after.executing = false
  active : after.active = b.active

namespace Broker

variable {clock : Nat → Nat} {c : Configuration} {b : Broker}

theorem runRecordsRan {workflow : String} {records done : List Record}
    (completes : c.Completes workflow records done) (b : Broker) (batch : Batch)
    (configured : batch.configuration = c) (named : batch.workflow = workflow) :
    batch.Ran records done b (b.runRecords clock batch records).1
      (b.runRecords clock batch records).2 := by
  induction completes generalizing b batch with
  | nil =>
    refine ⟨rfl, ⟨fun _ => rfl, fun _ => ⟨_, rfl⟩⟩, fun results answer => ?_, rfl, rfl⟩
    cases answer
    rfl
  | fail failed =>
    have faulty := Configuration.outcomesError.mpr failed
    simp only [runRecords, evaluate, configured, named, faulty]
    refine ⟨rfl, by simp, fun results impossible => ?_, rfl, rfl⟩
    cases impossible
  | @cons r rest done outcomes answers next ih =>
    have answer := Configuration.outcomesOk.mpr answers
    have later := ih (b.complete batch r outcomes (clock b.processed)).2
      (b.complete batch r outcomes (clock b.processed)).1 configured named
    simp only [runRecords, evaluate, configured, named, answer]
    refine ⟨?_, ?_, later.reported, later.released, later.active⟩
    · rw [later.counted, List.length_cons]
      simp only [complete]
      omega
    · rw [later.whole, List.cons.injEq, and_iff_right rfl]

theorem executeUnconfigured (missing : b.active = none) (records : List Record)
    (workflow : Option String) :
    b.execute clock records workflow = (.error .notConfigured, b) := by
  have loaded : b.load = .error .notConfigured := by simp only [load, missing]
  simp only [execute, begin, loaded, bind, Except.bind]

theorem executeTaken (active : b.active = some c) (taken : b.executing = true)
    (records : List Record) (workflow : Option String) :
    b.execute clock records workflow = (.error .alreadyExecuting, b) := by
  have loaded : b.load = .ok c := by simp only [load, active]
  simp only [execute, begin, loaded, acquireTaken taken, bind, Except.bind]

theorem executeUnknown {workflow : Option String} (active : b.active = some c)
    (free : b.executing = false) (unknown : ¬ c.Admits workflow) (records : List Record) :
    b.execute clock records workflow =
      (.error (unknownWorkflow (c.chosen workflow) c.workflows), b) := by
  have loaded : b.load = .ok c := by simp only [load, active]
  simp only [execute, begin, loaded, acquireFree free, acceptUnknown unknown, bind, Except.bind]

theorem executeRan {workflow : Option String} (clock : Nat → Nat) (active : b.active = some c)
    (free : b.executing = false) (known : c.Admits workflow) {records done : List Record}
    (completes : c.Completes (c.chosen workflow) records done) :
    (c.opened records workflow).Ran records done b.entered (b.execute clock records workflow).1
      (b.execute clock records workflow).2 := by
  rw [executeAdmitted active free known]
  exact runRecordsRan completes b.entered (c.opened records workflow) rfl rfl

theorem executeFrame (clock : Nat → Nat) (b : Broker) (records : List Record)
    (workflow : Option String) :
    (b.execute clock records workflow).2.executing = b.executing ∧
      (b.execute clock records workflow).2.active = b.active := by
  cases active : b.active with
  | none => rw [executeUnconfigured active]; exact ⟨rfl, active⟩
  | some c =>
    cases flag : b.executing with
    | true => rw [executeTaken active flag]; exact ⟨flag, active⟩
    | false =>
      by_cases known : c.Admits workflow
      · obtain ⟨done, completes⟩ := c.somethingCompleted (c.chosen workflow) records
        have ran := executeRan clock active flag known completes
        exact ⟨ran.released, ran.active.trans active⟩
      · rw [executeUnknown active flag known]; exact ⟨flag, active⟩

theorem entriesAnswers {workflow : String} {index : Nat} {records : List Record}
    {output : List Result} (found : entries clock c workflow index records = .ok output) :
    ∀ r ∈ records, ∃ outcomes, c.Answers workflow r outcomes := by
  obtain ⟨done, completes⟩ := c.somethingCompleted workflow records
  obtain ⟨fine, rfl | ⟨r, rest, e, rfl, failed⟩⟩ := completes.split
  · exact fine
  · rw [entriesFirstError fine failed] at found
    cases found

end Broker

theorem Task.stepsCompleted (clock : Nat → Nat) (request : Request) {c : Configuration}
    {workflow : String} {records done : List Record}
    (completes : c.Completes workflow records done) {n : Nat} (enough : n ≤ done.length)
    (b : Broker) (batch : Batch) (configured : batch.configuration = c)
    (named : batch.workflow = workflow) (left : batch.remaining = records) :
    ∃ batch' b', Task.stepsAlone clock n b (.running request batch) =
        (.running request batch', b') ∧
      batch'.remaining = records.drop n ∧ b'.processed = b.processed + n ∧
      b'.lastRun = b.lastRun := by
  induction n generalizing b batch records done with
  | zero => exact ⟨batch, b, rfl, left, rfl, rfl⟩
  | succ n ih =>
    cases completes with
    | nil | fail => exact absurd enough (Nat.not_succ_le_zero n)
    | @cons r rest done outcomes answers next =>
      have answer := Configuration.outcomesOk.mpr answers
      have moved : (b.complete batch r outcomes (clock b.processed)).1.remaining = rest := by
        simp only [Broker.complete, left, List.tail_cons]
      obtain ⟨batch', b', steps, remaining, count, stats⟩ :=
        ih next (Nat.le_of_succ_le_succ enough)
          (b.complete batch r outcomes (clock b.processed)).2
          (b.complete batch r outcomes (clock b.processed)).1 configured named moved
      refine ⟨batch', b', ?_, ?_, ?_, stats⟩
      · rw [← steps]
        simp only [Task.stepsAlone, Task.step, left, Broker.evaluate, configured, named, answer]
      · rw [remaining, List.drop_succ_cons]
      · rw [count]
        simp only [Broker.complete]
        omega

def Task.Measured : Task → Prop
  | .running request batch => batch.records = request.records.length
  | _ => True

theorem Task.Move.measured {b b' : Broker} {t t' : Task} (move : Task.Move b t t' b')
    (before : t.Measured) : t'.Measured := by
  cases move with
  | enter => rfl
  | complete | idle => exact before
  | unconfigured | load | taken | acquire | unknown | finish | fail | leave | abort => trivial

theorem Task.Move.refused {b b' : Broker} {t : Task} {e : RuleError}
    (move : Task.Move b t (.ended (.error e)) b') (outside : ∀ own batch, t ≠ .running own batch) :
    b'.processed = b.processed ∧ b'.lastRun = b.lastRun ∧ b'.active = b.active ∧
      b'.executing = (b.executing && !t.holds) := by
  cases move with
  | unconfigured | taken | idle => simp [Task.holds]
  | unknown => simp [Task.holds, Broker.release]
  | fail => exact absurd rfl (outside _ _)

theorem Task.Move.concluded {b b' : Broker} {request : Request} {batch : Batch}
    {answer : Except RuleError (List Result)}
    (move : Task.Move b (.running request batch) (.ended answer) b') :
    (b'.processed = b.processed ∧ b'.executing = false ∧ b'.active = b.active) ∧
    ((batch.remaining = [] ∧ answer = .ok batch.output ∧
        b'.lastRun = ⟨batch.records, batch.output.length⟩) ∨
      ∃ r rest e, batch.remaining = r :: rest ∧
        batch.configuration.Fails batch.workflow r e ∧ answer = .error e) := by
  cases move with
  | finish done => exact ⟨⟨rfl, rfl, rfl⟩, .inl ⟨done, rfl, rfl⟩⟩
  | fail next faulty =>
    exact ⟨⟨rfl, rfl, rfl⟩, .inr ⟨_, _, _, next, Configuration.outcomesError.mp faulty, rfl⟩⟩

namespace System

variable {s s' : System}

theorem tasksKeep {P : Task → Prop} (fresh : ∀ request, P (.waiting request))
    (keeps : ∀ b t t' b', P t → Task.Move b t t' b' → P t')
    (before : ∀ (i : Nat) t, s.tasks[i]? = some t → P t) (change : Change s s') :
    ∀ (i : Nat) t, s'.tasks[i]? = some t → P t := by
  intro i t after
  cases change with
  | idle | register | configure | setup => exact before i t after
  | call request =>
    rcases placeOfAppend after with earlier | rfl
    · exact before i t earlier
    · exact fresh request
  | task found move =>
    rcases placeOfSet found after with ⟨rfl, rfl⟩ | ⟨_, earlier⟩
    · exact keeps _ _ _ _ (before i _ found) move
    · exact before i t earlier

def Measured (s : System) : Prop := ∀ (i : Nat) t, s.tasks[i]? = some t → t.Measured

theorem measuredStart : Measured {} := fun i t found => by simp at found

theorem measuredChange (before : s.Measured) (change : Change s s') : s'.Measured :=
  tasksKeep (fun _ => trivial) (fun _ _ _ _ before move => move.measured before) before change

theorem measuredRun (actions : List Action) : (run {} actions).Measured :=
  runKeeps (fun _ _ before change => measuredChange before change) measuredStart actions

theorem runningCounted (actions : List Action) {i : Nat} {request : Request} {batch : Batch}
    (found : (run {} actions).tasks[i]? = some (.running request batch)) :
    batch.workflow = batch.configuration.chosen request.workflow ∧
    ∃ done, request.records = done ++ batch.remaining ∧
      (∀ r ∈ done, ∃ outcomes, batch.configuration.Answers batch.workflow r outcomes) ∧
      (run {} actions).broker.processed = done.length := by
  obtain ⟨_, named, clock, done, split, count, output⟩ :=
    (consistentRun actions).underway i request batch found
  exact ⟨named, done, split, Broker.entriesAnswers output, count⟩

end System

/-- A call that runs alone, from any state: who is refused changes nothing, and who is let in
counts its records one by one from zero, up to the first that fails. -/
structure Broker.CallCounted (clock : Nat → Nat) (b : Broker) (request : Request)
    (answer : Except RuleError (List Result)) (after : Broker) : Prop where
  unconfigured : b.active = none → answer = .error .notConfigured ∧ after = b
  taken : ∀ c, b.active = some c → b.executing = true →
    answer = .error .alreadyExecuting ∧ after = b
  unknown : ∀ c, b.active = some c → b.executing = false → ¬ c.Admits request.workflow →
    answer = .error (unknownWorkflow (c.chosen request.workflow) c.workflows) ∧ after = b
  admitted : ∀ c, b.active = some c → b.executing = false → c.Admits request.workflow →
    ∃ done, c.Completes (c.chosen request.workflow) request.records done ∧
    (∀ n ≤ done.length, ∃ batch b',
      Task.stepsAlone clock (n + 3) b (.waiting request) = (.running request batch, b') ∧
      batch.remaining = request.records.drop n ∧ b'.processed = n) ∧
    Task.stepsAlone clock (request.records.length + 4) b (.waiting request) =
      (.ended answer, after) ∧
    after.processed = done.length ∧
    (after.processed = request.records.length ↔ ∃ results, answer = .ok results) ∧
    (∀ r rest e, request.records = done ++ r :: rest →
      c.Fails (c.chosen request.workflow) r e → answer = .error e) ∧
    ∀ results, answer = .ok results → after.lastRun = ⟨request.records.length, results.length⟩
  executing : after.executing = b.executing
  active : after.active = b.active

theorem Broker.callCounted (clock : Nat → Nat) (b : Broker) (request : Request) :
    b.CallCounted clock request (b.execute clock request.records request.workflow).1
      (b.execute clock request.records request.workflow).2 where
  unconfigured missing := by
    rw [Broker.executeUnconfigured missing]
    exact ⟨rfl, rfl⟩
  taken c active taken := by
    rw [Broker.executeTaken active taken]
    exact ⟨rfl, rfl⟩
  unknown c active free unknown := by
    rw [Broker.executeUnknown active free unknown]
    exact ⟨rfl, rfl⟩
  admitted c active free known := by
    obtain ⟨done, completes⟩ := c.somethingCompleted (c.chosen request.workflow) request.records
    have ran := Broker.executeRan clock active free known completes
    have counted : (b.execute clock request.records request.workflow).2.processed = done.length :=
      ran.counted.trans (Nat.zero_add _)
    refine ⟨done, completes, fun n enough => ?_, Task.stepsExecute clock b request, counted, ?_,
      fun r rest e shape failed => ?_, ran.reported⟩
    · obtain ⟨batch, b', steps, remaining, count, _⟩ := Task.stepsCompleted clock request completes
        enough b.entered (c.opened request.records request.workflow) rfl rfl rfl
      refine ⟨batch, b', ?_, remaining, count.trans (Nat.zero_add _)⟩
      exact (Task.stepsAdmitted clock active free known n).trans steps
    · rw [counted, ran.whole]
      exact completes.shorter.symm
    · rw [Broker.executeAnswer active free known, shape]
      exact Broker.entriesFirstError completes.split.1 failed rest
  executing := (Broker.executeFrame clock b request.records request.workflow).1
  active := (Broker.executeFrame clock b request.records request.workflow).2

namespace System

/-- Calls that overlap, at each moment and at each end: who is refused leaves the counter alone,
and while a batch runs it is the number of the records that this batch has completed. -/
structure CallsCounted (s : System) : Prop where
  refused : ∀ (i : Nat) elapsed t e, s.tasks[i]? = some t →
    (∀ request batch, t ≠ .running request batch) →
    (s.act (.step i elapsed)).tasks[i]? = some (.ended (.error e)) →
    let after := (s.act (.step i elapsed)).broker
    after.processed = s.broker.processed ∧ after.lastRun = s.broker.lastRun ∧
    after.active = s.broker.active ∧ after.executing = (s.broker.executing && !t.holds)
  running : ∀ (i : Nat) request batch, s.tasks[i]? = some (.running request batch) →
    batch.workflow = batch.configuration.chosen request.workflow ∧
    ∃ done, request.records = done ++ batch.remaining ∧
    (∀ r ∈ done, ∃ outcomes, batch.configuration.Answers batch.workflow r outcomes) ∧
    s.broker.processed = done.length ∧
    ∀ elapsed answer, (s.act (.step i elapsed)).tasks[i]? = some (.ended answer) →
      let after := (s.act (.step i elapsed)).broker
      after.processed = done.length ∧ after.executing = false ∧
      after.active = s.broker.active ∧
      ((batch.remaining = [] ∧ answer = .ok batch.output ∧
          after.lastRun = ⟨request.records.length, batch.output.length⟩) ∨
        ∃ r rest e, batch.remaining = r :: rest ∧
          batch.configuration.Fails batch.workflow r e ∧ answer = .error e)

theorem callsCounted (actions : List Action) : CallsCounted (run {} actions) where
  refused _ _ _ _ found outside after := (stepMoves found after).refused outside
  running i request batch found := by
    obtain ⟨named, done, split, answered, count⟩ := runningCounted actions found
    have measured : batch.records = request.records.length := measuredRun actions i _ found
    refine ⟨named, done, split, answered, count, fun elapsed answer after => ?_⟩
    obtain ⟨⟨processed, free, active⟩, ended⟩ := (stepMoves found after).concluded
    rw [measured] at ended
    exact ⟨processed.trans count, free, active, ended⟩

theorem processedCountsCompletedRecords (clock : Nat → Nat) (b : Broker) (request : Request)
    (actions : List Action) :
    b.CallCounted clock request (b.execute clock request.records request.workflow).1
      (b.execute clock request.records request.workflow).2 ∧
    CallsCounted (({} : System).run actions) :=
  ⟨b.callCounted clock request, callsCounted actions⟩

open Broker (bandBroker bandConfiguration bandHandle bandOutcomes numbered beyondWord)

def bandSetup : Setup := { silentSetup "other" with evaluator := fun _ _ => .ok bandHandle }

def bandRequest (n : Int) : Request :=
  { records := [numbered "a" 2, numbered "b" n, numbered "c" 3]
    workflow := some "other" }

def twoCalls : List Action :=
  [.configure bandSetup, .advance 0, .advance 0, .advance 0, .call (bandRequest 1),
    .call (bandRequest 0), .step 0 7, .step 1 7, .step 0 7, .step 0 7, .step 0 7]

theorem failuresEndTheCount :
    let after (n : Int) := bandBroker.execute (fun _ => 5) (bandRequest n).records (some "other")
    let s := run {} twoCalls
    ((after 1).1 = .error (.evaluator "other") ∧ (after 1).2.processed = 1) ∧
    ((after beyondWord).1 = .error (.serialization "b" "number out of range") ∧
      (after beyondWord).2.processed = 1) ∧
    ((after 0).2.processed = 3 ∧ (after 0).2.lastRun = ⟨3, 2⟩) ∧
    ((s.act (.step 1 7)).tasks[1]? = some (.ended (.error .alreadyExecuting)) ∧
      (s.act (.step 1 7)).broker.processed = s.broker.processed) ∧
    (s.act (.step 0 7)).tasks[0]? = some (.ended (.error (.evaluator "other"))) ∧
      (s.act (.step 0 7)).broker.processed = 1 ∧ (s.act (.step 0 7)).broker.executing = false := by
  intro after s
  have known : bandConfiguration.Admits (some "other") := by decide
  have counted (n : Int) := processedCountsCompletedRecords (fun _ => 5) bandBroker
    (bandRequest n) twoCalls
  have completed (n : Int) := (counted n).1.admitted _ rfl rfl known
  have first : bandConfiguration.Answers "other" (numbered "a" 2) (some bandOutcomes) :=
    ⟨_, rfl, rfl⟩
  refine ⟨?_, ?_, ?_, ?_, ?_⟩
  · have failed : bandConfiguration.Fails "other" (numbered "b" 1) (.evaluator "other") :=
      .unevaluated rfl rfl
    obtain ⟨done, completes, _, _, count, _, faulty, _⟩ := completed 1
    obtain rfl := completes.only (.cons first (.fail failed))
    exact ⟨faulty _ _ _ rfl failed, count⟩
  · have failed : bandConfiguration.Fails "other" (numbered "b" beyondWord)
        (.serialization "b" "number out of range") := .unprojected rfl
    obtain ⟨done, completes, _, _, count, _, faulty, _⟩ := completed beyondWord
    obtain rfl := completes.only (.cons first (.fail failed))
    exact ⟨faulty _ _ _ rfl failed, count⟩
  · have silent : bandConfiguration.Answers "other" (numbered "b" 0) none := ⟨_, rfl, rfl⟩
    have last : bandConfiguration.Answers "other" (numbered "c" 3)
        (some bandOutcomes) := ⟨_, rfl, rfl⟩
    obtain ⟨done, completes, _, _, count, _, _, reported⟩ := completed 0
    obtain rfl := completes.only (.cons first (.cons silent (.cons last .nil)))
    exact ⟨count, reported _ rfl⟩
  · exact ⟨rfl, ((counted 0).2.refused 1 7 (.loaded (bandRequest 0) _) _ rfl nofun rfl).1⟩
  · obtain ⟨_, done, split, _, _, ending⟩ := (counted 0).2.running 0 _ _ rfl
    obtain ⟨count, free, _⟩ := ending 7 (.error (.evaluator "other")) rfl
    have one : done = [numbered "a" 2] := List.append_cancel_right split.symm
    rw [one] at count
    exact ⟨rfl, count, free⟩

end System
end RuleBroker
