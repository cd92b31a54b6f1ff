import RuleBroker.Broker.Schedule
import RuleBroker.Proofs.Batch
/-! Everything that one move of overlapping calls can be, with its guards. What holds of
all runs is derived from these moves; no later proof opens a step again. -/
namespace RuleBroker
open Broker (unknownWorkflow)

inductive Task.Move (b : Broker) : Task → Task → Broker → Prop where
  | unconfigured {request} (missing : b.active = none) :
      Move b (.waiting request) (.ended (.error .notConfigured)) b
  | load {request c} (active : b.active = some c) :
      Move b (.waiting request) (.loaded request c) b
  | taken {request c} (taken : b.executing = true) :
      Move b (.loaded request c) (.ended (.error .alreadyExecuting)) b
  | acquire {request c} (free : b.executing = false) :
      Move b (.loaded request c) (.acquired request c) { b with executing := true }
  | unknown {request c} (unknown : ¬ c.Admits request.workflow) :
      Move b (.acquired request c)
        (.ended (.error (unknownWorkflow (c.chosen request.workflow) c.workflows))) b.release
  | enter {request c} (known : c.Admits request.workflow) :
      Move b (.acquired request c)
        (.running request (c.opened request.records request.workflow))
        { b with processed := 0, lastRun := {} }
  | finish {request batch} (done : batch.remaining = []) :
      Move b (.running request batch) (.ended (.ok batch.output)) (b.finish batch)
  | fail {request batch r rest e} (next : batch.remaining = r :: rest)
      (faulty : Broker.evaluate batch r = .error e) :
      Move b (.running request batch) (.ended (.error e)) b.release
  | complete {request batch r rest outcomes elapsed} (next : batch.remaining = r :: rest)
      (answer : Broker.evaluate batch r = .ok outcomes) :
      Move b (.running request batch)
        (.running request (b.complete batch r outcomes elapsed).1)
        (b.complete batch r outcomes elapsed).2
  | idle {t} (outside : t.holds = false) : Move b t t b
  | leave {t} (outside : t.holds = false) (going : ∀ answer, t ≠ .ended answer) :
      Move b t .dropped b
  | abort {t} (inside : t.holds = true) : Move b t .dropped b.release

theorem Task.stepMove (elapsed : Nat) (b : Broker) (t : Task) :
    Task.Move b t (t.step elapsed b).1 (t.step elapsed b).2 := by
  cases t with
  | waiting request =>
    cases active : b.active with
    | none => simpa [Task.step, Broker.load, active] using Task.Move.unconfigured active
    | some c => simpa [Task.step, Broker.load, active] using Task.Move.load active
  | loaded request c =>
    cases flag : b.executing with
    | true => simpa [Task.step, Broker.acquireTaken flag] using Task.Move.taken flag
    | false => simpa [Task.step, Broker.acquireFree flag] using Task.Move.acquire flag
  | acquired request c =>
    by_cases known : c.Admits request.workflow
    · simpa [Task.step, Broker.acceptKnown known] using Task.Move.enter known
    · simpa [Task.step, Broker.acceptUnknown known] using Task.Move.unknown known
  | running request batch =>
    cases next : batch.remaining with
    | nil => simpa [Task.step, next] using Task.Move.finish next
    | cons r rest =>
      cases answer : Broker.evaluate batch r with
      | error e => simpa [Task.step, next, answer] using Task.Move.fail next answer
      | ok outcomes => simpa [Task.step, next, answer] using Task.Move.complete next answer
  | ended answer => exact .idle rfl
  | dropped => exact .idle rfl

theorem Task.dropMove (b : Broker) (t : Task) :
    Task.Move b t (t.drop b).1 (t.drop b).2 := by
  cases t with
  | waiting request => exact .leave rfl (by simp)
  | loaded request c => exact .leave rfl (by simp)
  | acquired request c => exact .abort rfl
  | running request batch => exact .abort rfl
  | ended answer => exact .idle rfl
  | dropped => exact .idle rfl

def Task.stepsAlone (clock : Nat → Nat) : Nat → Broker → Task → Task × Broker
  | 0, b, t => (t, b)
  | n + 1, b, t =>
    Task.stepsAlone clock n (t.step (clock b.processed) b).2 (t.step (clock b.processed) b).1

theorem Task.stepsEnded (clock : Nat → Nat) (n : Nat) (b : Broker)
    (answer : Except RuleError (List Result)) :
    Task.stepsAlone clock n b (.ended answer) = (.ended answer, b) := by
  induction n with
  | zero => rfl
  | succ n ih => exact ih

theorem Task.stepsRunning (clock : Nat → Nat) (request : Request) (rs : List Record) (b : Broker)
    (batch : Batch) (left : batch.remaining = rs) :
    Task.stepsAlone clock (rs.length + 1) b (.running request batch) =
      (.ended (b.runRecords clock batch rs).1, (b.runRecords clock batch rs).2) := by
  induction rs generalizing b batch with
  | nil => simp only [List.length_nil, Task.stepsAlone, Task.step, left, Broker.runRecords]
  | cons r rest ih =>
    cases answer : Broker.evaluate batch r with
    | error e =>
      simp only [Task.stepsAlone, Task.step, left, answer, Broker.runRecords, Task.stepsEnded]
    | ok outcomes =>
      have moved : (b.complete batch r outcomes (clock b.processed)).1.remaining = rest := by
        simp only [Broker.complete, left, List.tail_cons]
      have later := ih (b.complete batch r outcomes (clock b.processed)).2 _ moved
      rw [List.length_cons, Task.stepsAlone]
      simp only [Task.step, left, answer, Broker.runRecords]
      exact later

theorem Task.stepsAdmitted (clock : Nat → Nat) {b : Broker} {c : Configuration}
    {request : Request} (active : b.active = some c) (free : b.executing = false)
    (known : c.Admits request.workflow) (n : Nat) :
    Task.stepsAlone clock (n + 3) b (.waiting request) =
      Task.stepsAlone clock n b.entered
        (.running request (c.opened request.records request.workflow)) := by
  have loaded : b.load = .ok c := by simp only [Broker.load, active]
  rw [Task.stepsAlone, Task.stepsAlone, Task.stepsAlone]
  simp only [Task.step, loaded, Broker.acquireFree free, Broker.acceptKnown known]
  rfl

theorem Task.stepsExecute (clock : Nat → Nat) (b : Broker) (request : Request) :
    Task.stepsAlone clock (request.records.length + 4) b (.waiting request) =
      (.ended (b.execute clock request.records request.workflow).1,
        (b.execute clock request.records request.workflow).2) := by
  cases active : b.active with
  | none =>
    have loaded : b.load = .error .notConfigured := by simp only [Broker.load, active]
    simp only [Task.stepsAlone, Task.step, loaded, Broker.execute, Broker.begin, bind,
      Except.bind, Task.stepsEnded]
  | some c =>
    have loaded : b.load = .ok c := by simp only [Broker.load, active]
    cases flag : b.executing with
    | true =>
      simp only [Task.stepsAlone, Task.step, loaded, Broker.acquireTaken flag, Broker.execute,
        Broker.begin, bind, Except.bind, Task.stepsEnded]
    | false =>
      by_cases known : c.Admits request.workflow
      · rw [Broker.executeAdmitted active flag known,
          Task.stepsAdmitted clock active flag known (request.records.length + 1)]
        exact Task.stepsRunning clock request request.records b.entered
          (c.opened request.records request.workflow) rfl
      · have given : ({ b with executing := true } : Broker).release = b := by
          cases b
          cases flag
          rfl
        simp only [Task.stepsAlone, Task.step, loaded, Broker.acquireFree flag,
          Broker.acceptUnknown known, Broker.execute, Broker.begin, bind, Except.bind,
          Task.stepsEnded, given]

inductive SetupTask.Move (b : Broker) : SetupTask → SetupTask → Broker → Prop where
  | unresolved {setup e} (missing : setup.source setup.names = .error e) :
      Move b (.waiting setup) (.refused e) b
  | resolve {setup ws} (found : setup.source setup.names = .ok ws) :
      Move b (.waiting setup) (.resolved setup ws) b
  | refuse {setup ws e}
      (faulty : Broker.build setup.evaluator b.providers setup.names ws = .error e) :
      Move b (.resolved setup ws) (.refused e) b
  | build {setup ws c}
      (built : Broker.build setup.evaluator b.providers setup.names ws = .ok c) :
      Move b (.resolved setup ws) (.built setup c) b
  | install {setup c} : Move b (.built setup c) (.installed setup c) (b.install c)
  | idle {t} : Move b t t b
  | leave {t} (outside : ∀ setup c, t ≠ .installed setup c) : Move b t .dropped b

theorem SetupTask.stepMove (b : Broker) (t : SetupTask) :
    SetupTask.Move b t (t.step b).1 (t.step b).2 := by
  cases t with
  | waiting setup =>
    cases found : setup.source setup.names with
    | error e => simpa [SetupTask.step, found] using SetupTask.Move.unresolved found
    | ok ws => simpa [SetupTask.step, found] using SetupTask.Move.resolve found
  | resolved setup ws =>
    cases built : Broker.build setup.evaluator b.providers setup.names ws with
    | error e => simpa [SetupTask.step, built] using SetupTask.Move.refuse built
    | ok c => simpa [SetupTask.step, built] using SetupTask.Move.build built
  | built setup c => exact .install
  | installed setup c => exact .idle
  | refused e => exact .idle
  | dropped => exact .idle

theorem SetupTask.dropMove (b : Broker) (t : SetupTask) :
    SetupTask.Move b t (t.drop b).1 (t.drop b).2 := by
  cases t with
  | installed setup c => exact .idle
  | refused e => exact .idle
  | waiting | resolved | built | dropped => exact .leave (by simp)

theorem SetupTask.stepsConfigure (b : Broker) (setup : Setup) :
    let first := SetupTask.step b (.waiting setup)
    let second := SetupTask.step first.2 first.1
    let last := SetupTask.step second.2 second.1
    last.2 = (b.configure setup).2 ∧
    ((b.configure setup).1 = .ok () ↔ ∃ c, last.1 = .installed setup c) ∧
    ∀ e, (b.configure setup).1 = .error e ↔ last.1 = .refused e := by
  cases found : setup.source setup.names with
  | error e => simp [SetupTask.step, Broker.configure, found]
  | ok ws =>
    cases built : Broker.build setup.evaluator b.providers setup.names ws with
    | error e => simp [SetupTask.step, Broker.configure, found, built]
    | ok c => simp [SetupTask.step, Broker.configure, found, built]

namespace System

section Places

variable {α : Type} {ts : List α} {i j : Nat} {t u : α}

theorem placeSet (found : ts[i]? = some t) : (ts.set i u)[i]? = some u := by
  rw [List.getElem?_set_self]
  exact (List.getElem?_eq_some_iff.mp found).1

theorem placeSetOther (other : j ≠ i) : (ts.set i u)[j]? = ts[j]? :=
  List.getElem?_set_ne (Ne.symm other)

theorem placeOfSet (found : ts[i]? = some t) {v : α} (after : (ts.set i u)[j]? = some v) :
    (j = i ∧ v = u) ∨ (j ≠ i ∧ ts[j]? = some v) := by
  by_cases same : j = i
  · subst same
    rw [placeSet found] at after
    exact .inl ⟨rfl, (Option.some.inj after).symm⟩
  · rw [placeSetOther same] at after
    exact .inr ⟨same, after⟩

theorem placeAppend (before : ts[i]? = some t) : (ts ++ [u])[i]? = some t := by
  rw [List.getElem?_append_left (List.getElem?_eq_some_iff.mp before).1, before]

theorem placeOfAppend (after : (ts ++ [u])[i]? = some t) : ts[i]? = some t ∨ t = u := by
  rw [List.getElem?_append] at after
  split at after
  · exact .inl after
  · rw [List.getElem?_singleton] at after
    split at after
    · exact .inr (Option.some.inj after).symm
    · contradiction

theorem placeOfMove {f : Broker → α → α × Broker} {b : Broker}
    (after : (moveAt f b ts i).1[j]? = some u) :
    ts[j]? = some u ∨ (j = i ∧ ∃ t, ts[j]? = some t ∧ u = (f b t).1) := by
  unfold moveAt at after
  cases found : ts[i]? with
  | none =>
    rw [found] at after
    exact .inl after
  | some t =>
    rw [found] at after
    rcases placeOfSet found after with ⟨rfl, moved⟩ | ⟨_, before⟩
    · exact .inr ⟨rfl, t, found, moved⟩
    · exact .inl before

end Places

inductive Change (s : System) : System → Prop where
  | idle : Change s s
  | register (p : Provider) : Change s { s with broker := s.broker.register p }
  | configure (setup : Setup) : Change s { s with setups := s.setups ++ [.waiting setup] }
  | call (request : Request) : Change s { s with tasks := s.tasks ++ [.waiting request] }
  | task {i t t' b} (found : s.tasks[i]? = some t) (move : Task.Move s.broker t t' b) :
      Change s { s with tasks := s.tasks.set i t', broker := b }
  | setup {i t t' b} (found : s.setups[i]? = some t) (move : SetupTask.Move s.broker t t' b) :
      Change s { s with setups := s.setups.set i t', broker := b }

theorem changeTask (s : System) (i : Nat) {f : Broker → Task → Task × Broker}
    (moves : ∀ t, Task.Move s.broker t (f s.broker t).1 (f s.broker t).2) :
    Change s (s.moveTask i f) := by
  unfold moveTask moveAt
  cases found : s.tasks[i]? with
  | none => exact .idle
  | some t => exact .task found (moves t)

theorem changeSetup (s : System) (i : Nat) {f : Broker → SetupTask → SetupTask × Broker}
    (moves : ∀ t, SetupTask.Move s.broker t (f s.broker t).1 (f s.broker t).2) :
    Change s (s.moveSetup i f) := by
  unfold moveSetup moveAt
  cases found : s.setups[i]? with
  | none => exact .idle
  | some t => exact .setup found (moves t)

theorem actChange (s : System) (a : Action) : Change s (s.act a) := by
  cases a with
  | register p => exact .register p
  | configure setup => exact .configure setup
  | advance i => exact changeSetup s i (SetupTask.stepMove s.broker)
  | abandon i => exact changeSetup s i (SetupTask.dropMove s.broker)
  | call request => exact .call request
  | step i elapsed => exact changeTask s i (Task.stepMove elapsed s.broker)
  | drop i => exact changeTask s i (Task.dropMove s.broker)

theorem runAppend (s : System) (before rest : List Action) :
    s.run (before ++ rest) = (s.run before).run rest := List.foldl_append

theorem runKeeps {I : System → Prop} (keeps : ∀ s s', I s → Change s s' → I s')
    {s : System} (start : I s) (actions : List Action) : I (s.run actions) := by
  induction actions generalizing s with
  | nil => exact start
  | cons a rest ih => exact ih (keeps s _ start (actChange s a))

end System
end RuleBroker
