import RuleBroker.Proofs.Counting
/-! Which batch the statistics of the last run are of. Beside a run stands the log of how
the batches that were let in have ended, refused calls not among them. The statistics
are those of the last entry, and a batch that failed has none: they are not always those
of the last batch that answered. -/
namespace RuleBroker

inductive Ending where
  | answered (stats : RunStats)
  | failed
  deriving DecidableEq, Repr

namespace Ending

def stats : Ending → RunStats
  | answered stats => stats
  | failed => {}

def answered? : Ending → Option RunStats
  | answered stats => some stats
  | failed => none

def last (log : List Ending) : RunStats := (log.getLast?.map stats).getD {}

def lastAnswered (log : List Ending) : RunStats := (log.filterMap answered?).getLast?.getD {}

theorem lastAppend (log : List Ending) (e : Ending) : last (log ++ [e]) = e.stats := by
  simp [last]

theorem lastIsAnswered (log : List Ending) :
    last log = lastAnswered log ↔ log.getLast? ≠ some .failed ∨ lastAnswered log = {} := by
  rcases List.eq_nil_or_concat log with rfl | ⟨earlier, e, rfl⟩
  · simp [last, lastAnswered]
  · rw [List.concat_eq_append]
    cases e with
    | answered stats => simp [last, lastAnswered, Ending.stats, answered?]
    | failed => simp [last, Ending.stats, eq_comm]

end Ending

def Task.runs : Task → Bool
  | .running _ _ => true
  | _ => false

def Task.ending : Task → Task → Option Ending
  | .running request _, .ended (.ok output) =>
    some (.answered ⟨request.records.length, output.length⟩)
  | .running _ _, .ended (.error _) => some .failed
  | .running _ _, .dropped => some .failed
  | _, _ => none

theorem Task.runsHolds {t : Task} (runs : t.runs = true) : t.holds = true := by
  cases t with
  | running => rfl
  | waiting | loaded | acquired | ended | dropped => cases runs

inductive Task.Reports (b : Broker) (t t' : Task) (b' : Broker) : Prop where
  | kept (quiet : t.ending t' = none) (same : t'.runs = t.runs) (stats : b'.lastRun = b.lastRun)
  | entered (quiet : t.ending t' = none) (runs : t'.runs = true) (stats : b'.lastRun = {})
  | concluded {e} (ended : t.ending t' = some e) (ran : t.runs = true) (free : t'.runs = false)
      (stats : b.lastRun = {} → b'.lastRun = e.stats)

theorem Task.Move.reports {b b' : Broker} {t t' : Task} (move : Task.Move b t t' b')
    (measured : t.Measured) : Task.Reports b t t' b' := by
  cases move with
  | unconfigured | load | taken | acquire | unknown => exact .kept rfl rfl rfl
  | enter => exact .entered rfl rfl rfl
  | finish done => exact .concluded rfl rfl rfl fun _ => by rw [Ending.stats, ← measured]; rfl
  | fail => exact .concluded rfl rfl rfl id
  | complete => exact .kept rfl rfl rfl
  | idle outside | leave outside =>
    cases t with
    | acquired | running => cases outside
    | waiting | loaded | ended | dropped => exact .kept rfl rfl rfl
  | abort inside =>
    cases t with
    | acquired => exact .kept rfl rfl rfl
    | running => exact .concluded rfl rfl rfl id
    | waiting | loaded | ended | dropped => cases inside

namespace System

def ending (s : System) (a : Action) : Option Ending :=
  match a with
  | .step i _ | .drop i =>
    (s.tasks[i]?).bind fun t => ((s.act a).tasks[i]?).bind fun t' => t.ending t'
  | _ => none

def endings (s : System) : List Action → List Ending
  | [] => []
  | a :: rest => (s.ending a).toList ++ (s.act a).endings rest

structure Reported (s : System) (log : List Ending) : Prop where
  running : ∀ (i : Nat) t, s.tasks[i]? = some t → t.runs = true → s.broker.lastRun = {}
  idle : (∀ (i : Nat) t, s.tasks[i]? = some t → t.runs = false) →
    s.broker.lastRun = Ending.last log

variable {s : System} {log : List Ending}

theorem reportedTask (valid : Consistent s) (before : Reported s log) {i : Nat} {t t' : Task}
    {b : Broker} (found : s.tasks[i]? = some t) (reports : Task.Reports s.broker t t' b) :
    Reported { s with tasks := s.tasks.set i t', broker := b } (log ++ (t.ending t').toList) := by
  have moved : (s.tasks.set i t')[i]? = some t' := placeSet found
  -- While the task runs no other does, so that none is left when it is over.
  have alone (ran : t.runs = true) (free : t'.runs = false) (j : Nat) (u : Task)
      (after : (s.tasks.set i t')[j]? = some u) : u.runs = false := by
    rcases placeOfSet found after with ⟨_, rfl⟩ | ⟨other, earlier⟩
    · exact free
    · refine Bool.eq_false_iff.mpr fun runs => other ?_
      exact valid.alone j i ⟨u, earlier, Task.runsHolds runs⟩ ⟨t, found, Task.runsHolds ran⟩
  cases reports with
  | kept quiet same stats =>
    rw [quiet, Option.toList_none, List.append_nil]
    refine ⟨fun j u after runs => stats.trans ?_, fun idle => stats.trans (before.idle ?_)⟩
    · rcases placeOfSet found after with ⟨_, rfl⟩ | ⟨_, earlier⟩
      · exact before.running i t found (same ▸ runs)
      · exact before.running j u earlier runs
    · intro j u earlier
      by_cases here : j = i
      · subst here
        rw [found] at earlier
        cases earlier
        exact same ▸ idle j t' moved
      · exact idle j u ((placeSetOther here).trans earlier)
  | entered quiet runs stats =>
    rw [quiet, Option.toList_none, List.append_nil]
    refine ⟨fun _ _ _ _ => stats, fun idle => ?_⟩
    rw [idle i t' moved] at runs
    cases runs
  | concluded ended ran free stats =>
    rw [ended, Option.toList_some]
    refine ⟨fun j u after runs => ?_, fun _ => ?_⟩
    · rw [alone ran free j u after] at runs
      cases runs
    · rw [Ending.lastAppend]
      exact stats (before.running i t found ran)

theorem reportedMove (valid : Consistent s)
    (measured : s.Measured) (before : Reported s log)
    (i : Nat) {f : Broker → Task → Task × Broker}
    (moves : ∀ t, Task.Move s.broker t (f s.broker t).1 (f s.broker t).2) :
    Reported (s.moveTask i f) (log ++ ((s.tasks[i]?).bind fun t =>
      ((s.moveTask i f).tasks[i]?).bind fun t' => t.ending t').toList) := by
  cases found : s.tasks[i]? with
  | none =>
    have idle : s.moveTask i f = s := by simp only [moveTask, moveAt, found]
    rw [idle, Option.bind_none, Option.toList_none, List.append_nil]
    exact before
  | some t =>
    have moved : s.moveTask i f =
        { s with tasks := s.tasks.set i (f s.broker t).1, broker := (f s.broker t).2 } := by
      simp only [moveTask, moveAt, found]
    rw [moved, placeSet found, Option.bind_some, Option.bind_some]
    exact reportedTask valid before found ((moves t).reports (measured i t found))

theorem setupQuiet (s : System) (i : Nat) {f : Broker → SetupTask → SetupTask × Broker}
    (moves : ∀ t, SetupTask.Move s.broker t (f s.broker t).1 (f s.broker t).2) :
    (s.moveSetup i f).tasks = s.tasks ∧
      (s.moveSetup i f).broker.lastRun = s.broker.lastRun := by
  refine ⟨rfl, ?_⟩
  unfold moveSetup moveAt
  cases s.setups[i]? with
  | none => rfl
  | some t =>
    simp only
    rw [(moves t).frame]

theorem reportedQuiet {s' : System} (before : Reported s log)
    (tasks : s'.tasks = s.tasks) (stats : s'.broker.lastRun = s.broker.lastRun) :
    Reported s' (log ++ []) := by
  rw [List.append_nil]
  refine ⟨fun i t found runs => ?_, fun idle => ?_⟩
  · rw [stats]
    exact before.running i t (tasks ▸ found) runs
  · rw [stats]
    exact before.idle fun i t found => idle i t (tasks ▸ found)

theorem reportedAct (valid : Consistent s)
    (measured : s.Measured) (before : Reported s log)
    (a : Action) : Reported (s.act a) (log ++ (s.ending a).toList) := by
  cases a with
  | register p => exact reportedQuiet before rfl rfl
  | configure setup => exact reportedQuiet before rfl rfl
  | advance i =>
    have quiet := setupQuiet s i (SetupTask.stepMove s.broker)
    exact reportedQuiet before quiet.1 quiet.2
  | abandon i =>
    have quiet := setupQuiet s i (SetupTask.dropMove s.broker)
    exact reportedQuiet before quiet.1 quiet.2
  | call request =>
    change Reported (s.act (.call request)) (log ++ [])
    rw [List.append_nil]
    refine ⟨fun i t after runs => ?_, fun idle => ?_⟩
    · rcases placeOfAppend after with earlier | rfl
      · exact before.running i t earlier runs
      · cases runs
    · exact before.idle fun i t earlier => idle i t (placeAppend earlier)
  | step i elapsed => exact reportedMove valid measured before i (Task.stepMove elapsed s.broker)
  | drop i => exact reportedMove valid measured before i (Task.dropMove s.broker)

theorem reportedRun {s : System} {log : List Ending} (actions : List Action)
    (valid : Consistent s) (measured : s.Measured)
    (before : Reported s log) : Reported (s.run actions) (log ++ s.endings actions) := by
  induction actions generalizing s log with
  | nil => simpa [endings, run] using before
  | cons a rest ih =>
    have next := ih (consistentChange valid (actChange s a))
      (measuredChange measured (actChange s a)) (reportedAct valid measured before a)
    rwa [List.append_assoc] at next

theorem reportedStart : Reported {} [] := ⟨fun i t found => by simp at found, fun _ => rfl⟩

/-- While a batch runs the statistics are zero, and when none is under way they are those
of the last batch that was let in: of the last that answered exactly if none has failed
since, or if both are zero. -/
theorem lastRunOfLastEnding (actions : List Action) :
    let s := ({} : System).run actions
    let log := ({} : System).endings actions
    (∀ (i : Nat) request batch, s.tasks[i]? = some (.running request batch) →
      s.broker.lastRun = {}) ∧
    ((∀ i, ¬ s.Holds i) →
      s.broker.lastRun = Ending.last log ∧
      (s.broker.lastRun = Ending.lastAnswered log ↔
        log.getLast? ≠ some .failed ∨ Ending.lastAnswered log = {})) := by
  intro s log
  have reported : Reported s log :=
    reportedRun actions consistentStart measuredStart reportedStart
  refine ⟨fun i request batch found => reported.running i _ found rfl, fun free => ?_⟩
  have stats : s.broker.lastRun = Ending.last log := reported.idle fun i t found =>
    Bool.eq_false_iff.mpr fun runs => free i ⟨t, found, Task.runsHolds runs⟩
  exact ⟨stats, stats ▸ Ending.lastIsAnswered log⟩

def crashHandle : Handle := fun workflow view =>
  match view.data with
  | .bool true => .error (.evaluator workflow)
  | _ => .ok (some [.success "any"])

def crashSetup : Setup where
  source := fun names => .ok (names.map fun n => ⟨n, [{ name := "any", expression := "true" }]⟩)
  evaluator := fun _ _ => .ok crashHandle
  names := ["simple"]

def flagged (crash : Bool) : Request := { records := [⟨"rec", "one", .boolean crash⟩] }

def crashAfterAnswer : List Action :=
  [.configure crashSetup, .advance 0, .advance 0, .advance 0, .call (flagged false), .step 0 7,
    .step 0 7, .step 0 7, .step 0 7, .step 0 7, .call (flagged true), .step 1 7, .step 1 7,
    .step 1 7, .step 1 7]

theorem failedBatchClearsLastRun :
    (run {} crashAfterAnswer).broker.state = .configured ∧
    endings {} crashAfterAnswer = [.answered ⟨1, 1⟩, .failed] ∧
    (run {} crashAfterAnswer).broker.lastRun = ⟨0, 0⟩ ∧
    (run {} crashAfterAnswer).broker.lastRun ≠
      Ending.lastAnswered (endings {} crashAfterAnswer) := by
  have log : endings {} crashAfterAnswer = [.answered ⟨1, 1⟩, .failed] := rfl
  have cleared : (run {} crashAfterAnswer).broker.lastRun = ⟨0, 0⟩ := rfl
  refine ⟨rfl, log, cleared, ?_⟩
  rw [log, cleared]
  decide

end System
end RuleBroker
