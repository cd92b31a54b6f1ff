import Mathlib.Data.List.Induction
import RuleBroker.Proofs.Overlap
/-! Batches exclude each other and keep to what they began with. One invariant carries
it: the flag stands for exactly one running batch, and the counter for the records that
this batch has completed. -/
namespace RuleBroker

structure Underway (request : Request) (batch : Batch) (processed : Nat) : Prop where
  known : batch.configuration.Admits request.workflow
  workflow : batch.workflow = batch.configuration.chosen request.workflow
  progress : ∃ clock done, request.records = done ++ batch.remaining ∧
    processed = done.length ∧
    Broker.entries clock batch.configuration batch.workflow 0 done = .ok batch.output

/-- An answer that a request gets when nothing else runs: exactly, for some readings of
the clock, and apart from the times for all. -/
def RunsAlone (c : Configuration) (request : Request) (output : List Result) : Prop :=
  ∀ b : Broker, b.active = some c → b.executing = false →
    (∃ clock, (b.execute clock request.records request.workflow).1 = .ok output) ∧
    ∀ clock, (b.execute clock request.records request.workflow).1.map Result.untimed =
      .ok (Result.untimed output)

theorem underwayOpened {c : Configuration} {request : Request}
    (known : c.Admits request.workflow) :
    Underway request (c.opened request.records request.workflow) 0 :=
  ⟨known, rfl, fun _ => 0, [], rfl, rfl, rfl⟩

theorem underwayComplete {request : Request} {batch : Batch} {b : Broker} {r : Record}
    {rest : List Record} {outcomes : Option (List Outcome)} (elapsed : Nat)
    (before : Underway request batch b.processed) (next : batch.remaining = r :: rest)
    (answer : Broker.evaluate batch r = .ok outcomes) :
    Underway request (b.complete batch r outcomes elapsed).1
      (b.complete batch r outcomes elapsed).2.processed := by
  obtain ⟨known, workflow, clock, done, split, count, output⟩ := before
  let reading : Nat → Nat := fun k => if k = done.length then elapsed else clock k
  have earlier : Broker.entries reading batch.configuration batch.workflow 0 done =
      .ok batch.output := by
    rw [← output]
    exact Broker.entriesCongr fun k _ high => if_neg (by omega)
  have last : Broker.entries reading batch.configuration batch.workflow (0 + done.length) [r] =
      .ok (Broker.block r batch.workflow outcomes elapsed) := by
    rw [Broker.entriesAnswered [] answer]
    simp [Broker.entries, Except.map, reading]
  refine ⟨known, workflow, reading, done ++ [r], ?_, ?_, ?_⟩
  · simp [Broker.complete, split, next]
  · simp [Broker.complete, count]
  · simp only [Broker.complete, Broker.entriesAppend, earlier, last, bind, Except.bind]
    rfl

theorem runsAloneOfUnderway {request : Request} {batch : Batch} {processed : Nat}
    (last : Underway request batch processed) (done : batch.remaining = []) :
    RunsAlone batch.configuration request batch.output ∧
      processed = request.records.length := by
  obtain ⟨known, workflow, clock, all, split, count, output⟩ := last
  have whole : request.records = all := by simpa [done] using split
  rw [workflow, ← whole] at output
  refine ⟨fun b active free => ⟨⟨clock, ?_⟩, fun other => ?_⟩, by rw [count, whole]⟩
  · rw [Broker.executeAnswer active free known, output]
  · rw [Broker.executeAnswer active free known, Broker.entriesUntimed clock 0, output]
    rfl

theorem Task.Move.handover {b b' : Broker} {t t' : Task} (move : Task.Move b t t' b') :
    (t'.holds = t.holds ∧ b'.executing = b.executing) ∨
    (b.executing = false ∧ t'.holds = true ∧ b'.executing = true) ∨
    (t.holds = true ∧ t'.holds = false ∧ b'.executing = false) := by
  cases move with
  | unconfigured | load | taken | enter | complete | idle => exact .inl ⟨rfl, rfl⟩
  | acquire free => exact .inr (.inl ⟨free, rfl, rfl⟩)
  | unknown | finish | fail => exact .inr (.inr ⟨rfl, rfl, rfl⟩)
  | abort inside => exact .inr (.inr ⟨inside, rfl, rfl⟩)
  | leave outside => exact .inl ⟨outside.symm, rfl⟩

theorem Task.Move.outside {b b' : Broker} {t t' : Task} (move : Task.Move b t t' b')
    (before : t.holds = false) (after : t'.holds = false) : b' = b := by
  cases move with
  | unconfigured | load | taken | idle | leave => rfl
  | acquire | enter => simp [Task.holds] at after
  | unknown | finish | fail | complete => simp [Task.holds] at before
  | abort inside => rw [before] at inside; contradiction

theorem Task.Move.quiet {b b' : Broker} {t t' : Task} (move : Task.Move b t t' b')
    (before : t.holds = false) (taken : b.executing = true) : b' = b := by
  rcases move.handover with ⟨same, _⟩ | ⟨free, _⟩ | ⟨held, _⟩
  · exact move.outside before (same.trans before)
  · rw [taken] at free; contradiction
  · rw [before] at held; contradiction

theorem Task.Move.ended {b b' : Broker} {t' : Task} {answer : Except RuleError (List Result)}
    (move : Task.Move b (.ended answer) t' b') : t' = .ended answer := by
  cases move with
  | idle => rfl
  | leave _ going => exact absurd rfl (going answer)
  | abort inside => cases inside

theorem SetupTask.Move.frame {b b' : Broker} {t t' : SetupTask}
    (move : SetupTask.Move b t t' b') : b' = { b with active := b'.active } := by
  cases move <;> rfl

def Task.Follows (request : Request) (c : Configuration) : Task → Prop
  | .waiting _ => False
  | .loaded own held | .acquired own held => own = request ∧ held = c
  | .running own batch => own = request ∧ batch.configuration = c
  | .ended (.ok output) => RunsAlone c request output
  | .ended (.error _) => True
  | .dropped => True

theorem Task.Move.follows {b b' : Broker} {t t' : Task} {request : Request} {c : Configuration}
    (move : Task.Move b t t' b') (before : t.Follows request c)
    (underway : ∀ own batch, t = .running own batch → Underway own batch b.processed) :
    t'.Follows request c := by
  cases move with
  | unconfigured | load => exact before.elim
  | taken | unknown | fail | leave | abort => trivial
  | acquire | enter | complete => exact ⟨before.1, before.2⟩
  | idle => exact before
  | @finish own batch done =>
    obtain ⟨rfl, rfl⟩ := before
    exact (runsAloneOfUnderway (underway _ _ rfl) done).1

namespace System

def Holds (s : System) (i : Nat) : Prop := ∃ t, s.tasks[i]? = some t ∧ t.holds = true

structure Consistent (s : System) : Prop where
  alone : ∀ i j, s.Holds i → s.Holds j → i = j
  flag : s.broker.executing = true ↔ ∃ i, s.Holds i
  underway : ∀ (i : Nat) request batch, s.tasks[i]? = some (.running request batch) →
    Underway request batch s.broker.processed

variable {s s' : System} {i : Nat} {t t' : Task} {b : Broker}

theorem holdsOf (found : s.tasks[i]? = some t) : s.Holds i ↔ t.holds = true := by
  constructor
  · rintro ⟨u, at', held⟩
    rw [found] at at'
    cases at'
    exact held
  · exact fun held => ⟨t, found, held⟩

theorem holdsSet (found : s.tasks[i]? = some t) (j : Nat) :
    ({ s with tasks := s.tasks.set i t', broker := b } : System).Holds j ↔
      if j = i then t'.holds = true else s.Holds j := by
  by_cases same : j = i
  · subst same
    rw [if_pos rfl]
    exact holdsOf (placeSet found)
  · rw [if_neg same]
    simp only [Holds, placeSetOther same]

theorem holdsCall {request : Request} (i : Nat) :
    ({ s with tasks := s.tasks ++ [.waiting request] } : System).Holds i ↔ s.Holds i := by
  constructor
  · rintro ⟨t, after, held⟩
    rcases placeOfAppend after with before | rfl
    · exact ⟨t, before, held⟩
    · cases held
  · rintro ⟨t, before, held⟩
    exact ⟨t, placeAppend before, held⟩

theorem Consistent.free (valid : Consistent s) (free : s.broker.executing = false) (i : Nat) :
    ¬ s.Holds i := fun held => by
  have taken := valid.flag.mpr ⟨i, held⟩
  rw [free] at taken
  contradiction

theorem Consistent.others (valid : Consistent s) (found : s.tasks[i]? = some t)
    (move : Task.Move s.broker t t' b) {j : Nat} (held : s.Holds j) (other : j ≠ i) : b = s.broker := by
  refine move.quiet ?_ (valid.flag.mpr ⟨j, held⟩)
  cases holding : t.holds with
  | false => rfl
  | true => exact absurd (valid.alone j i held ((holdsOf found).mpr holding)) other

theorem consistentTask (valid : Consistent s) (found : s.tasks[i]? = some t)
    (move : Task.Move s.broker t t' b) :
    Consistent { s with tasks := s.tasks.set i t', broker := b } := by
  have moved (j : Nat) : ({ s with tasks := s.tasks.set i t', broker := b } : System).Holds j ↔
      if j = i then t'.holds = true else s.Holds j := holdsSet found j
  have running : ∀ (j : Nat) request batch,
      (s.tasks.set i t')[j]? = some (.running request batch) →
      Underway request batch b.processed := by
    intro j request batch after
    rcases placeOfSet found after with ⟨rfl, rfl⟩ | ⟨other, before⟩
    · cases move with
      | enter known => exact underwayOpened known
      | complete next answer =>
        exact underwayComplete _ (valid.underway j _ _ found) next answer
      | idle outside => cases outside
    · have held : s.Holds j := ⟨_, before, rfl⟩
      rw [valid.others found move held other]
      exact valid.underway j request batch before
  -- The holders after the move: the same ones, the mover alone, or none.
  rcases move.handover with ⟨same, kept⟩ | ⟨free, taken, now⟩ | ⟨held, given, now⟩
  · have holders : ∀ j, ({ s with tasks := s.tasks.set i t', broker := b } : System).Holds j ↔
        s.Holds j := fun j => by
      rw [moved]
      split
      · next at' => rw [at', holdsOf found, same]
      · rfl
    refine ⟨fun j k left right => valid.alone j k ((holders j).mp left) ((holders k).mp right),
      ?_, running⟩
    simpa only [holders, kept] using valid.flag
  · have only : ∀ j, ({ s with tasks := s.tasks.set i t', broker := b } : System).Holds j →
        j = i := fun j after => by
      by_contra other
      rw [moved, if_neg other] at after
      exact valid.free free j after
    refine ⟨fun j k left right => (only j left).trans (only k right).symm,
      ⟨fun _ => ⟨i, (moved i).mpr (by rw [if_pos rfl]; exact taken)⟩, fun _ => now⟩, running⟩
  · have nobody : ∀ j, ¬ ({ s with tasks := s.tasks.set i t', broker := b } : System).Holds j :=
        fun j after => by
      rw [moved] at after
      split at after
      · rw [given] at after; contradiction
      · next other => exact other (valid.alone j i after ((holdsOf found).mpr held))
    refine ⟨fun j k left _ => absurd left (nobody j), ⟨fun flag => ?_, fun ⟨j, after⟩ =>
      absurd after (nobody j)⟩, running⟩
    rw [now] at flag
    contradiction

theorem consistentChange (valid : Consistent s) (change : Change s s') : Consistent s' := by
  cases change with
  | idle => exact valid
  | register p => exact ⟨valid.alone, valid.flag, valid.underway⟩
  | configure setup => exact ⟨valid.alone, valid.flag, valid.underway⟩
  | call request =>
    refine ⟨fun i j left right => valid.alone i j ((holdsCall i).mp left) ((holdsCall j).mp right),
      ?_, fun i req batch after => ?_⟩
    · simpa only [holdsCall] using valid.flag
    · rcases placeOfAppend after with before | same
      · exact valid.underway i req batch before
      · cases same
  | task found move => exact consistentTask valid found move
  | setup found move =>
    rw [move.frame]
    exact ⟨valid.alone, valid.flag, valid.underway⟩

theorem consistentStart : Consistent {} := by
  refine ⟨fun i j ⟨t, found, _⟩ => ?_, ⟨fun flag => ?_, fun ⟨i, t, found, _⟩ => ?_⟩,
    fun i request batch found => ?_⟩
  · simp at found
  · cases flag
  · simp at found
  · simp at found

theorem consistentRun (actions : List Action) : Consistent (run {} actions) :=
  runKeeps (fun _ _ valid change => consistentChange valid change) consistentStart actions

theorem endedChange {answer : Except RuleError (List Result)}
    (before : s.tasks[i]? = some (.ended answer)) (change : Change s s') :
    s'.tasks[i]? = some (.ended answer) := by
  cases change with
  | idle | register | configure | setup => exact before
  | call request => exact placeAppend before
  | @task j u u' b found move =>
    by_cases same : i = j
    · subst same
      rw [found] at before
      cases before
      rw [placeSet found, move.ended]
    · rw [placeSetOther same, before]

theorem followsChange {request : Request} {c : Configuration}
    (before : Consistent s ∧ ∃ t, s.tasks[i]? = some t ∧ t.Follows request c)
    (change : Change s s') :
    Consistent s' ∧ ∃ t, s'.tasks[i]? = some t ∧ t.Follows request c := by
  refine ⟨consistentChange before.1 change, ?_⟩
  obtain ⟨valid, t, found, follows⟩ := before
  cases change with
  | idle | register | configure | setup => exact ⟨t, found, follows⟩
  | call request => exact ⟨t, placeAppend found, follows⟩
  | @task j u u' b at' move =>
    by_cases same : i = j
    · subst same
      rw [at'] at found
      cases found
      refine ⟨u', placeSet at', move.follows follows fun own batch shape => ?_⟩
      exact valid.underway i own batch (shape ▸ at')
    · exact ⟨t, by rw [placeSetOther same, found], follows⟩

theorem actStep (found : s.tasks[i]? = some t) (elapsed : Nat) :
    s.act (.step i elapsed) = { s with
      tasks := s.tasks.set i (t.step elapsed s.broker).1
      broker := (t.step elapsed s.broker).2 } := by
  simp only [act, moveTask, moveAt, found]

theorem stepMoves (found : s.tasks[i]? = some t) {elapsed : Nat}
    (after : (s.act (.step i elapsed)).tasks[i]? = some t') :
    Task.Move s.broker t t' (s.act (.step i elapsed)).broker := by
  rw [actStep found elapsed] at after ⊢
  rw [placeSet found] at after
  cases after
  exact Task.stepMove elapsed s.broker t

theorem answersAsLoaded (valid : Consistent s) {request : Request} {elapsed : Nat}
    {rest : List Action} {output : List Result}
    (found : s.tasks[i]? = some (.waiting request))
    (answered : (s.run (.step i elapsed :: rest)).tasks[i]? = some (.ended (.ok output))) :
    ∃ c, s.broker.active = some c ∧ RunsAlone c request output := by
  have first := actStep found elapsed
  have next : Consistent (s.act (.step i elapsed)) :=
    consistentChange valid (actChange s _)
  have later {c : Configuration} {u : Task}
      (at' : (s.act (.step i elapsed)).tasks[i]? = some u) (follows : u.Follows request c) :
      RunsAlone c request output := by
    obtain ⟨_, last, found', ended⟩ :=
      runKeeps (I := fun s => Consistent s ∧ ∃ t, s.tasks[i]? = some t ∧ t.Follows request c)
        (fun _ _ before change => followsChange before change) ⟨next, u, at', follows⟩ rest
    have same : last = .ended (.ok output) := Option.some.inj (found'.symm.trans answered)
    rw [same] at ended
    exact ended
  cases active : s.broker.active with
  | some c =>
    refine ⟨c, rfl, later (u := .loaded request c) ?_ ⟨rfl, rfl⟩⟩
    rw [first, placeSet found]
    simp only [Task.step, Broker.load, active]
  | none =>
    -- Without a configuration the task has ended with an error, and stays so.
    have refused : (s.act (.step i elapsed)).tasks[i]? = some (.ended (.error .notConfigured)) := by
      rw [first, placeSet found]
      simp only [Task.step, Broker.load, active]
    have stays := runKeeps (fun _ _ before change => endedChange before change) refused rest
    have same := Option.some.inj (stays.symm.trans answered)
    cases same

theorem waitedBefore {actions : List Action}
    (found : (run {} actions).tasks[i]? = some t) (kept : t ≠ .dropped)
    (begun : ∀ request, t ≠ .waiting request) :
    ∃ before elapsed rest request, actions = before ++ .step i elapsed :: rest ∧
      (run {} before).tasks[i]? = some (.waiting request) := by
  -- On the run from its end, where a task that has begun began then or has begun before.
  induction actions using List.reverseRecOn generalizing t with
  | nil => simp [run] at found
  | append_singleton earlier a ih =>
    have longer {u : Task} (at' : (run {} earlier).tasks[i]? = some u)
        (kept : u ≠ .dropped) (begun : ∀ request, u ≠ .waiting request) :
        ∃ before elapsed rest request, earlier ++ [a] = before ++ .step i elapsed :: rest ∧
          (run {} before).tasks[i]? = some (.waiting request) := by
      obtain ⟨before, elapsed, rest, request, rfl, waited⟩ := ih at' kept begun
      exact ⟨before, elapsed, rest ++ [a], request, by simp, waited⟩
    rw [runAppend] at found
    cases a with
    | register | configure | advance | abandon => exact longer found kept begun
    | call request =>
      rcases placeOfAppend found with at' | rfl
      · exact longer at' kept begun
      · exact absurd rfl (begun request)
    | step j elapsed =>
      rcases placeOfMove found with at' | ⟨rfl, u, at', moved⟩
      · exact longer at' kept begun
      · cases u with
        | waiting request => exact ⟨earlier, elapsed, [], request, rfl, at'⟩
        | dropped => exact absurd moved kept
        | loaded | acquired | running | ended => exact longer at' (by simp) (by simp)
    | drop j =>
      rcases placeOfMove found with at' | ⟨rfl, u, at', moved⟩
      · exact longer at' kept begun
      · cases u with
        | ended answer => exact longer at' (by simp) (by simp)
        | waiting | loaded | acquired | running | dropped => exact absurd moved kept

theorem released (held : s.Holds i) (change : Change s s')
    (given : ¬ s'.Holds i) : s'.broker.executing = false := by
  cases change with
  | idle | register | configure | setup => exact absurd held given
  | call request => exact absurd ((holdsCall i).mpr held) given
  | @task j t t' b found move =>
    rw [holdsSet found] at given
    by_cases same : i = j
    · subst same
      rw [if_pos rfl] at given
      have before := (holdsOf found).mp held
      rcases move.handover with ⟨kept, _⟩ | ⟨_, taken, _⟩ | ⟨_, _, now⟩
      · exact absurd (kept.trans before) given
      · exact absurd taken given
      · exact now
    · rw [if_neg same] at given
      exact absurd held given

theorem stateExecuting (s : System) :
    s.broker.state = .executing ↔ s.broker.executing = true := by
  unfold Broker.state
  cases s.broker.executing <;> cases s.broker.active <;> simp

end System

namespace Broker

theorem beginFree {b : Broker} (free : b.executing = false) (records : List Record)
    (workflow : Option String) : b.begin records workflow ≠ .error .alreadyExecuting := by
  intro refused
  cases active : b.active with
  | none => simp [begin, load, active, bind, Except.bind] at refused
  | some c =>
    by_cases known : c.Admits workflow
    · rw [beginAdmitted active free known] at refused
      cases refused
    · have loaded : b.load = .ok c := by simp only [load, active]
      simp [begin, loaded, acquireFree free, acceptUnknown known, unknownWorkflow, bind,
        Except.bind] at refused

end Broker

namespace System

/-- Whatever calls overlap and however their steps are ordered: one batch at a time has
the flag, who does not take it changes nothing, an answer is that of the loaded
configuration alone, and a batch that ends or is dropped lets the next one in. -/
theorem batchesExcludeEachOther (actions : List Action) :
    let s := ({} : System).run actions
    (∀ i j, s.Holds i → s.Holds j → i = j) ∧
    (s.broker.state = .executing ↔ ∃ i, s.Holds i) ∧
    (∀ i elapsed request c, s.tasks[i]? = some (.loaded request c) → (∃ j, s.Holds j) →
      (s.act (.step i elapsed)).tasks[i]? = some (.ended (.error .alreadyExecuting))) ∧
    (∀ i elapsed request, s.tasks[i]? = some (.waiting request) → s.broker.active = none →
      (s.act (.step i elapsed)).tasks[i]? = some (.ended (.error .notConfigured))) ∧
    (∀ i elapsed t t', s.tasks[i]? = some t → t.holds = false →
      (s.act (.step i elapsed)).tasks[i]? = some t' → t'.holds = false →
      (s.act (.step i elapsed)).broker = s.broker ∧
      ∀ j, j ≠ i → (s.act (.step i elapsed)).tasks[j]? = s.tasks[j]?) ∧
    (∀ i output, s.tasks[i]? = some (.ended (.ok output)) →
      ∃ before elapsed rest request c, actions = before ++ .step i elapsed :: rest ∧
        (run {} before).tasks[i]? = some (.waiting request) ∧
        (run {} before).broker.active = some c ∧ RunsAlone c request output) ∧
    (∀ i elapsed request batch output, s.tasks[i]? = some (.running request batch) →
      (s.act (.step i elapsed)).tasks[i]? = some (.ended (.ok output)) →
      (s.act (.step i elapsed)).broker.processed = request.records.length) ∧
    (∀ i a, s.Holds i → ¬ (s.act a).Holds i →
      (s.act a).broker.executing = false ∧
      ∀ records workflow,
        (s.act a).broker.begin records workflow ≠ .error .alreadyExecuting ∧
        ∀ c, (s.act a).broker.active = some c → c.Admits workflow →
          (s.act a).broker.begin records workflow =
            .ok (c.opened records workflow, (s.act a).broker.entered)) := by
  intro s
  have valid : Consistent s := consistentRun actions
  refine ⟨valid.alone, (stateExecuting s).trans valid.flag, ?_, ?_, ?_, ?_, ?_, ?_⟩
  · intro i elapsed request c found held
    rw [actStep found, placeSet found]
    simp only [Task.step, Broker.acquireTaken (valid.flag.mpr held)]
  · intro i elapsed request found missing
    rw [actStep found, placeSet found]
    simp only [Task.step, Broker.load, missing]
  · intro i elapsed t t' found outside after without
    refine ⟨(stepMoves found after).outside outside without, fun j other => ?_⟩
    rw [actStep found, placeSetOther other]
  · intro i output answered
    obtain ⟨before, elapsed, rest, request, split, waited⟩ :=
      waitedBefore answered (by simp) (by simp)
    have later : ((run {} before).run (.step i elapsed :: rest)).tasks[i]? =
        some (.ended (.ok output)) := by
      rw [← runAppend, ← split]
      exact answered
    obtain ⟨c, active, alone⟩ := answersAsLoaded (consistentRun before) waited later
    exact ⟨before, elapsed, rest, request, c, split, waited, active, alone⟩
  · intro i elapsed request batch output found answered
    have move := stepMoves found answered
    generalize (s.act (.step i elapsed)).broker = b at move
    cases move with
    | finish done => exact (runsAloneOfUnderway (valid.underway i request batch found) done).2
  · intro i a held given
    have free := released held (actChange s a) given
    exact ⟨free, fun records workflow => ⟨Broker.beginFree free records workflow,
      fun c active known => Broker.beginAdmitted active free known records⟩⟩

def silentSetup (name : String) : Setup where
  source := fun names => .ok (names.map fun n => ⟨n, [{ name := "any", expression := "true" }]⟩)
  evaluator := fun _ _ => .ok fun _ _ => .ok none
  names := [name]

def oneRecord : Request := { records := [⟨"rec", "one", .unit⟩] }

def replacedInMidBatch : List Action :=
  [.configure (silentSetup "simple"), .advance 0, .advance 0, .advance 0, .call oneRecord,
    .call oneRecord, .step 0 7, .step 0 7, .step 0 7, .step 1 7, .step 1 7,
    .configure (silentSetup "other"), .advance 1, .advance 1, .advance 1, .step 0 7, .step 0 7]

theorem replacedBatchAnswers :
    (run {} replacedInMidBatch).tasks = [.ended (.ok []), .ended (.error .alreadyExecuting)] ∧
    (run {} replacedInMidBatch).broker.workflows = ["other"] ∧
    ∃ before elapsed rest request c, replacedInMidBatch = before ++ .step 0 elapsed :: rest ∧
      (run {} before).tasks[0]? = some (.waiting request) ∧
      (run {} before).broker.active = some c ∧ RunsAlone c request [] := by
  obtain ⟨_, _, _, _, _, answers, _, _⟩ := batchesExcludeEachOther replacedInMidBatch
  exact ⟨rfl, rfl, answers 0 [] rfl⟩

end System
end RuleBroker
