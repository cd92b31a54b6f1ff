import RuleBroker.Proofs.Configuring
import RuleBroker.Proofs.Overlap
/-! Where the active configuration comes from, over all runs. Whatever overlaps, it is
what one configuring built out of workflows that had passed the check. -/
namespace RuleBroker

structure Configuration.Sound (c : Configuration) : Prop where
  nonempty : c.workflows ≠ []
  distinct : c.workflows.Nodup
  named : ∀ name ∈ c.workflows, Text.trim name.toList ≠ []
  first : c.workflows.head? = some c.defaultWorkflow

theorem acceptedValid {setup : Setup} {providers : List Provider} {ws : List Workflow}
    {c : Configuration} (accepted : Accepted setup providers ws c) :
    (∀ w ∈ ws, Workflow.check w = .ok ()) ∧ (ws.map Workflow.name).Nodup := by
  obtain ⟨count, valid⟩ := accepted.valid
  obtain ⟨each, distinct, _⟩ := Workflow.checkAllAccepts.mp valid
  exact ⟨each, distinct⟩

theorem acceptedSound {setup : Setup} {providers : List Provider} {ws : List Workflow}
    {c : Configuration} (accepted : Accepted setup providers ws c) : c.Sound := by
  obtain ⟨each, distinct⟩ := acceptedValid accepted
  refine ⟨?_, ?_, fun name member => ?_, ?_⟩
  · rw [accepted.names]
    exact fun empty => accepted.nonempty (List.map_eq_nil_iff.mp empty)
  · rw [accepted.names]
    exact distinct
  · rw [accepted.names] at member
    obtain ⟨w, inside, rfl⟩ := List.mem_map.mp member
    exact fun blank => Workflow.checkNamed (each w inside) (Text.trimBlank.mp blank)
  · rw [accepted.names]
    exact accepted.first

theorem soundAdmits {c : Configuration} (sound : c.Sound) : c.Admits none := by
  have first := sound.first
  cases names : c.workflows with
  | nil => exact absurd names sound.nonempty
  | cons name rest =>
    rw [names] at first
    cases first
    simp [Configuration.Admits, Configuration.chosen, names]

def SetupTask.Sourced (providers : List Provider) : SetupTask → Prop
  | .resolved setup ws => setup.source setup.names = .ok ws
  | .built setup c | .installed setup c =>
    ∃ prior ws, prior <+: providers ∧ Accepted setup prior ws c
  | .waiting _ | .refused _ | .dropped => True

theorem SetupTask.Sourced.register {providers : List Provider} {t : SetupTask} (p : Provider)
    (before : t.Sourced providers) : t.Sourced (providers ++ [p]) := by
  cases t with
  | built | installed =>
    obtain ⟨prior, ws, earlier, accepted⟩ := before
    exact ⟨prior, ws, earlier.trans (List.prefix_append _ _), accepted⟩
  | waiting | resolved | refused | dropped => exact before

theorem SetupTask.Move.sourced {b b' : Broker} {t t' : SetupTask}
    (move : SetupTask.Move b t t' b') (before : t.Sourced b.providers) :
    t'.Sourced b.providers := by
  cases move with
  | unresolved | refuse | leave => trivial
  | resolve found => exact found
  | build built => exact ⟨b.providers, _, List.prefix_rfl, (Broker.acceptedBuild before).mp built⟩
  | install | idle => exact before

theorem SetupTask.Move.effect {b b' : Broker} {t t' : SetupTask}
    (move : SetupTask.Move b t t' b') :
    (b' = b ∧ ∀ setup c, t = .installed setup c ↔ t' = .installed setup c) ∨
    ∃ setup c, t = .built setup c ∧ t' = .installed setup c ∧ b' = b.install c := by
  cases move with
  | unresolved | resolve | refuse | build => exact .inl ⟨rfl, by simp⟩
  | idle => exact .inl ⟨rfl, fun _ _ => .rfl⟩
  | leave outside => exact .inl ⟨rfl, fun setup c => by simp [outside setup c]⟩
  | @install setup c => exact .inr ⟨setup, c, rfl, rfl, rfl⟩

theorem Task.Move.configured {b b' : Broker} {t t' : Task} (move : Task.Move b t t' b') :
    b'.active = b.active ∧ b'.providers = b.providers := by
  cases move <;> exact ⟨rfl, rfl⟩

def Task.entering : Task → Option Configuration
  | .loaded _ c | .acquired _ c => some c
  | _ => none

theorem Task.Move.entering {b b' : Broker} {t t' : Task} {c : Configuration}
    (move : Task.Move b t t' b') (after : t'.entering = some c) :
    t.entering = some c ∨ b.active = some c := by
  cases move with
  | load active =>
    cases after
    exact .inr active
  | acquire | idle => exact .inl after
  | unconfigured | taken | unknown | enter | finish | fail | complete | leave | abort =>
    cases after

namespace System

structure Sourced (s : System) : Prop where
  setups : ∀ (i : Nat) t, s.setups[i]? = some t → t.Sourced s.broker.providers
  active : ∀ c, s.broker.active = some c →
    ∃ (i : Nat) (setup : Setup), s.setups[i]? = some (.installed setup c)
  installed : ∀ (i : Nat) setup c, s.setups[i]? = some (.installed setup c) →
    s.broker.active ≠ none
  entering : ∀ (i : Nat) t c, s.tasks[i]? = some t → t.entering = some c → c.Sound

variable {s s' : System}

theorem Sourced.activeSound (valid : Sourced s) {c : Configuration}
    (active : s.broker.active = some c) : c.Sound := by
  obtain ⟨i, setup, found⟩ := valid.active c active
  obtain ⟨prior, ws, _, accepted⟩ := valid.setups i _ found
  exact acceptedSound accepted

theorem sourcedTask (valid : Sourced s) {i : Nat} {t t' : Task} {b : Broker}
    (found : s.tasks[i]? = some t) (move : Task.Move s.broker t t' b) :
    Sourced { s with tasks := s.tasks.set i t', broker := b } := by
  obtain ⟨active, providers⟩ := move.configured
  refine ⟨fun j u at' => ?_, fun c at' => ?_, fun j setup c at' => ?_, fun j u c at' held => ?_⟩
  · exact providers ▸ valid.setups j u at'
  · exact valid.active c (active ▸ at')
  · exact active ▸ valid.installed j setup c at'
  · rcases placeOfSet found at' with ⟨rfl, rfl⟩ | ⟨_, before⟩
    · rcases move.entering held with earlier | loaded
      · exact valid.entering j t c found earlier
      · exact valid.activeSound loaded
    · exact valid.entering j u c before held

theorem sourcedSetup (valid : Sourced s) {i : Nat} {t t' : SetupTask} {b : Broker}
    (found : s.setups[i]? = some t) (move : SetupTask.Move s.broker t t' b) :
    Sourced { s with setups := s.setups.set i t', broker := b } := by
  have setups : ∀ (j : Nat) u, (s.setups.set i t')[j]? = some u →
      u.Sourced s.broker.providers := fun j u after => by
    rcases placeOfSet found after with ⟨rfl, rfl⟩ | ⟨_, before⟩
    · exact move.sourced (valid.setups j t found)
    · exact valid.setups j u before
  rcases move.effect with ⟨rfl, kept⟩ | ⟨setup, c, rfl, rfl, rfl⟩
  · refine ⟨setups, fun c active => ?_, fun j setup c after => ?_, valid.entering⟩
    · obtain ⟨j, setup, before⟩ := valid.active c active
      by_cases same : j = i
      · subst same
        rw [found] at before
        exact ⟨j, setup, (placeSet found).trans
          (congrArg some ((kept setup c).mp (Option.some.inj before)))⟩
      · exact ⟨j, setup, (placeSetOther same).trans before⟩
    · rcases placeOfSet found after with ⟨rfl, same⟩ | ⟨_, before⟩
      · rw [(kept setup c).mpr same.symm] at found
        exact valid.installed j setup c found
      · exact valid.installed j setup c before
  · refine ⟨setups, fun d active => ?_, fun _ _ _ _ => by simp [Broker.install], valid.entering⟩
    cases active
    exact ⟨i, setup, placeSet found⟩

theorem sourcedChange (valid : Sourced s) (change : Change s s') : Sourced s' := by
  cases change with
  | idle => exact valid
  | register p =>
    exact ⟨fun i t found => (valid.setups i t found).register p, valid.active, valid.installed,
      valid.entering⟩
  | configure setup =>
    refine ⟨fun i t after => ?_, fun c active => ?_, fun i own c after => ?_, valid.entering⟩
    · rcases placeOfAppend after with before | rfl
      · exact valid.setups i t before
      · trivial
    · obtain ⟨i, own, before⟩ := valid.active c active
      exact ⟨i, own, placeAppend before⟩
    · rcases placeOfAppend after with before | same
      · exact valid.installed i own c before
      · cases same
  | call request =>
    refine ⟨valid.setups, valid.active, valid.installed, fun i t c after held => ?_⟩
    rcases placeOfAppend after with before | rfl
    · exact valid.entering i t c before held
    · cases held
  | task found move => exact sourcedTask valid found move
  | setup found move => exact sourcedSetup valid found move

theorem sourcedStart : Sourced {} := by
  refine ⟨fun i t found => ?_, nofun, fun i setup c found => ?_, fun i t c found => ?_⟩ <;>
    simp at found

theorem sourcedRun (actions : List Action) : Sourced (run {} actions) :=
  runKeeps (fun _ _ valid change => sourcedChange valid change) sourcedStart actions

theorem activeStays (before : s.broker.active ≠ none) (change : Change s s') :
    s'.broker.active ≠ none := by
  cases change with
  | idle | register | configure | call => exact before
  | task found move => rw [move.configured.1]; exact before
  | setup found move =>
    rcases move.effect with ⟨rfl, _⟩ | ⟨setup, c, _, _, rfl⟩
    · exact before
    · simp [Broker.install]

theorem stateConfigured {b : Broker} (active : b.active ≠ none) : b.state ≠ .unconfigured := by
  unfold Broker.state
  cases found : b.active with
  | none => exact absurd found active
  | some c => cases b.executing <;> simp

theorem beginDefault {b : Broker} (sound : ∀ c, b.active = some c → c.Sound)
    {records : List Record} {e : RuleError} (refused : b.begin records none = .error e) :
    e = .notConfigured ∨ e = .alreadyExecuting := by
  cases active : b.active with
  | none =>
    simp only [Broker.begin, Broker.load, active, bind, Except.bind] at refused
    cases refused
    exact .inl rfl
  | some c =>
    have loaded : b.load = .ok c := by simp only [Broker.load, active]
    cases flag : b.executing with
    | true =>
      simp only [Broker.begin, loaded, Broker.acquireTaken flag, bind, Except.bind] at refused
      cases refused
      exact .inr rfl
    | false =>
      rw [Broker.beginAdmitted active flag (soundAdmits (sound c active))] at refused
      cases refused

/-- At any moment of any run the active configuration, if there is one, is that of one
configuring, whole; it admits the default workflow; and once there is one there always is. -/
theorem activeConfigurationOfOneSetup (actions : List Action) :
    let s := ({} : System).run actions
    (∀ c, s.broker.active = some c →
      (∃ (i : Nat) (setup : Setup) (prior : List Provider) (ws : List Workflow),
        s.setups[i]? = some (.installed setup c) ∧ prior <+: s.broker.providers ∧
        Accepted setup prior ws c ∧ ∀ w ∈ ws, Workflow.check w = .ok ()) ∧
      c.workflows ≠ [] ∧ c.workflows.Nodup ∧
      (∀ name ∈ c.workflows, Text.trim name.toList ≠ []) ∧
      c.workflows.head? = some c.defaultWorkflow) ∧
    (∀ records e, s.broker.begin records none = .error e →
      e = .notConfigured ∨ e = .alreadyExecuting) ∧
    (∀ (i elapsed : Nat) request c, s.tasks[i]? = some (.acquired request c) →
      request.workflow = none →
      (s.act (.step i elapsed)).tasks[i]? =
        some (.running request (c.opened request.records none))) ∧
    (∀ (i : Nat) setup c more, s.setups[i]? = some (.installed setup c) →
      (s.run more).broker.state ≠ .unconfigured) := by
  intro s
  have valid : Sourced s := sourcedRun actions
  refine ⟨fun c active => ?_, fun records e refused => ?_, ?_, ?_⟩
  · obtain ⟨i, setup, found⟩ := valid.active c active
    obtain ⟨prior, ws, earlier, accepted⟩ := valid.setups i _ found
    have sound := acceptedSound accepted
    exact ⟨⟨i, setup, prior, ws, found, earlier, accepted, (acceptedValid accepted).1⟩,
      sound.nonempty, sound.distinct, sound.named, sound.first⟩
  · exact beginDefault (fun c active => valid.activeSound active) refused
  · intro i elapsed request c found plain
    have known : c.Admits request.workflow := by
      rw [plain]
      exact soundAdmits (valid.entering i _ c found rfl)
    have entered : ((Task.acquired request c).step elapsed s.broker).1 =
        .running request (c.opened request.records request.workflow) := by
      simp only [Task.step, Broker.acceptKnown known]
    simp only [act, moveTask, moveAt, found]
    rw [placeSet found, entered, plain]
  · intro i setup c more found
    exact stateConfigured (runKeeps (I := fun s => s.broker.active ≠ none)
      (fun _ _ before change => activeStays before change) (valid.installed i setup c found) more)

end System
end RuleBroker
