import Mathlib.Data.List.Nodup
import RuleBroker.Proofs.ActiveConfiguration
import RuleBroker.Proofs.Lookup
/-! Which providers a configuring sees, over all runs: those registered before it took its
snapshot, and no others ever after. Two of them that clash end all configuring for good, and
leave what is configured as it is. -/
namespace RuleBroker

def Clash (providers : List Provider) : Prop :=
  ∃ (i j : Nat) (p q : Provider) (f g : Function), i ≠ j ∧ providers[i]? = some p ∧
    providers[j]? = some q ∧ f ∈ p.functions ∧ g ∈ q.functions ∧ p.qualified f = q.qualified g

theorem clashLater {providers : List Provider} (clash : Clash providers) (more : List Provider) :
    Clash (providers ++ more) := by
  obtain ⟨i, j, p, q, f, g, apart, first, second, rest⟩ := clash
  have kept {n : Nat} {r : Provider} (found : providers[n]? = some r) :
      (providers ++ more)[n]? = some r := by
    obtain ⟨within, _⟩ := List.getElem?_eq_some_iff.mp found
    rw [List.getElem?_append_left within, found]
  exact ⟨i, j, p, q, f, g, apart, kept first, kept second, rest⟩

theorem clashRepeats {providers : List Provider} (clash : Clash providers) :
    ¬ ((Registry.contributions providers).map Prod.fst).Nodup := by
  obtain ⟨i, j, p, q, f, g, apart, first, second, inFirst, inSecond, same⟩ := clash
  intro distinct
  rw [Registry.contributions, List.map_flatMap, List.nodup_flatMap] at distinct
  obtain ⟨_, pairwise⟩ := distinct
  -- The two places are taken in their order.
  have ordered {m n : Nat} {r t : Provider} {k l : Function} (before : m < n)
      (left : providers[m]? = some r) (right : providers[n]? = some t) (inLeft : k ∈ r.functions)
      (inRight : l ∈ t.functions) : r.qualified k ≠ t.qualified l := by
    obtain ⟨within, rfl⟩ := List.getElem?_eq_some_iff.mp left
    obtain ⟨within', rfl⟩ := List.getElem?_eq_some_iff.mp right
    intro same
    have disjoint := List.pairwise_iff_getElem.mp pairwise m n within within' before
    refine disjoint (a := providers[m].qualified k) ?_ ?_
    · exact List.mem_map.mpr ⟨_, List.mem_map.mpr ⟨k, inLeft, rfl⟩, rfl⟩
    · exact List.mem_map.mpr ⟨_, List.mem_map.mpr ⟨l, inRight, rfl⟩, same.symm⟩
  rcases Nat.lt_or_gt_of_ne apart with before | after
  · exact ordered before first second inFirst inSecond same
  · exact ordered after second first inSecond inFirst same.symm

theorem clashUncollected {providers : List Provider} (clash : Clash providers)
    {registry : Registry} : Registry.ofProviders providers ≠ .ok registry := fun collected =>
  clashRepeats clash (Registry.ofProvidersOk.mp ⟨registry, collected⟩)

theorem clashUnbuilt {providers : List Provider} (clash : Clash providers) {setup : Setup}
    {ws : List Workflow} {c : Configuration} :
    Broker.build setup.evaluator providers setup.names ws ≠ .ok c := by
  intro built
  cases ws with
  | nil => cases built
  | cons first rest =>
    simp only [Broker.build, Stages.bindOk] at built
    obtain ⟨_, _, registry, collected, _⟩ := built
    exact clashUncollected clash collected

theorem clashRefused {b : Broker} (clash : Clash b.providers) (setup : Setup) :
    ∃ e, b.configure setup = (.error e, b) := by
  rcases Broker.configureCases b setup with ⟨ws, c, accepted, _⟩ | ⟨e, _, answer⟩
  · obtain ⟨registry, collected, _⟩ := accepted.bound
    exact absurd collected (clashUncollected clash)
  · exact ⟨e, answer⟩

def SetupTask.taken : SetupTask → Option (Setup × Configuration)
  | .built setup c | .installed setup c => some (setup, c)
  | .waiting _ | .resolved _ _ | .refused _ | .dropped => none

def Setup.Answered (setup : Setup) (ws : List Workflow) (registry : Registry) (t : SetupTask) :
    Prop :=
  match setup.evaluator ws registry with
  | .ok handle => ∃ c, c.handle = handle ∧ t = .built setup c
  | .error e => t = .refused e

def Action.provider? : Action → Option Provider
  | .register p => some p
  | _ => none

def registered (actions : List Action) : List Provider := actions.filterMap Action.provider?

section Moves

variable {b b' : Broker} {t t' : SetupTask} {setup : Setup} {c : Configuration}

theorem SetupTask.Move.providers (move : SetupTask.Move b t t' b') : b'.providers = b.providers := by
  cases move <;> rfl

theorem SetupTask.Move.taken (move : SetupTask.Move b t t' b') (after : t'.taken = some (setup, c)) :
    t.taken = some (setup, c) ∨ ∃ ws, t = .resolved setup ws ∧
      Broker.build setup.evaluator b.providers setup.names ws = .ok c := by
  cases move with
  | unresolved | resolve | refuse | leave => cases after
  | build built =>
    cases after
    exact .inr ⟨_, rfl, built⟩
  | install | idle => exact .inl after

def SetupTask.Keeps (setup : Setup) (c : Configuration) (t : SetupTask) : Prop :=
  t.taken = some (setup, c) ∨ t = .dropped

theorem SetupTask.Move.keeps (move : SetupTask.Move b t t' b') (before : t.Keeps setup c) :
    t'.Keeps setup c := by
  cases move with
  | unresolved | resolve | refuse | build => rcases before with taken | gone <;> contradiction
  | install =>
    rcases before with same | gone
    · exact .inl same
    · cases gone
  | idle => exact before
  | leave => exact .inr rfl

theorem SetupTask.dropTaken (after : (t.drop b).1.taken = some (setup, c)) :
    t.taken = some (setup, c) := by
  cases t with
  | waiting | resolved | built | dropped => cases after
  | installed | refused => exact after

end Moves

namespace System

variable {s s' : System} {i : Nat} {t : SetupTask} {setup : Setup} {c : Configuration}

theorem actProviders (s : System) (a : Action) :
    (s.act a).broker.providers = s.broker.providers ++ a.provider?.toList := by
  have task (i : Nat) {f : Broker → Task → Task × Broker}
      (moves : ∀ t, Task.Move s.broker t (f s.broker t).1 (f s.broker t).2) :
      (s.moveTask i f).broker.providers = s.broker.providers ++ [] := by
    rw [List.append_nil, moveTask, moveAt]
    cases s.tasks[i]? with
    | none => rfl
    | some t => exact (moves t).configured.2
  have setup (i : Nat) {f : Broker → SetupTask → SetupTask × Broker}
      (moves : ∀ t, SetupTask.Move s.broker t (f s.broker t).1 (f s.broker t).2) :
      (s.moveSetup i f).broker.providers = s.broker.providers ++ [] := by
    rw [List.append_nil, moveSetup, moveAt]
    cases s.setups[i]? with
    | none => rfl
    | some t => exact (moves t).providers
  cases a with
  | register p => rfl
  | configure own | call request => exact (List.append_nil _).symm
  | advance i => exact setup i (SetupTask.stepMove s.broker)
  | abandon i => exact setup i (SetupTask.dropMove s.broker)
  | step i elapsed => exact task i (Task.stepMove elapsed s.broker)
  | drop i => exact task i (Task.dropMove s.broker)

theorem runProviders (s : System) (actions : List Action) :
    (s.run actions).broker.providers = s.broker.providers ++ registered actions := by
  induction actions generalizing s with
  | nil => exact (List.append_nil _).symm
  | cons a rest ih =>
    have onward : (s.run (a :: rest)).broker.providers =
        (s.act a).broker.providers ++ registered rest := ih (s.act a)
    rw [onward, actProviders, List.append_assoc]
    cases found : a.provider? with
    | none => rw [registered, registered, List.filterMap_cons_none found]; rfl
    | some p => rw [registered, registered, List.filterMap_cons_some found]; rfl

theorem actTaken (s : System) (a : Action) (found : (s.act a).setups[i]? = some t)
    (taken : t.taken = some (setup, c)) :
    (∃ t, s.setups[i]? = some t ∧ t.taken = some (setup, c)) ∨
    a = .advance i ∧ ∃ ws, s.setups[i]? = some (.resolved setup ws) ∧
      Broker.build setup.evaluator s.broker.providers setup.names ws = .ok c := by
  cases a with
  | register p | call request | step j elapsed | drop j => exact .inl ⟨t, found, taken⟩
  | configure own =>
    rcases placeOfAppend found with before | rfl
    · exact .inl ⟨t, before, taken⟩
    · cases taken
  | advance j =>
    rcases placeOfMove found with before | ⟨rfl, u, before, rfl⟩
    · exact .inl ⟨t, before, taken⟩
    · rcases (SetupTask.stepMove s.broker u).taken taken with earlier | ⟨ws, rfl, built⟩
      · exact .inl ⟨u, before, earlier⟩
      · exact .inr ⟨rfl, ws, before, built⟩
  | abandon j =>
    rcases placeOfMove found with before | ⟨rfl, u, before, rfl⟩
    · exact .inl ⟨t, before, taken⟩
    · exact .inl ⟨u, before, SetupTask.dropTaken taken⟩

theorem runTaken (s : System) (actions : List Action)
    (found : (s.run actions).setups[i]? = some t) (taken : t.taken = some (setup, c)) :
    (∃ t, s.setups[i]? = some t ∧ t.taken = some (setup, c)) ∨
    ∃ before after ws, actions = before ++ .advance i :: after ∧
      (s.run before).setups[i]? = some (.resolved setup ws) ∧
      Broker.build setup.evaluator (s.run before).broker.providers setup.names ws = .ok c := by
  induction actions generalizing s with
  | nil => exact .inl ⟨t, found, taken⟩
  | cons a rest ih =>
    rcases ih (s.act a) found with ⟨u, held, same⟩ | ⟨before, after, ws, rfl, resolved, built⟩
    · rcases actTaken s a held same with earlier | ⟨rfl, ws, resolved, built⟩
      · exact .inl earlier
      · exact .inr ⟨[], rest, ws, rfl, resolved, built⟩
    · exact .inr ⟨a :: before, after, ws, rfl, resolved, built⟩

theorem changeKeeps (change : Change s s')
    (before : ∃ t, s.setups[i]? = some t ∧ t.Keeps setup c) :
    ∃ t, s'.setups[i]? = some t ∧ t.Keeps setup c := by
  obtain ⟨t, found, kept⟩ := before
  cases change with
  | idle | register | call | task => exact ⟨t, found, kept⟩
  | configure own => exact ⟨t, placeAppend found, kept⟩
  | @setup j u u' b held move =>
    by_cases same : i = j
    · subst same
      cases held.symm.trans found
      exact ⟨u', placeSet held, move.keeps kept⟩
    · exact ⟨t, (placeSetOther same).trans found, kept⟩

theorem runKept (actions : List Action) (found : s.setups[i]? = some t)
    (taken : t.taken = some (setup, c)) :
    ∃ t, (s.run actions).setups[i]? = some t ∧ t.Keeps setup c :=
  runKeeps (fun _ _ kept change => changeKeeps change kept) ⟨t, found, .inl taken⟩ actions

structure Closed (start s : System) : Prop where
  clash : Clash s.broker.providers
  built : ∀ (i : Nat) setup c, s.setups[i]? = some (.built setup c) →
    start.setups[i]? = some (.built setup c)
  installed : ∀ (i : Nat) setup c, s.setups[i]? = some (.installed setup c) →
    start.setups[i]? = some (.built setup c) ∨ start.setups[i]? = some (.installed setup c)
  active : s.broker.active = start.broker.active ∨ ∃ (i : Nat) (setup : Setup) (c : Configuration),
    start.setups[i]? = some (.built setup c) ∧ s.broker.active = some c

theorem closedSetup {start : System} {j : Nat} {u u' : SetupTask} {b : Broker}
    (closed : Closed start s) (held : s.setups[j]? = some u) (move : SetupTask.Move s.broker u u' b) :
    Closed start { s with setups := s.setups.set j u', broker := b } := by
  have clash : Clash b.providers := by
    rw [move.providers]
    exact closed.clash
  have built : ∀ (i : Nat) setup c, (s.setups.set j u')[i]? = some (.built setup c) →
      start.setups[i]? = some (.built setup c) := by
    intro i setup c after
    rcases placeOfSet held after with ⟨rfl, rfl⟩ | ⟨_, before⟩
    · cases move with
      | build found => exact absurd found (clashUnbuilt closed.clash)
      | idle => exact closed.built i setup c held
    · exact closed.built i setup c before
  cases move with
  | unresolved | resolve | refuse | build | leave =>
    refine ⟨clash, built, fun i setup c after => ?_, closed.active⟩
    rcases placeOfSet held after with ⟨rfl, same⟩ | ⟨_, before⟩
    · cases same
    · exact closed.installed i setup c before
  | idle =>
    refine ⟨clash, built, fun i setup c after => ?_, closed.active⟩
    rcases placeOfSet held after with ⟨rfl, rfl⟩ | ⟨_, before⟩
    · exact closed.installed i setup c held
    · exact closed.installed i setup c before
  | @install own d =>
    refine ⟨clash, built, fun i setup c after => ?_, .inr ⟨j, own, d, closed.built j own d held, rfl⟩⟩
    rcases placeOfSet held after with ⟨rfl, same⟩ | ⟨_, before⟩
    · cases same
      exact .inl (closed.built _ _ _ held)
    · exact closed.installed i setup c before

theorem closedChange {start : System} (closed : Closed start s) (change : Change s s') :
    Closed start s' := by
  cases change with
  | idle => exact closed
  | call => exact ⟨closed.clash, closed.built, closed.installed, closed.active⟩
  | register p => exact ⟨clashLater closed.clash [p], closed.built, closed.installed, closed.active⟩
  | configure own =>
    refine ⟨closed.clash, fun i setup c after => ?_, fun i setup c after => ?_, closed.active⟩
    · rcases placeOfAppend after with before | same
      · exact closed.built i setup c before
      · cases same
    · rcases placeOfAppend after with before | same
      · exact closed.installed i setup c before
      · cases same
  | task found move =>
    obtain ⟨active, providers⟩ := move.configured
    refine ⟨?_, closed.built, closed.installed, ?_⟩
    · rw [providers]
      exact closed.clash
    · rw [active]
      exact closed.active
  | setup found move => exact closedSetup closed found move

theorem closedRun (clash : Clash s.broker.providers) (actions : List Action) :
    Closed s (s.run actions) :=
  runKeeps (fun _ _ closed change => closedChange closed change)
    ⟨clash, fun _ _ _ found => found, fun _ _ _ found => .inr found, .inl rfl⟩ actions

theorem advanceResolved {ws : List Workflow} (resolved : s.setups[i]? = some (.resolved setup ws)) :
    (s.act (.advance i)).setups[i]? = some
      (match Broker.build setup.evaluator s.broker.providers setup.names ws with
        | .ok c => .built setup c
        | .error e => .refused e) := by
  simp only [act, moveSetup, moveAt, resolved, SetupTask.step]
  rw [placeSet resolved]
  cases Broker.build setup.evaluator s.broker.providers setup.names ws <;> rfl

theorem advanceHands {ws : List Workflow} {count : Nat} {registry : Registry}
    (resolved : s.setups[i]? = some (.resolved setup ws)) (nonempty : ws ≠ [])
    (valid : Workflow.checkAll ws = .ok count)
    (collected : Registry.ofProviders s.broker.providers = .ok registry) :
    ∃ t, (s.act (.advance i)).setups[i]? = some t ∧ setup.Answered ws registry t := by
  obtain ⟨first, rest, rfl⟩ := List.exists_cons_of_ne_nil nonempty
  rw [advanceResolved resolved]
  unfold Setup.Answered
  simp only [Broker.build, Broker.validated, valid, collected, bind, Except.bind]
  cases setup.evaluator (first :: rest) registry with
  | error e => exact ⟨_, rfl, rfl⟩
  | ok handle => exact ⟨_, rfl, _, rfl, rfl⟩

/-- A configuring hands its evaluator the registry of the providers registered before its
snapshot, in their order, and what it then built stays as it is. Once two providers clash
nothing more is ever built, and the active configuration stays in force and can be run; only
one that was built before and is still to be installed may replace it. -/
theorem snapshotsOfProviders (actions : List Action) :
    let s := ({} : System).run actions
    s.broker.providers = registered actions ∧
    (∀ (i : Nat) setup ws count registry, s.setups[i]? = some (.resolved setup ws) → ws ≠ [] →
      Workflow.checkAll ws = .ok count → Registry.ofProviders (registered actions) = .ok registry →
      ∃ t, (s.act (.advance i)).setups[i]? = some t ∧ setup.Answered ws registry t) ∧
    (∀ (i : Nat) t setup c, s.setups[i]? = some t → t.taken = some (setup, c) →
      (∃ before after ws, actions = before ++ .advance i :: after ∧
        (({} : System).run before).setups[i]? = some (.resolved setup ws) ∧
        Accepted setup (registered before) ws c) ∧
      ∀ more, ∃ t, (s.run more).setups[i]? = some t ∧ t.Keeps setup c) ∧
    (Clash (registered actions) → ∀ more, Closed s (s.run more) ∧
      (∀ setup, ∃ e, (s.run more).broker.configure setup = (.error e, (s.run more).broker)) ∧
      ∀ c, (s.run more).broker.active = some c → (s.run more).broker.executing = false →
        ∀ records workflow, workflow = none ∨ c.Admits workflow → ∃ b,
          (s.run more).broker.begin records workflow = .ok (c.opened records workflow, b)) := by
  intro s
  have providers (actions : List Action) :
      (({} : System).run actions).broker.providers = registered actions :=
    runProviders {} actions
  refine ⟨providers actions, fun i setup ws count registry resolved nonempty valid collected => ?_,
    fun i t setup c found taken => ⟨?_, fun more => runKept more found taken⟩, fun clash more => ?_⟩
  · exact advanceHands resolved nonempty valid ((providers actions).symm ▸ collected)
  · obtain ⟨_, untaken, _⟩ | ⟨before, after, ws, rfl, resolved, built⟩ :=
      runTaken {} actions found taken
    · simp at untaken
    · have source := (sourcedRun before).setups i _ resolved
      rw [providers] at built
      exact ⟨before, after, ws, rfl, resolved, (Broker.acceptedBuild source).mp built⟩
  · have closed := closedRun ((providers actions).symm ▸ clash : Clash s.broker.providers) more
    refine ⟨closed, clashRefused closed.clash, fun c active free records workflow asked => ?_⟩
    have later : Sourced (s.run more) := runAppend {} actions more ▸ sourcedRun (actions ++ more)
    have known : c.Admits workflow := by
      rcases asked with rfl | known
      · exact soundAdmits (later.activeSound active)
      · exact known
    exact ⟨_, Broker.beginAdmitted active free known records⟩

theorem twinEndsConfiguring :
    let area : Function := ⟨"area", fun _ _ => .ok (.truth true)⟩
    let shapes : Provider := ⟨"Shapes", [area]⟩
    let setup : Setup :=
      { source := fun _ => .ok [⟨"flat", [{ name := "any", expression := "true" }]⟩]
        evaluator := fun _ _ => .ok fun _ _ => .ok none
        names := ["flat"] }
    let s := ({} : System).run
      [.register shapes, .configure setup, .advance 0, .advance 0, .advance 0, .register shapes]
    ∃ c, s.broker.active = some c ∧ c.workflows = ["flat"] ∧ ∀ more,
      (s.run more).broker.active = some c ∧
      ∀ other, ∃ e, (s.run more).broker.configure other = (.error e, (s.run more).broker) := by
  intro area shapes setup s
  have clash : Clash [shapes, shapes] :=
    ⟨0, 1, shapes, shapes, area, area, by decide, rfl, rfl, by simp [shapes], by simp [shapes], rfl⟩
  obtain ⟨c, active, named, done⟩ : ∃ c, s.broker.active = some c ∧ c.workflows = ["flat"] ∧
      s.setups = [.installed setup c] := ⟨_, rfl, rfl, rfl⟩
  refine ⟨c, active, named, fun more => ?_⟩
  obtain ⟨_, _, _, ended⟩ := snapshotsOfProviders
    [.register shapes, .configure setup, .advance 0, .advance 0, .advance 0, .register shapes]
  obtain ⟨closed, refused, _⟩ := ended clash more
  refine ⟨?_, refused⟩
  rcases closed.active with same | ⟨i, own, d, pending, _⟩
  · exact same.trans active
  · have nowhere : s.setups[i]? ≠ some (.built own d) := by
      rw [done, List.getElem?_singleton]
      split <;> simp
    exact absurd pending nowhere

end System
end RuleBroker
