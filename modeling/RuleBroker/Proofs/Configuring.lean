import Mathlib.Algebra.GroupWithZero.Nat
import Mathlib.Data.List.TakeWhile
import RuleBroker.RuleError
import RuleBroker.Workflow
import RuleBroker.Broker
/-! Configuring is all or nothing: five stages in a row, of which the first that fails gives the
error, and one write behind all of them. The check is one of the stages. -/
namespace RuleBroker

theorem Text.trimBlank {s : String} : trim s.toList = [] ↔ Blank s := by
  rw [trim, List.reverse_eq_nil_iff, List.dropWhile_eq_nil_iff]
  constructor
  · intro ends
    cases left : s.toList.dropWhile isBlank with
    | nil => exact List.dropWhile_eq_nil_iff.mp left
    | cons c rest =>
      have first : isBlank c = true := ends c (by rw [left]; simp)
      have solid := List.head_dropWhile_not isBlank (l := s.toList) (by simp [left])
      simp [left, first] at solid
  · intro blank c inside
    exact blank c ((List.dropWhile_sublist isBlank).subset (List.mem_reverse.mp inside))

namespace Workflow
open Text (Blank)

theorem checkNamed {w : Workflow} (ok : check w = .ok ()) : ¬ Blank w.name := by
  intro blank
  simp [check, blank] at ok

theorem checkFromAccepts {seen : List String} {total count : Nat} {ws : List Workflow} :
    checkFrom seen total ws = .ok count ↔
      (∀ w ∈ ws, check w = .ok ()) ∧ (ws.map Workflow.name).Nodup ∧
      (∀ w ∈ ws, w.name ∉ seen) ∧ count = total + (ws.map ruleCount).sum := by
  induction ws generalizing seen total with
  | nil => simp [checkFrom, eq_comm]
  | cons w rest ih =>
    simp only [checkFrom, Stages.bindOk]
    constructor
    · rintro ⟨⟨⟩, valid, found⟩
      split at found <;> try contradiction
      rename_i fresh
      obtain ⟨each, distinct, apart, counted⟩ := ih.mp found
      refine ⟨?_, ?_, ?_, ?_⟩
      · intro x member
        rcases List.mem_cons.mp member with rfl | inside
        · exact valid
        · exact each x inside
      · refine List.nodup_cons.mpr ⟨fun again => ?_, distinct⟩
        obtain ⟨x, inside, same⟩ := List.mem_map.mp again
        exact apart x inside (by simp [same])
      · intro x member
        rcases List.mem_cons.mp member with rfl | inside
        · exact fresh
        · exact fun old => apart x inside (List.mem_cons_of_mem _ old)
      · simp only [List.map_cons, List.sum_cons]
        omega
    · rintro ⟨each, distinct, apart, counted⟩
      obtain ⟨once, distinct⟩ := List.nodup_cons.mp distinct
      refine ⟨(), each w List.mem_cons_self, ?_⟩
      rw [if_neg (apart w List.mem_cons_self), ih]
      refine ⟨fun x inside => each x (List.mem_cons_of_mem _ inside), distinct, ?_, ?_⟩
      · intro x inside old
        rcases List.mem_cons.mp old with same | old
        · exact once (List.mem_map.mpr ⟨x, inside, same⟩)
        · exact apart x (List.mem_cons_of_mem _ inside) old
      · simp only [List.map_cons, List.sum_cons] at counted
        omega

theorem checkAllAccepts {count : Nat} {ws : List Workflow} :
    checkAll ws = .ok count ↔ (∀ w ∈ ws, check w = .ok ()) ∧ (ws.map Workflow.name).Nodup ∧
      count = (ws.map ruleCount).sum := by
  simp [checkAll, checkFromAccepts]

end Workflow

structure Accepted (setup : Setup) (providers : List Provider) (ws : List Workflow)
    (c : Configuration) : Prop where
  resolved : setup.source setup.names = .ok ws
  nonempty : ws ≠ []
  valid : ∃ count, Workflow.checkAll ws = .ok count
  bound : ∃ registry, Registry.ofProviders providers = .ok registry ∧
    setup.evaluator ws registry = .ok c.handle
  first : (ws.map Workflow.name).head? = some c.defaultWorkflow
  names : c.workflows = ws.map Workflow.name

inductive Refused (setup : Setup) (providers : List Provider) : RuleError → Prop where
  | resolving {e} (missing : setup.source setup.names = .error e) : Refused setup providers e
  | choosing (resolved : setup.source setup.names = .ok []) :
      Refused setup providers
        (.configuration ("未解析到任何工作流: " ++ Text.quotedList setup.names))
  | checking {ws fault} (resolved : setup.source setup.names = .ok ws) (nonempty : ws ≠ [])
      (invalid : Workflow.checkAll ws = .error fault) :
      Refused setup providers (.configuration fault.message)
  | collecting {ws count e} (resolved : setup.source setup.names = .ok ws) (nonempty : ws ≠ [])
      (valid : Workflow.checkAll ws = .ok count)
      (clash : Registry.ofProviders providers = .error e) : Refused setup providers e
  | binding {ws count registry e} (resolved : setup.source setup.names = .ok ws)
      (nonempty : ws ≠ []) (valid : Workflow.checkAll ws = .ok count)
      (collected : Registry.ofProviders providers = .ok registry)
      (faulty : setup.evaluator ws registry = .error e) : Refused setup providers e

namespace Broker

variable {setup : Setup} {providers : List Provider} {ws : List Workflow} {c : Configuration}
  {e : RuleError}

theorem validatedOk {count : Nat} : validated ws = .ok count ↔ Workflow.checkAll ws = .ok count := by
  unfold validated
  cases Workflow.checkAll ws <;> simp

theorem validatedError : validated ws = .error e ↔
    ∃ fault, Workflow.checkAll ws = .error fault ∧ e = .configuration fault.message := by
  unfold validated
  cases Workflow.checkAll ws <;> simp [eq_comm]

theorem acceptedBuild (resolved : setup.source setup.names = .ok ws) :
    build setup.evaluator providers setup.names ws = .ok c ↔ Accepted setup providers ws c := by
  cases ws with
  | nil =>
    constructor
    · intro built
      cases built
    · intro accepted
      exact absurd rfl accepted.nonempty
  | cons first rest =>
    simp only [build, Stages.bindOk, validatedOk]
    constructor
    · rintro ⟨count, valid, registry, collected, handle, bound, last⟩
      cases last
      exact ⟨resolved, by simp, ⟨count, valid⟩, ⟨registry, collected, bound⟩, rfl, rfl⟩
    · rintro ⟨_, _, ⟨count, valid⟩, ⟨registry, collected, bound⟩, named, names⟩
      refine ⟨count, valid, registry, collected, c.handle, bound, ?_⟩
      have default : first.name = c.defaultWorkflow := by simpa using named
      rw [default, ← names]

theorem refusedBuild (resolved : setup.source setup.names = .ok ws)
    (faulty : build setup.evaluator providers setup.names ws = .error e) :
    Refused setup providers e := by
  cases ws with
  | nil =>
    cases faulty
    exact .choosing resolved
  | cons first rest =>
    simp only [build, Stages.bindError, validatedOk, validatedError] at faulty
    rcases faulty with ⟨fault, invalid, rfl⟩ | ⟨count, valid, later⟩
    · exact .checking resolved (by simp) invalid
    · rcases later with clash | ⟨registry, collected, later⟩
      · exact .collecting resolved (by simp) valid clash
      · rcases later with faulty | ⟨handle, _, last⟩
        · exact .binding resolved (by simp) valid collected faulty
        · cases last

theorem configureAccepted (b : Broker) (accepted : Accepted setup b.providers ws c) :
    b.configure setup = (.ok (), { b with active := some c }) := by
  simp only [configure, accepted.resolved, (acceptedBuild accepted.resolved).mpr accepted]
  rfl

theorem configureCases (b : Broker) (setup : Setup) :
    (∃ ws c, Accepted setup b.providers ws c ∧
      b.configure setup = (.ok (), { b with active := some c })) ∨
    ∃ e, Refused setup b.providers e ∧ b.configure setup = (.error e, b) := by
  cases resolved : setup.source setup.names with
  | error e => exact .inr ⟨e, .resolving resolved, by simp only [configure, resolved]⟩
  | ok ws =>
    cases built : build setup.evaluator b.providers setup.names ws with
    | error e =>
      exact .inr ⟨e, refusedBuild resolved built, by simp only [configure, resolved, built]⟩
    | ok c =>
      have accepted := (acceptedBuild resolved).mp built
      exact .inl ⟨ws, c, accepted, configureAccepted b accepted⟩

theorem configureRefused (b : Broker) (refused : Refused setup b.providers e) :
    b.configure setup = (.error e, b) := by
  cases refused with
  | resolving missing => simp only [configure, missing]
  | choosing resolved => simp only [configure, resolved, build]
  | checking resolved nonempty invalid =>
    obtain ⟨first, rest, rfl⟩ := List.exists_cons_of_ne_nil nonempty
    simp only [configure, resolved, build, validated, invalid, bind, Except.bind]
  | collecting resolved nonempty valid clash =>
    obtain ⟨first, rest, rfl⟩ := List.exists_cons_of_ne_nil nonempty
    simp only [configure, resolved, build, validated, valid, clash, bind, Except.bind]
  | binding resolved nonempty valid collected faulty =>
    obtain ⟨first, rest, rfl⟩ := List.exists_cons_of_ne_nil nonempty
    simp only [configure, resolved, build, validated, valid, collected, faulty, bind, Except.bind]

theorem configureOk {b : Broker} (fine : (b.configure setup).1 = .ok ()) :
    ∃ ws c, Accepted setup b.providers ws c ∧
      (b.configure setup).2 = { b with active := some c } := by
  rcases configureCases b setup with ⟨ws, c, accepted, answer⟩ | ⟨e, _, answer⟩
  · exact ⟨ws, c, accepted, by rw [answer]⟩
  · rw [answer] at fine
    cases fine

theorem configureError {b : Broker} (failed : (b.configure setup).1 = .error e) :
    Refused setup b.providers e ∧ (b.configure setup).2 = b := by
  rcases configureCases b setup with ⟨ws, c, _, answer⟩ | ⟨other, refused, answer⟩
  · rw [answer] at failed
    cases failed
  · rw [answer] at failed ⊢
    cases failed
    exact ⟨refused, rfl⟩

/-- Success is success of all five stages and writes the active configuration alone; any
other answer is the error of the first stage that failed and leaves the broker as it was. -/
theorem configureAllOrNothing (b : Broker) (setup : Setup) :
    ((b.configure setup).1 = .ok () ↔ ∃ ws count registry handle,
      setup.source setup.names = .ok ws ∧ ws ≠ [] ∧ Workflow.checkAll ws = .ok count ∧
      Registry.ofProviders b.providers = .ok registry ∧
      setup.evaluator ws registry = .ok handle) ∧
    ((b.configure setup).1 = .ok () → ∃ ws c, Accepted setup b.providers ws c ∧
      (b.configure setup).2 = { b with active := some c }) ∧
    (∀ e, (b.configure setup).1 = .error e ↔ Refused setup b.providers e) ∧
    (∀ e, (b.configure setup).1 = .error e → (b.configure setup).2 = b) := by
  refine ⟨⟨fun fine => ?_, ?_⟩, configureOk, fun e => ⟨fun failed => ?_, fun refused => ?_⟩,
    fun e failed => ?_⟩
  · obtain ⟨ws, c, accepted, _⟩ := configureOk fine
    obtain ⟨count, valid⟩ := accepted.valid
    obtain ⟨registry, collected, bound⟩ := accepted.bound
    exact ⟨ws, count, registry, c.handle, accepted.resolved, accepted.nonempty, valid,
      collected, bound⟩
  · rintro ⟨ws, count, registry, handle, resolved, nonempty, valid, collected, bound⟩
    obtain ⟨first, rest, rfl⟩ := List.exists_cons_of_ne_nil nonempty
    have accepted : Accepted setup b.providers (first :: rest)
        ⟨handle, first.name, (first :: rest).map Workflow.name⟩ :=
      ⟨resolved, nonempty, ⟨count, valid⟩, ⟨registry, collected, bound⟩, rfl, rfl⟩
    rw [configureAccepted b accepted]
  · exact (configureError failed).1
  · rw [configureRefused b refused]
  · exact (configureError failed).2

end Broker
end RuleBroker
