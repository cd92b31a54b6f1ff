import RuleBroker.Proofs.Configuring
/-! The check of workflows accepts the well-formed ones and no others, and counts every
rule at every depth. The first workflow that spoils them decides the error, whatever
stands behind it. -/
namespace RuleBroker
open Text (Blank)

namespace Rule

theorem wellFormedAllNil : WellFormedAll [] :=
  .intro nofun List.nodup_nil nofun nofun

theorem wellFormedAllCons {r : Rule} {rest : List Rule} :
    WellFormedAll (r :: rest) ↔ ¬ Blank r.name ∧ (∀ s ∈ rest, s.name ≠ r.name) ∧
      (Blank r.expression → r.rules ≠ []) ∧ WellFormedAll r.rules ∧ WellFormedAll rest := by
  constructor
  · rintro ⟨named, distinct, meaningful, below⟩
    obtain ⟨once, distinct⟩ := List.nodup_cons.mp distinct
    refine ⟨named r List.mem_cons_self, fun s later same => ?_, meaningful r List.mem_cons_self,
      below r List.mem_cons_self, ?_⟩
    · exact once (List.mem_map.mpr ⟨s, later, same⟩)
    · exact .intro (fun s later => named s (List.mem_cons_of_mem _ later)) distinct
        (fun s later => meaningful s (List.mem_cons_of_mem _ later))
        (fun s later => below s (List.mem_cons_of_mem _ later))
  · rintro ⟨named, once, meaningful, below, ⟨namedRest, distinct, meaningfulRest, belowRest⟩⟩
    refine .intro (List.forall_mem_cons.mpr ⟨named, namedRest⟩) ?_
      (List.forall_mem_cons.mpr ⟨meaningful, meaningfulRest⟩)
      (List.forall_mem_cons.mpr ⟨below, belowRest⟩)
    refine List.nodup_cons.mpr ⟨fun again => ?_, distinct⟩
    obtain ⟨s, later, same⟩ := List.mem_map.mp again
    exact once s later same

mutual

def definitions : Rule → List Rule
  | r@{ rules, .. } => r :: definitionsAll rules

def definitionsAll : List Rule → List Rule
  | [] => []
  | r :: rest => definitions r ++ definitionsAll rest

end

mutual

theorem lengthDefinitions : ∀ r : Rule, r.definitions.length = r.count
  | { rules, .. } => by
    simp [definitions, count, lengthDefinitionsAll rules, Nat.add_comm]

theorem lengthDefinitionsAll : ∀ rs : List Rule, (definitionsAll rs).length = countAll rs
  | [] => rfl
  | r :: rest => by
    simp [definitionsAll, countAll, lengthDefinitions r, lengthDefinitionsAll rest]

end

end Rule

namespace Workflow

def definitions (w : Workflow) : List Rule := Rule.definitionsAll w.rules

theorem lengthDefinitions (ws : List Workflow) :
    (ws.flatMap definitions).length = (ws.map ruleCount).sum := by
  rw [List.length_flatMap]
  exact congrArg List.sum (List.map_congr_left fun w _ => Rule.lengthDefinitionsAll w.rules)

/- The names seen so far are those of earlier siblings; below a rule a new level starts. -/
mutual

theorem checkBelowAccepts (path : String) : ∀ r : Rule,
    checkBelow path r = .ok () ↔ Rule.WellFormedAll r.rules
  | { name, rules, .. } => by
    simp [checkBelow, checkRulesAccepts (path ++ "." ++ name) 0 [] rules]

theorem checkRulesAccepts (path : String) (index : Nat) (seen : List String) :
    ∀ rules : List Rule, checkRules path index seen rules = .ok () ↔
      Rule.WellFormedAll rules ∧ ∀ r ∈ rules, r.name ∉ seen
  | [] => by simp [checkRules, Rule.wellFormedAllNil]
  | r :: rest => by
    have below := checkBelowAccepts path r
    have later := checkRulesAccepts path (index + 1) (r.name :: seen) rest
    rw [Rule.wellFormedAllCons, List.forall_mem_cons, checkRules]
    split
    · next unnamed => simp [unnamed]
    · next named =>
      split
      · next repeated => simp [repeated]
      · next fresh =>
        split
        · next hollow =>
          simp only [Rule.isNested, Bool.not_not, List.isEmpty_iff] at hollow
          simp [hollow.1, hollow.2]
        · next meaningful =>
          have nested : Blank r.expression → r.rules ≠ [] := fun blank empty =>
            meaningful ⟨blank, by simp [Rule.isNested, empty]⟩
          simp only [Stages.bindOk, exists_const, below, later]
          grind

end

theorem checkAccepts {w : Workflow} : check w = .ok () ↔ w.WellFormed := by
  constructor
  · intro ok
    have named := checkNamed ok
    simp only [check, named, if_false] at ok
    split at ok <;> try contradiction
    rename_i nonempty
    refine ⟨named, by simpa using nonempty, ?_⟩
    exact ((checkRulesAccepts w.name 0 [] w.rules).mp ok).1
  · rintro ⟨named, nonempty, rules⟩
    simp only [check, named, if_false, List.isEmpty_iff, nonempty]
    exact (checkRulesAccepts w.name 0 [] w.rules).mpr ⟨rules, fun _ _ => List.not_mem_nil⟩

theorem checkAllWellFormed {ws : List Workflow} {count : Nat} :
    checkAll ws = .ok count ↔
      WellFormedAll ws ∧ count = (ws.flatMap definitions).length := by
  simp only [checkAllAccepts, checkAccepts, lengthDefinitions]
  exact ⟨fun ⟨each, distinct, counted⟩ => ⟨⟨each, distinct⟩, counted⟩,
    fun ⟨⟨each, distinct⟩, counted⟩ => ⟨each, distinct, counted⟩⟩

theorem checkFromFault {seen : List String} {total : Nat} {ws : List Workflow} {fault : Fault}
    (failed : checkFrom seen total ws = .error fault) :
    ∃ front w rest count, ws = front ++ w :: rest ∧ checkFrom seen total front = .ok count ∧
      ∀ more, checkFrom seen total (front ++ w :: more) = .error fault := by
  induction ws generalizing seen total with
  | nil => cases failed
  | cons w rest ih =>
    rcases Stages.bindError.mp failed with faulty | ⟨_, valid, later⟩
    · refine ⟨[], w, rest, total, rfl, rfl, fun more => ?_⟩
      exact Stages.bindError.mpr (.inl faulty)
    · split at later
      · next again =>
        refine ⟨[], w, rest, total, rfl, rfl, fun more => ?_⟩
        exact Stages.bindError.mpr (.inr ⟨(), valid, by rw [if_pos again]; exact later⟩)
      · next fresh =>
        obtain ⟨front, x, tail, count, same, passed, always⟩ := ih later
        refine ⟨w :: front, x, tail, count, by rw [same, List.cons_append], ?_, fun more => ?_⟩
        · exact Stages.bindOk.mpr ⟨(), valid, by rw [if_neg fresh]; exact passed⟩
        · exact Stages.bindError.mpr (.inr ⟨(), valid, by rw [if_neg fresh]; exact always more⟩)

end Workflow

namespace Broker

/-- Workflows pass exactly when they are well-formed, and then every rule in their trees is
counted once. Otherwise there is a first workflow that makes those before it ill-formed, and
its fault is the error whatever follows. -/
theorem validatedExactlyWellFormed (ws : List Workflow) :
    (∀ count, validated ws = .ok count ↔
      Workflow.WellFormedAll ws ∧ count = (ws.flatMap Workflow.definitions).length) ∧
    (¬ Workflow.WellFormedAll ws → ∃ front w rest, ∃ fault : Workflow.Fault,
      ws = front ++ w :: rest ∧
      Workflow.WellFormedAll front ∧ ¬ Workflow.WellFormedAll (front ++ [w]) ∧
      ∀ more, validated (front ++ w :: more) = .error (.configuration fault.message)) := by
  have accepts (ws : List Workflow) (count : Nat) : validated ws = .ok count ↔
      Workflow.WellFormedAll ws ∧ count = (ws.flatMap Workflow.definitions).length :=
    validatedOk.trans Workflow.checkAllWellFormed
  refine ⟨accepts ws, fun illFormed => ?_⟩
  cases checked : Workflow.checkAll ws with
  | ok count => exact absurd (Workflow.checkAllWellFormed.mp checked).1 illFormed
  | error fault =>
    obtain ⟨front, w, rest, count, same, passed, always⟩ := Workflow.checkFromFault checked
    have failed (more : List Workflow) :
        validated (front ++ w :: more) = .error (.configuration fault.message) :=
      validatedError.mpr ⟨fault, always more, rfl⟩
    refine ⟨front, w, rest, fault, same, (Workflow.checkAllWellFormed.mp passed).1, ?_, failed⟩
    intro wellFormed
    have ok := (accepts (front ++ [w]) _).mpr ⟨wellFormed, rfl⟩
    rw [failed []] at ok
    cases ok

end Broker
end RuleBroker
