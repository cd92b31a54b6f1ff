import Mathlib.Data.List.Forall2
import RuleBroker.Proofs.Structures
import RuleBroker.Store.Memory
/-! The two shapes of a document. A workflow in a list begins with its name, and a name is no
workflow, so that a value is a list of workflows or one workflow but never both; and what is
malformed at any depth is not left out of what is read. -/
namespace RuleBroker

section Lists

variable {α β : Type} {R : α → β → Prop} {as : List α} {bs : List β} {a : α}

theorem forallMember (pairs : List.Forall₂ R as bs) (inside : a ∈ as) : ∃ b ∈ bs, R a b := by
  induction pairs with
  | nil => cases inside
  | cons first _ ih =>
    cases inside with
    | head => exact ⟨_, List.mem_cons_self, first⟩
    | tail _ inside =>
      obtain ⟨b, later, related⟩ := ih inside
      exact ⟨b, List.mem_cons_of_mem _ later, related⟩

theorem itemsOk {read : Value → Except Mismatch α} {vs : List Value} :
    Reading.items read vs = .ok as ↔ List.Forall₂ (fun v a => read v = .ok a) vs as := by
  induction vs generalizing as with
  | nil => simp [Reading.items, eq_comm]
  | cons v rest ih =>
    simp only [Reading.items, Stages.bindOk, Except.ok.injEq, ih, List.forall₂_cons_left_iff]
    simp [eq_comm]

end Lists

inductive Rule.Placed : Value → Value → Prop where
  | here {v : Value} : Placed v v
  | under {x v y : Value} {entries : List (String × Value)} {vs : List Value}
      (given : v.entries? Slot.labels = some entries) (listed : ("Rules", .list vs) ∈ entries)
      (inside : y ∈ vs) (placed : Placed x y) : Placed x v

inductive Workflow.Placed : Value → Value → Prop where
  | rule {x v y : Value} {entries : List (String × Value)} {vs : List Value}
      (given : v.entries? Slot.labels = some entries) (listed : ("Rules", .list vs) ∈ entries)
      (inside : y ∈ vs) (placed : Rule.Placed x y) : Placed x v

def Workflow.Titled (v : Value) : Prop :=
  ∃ entries name, v.entries? Slot.labels = some entries ∧ ("WorkflowName", .text name) ∈ entries

section Depth

variable {v x y : Value} {vs us : List Value} {entries : List (String × Value)}

theorem listedUnique (once : (entries.map Prod.fst).Nodup) (listed : ("Rules", .list vs) ∈ entries)
    (rules : Reading.Listed (entries.lookup "Rules") us) : us = vs := by
  rw [(lookupMember once).mpr listed] at rules
  obtain ⟨⟨⟩, _⟩ | ⟨_, ⟨⟩, ⟨⟩⟩ := rules
  rfl

theorem Rule.placedStated {r : Rule} (placed : Placed x v) (states : States v r) :
    ∃ s, States x s := by
  induction placed generalizing r with
  | here => exact ⟨r, states⟩
  | under given listed inside _ ih =>
    obtain ⟨given', once, meant, below⟩ := states
    cases given.symm.trans given'
    cases listedUnique once listed (meant .rules)
    obtain ⟨s, _, states⟩ := forallMember below inside
    exact ih states

theorem Workflow.placedStated {w : Workflow} (placed : Placed x v) (states : States v w) :
    ∃ r, Rule.States x r := by
  obtain ⟨given, listed, inside, placed⟩ := placed
  obtain ⟨given', once, _, rules, below⟩ := states
  cases given.symm.trans given'
  cases listedUnique once listed rules
  obtain ⟨r, _, states⟩ := forallMember below inside
  exact Rule.placedStated placed states

end Depth

namespace Workflow

variable {w : Workflow} {vs : List Value} {v y : Value} {s : String}

theorem statesTitled (states : States v w) : Titled v := by
  obtain ⟨given, once, name, _, _⟩ := states
  exact ⟨_, _, given, (lookupMember once).mp name⟩

theorem textUntitled : ¬Titled (.text s) := by
  intro ⟨_, _, given, _⟩
  cases given

theorem titledList (titled : Titled (.list vs)) : ∃ s rest, vs = .text s :: rest := by
  obtain ⟨entries, s, given, named⟩ := titled
  simp only [Value.entries?] at given
  split at given <;> cases given
  cases vs with
  | nil => cases named
  | cons n rest =>
    have first : n = .text s := by
      cases rest <;> simpa [Slot.labels, Slot.label, eq_comm] using named
    exact ⟨s, rest, first ▸ rfl⟩

end Workflow

namespace Document
open Workflow

theorem readManyOk {v : Value} {ws : List Workflow} :
    readMany v = some ws ↔ ∃ vs, v = .list vs ∧ List.Forall₂ States vs ws := by
  have many : readMany v = some ws ↔ readAll v = .ok ws := by
    unfold readMany
    cases readAll v <;> simp [Except.toOption]
  rw [many, readAll]
  cases v <;> simp [Reading.sequence, Reading.wrongType, itemsOk, readStates]

theorem readOneOk {v : Value} {ws : List Workflow} :
    readOne v = some ws ↔ ∃ w, States v w ∧ ws = [w] := by
  simp only [← readStates]
  unfold readOne
  cases Workflow.read v <;> simp [Except.toOption, eq_comm]

theorem titledNotMany {v : Value} (titled : Titled v) : readMany v = none := by
  refine Option.eq_none_iff_forall_ne_some.mpr fun ws many => ?_
  obtain ⟨vs, rfl, each⟩ := readManyOk.mp many
  obtain ⟨s, rest, rfl⟩ := titledList titled
  obtain ⟨w, _, states⟩ := forallMember each List.mem_cons_self
  exact textUntitled (statesTitled states)

theorem untitledNotOne {v : Value} (untitled : ¬Titled v) : readOne v = none := by
  refine Option.eq_none_iff_forall_ne_some.mpr fun ws one => ?_
  obtain ⟨w, states, _⟩ := readOneOk.mp one
  exact untitled (statesTitled states)

theorem readTitled {v : Value} (titled : Titled v) : read v = readOne v := by
  simp [read, titledNotMany titled]

theorem readUntitled {v : Value} (untitled : ¬Titled v) : read v = readMany v := by
  simp [read, untitledNotOne untitled]

def Stands (y v : Value) : Prop :=
  Titled v ∧ y = v ∨ ¬Titled v ∧ ∃ vs, v = .list vs ∧ y ∈ vs

theorem standsStated {v y : Value} {ws : List Workflow} (stands : Stands y v)
    (found : read v = some ws) : ∃ w ∈ ws, States y w := by
  obtain ⟨titled, rfl⟩ | ⟨untitled, vs, rfl, inside⟩ := stands
  · rw [readTitled titled] at found
    obtain ⟨w, states, rfl⟩ := readOneOk.mp found
    exact ⟨w, List.mem_singleton_self w, states⟩
  · rw [readUntitled untitled] at found
    obtain ⟨_, ⟨⟩, each⟩ := readManyOk.mp found
    exact forallMember each inside

/-- A value is a list of workflows or one workflow but never both, whichever is tried first,
and its shape alone tells which. It is read exactly: all items in order, all rules at every
depth. What stands in the place of a workflow or of a rule and is none leaves nothing. -/
theorem oneShapeReadWhole (v : Value) :
    (readMany v = none ∨ readOne v = none) ∧ read v = (readOne v <|> readMany v) ∧
    (Titled v → read v = readOne v) ∧ (¬Titled v → read v = readMany v) ∧
    (∀ ws, readMany v = some ws ↔ ∃ vs, v = .list vs ∧ List.Forall₂ States vs ws) ∧
    (∀ ws, readOne v = some ws ↔ ∃ w, States v w ∧ ws = [w]) ∧
    ∀ y, Stands y v →
      (∀ w, ¬States y w) ∨ (∃ x, Placed x y ∧ ∀ r, ¬Rule.States x r) → read v = none := by
  refine ⟨?_, ?_, readTitled, readUntitled, fun _ => readManyOk, fun _ => readOneOk, ?_⟩
  · by_cases titled : Titled v
    · exact .inl (titledNotMany titled)
    · exact .inr (untitledNotOne titled)
  · by_cases titled : Titled v
    · simp [readTitled titled, titledNotMany titled]
    · simp [readUntitled titled, untitledNotOne titled]
  · intro y stands malformed
    refine Option.eq_none_iff_forall_ne_some.mpr fun ws found => ?_
    obtain ⟨w, _, states⟩ := standsStated stands found
    obtain unstated | ⟨x, placed, unstated⟩ := malformed
    · exact unstated w states
    · obtain ⟨r, states⟩ := placedStated placed states
      exact unstated r states

example : (read (.list [.list [.text "none"],
    .list [.text "one", .list [.list [.text "any"]]]])).map (List.map ruleCount) =
      some [0, 1] := by rfl

end Document
end RuleBroker
