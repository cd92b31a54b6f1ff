import Mathlib.Data.List.Induction
import RuleBroker.Proofs.Lookup
import RuleBroker.Proofs.Stores
/-! A store in memory after any history of changes. Under a name stands what the last change
that took effect there left; a text that is no document takes no effect, and a read answers
with what stands under its names or with the first of them under which nothing does. -/
namespace RuleBroker.MemoryStore

inductive Change where
  | insert (name : String) (workflows : List Workflow)
  | load (name text : String)
  | remove (name : String)

inductive Reply where
  | done
  | loaded (answer : Except RuleError Nat)
  | removed (held : Bool)

def change (s : MemoryStore) : Change → MemoryStore × Reply
  | .insert name ws => (s.insert name ws, .done)
  | .load name text =>
    match s.load name text with
    | .ok (count, next) => (next, .loaded (.ok count))
    | .error e => (s, .loaded (.error e))
  | .remove name => (s.erase name, .removed (s.contains name))

def after (changes : List Change) : MemoryStore :=
  changes.foldl (fun s c => (s.change c).1) {}

namespace Change

inductive Stores : Change → String → List Workflow → Prop where
  | insert {name ws} : Stores (.insert name ws) name ws
  | load {name text ws} (document : Document.ofText text = .ok ws) :
      Stores (.load name text) name ws

def Touches (c : Change) (name : String) : Prop := (∃ ws, c.Stores name ws) ∨ c = .remove name

def Leave (changes : List Change) (name : String) (ws : List Workflow) : Prop :=
  ∃ before c later, changes = before ++ c :: later ∧ c.Stores name ws ∧
    ∀ d ∈ later, ¬ d.Touches name

end Change

open Change (Leave)

variable {s : MemoryStore} {c : Change} {changes : List Change} {name : String}
  {names : List String} {ws : List Workflow} {e : RuleError}

theorem afterSnoc : after (changes ++ [c]) = ((after changes).change c).1 := by
  simp [after, List.foldl_append]

theorem findErase (s : MemoryStore) (name other : String) :
    (s.erase other).find? name = if name ≠ other then s.find? name else none := by
  unfold find? erase Fields.find
  rw [lookupFilter fun key => decide (key ≠ other)]
  simp

theorem changeLoaded {text : String} (document : Document.ofText text = .ok ws) :
    s.change (.load name text) = (s.insert name ws, .loaded (.ok ws.length)) := by
  simp only [change, load, document]

theorem changeRejected {text : String} {fault : Document.Fault}
    (malformed : Document.ofText text = .error fault) :
    s.change (.load name text) = (s, .loaded (.error (.unparsable name fault.message))) := by
  simp only [change, load, malformed]

theorem findStored (stores : c.Stores name ws) : (s.change c).1.find? name = some ws := by
  cases stores with
  | insert => exact Fields.findPutSelf name ws s.entries
  | load document =>
    rw [changeLoaded document]
    exact Fields.findPutSelf name ws s.entries

theorem findUntouched (untouched : ¬ c.Touches name) :
    (s.change c).1.find? name = s.find? name := by
  obtain ⟨notStored, notRemoved⟩ := not_or.mp untouched
  cases c with
  | insert other held =>
    have differs : name ≠ other := by
      intro same
      exact notStored ⟨held, same ▸ .insert⟩
    exact Fields.findPutOther differs held s.entries
  | load other text =>
    cases document : Document.ofText text with
    | error fault => rw [changeRejected document]
    | ok held =>
      have differs : name ≠ other := by
        intro same
        exact notStored ⟨held, same ▸ .load document⟩
      rw [changeLoaded document]
      exact Fields.findPutOther differs held s.entries
  | remove other =>
    have differs : name ≠ other := by
      intro same
      exact notRemoved (same ▸ rfl)
    simp [change, findErase, differs]

theorem leaveSnoc : Leave (changes ++ [c]) name ws ↔
    c.Stores name ws ∨ ¬ c.Touches name ∧ Leave changes name ws := by
  constructor
  · intro leave
    obtain ⟨before, d, later, split, stores, quiet⟩ := leave
    obtain rfl | ⟨later, last, rfl⟩ := List.eq_nil_or_concat' later
    · cases (List.append_inj' split rfl).2
      exact .inl stores
    · have regrouped : before ++ d :: (later ++ [last]) = (before ++ d :: later) ++ [last] := by
        simp
      obtain ⟨front, same⟩ := List.append_inj' (split.trans regrouped) rfl
      cases same
      refine .inr ⟨quiet c (by simp), before, d, later, front, stores, ?_⟩
      exact fun other inside => quiet other (List.mem_append_left _ inside)
  · intro either
    obtain stores | ⟨untouched, before, d, later, rfl, stores, quiet⟩ := either
    · exact ⟨changes, c, [], rfl, stores, by simp⟩
    · refine ⟨before, d, later ++ [c], by simp, stores, ?_⟩
      intro other inside
      obtain inside | last := List.mem_append.mp inside
      · exact quiet other inside
      · rw [List.mem_singleton.mp last]
        exact untouched

theorem findAfter : (after changes).find? name = some ws ↔ Leave changes name ws := by
  -- From the end of the history: its last change decides, or leaves the rest to decide.
  induction changes using List.reverseRecOn with
  | nil => simp [after, find?, Fields.find, Leave]
  | append_singleton changes c ih =>
    rw [afterSnoc, leaveSnoc]
    by_cases touched : c.Touches name
    · have before : ¬ (¬ c.Touches name ∧ Leave changes name ws) := fun both => both.1 touched
      rw [or_iff_left before]
      obtain ⟨held, stores⟩ | rfl := touched
      · constructor
        · intro found
          cases found.symm.trans (findStored stores)
          exact stores
        · exact findStored
      · have gone : ((after changes).change (.remove name)).1.find? name = none := by
          simp [change, findErase]
        rw [gone]
        constructor
        · intro found
          cases found
        · intro stores
          cases stores
    · have notStored : ¬ c.Stores name ws := fun stores => touched (.inl ⟨ws, stores⟩)
      rw [findUntouched touched, ih]
      simp [touched, notStored]

theorem orderedChange (ordered : Fields.Ordered s.entries) (c : Change) :
    Fields.Ordered (s.change c).1.entries := by
  cases c with
  | insert name ws => exact Fields.orderedPut ordered
  | load name text =>
    cases document : Document.ofText text with
    | error fault => rwa [changeRejected document]
    | ok ws =>
      rw [changeLoaded document]
      exact Fields.orderedPut ordered
  | remove name => exact ordered.sublist (List.filter_sublist.map _)

theorem orderedAfter (changes : List Change) : Fields.Ordered (after changes).entries := by
  induction changes using List.reverseRecOn with
  | nil => exact .nil
  | append_singleton changes c ih =>
    rw [afterSnoc]
    exact orderedChange ih c

theorem findListed : (∃ ws, s.find? name = some ws) ↔ name ∈ s.entries.map Prod.fst := by
  rw [← Option.isSome_iff_exists, ← not_iff_not, Option.not_isSome_iff_eq_none]
  exact lookupNone

theorem heldOrMissing (s : MemoryStore) (names : List String) :
    (∃ parts, List.Forall₂ (fun name ws => s.find? name = some ws) names parts) ∨
    ∃ before name rest, names = before ++ name :: rest ∧
      (∀ n ∈ before, ∃ ws, s.find? n = some ws) ∧ s.find? name = none := by
  induction names with
  | nil => exact .inl ⟨[], .nil⟩
  | cons name rest ih =>
    cases found : s.find? name with
    | none => exact .inr ⟨[], name, rest, rfl, by simp, found⟩
    | some ws =>
      obtain ⟨parts, held⟩ | ⟨before, missing, later, rfl, earlier, absent⟩ := ih
      · exact .inl ⟨ws :: parts, .cons found held⟩
      · refine .inr ⟨name :: before, missing, later, rfl, ?_, absent⟩
        exact List.forall_mem_cons.mpr ⟨⟨ws, found⟩, earlier⟩

theorem readOk : s.read names = .ok ws ↔
    ∃ parts, List.Forall₂ (fun name ws => s.find? name = some ws) names parts ∧
      ws = parts.flatten := by
  constructor
  · intro done
    obtain ⟨parts, held⟩ | ⟨before, name, rest, rfl, earlier, absent⟩ := heldOrMissing s names
    · cases done.symm.trans (readHeld held)
      exact ⟨parts, held, rfl⟩
    · cases done.symm.trans (readMissing earlier absent)
  · intro given
    obtain ⟨parts, held, rfl⟩ := given
    exact readHeld held

theorem readError : s.read names = .error e ↔ ∃ before name rest,
    names = before ++ name :: rest ∧ (∀ n ∈ before, ∃ ws, s.find? n = some ws) ∧
      s.find? name = none ∧ e = .notFound name "memory" := by
  constructor
  · intro failed
    obtain ⟨parts, held⟩ | ⟨before, name, rest, rfl, earlier, absent⟩ := heldOrMissing s names
    · cases failed.symm.trans (readHeld held)
    · cases failed.symm.trans (readMissing earlier absent)
      exact ⟨before, name, rest, rfl, earlier, absent, rfl⟩
  · intro given
    obtain ⟨before, name, rest, rfl, earlier, absent, rfl⟩ := given
    exact readMissing earlier absent

/-- Whatever was inserted, loaded and removed, a read answers with what the last effective
change left under each name, or with the first name under which none left anything; a load
either changes nothing or answers the count of what its name then reads as. -/
theorem lastChangesStand (changes : List Change) :
    (∀ names ws, (after changes).read names = .ok ws ↔
      ∃ parts, List.Forall₂ (Leave changes) names parts ∧ ws = parts.flatten) ∧
    (∀ names e, (after changes).read names = .error e ↔ ∃ before name rest,
      names = before ++ name :: rest ∧ (∀ n ∈ before, ∃ ws, Leave changes n ws) ∧
        (¬ ∃ ws, Leave changes name ws) ∧ e = .notFound name "memory") ∧
    (∀ name text,
      (∃ fault, Document.ofText text = .error fault ∧ (after changes).change (.load name text) =
        (after changes, .loaded (.error (.unparsable name fault.message)))) ∨
      ∃ ws next, Document.ofText text = .ok ws ∧
        (after changes).change (.load name text) = (next, .loaded (.ok ws.length)) ∧
        next.read [name] = .ok ws) ∧
    (∀ name, (after changes).contains name = true ↔ ∃ ws, Leave changes name ws) ∧
    ∃ live : List String, live.Nodup ∧ (∀ name, name ∈ live ↔ ∃ ws, Leave changes name ws) ∧
      (after changes).size = live.length := by
  have live (name : String) :
      (∃ ws, (after changes).find? name = some ws) ↔ ∃ ws, Leave changes name ws :=
    exists_congr fun ws => findAfter
  have parts : (fun name ws => (after changes).find? name = some ws) = Leave changes := by
    funext name ws
    exact propext findAfter
  refine ⟨fun names ws => ?_, fun names e => ?_, fun name text => ?_, fun name => ?_, ?_⟩
  · rw [readOk, parts]
  · have absent (name : String) :
        (after changes).find? name = none ↔ ¬ ∃ ws, Leave changes name ws := by
      rw [← live, ← Option.isSome_iff_exists, Option.not_isSome_iff_eq_none]
    simp only [readError, live, absent]
  · cases document : Document.ofText text with
    | error fault => exact .inl ⟨fault, rfl, changeRejected document⟩
    | ok ws =>
      have held : ((after changes).insert name ws).find? name = some ws :=
        Fields.findPutSelf name ws _
      have read := readHeld (.cons held .nil)
      rw [List.flatten_cons, List.flatten_nil, List.append_nil] at read
      exact .inr ⟨ws, _, rfl, changeLoaded document, read⟩
  · rw [← live, contains, Option.isSome_iff_exists]
  · refine ⟨(after changes).entries.map Prod.fst, Fields.ascendingNodup (orderedAfter changes),
      fun name => ?_, ?_⟩
    · rw [← findListed, live]
    · exact (List.length_map _).symm

example : (after [.insert "kept" [], .load "kept" "[\x7b]", .insert "gone" [],
    .remove "gone"]).size = 1 := by decide +kernel

end RuleBroker.MemoryStore
