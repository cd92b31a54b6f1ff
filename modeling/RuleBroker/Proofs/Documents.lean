import RuleBroker.Value.Canonical
import RuleBroker.Store.Memory
import RuleBroker.RuleError
/-! Workflows written as documents and read back. What a rule leaves out stands for its
default, at every depth, and the shape of what is written tells one workflow from a list.
Fields are read in the order in which they are written, and in ascending order, in which an
object keeps them. -/
namespace RuleBroker

namespace Fields

variable {α : Type} {fields others : List (String × α)}

theorem putPerm {name : String} (value : α) (fresh : name ∉ fields.map Prod.fst) :
    (put name value fields).Perm ((name, value) :: fields) := by
  induction fields with
  | nil => exact .refl _
  | cons f rest ih =>
    obtain ⟨other, held⟩ := f
    obtain ⟨differs, fresh⟩ : name ≠ other ∧ name ∉ rest.map Prod.fst :=
      not_or.mp (mt List.mem_cons.mpr fresh)
    simp only [put, differs, if_false]
    split
    · exact .refl _
    · exact ((ih fresh).cons _).trans (.swap _ _ _)

theorem foldlPutPerm (held : List (String × α))
    (distinct : ((held ++ fields).map Prod.fst).Nodup) :
    (fields.foldl (fun held (name, value) => put name value held) held).Perm (held ++ fields) := by
  induction fields generalizing held with
  | nil => simp
  | cons f rest ih =>
    obtain ⟨name, value⟩ := f
    have moved : (held ++ (name, value) :: rest).Perm ((name, value) :: (held ++ rest)) :=
      List.perm_middle
    have fresh : name ∉ held.map Prod.fst := by
      have apart := (List.nodup_cons.mp ((moved.map Prod.fst).nodup_iff.mp distinct)).1
      rw [List.map_append] at apart
      exact fun inside => apart (List.mem_append_left _ inside)
    have added := ((putPerm value fresh).append_right rest).trans moved.symm
    exact (ih (put name value held) ((added.map _).nodup_iff.mpr distinct)).trans added

theorem ofListSorted (same : fields.Perm others) (ascending : Ordered others) :
    ofList fields = others := by
  have distinct := (same.map Prod.fst).nodup_iff.mpr (ascendingNodup ascending)
  have perm : (ofList fields).Perm others := (foldlPutPerm [] distinct).trans same
  exact ascendingUnique Prod.fst perm (orderedOfList fields) ascending

end Fields

theorem Value.canonicalFieldsMap (fields : List (String × Value)) :
    canonicalFields fields = fields.map fun (name, v) => (name, canonical v) := by
  induction fields with
  | nil => rfl
  | cons f rest ih => rw [canonicalFields, ih, List.map_cons]

theorem Properties.isEmptyOnly {p : Properties} (absent : p.isEmpty = true) : p = .empty := by
  obtain ⟨fields, _⟩ := p
  cases List.isEmpty_iff.mp absent
  rfl

namespace Rule

def entry (r : Rule) (below : Value) : Slot → Option Value
  | .name => some (.text r.name)
  | .expression => if r.expression.isEmpty then none else some (.text r.expression)
  | .successEvent => r.successEvent.map .text
  | .errorMessage => r.errorMessage.map .text
  | .operator => r.operator.map .text
  | .enabled => some (.bool r.enabled)
  | .expressionType => r.expressionType.map .text
  | .properties => if r.properties.isEmpty then none else some (.object r.properties.fields)
  | .rules => if r.rules.isEmpty then none else some below

def written (r : Rule) (below : Value) (slots : List Slot) : List (String × Value) :=
  slots.flatMap fun slot => ((r.entry below slot).map (slot.label, ·)).toList

variable {r : Rule} {below : Value} {slots : List Slot} {d : Draft} {slot other : Slot}

theorem writtenOptional (label : String) (text : Option String) :
    optionalText label text = ((text.map Value.text).map (label, ·)).toList := by
  cases text <;> rfl

theorem writtenUnless (label : String) (absent : Bool) (v : Value) :
    (if absent then [] else [(label, v)]) =
      ((if absent then none else some v).map (label, ·)).toList := by
  cases absent <;> rfl

theorem toValueWritten (r : Rule) :
    r.toValue = .object (r.written (.list (toValues r.rules)) Slot.all) := by
  cases r
  simp only [toValue, writtenOptional, writtenUnless]
  simp [written, Slot.all, entry, Slot.label]

theorem namesWritten :
    ((r.written below slots).map Prod.fst).Sublist (slots.map Slot.label) := by
  induction slots with
  | nil => exact .slnil
  | cons slot rest ih =>
    rw [written, List.flatMap_cons, List.map_append, List.map_cons]
    cases r.entry below slot with
    | none => exact ih.cons _
    | some v => exact ih.cons_cons _

theorem canonicalEntry :
    (r.entry below slot).map Value.canonical = r.entry below.canonical slot := by
  have text (t : Option String) : (t.map Value.text).map Value.canonical = t.map Value.text := by
    cases t <;> rfl
  cases slot with
  | name | enabled => rfl
  | successEvent | errorMessage | operator | expressionType => exact text _
  | expression | rules => simp only [entry]; split <;> rfl
  | properties =>
    simp only [entry]
    split
    · rfl
    · rw [Option.map_some, Value.canonical, r.properties.canonical]

theorem canonicalWritten : Value.canonicalFields (r.written below slots) =
    r.written below.canonical slots := by
  rw [Value.canonicalFieldsMap, written, List.map_flatMap, written]
  refine congrArg (List.flatMap · slots) (funext fun slot => ?_)
  rw [← canonicalEntry]
  cases r.entry below slot <;> rfl

namespace Slot

def ascending : List Slot :=
  [enabled, errorMessage, expression, operator, properties, expressionType, name, rules,
    successEvent]

theorem allPermAscending : all.Perm ascending := by decide

theorem labelsAscending : (ascending.map label).Pairwise (· < ·) := by decide

end Slot

theorem canonicalToValue (r : Rule) : r.toValue.canonical =
    .object (r.written (Value.list (toValues r.rules)).canonical Slot.ascending) := by
  calc r.toValue.canonical
      = .object (Fields.ofList (Value.canonicalFields
          (r.written (.list (toValues r.rules)) Slot.all))) := by rw [toValueWritten]; rfl
    _ = .object (Fields.ofList
          (r.written (Value.list (toValues r.rules)).canonical Slot.all)) := by
        rw [canonicalWritten]
    _ = .object (r.written (Value.list (toValues r.rules)).canonical Slot.ascending) :=
        congrArg Value.object (Fields.ofListSorted (Slot.allPermAscending.flatMap_right _)
          (Slot.labelsAscending.sublist namesWritten))

def Draft.Lacks (d : Draft) : Slot → Prop
  | .name => d.name = none
  | .expression => d.expression = none
  | .successEvent => d.successEvent = none
  | .errorMessage => d.errorMessage = none
  | .operator => d.operator = none
  | .enabled => d.enabled = none
  | .expressionType => d.expressionType = none
  | .properties => d.properties = none
  | .rules => d.rules = none

def Draft.fill (r : Rule) (d : Draft) : Slot → Draft
  | .name => { d with name := some r.name }
  | .expression =>
    { d with expression := if r.expression.isEmpty then none else some r.expression }
  | .successEvent => { d with successEvent := r.successEvent.map some }
  | .errorMessage => { d with errorMessage := r.errorMessage.map some }
  | .operator => { d with operator := r.operator.map some }
  | .enabled => { d with enabled := some r.enabled }
  | .expressionType => { d with expressionType := r.expressionType.map some }
  | .properties =>
    { d with properties := if r.properties.isEmpty then none else some r.properties }
  | .rules => { d with rules := if r.rules.isEmpty then none else some r.rules }

theorem lacksFill (differs : slot ≠ other) (lacks : d.Lacks other) :
    (d.fill r slot).Lacks other := by
  cases slot <;> cases other <;> first | exact lacks | exact absurd rfl differs

theorem fillAbsent (absent : r.entry below slot = none) (lacks : d.Lacks slot) :
    d.fill r slot = d := by
  cases d
  cases slot <;> simp_all [entry, Draft.fill, Draft.Lacks]

theorem putWritten {v : Value} (found : readList below = .ok r.rules)
    (given : r.entry below slot = some v) (lacks : d.Lacks slot) :
    d.put v (fun _ => readList v) slot = .ok (d.fill r slot) := by
  cases d
  cases slot with
  | name | enabled =>
    cases given
    cases lacks
    rfl
  | successEvent | errorMessage | operator | expressionType =>
    obtain ⟨text, held, rfl⟩ := Option.map_eq_some_iff.mp given
    cases lacks
    simp only [Draft.fill, held]
    rfl
  | expression =>
    simp only [entry] at given
    split at given <;> cases given
    next present =>
      cases lacks
      simp only [Draft.fill, if_neg present]
      rfl
  | properties =>
    simp only [entry] at given
    split at given <;> cases given
    next present =>
      have read : readProperties (.object r.properties.fields) = .ok r.properties :=
        congrArg Except.ok r.properties.ofFieldsFields
      cases lacks
      simp only [Draft.fill, if_neg present, Draft.put, Reading.place, read]
      rfl
  | rules =>
    simp only [entry] at given
    split at given <;> cases given
    next present =>
      cases lacks
      simp only [Draft.fill, if_neg present, Draft.put, found]
      rfl

theorem readFieldsWritten (found : readList below = .ok r.rules) (distinct : slots.Nodup)
    (lacks : ∀ slot ∈ slots, d.Lacks slot) :
    readFields d (r.written below slots) = .ok (slots.foldl (Draft.fill r) d) := by
  induction slots generalizing d with
  | nil => rfl
  | cons slot rest ih =>
    obtain ⟨once, distinct⟩ := List.nodup_cons.mp distinct
    obtain ⟨here, later⟩ := List.forall_mem_cons.mp lacks
    have next := ih (d := d.fill r slot) distinct fun other inside =>
      lacksFill (fun same => once (same ▸ inside)) (later other inside)
    rw [List.foldl_cons, ← next, written, List.flatMap_cons]
    cases given : r.entry below slot with
    | none =>
      rw [fillAbsent given here]
      rfl
    | some v =>
      have filled := putWritten found given here
      show readFields d ((slot.label, v) :: r.written below rest) = _
      rw [readFields, Slot.ofLabelLabel]
      simp only [filled]
      rfl

theorem finishFilled : (Slot.all.foldl (Draft.fill r) {}).finish = .ok r := by
  have given {α : Type} (a : Option α) : (a.map some).getD none = a := by
    cases a <;> rfl
  have expression : (if r.expression.isEmpty then none else some r.expression).getD "" =
      r.expression := by
    split
    · next absent => exact (String.isEmpty_iff.mp absent).symm
    · rfl
  have properties : (if r.properties.isEmpty then none else some r.properties).getD .empty =
      r.properties := by
    split
    · next absent => exact (Properties.isEmptyOnly absent).symm
    · rfl
  have rules : (if r.rules.isEmpty then none else some r.rules).getD [] = r.rules := by
    split
    · next absent => exact (List.isEmpty_iff.mp absent).symm
    · rfl
  simp only [Slot.all, List.foldl, Draft.fill, Draft.finish, given, expression, properties, rules]
  cases r
  rfl

theorem lacksEmpty (slot : Slot) : Draft.Lacks {} slot := by
  cases slot <;> rfl

theorem readWritten (found : readList below = .ok r.rules) :
    read (.object (r.written below Slot.all)) = .ok r ∧
    read (.object (r.written below Slot.ascending)) = .ok r := by
  have distinct : Slot.all.Nodup := by decide
  have same : Slot.ascending.foldl (Draft.fill r) {} = Slot.all.foldl (Draft.fill r) {} := rfl
  have inOrder := readFieldsWritten found distinct fun slot _ => lacksEmpty slot
  have ascending := readFieldsWritten found (Slot.allPermAscending.nodup_iff.mp distinct)
    fun slot _ => lacksEmpty slot
  rw [same] at ascending
  constructor
  · rw [read, inOrder]
    exact finishFilled
  · rw [read, ascending]
    exact finishFilled

mutual

theorem readTree : ∀ r : Rule,
    read r.toValue = .ok r ∧ read r.toValue.canonical = .ok r
  | ⟨name, expression, successEvent, errorMessage, operator, enabled, expressionType, properties,
      rules⟩ => by
    obtain ⟨below, belowCanonical⟩ := readTrees rules
    rw [canonicalToValue, toValueWritten]
    exact ⟨(readWritten below).1, (readWritten belowCanonical).2⟩

theorem readTrees : ∀ rs : List Rule,
    readList (.list (toValues rs)) = .ok rs ∧
    readList (Value.list (toValues rs)).canonical = .ok rs
  | [] => ⟨rfl, rfl⟩
  | r :: rest => by
    obtain ⟨first, firstCanonical⟩ := readTree r
    obtain ⟨later, laterCanonical⟩ := readTrees rest
    constructor
    · simp only [readList] at later
      simp only [readList, toValues, readAll, first, later]
      rfl
    · simp only [Value.canonical, readList] at laterCanonical
      simp only [Value.canonical, readList, toValues, Value.canonicalItems, readAll, firstCanonical,
        laterCanonical]
      rfl

end

end Rule

namespace Workflow

theorem readObject {w : Workflow} {below : Value} (found : Rule.readList below = .ok w.rules) :
    read (.object [("WorkflowName", .text w.name), ("Rules", below)]) = .ok w ∧
    read (.object [("Rules", below), ("WorkflowName", .text w.name)]) = .ok w := by
  have rules : Reading.place "Rules" none Rule.readList below = .ok (some w.rules) := by
    rw [Reading.place, found]
    rfl
  have name : Reading.place "WorkflowName" none Reading.text (.text w.name) =
      .ok (some w.name) := rfl
  constructor <;>
  · simp only [read, readFields, String.reduceEq, if_true, if_false, bind, Except.bind, rules, name]
    rfl

theorem readWorkflow (w : Workflow) :
    read w.toValue = .ok w ∧ read w.toValue.canonical = .ok w := by
  obtain ⟨rules, rulesCanonical⟩ := Rule.readTrees w.rules
  have ascending : ["Rules", "WorkflowName"].Pairwise (· < ·) := by decide
  have sorted : w.toValue.canonical = .object [
      ("Rules", (Value.list (Rule.toValues w.rules)).canonical),
      ("WorkflowName", .text w.name)] :=
    congrArg Value.object (Fields.ofListSorted (.swap _ _ _) ascending)
  rw [sorted]
  exact ⟨(readObject rules).1, (readObject rulesCanonical).2⟩

theorem readAllWorkflows (ws : List Workflow) :
    readAll (.list (ws.map toValue)) = .ok ws ∧
    readAll (Value.list (ws.map toValue)).canonical = .ok ws := by
  simp only [readAll, Reading.sequence, Value.canonical]
  induction ws with
  | nil => exact ⟨rfl, rfl⟩
  | cons w rest ih =>
    obtain ⟨first, firstCanonical⟩ := readWorkflow w
    simp only [List.map_cons, Value.canonicalItems, Reading.items, first, firstCanonical, ih.1,
      ih.2]
    exact ⟨rfl, rfl⟩

end Workflow

namespace Document
open Workflow

/-- Whatever a workflow holds, what is written for it reads as a document of it alone, and
what is written for a list of workflows as that list. -/
theorem documentsReadBack (w : Workflow) (ws : List Workflow) :
    (read w.toValue = some [w] ∧ read w.toValue.canonical = some [w]) ∧
    (read (.list (ws.map toValue)) = some ws ∧
      read (Value.list (ws.map toValue)).canonical = some ws) := by
  obtain ⟨one, oneCanonical⟩ := readWorkflow w
  obtain ⟨many, manyCanonical⟩ := readAllWorkflows ws
  have single {fields : List (String × Value)} (alone : Workflow.read (.object fields) = .ok w) :
      read (.object fields) = some [w] := by
    rw [read, readOne, alone]
    rfl
  have several {v : Value} (all : Workflow.readAll v = .ok ws) : read v = some ws := by
    rw [read, readMany, all]
    rfl
  exact ⟨⟨single one, single oneCanonical⟩, several many, several manyCanonical⟩

end Document
end RuleBroker
