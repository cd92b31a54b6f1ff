import RuleBroker.Proofs.Documents
import RuleBroker.Proofs.Layouts
import RuleBroker.Proofs.ReadBack
/-! Results read from any spelling of them. What is absent or null, and an empty list of
sub-results, comes to the same tree as what is written for it; that tree is read back as it
is, so that reading and writing change nothing any more. -/
namespace RuleBroker

namespace Fields

variable {α : Type} {fields held : List (String × α)} {name : String} {value : α}
  {entry : String × α}

theorem memPut (inside : entry ∈ put name value fields) :
    entry = (name, value) ∨ entry ∈ fields := by
  induction fields with
  | nil => exact .inl (List.mem_singleton.mp inside)
  | cons f rest ih =>
    obtain ⟨other, old⟩ := f
    simp only [put] at inside
    split at inside
    · exact List.mem_cons.mp inside
    · split at inside
      · obtain same | later := List.mem_cons.mp inside
        · exact .inl same
        · exact .inr (List.mem_cons_of_mem _ later)
      · obtain rfl | later := List.mem_cons.mp inside
        · exact .inr List.mem_cons_self
        · exact (ih later).imp_right (List.mem_cons_of_mem _)

theorem memFoldlPut
    (inside : entry ∈ fields.foldl (fun held (name, value) => put name value held) held) :
    entry ∈ held ∨ entry ∈ fields := by
  induction fields generalizing held with
  | nil => exact .inl inside
  | cons f rest ih =>
    obtain earlier | later := ih inside
    · obtain same | earlier := memPut earlier
      · exact .inr (same ▸ List.mem_cons_self)
      · exact .inl earlier
    · exact .inr (List.mem_cons_of_mem _ later)

theorem memOfList (inside : entry ∈ ofList fields) : entry ∈ fields :=
  (memFoldlPut inside).resolve_left List.not_mem_nil

end Fields

namespace Value

structure Inherited (P : Value → Prop) : Prop where
  item {vs : List Value} {v : Value} : P (.list vs) → v ∈ vs → P v
  field {fields : List (String × Value)} {name : String} {v : Value} :
    P (.object fields) → (name, v) ∈ fields → P v

/-- A value that JSON can hold: its integers have 64 bits, with or without a sign, and its
floats are finite. -/
inductive Json : Value → Prop where
  | null : Json .null
  | bool (b : Bool) : Json (.bool b)
  | int {n : Int} (least : -9223372036854775808 ≤ n) (greatest : n ≤ 18446744073709551615) :
      Json (.int n)
  | float {x : Binary64} (finite : x.isFinite = true) : Json (.float x)
  | text (s : String) : Json (.text s)
  | list {vs : List Value} (items : ∀ v ∈ vs, Json v) : Json (.list vs)
  | object {fields : List (String × Value)} (values : ∀ f ∈ fields, Json f.2) :
      Json (.object fields)

variable {P : Value → Prop} {v u : Value} {labels : List String} {name : String}
  {entries : List (String × Value)}

theorem jsonInt {n : Int} :
    (Value.int n).Json ↔ -9223372036854775808 ≤ n ∧ n ≤ 18446744073709551615 :=
  ⟨fun | .int least greatest => ⟨least, greatest⟩, fun ⟨least, greatest⟩ => .int least greatest⟩

theorem jsonList {vs : List Value} : (Value.list vs).Json ↔ ∀ v ∈ vs, v.Json :=
  ⟨fun | .list items => items, .list⟩

theorem jsonObject {fields : List (String × Value)} :
    (Value.object fields).Json ↔ ∀ f ∈ fields, f.2.Json :=
  ⟨fun | .object values => values, .object⟩

theorem inheritedJson : Inherited Json where
  item json inside := jsonList.mp json _ inside
  field json inside := jsonObject.mp json _ inside

theorem canonicalItemsSelf {vs : List Value} (same : canonicalItems vs = vs) (inside : v ∈ vs) :
    canonical v = v := by
  induction vs with
  | nil => cases inside
  | cons first rest ih =>
    obtain ⟨head, tail⟩ := List.cons.inj same
    obtain rfl | later := List.mem_cons.mp inside
    · exact head
    · exact ih tail later

theorem inheritedCanonical : Inherited fun v => canonical v = v where
  item same inside := by
    simp only [canonical, list.injEq] at same
    exact canonicalItemsSelf same inside
  field same inside := by
    simp only [canonical, object.injEq] at same
    have kept := Fields.memOfList (same.symm ▸ inside)
    rw [canonicalFieldsMap] at kept
    obtain ⟨⟨_, u⟩, _, last⟩ := List.mem_map.mp kept
    cases last
    exact canonicalIdempotent u

theorem Inherited.entry (inherited : Inherited P) (own : P v)
    (given : v.entries? labels = some entries) (inside : (name, u) ∈ entries) : P u := by
  cases v with
  | object fields =>
    cases given
    exact inherited.field own (List.mem_of_mem_filter inside)
  | list values =>
    simp only [entries?] at given
    split at given <;> cases given
    exact inherited.item own (List.of_mem_zip inside).2
  | null | bool _ | int _ | float _ | text _ => cases given

end Value

namespace Result
open Reading (Kept)

def Draft.Holds (d : Draft) : Slot → Option Value → Prop
  | .recordId => Kept Reading.text d.recordId
  | .recordDescription => Kept Reading.text d.recordDescription
  | .ruleName => Kept Reading.text d.ruleName
  | .workflow => Kept Reading.text d.workflow
  | .success => Kept Reading.boolean d.success
  | .successEvent => Kept (Reading.optional Reading.text) d.successEvent
  | .lastError => Kept (Reading.optional Reading.text) d.lastError
  | .output => Kept (Reading.optional .ok) d.output
  | .milliseconds => Kept Reading.float d.milliseconds
  | .subResults => Kept readChildren d.subResults

variable {r : Result} {d d' : Draft} {v : Value} {slot : Slot} {P : Value → Prop}

theorem putTaken (ok : d.put v (fun _ => readChildren v) slot = .ok d') :
    d.Holds slot none ∧ d'.Holds slot (some v) ∧
    ∀ other given, other ≠ slot → (d'.Holds other given ↔ d.Holds other given) := by
  cases slot
  all_goals
    obtain ⟨free, after, held, rfl⟩ := Reading.placedOk.mp ok
    refine ⟨free, held, fun other given differs => ?_⟩
    cases other <;> first | rfl | exact absurd rfl differs

theorem putTakes (free : d.Holds slot none) (held : d'.Holds slot (some v)) :
    ∃ next, d.put v (fun _ => readChildren v) slot = .ok next := by
  cases slot
  all_goals exact ⟨_, Reading.placedOk.mpr ⟨free, _, held, rfl⟩⟩

def layout : Reading.Layout Draft Slot where
  slots := Slot.all
  label := Slot.label
  blank := {}
  put d v slot := d.put v (fun _ => readChildren v) slot
  Holds := Draft.Holds
  every slot := by cases slot <;> decide
  apart {slot other} same := by
    have found := Slot.ofLabelLabel slot
    rw [same, Slot.ofLabelLabel] at found
    exact (Option.some.inj found).symm
  blankHolds slot := by cases slot <;> rfl
  free {_ slot _} held free := by cases slot <;> exact Reading.keptFree held free
  taken := putTaken
  takes := putTakes

theorem readFieldsFill (d : Draft) (fields : List (String × Value)) :
    readFields d fields = layout.fill d fields := by
  refine Reading.Layout.fillOnly (fun _ => rfl) (fun d label v rest absent => ?_)
    (fun d slot v rest => ?_) d fields
  · have unknown : Slot.ofLabel? label = none := absent
    rw [readFields, unknown]
  · have found : Slot.ofLabel? (layout.label slot) = some slot := Slot.ofLabelLabel slot
    rw [readFields, found]
    rfl

theorem readPlacesFill (d : Draft) (values : List Value) :
    readPlaces Slot.all d values = layout.fill d (layout.labels.zip values) :=
  Reading.Layout.placesOnly (fun slots _ => by cases slots <;> rfl) (fun _ _ _ => rfl)
    (fun _ _ _ _ _ => rfl) Slot.all d values

theorem readFilled (found : read v = .ok r) : ∃ entries d,
    v.entries? layout.labels = some entries ∧ layout.Filled d entries ∧ d.finish = .ok r := by
  have filled {entries : List (String × Value)} {d : Draft}
      (given : v.entries? layout.labels = some entries)
      (ok : layout.fill layout.blank entries = .ok d) (done : d.finish = .ok r) : ∃ entries d,
      v.entries? layout.labels = some entries ∧ layout.Filled d entries ∧ d.finish = .ok r :=
    ⟨entries, d, given, Reading.Layout.fillFilled given ok, done⟩
  cases v with
  | object fields =>
    rw [read, readFieldsFill, ← layout.fillKnown] at found
    obtain ⟨d, ok, done⟩ := Stages.bindOk.mp found
    exact filled rfl ok done
  | list values =>
    rw [read, readPlacesFill] at found
    obtain ⟨d, ok, done⟩ := Stages.bindOk.mp found
    split at done
    · cases done
    · split at done
      · cases done
      · next fit =>
        exact filled (if_pos (Nat.le_of_not_lt fit)) ok done
  | null | bool _ | int _ | float _ | text _ => cases found

structure CameFrom (P : Value → Prop) (n : Result) : Prop where
  time : ∃ u, P u ∧ Reading.float u = .ok n.milliseconds
  output : ∀ o, n.output = some o → P o ∧ o ≠ .null
  normal : n.subResults ≠ .nested []

theorem finishParts (done : d.finish = .ok r) :
    d.milliseconds = some r.milliseconds ∧ d.output.getD none = r.output ∧
    d.subResults.getD .leaf = r.subResults := by
  simp only [Draft.finish, Stages.bindOk] at done
  obtain ⟨_, _, _, _, _, _, _, _, _, _, time, held, last⟩ := done
  cases last
  refine ⟨?_, rfl, rfl⟩
  cases given : d.milliseconds <;> simp_all [Reading.required]

theorem childrenNormal {u : Value} {c : Children Result} (found : readChildren u = .ok c) :
    c ≠ .nested [] := by
  cases u with
  | null =>
    cases found
    exact nofun
  | list values =>
    obtain ⟨rs, _, last⟩ := Stages.bindOk.mp found
    cases last
    cases rs <;> exact nofun
  | bool _ | int _ | float _ | text _ | object _ => cases found

theorem outputNotNull {u o : Value} (found : Reading.optional .ok u = .ok (some o)) :
    o = u ∧ o ≠ .null := by
  cases u <;> simp_all [Reading.optional, Functor.map, Except.map, eq_comm]

theorem nodeCameFrom (inherited : Value.Inherited P) (own : P v) (found : read v = .ok r) :
    CameFrom P r ∧ (r.subResults = .leaf ∨ ∃ u, P u ∧ readChildren u = .ok r.subResults) := by
  obtain ⟨entries, d, given, filled, done⟩ := readFilled found
  obtain ⟨time, output, below⟩ := finishParts done
  have inside {slot : Slot} {u : Value} (there : entries.lookup slot.label = some u) : P u :=
    inherited.entry own given ((lookupMember filled.once).mp there)
  have timed : Kept Reading.float d.milliseconds (entries.lookup Slot.milliseconds.label) :=
    filled.holds .milliseconds
  have answered : Kept (Reading.optional .ok) d.output (entries.lookup Slot.output.label) :=
    filled.holds .output
  have nested : Kept readChildren d.subResults (entries.lookup Slot.subResults.label) :=
    filled.holds .subResults
  have children : r.subResults = .leaf ∨ ∃ u, P u ∧ readChildren u = .ok r.subResults := by
    obtain ⟨_, leaf⟩ | ⟨u, there, ok⟩ := (Reading.keptGiven (fun _ _ => Iff.rfl) nested).mp below
    · exact .inl leaf
    · exact .inr ⟨u, inside there, ok⟩
  refine ⟨⟨?_, fun o given => ?_, ?_⟩, children⟩
  · obtain ⟨u, there, ok⟩ := (Reading.keptRequired (fun _ _ => Iff.rfl) timed).mp time
    exact ⟨u, inside there, ok⟩
  · obtain ⟨_, absent⟩ | ⟨u, there, ok⟩ := (Reading.keptGiven (fun _ _ => Iff.rfl) answered).mp output
    · cases given.symm.trans absent
    · obtain ⟨rfl, notNull⟩ := outputNotNull (given ▸ ok)
      exact ⟨inside there, notNull⟩
  · obtain leaf | ⟨u, _, found⟩ := children
    · exact leaf ▸ nofun
    · exact childrenNormal found

mutual

theorem treeCameFrom (inherited : Value.Inherited P) : ∀ (r : Result) (v : Value), P v →
    read v = .ok r → ∀ n ∈ nodes r, CameFrom P n
  | ⟨recordId, recordDescription, ruleName, workflow, success, successEvent, lastError, output,
      milliseconds, subResults⟩, v, own, found => by
    obtain ⟨here, below⟩ := nodeCameFrom inherited own found
    intro n member
    obtain rfl | inside := List.mem_cons.mp member
    · exact here
    · obtain leaf | ⟨u, own, found⟩ := below
      · cases leaf
        cases inside
      · exact childrenCameFrom inherited subResults u own found n inside

theorem childrenCameFrom (inherited : Value.Inherited P) : ∀ (c : Children Result) (u : Value),
    P u → readChildren u = .ok c → ∀ n ∈ nodesBelow c, CameFrom P n
  | .leaf, _, _, _ => nofun
  | .nested items, u, own, found => by
    cases u with
    | list vs =>
      obtain ⟨rs, all, last⟩ := Stages.bindOk.mp found
      have same : rs = items := by
        rw [← Children.toListOfList rs, Except.ok.inj last]
        rfl
      exact treesCameFrom inherited items vs (fun v => inherited.item own) (same ▸ all)
    | null | bool _ | int _ | float _ | text _ | object _ => cases found

theorem treesCameFrom (inherited : Value.Inherited P) : ∀ (rs : List Result) (vs : List Value),
    (∀ v ∈ vs, P v) → readAll vs = .ok rs → ∀ n ∈ nodesAll rs, CameFrom P n
  | [], _, _, _ => nofun
  | r :: rest, [], _, found => nomatch found
  | r :: rest, v :: vs, own, found => by
    obtain ⟨first, one, found⟩ := Stages.bindOk.mp found
    obtain ⟨later, more, last⟩ := Stages.bindOk.mp found
    cases last
    intro n member
    obtain inside | inside := List.mem_append.mp member
    · exact treeCameFrom inherited r v (own v List.mem_cons_self) one n inside
    · exact treesCameFrom inherited rest vs (fun v inside => own v (List.mem_cons_of_mem _ inside))
        more n inside

end

def ordered (r : Result) : Result := withOutputs (Option.map Value.canonical) r

theorem floatFinite {u : Value} {x : Binary64} (json : u.Json) (found : Reading.float u = .ok x) :
    x.isFinite = true := by
  cases json with
  | float finite =>
    cases found
    exact finite
  | @int n least greatest =>
    cases found
    have size : twoTo 64 = 18446744073709551616 := by decide
    have bound : n.natAbs < twoTo 64 := by omega
    have within : (Binary64.ofInt n).Within 1085 :=
      Binary64.withinOfWhole bound (by decide) (by decide)
    exact within.finite
  | null | bool _ | text _ | list _ | object _ => cases found

theorem writableFromJson {n : Result} (came : CameFrom Value.Json n) : Writable n := by
  obtain ⟨u, json, found⟩ := came.time
  exact ⟨floatFinite json found, came.normal⟩

theorem canonicalNotNull (notNull : v ≠ .null) : v.canonical ≠ .null := by
  cases v <;> simp_all [Value.canonical]

mutual

theorem canonicalOrdered : ∀ r : Result, r.ordered.toValue.canonical = r.toValue.canonical
  | ⟨recordId, recordDescription, ruleName, workflow, success, successEvent, lastError, output,
      milliseconds, subResults⟩ => by
    have answer : ((output.map Value.canonical).getD .null).canonical =
        (output.getD .null).canonical := by
      cases output with
      | none => rfl
      | some v => exact v.canonicalIdempotent
    simp only [ordered, withOutputs, toValue, Value.canonical, Value.canonicalFields, answer,
      canonicalOrderedBelow subResults]

theorem canonicalOrderedBelow : ∀ c : Children Result,
    (childrenValue (withOutputsBelow (Option.map Value.canonical) c)).canonical =
      (childrenValue c).canonical
  | .leaf => rfl
  | .nested items => by
    simp only [withOutputsBelow, childrenValue, Value.canonical, canonicalOrderedAll items]

theorem canonicalOrderedAll : ∀ rs : List Result,
    Value.canonicalItems (toValues (withOutputsAll (Option.map Value.canonical) rs)) =
      Value.canonicalItems (toValues rs)
  | [] => rfl
  | r :: rest => by
    have first : (withOutputs (Option.map Value.canonical) r).toValue.canonical =
        r.toValue.canonical := canonicalOrdered r
    simp only [withOutputsAll, toValues, Value.canonicalItems, first, canonicalOrderedAll rest]

end

/-- A tree read from any value that JSON has is normal at once: no node of it has an empty list
of sub-results, and it is read back as it is from what is written for it, in the order of the
fields or in ascending order, so that writing it again gives the same value. -/
theorem readingNormalisesOnce (v : Value) (r : Result) (json : v.Json) (found : read v = .ok r) :
    (∀ n ∈ nodes r, n.subResults ≠ .nested []) ∧ read r.toValue = .ok r ∧
    (v.canonical = v → r.ordered = r) ∧
    read r.toValue.canonical = .ok r.ordered ∧
    r.ordered.toValue.canonical = r.toValue.canonical := by
  have came := treeCameFrom Value.inheritedJson r v json found
  obtain ⟨back, sorted⟩ := readTree r fun n member => writableFromJson (came n member)
  have settled : r.settled = r := settledSelf.mpr fun m member null =>
    ((came m member).output _ null).2 rfl
  have same : withOutputs canonicalUnlessNull r = r.ordered := by
    refine (withOutputsAgree r).mpr fun m member => unlessNullSelf.mpr ?_
    intro null
    obtain ⟨o, given, canonical⟩ := Option.map_eq_some_iff.mp null
    exact canonicalNotNull ((came m member).output o given).2 canonical
  refine ⟨fun n member => (came n member).normal, ?_, fun canonical => ?_, same ▸ sorted,
    canonicalOrdered r⟩
  · exact back.trans (congrArg Except.ok settled)
  · have came := treeCameFrom Value.inheritedCanonical r v canonical found
    have agree : r.ordered = withOutputs id r := by
      refine (withOutputsAgree r).mpr fun m member => ?_
      cases given : m.output with
      | none => rfl
      | some o => exact congrArg some ((came m member).output o given).1
    rw [agree, withOutputsId]

def bandValue : Value :=
  .list [.text "rec", .text "one", .text "band", .text "simple", .bool false, .null,
    .text "too low", .null, .int 12, .list [.object [("SubResults", .list []),
      ("Note", .null), ("RuleName", .text "red"), ("RulesScript", .text "simple"),
      ("RecordId", .text "rec"), ("RecordDescription", .text "one"), ("Success", .bool true),
      ("RuleOutput", .object [("width", .int 2), ("mark", .null)]),
      ("ApproxExecutionMilliseconds", .int 3)]]]

theorem bandValueNormalised : bandValue.Json ∧ ∃ r, read bandValue = .ok r ∧
    (∀ n ∈ nodes r, n.subResults ≠ .nested []) ∧ read r.toValue = .ok r ∧
    r.ordered.toValue.canonical = r.toValue.canonical := by
  have json : bandValue.Json := by
    simp [bandValue, Value.jsonList, Value.jsonObject, Value.jsonInt,
      Value.Json.null, Value.Json.bool, Value.Json.text]
  obtain ⟨r, found⟩ : ∃ r, read bandValue = .ok r := ⟨_, rfl⟩
  obtain ⟨normal, back, _, _, same⟩ := readingNormalisesOnce bandValue r json found
  exact ⟨json, r, found, normal, back, same⟩

end Result
end RuleBroker
