import RuleBroker.Proofs.Layouts
import RuleBroker.Workflow.Written
/-! Rules and workflows read from values. A value states a rule when the fields given there
mean it, at every depth, and reading is exact: what is read is what is stated. -/
namespace RuleBroker

namespace Rule
open Reading (Kept Given Listed)

def Slot.labels : List String := Slot.all.map Slot.label

def MeansProperties (v : Value) (p : Properties) : Prop :=
  ∃ fields, v = .object fields ∧ p = .ofFields fields

def Slot.Means (r : Rule) (vs : List Value) : Slot → Option Value → Prop
  | .name, given => given = some (.text r.name)
  | .expression, given => Given (fun v s => v = .text s) "" given r.expression
  | .successEvent, given => Given Reading.MeansOptional none given r.successEvent
  | .errorMessage, given => Given Reading.MeansOptional none given r.errorMessage
  | .operator, given => Given Reading.MeansOptional none given r.operator
  | .enabled, given => Given (fun v b => v = .bool b) true given r.enabled
  | .expressionType, given => Given Reading.MeansOptional none given r.expressionType
  | .properties, given => Given MeansProperties .empty given r.properties
  | .rules, given => Listed given vs

/-- A value states a rule: every field known to rules stands there once at most and says what
the rule has, and so on for the rules below, each from its own value and in their order. -/
inductive States : Value → Rule → Prop where
  | intro {v : Value} {r : Rule} {entries : List (String × Value)} {vs : List Value}
      (given : v.entries? Slot.labels = some entries)
      (once : (entries.map Prod.fst).Nodup)
      (meant : ∀ slot : Slot, slot.Means r vs (entries.lookup slot.label))
      (below : List.Forall₂ States vs r.rules) :
      States v r

variable {r : Rule} {rs : List Rule} {d d' : Draft} {v : Value} {vs values : List Value}
  {entries : List (String × Value)} {slot : Slot}

theorem propertiesOk (v : Value) (p : Properties) :
    readProperties v = .ok p ↔ MeansProperties v p := by
  unfold MeansProperties
  cases v <;> simp [readProperties, Reading.wrongType, eq_comm]

theorem listOk : readList v = .ok rs ↔ ∃ vs, v = .list vs ∧ readAll vs = .ok rs := by
  cases v <;> simp [readList, Reading.wrongType]

theorem listGiven {given : Option Value} : Given (fun v rs => readList v = .ok rs) [] given rs ↔
    ∃ vs, Listed given vs ∧ readAll vs = .ok rs := by
  simp only [Listed, Given, listOk]
  cases given with
  | none => simp [readAll, eq_comm]
  | some v => simp

def Draft.Holds (d : Draft) : Slot → Option Value → Prop
  | .name => Kept Reading.text d.name
  | .expression => Kept Reading.text d.expression
  | .successEvent => Kept (Reading.optional Reading.text) d.successEvent
  | .errorMessage => Kept (Reading.optional Reading.text) d.errorMessage
  | .operator => Kept (Reading.optional Reading.text) d.operator
  | .enabled => Kept Reading.boolean d.enabled
  | .expressionType => Kept (Reading.optional Reading.text) d.expressionType
  | .properties => Kept readProperties d.properties
  | .rules => Kept readList d.rules

theorem putTaken (ok : d.put v (fun _ => readList v) slot = .ok d') :
    d.Holds slot none ∧ d'.Holds slot (some v) ∧
    ∀ other given, other ≠ slot → (d'.Holds other given ↔ d.Holds other given) := by
  cases slot
  all_goals
    obtain ⟨free, after, held, rfl⟩ := Reading.placedOk.mp ok
    refine ⟨free, held, fun other given differs => ?_⟩
    cases other <;> first | rfl | exact absurd rfl differs

theorem putTakes (free : d.Holds slot none) (held : d'.Holds slot (some v)) :
    ∃ next, d.put v (fun _ => readList v) slot = .ok next := by
  cases slot
  all_goals exact ⟨_, Reading.placedOk.mpr ⟨free, _, held, rfl⟩⟩

def layout : Reading.Layout Draft Slot where
  slots := Slot.all
  label := Slot.label
  blank := {}
  put d v slot := d.put v (fun _ => readList v) slot
  Holds := Draft.Holds
  every slot := by cases slot <;> decide
  apart {slot other} same := by
    have found := Slot.ofLabelLabel slot
    rw [same, Slot.ofLabelLabel] at found
    exact (Option.some.inj found).symm
  blankHolds slot := by cases slot <;> rfl
  free {_ slot _} held free := by cases slot <;> exact Reading.keptFree held free
  taken := putTaken
  takes := putTakes

theorem readFieldsFill (d : Draft) (fields : List (String × Value)) :
    readFields d fields = layout.fill d fields := by
  refine Reading.Layout.fillOnly (fun _ => rfl) (fun d label v rest absent => ?_)
    (fun d slot v rest => ?_) d fields
  · have unknown : Slot.ofLabel? label = none := absent
    rw [readFields, unknown]
  · have found : Slot.ofLabel? (layout.label slot) = some slot := Slot.ofLabelLabel slot
    rw [readFields, found]
    rfl

theorem readPlacesFill (d : Draft) (values : List Value) :
    readPlaces Slot.all d values = layout.fill d (layout.labels.zip values) :=
  Reading.Layout.placesOnly (fun slots _ => by cases slots <;> rfl) (fun _ _ _ => rfl)
    (fun _ _ _ _ _ => rfl) Slot.all d values

theorem finishOk : d.finish = .ok r ↔
    d.name = some r.name ∧ d.expression.getD "" = r.expression ∧
    d.successEvent.getD none = r.successEvent ∧ d.errorMessage.getD none = r.errorMessage ∧
    d.operator.getD none = r.operator ∧ d.enabled.getD true = r.enabled ∧
    d.expressionType.getD none = r.expressionType ∧ d.properties.getD .empty = r.properties ∧
    d.rules.getD [] = r.rules := by
  cases r
  unfold Draft.finish
  cases d.name with
  | none => simp [Reading.required, bind, Except.bind]
  | some name => simp [Reading.required, bind, Except.bind]

theorem finishMeant (filled : layout.Filled d entries) : d.finish = .ok r ↔
    ∃ vs, (∀ slot : Slot, slot.Means r vs (entries.lookup slot.label)) ∧
      readAll vs = .ok r.rules := by
  have holds (slot : Slot) : d.Holds slot (entries.lookup slot.label) := filled.holds slot
  rw [finishOk,
    Reading.keptText (holds .name),
    Reading.keptGiven Reading.textOk (holds .expression),
    Reading.keptGiven Reading.optionalOk (holds .successEvent),
    Reading.keptGiven Reading.optionalOk (holds .errorMessage),
    Reading.keptGiven Reading.optionalOk (holds .operator),
    Reading.keptGiven Reading.booleanOk (holds .enabled),
    Reading.keptGiven Reading.optionalOk (holds .expressionType),
    Reading.keptGiven propertiesOk (holds .properties),
    Reading.keptGiven (fun _ _ => Iff.rfl) (holds .rules), listGiven]
  constructor
  · intro ⟨name, expression, successEvent, errorMessage, operator, enabled, expressionType,
      properties, vs, listed, below⟩
    refine ⟨vs, fun slot => ?_, below⟩
    cases slot <;> assumption
  · intro ⟨vs, meant, below⟩
    exact ⟨meant .name, meant .expression, meant .successEvent, meant .errorMessage,
      meant .operator, meant .enabled, meant .expressionType, meant .properties, vs,
      meant .rules, below⟩

theorem meansHolds (meant : slot.Means r vs (some v)) (below : readAll vs = .ok r.rules) :
    ∃ d : Draft, d.Holds slot (some v) := by
  cases slot with
  | name =>
    cases meant
    exact ⟨{ name := some r.name }, r.name, rfl, rfl⟩
  | expression =>
    exact ⟨{ expression := some r.expression }, Reading.givenKept Reading.textOk meant⟩
  | successEvent =>
    exact ⟨{ successEvent := some r.successEvent }, Reading.givenKept Reading.optionalOk meant⟩
  | errorMessage =>
    exact ⟨{ errorMessage := some r.errorMessage }, Reading.givenKept Reading.optionalOk meant⟩
  | operator =>
    exact ⟨{ operator := some r.operator }, Reading.givenKept Reading.optionalOk meant⟩
  | enabled =>
    exact ⟨{ enabled := some r.enabled }, Reading.givenKept Reading.booleanOk meant⟩
  | expressionType =>
    exact ⟨{ expressionType := some r.expressionType }, Reading.givenKept Reading.optionalOk meant⟩
  | properties =>
    exact ⟨{ properties := some r.properties }, Reading.givenKept propertiesOk meant⟩
  | rules =>
    exact ⟨{ rules := some r.rules },
      Reading.givenKept (fun _ _ => Iff.rfl) (listGiven.mpr ⟨vs, meant, below⟩)⟩

/- Of the tests on the length of a list, that for an empty one only makes another complaint:
there is no name in it. -/
theorem readShort : read (.list values) = .ok r ↔ values.length ≤ layout.labels.length ∧
    (layout.fill layout.blank (layout.labels.zip values) >>= Draft.finish) = .ok r := by
  cases values with
  | nil =>
    simp [read, Reading.Layout.fill, layout, Draft.finish, Reading.required, bind, Except.bind]
  | cons v rest =>
    rw [read, readPlacesFill, List.isEmpty_cons, if_neg Bool.false_ne_true, Stages.bindOk,
      Stages.bindOk]
    by_cases long : Slot.all.length < (v :: rest).length
    · have unfit : ¬(v :: rest).length ≤ layout.labels.length := Nat.not_le_of_lt long
      simp only [if_pos long, unfit, reduceCtorEq, and_false, false_and, exists_false]
    · have fit : (v :: rest).length ≤ layout.labels.length := Nat.le_of_not_lt long
      simp only [if_neg long, fit, true_and]
      rfl

theorem readEntries : read v = .ok r ↔ ∃ entries, v.entries? layout.labels = some entries ∧
    (layout.fill layout.blank entries >>= Draft.finish) = .ok r := by
  cases v with
  | object fields =>
    simp only [Value.entries?, Option.some.injEq, exists_eq_left']
    rw [read, readFieldsFill, ← layout.fillKnown]
    rfl
  | list values =>
    rw [readShort]
    simp [Value.entries?]
  | null | bool _ | int _ | float _ | text _ =>
    simp [read, Reading.wrongType, Value.entries?]

theorem readOk : read v = .ok r ↔ ∃ entries, v.entries? Slot.labels = some entries ∧
    (entries.map Prod.fst).Nodup ∧ ∃ vs,
      (∀ slot : Slot, slot.Means r vs (entries.lookup slot.label)) ∧ readAll vs = .ok r.rules := by
  rw [readEntries]
  refine exists_congr fun entries => and_congr_right fun given => ?_
  refine Reading.Layout.fillFinish given (fun d => finishMeant) ?_
  intro ⟨vs, meant, below⟩ slot v found
  exact meansHolds (found ▸ meant slot) below

theorem readAllCons : readAll (v :: vs) = .ok rs ↔
    ∃ r rest, read v = .ok r ∧ readAll vs = .ok rest ∧ rs = r :: rest := by
  simp only [readAll, Stages.bindOk, Except.ok.injEq]
  constructor
  · intro read
    obtain ⟨r, first, rest, later, last⟩ := read
    exact ⟨r, rest, first, later, last.symm⟩
  · intro parts
    obtain ⟨r, rest, first, later, last⟩ := parts
    exact ⟨r, first, rest, later, last.symm⟩

mutual

theorem readStates : ∀ (r : Rule) (v : Value), read v = .ok r ↔ States v r
  | ⟨name, expression, successEvent, errorMessage, operator, enabled, expressionType, properties,
      rules⟩, v => by
    rw [readOk]
    constructor
    · intro ⟨entries, given, once, vs, meant, below⟩
      exact .intro given once meant ((readAllStates rules vs).mp below)
    · intro ⟨given, once, meant, below⟩
      exact ⟨_, given, once, _, meant, (readAllStates rules _).mpr below⟩

theorem readAllStates : ∀ (rs : List Rule) (vs : List Value),
    readAll vs = .ok rs ↔ List.Forall₂ States vs rs
  | [], [] => by simp [readAll]
  | [], v :: vs => by simp [readAllCons]
  | r :: rest, [] => by simp [readAll]
  | r :: rest, v :: vs => by
    simp [readAllCons, readStates r v, readAllStates rest vs]

end

end Rule

namespace Workflow
open Reading (Kept Listed)

inductive Slot where
  | name
  | rules

def Slot.label : Slot → String
  | .name => "WorkflowName"
  | .rules => "Rules"

def Slot.labels : List String := [label name, label rules]

inductive States : Value → Workflow → Prop where
  | intro {v : Value} {w : Workflow} {entries : List (String × Value)} {vs : List Value}
      (given : v.entries? Slot.labels = some entries)
      (once : (entries.map Prod.fst).Nodup)
      (name : entries.lookup "WorkflowName" = some (.text w.name))
      (rules : Listed (entries.lookup "Rules") vs)
      (below : List.Forall₂ Rule.States vs w.rules) :
      States v w

variable {w : Workflow} {d d' : Draft} {v : Value} {values : List Value}
  {entries : List (String × Value)} {slot : Slot}

def Draft.put (d : Draft) (v : Value) : Slot → Except Mismatch Draft
  | .name => do
    let name ← Reading.place "WorkflowName" d.name Reading.text v
    .ok { d with name }
  | .rules => do
    let rules ← Reading.place "Rules" d.rules Rule.readList v
    .ok { d with rules }

def Draft.Holds (d : Draft) : Slot → Option Value → Prop
  | .name => Kept Reading.text d.name
  | .rules => Kept Rule.readList d.rules

theorem putTaken (ok : d.put v slot = .ok d') : d.Holds slot none ∧ d'.Holds slot (some v) ∧
    ∀ other given, other ≠ slot → (d'.Holds other given ↔ d.Holds other given) := by
  cases slot
  all_goals
    obtain ⟨free, after, held, rfl⟩ := Reading.placedOk.mp ok
    refine ⟨free, held, fun other given differs => ?_⟩
    cases other <;> first | rfl | exact absurd rfl differs

theorem putTakes (free : d.Holds slot none) (held : d'.Holds slot (some v)) :
    ∃ next, d.put v slot = .ok next := by
  cases slot
  all_goals exact ⟨_, Reading.placedOk.mpr ⟨free, _, held, rfl⟩⟩

def layout : Reading.Layout Draft Slot where
  slots := [.name, .rules]
  label := Slot.label
  blank := {}
  put := Draft.put
  Holds := Draft.Holds
  every slot := by cases slot <;> simp
  apart {slot other} same := by
    cases slot <;> cases other <;> first | rfl | simp [Slot.label] at same
  blankHolds slot := by cases slot <;> rfl
  free {_ slot _} held free := by cases slot <;> exact Reading.keptFree held free
  taken := putTaken
  takes := putTakes

theorem readFieldsFill (d : Draft) (fields : List (String × Value)) :
    readFields d fields = layout.fill d fields := by
  refine Reading.Layout.fillOnly (fun _ => rfl) (fun d label v rest absent => ?_)
    (fun d slot v rest => ?_) d fields
  · have unknown : label ∉ ["WorkflowName", "Rules"] := Reading.Layout.slotNone.mp absent
    obtain ⟨name, rules⟩ : label ≠ "WorkflowName" ∧ label ≠ "Rules" := by simpa using unknown
    rw [readFields, if_neg name, if_neg rules]
  · cases slot with
    | name =>
      show readFields d (("WorkflowName", v) :: rest) = _
      rw [readFields, if_pos rfl]
      simp only [layout, Draft.put, bind_assoc]
      rfl
    | rules =>
      show readFields d (("Rules", v) :: rest) = _
      rw [readFields, if_neg (by decide), if_pos rfl]
      simp only [layout, Draft.put, bind_assoc]
      rfl

theorem finishMeant (filled : layout.Filled d entries) : d.finish = .ok w ↔
    entries.lookup "WorkflowName" = some (.text w.name) ∧
    ∃ vs, Listed (entries.lookup "Rules") vs ∧ Rule.readAll vs = .ok w.rules := by
  have name : Kept Reading.text d.name (entries.lookup "WorkflowName") := filled.holds .name
  have rules : Kept Rule.readList d.rules (entries.lookup "Rules") := filled.holds .rules
  have parts : d.finish = .ok w ↔ d.name = some w.name ∧ d.rules.getD [] = w.rules := by
    cases w
    unfold Draft.finish
    cases d.name with
    | none => simp [Reading.required, bind, Except.bind]
    | some name => simp [Reading.required, bind, Except.bind]
  rw [parts, Reading.keptText name, Reading.keptGiven (fun _ _ => Iff.rfl) rules, Rule.listGiven]

theorem readShort : read (.list values) = .ok w ↔ values.length ≤ layout.labels.length ∧
    (layout.fill layout.blank (layout.labels.zip values) >>= Draft.finish) = .ok w := by
  have labels : layout.labels = ["WorkflowName", "Rules"] := rfl
  have name : layout.slot? "WorkflowName" = some .name := layout.slotLabel .name
  have rules : layout.slot? "Rules" = some .rules := layout.slotLabel .rules
  rcases values with _ | ⟨n, _ | ⟨rs, _ | ⟨third, others⟩⟩⟩
  · simp [read, Reading.Layout.fill, layout, Draft.finish, Reading.required, bind, Except.bind]
  · have fill : layout.fill layout.blank [("WorkflowName", n)] >>= Draft.finish =
        Reading.text n >>= fun name => .ok { name } := by
      simp only [Reading.Layout.fill, name]
      simp only [layout, Draft.put, Reading.place]
      cases Reading.text n <;> rfl
    simp [read, labels, fill]
  · have fill : layout.fill layout.blank [("WorkflowName", n), ("Rules", rs)] >>= Draft.finish =
        Reading.text n >>= fun name => Rule.readList rs >>= fun rules => .ok { name, rules } := by
      simp only [Reading.Layout.fill, name, rules]
      simp only [layout, Draft.put, Reading.place]
      cases Reading.text n <;> cases Rule.readList rs <;> rfl
    simp [read, labels, fill]
  · have long : ¬(n :: rs :: third :: others).length ≤ layout.labels.length := by
      simp [labels]
    simp only [read, long, false_and, iff_false]
    intro found
    obtain ⟨_, _, found⟩ := Stages.bindOk.mp found
    obtain ⟨_, _, found⟩ := Stages.bindOk.mp found
    cases found

theorem readEntries : read v = .ok w ↔ ∃ entries, v.entries? layout.labels = some entries ∧
    (layout.fill layout.blank entries >>= Draft.finish) = .ok w := by
  cases v with
  | object fields =>
    simp only [Value.entries?, Option.some.injEq, exists_eq_left']
    rw [read, readFieldsFill, ← layout.fillKnown]
    rfl
  | list values =>
    rw [readShort]
    simp [Value.entries?]
  | null | bool _ | int _ | float _ | text _ =>
    simp [read, Reading.wrongType, Value.entries?]

theorem readOk : read v = .ok w ↔ ∃ entries, v.entries? Slot.labels = some entries ∧
    (entries.map Prod.fst).Nodup ∧ entries.lookup "WorkflowName" = some (.text w.name) ∧
    ∃ vs, Listed (entries.lookup "Rules") vs ∧ Rule.readAll vs = .ok w.rules := by
  rw [readEntries]
  refine exists_congr fun entries => and_congr_right fun given => ?_
  refine Reading.Layout.fillFinish given (fun d => finishMeant) ?_
  intro ⟨name, vs, rules, below⟩ slot u found
  cases slot with
  | name =>
    cases found.symm.trans name
    exact ⟨{ name := some w.name }, w.name, rfl, rfl⟩
  | rules =>
    replace found : entries.lookup "Rules" = some u := found
    have given := Rule.listGiven.mpr ⟨vs, found ▸ rules, below⟩
    exact ⟨{ rules := some w.rules }, Reading.givenKept (fun _ _ => Iff.rfl) given⟩

theorem readStates (w : Workflow) (v : Value) : read v = .ok w ↔ States v w := by
  rw [readOk]
  constructor
  · intro ⟨entries, given, once, name, vs, rules, below⟩
    exact .intro given once name rules ((Rule.readAllStates _ _).mp below)
  · intro ⟨given, once, name, rules, below⟩
    exact ⟨_, given, once, name, _, rules, (Rule.readAllStates _ _).mpr below⟩

end Workflow
end RuleBroker
