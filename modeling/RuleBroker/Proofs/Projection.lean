import RuleBroker.Proofs.Lookup
import RuleBroker.Proofs.PathLookup
import RuleBroker.RuleError
import RuleBroker.Record
/-! Records projected to views. A projection fails at the first part, in the order in which
parts are written, that has no structured form; else what a path of keys and indices finds in
the view is the projection of the part that they reach in the record. -/
namespace RuleBroker

namespace Fields

variable {α : Type} {name : String} {value : α} {before after held : List (String × α)}

theorem findFoldlOther (others : name ∉ after.map Prod.fst) :
    find name (after.foldl (fun held (name, value) => put name value held) held) =
      find name held := by
  induction after generalizing held with
  | nil => rfl
  | cons f rest ih =>
    obtain ⟨other, value⟩ := f
    obtain ⟨differs, others⟩ := not_or.mp (mt List.mem_cons.mpr others)
    rw [List.foldl_cons, ih others, findPutOther differs]

theorem findLast (last : name ∉ after.map Prod.fst) :
    find name (ofList (before ++ (name, value) :: after)) = some value := by
  rw [ofList, List.foldl_append, List.foldl_cons, findFoldlOther last, findPutSelf]

end Fields

namespace Shape

inductive Part where
  | key (k : Shape)
  | value (s : Shape)

mutual

def parts : Shape → List Part
  | .present s => parts s
  | .wrapped _ s => parts s
  | .sequence items => partsAll items
  | .map entries => partsEntries entries
  | s => [.value s]

def partsAll : List Shape → List Part
  | [] => []
  | s :: rest => parts s ++ partsAll rest

def partsEntries : List (Shape × Shape) → List Part
  | [] => []
  | (k, s) :: rest => .key k :: (parts s ++ partsEntries rest)

end

def StringLike : Shape → Prop
  | .string _ | .integer _ | .wide _ | .boolean _ | .character _ | .variant _ | .decimal _
  | .float64 _ | .float32 _ => True
  | .plain (.text _) | .plain (.int _) | .plain (.bool _) | .plain (.float _) => True
  | _ => False

inductive Unrepresentable : Part → Fault → Prop where
  | wide {n : Int} (outside : n < -9223372036854775808 ∨ 18446744073709551616 ≤ n) :
      Unrepresentable (.value (.wide n)) .wideInteger
  | failing {fault} : Unrepresentable (.value (.failing fault)) (.own fault)
  | failingKey {fault} : Unrepresentable (.key (.failing fault)) (.own fault)
  | floatKey {x : Binary64} (infinite : x.isFinite = false) :
      Unrepresentable (.key (.float64 x)) .floatKey
  | float32Key {bits} (infinite : (Binary64.ofBinary32 bits).isFinite = false) :
      Unrepresentable (.key (.float32 bits)) .floatKey
  | plainFloatKey {x : Binary64} (infinite : x.isFinite = false) :
      Unrepresentable (.key (.plain (.float x))) .floatKey
  | keyKind {k} (other : ¬ StringLike k) (own : ∀ fault, k ≠ .failing fault) :
      Unrepresentable (.key k) .keyKind

def Representable (part : Part) : Prop := ∀ fault, ¬ Unrepresentable part fault

inductive FirstFault (fault : Fault) : List Part → Prop where
  | here {part rest} (unrepresentable : Unrepresentable part fault) :
      FirstFault fault (part :: rest)
  | later {part rest} (representable : Representable part) (first : FirstFault fault rest) :
      FirstFault fault (part :: rest)

/-- A computation that reads these parts fails with the fault of the first that it cannot. -/
def Reports {α : Type} (x : Except Fault α) (ps : List Part) : Prop :=
  ∀ fault, x = .error fault ↔ FirstFault fault ps

section Faults

variable {α β : Type} {x : Except Fault α} {f : α → Except Fault β} {ps qs : List Part}
  {part : Part} {fault : Fault} {k : Shape}

theorem faultOrNone (ps : List Part) :
    (∃ fault, FirstFault fault ps) ∨ ∀ part ∈ ps, Representable part := by
  induction ps with
  | nil => exact .inr (by simp)
  | cons part rest ih =>
    by_cases representable : Representable part
    · rcases ih with ⟨fault, first⟩ | faultless
      · exact .inl ⟨fault, .later representable first⟩
      · exact .inr (List.forall_mem_cons.mpr ⟨representable, faultless⟩)
    · obtain ⟨fault, unrepresentable⟩ := not_forall_not.mp representable
      exact .inl ⟨fault, .here unrepresentable⟩

theorem faultMember (first : FirstFault fault ps) : ∃ part ∈ ps, Unrepresentable part fault := by
  induction first with
  | here unrepresentable => exact ⟨_, List.mem_cons_self, unrepresentable⟩
  | later _ _ ih =>
    obtain ⟨part, member, unrepresentable⟩ := ih
    exact ⟨part, List.mem_cons_of_mem _ member, unrepresentable⟩

theorem firstFaultAppend : FirstFault fault (ps ++ qs) ↔
    FirstFault fault ps ∨ (∀ part ∈ ps, Representable part) ∧ FirstFault fault qs := by
  induction ps with
  | nil =>
    constructor
    · exact fun first => .inr ⟨by simp, first⟩
    · rintro (nothing | ⟨_, first⟩)
      · cases nothing
      · exact first
  | cons part rest ih =>
    constructor
    · rintro (unrepresentable | ⟨representable, first⟩)
      · exact .inl (.here unrepresentable)
      · rcases ih.mp first with first | ⟨faultless, first⟩
        · exact .inl (.later representable first)
        · exact .inr ⟨List.forall_mem_cons.mpr ⟨representable, faultless⟩, first⟩
    · rintro ((unrepresentable | ⟨representable, first⟩) | ⟨faultless, first⟩)
      · exact .here unrepresentable
      · exact .later representable (ih.mpr (.inl first))
      · obtain ⟨representable, faultless⟩ := List.forall_mem_cons.mp faultless
        exact .later representable (ih.mpr (.inr ⟨faultless, first⟩))

theorem reportsOk (reports : Reports x ps) :
    (∃ a, x = .ok a) ↔ ∀ part ∈ ps, Representable part := by
  constructor
  · rintro ⟨a, rfl⟩
    rcases faultOrNone ps with ⟨fault, first⟩ | faultless
    · cases (reports fault).mpr first
    · exact faultless
  · intro faultless
    cases x with
    | ok a => exact ⟨a, rfl⟩
    | error fault =>
      obtain ⟨part, member, unrepresentable⟩ := faultMember ((reports fault).mp rfl)
      exact absurd unrepresentable (faultless part member fault)

theorem reportsNone (a : α) : Reports (.ok a) [] := fun _ => ⟨nofun, nofun⟩

theorem reportsOne (representable : ∀ fault, x = .error fault ↔ Unrepresentable part fault) :
    Reports x [part] := by
  intro fault
  rw [representable]
  constructor
  · exact .here
  · rintro (unrepresentable | ⟨_, ⟨⟩⟩)
    exact unrepresentable

theorem reportsBind (reports : Reports x ps) (next : ∀ a, Reports (f a) qs) :
    Reports (x >>= f) (ps ++ qs) := by
  intro fault
  rw [Stages.bindError, firstFaultAppend, reports fault, ← reportsOk reports]
  refine or_congr_right ⟨?_, ?_⟩
  · rintro ⟨a, ok, failed⟩
    exact ⟨⟨a, ok⟩, (next a fault).mp failed⟩
  · rintro ⟨⟨a, ok⟩, first⟩
    exact ⟨a, ok, (next a fault).mpr first⟩

theorem reportsMap (reports : Reports x ps) (g : α → β) :
    Reports (x >>= fun a => .ok (g a)) ps := by
  have both := reportsBind reports fun a => reportsNone (g a)
  rwa [List.append_nil] at both

theorem finiteTextError {x : Binary64} {text : List Char} :
    finiteText x text = .error fault ↔ x.isFinite = false ∧ fault = .floatKey := by
  unfold finiteText
  split
  · next finite => simp [finite]
  · next infinite => simp [infinite, eq_comm]

theorem keyError : key k = .error fault ↔ Unrepresentable (.key k) fault := by
  constructor
  · intro failed
    cases k with
    | failing => cases failed; exact .failingKey
    | float64 x =>
      obtain ⟨infinite, rfl⟩ := finiteTextError.mp failed
      exact .floatKey infinite
    | float32 bits =>
      obtain ⟨infinite, rfl⟩ := finiteTextError.mp failed
      exact .float32Key infinite
    | plain v =>
      cases v with
      | float x =>
        obtain ⟨infinite, rfl⟩ := finiteTextError.mp failed
        exact .plainFloatKey infinite
      | text | int | bool => cases failed
      | null | list | object => cases failed; exact .keyKind id nofun
    | string | integer | wide | boolean | character | variant | decimal => cases failed
    | bytes | absent | present | unit | sequence | map | wrapped =>
      cases failed; exact .keyKind id nofun
  · intro unrepresentable
    cases unrepresentable with
    | failingKey => rfl
    | floatKey infinite | float32Key infinite | plainFloatKey infinite =>
      exact finiteTextError.mpr ⟨infinite, rfl⟩
    | keyKind other own =>
      unfold key
      split <;> first | rfl | exact absurd trivial other | exact absurd rfl (own _)

theorem wideError {n : Int} :
    project (.wide n) = .error fault ↔ Unrepresentable (.value (.wide n)) fault := by
  have range : (Text.fitsU64 n || Text.fitsI64 n) = true ↔
      ¬ (n < -9223372036854775808 ∨ 18446744073709551616 ≤ n) := by
    have power : (twoTo 64 : Int) = 18446744073709551616 := by decide
    simp only [Text.fitsU64, Text.fitsI64, Bool.or_eq_true, Bool.and_eq_true, decide_eq_true_eq]
    rw [power, Text.leastI64, Text.greatestI64]
    omega
  rw [project]
  split
  · next inside =>
    refine ⟨nofun, ?_⟩
    rintro ⟨outside⟩
    exact absurd outside (range.mp inside)
  · next outside =>
    constructor
    · rintro ⟨⟩
      exact .wide (not_not.mp (mt range.mpr outside))
    · rintro ⟨⟩
      rfl

mutual

theorem reportsParts : ∀ s : Shape, Reports (project s) (parts s)
  | .present s => reportsParts s
  | .wrapped name s => by
    rw [project, parts]
    exact reportsMap (reportsParts s) fun v => Value.object [(name, v)]
  | .sequence items => by
    rw [project, parts]
    exact reportsMap (reportsAll items) Value.list
  | .map entries => by
    rw [project, parts]
    exact reportsMap (reportsEntries entries) fun fields => Value.object (Fields.ofList fields)
  | .wide n => reportsOne fun _ => wideError
  | .failing own => by
    refine reportsOne fun fault => ⟨?_, ?_⟩
    · rintro ⟨⟩
      exact .failing
    · rintro ⟨⟩
      rfl
  | .plain _ | .boolean _ | .integer _ | .float32 _ | .float64 _ | .character _ | .string _
  | .decimal _ | .bytes _ | .absent | .unit | .variant _ => reportsOne fun _ => ⟨nofun, nofun⟩

theorem reportsAll : ∀ items : List Shape, Reports (projectAll items) (partsAll items)
  | [] => reportsNone _
  | s :: rest => by
    rw [projectAll, partsAll]
    exact reportsBind (reportsParts s) fun v => reportsMap (reportsAll rest) (v :: ·)

theorem reportsEntries : ∀ entries : List (Shape × Shape),
    Reports (projectEntries entries) (partsEntries entries)
  | [] => reportsNone _
  | (k, s) :: rest => by
    have spelled : Reports (key k) [.key k] := reportsOne fun _ => keyError
    rw [projectEntries, partsEntries]
    exact reportsBind spelled fun name => reportsBind (reportsParts s) fun v =>
      reportsMap (reportsEntries rest) ((name, v) :: ·)

end

end Faults

inductive Step where
  | key (name : String)
  | index (i : UInt64)

def Step.text : Step → String
  | .key name => name
  | .index i => String.ofList (Text.digits i.toNat)

inductive Enters : Shape → Step → Shape → Prop where
  | entry {before k s after name} (spelled : key k = .ok name)
      (last : ∀ e ∈ after, key e.1 ≠ .ok name) :
      Enters (.map (before ++ (k, s) :: after)) (.key name) s
  | wrapped {name s} : Enters (.wrapped name s) (.key name) s
  | item {items i s} (found : items[i.toNat]? = some s) : Enters (.sequence items) (.index i) s
  | byte {bs i} {b : Nat} (found : bs[i.toNat]? = some b) : Enters (.bytes bs) (.index i) (.integer b)
  | present {s step t} (enters : Enters s step t) : Enters (.present s) step t
  | field {fields name v} (only : ∀ w, (name, w) ∈ fields ↔ w = v) :
      Enters (.plain (.object fields)) (.key name) (.plain v)
  | element {items i v} (found : items[i.toNat]? = some v) :
      Enters (.plain (.list items)) (.index i) (.plain v)

inductive Leads : Shape → List Step → Shape → Prop where
  | here {s} : Leads s [] s
  | on {s step t steps u} (enters : Enters s step t) (leads : Leads t steps u) :
      Leads s (step :: steps) u

section Steps

variable {s t k : Shape} {step : Step} {steps : List Step} {v : Value} {items : List Shape}
  {vs : List Value} {before after : List (Shape × Shape)} {fields : List (String × Value)}

theorem entersIndex {i : UInt64} {w : Value} (found : vs[i.toNat]? = some w) :
    Value.Enters (.list vs) (Step.text (.index i)) w := by
  refine .item (i := i.toNat) ?_ i.toNat_lt found
  rw [Step.text, String.toList_ofList]
  exact .spelled 0 (.inl rfl)

theorem entersName {name : String} {w : Value} (found : Fields.find name fields = some w) :
    Value.Enters (.object fields) name w := by
  rw [← Value.entersOnly, Value.step, String.ofList_toList]
  exact found

theorem projectAllAt (done : projectAll items = .ok vs) {i : Nat} (found : items[i]? = some s) :
    ∃ v, project s = .ok v ∧ vs[i]? = some v := by
  induction items generalizing vs i with
  | nil => cases found
  | cons first rest ih =>
    obtain ⟨v, one, done⟩ := Stages.bindOk.mp done
    obtain ⟨more, others, last⟩ := Stages.bindOk.mp done
    cases last
    cases i with
    | zero => cases found; exact ⟨v, one, rfl⟩
    | succ i => exact ih others found

theorem projectEntriesCons (done : projectEntries ((k, s) :: after) = .ok fields) :
    ∃ name v back, key k = .ok name ∧ project s = .ok v ∧ projectEntries after = .ok back ∧
      fields = (name, v) :: back := by
  obtain ⟨name, spelled, done⟩ := Stages.bindOk.mp done
  obtain ⟨v, one, done⟩ := Stages.bindOk.mp done
  obtain ⟨back, others, last⟩ := Stages.bindOk.mp done
  cases last
  exact ⟨name, v, back, spelled, one, others, rfl⟩

theorem entryNamed (done : projectEntries after = .ok fields) {name : String}
    (inside : name ∈ fields.map Prod.fst) : ∃ e ∈ after, key e.1 = .ok name := by
  induction after generalizing fields with
  | nil => cases done; cases inside
  | cons e rest ih =>
    obtain ⟨own, v, back, spelled, _, others, rfl⟩ := projectEntriesCons done
    rcases List.mem_cons.mp inside with rfl | inside
    · exact ⟨e, List.mem_cons_self, spelled⟩
    · obtain ⟨e, member, spelled⟩ := ih others inside
      exact ⟨e, List.mem_cons_of_mem _ member, spelled⟩

theorem entriesSplit (done : projectEntries (before ++ (k, s) :: after) = .ok fields) :
    ∃ front name v back, key k = .ok name ∧ project s = .ok v ∧
      projectEntries after = .ok back ∧ fields = front ++ (name, v) :: back := by
  induction before generalizing fields with
  | nil => exact ⟨[], projectEntriesCons done⟩
  | cons e before ih =>
    obtain ⟨own, w, more, _, _, others, rfl⟩ := projectEntriesCons done
    obtain ⟨front, name, v, back, spelled, one, rest, rfl⟩ := ih others
    exact ⟨(own, w) :: front, name, v, back, spelled, one, rest, rfl⟩

theorem entersProject (enters : Enters s step t) (done : project s = .ok v) :
    ∃ w, project t = .ok w ∧ Value.Enters v step.text w := by
  induction enters generalizing v with
  | entry spelled last =>
    obtain ⟨fields, gathered, object⟩ := Stages.bindOk.mp done
    cases object
    obtain ⟨front, name, w, back, own, one, rest, rfl⟩ := entriesSplit gathered
    cases spelled.symm.trans own
    refine ⟨w, one, entersName (Fields.findLast fun inside => ?_)⟩
    obtain ⟨e, member, again⟩ := entryNamed rest inside
    exact last e member again
  | @wrapped name s =>
    obtain ⟨w, one, object⟩ := Stages.bindOk.mp done
    cases object
    exact ⟨w, one, entersName (by simp [Fields.find, Step.text])⟩
  | item found =>
    obtain ⟨vs, gathered, list⟩ := Stages.bindOk.mp done
    cases list
    obtain ⟨w, one, there⟩ := projectAllAt gathered found
    exact ⟨w, one, entersIndex there⟩
  | byte found =>
    cases done
    refine ⟨_, rfl, entersIndex ?_⟩
    rw [List.getElem?_map, found, Option.map_some]
  | present _ ih => exact ih done
  | @field fields name v only =>
    cases done
    refine ⟨v, rfl, entersName ?_⟩
    cases found : fields.lookup name with
    | none => exact absurd (List.mem_map_of_mem ((only v).mpr rfl)) (lookupNone.mp found)
    | some w =>
      obtain ⟨before, after, split, _⟩ := List.lookup_eq_some_iff.mp found
      exact found.trans (congrArg some ((only w).mp (by simp [split])))
  | element found => cases done; exact ⟨_, rfl, entersIndex found⟩

theorem leadsProject (leads : Leads s steps t) (done : project s = .ok v) :
    ∃ w, project t = .ok w ∧ Value.Leads v (steps.map Step.text) w := by
  induction leads generalizing v with
  | here => exact ⟨v, done, .here⟩
  | on enters _ ih =>
    obtain ⟨x, one, entered⟩ := entersProject enters done
    obtain ⟨w, last, leads⟩ := ih one
    exact ⟨w, last, .on entered leads⟩

end Steps

end Shape

namespace Record
open Shape

variable {r : Record} {steps : List Step}

theorem viewOk {made : RecordView} : r.view = .ok made ↔ r.shape.project = .ok made.data := by
  rw [view]
  cases r.shape.project with
  | ok data =>
    constructor
    · rintro ⟨⟩
      rfl
    · rintro ⟨⟩
      rfl
  | error fault => exact ⟨nofun, nofun⟩

theorem viewError {e : RuleError} : r.view = .error e ↔
    ∃ fault, FirstFault fault r.shape.parts ∧ e = .serialization r.id fault.message := by
  simp only [← reportsParts r.shape _, view]
  cases r.shape.project with
  | ok data => exact ⟨nofun, nofun⟩
  | error fault => simp [eq_comm]

theorem stepsCut (nonempty : steps ≠ []) (undotted : ∀ name, .key name ∈ steps → '.' ∉ name.toList) :
    Text.Cut (".".intercalate (steps.map Step.text)) (steps.map Step.text) := by
  refine ⟨mt List.map_eq_nil_iff.mp nonempty, fun seg inside => ?_, rfl⟩
  obtain ⟨step, member, rfl⟩ := List.mem_map.mp inside
  cases step with
  | key name => exact undotted name member
  | index i =>
    intro point
    rw [Step.text, String.toList_ofList] at point
    exact absurd (Text.digitsAreDigits point) (by decide)

/-- A record has a view unless a part of it cannot be represented, and then the first such part
is what the error tells. In a view every path of undotted keys and of indices finds the
projection of the part that they reach in the record; without a step that part is the record. -/
theorem pathsFindProjections (r : Record) :
    (∀ e, r.view = .error e ↔
      ∃ fault, FirstFault fault r.shape.parts ∧ e = .serialization r.id fault.message) ∧
    ((∃ e, r.view = .error e) ↔ ∃ part ∈ r.shape.parts, ∃ fault, Unrepresentable part fault) ∧
    ∀ view, r.view = .ok view → ∀ steps t, Leads r.shape steps t →
      ∃ v, t.project = .ok v ∧ (steps = [] → view.data = v) ∧
        (steps ≠ [] → (∀ name, .key name ∈ steps → '.' ∉ name.toList) →
          view.field? (".".intercalate (steps.map Step.text)) = some v) := by
  refine ⟨fun e => viewError, ?_, fun view made steps t leads => ?_⟩
  · constructor
    · rintro ⟨e, failed⟩
      obtain ⟨fault, first, _⟩ := viewError.mp failed
      obtain ⟨part, member, unrepresentable⟩ := faultMember first
      exact ⟨part, member, fault, unrepresentable⟩
    · rintro ⟨part, member, fault, unrepresentable⟩
      rcases faultOrNone r.shape.parts with ⟨own, first⟩ | faultless
      · exact ⟨_, viewError.mpr ⟨own, first, rfl⟩⟩
      · exact absurd unrepresentable (faultless part member fault)
  · obtain ⟨v, projected, found⟩ := leadsProject leads (viewOk.mp made)
    refine ⟨v, projected, ?_, fun nonempty undotted => ?_⟩
    · rintro rfl
      cases found
      rfl
    · rw [RecordView.fieldSegments view (stepsCut nonempty undotted)]
      exact Value.leadsOnly.mpr found

theorem laterEntryFound :
    let kind : Shape := .wrapped "Kind" (.map [(.integer 5, .bytes [7])])
    let r : Record := ⟨"rec", "one", .map [(.string "tags", .unit),
      (.variant "tags", .present (.sequence [.absent, kind]))]⟩
    ∃ made, r.view = .ok made ∧
      Leads r.shape [.key "tags", .index 1, .key "Kind", .key "5", .index 0] (.integer 7) ∧
      made.field? "tags.1.Kind.5.0" = some (.int 7) := by
  intro kind r
  have inside : Enters (.map ([] ++ [(.integer 5, .bytes [7])])) (.key "5") (.bytes [7]) :=
    .entry rfl (by simp)
  have tags : Enters (.map ([(.string "tags", .unit)] ++
      [(.variant "tags", .present (.sequence [.absent, kind]))])) (.key "tags")
      (.present (.sequence [.absent, kind])) := .entry rfl (by simp)
  have leads : Leads r.shape [.key "tags", .index 1, .key "Kind", .key "5", .index 0]
      (.integer 7) :=
    .on tags (.on (.present (.item rfl)) (.on .wrapped (.on inside (.on (.byte rfl) .here))))
  obtain ⟨_, _, found⟩ := pathsFindProjections r
  obtain ⟨v, projected, _, there⟩ := found _ rfl _ _ leads
  cases projected
  refine ⟨_, rfl, leads, ?_⟩
  have path : ".".intercalate (List.map Step.text
      [.key "tags", .index 1, .key "Kind", .key "5", .index 0]) = "tags.1.Kind.5.0" := by
    decide
  rw [← path]
  exact there (by simp) (by simp)

end Record
end RuleBroker
