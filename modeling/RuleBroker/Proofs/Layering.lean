import Mathlib.Data.List.Nodup
import Mathlib.Data.List.TakeWhile
import RuleBroker.Proofs.Lookup
import RuleBroker.Settings
/-! Settings by their places in tables, and what a layer put over others does to each of
them. A layer whose tables stand where tables belong changes the settings that it gives and
no other, so that of several layers the last to give a setting stands. -/
namespace RuleBroker

inductive Setting where
  | serviceName
  | environment
  | rootDirectory
  | defaultExtension
  | workflows
  | progressMilliseconds
  | logServiceName
  | logLevel
  | jsonLogs
  deriving DecidableEq, Repr

inductive Content where
  | text (s : String)
  | texts (ss : List String)
  | count (n : Nat)
  | truth (b : Bool)
  deriving DecidableEq, Repr

namespace Setting
open Settings (asText asTexts asCount asTruth)

def tables : List String := ["repository", "broker", "observability"]

def table : Setting → Option String
  | serviceName | environment => none
  | rootDirectory | defaultExtension => some "repository"
  | workflows | progressMilliseconds => some "broker"
  | logServiceName | logLevel | jsonLogs => some "observability"

def label : Setting → String
  | serviceName | logServiceName => "service_name"
  | environment => "environment"
  | rootDirectory => "root_dir"
  | defaultExtension => "default_extension"
  | workflows => "workflows"
  | progressMilliseconds => "progress_interval_ms"
  | logLevel => "log_level"
  | jsonLogs => "json_logs"

def path (k : Setting) : List String := k.table.toList ++ [k.label]

def steps (k : Setting) : List Settings.Step := k.path.map .named

def key (k : Setting) : String := ".".intercalate k.path

def read : Setting → Value → Option Content
  | workflows, v => (asTexts v).map .texts
  | progressMilliseconds, v => (asCount v).map .count
  | jsonLogs, v => (asTruth v).map .truth
  | _, v => (asText v).map .text

def of (s : Settings) : Setting → Content
  | serviceName => .text s.serviceName
  | environment => .text s.environment
  | rootDirectory => .text s.repository.rootDirectory
  | defaultExtension => .text s.repository.defaultExtension
  | workflows => .texts s.broker.workflows
  | progressMilliseconds => .count s.broker.progressMilliseconds
  | logServiceName => .text s.log.serviceName
  | logLevel => .text s.log.level
  | jsonLogs => .truth s.log.json

def standard (service environment : String) (k : Setting) : Content :=
  of { serviceName := service, environment, log := { serviceName := service } } k

end Setting

namespace Settings
open Fields (find put Ordered findPutSelf findPutOther orderedPut)

def Apart : List String → List String → Prop
  | m :: p, n :: q => m ≠ n ∨ Apart p q
  | _, _ => False

theorem apartSettings {k l : Setting} (differ : k ≠ l) : Apart k.path l.path := by
  cases k <;> cases l <;>
    first
    | exact absurd rfl differ
    | simp [Apart, Setting.path, Setting.table, Setting.label]

theorem notApartPrefix {p q r : List String} (split : p = q ++ r) : ¬ Apart p q := by
  subst split
  induction q with
  | nil => cases r <;> exact id
  | cons n q ih =>
    rintro (differ | apart)
    · exact differ rfl
    · exact ih apart

def reached : List String → Value → Option Value
  | [], v => some v
  | name :: rest, v => (find name v.heldFields).bind (reached rest)

def IsTable (v : Value) : Prop := ∃ fields, v = .object fields

theorem heldObject (fields : List (String × Value)) :
    (Value.object fields).heldFields = fields := rfl

theorem overlayPlain {w : Value} (plain : ¬ IsTable w) (below : Value) : below.overlay w = w := by
  cases w with
  | object fields => exact absurd ⟨fields, rfl⟩ plain
  | null | bool | int | float | text | list => rfl

theorem assignSame {w : Value} (plain : ¬ IsTable w) (p : List String) (v : Value) :
    reached p (assign w (p.map .named) v) = some w := by
  induction p generalizing v with
  | nil => simp only [List.map_nil, assign, overlayPlain plain, reached]
  | cons n p ih =>
    simp only [List.map_cons, assign, reached, heldObject, findPutSelf, Option.bind_some]
    exact ih _

theorem assignApart {p q : List String} (apart : Apart p q) (w : Value) (rest : List Step)
    (v : Value) : reached p (assign w (q.map .named ++ rest) v) = reached p v := by
  induction p generalizing q v with
  | nil => cases q <;> exact absurd apart id
  | cons m p ih =>
    cases q with
    | nil => exact absurd apart id
    | cons n q =>
      simp only [List.map_cons, List.cons_append, assign, reached, heldObject]
      by_cases same : m = n
      · subst same
        have below := apart.resolve_left (fun differ => differ rfl)
        rw [findPutSelf, Option.bind_some, ih below]
        cases find m v.heldFields with
        | some u => rfl
        | none =>
          cases p with
          | nil => cases q <;> exact absurd below id
          | cons => rfl
      · rw [findPutOther same]

theorem findOverlay {name : String} {fields : List (String × Value)}
    (plain : ∀ w, find name fields.reverse = some w → ¬ IsTable w)
    (held : List (String × Value)) :
    find name (Value.overlayFields held fields) =
      (find name fields.reverse).or (find name held) := by
  induction fields generalizing held with
  | nil => rfl
  | cons f rest ih =>
    obtain ⟨other, w⟩ := f
    have split : find name ((other, w) :: rest).reverse =
        (find name rest.reverse).or (find name [(other, w)]) := by
      rw [List.reverse_cons]
      exact List.lookup_append ..
    have restPlain : ∀ u, find name rest.reverse = some u → ¬ IsTable u := by
      intro u found
      exact plain u (by rw [split, found]; rfl)
    rw [Value.overlayFields, ih restPlain, split]
    cases later : find name rest.reverse with
    | some u => rfl
    | none =>
      by_cases same : name = other
      · subst same
        have alone : find name [(name, w)] = some w := by simp [find]
        have here : ¬ IsTable w := plain w (by rw [split, later, alone]; rfl)
        simp only [Option.none_or, findPutSelf, overlayPlain here, alone, Option.some_or]
      · have absent : find name [(other, w)] = none := by
          simp [find, List.lookup_cons, beq_eq_false_iff_ne.mpr same]
        simp only [Option.none_or, findPutOther same, absent]

theorem orderedOverlay {held : List (String × Value)} (fields : List (String × Value))
    (ordered : Ordered held) : Ordered (Value.overlayFields held fields) := by
  induction fields generalizing held with
  | nil => exact ordered
  | cons f rest ih => exact ih (orderedPut ordered)

theorem nodupOrdered {fields : List (String × Value)} (ordered : Ordered fields) :
    (fields.map Prod.fst).Nodup := Fields.ascendingNodup ordered

theorem findReverse {fields : List (String × Value)} (ordered : Ordered fields) (name : String) :
    find name fields.reverse = find name fields := by
  have distinct := nodupOrdered ordered
  have distinct' : (fields.reverse.map Prod.fst).Nodup := by
    rw [List.map_reverse]
    exact List.nodup_reverse.mpr distinct
  refine Option.ext fun w => ?_
  rw [find, find, lookupMember distinct', lookupMember distinct, List.mem_reverse]

/-- A layer's entry keeps to its place: it is a setting, a table of settings, or nothing that
is a setting. What a setting may be is left open. -/
inductive Shaped (good : Setting → Value → Prop) : List Step → Value → Prop where
  | setting {k w} (fits : good k w) : Shaped good k.steps w
  | table {t fields} (known : t ∈ Setting.tables)
      (fits : ∀ k : Setting, k.table = some t →
        ∀ w, find k.label fields.reverse = some w → good k w) :
      Shaped good [.named t] (.object fields)
  | foreign {names rest w} (apart : ∀ k : Setting, Apart k.path names) :
      Shaped good (names.map .named ++ rest) w

def given (k : Setting) (steps : List Step) (w : Value) : Option Value :=
  if steps = k.steps then some w
  else match k.table with
    | some t => if steps = [.named t] then find k.label w.heldFields.reverse else none
    | none => none

def Layer.Fits (good : Setting → Value → Prop) (layer : Layer) : Prop :=
  ∀ entry ∈ layer.entries, Shaped good (Key.steps entry.1) entry.2

def Layer.value? (k : Setting) (layer : Layer) : Option Value :=
  layer.entries.reverse.findSome? fun (key, w) => given k (Key.steps key) w

def latest (k : Setting) (layers : List Layer) : Option Value :=
  layers.reverse.findSome? (Layer.value? k)

structure Holds (values : Setting → Option Value) (v : Value) : Prop where
  root : ∃ fields, v = .object fields ∧ Ordered fields ∧
    ∀ n ∈ fields.map Prod.fst, Key.steps n = [.named n]
  below : ∀ t ∈ Setting.tables, ∀ u, reached [t] v = some u →
    ∃ fields, u = .object fields ∧ Ordered fields
  values : ∀ k : Setting, reached k.path v = values k

theorem stepsNamed (key : String) :
    ∃ n rest, Key.steps key = .named n :: rest ∧ Key.steps n = [.named n] := by
  cases more : (if (key.toList.takeWhile Key.isWord).isEmpty then none
      else Key.readSteps (key.toList.length + 1) (key.toList.dropWhile Key.isWord)) with
  | none =>
    have whole : Key.steps key = [.named key] := by simp only [Key.steps, more]
    exact ⟨key, [], whole, whole⟩
  | some rest =>
    have first : Key.steps key = .named (String.ofList (key.toList.takeWhile Key.isWord)) :: rest := by
      simp only [Key.steps, more]
    have nonempty : (key.toList.takeWhile Key.isWord).isEmpty = false := by
      by_contra empty
      rw [Bool.not_eq_false] at empty
      simp [empty] at more
    have words : ∀ c ∈ key.toList.takeWhile Key.isWord, Key.isWord c = true :=
      fun c inside => List.mem_takeWhile_imp inside
    refine ⟨_, rest, first, ?_⟩
    simp only [Key.steps, String.toList_ofList, List.takeWhile_idem,
      List.dropWhile_eq_nil_iff.mpr words, nonempty, Key.readSteps]
    rfl

def OrderedTable (v : Value) : Prop := ∃ fields, v = .object fields ∧ Ordered fields

theorem orderedHeld {t : String} {v u : Value}
    (below : ∀ u, reached [t] v = some u → OrderedTable u)
    (under : u = (find t v.heldFields).getD .null) : Ordered u.heldFields := by
  subst under
  cases found : find t v.heldFields with
  | none => exact List.Pairwise.nil
  | some u =>
    obtain ⟨fields, rfl, ordered⟩ := below u (by rw [reached, found]; rfl)
    exact ordered

section Entry
variable {good : Setting → Value → Prop} {values : Setting → Option Value} {steps : List Step}
  {w v : Value} {k : Setting}

theorem givenApart {names : List String} {rest : List Step} (apart : Apart k.path names) :
    given k (names.map .named ++ rest) w = none := by
  have other : names.map Step.named ++ rest ≠ k.steps := by
    intro same
    obtain ⟨front, back, split, left, _⟩ := List.map_eq_append_iff.mp same.symm
    have injective : Function.Injective Step.named := fun _ _ same => Step.named.inj same
    rw [List.map_injective_iff.mpr injective left] at split
    exact notApartPrefix split apart
  rw [given, if_neg other]
  cases inside : k.table with
  | none => rfl
  | some t =>
    refine if_neg fun same => ?_
    cases names with
    | nil => cases hk : k.path <;> rw [hk] at apart <;> exact apart
    | cons n names =>
      rw [List.map_cons, List.cons_append, List.cons.injEq, List.append_eq_nil_iff] at same
      obtain ⟨head, tail, _⟩ := same
      have path : k.path = [n] ++ [k.label] := by
        rw [Setting.path, inside, Step.named.inj head]
        rfl
      rw [List.map_eq_nil_iff.mp tail] at apart
      exact notApartPrefix path apart

theorem givenAlong {names : List String} (apart : Apart k.path names) :
    given k (names.map .named) w = none := by
  have ungiven : given k (names.map .named ++ []) w = none := givenApart apart
  rwa [List.append_nil] at ungiven

theorem assignAlong {p q : List String} (apart : Apart p q) (w v : Value) :
    reached p (assign w (q.map .named) v) = reached p v := by
  have kept := assignApart apart w [] v
  rwa [List.append_nil] at kept

theorem apartTable {t : String} (known : t ∈ Setting.tables) (other : k.table ≠ some t) :
    Apart k.path [t] := by
  simp only [Setting.tables, List.mem_cons, List.not_mem_nil, or_false] at known
  rcases known with rfl | rfl | rfl <;> cases k <;>
    simp_all [Apart, Setting.path, Setting.table, Setting.label]

theorem valuesAssign (plain : ∀ k w, good k w → ¬ IsTable w) (shaped : Shaped good steps w)
    (k : Setting) :
    reached k.path (assign w steps v) = (given k steps w).or (reached k.path v) := by
  cases shaped with
  | @setting l _ fits =>
    by_cases same : k = l
    · subst same
      rw [given, if_pos rfl, Option.some_or]
      exact assignSame (plain _ _ fits) k.path v
    · have apart := apartSettings same
      rw [Setting.steps, givenAlong apart, Option.none_or, assignAlong apart]
  | foreign apart => rw [givenApart (apart k), Option.none_or, assignApart (apart k)]
  | @table t fields known fits =>
    by_cases inside : k.table = some t
    · have path : k.path = [t, k.label] := by rw [Setting.path, inside]; rfl
      have other : [Step.named t] ≠ k.steps := by simp [Setting.steps, path]
      have under : given k [.named t] (.object fields) = find k.label fields.reverse := by
        simp only [given, if_neg other, inside, if_true, heldObject]
      have plainly : ∀ w, find k.label fields.reverse = some w → ¬ IsTable w :=
        fun w found => plain k w (fits k inside w found)
      have laid := findOverlay plainly ((find t v.heldFields).getD .null).heldFields
      rw [under, path]
      simp only [assign, reached, heldObject, findPutSelf, Option.bind_some, Value.overlay, laid,
        Option.bind_fun_some]
      cases find t v.heldFields <;> rfl
    · have apart := apartTable known inside
      rw [← List.map_singleton, givenAlong apart, Option.none_or, assignAlong apart]

theorem Shaped.inTable {t : String} {rest : List Step} (shaped : Shaped good (.named t :: rest) w)
    (known : t ∈ Setting.tables) :
    (∃ m rest', rest = .named m :: rest') ∨ (rest = [] ∧ IsTable w) := by
  generalize steps' : Step.named t :: rest = steps at shaped
  cases shaped with
  | @setting k _ fits =>
    refine .inl ⟨k.label, [], ?_⟩
    cases inside : k.table with
    | none =>
      have apart := apartTable (k := k) known (by simp [inside])
      have path : k.path = [k.label] := by rw [Setting.path, inside]; rfl
      rw [Setting.steps, path, List.map_singleton, List.cons.injEq] at steps'
      rw [path, Step.named.inj steps'.1] at apart
      exact absurd apart (notApartPrefix (r := []) rfl)
    | some u =>
      have path : k.path = [u, k.label] := by rw [Setting.path, inside]; rfl
      rw [Setting.steps, path] at steps'
      exact (List.cons.inj steps').2
  | table =>
    cases steps'
    exact .inr ⟨rfl, _, rfl⟩
  | @foreign names rest' _ apart =>
    have within : ∃ k : Setting, k.table = some t := by
      simp only [Setting.tables, List.mem_cons, List.not_mem_nil, or_false] at known
      rcases known with rfl | rfl | rfl
      · exact ⟨.rootDirectory, rfl⟩
      · exact ⟨.workflows, rfl⟩
      · exact ⟨.logLevel, rfl⟩
    obtain ⟨k, inside⟩ := within
    have path : k.path = [t, k.label] := by rw [Setting.path, inside]; rfl
    have apart := apart k
    rw [path] at apart
    match names, apart, steps' with
    | n :: m :: names, _, steps' =>
      rw [List.map_cons, List.map_cons, List.cons_append, List.cons_append] at steps'
      exact .inl ⟨m, _, (List.cons.inj steps').2⟩
    | [n], apart, steps' =>
      rw [List.map_singleton, List.singleton_append] at steps'
      rw [← Step.named.inj (List.cons.inj steps').1] at apart
      exact absurd apart (notApartPrefix (r := [k.label]) rfl)

theorem orderedAssign {rest : List Step} (inner : (∃ m rest', rest = .named m :: rest') ∨
      (rest = [] ∧ IsTable w)) (ordered : Ordered v.heldFields) : OrderedTable (assign w rest v) := by
  rcases inner with ⟨m, rest', rfl⟩ | ⟨rfl, fields, rfl⟩
  · exact ⟨_, rfl, orderedPut ordered⟩
  · exact ⟨_, rfl, orderedOverlay fields ordered⟩

theorem holdsAssign (plain : ∀ k w, good k w → ¬ IsTable w) (shaped : Shaped good steps w)
    (named : ∃ n rest, steps = .named n :: rest ∧ Key.steps n = [.named n])
    (holds : Holds values v) :
    Holds (fun k => (given k steps w).or (values k)) (assign w steps v) := by
  obtain ⟨n, rest, rfl, whole⟩ := named
  obtain ⟨fields, rfl, ordered, names⟩ := holds.root
  refine ⟨⟨_, rfl, orderedPut ordered, fun m inside => ?_⟩, fun t known u found => ?_,
    fun k => ?_⟩
  · rcases Fields.memNamesPut.mp inside with rfl | inside
    · exact whole
    · exact names m inside
  · by_cases same : t = n
    · subst same
      simp only [assign, reached, heldObject, findPutSelf, Option.bind_some,
        Option.some.injEq] at found
      rw [← found]
      exact orderedAssign (shaped.inTable known) (orderedHeld (holds.below t known) rfl)
    · simp only [assign, reached, heldObject, findPutOther same] at found
      exact holds.below t known u found
  · rw [valuesAssign plain shaped k, holds.values k]

end Entry
end Settings
end RuleBroker
