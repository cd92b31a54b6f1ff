import RuleBroker.Proofs.Layering
/-! The tree that layers of settings make. Each setting is what the last of the layers gives
it, whatever the layers give the others, and the tree reads as its settings one by one. -/
namespace RuleBroker.Settings
open Fields (find Ordered findPutSelf)

variable {good : Setting → Value → Prop} {values : Setting → Option Value} {v m : Value}
  {k : Setting}

theorem givenGood {steps : List Step} {w u : Value} (shaped : Shaped good steps w)
    (found : given k steps w = some u) : good k u := by
  cases shaped with
  | @setting l _ fits =>
    by_cases same : k = l
    · subst same
      rw [given, if_pos rfl] at found
      exact Option.some.inj found ▸ fits
    · rw [Setting.steps, givenAlong (apartSettings same)] at found
      cases found
  | @table t fields known fits =>
    unfold given at found
    split at found
    · next alone =>
      have apart : Apart k.path [t] := by
        refine apartTable known fun inside => ?_
        rw [Setting.steps, Setting.path, inside] at alone
        cases alone
      have path : [t] = k.path := by
        have injective : Function.Injective Step.named := fun _ _ same => Step.named.inj same
        exact List.map_injective_iff.mpr injective alone
      rw [← path] at apart
      exact absurd apart (notApartPrefix (r := []) rfl)
    · split at found
      · next u inside =>
        split at found
        · next same =>
          rw [← Step.named.inj (List.cons.inj same).1] at inside
          exact fits k inside _ found
        · cases found
      · cases found
  | foreign apart =>
    rw [givenApart (apart k)] at found
    cases found

theorem valueCons (k : Setting) (key : String) (w : Value) (rest : List (String × Value)) :
    Layer.value? k ⟨(key, w) :: rest⟩ = (Layer.value? k ⟨rest⟩).or (given k (Key.steps key) w) := by
  simp [Layer.value?, List.reverse_cons, List.findSome?_append]

theorem latestCons (k : Setting) (layer : Layer) (rest : List Layer) :
    latest k (layer :: rest) = (latest k rest).or (layer.value? k) := by
  simp [latest, List.reverse_cons, List.findSome?_append]

theorem latestGood {layers : List Layer} {w : Value}
    (fits : ∀ layer ∈ layers, layer.Fits good) (found : latest k layers = some w) : good k w := by
  obtain ⟨layer, inside, found⟩ := List.exists_of_findSome?_eq_some found
  obtain ⟨⟨key, u⟩, entry, found⟩ := List.exists_of_findSome?_eq_some found
  exact givenGood (fits layer (List.mem_reverse.mp inside) _ (List.mem_reverse.mp entry)) found

theorem holdsOnto (plain : ∀ k w, good k w → ¬ IsTable w) {layer : Layer}
    (fits : layer.Fits good) (holds : Holds values v) :
    Holds (fun k => (layer.value? k).or (values k)) (Layer.onto v layer) := by
  obtain ⟨entries⟩ := layer
  induction entries generalizing values v with
  | nil => exact holds
  | cons entry rest ih =>
    obtain ⟨key, w⟩ := entry
    have next := ih (holdsAssign plain (fits _ List.mem_cons_self) (stepsNamed key) holds)
      (fun e inside => fits e (List.mem_cons_of_mem _ inside))
    simp only [valueCons, Option.or_assoc]
    exact next

theorem holdsLayers (plain : ∀ k w, good k w → ¬ IsTable w) {layers : List Layer}
    (fits : ∀ layer ∈ layers, layer.Fits good) (holds : Holds values v) :
    Holds (fun k => (latest k layers).or (values k)) (layers.foldl Layer.onto v) := by
  induction layers generalizing values v with
  | nil => exact holds
  | cons layer rest ih =>
    have next := ih (fun l inside => fits l (List.mem_cons_of_mem _ inside))
      (holdsOnto plain (fits layer List.mem_cons_self) holds)
    simp only [latestCons, Option.or_assoc]
    exact next

theorem reachedNothing (k : Setting) : reached k.path (.object []) = none := by
  cases k <;> rfl

theorem holdsNothing : Holds (fun _ => none) (.object []) :=
  ⟨⟨[], rfl, List.Pairwise.nil, fun n inside => nomatch inside⟩,
    fun t _ u found => (by simp [reached, heldObject, find] at found), reachedNothing⟩

theorem holdsMerge (plain : ∀ k w, good k w → ¬ IsTable w) {layers : List Layer}
    (fits : ∀ layer ∈ layers, layer.Fits good) :
    Holds (fun k => latest k layers) (Layer.merge layers) := by
  have merged := holdsLayers plain fits holdsNothing
  simp only [Option.or_none] at merged
  exact merged

/- The merged layers go over the seeds as one layer, whose names are no longer keys to be
taken apart. -/
section Held

theorem reachedTop {fields : List (String × Value)} (top : k.table = none) :
    reached k.path (.object fields) = find k.label fields := by
  simp [Setting.path, top, reached, heldObject, Option.bind_fun_some]

theorem reachedInside {fields : List (String × Value)} {t : String} (inside : k.table = some t) :
    reached k.path (.object fields) =
      (find t fields).bind fun u => find k.label u.heldFields := by
  simp [Setting.path, inside, reached, heldObject, Option.bind_fun_some]

theorem apartName {n : String} (known : n ∉ Setting.tables)
    (other : ∀ k : Setting, k.table = none → k.label ≠ n) (k : Setting) : Apart k.path [n] := by
  cases inside : k.table with
  | none =>
    rw [Setting.path, inside]
    exact .inl (other k inside)
  | some t =>
    rw [Setting.path, inside]
    refine .inl fun same => known ?_
    rw [← same]
    cases k <;> cases inside <;> decide

theorem fitsHeld (holds : Holds values m) (allowed : ∀ k w, values k = some w → good k w) :
    (Layer.ofValue m).Fits good := by
  obtain ⟨fields, rfl, ordered, names⟩ := holds.root
  rintro ⟨n, w⟩ entry
  have found : find n fields = some w := (lookupMember (nodupOrdered ordered)).mpr entry
  have whole : Key.steps n = [.named n] := names n (List.mem_map_of_mem entry)
  rw [whole]
  by_cases known : n ∈ Setting.tables
  · obtain ⟨inner, rfl, sorted⟩ := holds.below n known w (by
      rw [reached, heldObject, found]
      rfl)
    refine .table known fun k inside u under => allowed k u ?_
    rw [← holds.values k, reachedInside inside, found]
    rwa [findReverse sorted] at under
  · by_cases top : ∃ k : Setting, k.table = none ∧ k.label = n
    · obtain ⟨k, alone, rfl⟩ := top
      have steps : [Step.named k.label] = k.steps := by
        rw [Setting.steps, Setting.path, alone]
        rfl
      rw [steps]
      refine .setting (allowed k w ?_)
      rw [← holds.values k, reachedTop alone, found]
    · have apart := apartName known fun k alone same => top ⟨k, alone, same⟩
      have alone : Shaped good ([n].map .named ++ []) w := .foreign apart
      exact alone

theorem findSomeNamed {α : Type} {t : String} {f : Value → Option α}
    {g : String × Value → Option α} {entries : List (String × Value)}
    (distinct : (entries.map Prod.fst).Nodup)
    (each : ∀ entry ∈ entries, g entry = if entry.1 = t then f entry.2 else none) :
    entries.findSome? g = (find t entries).bind f := by
  induction entries with
  | nil => rfl
  | cons entry rest ih =>
    obtain ⟨n, w⟩ := entry
    obtain ⟨once, distinct⟩ := List.nodup_cons.mp distinct
    have first := each _ List.mem_cons_self
    have later := ih distinct fun entry inside => each entry (List.mem_cons_of_mem _ inside)
    by_cases same : n = t
    · subst same
      have missing : find n rest = none := lookupNone.mpr once
      rw [if_pos rfl] at first
      rw [List.findSome?_cons, later, missing, first]
      cases found : f w <;> simp [find, found]
    · have kept : find t ((n, w) :: rest) = find t rest := by
        simp [find, List.lookup_cons, beq_eq_false_iff_ne.mpr (Ne.symm same)]
      rw [if_neg same] at first
      rw [List.findSome?_cons, later, kept, first]

theorem valueHeld (holds : Holds values m) (k : Setting) :
    (Layer.ofValue m).value? k = values k := by
  obtain ⟨fields, rfl, ordered, names⟩ := holds.root
  have distinct : (fields.reverse.map Prod.fst).Nodup := by
    rw [List.map_reverse]
    exact List.nodup_reverse.mpr (nodupOrdered ordered)
  have single : ∀ entry ∈ fields.reverse, Key.steps entry.1 = [.named entry.1] :=
    fun entry inside => names _ (List.mem_map_of_mem (List.mem_reverse.mp inside))
  rw [← holds.values k]
  cases inside : k.table with
  | none =>
    have steps : k.steps = [.named k.label] := by rw [Setting.steps, Setting.path, inside]; rfl
    have each : ∀ entry ∈ fields.reverse, given k (Key.steps entry.1) entry.2 =
        if entry.1 = k.label then some entry.2 else none := by
      intro entry found
      simp [given, single entry found, steps, inside]
    rw [reachedTop inside, ← findReverse ordered, ← Option.bind_fun_some (find _ fields.reverse)]
    exact findSomeNamed distinct each
  | some t =>
    have steps : k.steps = [.named t, .named k.label] := by
      rw [Setting.steps, Setting.path, inside]
      rfl
    have known : t ∈ Setting.tables := by cases k <;> cases inside <;> decide
    have each : ∀ entry ∈ fields.reverse, given k (Key.steps entry.1) entry.2 =
        if entry.1 = t then find k.label entry.2.heldFields.reverse else none := by
      intro entry found
      simp [given, single entry found, steps, inside]
    have under : (find t fields).bind (fun u => find k.label u.heldFields) =
        (find t fields).bind fun u => find k.label u.heldFields.reverse := by
      cases found : find t fields with
      | none => rfl
      | some u =>
        obtain ⟨inner, rfl, sorted⟩ := holds.below t known u (by
          rw [reached, heldObject, found]
          rfl)
        exact (findReverse sorted k.label).symm
    rw [reachedInside inside, under, ← findReverse ordered]
    exact findSomeNamed distinct each

end Held

theorem stepsKey (k : Setting) : Key.steps k.key = k.steps := by
  cases k <;> rfl

def seed (service environment : String) : Setting → Option Value
  | .serviceName | .logServiceName => some (.text service)
  | .environment => some (.text environment)
  | _ => none

theorem valueSeeds (service environment : String) (k : Setting) :
    (seeds service environment).value? k = seed service environment k := by
  cases k <;> rfl

theorem seedsFit (texts : ∀ k s, k = .serviceName ∨ k = .environment ∨ k = .logServiceName →
    good k (.text s)) (service environment : String) : (seeds service environment).Fits good := by
  intro entry inside
  have named {k : Setting} (s : String)
      (seeded : k = .serviceName ∨ k = .environment ∨ k = .logServiceName) :
      Shaped good (Key.steps k.key) (.text s) := stepsKey k ▸ .setting (texts k s seeded)
  simp only [seeds, List.mem_cons, List.not_mem_nil, or_false] at inside
  rcases inside with rfl | rfl | rfl
  · exact named (k := .serviceName) service (.inl rfl)
  · exact named (k := .environment) environment (.inr (.inl rfl))
  · exact named (k := .logServiceName) service (.inr (.inr rfl))

def effective (service environment : String) (layers : List Layer) (k : Setting) : Option Value :=
  (latest k layers).or (seed service environment k)

theorem holdsLoaded (plain : ∀ k w, good k w → ¬ IsTable w)
    (texts : ∀ k s, k = .serviceName ∨ k = .environment ∨ k = .logServiceName → good k (.text s))
    {layers : List Layer} (fits : ∀ layer ∈ layers, layer.Fits good)
    (service environment : String) :
    Holds (effective service environment layers)
      (Layer.merge [seeds service environment, Layer.ofValue (Layer.merge layers)]) := by
  have merged := holdsMerge plain fits
  have held := fitsHeld merged fun k w found => latestGood fits found
  have fits' : ∀ layer ∈ [seeds service environment, Layer.ofValue (Layer.merge layers)],
      layer.Fits good := by
    intro layer inside
    rcases List.mem_cons.mp inside with rfl | inside
    · exact seedsFit texts service environment
    · rw [List.mem_singleton.mp inside]
      exact held
  have both := holdsMerge plain fits'
  have same : effective service environment layers = fun k =>
      latest k [seeds service environment, Layer.ofValue (Layer.merge layers)] := by
    funext k
    rw [latestCons, latestCons, valueHeld merged, valueSeeds]
    rfl
  exact same ▸ both

def field {α : Type} (read : Value → Option α) (default : α) : Option Value → Option α
  | none => some default
  | some v => read v

section Reading

theorem getField {α : Type} (fields : List (String × Value)) (place : Nat) (name : String)
    (read : Value → Option α) (default : α) :
    (Section.table fields).get place name read default = field read default (find name fields) := by
  cases found : find name fields <;> simp only [Section.get, Section.entry?, field, found]

theorem sectionMissing {fields : List (String × Value)} {t : String} (inside : k.table = some t)
    (holds : Holds values (.object fields)) (missing : find t fields = none) : values k = none := by
  rw [← holds.values k, reachedInside inside, missing]
  rfl

theorem sectionGiven {fields inner : List (String × Value)} {t : String}
    (inside : k.table = some t) (holds : Holds values (.object fields))
    (found : find t fields = some (.object inner)) : values k = find k.label inner := by
  rw [← holds.values k, reachedInside inside, found]
  rfl

theorem sectionTable {fields : List (String × Value)} {t : String} {u : Value}
    (known : t ∈ Setting.tables) (holds : Holds values (.object fields))
    (found : find t fields = some u) : ∃ inner, u = .object inner := by
  obtain ⟨inner, table, _⟩ := holds.below t known u (by
    rw [reached, heldObject, found]
    rfl)
  exact ⟨inner, table⟩

variable {fields : List (String × Value)}

theorem repositoryHolds (holds : Holds values (.object fields)) :
    field readRepository {} (find "repository" fields) = (do
      let rootDirectory ← field asText "Rules" (values .rootDirectory)
      let defaultExtension ← field asText "json" (values .defaultExtension)
      some { rootDirectory, defaultExtension }) := by
  cases found : find "repository" fields with
  | none =>
    rw [sectionMissing (k := .rootDirectory) rfl holds found,
      sectionMissing (k := .defaultExtension) rfl holds found]
    rfl
  | some u =>
    obtain ⟨inner, rfl⟩ := sectionTable (by decide) holds found
    rw [sectionGiven (k := .rootDirectory) rfl holds found,
      sectionGiven (k := .defaultExtension) rfl holds found]
    simp only [field, readRepository, Section.ofValue?, Option.bind_eq_bind, Option.bind_some, getField]
    rfl

theorem brokerHolds (holds : Holds values (.object fields)) :
    field readBroker {} (find "broker" fields) = (do
      let workflows ← field asTexts [] (values .workflows)
      let progressMilliseconds ← field asCount 1000 (values .progressMilliseconds)
      some { workflows, progressMilliseconds }) := by
  cases found : find "broker" fields with
  | none =>
    rw [sectionMissing (k := .workflows) rfl holds found,
      sectionMissing (k := .progressMilliseconds) rfl holds found]
    rfl
  | some u =>
    obtain ⟨inner, rfl⟩ := sectionTable (by decide) holds found
    rw [sectionGiven (k := .workflows) rfl holds found,
      sectionGiven (k := .progressMilliseconds) rfl holds found]
    simp only [field, readBroker, Section.ofValue?, Option.bind_eq_bind, Option.bind_some, getField]
    rfl

theorem logHolds (holds : Holds values (.object fields)) :
    field readLog {} (find "observability" fields) = (do
      let serviceName ← field asText "rules-broker" (values .logServiceName)
      let level ← field asText "info" (values .logLevel)
      let json ← field asTruth false (values .jsonLogs)
      some { serviceName, level, json }) := by
  cases found : find "observability" fields with
  | none =>
    rw [sectionMissing (k := .logServiceName) rfl holds found,
      sectionMissing (k := .logLevel) rfl holds found, sectionMissing (k := .jsonLogs) rfl holds found]
    rfl
  | some u =>
    obtain ⟨inner, rfl⟩ := sectionTable (by decide) holds found
    rw [sectionGiven (k := .logServiceName) rfl holds found,
      sectionGiven (k := .logLevel) rfl holds found, sectionGiven (k := .jsonLogs) rfl holds found]
    simp only [field, readLog, Section.ofValue?, Option.bind_eq_bind, Option.bind_some, getField]
    rfl

theorem ofValueHolds (holds : Holds values v) :
    ofValue? v = (do
      let serviceName ← field asText "" (values .serviceName)
      let environment ← field asText "" (values .environment)
      let rootDirectory ← field asText "Rules" (values .rootDirectory)
      let defaultExtension ← field asText "json" (values .defaultExtension)
      let workflows ← field asTexts [] (values .workflows)
      let progressMilliseconds ← field asCount 1000 (values .progressMilliseconds)
      let logName ← field asText "rules-broker" (values .logServiceName)
      let level ← field asText "info" (values .logLevel)
      let json ← field asTruth false (values .jsonLogs)
      some {
        serviceName, environment
        repository := { rootDirectory, defaultExtension }
        broker := { workflows, progressMilliseconds }
        log := { serviceName := logName, level, json } }) := by
  obtain ⟨fields, rfl, -, -⟩ := holds.root
  have service : find "service_name" fields = values .serviceName :=
    (reachedTop (k := .serviceName) rfl).symm.trans (holds.values .serviceName)
  have environment : find "environment" fields = values .environment :=
    (reachedTop (k := .environment) rfl).symm.trans (holds.values .environment)
  simp only [ofValue?, Section.ofValue?, Option.bind_eq_bind, Option.bind_some, getField, service,
    environment, repositoryHolds holds, brokerHolds holds, logHolds holds, Option.bind_assoc]

theorem fieldRead {α : Type} {read : Value → Option α} {wrap : α → Content} {o : Option Value}
    (reads : ∀ w, k.read w = (read w).map wrap) (typed : ∀ w, o = some w → (k.read w).isSome)
    (default : α) :
    ∃ a, field read default o = some a ∧ wrap a = (o.bind k.read).getD (wrap default) := by
  cases o with
  | none => exact ⟨default, rfl, rfl⟩
  | some w =>
    have readable := typed w rfl
    rw [reads, Option.isSome_map] at readable
    obtain ⟨a, found⟩ := Option.isSome_iff_exists.mp readable
    exact ⟨a, found, by simp [reads, found]⟩

theorem ofValueTyped (holds : Holds values v)
    (typed : ∀ k w, values k = some w → (k.read w).isSome) :
    ∃ s, ofValue? v = some s ∧
      ∀ k : Setting, k.of s = ((values k).bind k.read).getD (k.of {}) := by
  have reads {k : Setting} {α : Type} {read : Value → Option α} {wrap : α → Content}
      (reads : ∀ w, k.read w = (read w).map wrap) (default : α) :=
    fieldRead (o := values k) reads (typed k) default
  obtain ⟨a, serviceName, same₁⟩ := reads (k := .serviceName) (fun _ => rfl) ""
  obtain ⟨b, environment, same₂⟩ := reads (k := .environment) (fun _ => rfl) ""
  obtain ⟨c, rootDirectory, same₃⟩ := reads (k := .rootDirectory) (fun _ => rfl) "Rules"
  obtain ⟨d, extension, same₄⟩ := reads (k := .defaultExtension) (fun _ => rfl) "json"
  obtain ⟨e, workflows, same₅⟩ := reads (k := .workflows) (fun _ => rfl) []
  obtain ⟨f, progress, same₆⟩ := reads (k := .progressMilliseconds) (fun _ => rfl) 1000
  obtain ⟨g, logName, same₇⟩ := reads (k := .logServiceName) (fun _ => rfl) "rules-broker"
  obtain ⟨h, level, same₈⟩ := reads (k := .logLevel) (fun _ => rfl) "info"
  obtain ⟨i, json, same₉⟩ := reads (k := .jsonLogs) (fun _ => rfl) false
  refine ⟨⟨a, b, ⟨c, d⟩, ⟨e, f⟩, ⟨g, h, i⟩⟩, ?_, fun k => ?_⟩
  · rw [ofValueHolds holds, serviceName, environment, rootDirectory, extension, workflows, progress,
      logName, level, json]
    rfl
  · cases k <;> assumption

end Reading
end RuleBroker.Settings
