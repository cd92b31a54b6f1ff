import RuleBroker.Proofs.LoadedSettings
/-! One variable over the standard settings. A text setting takes the text of whatever the
variable reads as, so that a number or a truth value comes in its standard spelling; a list
of workflows is cut at its commas if the text reads as neither, and is refused otherwise. -/
namespace RuleBroker.Settings

namespace Setting

def texts : List Setting :=
  [.serviceName, .environment, .rootDirectory, .defaultExtension, .logServiceName, .logLevel]

end Setting

namespace Variables

def IsTruth (t : String) (b : Bool) : Prop := t.toList.map Char.toLower = (truthText b).toList
instance (t b) : Decidable (IsTruth t b) := by unfold IsTruth; infer_instance

structure Plain (t : String) : Prop where
  truth : ∀ b, ¬ IsTruth t b
  whole : Text.readI64 t.toList = none
  float : Binary64.read t.toList = none

/-- The text that a text setting takes from a variable. The readings are tried in the order
given here. -/
inductive Taken (t : String) : String → Prop where
  | truth {b} (word : IsTruth t b) : Taken t (truthText b)
  | whole {n} (truth : ∀ b, ¬ IsTruth t b) (reads : Text.readI64 t.toList = some n) :
      Taken t (String.ofList (Text.integer n))
  | float {x} (truth : ∀ b, ¬ IsTruth t b) (whole : Text.readI64 t.toList = none)
      (reads : Binary64.read t.toList = some x) : Taken t (String.ofList x.plainText)
  | verbatim (plain : Plain t) : Taken t t

variable {t u key : String} {env : Variables} {name : String} {k : Setting}

theorem readingOf (t : String) : (∃ b, IsTruth t b) ∨
    ((∀ b, ¬ IsTruth t b) ∧ ∃ n, Text.readI64 t.toList = some n) ∨
    ((∀ b, ¬ IsTruth t b) ∧ Text.readI64 t.toList = none ∧ ∃ x, Binary64.read t.toList = some x) ∨
    Plain t := by
  by_cases truth : ∃ b, IsTruth t b
  · exact .inl truth
  have truth := not_exists.mp truth
  cases whole : Text.readI64 t.toList with
  | some n => exact .inr (.inl ⟨truth, n, rfl⟩)
  | none =>
    cases float : Binary64.read t.toList with
    | some x => exact .inr (.inr (.inl ⟨truth, rfl, x, rfl⟩))
    | none => exact .inr (.inr (.inr ⟨truth, whole, float⟩))

theorem valueTruth {b : Bool} (word : IsTruth t b) : valueOf key t = .bool b := by
  cases b with
  | true => exact if_pos word
  | false =>
    have no : t.toList.map Char.toLower ≠ "true".toList := by
      rw [show t.toList.map Char.toLower = "false".toList from word]
      decide
    exact (if_neg no).trans (if_pos word)

theorem valueNumber (truth : ∀ b, ¬ IsTruth t b) :
    valueOf key t = match Text.readI64 t.toList with
      | some n => .int n
      | none => match Binary64.read t.toList with
        | some x => .float x
        | none => if key = listKey then .list ((Text.segments ',' t).map .text) else .text t :=
  (if_neg (truth true)).trans (if_neg (truth false))

theorem valuePlain (plain : Plain t) : valueOf key t =
    if key = listKey then .list ((Text.segments ',' t).map .text) else .text t := by
  rw [valueNumber plain.truth, plain.whole, plain.float]

theorem takenValue (single : key ≠ listKey) : asText (valueOf key t) = some u ↔ Taken t u := by
  constructor
  · intro read
    rcases readingOf t with ⟨b, word⟩ | ⟨truth, n, whole⟩ | ⟨truth, whole, x, float⟩ | plain
    · rw [valueTruth word] at read
      exact Option.some.inj read ▸ .truth word
    · rw [valueNumber truth, whole] at read
      exact Option.some.inj read ▸ .whole truth whole
    · rw [valueNumber truth, whole, float] at read
      exact Option.some.inj read ▸ .float truth whole float
    · rw [valuePlain plain, if_neg single] at read
      exact Option.some.inj read ▸ .verbatim plain
  · intro taken
    cases taken with
    | truth word => rw [valueTruth word]; rfl
    | whole truth whole => rw [valueNumber truth, whole]; rfl
    | float truth whole float => rw [valueNumber truth, whole, float]; rfl
    | verbatim plain => rw [valuePlain plain, if_neg single]; rfl

theorem valueText (single : key ≠ listKey) (t : String) :
    ∃ u, asText (valueOf key t) = some u := by
  rcases readingOf t with ⟨b, word⟩ | ⟨truth, n, whole⟩ | ⟨truth, whole, x, float⟩ | plain
  · exact ⟨_, (takenValue single).mpr (.truth word)⟩
  · exact ⟨_, (takenValue single).mpr (.whole truth whole)⟩
  · exact ⟨_, (takenValue single).mpr (.float truth whole float)⟩
  · exact ⟨_, (takenValue single).mpr (.verbatim plain)⟩

theorem valueNoTexts (single : ¬ Plain t) : asTexts (valueOf key t) = none := by
  rcases readingOf t with ⟨b, word⟩ | ⟨truth, n, whole⟩ | ⟨truth, whole, x, float⟩ | plain
  · rw [valueTruth word]; rfl
  · rw [valueNumber truth, whole]; rfl
  · rw [valueNumber truth, whole, float]; rfl
  · exact absurd plain single

theorem valueNoTable (key t : String) : ¬ IsTable (valueOf key t) := by
  rintro ⟨fields, table⟩
  rcases readingOf t with ⟨b, word⟩ | ⟨truth, n, whole⟩ | ⟨truth, whole, x, float⟩ | plain
  · cases (valueTruth word).symm.trans table
  · rw [valueNumber truth, whole] at table
    cases table
  · rw [valueNumber truth, whole, float] at table
    cases table
  · rw [valuePlain plain] at table
    split at table <;> cases table

theorem layerAlone (alone : env.filter (fun entry => (key? entry.1).isSome) = [(name, t)])
    (names : key? name = some k.key) : layer env = ⟨[(k.key, valueOf k.key t)]⟩ := by
  have kept : ∀ entry : String × String, ((key? entry.1).map fun key => (key, valueOf key entry.2)) =
      if (key? entry.1).isSome then (key? entry.1).map fun key => (key, valueOf key entry.2)
      else none := by
    intro entry
    cases key? entry.1 <;> rfl
  have entries : env.filterMap (fun entry => (key? entry.1).map fun key => (key, valueOf key entry.2)) =
      [(k.key, valueOf k.key t)] := by
    rw [funext kept, ← List.filterMap_filter, alone]
    simp [names]
  exact congrArg (fun entries => Layer.mk (Fields.ofList entries)) entries

end Variables

theorem textsOf (ss : List String) : asTexts (.list (ss.map .text)) = some ss := by
  induction ss with
  | nil => rfl
  | cons s rest ih =>
    rw [asTexts] at ih
    rw [asTexts, List.map_cons, List.mapM_cons, ih]
    rfl

section Alone
variable {fs : FileSystem} {env : Variables} {directory name service environment t : String}
  {k : Setting} {w : Value} {c : Content}

theorem latestAlone (k other : Setting) (w : Value) :
    latest other [{}, {}, {}, ⟨[(k.key, w)]⟩] = if other = k then some w else none := by
  have entry : latest other [{}, {}, {}, ⟨[(k.key, w)]⟩] = given other k.steps w := by
    have nothing : Layer.value? other {} = none := rfl
    simp only [latestCons, nothing, Option.or_none]
    rw [valueCons, stepsKey]
    rfl
  rw [entry]
  split
  · next same => rw [same, given, if_pos rfl]
  · next differ => exact givenAlong (apartSettings differ)

theorem fitsAlone {good : Setting → Value → Prop} (fits : good k w) :
    ∀ layer ∈ [{}, {}, {}, Layer.mk [(k.key, w)]], layer.Fits good := by
  have nothing : Layer.Fits good {} := fun _ inside => by cases inside
  have entry : Layer.Fits good ⟨[(k.key, w)]⟩ := by
    rintro _ (_ | ⟨_, ⟨⟩⟩)
    exact stepsKey k ▸ .setting fits
  simp [nothing, entry]

theorem loadAlone (absent : ∀ n ∈ ["default", environment, service],
      SourceFile.Stands fs directory n none)
    (layer : Variables.layer env = ⟨[(k.key, w)]⟩) (reads : k.read w = some c) :
    ∃ s, loadFrom fs env directory service environment = .ok s ∧ k.of s = c ∧
      ∀ other : Setting, other ≠ k → other.of s = other.standard service environment := by
  have fits : ∀ layer ∈ [{}, {}, {}, Layer.mk [(k.key, w)]], layer.WellTyped :=
    fitsAlone (by simp [reads])
  have typed : ∀ layer ∈ [{}, {}, {}, Variables.layer env], layer.WellTyped := layer ▸ fits
  obtain ⟨s, loaded, values⟩ := loadTyped (.nothing (absent "default" (by simp)))
    (.nothing (absent environment (by simp))) (.nothing (absent service (by simp))) typed
  simp only [layer, latestAlone] at values
  refine ⟨s, loaded, ?_, fun other differ => ?_⟩
  · rw [values k, if_pos rfl, Option.bind_some, reads, Option.getD_some]
  · rw [values other, if_neg differ]
    rfl

theorem refuseAlone (absent : ∀ n ∈ ["default", environment, service],
      SourceFile.Stands fs directory n none)
    (layer : Variables.layer env = ⟨[(Setting.workflows.key, w)]⟩) (plain : ¬ IsTable w)
    (fails : asTexts w = none) :
    loadFrom fs env directory service environment = .error .unfit := by
  have fits : ∀ layer ∈ [{}, {}, {}, Layer.mk [(Setting.workflows.key, w)]],
      layer.Fits fun _ w => ¬ IsTable w := fitsAlone plain
  have holds := holdsLoaded (fun _ _ plain => plain)
    (fun _ _ _ table => by obtain ⟨_, table⟩ := table; cases table) fits service environment
  have given : effective service environment [{}, {}, {}, ⟨[(Setting.workflows.key, w)]⟩] .workflows =
      some w := by
    rw [effective, latestAlone, if_pos rfl, Option.some_or]
  rw [loadBrought (.nothing (absent "default" (by simp))) (.nothing (absent environment (by simp)))
    (.nothing (absent service (by simp))), layer, ofValueHolds holds, given]
  simp only [field, fails, Option.bind_eq_bind, Option.bind_none, Option.bind_fun_none]

end Alone

/-- Where nothing but one variable gives settings, a text setting is the text that the
variable's reading has, the list of workflows is cut out of a text that reads as no single
value, and all else is standard. -/
theorem variableArrivesAsRead {fs : FileSystem} {env : Variables}
    {directory service environment name t : String} {k : Setting}
    (absent : ∀ n ∈ ["default", environment, service], SourceFile.Stands fs directory n none)
    (alone : env.filter (fun entry => (Variables.key? entry.1).isSome) = [(name, t)])
    (names : Variables.key? name = some k.key) :
    (k ∈ Setting.texts →
      ∃ s, loadFrom fs env directory service environment = .ok s ∧
        (∀ u, k.of s = .text u ↔ Variables.Taken t u) ∧
        ∀ other : Setting, other ≠ k → other.of s = other.standard service environment) ∧
    (k = .workflows → Variables.Plain t →
      ∃ s, loadFrom fs env directory service environment = .ok s ∧
        k.of s = .texts (Text.segments ',' t) ∧
        ∀ other : Setting, other ≠ k → other.of s = other.standard service environment) ∧
    (k = .workflows → ¬ Variables.Plain t →
      loadFrom fs env directory service environment = .error .unfit) := by
  have layer := Variables.layerAlone alone names
  refine ⟨fun text => ?_, fun list plain => ?_, fun list single => ?_⟩
  · have single : k.key ≠ Variables.listKey := by
      revert text
      cases k <;> decide
    have read : ∀ v, k.read v = (asText v).map .text := by
      revert text
      cases k <;> first | exact fun _ _ => rfl | exact fun text => absurd text (by decide)
    obtain ⟨u, taken⟩ := Variables.valueText single t
    obtain ⟨s, loaded, value, others⟩ := loadAlone absent layer (by rw [read, taken]; rfl)
    refine ⟨s, loaded, fun v => ?_, others⟩
    rw [value, ← Variables.takenValue single, taken, Content.text.injEq, Option.some.injEq]
  · subst list
    have value : Variables.valueOf Setting.workflows.key t =
        .list ((Text.segments ',' t).map .text) := by
      rw [Variables.valuePlain plain, if_pos (by decide)]
    exact loadAlone absent layer (by rw [value, Setting.read, textsOf]; rfl)
  · subst list
    exact refuseAlone absent layer (Variables.valueNoTable _ t) (Variables.valueNoTexts single)

theorem numberArrivesBare :
    let env : Variables := [("PATH", "/bin"), ("RULES_REPOSITORY__DEFAULT_EXTENSION", "007")]
    ∃ s, loadFrom {} env "config" "svc" "test" = .ok s ∧ s.repository.defaultExtension = "7" ∧
      s.repository.rootDirectory = "Rules" := by
  intro env
  have absent : ∀ n ∈ ["default", "test", "svc"], SourceFile.Stands {} "config" n none := by
    simp only [List.forall_mem_cons, List.not_mem_nil, false_imp_iff, implies_true, and_true]
    refine ⟨.missing ?_ ?_, .missing ?_ ?_, .missing ?_ ?_⟩ <;> decide +kernel
  have alone : env.filter (fun entry => (Variables.key? entry.1).isSome) =
      [("RULES_REPOSITORY__DEFAULT_EXTENSION", "007")] := by
    decide +kernel
  have names : Variables.key? "RULES_REPOSITORY__DEFAULT_EXTENSION" =
      some (Setting.key .defaultExtension) := by
    decide +kernel
  obtain ⟨s, loaded, value, others⟩ := (variableArrivesAsRead absent alone names).1 (by decide)
  have seven : Variables.Taken "007" "7" := .whole (n := 7) (fun b => by cases b <;> decide) rfl
  exact ⟨s, loaded, Content.text.inj ((value "7").mpr seven),
    Content.text.inj (others .rootDirectory (by decide))⟩

theorem numbersNotVerbatim :
    (loadFrom {} [("RULES_REPOSITORY__DEFAULT_EXTENSION", "007")] "config" "svc" "test" =
      .ok { serviceName := "svc", environment := "test", repository := { defaultExtension := "7" },
            log := { serviceName := "svc" } }) ∧
    loadFrom {} [("RULES_BROKER__WORKFLOWS", "2024")] "config" "svc" "test" = .error .unfit := by
  decide +kernel

end RuleBroker.Settings
