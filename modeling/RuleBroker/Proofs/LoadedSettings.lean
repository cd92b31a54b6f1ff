import RuleBroker.Proofs.LayeredSettings
/-! Settings as they are loaded. Which file stands for a name is told by a relation, and
what that file brings; then every setting is what the last layer to give it gives, and a
file that does not read is never passed over. -/
namespace RuleBroker.Settings

namespace SourceFile

def pathOf (directory name : String) : String :=
  String.ofList (Path.join directory.toList (name ++ ".toml").toList)

def further : List (Format × String) :=
  Format.all.flatMap fun format => format.extensions.map (format, ·)

/-- The file that stands for a name: the one so named, unless its name is nothing but the
extension, and where it is missing the first that goes on with a further extension. -/
inductive Stands (fs : FileSystem) (directory name : String) : Option SourceFile → Prop where
  | named {content} (there : fs.file? (pathOf directory name) = some content)
      (proper : isNameless (pathOf directory name) = false) :
      Stands fs directory name (some ⟨pathOf directory name, .toml, content⟩)
  | nameless {content} (there : fs.file? (pathOf directory name) = some content)
      (bare : isNameless (pathOf directory name) = true) : Stands fs directory name none
  | further {before format extension after content}
      (missing : fs.file? (pathOf directory name) = none)
      (order : further = before ++ (format, extension) :: after)
      (earlier : ∀ choice ∈ before, fs.file? (pathOf directory name ++ choice.2) = none)
      (there : fs.file? (pathOf directory name ++ extension) = some content) :
      Stands fs directory name (some ⟨pathOf directory name ++ extension, format, content⟩)
  | missing (missing : fs.file? (pathOf directory name) = none)
      (absent : ∀ choice ∈ further, fs.file? (pathOf directory name ++ choice.2) = none) :
      Stands fs directory name none

variable {fs : FileSystem} {directory name : String} {o : Option SourceFile}

theorem findSomeFlatMap {α β γ : Type} (g : β → Option γ) (f : α → List β) (l : List α) :
    (l.flatMap f).findSome? g = l.findSome? fun a => (f a).findSome? g := by
  induction l with
  | nil => rfl
  | cons a l ih =>
    rw [List.flatMap_cons, List.findSome?_append, ih, List.findSome?_cons]
    cases (f a).findSome? g <;> rfl

theorem findAt (fs : FileSystem) (directory name : String) :
    find? fs directory name = match fs.file? (pathOf directory name) with
      | some content => if isNameless (pathOf directory name) then none
        else some ⟨pathOf directory name, .toml, content⟩
      | none => Format.all.findSome? fun format => format.extensions.findSome? fun extension =>
        (fs.file? (pathOf directory name ++ extension)).map
          (SourceFile.mk (pathOf directory name ++ extension) format) := by
  delta find? pathOf
  rfl

theorem findThere {content} (there : fs.file? (pathOf directory name) = some content) :
    find? fs directory name = if isNameless (pathOf directory name) then none
      else some ⟨pathOf directory name, .toml, content⟩ := by
  rw [findAt, there]

theorem findFurther (missing : fs.file? (pathOf directory name) = none) :
    find? fs directory name = further.findSome? fun choice =>
      (fs.file? (pathOf directory name ++ choice.2)).map
        (SourceFile.mk (pathOf directory name ++ choice.2) choice.1) := by
  rw [findAt, missing, further, findSomeFlatMap _ _ Format.all]
  simp only [List.findSome?_map]
  rfl

theorem findIff : find? fs directory name = o ↔ Stands fs directory name o := by
  constructor
  · rintro rfl
    cases there : fs.file? (pathOf directory name) with
    | some content =>
      rw [findThere there]
      cases bare : isNameless (pathOf directory name) with
      | true => exact .nameless there bare
      | false => exact .named there bare
    | none =>
      rw [findFurther there]
      cases found : further.findSome? _ with
      | none => exact .missing there (by simpa using List.findSome?_eq_none_iff.mp found)
      | some f =>
        obtain ⟨before, ⟨format, extension⟩, after, order, first, earlier⟩ :=
          List.findSome?_eq_some_iff.mp found
        obtain ⟨content, there', rfl⟩ := Option.map_eq_some_iff.mp first
        exact .further there order (fun choice inside => by simpa using earlier choice inside) there'
  · rintro (⟨there, proper⟩ | ⟨there, bare⟩ | ⟨missing, order, earlier, there⟩ | ⟨missing, absent⟩)
    · simp [findThere there, proper]
    · simp [findThere there, bare]
    · rw [findFurther missing, List.findSome?_eq_some_iff]
      exact ⟨_, _, _, order, by rw [there]; rfl, fun choice inside => by simp [earlier choice inside]⟩
    · rw [findFurther missing, List.findSome?_eq_none_iff]
      exact fun choice inside => by simp [absent choice inside]

end SourceFile

inductive Brings (fs : FileSystem) (directory name : String) : Layer → Prop where
  | nothing (stands : SourceFile.Stands fs directory name none) : Brings fs directory name {}
  | file {f fields} (stands : SourceFile.Stands fs directory name (some f))
      (reads : f.format.read f.text = some (.object fields)) : Brings fs directory name ⟨fields⟩

def Unreadable (fs : FileSystem) (directory name : String) : Prop :=
  ∃ f, SourceFile.Stands fs directory name (some f) ∧
    ∀ fields, f.format.read f.text ≠ some (.object fields)

def Layer.WellTyped (layer : Layer) : Prop := layer.Fits fun k w => (k.read w).isSome

section Loading
variable {fs : FileSystem} {env : Variables} {directory name service environment : String}
  {layer common ofEnvironment ofService : Layer}

theorem layerNothing (stands : SourceFile.Stands fs directory name none) :
    fileLayer fs directory name = .ok {} := by
  delta fileLayer
  rw [SourceFile.findIff.mpr stands]

theorem layerFile {f : SourceFile} (stands : SourceFile.Stands fs directory name (some f))
    (reads : f.layer? = some layer) : fileLayer fs directory name = .ok layer := by
  delta fileLayer
  simp only [SourceFile.findIff.mpr stands, reads]

theorem layerFault {f : SourceFile} (stands : SourceFile.Stands fs directory name (some f))
    (fails : f.layer? = none) : fileLayer fs directory name = .error (.unparsable f.path) := by
  delta fileLayer
  simp only [SourceFile.findIff.mpr stands, fails]

theorem layerBrought (brings : Brings fs directory name layer) :
    fileLayer fs directory name = .ok layer := by
  cases brings with
  | nothing stands => exact layerNothing stands
  | file stands reads => exact layerFile stands (by simp only [SourceFile.layer?, reads])

theorem layerUnreadable (unreadable : Unreadable fs directory name) :
    ∃ path, fileLayer fs directory name = .error (.unparsable path) := by
  obtain ⟨f, stands, fails⟩ := unreadable
  refine ⟨f.path, layerFault stands ?_⟩
  unfold SourceFile.layer?
  split
  · next fields reads => exact absurd reads (fails fields)
  · rfl

theorem layerOrUnparsable (fs : FileSystem) (directory name : String) :
    (∃ layer, fileLayer fs directory name = .ok layer) ∨
      ∃ path, fileLayer fs directory name = .error (.unparsable path) := by
  cases found : SourceFile.find? fs directory name with
  | none => exact .inl ⟨_, layerNothing (SourceFile.findIff.mp found)⟩
  | some f =>
    have stands := SourceFile.findIff.mp found
    cases read : f.layer? with
    | some layer => exact .inl ⟨_, layerFile stands read⟩
    | none => exact .inr ⟨_, layerFault stands read⟩

theorem loadBrought (first : Brings fs directory "default" common)
    (second : Brings fs directory environment ofEnvironment)
    (third : Brings fs directory service ofService) :
    loadFrom fs env directory service environment =
      match ofValue? (Layer.merge [seeds service environment,
        Layer.ofValue (Layer.merge [common, ofEnvironment, ofService, env.layer])]) with
      | some s => .ok s
      | none => .error .unfit := by
  simp only [loadFrom, layerBrought first, layerBrought second, layerBrought third]
  rfl

theorem loadUnparsable
    (unreadable : ∃ name ∈ ["default", environment, service], Unreadable fs directory name) :
    ∃ path, loadFrom fs env directory service environment = .error (.unparsable path) := by
  obtain ⟨name, inside, unreadable⟩ := unreadable
  obtain ⟨path, fails⟩ := layerUnreadable unreadable
  simp only [List.mem_cons, List.not_mem_nil, or_false] at inside
  unfold loadFrom
  rcases layerOrUnparsable fs directory "default" with ⟨common, first⟩ | ⟨path', first⟩
  · rcases layerOrUnparsable fs directory environment with ⟨layer, second⟩ | ⟨path', second⟩
    · rcases inside with rfl | rfl | rfl
      · rw [fails] at first
        cases first
      · rw [fails] at second
        cases second
      · exact ⟨path, by rw [first, second, fails]; rfl⟩
    · exact ⟨path', by rw [first, second]; rfl⟩
  · exact ⟨path', by rw [first]; rfl⟩

theorem readTable {w : Value} (k : Setting) (reads : (k.read w).isSome) : ¬ IsTable w := by
  rintro ⟨fields, rfl⟩
  cases k <;> cases reads

theorem standardSeed (k : Setting) :
    k.standard service environment =
      ((seed service environment k).bind k.read).getD (k.of {}) := by
  cases k <;> rfl

theorem loadTyped (first : Brings fs directory "default" common)
    (second : Brings fs directory environment ofEnvironment)
    (third : Brings fs directory service ofService)
    (typed : ∀ layer ∈ [common, ofEnvironment, ofService, env.layer], layer.WellTyped) :
    ∃ s, loadFrom fs env directory service environment = .ok s ∧
      ∀ k : Setting, k.of s =
        ((latest k [common, ofEnvironment, ofService, env.layer]).bind k.read).getD
          (k.standard service environment) := by
  have texts : ∀ k s, k = .serviceName ∨ k = .environment ∨ k = .logServiceName →
      (Setting.read k (.text s)).isSome := by
    rintro k s (rfl | rfl | rfl) <;> rfl
  have holds := holdsLoaded (fun k _ reads => readTable k reads) texts typed service environment
  have reads : ∀ k w, effective service environment
      [common, ofEnvironment, ofService, env.layer] k = some w → (k.read w).isSome := by
    intro k w found
    rcases Option.or_eq_some_iff.mp found with found | ⟨-, found⟩
    · exact latestGood typed found
    · cases k <;> cases found <;> rfl
  obtain ⟨s, loaded, values⟩ := ofValueTyped holds reads
  refine ⟨s, by rw [loadBrought first second third, loaded], fun k => ?_⟩
  rw [values k, effective, standardSeed]
  cases found : latest k [common, ofEnvironment, ofService, env.layer] with
  | none => rfl
  | some w =>
    obtain ⟨content, read⟩ := Option.isSome_iff_exists.mp (latestGood typed found)
    simp only [Option.some_or, Option.bind_some, read, Option.getD_some]

end Loading

/-- Every setting is what the last of the layers to give it gives; where none does, it is the
standard one. A file that stands for a name and cannot be read stops the loading. -/
theorem lastLayerStands (fs : FileSystem) (env : Variables)
    (directory service environment : String) :
    (∀ common ofEnvironment ofService, Brings fs directory "default" common →
      Brings fs directory environment ofEnvironment → Brings fs directory service ofService →
      (∀ layer ∈ [common, ofEnvironment, ofService, env.layer], layer.WellTyped) →
      ∃ s, loadFrom fs env directory service environment = .ok s ∧
        ∀ k : Setting, k.of s =
          ((latest k [common, ofEnvironment, ofService, env.layer]).bind k.read).getD
            (k.standard service environment)) ∧
    ((∃ name ∈ ["default", environment, service], Unreadable fs directory name) →
      ∃ path, loadFrom fs env directory service environment = .error (.unparsable path)) :=
  ⟨fun _ _ _ first second third typed => loadTyped first second third typed, loadUnparsable⟩


section Alike
open Value (same sameFields)

theorem sameText {v : Value} {s : String} (alike : same v (.text s) = true) : v = .text s := by
  cases v <;> simp_all [same]

theorem sameObject {v : Value} {fields : List (String × Value)}
    (alike : same v (.object fields) = true) :
    ∃ held, v = .object held ∧ sameFields held fields = true := by
  cases v <;> simp_all [same]

theorem sameEntry {held : List (String × Value)} {n : String} {w : Value}
    (alike : sameFields held [(n, w)] = true) : ∃ v, held = [(n, v)] ∧ same v w = true := by
  rcases held with _ | ⟨entry, _ | ⟨next, rest⟩⟩
  · cases alike
  · obtain ⟨m, v⟩ := entry
    simp_all [sameFields]
  · simp [sameFields] at alike

end Alike

theorem sectionGivenInPart :
    let fs : FileSystem := ⟨⟨[(["config"], .directory),
      (["config", "default.toml"],
        .file "[repository]\nroot_dir='Documents'\n".toUTF8.data.toList)]⟩, []⟩
    let env : Variables := [("RULES_REPOSITORY__DEFAULT_EXTENSION", "yml")]
    ∃ s, loadFrom fs env "config" "svc" "test" = .ok s ∧
      s.repository = { rootDirectory := "Documents", defaultExtension := "yml" } := by
  intro fs env
  have there : fs.file? (SourceFile.pathOf "config" "default") =
      some "[repository]\nroot_dir='Documents'\n".toUTF8.data.toList := by
    decide +kernel
  have reads : Format.toml.read (SourceFile.text ⟨SourceFile.pathOf "config" "default", .toml,
      "[repository]\nroot_dir='Documents'\n".toUTF8.data.toList⟩) =
        some (.object [("repository", .object [("root_dir", .text "Documents")])]) := by
    have read : (Format.toml.read (SourceFile.text ⟨SourceFile.pathOf "config" "default", .toml,
        "[repository]\nroot_dir='Documents'\n".toUTF8.data.toList⟩)).any
          (·.same (.object [("repository", .object [("root_dir", .text "Documents")])])) = true := by
      decide +kernel
    obtain ⟨root, found, alike⟩ := (Option.any_eq_true _ _).mp read
    obtain ⟨_, rfl, entry⟩ := sameObject alike
    obtain ⟨_, rfl, table⟩ := sameEntry entry
    obtain ⟨_, rfl, field⟩ := sameObject table
    obtain ⟨_, rfl, text⟩ := sameEntry field
    exact sameText text ▸ found
  have typed : Layer.WellTyped ⟨[("repository", .object [("root_dir", .text "Documents")])]⟩ := by
    rintro entry (_ | ⟨_, ⟨⟩⟩)
    refine .table (t := "repository") (by decide) fun k inside w found => ?_
    have known : k = .rootDirectory ∨ k = .defaultExtension := by revert inside; cases k <;> decide
    rcases known with rfl | rfl
    · cases found
      rfl
    · cases found
  have given : Layer.WellTyped env.layer := by
    rintro entry (_ | ⟨_, ⟨⟩⟩)
    exact .setting (k := .defaultExtension) rfl
  obtain ⟨s, loaded, values⟩ := (lastLayerStands fs env "config" "svc" "test").1 _ {} {}
    (.file (.named there (by decide +kernel)) reads)
    (.nothing (.missing (by decide +kernel) (by decide +kernel)))
    (.nothing (.missing (by decide +kernel) (by decide +kernel))) (by
      have nothing : Layer.WellTyped {} := fun _ inside => by cases inside
      simp [typed, given, nothing])
  refine ⟨s, loaded, ?_⟩
  have root : Setting.of s .rootDirectory = .text "Documents" := values .rootDirectory
  have extension : Setting.of s .defaultExtension = .text "yml" := values .defaultExtension
  exact congr (congrArg RepositorySettings.mk (Content.text.inj root)) (Content.text.inj extension)

theorem namelessAndFurtherFiles :
    let given := "service_name='a'\n".toUTF8.data.toList
    let fs : FileSystem := ⟨⟨[(["config"], .directory), (["config", ".toml"], .file given),
      (["config", "default.toml.toml"], .file "environment='b'\n".toUTF8.data.toList)]⟩, []⟩
    (fs.file? (SourceFile.pathOf "config" "") = some given ∧
      (SourceFile.layer? ⟨SourceFile.pathOf "config" "", .toml, given⟩).bind (fun layer =>
        (layer.value? .serviceName).bind (Setting.read .serviceName)) = some (.text "a")) ∧
    (∀ name ∈ ["default", "svc"], fs.file? (SourceFile.pathOf "config" name) = none) ∧
    loadFrom fs [] "config" "svc" "" =
      .ok { serviceName := "svc", environment := "b", log := { serviceName := "svc" } } := by
  decide +kernel

end RuleBroker.Settings
