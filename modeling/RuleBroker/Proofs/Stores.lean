import Mathlib.Data.List.Forall2
import RuleBroker.RuleError
import RuleBroker.Store.Files
import RuleBroker.Store.Memory
/-! One contract of two stores. Files are found and decoded at each read, texts in memory are
decoded when they are loaded; both answer with the documents of the names in their order, or
with the error of the first name that has none. -/
namespace RuleBroker

def FileSystem.Stores (fs : FileSystem) (path text : String) : Prop :=
  fs.file? path = some text.toUTF8.data.toList

namespace FileStore

variable {s : FileStore} {fs : FileSystem} {name path text : String} {names : List String}
  {ws : List Workflow} {fault : Fault}

inductive Leads (s : FileStore) (fs : FileSystem) (name : String) : String → Prop
  | itself (file : (fs.file? name).isSome) : Leads s fs name name
  | below (missing : fs.file? name = none) (usable : Path.IsExtension s.extension.toList)
      (file : (fs.file? (s.candidate name)).isSome) : Leads s fs name (s.candidate name)

def Source (s : FileStore) (fs : FileSystem) (name text : String) : Prop :=
  ∃ path, s.Leads fs name path ∧ fs.Stores path text

def Holds (s : FileStore) (fs : FileSystem) (name : String) (ws : List Workflow) : Prop :=
  ∃ text, s.Source fs name text ∧ Document.ofText text = .ok ws

def Readable (s : FileStore) (fs : FileSystem) (name : String) : Prop := ∃ ws, s.Holds fs name ws

inductive Fails (s : FileStore) (fs : FileSystem) (name : String) : Fault → Prop
  | missing (absent : fs.file? name = none) (usable : Path.IsExtension s.extension.toList)
      (nowhere : fs.file? (s.candidate name) = none) :
      Fails s fs name (.refused (.notFound name (s.candidate name)))
  | unusable (absent : fs.file? name = none) (slashed : ¬ Path.IsExtension s.extension.toList) :
      Fails s fs name .unusableExtension
  | undecodable {path : String} (leads : s.Leads fs name path) (no : ∀ text, ¬ fs.Stores path text) :
      Fails s fs name (.refused (.unreadable path "stream did not contain valid UTF-8"))
  | malformed {path text : String} {fault : Document.Fault} (leads : s.Leads fs name path)
      (stored : fs.Stores path text) (bad : Document.ofText text = .error fault) :
      Fails s fs name (.refused (.unparsable path fault.message))

theorem decoded {content : List UInt8} :
    String.fromUTF8? ⟨content.toArray⟩ = some text ↔ content = text.toUTF8.data.toList := by
  constructor
  · intro found
    unfold String.fromUTF8? at found
    split at found
    · cases Option.some.inj found
      rfl
    · cases found
  · rintro rfl
    rw [Array.toArray_toList, String.fromUTF8?, String.toUTF8_eq_toByteArray, dif_pos text.isValidUTF8]
    rfl

theorem resolveOk : s.resolve fs name = .ok path ↔ s.Leads fs name path := by
  constructor
  · intro resolved
    unfold resolve at resolved
    split at resolved
    next file =>
      cases resolved
      exact .itself file
    next missing =>
      rw [Option.not_isSome_iff_eq_none] at missing
      split at resolved
      · cases resolved
      next usable =>
        split at resolved
        next file =>
          cases resolved
          exact .below missing (not_not.mp usable) file
        · cases resolved
  · rintro (file | ⟨missing, usable, file⟩)
    · simp [resolve, file]
    · simp [resolve, missing, usable, file]

theorem resolveError : s.resolve fs name = .error fault ↔
    fs.file? name = none ∧ (¬ Path.IsExtension s.extension.toList ∧ fault = .unusableExtension ∨
      Path.IsExtension s.extension.toList ∧ fs.file? (s.candidate name) = none ∧
        fault = .refused (.notFound name (s.candidate name))) := by
  unfold resolve
  cases fs.file? name with
  | some content => simp
  | none =>
    by_cases usable : Path.IsExtension s.extension.toList
    · cases fs.file? (s.candidate name) <;> simp [usable, eq_comm]
    · simp [usable, eq_comm]

theorem leadsFile (leads : s.Leads fs name path) : ∃ content, fs.file? path = some content := by
  cases leads with
  | itself file | below _ _ file => exact Option.isSome_iff_exists.mp file

theorem readFileStored (stored : fs.Stores path text) : readFile fs path =
    match Document.ofText text with
    | .ok ws => .ok ws
    | .error fault => .error (.unparsable path fault.message) := by
  rw [readFile, stored]
  cases document : Document.ofText text <;> simp only [decoded.mpr rfl, document]

theorem readFileUndecodable {content : List UInt8} (file : fs.file? path = some content)
    (no : ∀ text, ¬ fs.Stores path text) :
    readFile fs path = .error (.unreadable path "stream did not contain valid UTF-8") := by
  rw [readFile, file]
  cases found : String.fromUTF8? ⟨content.toArray⟩ with
  | none => simp only [found]
  | some text => exact absurd (file.trans (congrArg some (decoded.mp found))) (no text)

theorem readOneHolds (holds : s.Holds fs name ws) : s.readOne fs name = .ok ws := by
  obtain ⟨text, ⟨path, leads, stored⟩, document⟩ := holds
  refine Stages.bindOk.mpr ⟨path, resolveOk.mpr leads, ?_⟩
  rw [readFileStored stored, document]

theorem readOneFails (fails : s.Fails fs name fault) : s.readOne fs name = .error fault := by
  refine Stages.bindError.mpr ?_
  cases fails with
  | missing absent usable nowhere =>
    exact .inl (resolveError.mpr ⟨absent, .inr ⟨usable, nowhere, rfl⟩⟩)
  | unusable absent slashed => exact .inl (resolveError.mpr ⟨absent, .inl ⟨slashed, rfl⟩⟩)
  | @undecodable path leads no =>
    obtain ⟨content, file⟩ := leadsFile leads
    refine .inr ⟨path, resolveOk.mpr leads, ?_⟩
    rw [readFileUndecodable file no]
  | @malformed path text fault leads stored bad =>
    refine .inr ⟨path, resolveOk.mpr leads, ?_⟩
    rw [readFileStored stored, bad]

theorem holdsOrFails (s : FileStore) (fs : FileSystem) (name : String) :
    s.Readable fs name ∨ ∃ fault, s.Fails fs name fault := by
  cases resolved : s.resolve fs name with
  | error fault =>
    obtain ⟨absent, ⟨slashed, rfl⟩ | ⟨usable, nowhere, rfl⟩⟩ := resolveError.mp resolved
    · exact .inr ⟨_, .unusable absent slashed⟩
    · exact .inr ⟨_, .missing absent usable nowhere⟩
  | ok path =>
    have leads := resolveOk.mp resolved
    by_cases stored : ∃ text, fs.Stores path text
    · obtain ⟨text, stored⟩ := stored
      cases document : Document.ofText text with
      | ok ws => exact .inl ⟨ws, text, ⟨path, leads, stored⟩, document⟩
      | error fault => exact .inr ⟨_, .malformed leads stored document⟩
    · exact .inr ⟨_, .undecodable leads (not_exists.mp stored)⟩

theorem readOneOk : s.readOne fs name = .ok ws ↔ s.Holds fs name ws := by
  refine ⟨fun read => ?_, readOneHolds⟩
  rcases holdsOrFails s fs name with ⟨held, holds⟩ | ⟨fault, fails⟩
  · cases read.symm.trans (readOneHolds holds)
    exact holds
  · cases read.symm.trans (readOneFails fails)

theorem readOneError : s.readOne fs name = .error fault ↔ s.Fails fs name fault := by
  refine ⟨fun read => ?_, readOneFails⟩
  rcases holdsOrFails s fs name with ⟨held, holds⟩ | ⟨fault, fails⟩
  · cases read.symm.trans (readOneHolds holds)
  · cases read.symm.trans (readOneFails fails)
    exact fails

theorem failsUnreadable (fails : s.Fails fs name fault) : ¬ s.Readable fs name := by
  rintro ⟨ws, holds⟩
  cases (readOneHolds holds).symm.trans (readOneFails fails)

theorem readOk : s.read fs names = .ok ws ↔
    ∃ parts, List.Forall₂ (s.Holds fs) names parts ∧ ws = parts.flatten := by
  induction names generalizing ws with
  | nil => simp [read, eq_comm]
  | cons name rest ih =>
    constructor
    · intro done
      obtain ⟨first, one, done⟩ := Stages.bindOk.mp done
      obtain ⟨more, others, last⟩ := Stages.bindOk.mp done
      cases last
      obtain ⟨parts, held, rfl⟩ := ih.mp others
      exact ⟨first :: parts, .cons (readOneOk.mp one) held, rfl⟩
    · rintro ⟨parts, held, rfl⟩
      cases held with
      | @cons _ first _ parts holds held =>
        refine Stages.bindOk.mpr ⟨first, readOneOk.mpr holds, ?_⟩
        exact Stages.bindOk.mpr ⟨parts.flatten, ih.mpr ⟨parts, held, rfl⟩, rfl⟩

theorem readError : s.read fs names = .error fault ↔ ∃ before name after,
    names = before ++ name :: after ∧ (∀ n ∈ before, s.Readable fs n) ∧ s.Fails fs name fault := by
  induction names with
  | nil => simp [read]
  | cons head rest ih =>
    constructor
    · intro failed
      rcases Stages.bindError.mp failed with one | ⟨first, one, failed⟩
      · exact ⟨[], head, rest, rfl, by simp, readOneError.mp one⟩
      · rcases Stages.bindError.mp failed with others | ⟨more, _, last⟩
        · obtain ⟨before, name, after, rfl, earlier, fails⟩ := ih.mp others
          refine ⟨head :: before, name, after, rfl, ?_, fails⟩
          exact List.forall_mem_cons.mpr ⟨⟨first, readOneOk.mp one⟩, earlier⟩
        · cases last
    · rintro ⟨before, name, after, split, earlier, fails⟩
      refine Stages.bindError.mpr ?_
      cases before with
      | nil =>
        cases split
        exact .inl (readOneError.mpr fails)
      | cons _ before =>
        cases split
        obtain ⟨⟨first, holds⟩, earlier⟩ := List.forall_mem_cons.mp earlier
        refine .inr ⟨first, readOneOk.mpr holds, Stages.bindError.mpr (.inl ?_)⟩
        exact ih.mpr ⟨before, name, after, rfl, earlier, fails⟩

theorem readableParts : (∀ name ∈ names, s.Readable fs name) ↔
    ∃ parts, List.Forall₂ (s.Holds fs) names parts := by
  induction names with
  | nil => simp
  | cons name rest ih =>
    rw [List.forall_mem_cons, ih]
    constructor
    · rintro ⟨⟨first, holds⟩, parts, held⟩
      exact ⟨first :: parts, .cons holds held⟩
    · rintro ⟨_, _ | ⟨holds, held⟩⟩
      exact ⟨⟨_, holds⟩, _, held⟩

end FileStore

namespace MemoryStore

variable {m : MemoryStore} {s : FileStore} {fs : FileSystem} {name text : String}
  {names : List String} {ws : List Workflow}

def Loaded (m : MemoryStore) (name text : String) : Prop :=
  ∃ before count after, MemoryStore.load before name text = .ok (count, after) ∧
    m.find? name = after.find? name

structure Copies (m : MemoryStore) (s : FileStore) (fs : FileSystem) (names : List String) :
    Prop where
  loaded : ∀ name ∈ names, s.Readable fs name → ∃ text, s.Source fs name text ∧ m.Loaded name text
  absent : ∀ name ∈ names, ¬ s.Readable fs name → m.find? name = none

theorem loadedFind : m.Loaded name text ↔
    ∃ ws, Document.ofText text = .ok ws ∧ m.find? name = some ws := by
  constructor
  · rintro ⟨before, count, after, load, same⟩
    unfold MemoryStore.load at load
    cases document : Document.ofText text with
    | error fault =>
      rw [document] at load
      cases load
    | ok ws =>
      rw [document] at load
      cases load
      exact ⟨ws, rfl, same.trans (Fields.findPutSelf name ws before.entries)⟩
  · rintro ⟨ws, document, found⟩
    refine ⟨{}, ws.length, MemoryStore.insert {} name ws, ?_, ?_⟩
    · rw [MemoryStore.load, document]
    · exact found.trans (Fields.findPutSelf name ws []).symm

theorem copiesFind (copies : m.Copies s fs names) {name : String} (listed : name ∈ names)
    (holds : s.Holds fs name ws) : m.find? name = some ws := by
  obtain ⟨text, source, loaded⟩ := copies.loaded name listed ⟨ws, holds⟩
  obtain ⟨own, document, found⟩ := loadedFind.mp loaded
  -- The text of a name's file is one, so its workflows are.
  cases (FileStore.readOneHolds holds).symm.trans (FileStore.readOneHolds ⟨text, source, document⟩)
  exact found

theorem readHeld {parts : List (List Workflow)}
    (held : List.Forall₂ (fun name ws => m.find? name = some ws) names parts) :
    m.read names = .ok parts.flatten := by
  induction held with
  | nil => rfl
  | cons found _ ih =>
    rw [read, found]
    simp only [ih]
    rfl

theorem readMissing {before after : List String} (found : ∀ n ∈ before, ∃ ws, m.find? n = some ws)
    (missing : m.find? name = none) :
    m.read (before ++ name :: after) = .error (.notFound name "memory") := by
  induction before with
  | nil => rw [List.nil_append, read, missing]
  | cons n before ih =>
    obtain ⟨⟨ws, held⟩, found⟩ := List.forall_mem_cons.mp found
    rw [List.cons_append, read, held]
    simp only [ih found]
    rfl

def mirror (s : FileStore) (fs : FileSystem) : List String → MemoryStore
  | [] => {}
  | name :: rest =>
    match s.readOne fs name with
    | .ok ws => (mirror s fs rest).insert name ws
    | .error _ => mirror s fs rest

theorem mirrorFind (s : FileStore) (fs : FileSystem) (names : List String) (name : String) :
    (mirror s fs names).find? name =
      if name ∈ names then (s.readOne fs name).toOption else none := by
  induction names with
  | nil => rfl
  | cons head rest ih =>
    by_cases same : name = head
    · subst same
      rw [if_pos List.mem_cons_self, mirror]
      cases read : s.readOne fs name with
      | ok ws => exact Fields.findPutSelf name ws (mirror s fs rest).entries
      | error fault =>
        rw [ih, read]
        exact ite_self none
    · rw [mirror]
      simp only [List.mem_cons, same, false_or, ← ih]
      cases s.readOne fs head with
      | ok ws => exact Fields.findPutOther same ws (mirror s fs rest).entries
      | error fault => rfl

theorem mirrorCopies (s : FileStore) (fs : FileSystem) (names : List String) :
    (mirror s fs names).Copies s fs names := by
  have held {name : String} (listed : name ∈ names) :
      (mirror s fs names).find? name = (s.readOne fs name).toOption := by
    rw [mirrorFind, if_pos listed]
  constructor
  · rintro name listed ⟨ws, text, source, document⟩
    refine ⟨text, source, loadedFind.mpr ⟨ws, document, ?_⟩⟩
    rw [held listed, FileStore.readOneHolds ⟨text, source, document⟩]
    rfl
  · intro name listed unreadable
    obtain readable | ⟨fault, fails⟩ := FileStore.holdsOrFails s fs name
    · exact absurd readable unreadable
    · rw [held listed, FileStore.readOneFails fails]
      rfl

end MemoryStore

/-- A file store reads a list of names iff each of them leads to a document, and then answers
with their workflows in the order of the names; else it answers with the error of the first
name that fails. A store in memory that holds the same texts agrees on every success and on
every name that is not found. -/
theorem FileStore.readsLikeItsCopies (s : FileStore) (fs : FileSystem) (names : List String) :
    ((∃ ws, s.read fs names = .ok ws) ↔ ∀ name ∈ names, s.Readable fs name) ∧
    (∀ ws, s.read fs names = .ok ws ↔
      ∃ parts, List.Forall₂ (s.Holds fs) names parts ∧ ws = parts.flatten) ∧
    (∀ fault, s.read fs names = .error fault ↔ ∃ before name after,
      names = before ++ name :: after ∧ (∀ n ∈ before, s.Readable fs n) ∧ s.Fails fs name fault) ∧
    (Path.IsExtension s.extension.toList → s.read fs names ≠ .error .unusableExtension) ∧
    (∃ m : MemoryStore, m.Copies s fs names) ∧
    ∀ m : MemoryStore, m.Copies s fs names →
      (∀ ws, s.read fs names = .ok ws → m.read names = .ok ws) ∧
      ∀ name location, s.read fs names = .error (.refused (.notFound name location)) →
        m.read names = .error (.notFound name "memory") := by
  refine ⟨?_, fun ws => readOk, fun fault => readError, fun usable failed => ?_,
    ⟨_, MemoryStore.mirrorCopies s fs names⟩, fun m copies => ⟨fun ws done => ?_, ?_⟩⟩
  · rw [readableParts]
    constructor
    · rintro ⟨ws, done⟩
      obtain ⟨parts, held, _⟩ := readOk.mp done
      exact ⟨parts, held⟩
    · rintro ⟨parts, held⟩
      exact ⟨parts.flatten, readOk.mpr ⟨parts, held, rfl⟩⟩
  · obtain ⟨_, name, _, _, _, fails⟩ := readError.mp failed
    cases fails with
    | unusable _ slashed => exact slashed usable
  · obtain ⟨parts, held, rfl⟩ := readOk.mp done
    have listed := (List.forall₂_and_left names parts).mpr ⟨fun _ member => member, held⟩
    exact MemoryStore.readHeld
      (listed.imp fun _ _ ⟨member, holds⟩ => MemoryStore.copiesFind copies member holds)
  · intro name location failed
    obtain ⟨before, own, after, rfl, earlier, fails⟩ := readError.mp failed
    have unreadable := failsUnreadable fails
    cases fails with
    | missing =>
      refine MemoryStore.readMissing (fun n member => ?_) (copies.absent _ (by simp) unreadable)
      obtain ⟨ws, holds⟩ := earlier n member
      exact ⟨ws, MemoryStore.copiesFind copies (List.mem_append_left _ member) holds⟩

theorem FileStore.repeatedNamesRead :
    let text := "\x7b\"WorkflowName\":\"flat\",\"Rules\":[]\x7d"
    let fs : FileSystem := ⟨⟨[(["rules"], .directory),
      (["rules", "flat.json"], .file text.toUTF8.data.toList),
      (["none.json"], .file "[]".toUTF8.data.toList)]⟩, []⟩
    let s : FileStore := { root := "rules" }
    ∃ flat m m', flat.name = "flat" ∧ MemoryStore.load {} "flat" text = .ok (1, m) ∧
      m.load "none.json" "[]" = .ok (0, m') ∧
      s.read fs ["flat", "none.json", "flat"] = .ok [flat, flat] ∧
      m'.read ["flat", "none.json", "flat"] = .ok [flat, flat] ∧
      s.read fs ["flat", "gone"] = .error (.refused (.notFound "gone" "rules/gone.json")) ∧
      m'.read ["flat", "gone"] = .error (.notFound "gone" "memory") := by
  intro text fs s
  obtain ⟨flat, document, named⟩ : ∃ w, Document.ofText text = .ok [w] ∧ w.name = "flat" := by
    have names : (Document.ofText text).map (List.map Workflow.name) = .ok ["flat"] := by
      decide +kernel
    cases document : Document.ofText text with
    | error fault => simp [document, Except.map] at names
    | ok ws => simpa [document, Except.map, List.map_eq_singleton_iff] using names
  have nothing : Document.ofText "[]" = .ok [] := by
    have length : (Document.ofText "[]").map List.length = .ok 0 := by decide +kernel
    cases document : Document.ofText "[]" with
    | error fault => simp [document, Except.map] at length
    | ok ws => simpa [document, Except.map] using length
  have below : s.candidate "flat" = "rules/flat.json" := by decide +kernel
  have nowhere : s.candidate "gone" = "rules/gone.json" := by decide +kernel
  have inRules : s.Source fs "flat" text := by
    refine ⟨s.candidate "flat", .below (by decide +kernel) (by decide +kernel) ?_, ?_⟩
    · rw [below]
      decide +kernel
    · rw [below]
      exact (by decide +kernel : fs.file? "rules/flat.json" = some text.toUTF8.data.toList)
  have itself : s.Source fs "none.json" "[]" := by
    refine ⟨"none.json", .itself (by decide +kernel), ?_⟩
    exact (by decide +kernel : fs.file? "none.json" = some "[]".toUTF8.data.toList)
  have gone : s.Fails fs "gone" (.refused (.notFound "gone" "rules/gone.json")) := by
    rw [← nowhere]
    refine .missing (by decide +kernel) (by decide +kernel) ?_
    rw [nowhere]
    decide +kernel
  have load : MemoryStore.load {} "flat" text = .ok (1, MemoryStore.insert {} "flat" [flat]) := by
    rw [MemoryStore.load, document]
    rfl
  have loadNothing (m : MemoryStore) :
      m.load "none.json" "[]" = .ok (0, m.insert "none.json" []) := by
    rw [MemoryStore.load, nothing]
    rfl
  refine ⟨flat, _, _, named, load, loadNothing _, ?_⟩
  have copies (names : List String)
      (known : ∀ name ∈ names, name = "flat" ∨ name = "none.json" ∨ name = "gone") :
      ((MemoryStore.insert {} "flat" [flat]).insert "none.json" []).Copies s fs names := by
    constructor
    · intro name listed readable
      rcases known name listed with rfl | rfl | rfl
      · exact ⟨text, inRules, MemoryStore.loadedFind.mpr ⟨_, document, by rfl⟩⟩
      · exact ⟨"[]", itself, MemoryStore.loadedFind.mpr ⟨_, nothing, by rfl⟩⟩
      · exact absurd readable (failsUnreadable gone)
    · intro name listed unreadable
      rcases known name listed with rfl | rfl | rfl
      · exact absurd ⟨_, text, inRules, document⟩ unreadable
      · exact absurd ⟨_, "[]", itself, nothing⟩ unreadable
      · rfl
  obtain ⟨_, done, _, _, _, like⟩ := readsLikeItsCopies s fs ["flat", "none.json", "flat"]
  obtain ⟨_, _, failed, _, _, unlike⟩ := readsLikeItsCopies s fs ["flat", "gone"]
  have read := (done [flat, flat]).mpr ⟨[[flat], [], [flat]],
    .cons ⟨text, inRules, document⟩ (.cons ⟨"[]", itself, nothing⟩
      (.cons ⟨text, inRules, document⟩ .nil)), rfl⟩
  have missed := (failed (.refused (.notFound "gone" "rules/gone.json"))).mpr
    ⟨["flat"], "gone", [], rfl, by simpa using ⟨_, text, inRules, document⟩, gone⟩
  exact ⟨read, (like _ (copies _ (by simp))).1 _ read, missed,
    (unlike _ (copies _ (by simp))).2 _ _ missed⟩

theorem FileStore.slashedExtensionIsNoError :
    let s : FileStore := { root := "Rules", extension := "a/b" }
    s.read {} ["orders"] = .error .unusableExtension ∧
    (∀ ws, s.read {} ["orders"] ≠ .ok ws) ∧ ∀ e, s.read {} ["orders"] ≠ .error (.refused e) := by
  intro s
  have fault : s.read {} ["orders"] = .error .unusableExtension :=
    readError.mpr ⟨[], "orders", [], rfl, by simp, .unusable (by decide +kernel) (by decide +kernel)⟩
  rw [fault]
  exact ⟨rfl, by simp, by simp⟩

end RuleBroker
