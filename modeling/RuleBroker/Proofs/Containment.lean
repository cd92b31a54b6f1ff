import Mathlib.Data.List.Basic
import RuleBroker.Proofs.PathLookup
import RuleBroker.Proofs.Stores
/-! Where a file found through a store's root stands. Joining a relative path to the root and
changing the extension of the last name keeps every piece but that name's, so what is found is
inside the root as long as the name has a name of its own; the last name is the root's else. -/
namespace RuleBroker

namespace Text

variable {separator c : Char} {cs : List Char}

theorem memPieces (apart : c ≠ separator) :
    c ∈ cs ↔ ∃ p ∈ pieces separator cs, c ∈ p := by
  induction cs with
  | nil => simp [pieces]
  | cons d cs ih =>
    obtain ⟨p, ps, cut⟩ := List.exists_cons_of_ne_nil (piecesNonempty separator cs)
    rw [cut] at ih
    rw [pieces, List.mem_cons, ih, cut]
    split
    · next same => simp [same, apart]
    · simp [or_assoc]

end Text

namespace Path
open Text (pieces)

variable {root path extension name n : List Char} {before after : List (List Char)}

def parts (path : List Char) : List (List Char) := (pieces '/' path).filter names

structure Inside (root path : List Char) : Prop where
  start : isAbsolute path = isAbsolute root
  below : ∃ below, below ≠ [] ∧ ['.', '.'] ∉ below ∧ parts path = parts root ++ below

theorem besideOutside {above : List (List Char)} {own other : List Char}
    (rootParts : parts root = above ++ [own]) (otherParts : parts path = above ++ [other]) :
    ¬ Inside root path := by
  intro inside
  obtain ⟨below, more, _, along⟩ := inside.below
  rw [rootParts, otherParts, List.append_assoc] at along
  have lengths := congrArg List.length along
  simp at lengths
  exact more lengths

theorem absoluteHead : isAbsolute path = true ↔ path.head? = some '/' := by
  unfold isAbsolute
  split
  · simp
  · next other =>
    cases path with
    | nil => simp
    | cons c cs =>
      have differs : c ≠ '/' := fun slash => other cs (by rw [slash])
      simp [differs]

theorem absolutePieces : isAbsolute path = true ↔ ∃ p ps, pieces '/' path = [] :: p :: ps := by
  rw [absoluteHead]
  cases path with
  | nil => simp [pieces]
  | cons c cs =>
    obtain ⟨p, ps, cut⟩ := List.exists_cons_of_ne_nil (Text.piecesNonempty '/' cs)
    by_cases slash : c = '/' <;> simp [pieces, slash, cut]

/-- The pieces of a root that stay in front when a path is joined to it: not the empty one
behind a slash at its end, nor that of a root without characters. -/
inductive Leaves (root : List Char) : List (List Char) → Prop where
  | nothing (empty : root = []) : Leaves root []
  | whole {base} (given : root ≠ []) (cut : pieces '/' root = base) : Leaves root base
  | slashed {base} (given : root ≠ []) (cut : pieces '/' root = base ++ [[]]) : Leaves root base

theorem joinPieces (root : List Char) (relative : isAbsolute name = false) :
    ∃ base, Leaves root base ∧ pieces '/' (join root name) = base ++ pieces '/' name := by
  unfold join
  rw [if_neg (by simp [relative])]
  by_cases empty : root = []
  · exact ⟨[], .nothing empty, by simp [empty]⟩
  · by_cases slash : root.getLast? = some '/'
    · obtain ⟨front, rfl⟩ := List.getLast?_eq_some_iff.mp slash
      refine ⟨pieces '/' front, .slashed empty (Text.piecesAppend '/' front []), ?_⟩
      rw [if_pos (by simp), List.append_assoc]
      exact Text.piecesAppend '/' front name
    · refine ⟨pieces '/' root, .whole empty rfl, ?_⟩
      rw [if_neg (by simp [empty, slash])]
      exact Text.piecesAppend '/' root name

theorem partsLeaves (leaves : Leaves root before) : parts root = before.filter names := by
  unfold parts
  cases leaves with
  | nothing empty => rw [empty]; rfl
  | whole _ cut => rw [cut]
  | slashed _ cut =>
    rw [cut, List.filter_append]
    exact List.append_nil _

theorem joinAbsolute (relative : isAbsolute name = false) :
    isAbsolute (join root name) = isAbsolute root := by
  unfold join
  rw [if_neg (by simp [relative])]
  cases root with
  | nil => exact relative
  | cons c cs =>
    rw [Bool.eq_iff_iff, absoluteHead, absoluteHead]
    split <;> rfl

theorem leavesMember {c : Char} (leaves : Leaves root before) (apart : c ≠ '/')
    (inside : c ∈ root) : ∃ p ∈ before, c ∈ p := by
  obtain ⟨p, member, within⟩ := (Text.memPieces apart).mp inside
  cases leaves with
  | nothing empty => simp [empty] at inside
  | whole _ cut => exact ⟨p, cut ▸ member, within⟩
  | slashed _ cut =>
    rw [cut, List.mem_append] at member
    obtain member | last := member
    · exact ⟨p, member, within⟩
    · rw [List.mem_singleton.mp last] at within
      cases within

theorem leavesCut (leaves : Leaves root (before ++ n :: after))
    (nameless : ∀ p ∈ after, names p = false) : root ≠ [] ∧
    ∃ rest, pieces '/' root = before ++ n :: rest ∧ ∀ p ∈ rest, names p = false := by
  generalize whole : before ++ n :: after = base at leaves
  cases leaves with
  | nothing => simp at whole
  | whole given cut => exact ⟨given, after, cut.trans whole.symm, nameless⟩
  | slashed given cut =>
    refine ⟨given, after ++ [[]], ?_, ?_⟩
    · rw [cut, ← whole, List.append_assoc]
      rfl
    · intro p inside
      obtain inside | last := List.mem_append.mp inside
      · exact nameless p inside
      · rw [List.mem_singleton.mp last]
        rfl

def led (before : List (List Char)) : List Char := before.flatMap (· ++ ['/'])

theorem goAppend (front : List Char) : spans.go front (before ++ n :: after) =
    spans.go front before ++
      (n, front ++ led before ++ n) :: spans.go (front ++ led before ++ n ++ ['/']) after := by
  induction before generalizing front with
  | nil => simp [spans.go, led]
  | cons p ps ih => simp [spans.go, ih, led]

theorem goPieces (front : List Char) (ps : List (List Char)) :
    (spans.go front ps).map Prod.fst = ps := by
  induction ps generalizing front with
  | nil => rfl
  | cons p ps ih => rw [spans.go, List.map_cons, ih]

theorem ledPieces (free : ∀ p ∈ before, '/' ∉ p) {last : List Char} (own : '/' ∉ last) :
    pieces '/' (led before ++ last) = before ++ [last] := by
  induction before with
  | nil => exact Text.piecesWithout own
  | cons p ps ih =>
    obtain ⟨first, later⟩ := List.forall_mem_cons.mp free
    have split : led (p :: ps) ++ last = p ++ '/' :: (led ps ++ last) := by simp [led]
    rw [split, Text.piecesAppend, Text.piecesWithout first, ih later]
    rfl

theorem stemSubset : stem n ⊆ n := by
  intro c inside
  simp only [stem] at inside
  split at inside
  · exact inside
  · exact inside
  · next dot front _ cut =>
    have member : c ∈ dot :: front := List.mem_cons_of_mem _ (List.mem_reverse.mp inside)
    rw [← cut] at member
    exact List.mem_reverse.mp ((List.dropWhile_sublist _).mem member)

theorem goNameless (front : List Char) (nameless : ∀ p ∈ after, names p = false) :
    (spans.go front after).reverse.find? (fun (p, _) => names p) = none := by
  rw [List.find?_eq_none]
  intro span inside
  have member : span.1 ∈ after := by
    rw [← goPieces front after]
    exact List.mem_map_of_mem (List.mem_reverse.mp inside)
  simp [nameless span.1 member]

theorem extensionNameless (nameless : ∀ p ∈ pieces '/' path, names p = false) :
    withExtension path extension = path := by
  have lastless : lastName? path = none := by
    unfold lastName? spans
    rw [goNameless [] nameless]
  rw [withExtension, lastless]

section LastName

variable (cut : pieces '/' path = before ++ n :: after) (named : names n = true)
  (nameless : ∀ p ∈ after, names p = false)
include cut named nameless

theorem lastName : lastName? path =
    if n = ['.', '.'] then none else some (n, led before ++ n) := by
  unfold lastName? spans
  rw [cut, goAppend, List.reverse_append, List.reverse_cons, List.append_assoc,
    List.find?_append, goNameless _ nameless]
  simp [named]

theorem extensionParent (up : n = ['.', '.']) : withExtension path extension = path := by
  rw [withExtension, lastName cut named nameless, if_pos up]

theorem extensionPieces (down : n ≠ ['.', '.']) (usable : IsExtension extension) :
    ∃ last, pieces '/' (withExtension path extension) = before ++ [last] := by
  have free : ∀ p ∈ before ++ n :: after, '/' ∉ p := cut ▸ Text.piecesFree '/' path
  have stemFree : '/' ∉ stem n := fun inside => free n (by simp) (stemSubset inside)
  have again {last : List Char} (own : '/' ∉ last) :
      pieces '/' (led before ++ last) = before ++ [last] :=
    ledPieces (fun p inside => free p (List.mem_append_left _ inside)) own
  unfold withExtension
  rw [lastName cut named nameless, if_neg down]
  have front : (led before ++ n).take ((led before ++ n).length - n.length) = led before := by
    simp
  simp only [front]
  split
  · exact ⟨_, again (by simp)⟩
  · split
    · exact ⟨_, again stemFree⟩
    · rw [List.append_assoc]
      refine ⟨_, again ?_⟩
      simp [stemFree, show '/' ∉ extension from usable]

end LastName

theorem namelessParts (path : List Char) :
    parts path = [] ↔ ∀ p ∈ pieces '/' path, names p = false := by
  simp [parts, List.filter_eq_nil_iff]

theorem absoluteAlike {other last : List Char} (cut : pieces '/' path = before ++ n :: after)
    (named : names n = true) (otherCut : pieces '/' other = before ++ [last]) :
    isAbsolute other = isAbsolute path := by
  rw [Bool.eq_iff_iff, absolutePieces, absolutePieces, cut, otherCut]
  have given : n ≠ [] := by
    intro empty
    simp [names, empty] at named
  cases before with
  | nil => simp [given]
  | cons p ps => cases ps <;> simp

theorem nameEnd (ps : List (List Char)) : (∀ p ∈ ps, names p = false) ∨
    ∃ before n after, ps = before ++ n :: after ∧ names n = true ∧
      ∀ p ∈ after, names p = false := by
  induction ps with
  | nil => exact .inl (by simp)
  | cons p ps ih =>
    obtain nameless | ⟨before, n, after, rfl, named, nameless⟩ := ih
    · cases own : names p with
      | false => exact .inl (by simpa [own] using nameless)
      | true => exact .inr ⟨[], p, ps, rfl, own, nameless⟩
    · exact .inr ⟨p :: before, n, after, rfl, named, nameless⟩

end Path

namespace FileTree
open RuleBroker.Path (names)

variable {t : FileTree} {place next final : List String} {p last : List Char}
  {ps front : List (List Char)}

def Standing (t : FileTree) (place : List String) : Prop :=
  ∀ n < place.length, t.isDirectory (place.take n) = true

theorem walkAppend (t : FileTree) (place as bs : List String) :
    t.walk place (as ++ bs) = (t.walk place as).bind fun next => t.walk next bs := by
  induction as generalizing place with
  | nil => rfl
  | cons a as ih =>
    rw [List.cons_append, walk, walk, Option.bind_assoc]
    exact congrArg _ (funext fun next => ih next)

theorem stepCases (stepped : t.step place (.ofList p) = some next) :
    t.isDirectory place = true ∧
    (names p = false ∧ next = place ∨
      p = ['.', '.'] ∧ next = place.dropLast ∨
      names p = true ∧ p ≠ ['.', '.'] ∧ next = place ++ [.ofList p]) := by
  have empty : String.ofList p = "" ↔ p = [] := by simp
  have dot : String.ofList p = "." ↔ p = ['.'] := by rw [← String.toList_inj]; simp
  have dots : String.ofList p = ".." ↔ p = ['.', '.'] := by rw [← String.toList_inj]; simp
  unfold step at stepped
  simp only [empty, dot, dots] at stepped
  split at stepped
  · cases stepped
  · next directory =>
    constructor
    · simpa using directory
    · split at stepped
      · next stays =>
        left
        obtain rfl | rfl := stays <;> exact ⟨rfl, (Option.some.inj stepped).symm⟩
      · next moves =>
        obtain ⟨given, moves⟩ := not_or.mp moves
        split at stepped
        · next up => exact .inr (.inl ⟨up, (Option.some.inj stepped).symm⟩)
        · next down =>
          obtain ⟨_, moved⟩ := Option.ite_none_right_eq_some.mp stepped
          exact .inr (.inr ⟨by simp [names, given, moves], down, (Option.some.inj moved).symm⟩)

theorem standingStep (standing : t.Standing place)
    (stepped : t.step place (.ofList p) = some next) : t.Standing next := by
  obtain ⟨directory, ⟨_, rfl⟩ | ⟨_, rfl⟩ | ⟨_, _, rfl⟩⟩ := stepCases stepped
  · exact standing
  · intro n below
    rw [List.length_dropLast] at below
    rw [List.dropLast_eq_take, List.take_take, Nat.min_eq_left (by omega)]
    exact standing n (by omega)
  · intro n below
    rw [List.length_append, List.length_singleton] at below
    rw [List.take_append_of_le_length (by omega)]
    rcases Nat.lt_or_eq_of_le (Nat.le_of_lt_succ below) with less | rfl
    · exact standing n less
    · rw [List.take_length]
      exact directory

theorem standingWalk (standing : t.Standing place)
    (walked : t.walk place (ps.map .ofList) = some final) : t.Standing final := by
  induction ps generalizing place with
  | nil =>
    cases walked
    exact standing
  | cons p ps ih =>
    obtain ⟨next, stepped, walked⟩ := Option.bind_eq_some_iff.mp walked
    exact ih (standingStep standing stepped) walked

theorem walkFrom (walked : t.walk place (ps.map .ofList) = some final)
    (directory : t.isDirectory final = true) : t.isDirectory place = true := by
  cases ps with
  | nil =>
    cases walked
    exact directory
  | cons p ps =>
    obtain ⟨next, stepped, _⟩ := Option.bind_eq_some_iff.mp walked
    exact (stepCases stepped).1

theorem walkDown (down : ['.', '.'] ∉ ps)
    (walked : t.walk place (ps.map .ofList) = some final) :
    final = place ++ (ps.filter names).map .ofList := by
  induction ps generalizing place with
  | nil =>
    cases walked
    simp
  | cons p ps ih =>
    obtain ⟨here, down⟩ := not_or.mp (mt List.mem_cons.mpr down)
    obtain ⟨next, stepped, walked⟩ := Option.bind_eq_some_iff.mp walked
    rw [ih down walked]
    obtain ⟨_, ⟨nameless, rfl⟩ | ⟨up, _⟩ | ⟨named, _, rfl⟩⟩ := stepCases stepped
    · simp [nameless]
    · exact absurd up.symm here
    · simp [named]

theorem standingAbove (standing : t.Standing place) : t.isDirectory place.dropLast = true := by
  cases place with
  | nil => rfl
  | cons head rest =>
    rw [List.dropLast_eq_take]
    exact standing _ (by simp)

theorem fileEnd {content : List UInt8} (standing : t.Standing place)
    (walked : t.walk place ((front ++ [last]).map .ofList) = some final)
    (file : t.entry? final = some (.file content)) : ∃ above,
    t.walk place (front.map .ofList) = some above ∧ t.isDirectory above = true ∧
      names last = true ∧ last ≠ ['.', '.'] ∧ final = above ++ [.ofList last] := by
  rw [List.map_append, walkAppend] at walked
  obtain ⟨above, led, walked⟩ := Option.bind_eq_some_iff.mp walked
  obtain ⟨next, stepped, rfl⟩ : ∃ next, t.step above (.ofList last) = some next ∧ next = final := by
    simpa [walk] using walked
  have noDirectory : t.isDirectory next = false := by simp [isDirectory, file]
  obtain ⟨directory, ⟨_, rfl⟩ | ⟨_, rfl⟩ | ⟨named, down, rfl⟩⟩ := stepCases stepped
  · cases noDirectory.symm.trans directory
  · cases noDirectory.symm.trans (standingAbove (standingWalk standing led))
  · exact ⟨above, led, directory, named, down, rfl⟩

end FileTree

namespace FileSystem
open Text (pieces)

variable {fs : FileSystem} {path directory : String} {place : List String}
  {ps : List (List Char)} {content : List UInt8}

def Grounded (fs : FileSystem) : Prop := fs.tree.Standing fs.workingDirectory

def start (fs : FileSystem) (path : String) : List String :=
  if Path.isAbsolute path.toList then [] else fs.workingDirectory

def place? (fs : FileSystem) (path : String) : Option (List String) :=
  fs.tree.locate fs.workingDirectory path

def directory? (fs : FileSystem) (directory : String) : Option (List String) :=
  if directory.isEmpty then some fs.workingDirectory else fs.place? directory

def Inside (fs : FileSystem) (directory path : String) : Prop :=
  ∃ place below, fs.directory? directory = some place ∧ below ≠ [] ∧
    fs.place? path = some (place ++ below)

theorem standingStart (grounded : fs.Grounded) (path : String) :
    fs.tree.Standing (fs.start path) := by
  unfold start
  split
  · exact nofun
  · exact grounded

theorem startAlike {other : String}
    (absolute : Path.isAbsolute path.toList = Path.isAbsolute other.toList) :
    fs.start path = fs.start other := by
  unfold start
  rw [absolute]

theorem placeStart (given : path ≠ "") (plain : ∀ c ∈ path.toList, c.toNat ≠ 0) :
    fs.place? path = fs.tree.walk (fs.start path) ((pieces '/' path.toList).map .ofList) := by
  obtain ⟨p, ps, cut⟩ := List.exists_cons_of_ne_nil (Text.piecesNonempty '/' path.toList)
  unfold place? FileTree.locate start Text.segments
  rw [if_neg (by simpa [given] using plain), cut, List.map_cons]
  by_cases leading : p = []
  · subst leading
    have absolute : Path.isAbsolute path.toList = true := by
      refine Path.absolutePieces.mpr ?_
      cases ps with
      | nil =>
        have joined := Text.piecesJoined '/' path.toList
        rw [cut] at joined
        exact absurd (String.toList_eq_nil_iff.mp joined.symm) given
      | cons q qs => exact ⟨q, qs, cut⟩
    rw [if_pos absolute]
    rfl
  · have relative : ¬ Path.isAbsolute path.toList = true := by
      intro absolute
      obtain ⟨q, qs, other⟩ := Path.absolutePieces.mp absolute
      exact leading (List.cons.inj (cut.symm.trans other)).1
    rw [if_neg relative]
    split
    · next led =>
      have first := (List.cons.inj led).1
      exact absurd (by simpa using first) leading
    · rfl

theorem placeWalk : fs.place? path = some place ↔
    path ≠ "" ∧ (∀ c ∈ path.toList, c.toNat ≠ 0) ∧
      fs.tree.walk (fs.start path) ((pieces '/' path.toList).map .ofList) = some place := by
  by_cases usable : path ≠ "" ∧ ∀ c ∈ path.toList, c.toNat ≠ 0
  · rw [placeStart usable.1 usable.2]
    exact ⟨fun walked => ⟨usable.1, usable.2, walked⟩, fun walked => walked.2.2⟩
  · constructor
    · intro located
      unfold place? FileTree.locate at located
      rw [if_pos] at located
      · cases located
      · by_contra taken
        simp at taken
        exact usable taken
    · intro walked
      exact absurd ⟨walked.1, walked.2.1⟩ usable

theorem fileWalk (grounded : fs.Grounded) (file : (fs.file? path).isSome) :
    ∃ front last above, pieces '/' path.toList = front ++ [last] ∧
      Path.names last = true ∧ last ≠ ['.', '.'] ∧
      fs.tree.walk (fs.start path) (front.map .ofList) = some above ∧
      fs.tree.isDirectory above = true ∧ fs.place? path = some (above ++ [.ofList last]) := by
  obtain ⟨content, found⟩ := Option.isSome_iff_exists.mp file
  obtain ⟨place, located, entry⟩ : ∃ place, fs.place? path = some place ∧
      fs.tree.entry? place = some (.file content) := by
    unfold file? FileTree.file? at found
    split at found
    · next held entry =>
      cases found
      exact Option.bind_eq_some_iff.mp entry
    · cases found
  obtain ⟨front, last, cut⟩ : ∃ front last, pieces '/' path.toList = front ++ [last] :=
    ⟨_, _, (List.dropLast_concat_getLast (Text.piecesNonempty '/' path.toList)).symm⟩
  obtain ⟨_, _, walked⟩ := placeWalk.mp located
  rw [cut] at walked
  obtain ⟨above, led, directory, named, down, rfl⟩ :=
    FileTree.fileEnd (standingStart grounded path) walked entry
  exact ⟨front, last, above, cut, named, down, led, directory, located⟩

end FileSystem

namespace FileStore
open Text (pieces)

variable {s : FileStore} {fs : FileSystem} {name path : String} {n last : List Char}
  {base before after front : List (List Char)}

/- The place looked at ends in a name, so what was joined does not end in a parent, and all
pieces but that name are those that were joined. -/
theorem candidateFront
    (cut : pieces '/' (Path.join s.root.toList name.toList) = before ++ n :: after)
    (named : Path.names n = true) (nameless : ∀ p ∈ after, Path.names p = false)
    (usable : Path.IsExtension s.extension.toList)
    (ends : pieces '/' (s.candidate name).toList = front ++ [last])
    (own : Path.names last = true) (down : last ≠ ['.', '.']) :
    n ≠ ['.', '.'] ∧ front = before := by
  unfold candidate at ends
  rw [String.toList_ofList] at ends
  by_cases up : n = ['.', '.']
  · rw [Path.extensionParent cut named nameless up, cut] at ends
    obtain rfl | ⟨tail, final, rfl⟩ := List.eq_nil_or_concat' after
    · have same := (List.append_inj' ends rfl).2
      cases same
      exact absurd up down
    · have regrouped : before ++ n :: (tail ++ [final]) = (before ++ n :: tail) ++ [final] := by
        simp
      cases (List.append_inj' (regrouped.symm.trans ends) rfl).2
      have silent := nameless last (by simp)
      cases own.symm.trans silent
  · obtain ⟨final, changed⟩ := Path.extensionPieces cut named nameless up usable
    exact ⟨up, (List.append_inj' (ends.symm.trans changed) rfl).1⟩

theorem candidateAbsolute (relative : Path.isAbsolute name.toList = false)
    (cut : pieces '/' (Path.join s.root.toList name.toList) = before ++ n :: after)
    (named : Path.names n = true)
    (ends : pieces '/' (s.candidate name).toList = before ++ [last]) :
    Path.isAbsolute (s.candidate name).toList = Path.isAbsolute s.root.toList :=
  (Path.absoluteAlike cut named ends).trans (Path.joinAbsolute relative)

theorem rootPlace {root : String} {place : List String} (leaves : Path.Leaves root.toList base)
    (walked : fs.tree.walk (fs.start root) (base.map .ofList) = some place)
    (directory : fs.tree.isDirectory place = true) (plain : ∀ c ∈ root.toList, c.toNat ≠ 0) :
    fs.directory? root = some place := by
  unfold FileSystem.directory?
  cases leaves with
  | nothing empty =>
    cases String.toList_eq_nil_iff.mp empty
    exact walked
  | whole given cut =>
    rw [if_neg (by simpa using given), FileSystem.placeStart (by simpa using given) plain, cut]
    exact walked
  | slashed given cut =>
    rw [if_neg (by simpa using given), FileSystem.placeStart (by simpa using given) plain, cut,
      List.map_append, FileTree.walkAppend, walked]
    simp [FileTree.walk, FileTree.step, directory]

section Found

variable (grounded : fs.Grounded) (relative : Path.isAbsolute name.toList = false)
  (usable : Path.IsExtension s.extension.toList) (file : (fs.file? (s.candidate name)).isSome)
include grounded relative usable file

theorem foundNamed (descends : ['.', '.'] ∉ pieces '/' name.toList)
    (own : Path.parts name.toList ≠ []) :
    Path.Inside s.root.toList (s.candidate name).toList ∧ fs.Inside s.root (s.candidate name) := by
  obtain ⟨base, leaves, joined⟩ := Path.joinPieces s.root.toList relative
  obtain ⟨before, n, after, cut, named, nameless⟩ : ∃ before n after,
      pieces '/' name.toList = before ++ n :: after ∧ Path.names n = true ∧
        ∀ p ∈ after, Path.names p = false :=
    (Path.nameEnd _).resolve_left (mt (Path.namelessParts _).mpr own)
  rw [cut, ← List.append_assoc] at joined
  obtain ⟨front, last, above, ends, lastNamed, down, walked, directory, located⟩ :=
    FileSystem.fileWalk grounded file
  obtain ⟨_, rfl⟩ := candidateFront joined named nameless usable ends lastNamed down
  have absolute := candidateAbsolute relative joined named ends
  have beforeDown : ['.', '.'] ∉ before := by
    intro inside
    rw [cut] at descends
    exact descends (List.mem_append_left _ inside)
  constructor
  · refine ⟨absolute, before.filter Path.names ++ [last], by simp, ?_, ?_⟩
    · simp [beforeDown, Ne.symm down]
    · rw [Path.partsLeaves leaves]
      unfold Path.parts
      rw [ends]
      simp [lastNamed]
  · rw [FileSystem.startAlike absolute, List.map_append, FileTree.walkAppend] at walked
    obtain ⟨place, rooted, below⟩ := Option.bind_eq_some_iff.mp walked
    have plain : ∀ c ∈ s.root.toList, c.toNat ≠ 0 := by
      intro c inside zero
      have apart : c ≠ '/' := by
        intro slash
        rw [slash] at zero
        cases zero
      obtain ⟨p, kept, within⟩ := Path.leavesMember leaves apart inside
      have member : c ∈ (s.candidate name).toList :=
        (Text.memPieces apart).mpr ⟨p, by simp [ends, kept], within⟩
      exact (FileSystem.placeWalk.mp located).2.1 c member zero
    refine ⟨place, (before.filter Path.names).map .ofList ++ [.ofList last],
      rootPlace leaves rooted (FileTree.walkFrom below directory) plain, by simp, ?_⟩
    rw [located, FileTree.walkDown beforeDown below, List.append_assoc]

theorem foundNameless (nameless : Path.parts name.toList = []) :
    (∃ above own other, Path.parts s.root.toList = above ++ [own] ∧
      Path.parts (s.candidate name).toList = above ++ [other]) ∧
    ¬ fs.Inside s.root (s.candidate name) := by
  obtain ⟨base, leaves, joined⟩ := Path.joinPieces s.root.toList relative
  have silent := (Path.namelessParts name.toList).mp nameless
  obtain ⟨front, last, above, ends, lastNamed, down, walked, _, located⟩ :=
    FileSystem.fileWalk grounded file
  obtain baseless | ⟨before, n, after, rfl, named, behind⟩ := Path.nameEnd base
  · have all : ∀ p ∈ pieces '/' (Path.join s.root.toList name.toList), Path.names p = false := by
      intro p inside
      rw [joined] at inside
      exact (List.mem_append.mp inside).elim (baseless p) (silent p)
    have same : (s.candidate name).toList = Path.join s.root.toList name.toList := by
      rw [candidate, String.toList_ofList, Path.extensionNameless all]
    have lastSilent := all last (by rw [← same, ends]; simp)
    cases lastNamed.symm.trans lastSilent
  · rw [List.append_assoc, List.cons_append] at joined
    have joinedBehind : ∀ p ∈ after ++ pieces '/' name.toList, Path.names p = false :=
      fun p inside => (List.mem_append.mp inside).elim (behind p) (silent p)
    obtain ⟨nDown, rfl⟩ := candidateFront joined named joinedBehind usable ends lastNamed down
    constructor
    · refine ⟨front.filter Path.names, n, last, ?_, ?_⟩
      · have unnamed : after.filter Path.names = [] :=
          List.filter_eq_nil_iff.mpr (by simpa using behind)
        rw [Path.partsLeaves leaves]
        simp [named, unnamed]
      · unfold Path.parts
        rw [ends]
        simp [lastNamed]
    · intro inside
      obtain ⟨place, below, rootAt, more, foundAt⟩ := inside
      obtain ⟨given, rest, rootCut, restBehind⟩ := Path.leavesCut leaves behind
      have rootPlaced : fs.place? s.root = some place := by
        rw [← rootAt, FileSystem.directory?, if_neg (by simpa using given)]
      obtain ⟨_, _, rootWalked⟩ := FileSystem.placeWalk.mp rootPlaced
      have absolute := candidateAbsolute relative joined named ends
      rw [FileSystem.startAlike absolute] at walked
      rw [rootCut, List.map_append, FileTree.walkAppend, walked] at rootWalked
      have restDown : ['.', '.'] ∉ n :: rest := by
        intro parent
        obtain up | parent := List.mem_cons.mp parent
        · exact nDown up.symm
        · cases restBehind _ parent
      have unnamed : rest.filter Path.names = [] :=
        List.filter_eq_nil_iff.mpr (by simpa using restBehind)
      have beside : place = above ++ [.ofList n] := by
        rw [FileTree.walkDown restDown rootWalked]
        simp [named, unnamed]
      have same := Option.some.inj (located.symm.trans foundAt)
      rw [beside, List.append_assoc] at same
      have lengths := congrArg List.length same
      simp at lengths
      exact more lengths

end Found

/-- A file found through the root is inside the root exactly where its name has a name of its
own. -/
theorem foundInsideWhereNamed (grounded : fs.Grounded)
    (relative : Path.isAbsolute name.toList = false)
    (descends : ['.', '.'] ∉ pieces '/' name.toList)
    (resolved : s.resolve fs name = .ok path) (other : path ≠ name) :
    (Path.Inside s.root.toList path.toList ↔ Path.parts name.toList ≠ []) ∧
    (fs.Inside s.root path ↔ Path.parts name.toList ≠ []) ∧
    (Path.parts name.toList = [] → ∃ above own other,
      Path.parts s.root.toList = above ++ [own] ∧ Path.parts path.toList = above ++ [other]) := by
  cases resolveOk.mp resolved with
  | itself => exact absurd rfl other
  | below missing usable file =>
    by_cases nameless : Path.parts name.toList = []
    · obtain ⟨beside, outside⟩ := foundNameless grounded relative usable file nameless
      obtain ⟨above, own, other, rootParts, otherParts⟩ := beside
      have apart := Path.besideOutside rootParts otherParts
      exact ⟨by simp [nameless, apart], by simp [nameless, outside],
        fun _ => ⟨above, own, other, rootParts, otherParts⟩⟩
    · obtain ⟨along, inside⟩ := foundNamed grounded relative usable file descends nameless
      simp [along, inside, nameless]

theorem nestedNameFoundInside :
    let fs : FileSystem := ⟨⟨[(["home"], .directory), (["home", "rules"], .directory),
      (["home", "rules", "deep"], .directory),
      (["home", "rules", "deep", "flat.json"], .file [])]⟩, ["home"]⟩
    let s : FileStore := { root := "rules/" }
    fs.Grounded ∧ Path.isAbsolute "deep/.//flat.rules/".toList = false ∧
      ['.', '.'] ∉ pieces '/' "deep/.//flat.rules/".toList ∧
      s.resolve fs "deep/.//flat.rules/" = .ok "rules/deep/.//flat.json" ∧
      fs.Inside s.root "rules/deep/.//flat.json" := by
  intro fs s
  have grounded : fs.Grounded := by
    unfold FileSystem.Grounded FileTree.Standing
    decide +kernel
  have resolved : s.resolve fs "deep/.//flat.rules/" = .ok "rules/deep/.//flat.json" := by
    decide +kernel
  have relative : Path.isAbsolute "deep/.//flat.rules/".toList = false := by decide +kernel
  have descends : ['.', '.'] ∉ pieces '/' "deep/.//flat.rules/".toList := by decide +kernel
  obtain ⟨_, inside, _⟩ :=
    foundInsideWhereNamed grounded relative descends resolved (by decide +kernel)
  exact ⟨grounded, relative, descends, resolved, inside.mpr (by decide +kernel)⟩

theorem emptyNameFoundBesideRoot :
    let fs : FileSystem := ⟨⟨[(["Rules"], .directory), (["Rules.json"], .file [])]⟩, []⟩
    let s : FileStore := { root := "Rules" }
    fs.Grounded ∧ Path.IsExtension s.extension.toList ∧ Path.isAbsolute "".toList = false ∧
      ['.', '.'] ∉ pieces '/' "".toList ∧ s.resolve fs "" = .ok "Rules.json" ∧
      "Rules.json" ≠ "" ∧ ¬ Path.Inside s.root.toList "Rules.json".toList ∧
      ¬ fs.Inside s.root "Rules.json" := by
  intro fs s
  have grounded : fs.Grounded := by
    unfold FileSystem.Grounded FileTree.Standing
    decide +kernel
  have beside : s.candidate "" = "Rules.json" := by decide +kernel
  have file : (fs.file? (s.candidate "")).isSome := by
    rw [beside]
    decide +kernel
  obtain ⟨⟨above, own, other, rootParts, otherParts⟩, outside⟩ :=
    foundNameless grounded (by decide +kernel) (by decide +kernel) file
      (by decide +kernel)
  rw [beside] at otherParts outside
  exact ⟨grounded, by decide +kernel, by decide +kernel, by decide +kernel, by decide +kernel,
    by decide +kernel, Path.besideOutside rootParts otherParts, outside⟩

end FileStore
end RuleBroker
