import RuleBroker.Text.Segments
/-! A tree of files as a list of absolute places, and which file a path leads to. -/
namespace RuleBroker

inductive FileEntry where
  | directory
  | file (content : List UInt8)
  deriving DecidableEq, Repr

structure FileTree where
  entries : List (List String × FileEntry) := []

namespace FileTree

def entry? (t : FileTree) (place : List String) : Option FileEntry :=
  if place = [] then some .directory else t.entries.lookup place

def isDirectory (t : FileTree) (place : List String) : Bool :=
  t.entry? place = some .directory

def step (t : FileTree) (place : List String) (piece : String) : Option (List String) :=
  if !t.isDirectory place then none
  else if piece = "" ∨ piece = "." then some place
  else if piece = ".." then some place.dropLast
  else if (t.entry? (place ++ [piece])).isSome then some (place ++ [piece])
  else none

def walk (t : FileTree) (place : List String) : List String → Option (List String)
  | [] => some place
  | piece :: rest => (t.step place piece).bind fun next => t.walk next rest

/-- The place that a path leads to from a working directory. A path without characters
leads nowhere, nor does one with a NUL. -/
def locate (t : FileTree) (workingDirectory : List String) (path : String) :
    Option (List String) :=
  if path.isEmpty ∨ path.toList.any (·.toNat = 0) then none
  else match Text.segments '/' path with
    | "" :: rest => t.walk [] rest
    | pieces => t.walk workingDirectory pieces

def file? (t : FileTree) (workingDirectory : List String) (path : String) :
    Option (List UInt8) :=
  match (t.locate workingDirectory path).bind t.entry? with
  | some (.file content) => some content
  | _ => none

def put (t : FileTree) (place : List String) (e : FileEntry) : FileTree :=
  ⟨(place, e) :: t.entries.filter fun (other, _) => other ≠ place⟩

def makeParents (t : FileTree) (place : List String) : FileTree :=
  (List.range place.length).foldl (fun t n =>
    let parent := place.take n
    if (t.entry? parent).isSome then t else t.put parent .directory) t

def write? (t : FileTree) (workingDirectory : List String) (path : String)
    (content : List UInt8) : Option FileTree :=
  match t.locate workingDirectory path with
  | some place => if t.isDirectory place then none else some (t.put place (.file content))
  | none =>
    match (Text.segments '/' path).reverse with
    | [] => none
    | name :: front =>
      if name = "" ∨ name = "." ∨ name = ".." ∨ path.toList.any (·.toNat = 0) then none
      else
        let parent := match front.reverse with
          | [] => some workingDirectory
          | "" :: rest => t.walk [] rest
          | pieces => t.walk workingDirectory pieces
        parent.bind fun place =>
          if t.isDirectory place then some (t.put (place ++ [name]) (.file content)) else none

end FileTree

structure FileSystem where
  tree : FileTree := {}
  workingDirectory : List String := []

namespace FileSystem

def file? (fs : FileSystem) (path : String) : Option (List UInt8) :=
  fs.tree.file? fs.workingDirectory path

def here (fs : FileSystem) : String := "/" ++ "/".intercalate fs.workingDirectory

end FileSystem
end RuleBroker
