import RuleBroker.Text.Segments
import RuleBroker.RuleError
import RuleBroker.Store.FileTree
import RuleBroker.Store.Memory
/-! Workflows in files. A name is first taken as a path of its own; if no file is there it is looked
for below the root with the store's extension. A path is cut at its slashes; empty pieces and single
dots name nothing. -/
namespace RuleBroker

namespace Path

def isAbsolute (path : List Char) : Bool :=
  match path with
  | '/' :: _ => true
  | _ => false

def join (base path : List Char) : List Char :=
  if isAbsolute path then path
  else if base.isEmpty || base.getLast? = some '/' then base ++ path
  else base ++ '/' :: path

def spans (path : List Char) : List (List Char × List Char) :=
  go [] (Text.pieces '/' path)
where
  go (before : List Char) : List (List Char) → List (List Char × List Char)
    | [] => []
    | p :: ps => (p, before ++ p) :: go (before ++ p ++ ['/']) ps

def names (piece : List Char) : Bool := !piece.isEmpty && piece ≠ ['.']

def lastName? (path : List Char) : Option (List Char × List Char) :=
  match (spans path).reverse.find? fun (piece, _) => names piece with
  | some (piece, upTo) => if piece = ['.', '.'] then none else some (piece, upTo)
  | none => none

def stem (name : List Char) : List Char :=
  let reversed := name.reverse
  match reversed.dropWhile (· ≠ '.') with
  | [] => name
  | [_] => name
  | _ :: front => front.reverse

/-- The path with another extension of its last name, what stands behind the name
being cut. A path without a last name is kept. At the end of a path an extension behind
two dots is dropped first, and with the parent that is left nothing more is done. -/
def withExtension (path extension : List Char) : List Char :=
  match lastName? path with
  | none => path
  | some (name, upTo) =>
    let front := upTo.take (upTo.length - name.length)
    if stem name = ['.'] ∧ upTo.length = path.length then front ++ ['.', '.']
    else if extension.isEmpty then front ++ stem name
    else front ++ stem name ++ '.' :: extension

def IsExtension (extension : List Char) : Prop := '/' ∉ extension

instance (extension : List Char) : Decidable (IsExtension extension) := by
  unfold IsExtension; infer_instance

end Path

structure FileStore where
  root : String
  extension : String := "json"
  deriving DecidableEq, Repr

namespace FileStore

/-- A store refuses a name, or cannot even build the path to look at. -/
inductive Fault where
  | unusableExtension
  | refused (e : RuleError)
  deriving DecidableEq, Repr

def candidate (s : FileStore) (name : String) : String :=
  String.ofList (Path.withExtension (Path.join s.root.toList name.toList) s.extension.toList)

def resolve (s : FileStore) (fs : FileSystem) (name : String) : Except Fault String :=
  if (fs.file? name).isSome then .ok name
  else if ¬ Path.IsExtension s.extension.toList then .error .unusableExtension
  else if (fs.file? (s.candidate name)).isSome then .ok (s.candidate name)
  else .error (.refused (.notFound name (s.candidate name)))

def readFile (fs : FileSystem) (path : String) : Except RuleError (List Workflow) :=
  match fs.file? path with
  | none => .error (.unreadable path "No such file or directory (os error 2)")
  | some content =>
    match String.fromUTF8? ⟨content.toArray⟩ with
    | none => .error (.unreadable path "stream did not contain valid UTF-8")
    | some text =>
      match Document.ofText text with
      | .ok workflows => .ok workflows
      | .error fault => .error (.unparsable path fault.message)

def readOne (s : FileStore) (fs : FileSystem) (name : String) : Except Fault (List Workflow) := do
  let path ← s.resolve fs name
  match readFile fs path with
  | .ok workflows => .ok workflows
  | .error e => .error (.refused e)

def read (s : FileStore) (fs : FileSystem) : List String → Except Fault (List Workflow)
  | [] => .ok []
  | name :: rest => do
    let workflows ← s.readOne fs name
    .ok (workflows ++ (← s.read fs rest))

end FileStore
end RuleBroker
