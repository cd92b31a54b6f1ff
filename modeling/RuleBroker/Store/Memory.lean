import RuleBroker.Value.Reader
import RuleBroker.Workflow.Written
import RuleBroker.RuleError
/-! Rule documents, the text of a list of workflows or of one workflow alone, and workflows kept
under names. What is put under a name replaces what was there. -/
namespace RuleBroker

namespace Document

inductive Fault where
  | notJson
  | mismatch
  deriving DecidableEq, Repr

def Fault.message : Fault → String
  | .notJson => "<json>"
  | .mismatch => "data did not match any variant of untagged enum WorkflowDocument"

def readMany (v : Value) : Option (List Workflow) := (Workflow.readAll v).toOption
def readOne (v : Value) : Option (List Workflow) := (Workflow.read v).toOption.map fun w => [w]

def read (v : Value) : Option (List Workflow) := readMany v <|> readOne v

/-- A value of the wrong shape is reported before what stands behind the value. -/
def ofText (s : String) : Except Fault (List Workflow) :=
  match Value.readFirst s with
  | none => .error .notJson
  | some (v, rest) =>
    match read v with
    | none => .error .mismatch
    | some ws => if (Value.Reader.skipSpaces rest).isEmpty then .ok ws else .error .notJson

end Document

structure MemoryStore where
  entries : List (String × List Workflow) := []

namespace MemoryStore

def find? (s : MemoryStore) (name : String) : Option (List Workflow) :=
  Fields.find name s.entries

def insert (s : MemoryStore) (name : String) (workflows : List Workflow) : MemoryStore :=
  ⟨Fields.put name workflows s.entries⟩

def load (s : MemoryStore) (name text : String) : Except RuleError (Nat × MemoryStore) :=
  match Document.ofText text with
  | .ok workflows => .ok (workflows.length, s.insert name workflows)
  | .error fault => .error (.unparsable name fault.message)

def erase (s : MemoryStore) (name : String) : MemoryStore :=
  ⟨s.entries.filter fun (other, _) => other ≠ name⟩

def contains (s : MemoryStore) (name : String) : Bool := (s.find? name).isSome
def size (s : MemoryStore) : Nat := s.entries.length
def isEmpty (s : MemoryStore) : Bool := s.size = 0

def read (s : MemoryStore) : List String → Except RuleError (List Workflow)
  | [] => .ok []
  | name :: rest =>
    match s.find? name with
    | none => .error (.notFound name "memory")
    | some workflows => do .ok (workflows ++ (← s.read rest))

end MemoryStore
end RuleBroker
