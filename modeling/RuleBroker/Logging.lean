import RuleBroker.Logging.Filter
import RuleBroker.Settings
import RuleBroker.Value
/-! Logging of a process. It is set up at most once, and says so in its first record. -/
namespace RuleBroker

namespace Logging

structure Record where
  level : Level
  target : String
  message : String
  fields : List (String × Value)

inductive Style where
  | values
  | lines
  deriving DecidableEq, Repr

/-- The filter of a process: what is wanted if that is one, else the level of the
settings if that is one, else all from information up. -/
def chosenFilter (wanted : Option String) (settings : LogSettings) : Filter :=
  ((wanted.bind Filter.read).or (Filter.read settings.level)).getD (.atLevel .info)

def ready (settings : LogSettings) : Record where
  level := .info
  target := "rules_shared::observability"
  message := "可观测性初始化完成"
  fields := [("service", .text settings.serviceName), ("json_logs", .bool settings.json)]

namespace Record

def names (r : Record) : List String := "message" :: r.fields.map (·.1)

def toValue (r : Record) : Value :=
  .object [("fields", .object (Fields.ofList (("message", .text r.message) :: r.fields))),
    ("level", .text r.level.name), ("target", .text r.target)]

def fieldText : Value → String
  | .text s => s
  | v => v.toText

def text (r : Record) : String :=
  r.fields.foldl (fun s (name, v) => s ++ " " ++ name ++ "=" ++ fieldText v)
    (r.level.name ++ " " ++ r.target ++ ": " ++ r.message)

def lineCount (r : Record) : Nat :=
  (Text.pieces '\n' r.text.toList).countP fun line => (Text.trim line) ≠ []

end Record

end Logging

structure Logging where
  style : Logging.Style
  filter : Logging.Filter
  records : List Logging.Record := []

namespace Logging

def log (l : Logging) (r : Record) : Logging :=
  if l.filter.passes r.target r.names r.level then { l with records := l.records ++ [r] } else l

def start (held : Option Logging) (wanted : Option String) (settings : LogSettings) :
    Option Logging :=
  match held with
  | some _ => none
  | none =>
    some <| log { style := if settings.json then .values else .lines,
                  filter := chosenFilter wanted settings } (ready settings)

def values (l : Logging) : List Value :=
  if l.style = .values then l.records.map Record.toValue else []

def lineCount (l : Logging) : Nat :=
  match l.style with
  | .values => l.records.length
  | .lines => l.records.foldl (fun n r => n + r.lineCount) 0

end Logging
end RuleBroker
