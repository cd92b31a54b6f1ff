import RuleBroker.Binary64.Text
import RuleBroker.Value
import RuleBroker.Settings.Source
import RuleBroker.Settings.Layer
import RuleBroker.Store.Files
/-! The settings of a service. They come in layers, a later one over the earlier ones: what the
caller names, three files of a directory, and environment variables. Which values stand for a text, a
count, a truth value or a list is said for all of them at once. -/
namespace RuleBroker

namespace Settings

def truthText (b : Bool) : String := if b then "true" else "false"

def asText : Value → Option String
  | .text s => some s
  | .int n => some (String.ofList (Text.integer n))
  | .float x => some (String.ofList x.plainText)
  | .bool b => some (truthText b)
  | _ => none

def wordTruth (s : String) : Option Bool :=
  let word := String.ofList (s.toList.map Char.toLower)
  if ["true", "on", "yes"].contains word then some true
  else if ["false", "off", "no"].contains word then some false
  else none

def greatestCount : Nat := twoTo 64 - 1

/-- A float counts as the nearest whole number within the range of counts, a half away
from zero. -/
def asCount : Value → Option Nat
  | .int n => if 0 ≤ n then some n.toNat else none
  | .float x => some (x.roundAway.wholeWithin 0 greatestCount).toNat
  | .bool b => some (if b then 1 else 0)
  | .text s =>
    match wordTruth s with
    | some b => some (if b then 1 else 0)
    | none => Text.readU64 s.toList
  | _ => none

/-- A number is true unless it is zero; of the digits in texts only one and zero are
words for truth values. -/
def asTruth : Value → Option Bool
  | .bool b => some b
  | .int n => some (n ≠ 0)
  | .float x => some !x.isZero
  | .text s => if s = "1" then some true else if s = "0" then some false else wordTruth s
  | _ => none

def asTexts : Value → Option (List String)
  | .list items => items.mapM asText
  | _ => none

inductive Section where
  | table (fields : List (String × Value))
  | places (items : List Value)

namespace Section

def ofValue? : Value → Option Section
  | .object fields => some (.table fields)
  | .list items => some (.places items)
  | _ => none

def entry? (s : Section) (place : Nat) (name : String) : Option Value :=
  match s with
  | .table fields => Fields.find name fields
  | .places items => items[place]?

def get (s : Section) (place : Nat) (name : String) (read : Value → Option α) (default : α) :
    Option α :=
  match s.entry? place name with
  | none => some default
  | some v => read v

end Section

end Settings

structure RepositorySettings where
  rootDirectory : String := "Rules"
  defaultExtension : String := "json"
  deriving DecidableEq, Repr

namespace RepositorySettings

def resolvedRoot (r : RepositorySettings) (fs : FileSystem) : String :=
  String.ofList (Path.join fs.here.toList r.rootDirectory.toList)

def store (r : RepositorySettings) (fs : FileSystem) : FileStore :=
  { root := r.resolvedRoot fs, extension := r.defaultExtension }

end RepositorySettings

structure BrokerSettings where
  workflows : List String := []
  progressMilliseconds : Nat := 1000
  deriving DecidableEq, Repr

namespace BrokerSettings

def intervalSeconds (b : BrokerSettings) : Nat := b.progressMilliseconds / 1000

def intervalNanoseconds (b : BrokerSettings) : Nat := b.progressMilliseconds % 1000 * tenTo 6

end BrokerSettings

structure LogSettings where
  serviceName : String := "rules-broker"
  level : String := "info"
  json : Bool := false
  deriving DecidableEq, Repr

namespace LogSettings

def ofVariables (serviceName : String) (level json : Option String) : LogSettings where
  serviceName
  level := level.getD "info"
  json := json = some "true" || json = some "1"

def withServiceName (s : LogSettings) (name : String) : LogSettings :=
  { s with serviceName := name }

end LogSettings

structure Settings where
  serviceName : String := ""
  environment : String := ""
  repository : RepositorySettings := {}
  broker : BrokerSettings := {}
  log : LogSettings := {}
  deriving DecidableEq, Repr

namespace Settings

def isProduction (s : Settings) : Bool := s.environment = "production"

inductive Fault where
  | unparsable (path : String)
  | unfit
  deriving DecidableEq, Repr

def readRepository (v : Value) : Option RepositorySettings := do
  let s ← Section.ofValue? v
  let standard : RepositorySettings := {}
  some {
    rootDirectory := ← s.get 0 "root_dir" asText standard.rootDirectory
    defaultExtension := ← s.get 1 "default_extension" asText standard.defaultExtension }

def readBroker (v : Value) : Option BrokerSettings := do
  let s ← Section.ofValue? v
  let standard : BrokerSettings := {}
  some {
    workflows := ← s.get 0 "workflows" asTexts standard.workflows
    progressMilliseconds :=
      ← s.get 1 "progress_interval_ms" asCount standard.progressMilliseconds }

def readLog (v : Value) : Option LogSettings := do
  let s ← Section.ofValue? v
  let standard : LogSettings := {}
  some {
    serviceName := ← s.get 0 "service_name" asText standard.serviceName
    level := ← s.get 1 "log_level" asText standard.level
    json := ← s.get 2 "json_logs" asTruth standard.json }

def ofValue? (v : Value) : Option Settings := do
  let s ← Section.ofValue? v
  some {
    serviceName := ← s.get 0 "service_name" asText ""
    environment := ← s.get 1 "environment" asText ""
    repository := ← s.get 2 "repository" readRepository {}
    broker := ← s.get 3 "broker" readBroker {}
    log := ← s.get 4 "observability" readLog {} }

def seeds (serviceName environment : String) : Layer :=
  ⟨[("service_name", .text serviceName), ("environment", .text environment),
    ("observability.service_name", .text serviceName)]⟩

def fileLayer (fs : FileSystem) (directory name : String) : Except Fault Layer :=
  match SourceFile.find? fs directory name with
  | none => .ok {}
  | some file =>
    match file.layer? with
    | some layer => .ok layer
    | none => .error (.unparsable file.path)

/-- The settings of a service in an environment, from the files of a directory: first the
common file, then the environment's, then the service's, and the variables over all. What
they bring together comes over what the caller names. -/
def loadFrom (fs : FileSystem) (env : Variables)
    (directory serviceName environment : String) : Except Fault Settings := do
  let common ← fileLayer fs directory "default"
  let ofEnvironment ← fileLayer fs directory environment
  let ofService ← fileLayer fs directory serviceName
  let given := Layer.ofValue (Layer.merge [common, ofEnvironment, ofService, env.layer])
  match ofValue? (Layer.merge [seeds serviceName environment, given]) with
  | some s => .ok s
  | none => .error .unfit

def load (fs : FileSystem) (env : Variables) (serviceName : String) :
    Except Fault Settings :=
  loadFrom fs env ((env.get? "CONFIG_DIR").getD "config") serviceName
    ((env.get? "RULES_ENV").getD "development")

end Settings
end RuleBroker
