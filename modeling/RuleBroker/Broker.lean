import RuleBroker.Function
import RuleBroker.Record
import RuleBroker.Result
import RuleBroker.Workflow
/-! The broker: it configures an evaluator with workflows and functions, runs batches of records
through it one at a time, and counts by workflow what it does. Configuring is all or nothing, and a
batch keeps to the configuration it began with. -/
namespace RuleBroker

inductive Metric where
  | recordsProcessed
  | recordEvaluation
  | resultsProduced
  | ruleFailures
  deriving DecidableEq, Repr

inductive Metric.Kind where
  | counter
  | histogram
  deriving DecidableEq, Repr

namespace Metric

def Kind.text : Kind → String
  | counter => "counter"
  | histogram => "histogram"

def all : List Metric := [recordsProcessed, recordEvaluation, resultsProduced, ruleFailures]

def name : Metric → String
  | recordsProcessed => "rules_records_processed_total"
  | recordEvaluation => "rules_record_evaluation_seconds"
  | resultsProduced => "rules_results_total"
  | ruleFailures => "rules_rule_failures_total"

def kind : Metric → Kind
  | recordEvaluation => .histogram
  | _ => .counter

def unit? : Metric → Option String
  | recordEvaluation => some "seconds"
  | _ => none

def description : Metric → String
  | recordsProcessed => "Total number of records whose rules evaluation completed"
  | recordEvaluation => "Evaluator time spent on a single record"
  | resultsProduced => "Total number of rule result nodes produced, sub-results included"
  | ruleFailures => "Total number of failed rule or sub-rule results"

end Metric

structure Series where
  metric : Metric
  workflow : String
  deriving DecidableEq, Repr

def Series.label (s : Series) : String :=
  s.metric.name ++ "\x7bworkflow=" ++ s.workflow ++ "\x7d"

structure Metrics where
  totals : List (Series × Nat) := []
  deriving DecidableEq, Repr

namespace Metrics

def total (m : Metrics) (s : Series) : Nat := (m.totals.lookup s).getD 0

def addTo (s : Series) (n : Nat) : List (Series × Nat) → List (Series × Nat)
  | [] => [(s, n)]
  | (other, held) :: rest =>
    if s = other then (other, held + n) :: rest else (other, held) :: addTo s n rest

def add (m : Metrics) (metric : Metric) (workflow : String) (n : Nat) : Metrics :=
  ⟨addTo ⟨metric, workflow⟩ n m.totals⟩

def ofKind (m : Metrics) (kind : Metric.Kind) : List (Series × Nat) :=
  m.totals.filter fun (s, _) => s.metric.kind = kind

end Metrics

/-- A configured evaluator: outcomes of a workflow on a record's view, or none at all. -/
abbrev Handle := String → RecordView → Except RuleError (Option (List Outcome))

abbrev Evaluator := List Workflow → Registry → Except RuleError Handle

abbrev RuleSource := List String → Except RuleError (List Workflow)

structure Setup where
  source : RuleSource
  evaluator : Evaluator
  names : List String

structure Configuration where
  handle : Handle
  defaultWorkflow : String
  workflows : List String

namespace Configuration

def outcomes (c : Configuration) (workflow : String) (r : Record) :
    Except RuleError (Option (List Outcome)) := do
  c.handle workflow (← r.view)

def chosen (c : Configuration) (workflow : Option String) : String :=
  workflow.getD c.defaultWorkflow

def Admits (c : Configuration) (workflow : Option String) : Prop :=
  c.chosen workflow ∈ c.workflows

instance (c : Configuration) (workflow : Option String) : Decidable (c.Admits workflow) :=
  inferInstanceAs (Decidable (c.chosen workflow ∈ c.workflows))

end Configuration

structure RunStats where
  records : Nat := 0
  results : Nat := 0
  deriving DecidableEq, Repr

inductive BrokerState where
  | unconfigured
  | configured
  | executing
  deriving DecidableEq, Repr

def BrokerState.text : BrokerState → String
  | unconfigured => "Unconfigured"
  | configured => "Configured"
  | executing => "Executing"

structure Broker where
  providers : List Provider := []
  active : Option Configuration := none
  executing : Bool := false
  processed : Nat := 0
  lastRun : RunStats := {}
  metrics : Metrics := {}

namespace Broker

def state (b : Broker) : BrokerState :=
  if b.executing then .executing
  else if b.active.isSome then .configured
  else .unconfigured

def defaultWorkflow (b : Broker) : Option String := b.active.map (·.defaultWorkflow)
def workflows (b : Broker) : List String := (b.active.map (·.workflows)).getD []

def register (b : Broker) (p : Provider) : Broker := { b with providers := b.providers ++ [p] }

def validated (ws : List Workflow) : Except RuleError Nat :=
  match Workflow.checkAll ws with
  | .ok count => .ok count
  | .error fault => .error (.configuration fault.message)

def build (evaluator : Evaluator) (providers : List Provider) (names : List String)
    (ws : List Workflow) : Except RuleError Configuration :=
  match ws with
  | [] => .error (.configuration ("未解析到任何工作流: " ++ Text.quotedList names))
  | first :: _ => do
    let _ ← validated ws
    let registry ← Registry.ofProviders providers
    let handle ← evaluator ws registry
    .ok { handle, defaultWorkflow := first.name, workflows := ws.map Workflow.name }

def install (b : Broker) (c : Configuration) : Broker := { b with active := some c }

def configure (b : Broker) (setup : Setup) : Except RuleError Unit × Broker :=
  match setup.source setup.names with
  | .error e => (.error e, b)
  | .ok ws =>
    match build setup.evaluator b.providers setup.names ws with
    | .error e => (.error e, b)
    | .ok c => (.ok (), b.install c)

end Broker

structure Batch where
  configuration : Configuration
  workflow : String
  records : Nat
  remaining : List Record
  output : List Result := []

def Configuration.opened (c : Configuration) (records : List Record) (workflow : Option String) :
    Batch where
  configuration := c
  workflow := c.chosen workflow
  records := records.length
  remaining := records

namespace Broker

def load (b : Broker) : Except RuleError Configuration :=
  match b.active with
  | some c => .ok c
  | none => .error .notConfigured

def acquire (b : Broker) : Except RuleError Broker :=
  if b.executing then .error .alreadyExecuting else .ok { b with executing := true }

def release (b : Broker) : Broker := { b with executing := false }

def unknownWorkflow (workflow : String) (configured : List String) : RuleError :=
  .evaluator ("工作流未配置: " ++ workflow ++ " (已配置 " ++ Text.quotedList configured ++ ")")

def accept (b : Broker) (c : Configuration) (records : List Record) (workflow : Option String) :
    Except RuleError (Batch × Broker) :=
  if c.Admits workflow then
    .ok (c.opened records workflow, { b with processed := 0, lastRun := {} })
  else .error (unknownWorkflow (c.chosen workflow) c.workflows)

/-- Lets a batch in: a configuration, the flag, a configured workflow. A refusal leaves
the broker as it was. -/
def begin (b : Broker) (records : List Record) (workflow : Option String) :
    Except RuleError (Batch × Broker) := do
  let c ← b.load
  let held ← b.acquire
  held.accept c records workflow

def countResults (m : Metrics) (workflow : String) (results : List Result) : Metrics :=
  let failures := ((Result.nodesAll results).filter (!·.success)).length
  let m := m.add .resultsProduced workflow (Result.countAll results)
  if failures = 0 then m else m.add .ruleFailures workflow failures

def resultsOf (r : Record) (workflow : String) (outcomes : Option (List Outcome))
    (elapsed : Nat) : Option (List Result) :=
  (outcomes.bind (Result.flatten ⟨r.id, r.descriptor, workflow⟩)).map (Result.apportion elapsed)

def complete (b : Broker) (batch : Batch) (r : Record) (outcomes : Option (List Outcome))
    (elapsed : Nat) : Batch × Broker :=
  let results := resultsOf r batch.workflow outcomes elapsed
  let counted := match results with
    | some results => countResults b.metrics batch.workflow results
    | none => b.metrics
  let counted := (counted.add .recordEvaluation batch.workflow 1).add .recordsProcessed
    batch.workflow 1
  ({ batch with remaining := batch.remaining.tail, output := batch.output ++ results.getD [] },
    { b with processed := b.processed + 1, metrics := counted })

def finish (b : Broker) (batch : Batch) : Broker :=
  { b with lastRun := ⟨batch.records, batch.output.length⟩ }.release

def evaluate (batch : Batch) (r : Record) : Except RuleError (Option (List Outcome)) :=
  batch.configuration.outcomes batch.workflow r

def runRecords (clock : Nat → Nat) (b : Broker) (batch : Batch) :
    List Record → Except RuleError (List Result) × Broker
  | [] => (.ok batch.output, b.finish batch)
  | r :: rest =>
    match evaluate batch r with
    | .error e => (.error e, b.release)
    | .ok outcomes =>
      let (batch, b) := b.complete batch r outcomes (clock b.processed)
      runRecords clock b batch rest

/-- Runs a batch alone. The clock tells the nanoseconds spent on each record. -/
def execute (clock : Nat → Nat) (b : Broker) (records : List Record) (workflow : Option String) :
    Except RuleError (List Result) × Broker :=
  match b.begin records workflow with
  | .error e => (.error e, b)
  | .ok (batch, b) => runRecords clock b batch batch.remaining

end Broker
end RuleBroker
