import RuleBroker.Broker
/-! Calls on one broker that overlap. A batch is a task of steps: it loads a
configuration, takes the flag, is let in, ends one record at a time, and ends.
Configuring is a task too: it resolves names, builds a configuration from the providers
of that moment, and installs it. Between any two steps others may run, and a task may be
dropped. -/
namespace RuleBroker

structure Request where
  records : List Record
  workflow : Option String := none

inductive Task where
  | waiting (request : Request)
  | loaded (request : Request) (configuration : Configuration)
  | acquired (request : Request) (configuration : Configuration)
  | running (request : Request) (batch : Batch)
  | ended (answer : Except RuleError (List Result))
  | dropped

namespace Task

def holds : Task → Bool
  | acquired _ _ | running _ _ => true
  | _ => false

/-- The next step of a task. A record that it ends took so many nanoseconds. -/
def step (elapsed : Nat) (b : Broker) : Task → Task × Broker
  | waiting request =>
    match b.load with
    | .ok c => (loaded request c, b)
    | .error e => (ended (.error e), b)
  | loaded request c =>
    match b.acquire with
    | .ok held => (acquired request c, held)
    | .error e => (ended (.error e), b)
  | acquired request c =>
    match b.accept c request.records request.workflow with
    | .ok (batch, b) => (running request batch, b)
    | .error e => (ended (.error e), b.release)
  | running request batch =>
    match batch.remaining with
    | [] => (ended (.ok batch.output), b.finish batch)
    | r :: _ =>
      match Broker.evaluate batch r with
      | .error e => (ended (.error e), b.release)
      | .ok outcomes =>
        let (batch, b) := b.complete batch r outcomes elapsed
        (running request batch, b)
  | t => (t, b)

def drop (b : Broker) (t : Task) : Task × Broker :=
  match t with
  | ended answer => (ended answer, b)
  | t => (dropped, if t.holds then b.release else b)

end Task

inductive SetupTask where
  | waiting (setup : Setup)
  | resolved (setup : Setup) (workflows : List Workflow)
  | built (setup : Setup) (configuration : Configuration)
  | installed (setup : Setup) (configuration : Configuration)
  | refused (error : RuleError)
  | dropped

namespace SetupTask

def step (b : Broker) : SetupTask → SetupTask × Broker
  | waiting setup =>
    match setup.source setup.names with
    | .ok ws => (resolved setup ws, b)
    | .error e => (refused e, b)
  | resolved setup ws =>
    match Broker.build setup.evaluator b.providers setup.names ws with
    | .ok c => (built setup c, b)
    | .error e => (refused e, b)
  | built setup c => (installed setup c, b.install c)
  | t => (t, b)

def drop (b : Broker) : SetupTask → SetupTask × Broker
  | installed setup c => (installed setup c, b)
  | refused e => (refused e, b)
  | _ => (dropped, b)

end SetupTask

structure System where
  broker : Broker := {}
  tasks : List Task := []
  setups : List SetupTask := []

inductive Action where
  | register (provider : Provider)
  | configure (setup : Setup)
  | advance (setup : Nat)
  | abandon (setup : Nat)
  | call (request : Request)
  | step (task elapsed : Nat)
  | drop (task : Nat)

namespace System

def moveAt (f : Broker → α → α × Broker) (b : Broker) (ts : List α) (i : Nat) :
    List α × Broker :=
  match ts[i]? with
  | none => (ts, b)
  | some t => (ts.set i (f b t).1, (f b t).2)

def moveTask (s : System) (i : Nat) (f : Broker → Task → Task × Broker) : System :=
  { s with tasks := (moveAt f s.broker s.tasks i).1, broker := (moveAt f s.broker s.tasks i).2 }

def moveSetup (s : System) (i : Nat) (f : Broker → SetupTask → SetupTask × Broker) : System :=
  { s with setups := (moveAt f s.broker s.setups i).1, broker := (moveAt f s.broker s.setups i).2 }

def act (s : System) : Action → System
  | .register p => { s with broker := s.broker.register p }
  | .configure setup => { s with setups := s.setups ++ [.waiting setup] }
  | .advance i => s.moveSetup i SetupTask.step
  | .abandon i => s.moveSetup i SetupTask.drop
  | .call request => { s with tasks := s.tasks ++ [.waiting request] }
  | .step i elapsed => s.moveTask i (Task.step elapsed)
  | .drop i => s.moveTask i Task.drop

def run (s : System) (actions : List Action) : System := actions.foldl act s

end System
end RuleBroker
