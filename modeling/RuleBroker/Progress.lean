/-! Reporting how far a batch has come. A reporter reads the counter of processed records at its
ticks and once more when asked to stop, and publishes what changed. Its task waits for a tick or for
the request to stop, reads the counter, and publishes the reading a step later; the counter may
change between any two of its steps. -/
namespace RuleBroker

structure Reporter where
  latest : Nat
  earlier : List Nat := []
  stopRequested : Bool := false
  answer : Option Nat := none
  deriving DecidableEq, Repr

namespace Reporter

def start (counter : Nat) : Reporter := { latest := counter }

def publish (r : Reporter) (reading : Nat) : Reporter :=
  if r.latest = reading then r
  else { r with latest := reading, earlier := r.latest :: r.earlier }

def tick (r : Reporter) (counter : Nat) : Reporter :=
  if r.answer.isSome then r else r.publish counter

def requestStop (r : Reporter) : Reporter := { r with stopRequested := true }

def close (r : Reporter) (counter : Nat) : Reporter :=
  if r.stopRequested ∧ r.answer.isNone then { r.publish counter with answer := some counter }
  else r

def stop (r : Reporter) (counter : Nat) : Reporter := r.requestStop.close counter

def history (r : Reporter) : List Nat := r.latest :: r.earlier

end Reporter

/-- Where the reporter's task stands: a reading that it holds is not published yet. -/
inductive Phase where
  | waiting
  | ticked (reading : Nat)
  | leaving
  | closing (reading : Nat)
  | ended
  deriving DecidableEq, Repr

structure Watch where
  counter : Nat
  reporter : Reporter
  phase : Phase := .waiting
  deriving DecidableEq, Repr

namespace Watch

/-- What may happen next: the batch counts a record or begins anew, someone asks the
reporter to stop, or its task goes on, by a tick, by noticing the request, or by what
follows from either. -/
inductive Event where
  | increment
  | reset
  | stop
  | tick
  | notice
  | proceed
  deriving DecidableEq, Repr

def start (counter : Nat) : Watch := { counter, reporter := .start counter }

def step (w : Watch) : Event → Watch
  | .increment => { w with counter := w.counter + 1 }
  | .reset => { w with counter := 0 }
  | .stop => { w with reporter := w.reporter.requestStop }
  | .tick =>
    match w.phase with
    | .waiting => { w with phase := .ticked w.counter }
    | _ => w
  | .notice =>
    match w.phase with
    | .waiting => if w.reporter.stopRequested then { w with phase := .leaving } else w
    | _ => w
  | .proceed =>
    match w.phase with
    | .ticked reading => { w with reporter := w.reporter.publish reading, phase := .waiting }
    | .leaving => { w with phase := .closing w.counter }
    | .closing reading =>
      { w with reporter := { w.reporter.publish reading with answer := some reading },
               phase := .ended }
    | _ => w

def run (w : Watch) (events : List Event) : Watch := events.foldl step w

theorem runAppend (w : Watch) (front back : List Event) :
    w.run (front ++ back) = (w.run front).run back := List.foldl_append ..

theorem publishRequested (r : Reporter) (reading : Nat) :
    (r.publish reading).stopRequested = r.stopRequested := by
  unfold Reporter.publish
  split <;> rfl

theorem publishAnswer (r : Reporter) (reading : Nat) :
    (r.publish reading).answer = r.answer := by
  unfold Reporter.publish
  split <;> rfl

theorem publishLatest (r : Reporter) (reading : Nat) : (r.publish reading).latest = reading := by
  unfold Reporter.publish
  split
  · assumption
  · rfl

/-- A tick after which nothing comes in between is a tick of the reporter by itself. -/
theorem tickAtOnce {w : Watch} (waits : w.phase = .waiting) (opened : w.reporter.answer = none) :
    w.run [.tick, .proceed] = { w with reporter := w.reporter.tick w.counter } := by
  simp [run, step, waits, Reporter.tick, opened]

theorem stopAtOnce {w : Watch} (waits : w.phase = .waiting) (opened : w.reporter.answer = none) :
    w.run [.stop, .notice, .proceed, .proceed] =
      { w with reporter := w.reporter.stop w.counter, phase := .ended } := by
  simp [run, step, waits, Reporter.stop, Reporter.close, Reporter.requestStop, opened]

end Watch
end RuleBroker
