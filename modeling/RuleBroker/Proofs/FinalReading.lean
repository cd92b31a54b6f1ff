import Mathlib.Data.List.Destutter
import RuleBroker.Progress
/-! What a reporter publishes and what it answers in the end. Whatever comes between its
steps, it publishes the readings it took, each once in a row, and its answer is a reading
taken after it noticed the request to stop, which is also the last it publishes. -/
namespace RuleBroker

namespace Phase

def held : Phase → List Nat
  | ticked reading | closing reading => [reading]
  | _ => []

def left : Phase → Bool
  | waiting | ticked _ => false
  | _ => true

end Phase

def Reporter.published (r : Reporter) : List Nat := r.history.reverse

section Destutter

theorem destutterSnoc' (first x : Nat) (l : List Nat) :
    (l ++ [x]).destutter' (· ≠ ·) first =
      if (l.destutter' (· ≠ ·) first).getLast? = some x then l.destutter' (· ≠ ·) first
      else l.destutter' (· ≠ ·) first ++ [x] := by
  induction l generalizing first with
  | nil => by_cases same : first = x <;> simp [List.destutter', same]
  | cons y rest ih =>
    rw [List.cons_append, List.destutter'_cons, List.destutter'_cons]
    split
    · rw [ih]
      have someLast : (rest.destutter' (· ≠ ·) y) ≠ [] := List.destutter'_ne_nil _ _
      rw [List.getLast?_cons, List.getLast?_eq_some_getLast someLast, Option.getD_some]
      split <;> rfl
    · exact ih first

theorem destutterSnoc {x : Nat} {l : List Nat} (nonempty : l ≠ []) :
    (l ++ [x]).destutter (· ≠ ·) =
      if (l.destutter (· ≠ ·)).getLast? = some x then l.destutter (· ≠ ·)
      else l.destutter (· ≠ ·) ++ [x] := by
  obtain ⟨first, rest, rfl⟩ := List.exists_cons_of_ne_nil nonempty
  exact destutterSnoc' first x rest

end Destutter

namespace Watch

def reading? (w : Watch) : Event → Option Nat
  | .tick => if w.phase = .waiting then some w.counter else none
  | .proceed => if w.phase = .leaving then some w.counter else none
  | _ => none

def readings (w : Watch) : List Event → List Nat
  | [] => []
  | e :: rest => (w.reading? e).toList ++ (w.step e).readings rest

/-- What the events may do. The reporter reads in two of them and publishes in two others. -/
inductive Move (w : Watch) : Event → Watch → Prop where
  | count : Move w .increment { w with counter := w.counter + 1 }
  | anew : Move w .reset { w with counter := 0 }
  | ask : Move w .stop { w with reporter := w.reporter.requestStop }
  | look (waits : w.phase = .waiting) : Move w .tick { w with phase := .ticked w.counter }
  | leave (waits : w.phase = .waiting) (asked : w.reporter.stopRequested = true) :
      Move w .notice { w with phase := .leaving }
  | publish {reading} (holds : w.phase = .ticked reading) :
      Move w .proceed { w with reporter := w.reporter.publish reading, phase := .waiting }
  | lookLast (gone : w.phase = .leaving) :
      Move w .proceed { w with phase := .closing w.counter }
  | answer {reading} (holds : w.phase = .closing reading) :
      Move w .proceed { w with
        reporter := { w.reporter.publish reading with answer := some reading }, phase := .ended }
  | idle {e} (unread : w.reading? e = none) (uncounted : e ≠ .increment ∧ e ≠ .reset)
      (unasked : e ≠ .stop) : Move w e w

theorem stepMove (w : Watch) (e : Event) : Move w e (w.step e) := by
  cases e with
  | increment => exact .count
  | reset => exact .anew
  | stop => exact .ask
  | tick =>
    cases phase : w.phase with
    | waiting => simpa only [step, phase] using Move.look phase
    | ticked | leaving | closing | ended =>
      simpa only [step, phase] using Move.idle (by simp [reading?, phase]) (by simp) (by simp)
  | notice =>
    cases phase : w.phase with
    | waiting =>
      simp only [step, phase]
      split
      · next asked => exact .leave phase asked
      · exact .idle rfl (by simp) (by simp)
    | ticked | leaving | closing | ended =>
      simpa only [step, phase] using Move.idle rfl (by simp) (by simp)
  | proceed =>
    cases phase : w.phase with
    | ticked reading => simpa only [step, phase] using Move.publish phase
    | leaving => simpa only [step, phase] using Move.lookLast phase
    | closing reading => simpa only [step, phase] using Move.answer phase
    | waiting | ended =>
      simpa only [step, phase] using Move.idle (by simp [reading?, phase]) (by simp) (by simp)

def Recorded (w : Watch) (seen : List Nat) : Prop :=
  ∃ taken, seen = taken ++ w.phase.held ∧ w.reporter.published = taken.destutter (· ≠ ·)

variable {w w' : Watch} {e : Event} {seen : List Nat}

theorem publishedPublish {r : Reporter} {taken : List Nat} (reading : Nat)
    (before : r.published = taken.destutter (· ≠ ·)) :
    (r.publish reading).published = (taken ++ [reading]).destutter (· ≠ ·) := by
  have last : r.published.getLast? = some r.latest := by
    simp [Reporter.published, Reporter.history]
  have nonempty : taken ≠ [] := by
    rintro rfl
    rw [before] at last
    cases last
  rw [destutterSnoc nonempty, ← before, last]
  by_cases same : r.latest = reading
  · simp [Reporter.publish, same]
  · simp [Reporter.publish, Reporter.published, Reporter.history, same]

theorem Move.recorded (move : Move w e w') (before : Recorded w seen) :
    Recorded w' (seen ++ (w.reading? e).toList) := by
  obtain ⟨taken, rfl, published⟩ := before
  cases move with
  | count | anew => exact ⟨taken, by simp [reading?], published⟩
  | ask => exact ⟨taken, by simp [reading?], published⟩
  | look waits => exact ⟨taken, by simp [reading?, waits, Phase.held], published⟩
  | leave waits => exact ⟨taken, by simp [reading?, waits, Phase.held], published⟩
  | publish holds =>
    refine ⟨_, ?_, publishedPublish _ published⟩
    simp [reading?, holds, Phase.held]
  | lookLast gone => exact ⟨taken, by simp [reading?, gone, Phase.held], published⟩
  | answer holds =>
    refine ⟨_, ?_, publishedPublish _ published⟩
    simp [reading?, holds, Phase.held]
  | idle unread => exact ⟨taken, by simp [unread], published⟩

theorem recordedRun (events : List Event) (before : Recorded w seen) :
    Recorded (w.run events) (seen ++ w.readings events) := by
  induction events generalizing w seen with
  | nil => simpa [readings, run] using before
  | cons e rest ih =>
    have next := ih ((stepMove w e).recorded before)
    rwa [List.append_assoc] at next

theorem recordedStart (c : Nat) : Recorded (start c) [c] := ⟨[c], rfl, rfl⟩

def settled? (w : Watch) : Option Nat :=
  match w.phase with
  | .closing reading => some reading
  | .ended => w.reporter.answer
  | _ => none

structure Orderly (w : Watch) : Prop where
  asked : w.phase.left = true → w.reporter.stopRequested = true
  unanswered : w.phase ≠ .ended → w.reporter.answer = none
  closed : w.phase = .ended → w.reporter.answer = some w.reporter.latest

theorem Move.orderly (move : Move w e w') (before : Orderly w) : Orderly w' := by
  obtain ⟨asked, unanswered, closed⟩ := before
  cases move with
  | count | anew | idle => exact ⟨asked, unanswered, closed⟩
  | ask => exact ⟨fun _ => rfl, unanswered, closed⟩
  | look waits =>
    exact ⟨fun left => (by cases left), fun _ => unanswered (by simp [waits]),
      fun ended => (by cases ended)⟩
  | leave waits request =>
    exact ⟨fun _ => request, fun _ => unanswered (by simp [waits]), fun ended => (by cases ended)⟩
  | publish holds =>
    refine ⟨fun left => (by cases left), fun _ => ?_, fun ended => (by cases ended)⟩
    rw [publishAnswer]
    exact unanswered (by simp [holds])
  | lookLast gone =>
    exact ⟨fun _ => asked (by rw [gone]; rfl), fun _ => unanswered (by simp [gone]),
      fun ended => (by cases ended)⟩
  | answer holds =>
    refine ⟨fun _ => ?_, fun running => absurd rfl running, fun _ => ?_⟩
    · simpa only [publishRequested] using asked (by rw [holds]; rfl)
    · simp only [publishLatest]

theorem orderlyRun (events : List Event) (before : Orderly w) : Orderly (w.run events) := by
  induction events generalizing w with
  | nil => exact before
  | cons e rest ih => exact ih ((stepMove w e).orderly before)

theorem orderlyStart (c : Nat) : Orderly (start c) :=
  ⟨fun left => (by cases left), fun _ => rfl, fun ended => (by cases ended)⟩

theorem settledAnswer (orderly : Orderly w) {v : Nat} (answer : w.reporter.answer = some v) :
    w.settled? = some v ∧ w.reporter.latest = v := by
  have ended : w.phase = .ended := by
    by_contra running
    rw [orderly.unanswered running] at answer
    cases answer
  refine ⟨by simp only [settled?, ended, answer], ?_⟩
  rw [orderly.closed ended] at answer
  exact Option.some.inj answer

theorem cameAbout {P : Watch → Prop} (events : List Event) (first : ¬ P w)
    (last : P (w.run events)) :
    ∃ front e back, events = front ++ e :: back ∧ ¬ P (w.run front) ∧
      P ((w.run front).step e) := by
  induction events generalizing w with
  | nil => exact absurd last first
  | cons e rest ih =>
    by_cases here : P (w.step e)
    · exact ⟨[], e, rest, rfl, first, here⟩
    · obtain ⟨front, e', back, rfl, before, after⟩ := ih here last
      exact ⟨e :: front, e', back, rfl, before, after⟩

theorem Move.leaving (move : Move w e w') (before : ¬ w.phase.left = true)
    (after : w'.phase.left = true) : e = .notice ∧ w.reporter.stopRequested = true := by
  cases move with
  | count | anew | ask | idle => exact absurd after before
  | look | publish => cases after
  | leave _ asked => exact ⟨rfl, asked⟩
  | lookLast gone => exact absurd (by rw [gone]; rfl) before
  | answer holds => exact absurd (by rw [holds]; rfl) before

theorem Move.settling {v : Nat} (move : Move w e w') (before : ¬ w.settled? = some v)
    (after : w'.settled? = some v) : e = .proceed ∧ w.phase = .leaving ∧ w.counter = v := by
  cases move with
  | count | anew | idle => exact absurd after before
  | ask => exact absurd after before
  | look | leave | publish => cases after
  | lookLast gone => exact ⟨rfl, gone, Option.some.inj after⟩
  | answer holds => exact absurd (by rw [settled?, holds]; exact after) before

theorem requestedRun (w : Watch) (events : List Event) :
    (w.run events).reporter.stopRequested = true ↔
      w.reporter.stopRequested = true ∨ .stop ∈ events := by
  induction events generalizing w with
  | nil => simp [run]
  | cons e rest ih =>
    have moved : (w.step e).reporter.stopRequested = true ↔
        w.reporter.stopRequested = true ∨ .stop = e := by
      generalize reached : w.step e = w'
      have move : Move w e w' := reached ▸ stepMove w e
      cases move with
      | ask => simp [Reporter.requestStop]
      | idle _ _ unasked => simp [unasked.symm]
      | count | anew | look | leave | lookLast => simp
      | publish | answer => simp [publishRequested]
    have later := ih (w.step e)
    rw [moved] at later
    simpa [run, or_assoc] using later

theorem noticedBefore {c : Nat} {events : List Event}
    (left : ((start c).run events).phase.left = true) :
    ∃ front back, events = front ++ .notice :: back ∧ .stop ∈ front := by
  obtain ⟨front, e, back, split, before, after⟩ :=
    cameAbout (P := fun w => w.phase.left = true) events (by simp [start, Phase.left]) left
  obtain ⟨rfl, asked⟩ := (stepMove _ e).leaving before after
  refine ⟨front, back, split, ?_⟩
  simpa [start, Reporter.start] using (requestedRun (start c) front).mp asked

theorem readAfterNotice {c v : Nat} {events : List Event}
    (settled : ((start c).run events).settled? = some v) :
    ∃ front noticed back, events = front ++ .notice :: noticed ++ .proceed :: back ∧
      .stop ∈ front ∧ ((start c).run (front ++ .notice :: noticed)).reading? .proceed = some v := by
  obtain ⟨middle, e, back, rfl, before, after⟩ :=
    cameAbout (P := fun w => w.settled? = some v) events (by simp [start, settled?]) settled
  obtain ⟨rfl, gone, counter⟩ := (stepMove _ e).settling before after
  have left : ((start c).run middle).phase.left = true := by rw [gone]; rfl
  obtain ⟨front, noticed, rfl, asked⟩ := noticedBefore left
  exact ⟨front, noticed, back, rfl, asked, by simp [reading?, gone, counter]⟩

theorem settledStill {n : Nat} (events : List Event)
    (still : ∀ e ∈ events, e ≠ .increment ∧ e ≠ .reset) (counter : w.counter = n)
    (unsettled : w.settled? = none ∨ w.settled? = some n) :
    (w.run events).settled? = none ∨ (w.run events).settled? = some n := by
  induction events generalizing w with
  | nil => exact unsettled
  | cons e rest ih =>
    have unchanged := still e List.mem_cons_self
    have later := fun e inside => still e (List.mem_cons_of_mem _ inside)
    refine ih later ?_ ?_ <;> generalize reached : w.step e = w' <;>
      have move : Move w e w' := reached ▸ stepMove w e
    · cases move with
      | count => exact absurd rfl unchanged.1
      | anew => exact absurd rfl unchanged.2
      | ask | look | leave | publish | lookLast | answer | idle => exact counter
    · cases move with
      | count => exact absurd rfl unchanged.1
      | anew => exact absurd rfl unchanged.2
      | ask | idle => exact unsettled
      | look | leave | publish => exact .inl rfl
      | lookLast => exact .inr (congrArg some counter)
      | answer holds => simpa only [settled?, holds] using unsettled

theorem counterRun (events : List Event) (running : .reset ∉ events) :
    (w.run events).counter = w.counter + events.count .increment := by
  induction events generalizing w with
  | nil => rfl
  | cons e rest ih =>
    simp only [List.mem_cons, not_or] at running
    have later := ih (w := w.step e) running.2
    generalize reached : w.step e = w' at later
    have move : Move w e w' := reached ▸ stepMove w e
    have next : w.run (e :: rest) = w'.run rest := by rw [← reached]; rfl
    rw [next, later]
    cases move with
    | count => simp [Nat.add_assoc, Nat.add_comm 1]
    | anew => exact absurd rfl running.1
    | idle _ uncounted => simp [uncounted.1]
    | ask | look | leave | publish | lookLast | answer => simp

def lastSteps : List Event := [.proceed, .notice, .proceed, .proceed]

theorem endsByLastSteps (orderly : Orderly w) (asked : w.reporter.stopRequested = true) :
    ∃ v, (w.run lastSteps).reporter.answer = some v := by
  cases phase : w.phase with
  | ended => exact ⟨_, by simpa [run, lastSteps, step, phase] using orderly.closed phase⟩
  | waiting | leaving | closing => exact ⟨_, by simp [run, lastSteps, step, phase, asked]; rfl⟩
  | ticked => exact ⟨_, by simp [run, lastSteps, step, phase, asked, publishRequested]; rfl⟩

theorem unsettledUnasked {c : Nat} {events : List Event} (unasked : .stop ∉ events) :
    ((start c).run events).settled? = none := by
  have silent : ¬ ((start c).run events).reporter.stopRequested = true := by
    rw [requestedRun]
    simpa [start, Reporter.start] using unasked
  have asked := (orderlyRun events (orderlyStart c)).asked
  revert asked
  unfold settled?
  split <;> intro asked
  · next reading phase => exact absurd (asked (by rw [phase]; rfl)) silent
  · next phase => exact absurd (asked (by rw [phase]; rfl)) silent
  · rfl

theorem answersBatch {c v : Nat} {before batch after : List Event}
    (unasked : .stop ∉ before ++ batch) (whole : .reset ∉ batch)
    (still : ∀ e ∈ after, e ≠ .increment ∧ e ≠ .reset)
    (answer : ((start c).run (before ++ .reset :: batch ++ .stop :: after)).reporter.answer =
      some v) : v = batch.count .increment := by
  have counter : ((start c).run (before ++ .reset :: batch)).counter = batch.count .increment := by
    rw [runAppend]
    exact (counterRun batch whole).trans (Nat.zero_add _)
  have unsettled : ((start c).run (before ++ .reset :: batch)).settled? = none :=
    unsettledUnasked (by simpa using unasked)
  have quiet : ∀ e ∈ Event.stop :: after, e ≠ .increment ∧ e ≠ .reset := by
    intro e inside
    rcases List.mem_cons.mp inside with rfl | inside
    · simp
    · exact still e inside
  have ends := settledStill (.stop :: after) quiet counter (.inl unsettled)
  have settled := (settledAnswer (orderlyRun _ (orderlyStart c)) answer).1
  rw [← runAppend, settled] at ends
  simpa using ends

/-- What is published are the readings, without repetitions in a row. The answer is a reading
taken after the request was noticed, and published last; it comes, whatever was read before;
and if the counter stood still since the request, it is what was counted since it began. -/
theorem finalReadingPublished (c : Nat) (events : List Event) :
    let w := (start c).run events
    (∃ taken, c :: (start c).readings events = taken ++ w.phase.held ∧
      w.reporter.published = taken.destutter (· ≠ ·)) ∧
    w.reporter.published.IsChain (· ≠ ·) ∧
    (∀ v, w.reporter.answer = some v → w.reporter.latest = v ∧
      ∃ front noticed back, events = front ++ .notice :: noticed ++ .proceed :: back ∧
        .stop ∈ front ∧
        ((start c).run (front ++ .notice :: noticed)).reading? .proceed = some v) ∧
    (.stop ∈ events → ∃ v, (w.run lastSteps).reporter.answer = some v) ∧
    (∀ before batch after, events = before ++ .reset :: batch ++ .stop :: after →
      .stop ∉ before ++ batch → .reset ∉ batch →
      (∀ e ∈ after, e ≠ .increment ∧ e ≠ .reset) →
      (∀ v, w.reporter.answer = some v → v = batch.count .increment) ∧
      (w.run lastSteps).reporter.answer = some (batch.count .increment) ∧
      (w.run lastSteps).reporter.latest = batch.count .increment) := by
  intro w
  have orderly : Orderly w := orderlyRun events (orderlyStart c)
  have recorded : Recorded w (c :: (start c).readings events) :=
    recordedRun events (recordedStart c)
  have answers (asked : .stop ∈ events) : ∃ v, (w.run lastSteps).reporter.answer = some v :=
    endsByLastSteps orderly ((requestedRun _ events).mpr (.inr asked))
  refine ⟨recorded, ?_, fun v answer => ?_, answers, ?_⟩
  · obtain ⟨taken, _, published⟩ := recorded
    rw [published]
    exact List.isChain_destutter _ taken
  · have settled := settledAnswer orderly answer
    exact ⟨settled.2, readAfterNotice settled.1⟩
  · rintro before batch after rfl unasked whole still
    refine ⟨fun v => answersBatch unasked whole still, ?_⟩
    obtain ⟨v, answer⟩ := answers (by simp)
    have count : v = batch.count .increment := by
      have last : ∀ e ∈ lastSteps, e ≠ .increment ∧ e ≠ .reset := by decide
      have quiet : ∀ e ∈ after ++ lastSteps, e ≠ .increment ∧ e ≠ .reset := fun e inside =>
        (List.mem_append.mp inside).elim (still e) (last e)
      refine answersBatch (c := c) unasked whole quiet ?_
      rw [← List.cons_append, ← List.append_assoc, runAppend]
      exact answer
    exact ⟨count ▸ answer, count ▸ (settledAnswer (orderlyRun lastSteps orderly) answer).2⟩

example : ((start 7).run [.reset, .increment, .tick, .increment, .proceed, .increment, .stop,
    .notice, .proceed, .proceed]).reporter = ⟨3, [1, 7], true, some 3⟩ := rfl

end Watch
end RuleBroker
