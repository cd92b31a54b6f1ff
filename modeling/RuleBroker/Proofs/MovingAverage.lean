import Mathlib.Data.List.Rotate
import RuleBroker.Function.ProfitTrend
import RuleBroker.Proofs.DecimalValue
/-! What a window remembers. Its slots hold the last values written, and a value that has
left them is felt only in what the running sum was rounded by while it was there. -/
namespace RuleBroker.Window
open Decimal (value rounded)

def step (w : Window) (next : Decimal) : Except RuleError Decimal × Window :=
  match w.update next with
  | .ok (average, after) => (.ok average, after)
  | .error e => (.error e, w)

def answers (w : Window) : List Decimal → List (Except RuleError Decimal)
  | [] => []
  | next :: rest => (w.step next).1 :: answers (w.step next).2 rest

def after (w : Window) (values : List Decimal) : Window :=
  values.foldl (fun w next => (w.step next).2) w

def readings (w : Window) (values : List Decimal) : List (Except RuleError ℚ) :=
  (w.answers values).map (Except.map value)

def Accepts (w : Window) (values : List Decimal) : Prop :=
  ∀ answer ∈ w.answers values, answer.isOk = true

instance (w values) : Decidable (Accepts w values) := by unfold Accepts; infer_instance

def recent (w : Window) : List Decimal := w.slots.rotate w.index

def drift (w : Window) : ℚ := w.sum.value - (w.recent.map value).sum

def settle (w : Window) (next : Decimal) : Option (Decimal × Decimal) :=
  (w.nextSum next).bind fun sum => (w.average sum).map fun average => (sum, average)

def settleValue (sum oldest next : ℚ) (size : Nat) : Option (ℚ × ℚ) :=
  ((rounded (sum - oldest)).map value).bind fun rest =>
    ((rounded (rest + next)).map value).bind fun sum =>
      ((rounded (sum / size)).map value).map fun average => (sum, average)

/-- What rounding adds to the running sum in an update. -/
def slip (w : Window) (next : Decimal) : ℚ :=
  match w.settle next with
  | some (sum, _) => sum.value - (w.sum.value - w.oldest.value + next.value)
  | none => 0

def slips (w : Window) : List Decimal → ℚ
  | [] => 0
  | next :: rest => w.slip next + slips (w.step next).2 rest

def Alike (w w' : Window) : Prop :=
  w.recent.map value = w'.recent.map value ∧ w.sum.value = w'.sum.value

variable {w w' : Window} {next next' sum average : Decimal} {values : List Decimal}

theorem recentSplit (w : Window) :
    w.recent = w.oldest :: (w.slots.drop (w.index + 1) ++ w.slots.take w.index) := by
  have within := w.index_lt
  rw [recent, List.rotate_eq_drop_append_take within.le, List.drop_eq_getElem_cons within]
  rfl

theorem recentSum (w : Window) :
    (w.recent.map value).sum = w.oldest.value + (w.recent.tail.map value).sum := by
  rw [recentSplit, List.map_cons, List.sum_cons, List.tail_cons]

theorem sumLessOldest (w : Window) :
    w.sum.value - w.oldest.value = (w.recent.tail.map value).sum + w.drift := by
  rw [drift, recentSum]
  ring

theorem recentAdvance (w : Window) (next sum : Decimal) :
    (w.advance next sum).recent = w.recent.tail ++ [next] := by
  have within := w.index_lt
  have written : w.slots.set w.index next =
      (w.slots.take w.index ++ [next]) ++ w.slots.drop (w.index + 1) := by
    rw [List.set_eq_take_append_cons_drop, if_pos within]
    simp
  have length : (w.slots.take w.index ++ [next]).length = w.index + 1 := by
    simp [within.le]
  have turned := List.rotate_mod (w.slots.set w.index next) (w.index + 1)
  rw [List.length_set] at turned
  calc (w.advance next sum).recent
      = (w.slots.set w.index next).rotate (w.index + 1) := turned
    _ = w.slots.drop (w.index + 1) ++ (w.slots.take w.index ++ [next]) := by
        rw [written, ← length, List.rotate_append_length_eq, length]
    _ = w.recent.tail ++ [next] := by rw [recentSplit, List.tail_cons, List.append_assoc]

theorem forallWritten {P : Decimal → Prop} (held : ∀ d ∈ w.recent, P d) (written : P next) :
    ∀ d ∈ w.recent.tail ++ [next], P d := by
  intro d inside
  rcases List.mem_append.mp inside with before | last
  · exact held d (List.mem_of_mem_tail before)
  · rw [List.mem_singleton.mp last]
    exact written

theorem lengthRecent (w : Window) : w.recent.length = w.size := List.length_rotate _ _

theorem sizePositive (w : Window) : 0 < w.size := Nat.zero_lt_of_lt w.index_lt

theorem sizeAdvance (w : Window) (next sum : Decimal) : (w.advance next sum).size = w.size :=
  List.length_set

theorem sumAdvance (w : Window) (next sum : Decimal) : (w.advance next sum).sum = sum := rfl

theorem ofSizeSome {k : Nat} (positive : 0 < k) : ∃ fresh, ofSize k = .ok fresh :=
  ⟨_, dif_pos positive⟩

theorem ofSizeEmpty {k : Nat} {fresh : Window} (opened : ofSize k = .ok fresh) :
    fresh.recent = List.replicate k .zero ∧ fresh.sum = .zero ∧ fresh.size = k := by
  unfold ofSize at opened
  split at opened <;> cases opened
  exact ⟨List.rotate_zero _, rfl, List.length_replicate⟩

theorem indexOfSize {k : Nat} {fresh : Window} (opened : ofSize k = .ok fresh) :
    fresh.index = 0 := by
  unfold ofSize at opened
  split at opened <;> cases opened
  rfl

theorem updateSettle (w : Window) (next : Decimal) :
    w.update next = match w.settle next with
      | some (sum, average) => .ok (average, w.advance next sum)
      | none => .error (overflow next) := by
  unfold update settle
  cases w.nextSum next with
  | none => rfl
  | some sum => cases quotient : w.average sum <;> simp [quotient]

theorem stepSettle (w : Window) (next : Decimal) :
    w.step next = match w.settle next with
      | some (sum, average) => (.ok average, w.advance next sum)
      | none => (.error (overflow next), w) := by
  rw [step, updateSettle]
  cases w.settle next <;> rfl

theorem stepTaken (settled : w.settle next = some (sum, average)) :
    w.step next = (.ok average, w.advance next sum) := by rw [stepSettle, settled]

theorem stepRefused (refused : w.settle next = none) :
    w.step next = (.error (overflow next), w) := by rw [stepSettle, refused]

theorem averageSettled (settled : w.settle next = some (sum, average)) :
    w.average sum = some average := by
  simp only [settle, Option.bind_eq_some_iff, Option.map_eq_some_iff, Prod.mk.injEq] at settled
  obtain ⟨_, -, _, divided, rfl, rfl⟩ := settled
  exact divided

theorem settledValue (w : Window) (next : Decimal) :
    (w.settle next).map (Prod.map value value) =
      settleValue w.sum.value w.oldest.value next.value w.size := by
  rw [settle, nextSum, settleValue, ← Decimal.subValue]
  cases w.sum.sub w.oldest with
  | none => simp only [Option.bind_none, Option.map_none]
  | some rest =>
    rw [Option.map_some, Option.bind_some, Option.bind_some, ← Decimal.addValue]
    cases rest.add next with
    | none => simp only [Option.bind_none, Option.map_none]
    | some sum =>
      rw [Option.map_some, Option.bind_some, Option.bind_some,
        ← Decimal.divNatValue sum w.sizePositive, Window.average, Option.map_map, Option.map_map]
      rfl

theorem settleAlike (alike : w.Alike w') (same : next.value = next'.value) :
    (w.settle next = none ∧ w'.settle next' = none) ∨
    ∃ sum average sum' average', w.settle next = some (sum, average) ∧
      w'.settle next' = some (sum', average') ∧ average.value = average'.value ∧
      (w.advance next sum).Alike (w'.advance next' sum') := by
  obtain ⟨held, summed⟩ := alike
  have size : w.size = w'.size := by
    simpa [lengthRecent] using congrArg List.length held
  have oldest : w.oldest.value = w'.oldest.value := by
    rw [recentSplit, recentSplit w'] at held
    exact (List.cons.inj held).1
  have settled := settledValue w next
  rw [summed, oldest, size, same, ← settledValue] at settled
  cases left : w.settle next with
  | none =>
    rw [left, Option.map_none, eq_comm, Option.map_eq_none_iff] at settled
    exact .inl ⟨rfl, settled⟩
  | some result =>
    obtain ⟨sum, average⟩ := result
    rw [left, Option.map_some, eq_comm, Option.map_eq_some_iff] at settled
    obtain ⟨⟨sum', average'⟩, right, results⟩ := settled
    obtain ⟨sameSum, sameAverage⟩ := Prod.mk.inj results
    refine .inr ⟨sum, average, sum', average', rfl, right, sameAverage.symm, ?_, sameSum.symm⟩
    rw [recentAdvance, recentAdvance, List.map_append, List.map_append, List.map_tail,
      List.map_tail, held, List.map_singleton, List.map_singleton, same]

theorem stepAlike (alike : w.Alike w') (next : Decimal) :
    (w.step next).1.map value = (w'.step next).1.map value ∧
      (w.step next).2.Alike (w'.step next).2 := by
  rcases settleAlike alike (rfl : next.value = next.value) with
    ⟨refused, refused'⟩ | ⟨sum, average, sum', average', settled, settled', same, onward⟩
  · rw [stepRefused refused, stepRefused refused']
    exact ⟨rfl, alike⟩
  · rw [stepTaken settled, stepTaken settled']
    exact ⟨congrArg Except.ok same, onward⟩

theorem readingsAlike (alike : w.Alike w') (values : List Decimal) :
    w.readings values = w'.readings values := by
  induction values generalizing w w' with
  | nil => rfl
  | cons next rest ih =>
    obtain ⟨answer, onward⟩ := stepAlike alike next
    exact congrArg₂ List.cons answer (ih onward)

theorem afterCons (w : Window) (next : Decimal) (rest : List Decimal) :
    w.after (next :: rest) = (w.step next).2.after rest := rfl

theorem lengthAnswers (w : Window) (values : List Decimal) :
    (w.answers values).length = values.length := by
  induction values generalizing w with
  | nil => rfl
  | cons next rest ih => rw [answers, List.length_cons, List.length_cons, ih]

theorem acceptsCons {rest : List Decimal} :
    w.Accepts (next :: rest) ↔ (∃ sum average, w.settle next = some (sum, average)) ∧
      (w.step next).2.Accepts rest := by
  rw [Accepts, answers, List.forall_mem_cons]
  refine and_congr_left fun _ => ?_
  cases settled : w.settle next with
  | none => simp [stepRefused settled, Except.isOk, Except.toBool]
  | some result =>
    obtain ⟨sum, average⟩ := result
    simp [stepTaken settled, Except.isOk, Except.toBool]

theorem recentAfter (accepted : w.Accepts values) :
    (w.after values).recent = (w.recent ++ values).drop values.length := by
  induction values generalizing w with
  | nil => simp [after]
  | cons next rest ih =>
    obtain ⟨⟨sum, average, settled⟩, onward⟩ := acceptsCons.mp accepted
    rw [afterCons, ih onward, stepTaken settled, recentAdvance, recentSplit w]
    simp

theorem sizeStep (w : Window) (next : Decimal) : (w.step next).2.size = w.size := by
  rw [stepSettle]
  split
  · exact w.sizeAdvance next _
  · rfl

theorem sizeAfter (w : Window) (values : List Decimal) : (w.after values).size = w.size := by
  induction values generalizing w with
  | nil => rfl
  | cons next rest ih => rw [afterCons, ih, sizeStep]

theorem driftStep (w : Window) (next : Decimal) :
    (w.step next).2.drift = w.drift + w.slip next := by
  rw [stepSettle, slip]
  cases w.settle next with
  | none => rw [add_zero]
  | some result =>
    obtain ⟨sum, average⟩ := result
    simp only [drift, recentAdvance, sumAdvance, recentSum, List.map_append, List.sum_append,
      List.map_singleton, List.sum_singleton]
    ring

theorem driftAfter (w : Window) (values : List Decimal) :
    (w.after values).drift = w.drift + w.slips values := by
  induction values generalizing w with
  | nil => rw [slips, add_zero]; rfl
  | cons next rest ih => rw [afterCons, ih, driftStep, slips, add_assoc]

theorem lastReading (accepted : w.Accepts values) (nonempty : values ≠ []) :
    (w.readings values).getLast? =
      ((rounded ((w.after values).sum.value / w.size)).map value).map .ok := by
  induction values generalizing w with
  | nil => contradiction
  | cons next rest ih =>
    obtain ⟨⟨sum, average, settled⟩, onward⟩ := acceptsCons.mp accepted
    cases rest with
    | nil =>
      have divided := Decimal.divNatValue sum w.sizePositive
      rw [← Window.average, averageSettled settled] at divided
      rw [readings, answers, answers, afterCons, stepTaken settled]
      exact congrArg (Option.map Except.ok) divided
    | cons second more =>
      have last : (w.readings (next :: second :: more)).getLast? =
          ((w.step next).2.readings (second :: more)).getLast? := List.getLast?_cons_cons
      rw [last, ih onward (List.cons_ne_nil second more), sizeStep, afterCons w]

section Fresh
variable {k : Nat} {fresh : Window} {earlier earlier' latest : List Decimal}

theorem driftOfSize (opened : ofSize k = .ok fresh) : fresh.drift = 0 := by
  obtain ⟨empty, unsummed, -⟩ := ofSizeEmpty opened
  simp [drift, empty, unsummed]

theorem recentFull (opened : ofSize k = .ok fresh) (full : latest.length = k)
    (accepted : fresh.Accepts (earlier ++ latest)) :
    (fresh.after (earlier ++ latest)).recent = latest := by
  have room : (fresh.recent ++ earlier).length = (earlier ++ latest).length := by
    simp [ofSizeEmpty opened, full, Nat.add_comm]
  rw [recentAfter accepted, ← List.append_assoc, ← room, List.drop_left]

theorem sumFull (opened : ofSize k = .ok fresh) (full : latest.length = k)
    (accepted : fresh.Accepts (earlier ++ latest)) :
    (fresh.after (earlier ++ latest)).sum.value =
      (latest.map value).sum + fresh.slips (earlier ++ latest) := by
  have drifted := fresh.driftAfter (earlier ++ latest)
  rw [drift, recentFull opened full accepted, driftOfSize opened, zero_add] at drifted
  exact eq_add_of_sub_eq' drifted

theorem lastFull (opened : ofSize k = .ok fresh) (full : latest.length = k)
    (accepted : fresh.Accepts (earlier ++ latest)) :
    (fresh.readings (earlier ++ latest)).getLast? =
      ((rounded (((latest.map value).sum + fresh.slips (earlier ++ latest)) / k)).map value).map
        .ok := by
  have size := (ofSizeEmpty opened).2.2
  have nonempty : earlier ++ latest ≠ [] := by
    have positive : 0 < latest.length := by rw [full, ← size]; exact fresh.sizePositive
    exact List.append_ne_nil_of_right_ne_nil _ (List.ne_nil_of_length_pos positive)
  rw [lastReading accepted nonempty, sumFull opened full accepted, size]

/-- A value that has left the window is felt in the slips of the updates it took part in and
in nothing else: the last average is that of the last values and of all slips, and runs of
equal slips that end alike can no longer be told apart. -/
theorem departedValuesLeaveTheirSlips (opened : ofSize k = .ok fresh) (full : latest.length = k)
    (accepted : fresh.Accepts (earlier ++ latest))
    (accepted' : fresh.Accepts (earlier' ++ latest)) :
    (fresh.readings (earlier ++ latest)).getLast? =
      ((rounded (((latest.map value).sum + fresh.slips (earlier ++ latest)) / k)).map value).map
        .ok ∧
    (fresh.slips (earlier ++ latest) = fresh.slips (earlier' ++ latest) →
      (fresh.readings (earlier ++ latest)).getLast? =
        (fresh.readings (earlier' ++ latest)).getLast? ∧
      ∀ later, (fresh.after (earlier ++ latest)).readings later =
        (fresh.after (earlier' ++ latest)).readings later) := by
  refine ⟨lastFull opened full accepted, fun same => ⟨?_, readingsAlike ⟨?_, ?_⟩⟩⟩
  · rw [lastFull opened full accepted, lastFull opened full accepted', same]
  · rw [recentFull opened full accepted, recentFull opened full accepted']
  · rw [sumFull opened full accepted, sumFull opened full accepted', same]

end Fresh

theorem fiveLeavesNothing :
    let one : Decimal := ⟨false, 1, 0, by decide, by decide⟩
    let two : Decimal := ⟨false, 2, 0, by decide, by decide⟩
    let five : Decimal := ⟨false, 5, 0, by decide, by decide⟩
    ∃ fresh, ofSize 2 = .ok fresh ∧
      fresh.Accepts ([five] ++ [one, two]) ∧ fresh.Accepts ([] ++ [one, two]) ∧
      (fresh.readings ([five] ++ [one, two])).getLast? =
        (fresh.readings ([] ++ [one, two])).getLast? ∧
      ∀ later, (fresh.after ([five] ++ [one, two])).readings later =
        (fresh.after ([] ++ [one, two])).readings later := by
  refine ⟨⟨[.zero, .zero], 0, .zero, by decide⟩, rfl, by decide +kernel, by decide +kernel, ?_⟩
  exact (departedValuesLeaveTheirSlips rfl rfl (by decide +kernel) (by decide +kernel)).2
    (by decide +kernel)

theorem largeValueLeavesItsSlip :
    let large : Decimal := ⟨false, 10 ^ 28, 0, by decide, by decide⟩
    let tenth : Decimal := ⟨false, 1, 1, by decide, by decide⟩
    ∃ fresh, ofSize 2 = .ok fresh ∧
      fresh.Accepts ([large] ++ [tenth, .zero]) ∧ fresh.Accepts ([.zero] ++ [tenth, .zero]) ∧
      (fresh.readings ([large] ++ [tenth, .zero])).getLast? = some (.ok 0) ∧
      (fresh.readings ([.zero] ++ [tenth, .zero])).getLast? = some (.ok (1 / 20)) := by
  refine ⟨⟨[.zero, .zero], 0, .zero, by decide⟩, rfl, by decide +kernel, by decide +kernel, ?_, ?_⟩
  · decide +kernel
  · decide +kernel

end RuleBroker.Window
