import RuleBroker.Proofs.DecimalText
import RuleBroker.Proofs.ExactAverage
/-! Calls of the moving average from end to end. A list of profits that was written and is
handed over, by path or as it is, with a least count in any spelling, is answered like the list
itself. Only the sign of a zero does not survive being written and read. -/
namespace RuleBroker

namespace Text

variable {before core after : List Char} {m : Int}

theorem trimBetween (left : ∀ c ∈ before, isBlank c = true) (right : ∀ c ∈ after, isBlank c = true)
    (solid : ∀ c ∈ core, isBlank c = false) : trim (before ++ core ++ after) = core := by
  have kept {cs : List Char} (inner : ∀ c ∈ cs, isBlank c = false) : cs.dropWhile isBlank = cs := by
    cases cs with
    | nil => rfl
    | cons c rest => rw [List.dropWhile_cons_of_neg (by simp [inner c])]
  have ending : ((core ++ after).reverse.dropWhile isBlank).reverse = core := by
    rw [List.reverse_append, List.dropWhile_append_of_pos (by simpa using right),
      kept (by simpa using solid), List.reverse_reverse]
  rw [trim, List.append_assoc, List.dropWhile_append_of_pos left]
  cases core with
  | nil =>
    rw [List.nil_append, List.dropWhile_eq_nil_iff.mpr right]
    rfl
  | cons c rest =>
    rw [List.cons_append, List.dropWhile_cons_of_neg (by simp [solid c])]
    exact ending

theorem digitSolid {c : Char} (isDigit : c.isDigit = true) : isBlank c = false := by
  obtain ⟨low, high⟩ := digitRange isDigit
  simp only [isBlank, Bool.or_eq_false_iff, Bool.and_eq_false_iff, decide_eq_false_iff_not,
    beq_eq_false_iff_ne]
  omega

theorem integerSolid {c : Char} (inside : c ∈ integer m) : isBlank c = false := by
  cases m with
  | ofNat n => exact digitSolid (digitsAreDigits inside)
  | negSucc n =>
    rcases List.mem_cons.mp inside with rfl | digit
    · decide
    · exact digitSolid (digitsAreDigits digit)

theorem readPlus (positive : 0 ≤ m) : readInteger ('+' :: integer m) = some m := by
  obtain ⟨n, rfl⟩ := Int.eq_ofNat_of_zero_le positive
  have digitsAlone : integer (n : Int) = digits n := rfl
  rw [digitsAlone, readInteger, readNatDigits]
  rfl

end Text

namespace Profit

def plain (p : Profit) : Profit := { p with amount := p.amount.plain }

theorem plainSelf {p : Profit} (unsigned : p.amount.isZero = true → p.amount.negative = false) :
    p.plain = p := by
  rw [plain, Decimal.plainSelf unsigned]

def written (profits : List Profit) : Value := .list (profits.map toValue)

theorem readWritten (p : Profit) : read p.toValue = .ok p.plain := by
  have amount : Reading.decimal (.text p.amount.toText) = .ok p.amount.plain := by
    rw [Reading.decimal, Decimal.ofTextToText]
    rfl
  have year : readYear (.int p.year) = .ok ⟨p.year, p.year_fits⟩ := dif_pos p.year_fits
  simp only [read, toValue, readFields, Slot.ofName?, Draft.put, Reading.place, amount, year]
  rfl

theorem readAllWritten (profits : List Profit) :
    readAll (written profits) = .ok (profits.map plain) := by
  rw [readAll, written, Reading.sequence]
  induction profits with
  | nil => rfl
  | cons p rest ih =>
    rw [List.map_cons, Reading.items, readWritten, ih]
    rfl

end Profit

namespace ProfitTrend
open Profit (written)

inductive Given (view : RecordView) (profits : List Profit) : Value → Prop
  | inline : Given view profits (written profits)
  | path {path} (found : view.field? path = some (written profits)) :
      Given view profits (.text path)

inductive Spelled (m : Int) : Value → Prop
  | number : Spelled m (.int m)
  | text {before sign after} (left : ∀ c ∈ before, Text.isBlank c = true)
      (right : ∀ c ∈ after, Text.isBlank c = true) (plus : sign = [] ∨ sign = ['+'] ∧ 0 ≤ m) :
      Spelled m (.text (String.ofList (before ++ (sign ++ Text.integer m) ++ after)))

/-- The same number, or the overflow of the same update, in whose message a zero has no sign. -/
inductive Alike : Except RuleError Decimal → Except RuleError Decimal → Prop
  | average {a b} (same : a.Equal b) : Alike (.ok a) (.ok b)
  | overflow (next : Decimal) :
      Alike (.error (Window.overflow next.plain)) (.error (Window.overflow next))

variable {view : RecordView} {profits : List Profit} {arg : Value} {m : Int} {w w' : Window}
  {a a' : Decimal}

theorem seriesGiven (given : Given view profits arg) :
    series view arg = .ok (profits.map Profit.plain) := by
  have found : resolve view arg = .ok (written profits) := by
    cases given with
    | inline => rfl
    | path found => rw [resolve, found]
  have filled : (written profits).isNull = false := rfl
  simp only [series, found, filled, Profit.readAllWritten, bind, Except.bind, Bool.false_eq_true,
    if_false]

theorem leastSpelled (fits : Text.fitsI64 m = true) (spelled : Spelled m arg) :
    least arg = .ok m := by
  have known : least? arg = some m := by
    cases spelled with
    | number => rw [least?, if_pos fits]
    | @text before sign after left right plus =>
      have solid : ∀ c ∈ sign ++ Text.integer m, Text.isBlank c = false := by
        intro c inside
        rcases List.mem_append.mp inside with signed | digit
        · rcases plus with rfl | ⟨rfl, _⟩
          · cases signed
          · rw [List.mem_singleton.mp signed]
            decide
        · exact Text.integerSolid digit
      have read : Text.readInteger (sign ++ Text.integer m) = some m := by
        rcases plus with rfl | ⟨rfl, positive⟩
        · exact Text.readIntegerInteger m
        · exact Text.readPlus positive
      rw [least?, String.toList_ofList, Text.trimBetween left right solid, Text.readI64, read,
        Option.filter_some, if_pos fits]
  rw [least, known]

theorem lastAverageAlike (alike : w.Alike w') (same : a.Equal a') (profits : List Profit) :
    Alike (lastAverage w a (profits.map Profit.plain)) (lastAverage w' a' profits) := by
  induction profits generalizing w w' a a' with
  | nil => exact .average same
  | cons p rest ih =>
    have amount : p.plain.amount.value = p.amount.value := Decimal.plainValue p.amount
    rw [List.map_cons, lastAverageCons, lastAverageCons]
    rcases Window.settleAlike alike amount with
      ⟨refused, refused'⟩ | ⟨sum, next, sum', next', settled, settled', same, onward⟩
    · rw [Window.stepRefused refused, Window.stepRefused refused']
      exact .overflow p.amount
    · rw [Window.stepTaken settled, Window.stepTaken settled']
      exact ih onward (Decimal.valueEqual.mp same)

theorem averagePlain (profits : List Profit) (m : Int) :
    Alike (average (profits.map Profit.plain) m) (average profits m) := by
  have zeros : Decimal.zero.Equal .zero := rfl
  unfold average
  rw [List.length_map]
  split
  · exact .average zeros
  · exact lastAverageAlike ⟨rfl, rfl⟩ zeros profits

theorem callDecoded {seriesArg leastArg : Value} {least : Int}
    (decoded : series view seriesArg = .ok profits)
    (known : ProfitTrend.least leastArg = .ok least) :
    call view [seriesArg, leastArg] = .number <$> average profits least := by
  rw [call, decoded, known]
  rfl

/-- A call on written profits answers what the profits themselves are answered, whatever way
they and the least count are handed over. An overflow at a negative zero is told without the
sign; where there is none, both answers are the same in all. -/
theorem callAnswersAsTheProfits (profits : List Profit) (m : Int) (fits : Text.fitsI64 m = true)
    (view : RecordView) {seriesArg leastArg : Value} (given : Given view profits seriesArg)
    (spelled : Spelled m leastArg) :
    ∃ answer, call view [seriesArg, leastArg] = .number <$> answer ∧
      Alike answer (average profits m) ∧
      ((∀ p ∈ profits, p.amount.isZero = true → p.amount.negative = false) →
        answer = average profits m) := by
  refine ⟨_, callDecoded (seriesGiven given) (leastSpelled fits spelled), averagePlain profits m,
    fun unsigned => ?_⟩
  have kept : profits.map Profit.plain = profits := by
    have each : ∀ p ∈ profits, p.plain = id p := fun p inside =>
      Profit.plainSelf (unsigned p inside)
    rw [List.map_congr_left each, List.map_id]
  rw [kept]

theorem zeroLosesItsSign :
    let most : Decimal := ⟨false, Decimal.greatestCoefficient, 0, by decide, by decide⟩
    let zero (negative : Bool) : Decimal := ⟨negative, 0, 28, by decide, by decide⟩
    let profits := [most.neg, most, most, .zero, zero true].map fun d => ⟨2020, d, rfl⟩
    average profits 1 = .error (Window.overflow (zero true)) ∧
      call {} [written profits, .int 1] = .error (Window.overflow (zero false)) ∧
      Window.overflow (zero false) ≠ Window.overflow (zero true) := by
  refine ⟨?_, ?_, ?_⟩
  · rfl
  · rfl
  · decide +kernel

theorem nestedProfitsAnswer :
    let ten : Decimal := ⟨false, 100, 1, by decide, by decide⟩
    let loss : Decimal := ⟨true, 25, 1, by decide, by decide⟩
    let profits : List Profit := [⟨2020, ten, rfl⟩, ⟨2019, loss, rfl⟩]
    let view : RecordView := ⟨.object [("a", .list [written profits])]⟩
    ∃ answer, call view [.text "a.0", .text " +2\n"] = .number <$> answer ∧
      Alike answer (average profits 2) ∧ answer = average profits 2 := by
  intro ten loss profits view
  have given : Given view profits (.text "a.0") := .path (by rfl)
  have spelled : Spelled 2 (.text " +2\n") := by
    have spaced : " +2\n" = String.ofList ([' '] ++ (['+'] ++ Text.integer 2) ++ ['\n']) := by rfl
    rw [spaced]
    have blank (c : Char) (known : c = ' ' ∨ c = '\n') : Text.isBlank c = true := by
      rcases known with rfl | rfl <;> rfl
    exact .text (by simp [blank]) (by simp [blank]) (.inr ⟨rfl, by decide⟩)
  obtain ⟨answer, called, alike, same⟩ :=
    callAnswersAsTheProfits profits 2 (by decide) view given spelled
  exact ⟨answer, called, alike, same (by decide)⟩

end ProfitTrend
end RuleBroker
