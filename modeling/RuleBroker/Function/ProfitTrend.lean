import RuleBroker.Reading
import RuleBroker.Decimal.Text
import RuleBroker.RuleError
import RuleBroker.Function
import RuleBroker.Text.Segments
import RuleBroker.Value
/-! The moving average of yearly profits as a function of rule expressions. Its first argument is a
list of profits or the path of one, its second the least count of years that the average is taken
for. A profit is a year and an exact amount, read from an object or from a pair. The window of the
last amounts keeps a running sum; slots never written hold zero. -/
namespace RuleBroker

structure Profit where
  year : Int
  amount : Decimal
  year_fits : Text.fitsI32 year = true
  deriving DecidableEq

namespace Profit

inductive Slot where
  | year
  | amount
  deriving DecidableEq, Repr

def Slot.ofName? : String → Option Slot
  | "year" => some .year
  | "Year" => some .year
  | "amount" => some .amount
  | "Amount" => some .amount
  | "Profit" => some .amount
  | _ => none

structure Draft where
  year : Option { n : Int // Text.fitsI32 n = true } := none
  amount : Option Decimal := none

def readYear (v : Value) : Except Mismatch { n : Int // Text.fitsI32 n = true } :=
  match v with
  | .int n =>
    if h : Text.fitsI32 n = true then .ok ⟨n, h⟩
    else .error (.value (.integer n) .integer32)
  | v => Reading.wrongType v .integer32

def Draft.put (d : Draft) (v : Value) : Slot → Except Mismatch Draft
  | .year => do
    let year ← Reading.place "year" d.year readYear v
    .ok { d with year }
  | .amount => do
    let amount ← Reading.place "amount" d.amount Reading.decimal v
    .ok { d with amount }

def Draft.finish (d : Draft) : Except Mismatch Profit := do
  let year ← Reading.required "year" d.year
  let amount ← Reading.required "amount" d.amount
  .ok ⟨year.val, amount, year.property⟩

def readFields (d : Draft) : List (String × Value) → Except Mismatch Draft
  | [] => .ok d
  | (name, v) :: rest =>
    match Slot.ofName? name with
    | none => readFields d rest
    | some slot => do readFields (← d.put v slot) rest

def read : Value → Except Mismatch Profit
  | .object fields => do (← readFields {} fields).finish
  | .list [] => .error (.tooShort 0 "ProfitEntry" 2)
  | .list [y] => do
    let _ ← readYear y
    .error (.tooShort 1 "ProfitEntry" 2)
  | .list (y :: a :: rest) => do
    let year ← readYear y
    let amount ← Reading.decimal a
    if rest.isEmpty then .ok ⟨year.val, amount, year.property⟩
    else .error (.tooLong (rest.length + 2))
  | v => Reading.wrongType v (.record "ProfitEntry")

def readAll : Value → Except Mismatch (List Profit) := Reading.sequence read

def toValue (p : Profit) : Value :=
  .object [("amount", .text p.amount.toText), ("year", .int p.year)]

end Profit

def profitMovingAverage : String := "ProfitMovingAverage"

structure Window where
  slots : List Decimal
  index : Nat
  sum : Decimal
  index_lt : index < slots.length

namespace Window

def ofSize (k : Nat) : Except RuleError Window :=
  if h : 0 < k then .ok ⟨List.replicate k .zero, 0, .zero, by simpa using h⟩
  else .error (.configuration "移动平均窗口大小必须大于 0")

def size (w : Window) : Nat := w.slots.length

def oldest (w : Window) : Decimal := w.slots.get ⟨w.index, w.index_lt⟩

def overflow (next : Decimal) : RuleError :=
  .function profitMovingAverage
    ("移动平均计算溢出: 写入 " ++ next.toText ++ " 后窗口和超出十进制范围")

def nextSum (w : Window) (next : Decimal) : Option Decimal :=
  (w.sum.sub w.oldest).bind fun rest => rest.add next

def average (w : Window) (sum : Decimal) : Option Decimal := sum.divNat w.size

def advance (w : Window) (next sum : Decimal) : Window where
  slots := w.slots.set w.index next
  index := (w.index + 1) % w.slots.length
  sum := sum
  index_lt := by
    simp only [List.length_set]
    exact Nat.mod_lt _ (Nat.lt_of_le_of_lt (Nat.zero_le _) w.index_lt)

def update (w : Window) (next : Decimal) : Except RuleError (Decimal × Window) :=
  match w.nextSum next with
  | none => .error (overflow next)
  | some sum =>
    match w.average sum with
    | none => .error (overflow next)
    | some average => .ok (average, w.advance next sum)

end Window

namespace ProfitTrend

def windowSize : Nat := 4

def lastAverage (w : Window) (average : Decimal) : List Profit → Except RuleError Decimal
  | [] => .ok average
  | p :: rest => do
    let (average, w) ← w.update p.amount
    lastAverage w average rest

def average (profits : List Profit) (least : Int) : Except RuleError Decimal :=
  if profits.length < least then .ok .zero
  else do lastAverage (← Window.ofSize windowSize) .zero profits

def fault (message : String) : RuleError := .function profitMovingAverage message

def resolve (view : RecordView) : Value → Except RuleError Value
  | .list vs => .ok (.list vs)
  | .text path =>
    match view.field? path with
    | some v => .ok v
    | none => .error (fault ("记录中不存在字段: " ++ path))
  | .null => .ok .null
  | v => .error (fault ("利润序列参数类型无效: " ++ v.toText))

def series (view : RecordView) (arg : Value) : Except RuleError (List Profit) := do
  let v ← resolve view arg
  if v.isNull then .ok []
  else match Profit.readAll v with
    | .ok profits => .ok profits
    | .error mismatch => .error (fault ("利润序列格式无效: " ++ mismatch.message))

/-- The least count: an integer, the whole part of another number, or an integer text. -/
def least? : Value → Option Int
  | .int n => if Text.fitsI64 n then some n else some (clamp (Binary64.ofInt n))
  | .float x => some (clamp x)
  | .text s => Text.readI64 (Text.trim s.toList)
  | _ => none
where
  clamp (x : Binary64) : Int := x.wholeWithin Text.leastI64 Text.greatestI64

def least (arg : Value) : Except RuleError Int :=
  match least? arg with
  | some n => .ok n
  | none => .error (fault ("minAverages 参数无效: " ++ arg.toText))

def call (view : RecordView) : List Value → Except RuleError FunctionValue
  | [seriesArg, leastArg] => do
    let profits ← series view seriesArg
    let least ← least leastArg
    .number <$> average profits least
  | args =>
    .error (fault ("需要 2 个参数 (series, minAverages)，实际 " ++ countText args.length ++ " 个"))

def function : Function where
  name := profitMovingAverage
  call := call

def provider : Provider where
  qualifier := "ComplexRules"
  functions := [function]

end ProfitTrend
end RuleBroker
