import RuleBroker.Text.Digits
/-! What can go wrong while rules are configured or run, with the code and the message of each
cause, and what a part of a record or document says about why it cannot be taken. A rule that fails
on a record is not among them: that is a result. Computations of several stages that may each fail
are taken apart: success is success of every stage, an error that of the first stage that fails. -/
namespace RuleBroker

namespace Stages

variable {ε α β : Type} {x : Except ε α} {f : α → Except ε β} {e : ε} {b : β}

theorem bindOk : x >>= f = .ok b ↔ ∃ a, x = .ok a ∧ f a = .ok b := by
  cases x <;> simp [bind, Except.bind]

theorem bindError : x >>= f = .error e ↔ x = .error e ∨ ∃ a, x = .ok a ∧ f a = .error e := by
  cases x <;> simp [bind, Except.bind]

end Stages

inductive RuleError where
  | configuration (fault : String)
  | notFound (name location : String)
  | notConfigured
  | serialization (recordId source : String)
  | alreadyExecuting
  | evaluator (fault : String)
  | function (name fault : String)
  | unreadable (path source : String)
  | unparsable (path source : String)
  deriving DecidableEq, Repr

namespace RuleError

def message : RuleError → String
  | configuration fault => "配置失败: " ++ fault
  | notFound name location => "规则定义未找到: " ++ name ++ " (查找位置 " ++ location ++ ")"
  | notConfigured => "规则代理尚未配置"
  | serialization recordId source => "记录 " ++ recordId ++ " 无法转换为通用视图: " ++ source
  | alreadyExecuting => "规则代理正在执行中，不允许重入调用"
  | evaluator fault => "表达式评估器错误: " ++ fault
  | function name fault => "自定义函数 " ++ name ++ " 调用失败: " ++ fault
  | unreadable path source => "读取规则文件失败: " ++ path ++ ": " ++ source
  | unparsable path source => "规则文件解析失败: " ++ path ++ ": " ++ source

def code : RuleError → String
  | configuration _ | unparsable _ _ => "CONFIGURATION_ERROR"
  | notFound _ _ => "NOT_FOUND"
  | notConfigured => "NOT_CONFIGURED"
  | serialization _ _ => "SERIALIZATION_ERROR"
  | alreadyExecuting => "ALREADY_EXECUTING"
  | evaluator _ => "EVALUATOR_ERROR"
  | function _ _ => "FUNCTION_ERROR"
  | unreadable _ _ => "IO_ERROR"

def isConfigurationFailure : RuleError → Bool
  | configuration _ | notFound _ _ | unreadable _ _ | unparsable _ _ => true
  | _ => false

def source? : RuleError → Option String
  | serialization _ source | unreadable _ source | unparsable _ source => some source
  | _ => none

end RuleError

structure Complaint where
  text : String
  line : Nat := 0
  column : Nat := 0
  deriving DecidableEq, Repr

namespace Complaint

def lineMark : List Char := " at line ".toList
def columnMark : List Char := " column ".toList

def readPlace (cs : List Char) : Option (Nat × Nat) :=
  let line := cs.takeWhile Char.isDigit
  let rest := cs.drop line.length
  if rest.take columnMark.length = columnMark then do
    let column := rest.drop columnMark.length
    some ((← (Text.readNat line).filter (· < twoTo 64)),
      (← (Text.readNat column).filter (· < twoTo 64)))
  else none

def splitLast : List Char → Option (List Char × List Char)
  | [] => none
  | c :: cs =>
    match splitLast cs with
    | some (front, back) => some (c :: front, back)
    | none =>
      if (c :: cs).take lineMark.length = lineMark then
        some ([], (c :: cs).drop lineMark.length)
      else none

def ofText (s : String) : Complaint :=
  match splitLast s.toList with
  | none => { text := s }
  | some (front, back) =>
    match readPlace back with
    | none => { text := s }
    | some (line, column) => { text := String.ofList front, line, column }

def message (c : Complaint) : String :=
  if c.line = 0 then c.text
  else c.text ++ " at line " ++ String.ofList (Text.digits c.line) ++ " column " ++
    String.ofList (Text.digits c.column)

end Complaint
end RuleBroker
