import RuleBroker.Broker
import RuleBroker.Value.Reader
import RuleBroker.Value
/-! A small evaluator: an expression is a word and what the word is about. A rule with
rules below it passes by them; a failing rule is a result, an abort ends the batch. -/
namespace RuleBroker

inductive Phrase where
  | always
  | never
  | present (path : String)
  | equals (path : String) (value : Value)
  | output (path : String)
  | functions
  | call (name : String) (args : List Value)
  | fail (message : String)
  | absent
  | abort (message : String)
  | unknown

namespace Phrase

def cut (s : String) : String × String :=
  let cs := s.toList
  (String.ofList (cs.takeWhile (· ≠ ' ')), String.ofList ((cs.dropWhile (· ≠ ' ')).drop 1))

def document? (s : String) : Option Value := (Value.ofText? s).map Value.canonical

def arguments (s : String) : List Value :=
  match document? s with
  | some (.list vs) => vs
  | _ => []

def read (expression : String) : Phrase :=
  let (word, rest) := cut expression
  match word with
  | "true" => always
  | "false" => never
  | "exists" => present rest
  | "eq" => let (path, value) := cut rest; equals path ((document? value).getD .null)
  | "out" => output rest
  | "funcs" => functions
  | "call" => let (name, args) := cut rest; call name (arguments args)
  | "err" => fail rest
  | "absent" => absent
  | "abort" => abort rest
  | _ => unknown

structure Verdict where
  passed : Bool
  output : Option Value := none

inductive Stop where
  | absent
  | aborted (message : String)

def holds : FunctionValue → Bool
  | .truth b => b
  | .number d => d.isPositive
  | .text s => !s.isEmpty

def decide (registry : Registry) (view : RecordView) (expression : String) :
    Except Stop (Except String Verdict) :=
  match read expression with
  | always => .ok (.ok { passed := true })
  | never => .ok (.ok { passed := false })
  | present path => .ok (.ok { passed := (view.field? path).isSome })
  | equals path value =>
    match view.field? path with
    | none => .ok (.ok { passed := false })
    | some found =>
      if found.same value then .ok (.ok { passed := true })
      else .ok (.ok { passed := false, output := some found })
  | output path => .ok (.ok { passed := true, output := view.field? path })
  | functions =>
    .ok (.ok { passed := !registry.isEmpty, output := some (.list (registry.names.map .text)) })
  | call name args =>
    match registry.call name view args with
    | .ok v => .ok (.ok { passed := holds v, output := some v.toValue })
    | .error e => .ok (.error e.message)
  | fail message => .ok (.error message)
  | absent => .error .absent
  | abort message => .error (.aborted message)
  | unknown => .ok (.error ("Unknown expression: " ++ expression))

def conclude (r : Rule) (v : Verdict) : Outcome :=
  let o :=
    if v.passed then (Outcome.success r.name).withSuccessEvent r.successEvent
    else Outcome.failure r.name (r.errorMessage.getD ("Rule " ++ r.name ++ " failed"))
  { o with output := v.output }

def combine (operator : Option String) (outcomes : List Outcome) : Bool :=
  if operator = some "Or" ∨ operator = some "OrElse" then outcomes.any (·.isSuccess)
  else outcomes.all (·.isSuccess)

mutual

def evaluateRule (registry : Registry) (view : RecordView) : Rule → Except Stop Outcome
  | r@{ expression, operator, rules, .. } =>
    if rules.isEmpty then do
      match ← decide registry view expression with
      | .ok verdict => .ok (conclude r verdict)
      | .error message => .ok (Outcome.failure r.name message)
    else do
      let outcomes ← evaluateRules registry view rules
      .ok ((conclude r { passed := combine operator outcomes }).withChildren outcomes)

def evaluateRules (registry : Registry) (view : RecordView) : List Rule → Except Stop (List Outcome)
  | [] => .ok []
  | r :: rest =>
    if r.enabled then do
      let o ← evaluateRule registry view r
      let os ← evaluateRules registry view rest
      .ok (o :: os)
    else evaluateRules registry view rest

end

def rejectMark : String := "reject "

def rejection? (ws : List Workflow) : Option String :=
  (ws.flatMap (·.rules)).findSome? fun r =>
    if rejectMark.toList.isPrefixOf r.expression.toList then
      some (String.ofList (r.expression.toList.drop rejectMark.length))
    else none

def handle (ws : List Workflow) (registry : Registry) : Handle := fun workflow view =>
  match ws.find? (·.name = workflow) with
  | none => .error (.evaluator ("Unknown workflow: " ++ workflow))
  | some w =>
    match evaluateRules registry view w.rules with
    | .ok outcomes => .ok (some outcomes)
    | .error .absent => .ok none
    | .error (.aborted message) => .error (.evaluator message)

def evaluator : Evaluator := fun ws registry =>
  match rejection? ws with
  | some message => .error (.evaluator message)
  | none => .ok (handle ws registry)

end Phrase
end RuleBroker
