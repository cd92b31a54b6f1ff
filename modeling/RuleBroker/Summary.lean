import RuleBroker.Result
/-! A summary of results: how their times spread, and how often each rule and the
rules directly below it succeeded. -/
namespace RuleBroker

structure Tally where
  successes : Nat := 0
  failures : Nat := 0
  below : List (String × Nat) := []
  deriving DecidableEq, Repr

namespace Tally

def total (t : Tally) : Nat := t.successes + t.failures

def successRate (t : Tally) : Binary64 :=
  if t.total = 0 then .zero else (Binary64.ofNat t.successes).div (Binary64.ofNat t.total)

/-- Counts a result of a rule directly below; its name is listed even if it failed. -/
def addBelow (t : Tally) (r : Result) : Tally :=
  let held := (Fields.find r.ruleName t.below).getD 0
  { t with below := Fields.put r.ruleName (held + if r.success then 1 else 0) t.below }

def add (t : Tally) (r : Result) : Tally :=
  let t := if r.success then { t with successes := t.successes + 1 }
    else { t with failures := t.failures + 1 }
  r.subResults.toList.foldl addBelow t

end Tally

structure Summary where
  results : Nat := 0
  average : Binary64 := .zero
  least : Binary64 := .zero
  greatest : Binary64 := .zero
  rules : List (String × Tally) := []
  deriving DecidableEq, Repr

namespace Summary

def tallyInto (rules : List (String × Tally)) (r : Result) : List (String × Tally) :=
  Fields.put r.ruleName (((Fields.find r.ruleName rules).getD {}).add r) rules

def tallies (rs : List Result) : List (String × Tally) := rs.foldl tallyInto []

def totalTime (rs : List Result) : Binary64 :=
  rs.foldl (fun sum r => sum.add r.milliseconds) .zero

def ofResults (rs : List Result) : Summary :=
  if rs.isEmpty then {}
  else {
    results := rs.length
    average := (totalTime rs).div (Binary64.ofNat rs.length)
    least := rs.foldl (fun low r => low.lesser r.milliseconds) .greatest
    greatest := rs.foldl (fun high r => high.greater r.milliseconds) .least
    rules := tallies rs }

end Summary
end RuleBroker
