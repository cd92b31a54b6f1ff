import Mathlib.Algebra.GroupWithZero.Nat
import Mathlib.Data.List.Induction
import RuleBroker.Proofs.Lookup
import RuleBroker.Summary
/-! Tallies as counts. The tally of a rule tells how many of its results succeeded and how
many failed, and of each rule directly below it how often that succeeded; no deeper result
counts. So tallies of a list add up from those of its parts, in whatever order they stand. -/
namespace RuleBroker

namespace Fields

variable {α : Type} {name : String} {value : α} {fields others : List (String × α)}

theorem findPut (name other : String) (value : α) (fields : List (String × α)) :
    find name (put other value fields) = if name = other then some value else find name fields := by
  split
  · next same => rw [same, findPutSelf]
  · next differs => exact findPutOther differs value fields

theorem sumPut (name : String) (f : α → Nat) (value : α) (ordered : Ordered fields) :
    ((put name value fields).map fun e => f e.2).sum + ((find name fields).map f).getD 0 =
      (fields.map fun e => f e.2).sum + f value := by
  induction fields with
  | nil => simp [put, find]
  | cons entry rest ih =>
    obtain ⟨other, held⟩ := entry
    obtain ⟨above, ordered⟩ := List.pairwise_cons.mp ordered
    have later := ih ordered
    simp only [put]
    split
    · next less =>
      have absent : find name ((other, held) :: rest) = none := by
        refine lookupNone.mpr fun inside => ?_
        rcases List.mem_cons.mp inside with rfl | inside
        · exact Std.lt_irrefl less
        · exact Std.lt_irrefl (String.lt_trans less (above name inside))
      rw [absent, List.map_cons, List.sum_cons]
      simp only [Option.map_none, Option.getD_none]
      omega
    · split
      · next same =>
        subst same
        simp only [find, List.lookup_cons_self, List.map_cons, List.sum_cons, Option.map_some,
          Option.getD_some]
        omega
      · next differs =>
        rw [find, lookupTail differs, ← find, List.map_cons, List.sum_cons, List.map_cons,
          List.sum_cons]
        omega

theorem orderedExt (ordered : Ordered fields) (ordered' : Ordered others)
    (same : ∀ name, find name fields = find name others) : fields = others := by
  have member (name : String) (value : α) : (name, value) ∈ fields ↔ (name, value) ∈ others := by
    rw [← lookupMember (ascendingNodup ordered), ← lookupMember (ascendingNodup ordered')]
    exact Eq.congr_left (same name)
  exact ascendingExt Prod.fst ordered ordered' fun f => member f.1 f.2

end Fields

def Result.directlyBelow (rs : List Result) : List Result := rs.flatMap fun r => r.subResults.toList

namespace Tally

def tallied (name : String) (rs : List Result) : Option Nat :=
  if name ∈ rs.map Result.ruleName then
    some (rs.countP fun r => r.ruleName = name && r.success)
  else none

structure Counts (t : Tally) (rs : List Result) : Prop where
  successes : t.successes = rs.countP fun r => r.success
  failures : t.failures = rs.countP fun r => !r.success
  ascending : Fields.Ordered t.below
  below : ∀ name, Fields.find name t.below = tallied name (Result.directlyBelow rs)

variable {t u v : Tally} {r : Result} {rs ss cs ds : List Result} {name : String}

theorem talliedNone (absent : name ∉ rs.map Result.ruleName) :
    (rs.countP fun r => r.ruleName = name && r.success) = 0 := by
  refine List.countP_eq_zero.mpr fun r inside counted => ?_
  simp only [Bool.and_eq_true, decide_eq_true_eq] at counted
  exact absent (counted.1 ▸ List.mem_map_of_mem inside)

theorem talliedAppend (name : String) (rs ss : List Result) : tallied name (rs ++ ss) =
    Option.merge (· + ·) (tallied name rs) (tallied name ss) := by
  simp only [tallied, List.map_append, List.mem_append, List.countP_append]
  by_cases here : name ∈ rs.map Result.ruleName <;>
    by_cases there : name ∈ ss.map Result.ruleName
  · simp [here, there]
  · simp [here, there, talliedNone there]
  · simp [here, there, talliedNone here]
  · simp [here, there]

theorem talliedOne (name : String) (r : Result) : tallied name [r] =
    if name = r.ruleName then some (if r.success then 1 else 0) else none := by
  by_cases same : name = r.ruleName
  · simp [tallied, same, List.countP_cons]
  · simp [tallied, same]

theorem findAddBelow (name : String) (t : Tally) (r : Result) :
    Fields.find name (t.addBelow r).below =
      Option.merge (· + ·) (Fields.find name t.below) (tallied name [r]) := by
  rw [addBelow, Fields.findPut, talliedOne]
  split
  · next same =>
    rw [same]
    cases Fields.find r.ruleName t.below with
    | none => simp
    | some held => simp
  · cases Fields.find name t.below <;> rfl

theorem addBelowKeeps (t : Tally) (cs : List Result) :
    (cs.foldl addBelow t).successes = t.successes ∧
    (cs.foldl addBelow t).failures = t.failures := by
  induction cs generalizing t with
  | nil => exact ⟨rfl, rfl⟩
  | cons r rest ih => exact ih (t.addBelow r)

theorem addBelowAll (cs : List Result) (ascending : Fields.Ordered t.below) :
    Fields.Ordered (cs.foldl addBelow t).below ∧
    ∀ name, Fields.find name (cs.foldl addBelow t).below =
      Option.merge (· + ·) (Fields.find name t.below) (tallied name cs) := by
  induction cs generalizing t with
  | nil =>
    refine ⟨ascending, fun name => ?_⟩
    rw [List.foldl_nil]
    cases Fields.find name t.below <;> rfl
  | cons r rest ih =>
    obtain ⟨ordered, found⟩ := ih (t := t.addBelow r) (Fields.orderedPut ascending)
    refine ⟨ordered, fun name => ?_⟩
    have split : tallied name (r :: rest) = _ := talliedAppend name [r] rest
    rw [List.foldl_cons, found, findAddBelow, split]
    exact (Option.associative_merge (fun m n : Nat => m + n)).assoc _ _ _

theorem countsNone : Counts {} [] := ⟨rfl, rfl, .nil, fun _ => rfl⟩

theorem countsBelow (counts : t.Counts rs)
    (successes : u.successes = (rs ++ [r]).countP fun r => r.success)
    (failures : u.failures = (rs ++ [r]).countP fun r => !r.success) (same : u.below = t.below) :
    (r.subResults.toList.foldl addBelow u).Counts (rs ++ [r]) := by
  obtain ⟨keptSuccesses, keptFailures⟩ := addBelowKeeps u r.subResults.toList
  obtain ⟨ascending, found⟩ := addBelowAll r.subResults.toList (same ▸ counts.ascending)
  refine ⟨keptSuccesses.trans successes, keptFailures.trans failures, ascending, fun name => ?_⟩
  have below : Result.directlyBelow (rs ++ [r]) =
      Result.directlyBelow rs ++ r.subResults.toList := by
    simp [Result.directlyBelow]
  rw [found, same, below, talliedAppend, counts.below]

theorem countsAdd (counts : t.Counts rs) (r : Result) : (t.add r).Counts (rs ++ [r]) := by
  unfold add
  cases success : r.success with
  | true =>
    exact countsBelow counts (by simp [success, counts.successes])
      (by simp [success, counts.failures]) rfl
  | false =>
    exact countsBelow counts (by simp [success, counts.successes])
      (by simp [success, counts.failures]) rfl

theorem countsOnly (counts : t.Counts rs) (counts' : u.Counts rs) : t = u := by
  have below : t.below = u.below := Fields.orderedExt counts.ascending counts'.ascending
    fun name => (counts.below name).trans (counts'.below name).symm
  have successes := counts.successes.trans counts'.successes.symm
  have failures := counts.failures.trans counts'.failures.symm
  cases t
  exact (mk.injEq ..).mpr ⟨successes, failures, below⟩

theorem talliedPerm (perm : cs.Perm ds) (name : String) : tallied name cs = tallied name ds := by
  simp only [tallied, (perm.map Result.ruleName).mem_iff, perm.countP_eq]

theorem countsPerm (counts : t.Counts rs) (perm : rs.Perm ss) : t.Counts ss where
  successes := counts.successes.trans (perm.countP_eq _)
  failures := counts.failures.trans (perm.countP_eq _)
  ascending := counts.ascending
  below name := (counts.below name).trans (talliedPerm (perm.flatMap_right _) name)

structure Sum (t u both : Tally) : Prop where
  successes : both.successes = t.successes + u.successes
  failures : both.failures = t.failures + u.failures
  below : ∀ name, Fields.find name both.below =
    Option.merge (· + ·) (Fields.find name t.below) (Fields.find name u.below)

theorem countsSum (counts : t.Counts rs) (counts' : u.Counts ss) (both : v.Counts (rs ++ ss)) :
    Sum t u v where
  successes := by
    rw [both.successes, counts.successes, counts'.successes, List.countP_append]
  failures := by
    rw [both.failures, counts.failures, counts'.failures, List.countP_append]
  below name := by
    have below : Result.directlyBelow (rs ++ ss) =
      Result.directlyBelow rs ++ Result.directlyBelow ss := List.flatMap_append
    rw [both.below, counts.below, counts'.below, below, talliedAppend]

theorem totalAdd (t : Tally) (r : Result) : (t.add r).total = t.total + 1 := by
  unfold add
  obtain ⟨successes, failures⟩ := addBelowKeeps (if r.success then
    { t with successes := t.successes + 1 } else { t with failures := t.failures + 1 })
    r.subResults.toList
  rw [total, successes, failures, total]
  cases r.success with
  | true => exact Nat.add_right_comm _ _ _
  | false => rfl

end Tally

namespace Summary

def ofRule (name : String) (rs : List Result) : List Result := rs.filter (·.ruleName = name)

structure Counts (rules : List (String × Tally)) (rs : List Result) : Prop where
  ascending : Fields.Ordered rules
  names : ∀ name, Fields.find name rules = none ↔ name ∉ rs.map Result.ruleName
  tallies : ∀ name t, Fields.find name rules = some t → t.Counts (ofRule name rs)

structure Sum (rules others both : List (String × Tally)) : Prop where
  names : ∀ name, Fields.find name both = none ↔
    Fields.find name rules = none ∧ Fields.find name others = none
  tallies : ∀ name t, Fields.find name both = some t →
    Tally.Sum ((Fields.find name rules).getD {}) ((Fields.find name others).getD {}) t

variable {rules others both : List (String × Tally)} {rs ss : List Result} {name : String}

theorem ofRuleAppend (name : String) (rs ss : List Result) :
    ofRule name (rs ++ ss) = ofRule name rs ++ ofRule name ss :=
  List.filter_append _ _

theorem ofRuleOne (name : String) (r : Result) :
    ofRule name [r] = if name = r.ruleName then [r] else [] := by
  by_cases same : name = r.ruleName
  · simp [ofRule, same]
  · simp [ofRule, same, Ne.symm same]

theorem ofRuleNone (absent : name ∉ rs.map Result.ruleName) : ofRule name rs = [] := by
  refine List.filter_eq_nil_iff.mpr fun r inside same => ?_
  exact absent (of_decide_eq_true same ▸ List.mem_map_of_mem inside)

theorem countsHeld (counts : Counts rules rs) (name : String) :
    ((Fields.find name rules).getD {}).Counts (ofRule name rs) := by
  cases found : Fields.find name rules with
  | none =>
    rw [ofRuleNone ((counts.names name).mp found)]
    exact Tally.countsNone
  | some t => exact counts.tallies name t found

theorem countsInto (counts : Counts rules rs) (r : Result) :
    Counts (tallyInto rules r) (rs ++ [r]) := by
  refine ⟨Fields.orderedPut counts.ascending, fun name => ?_, fun name t found => ?_⟩
  · rw [tallyInto, Fields.findPut, List.map_append, List.mem_append]
    split
    · next same => simp [same]
    · next differs => simp [differs, counts.names name]
  · rw [tallyInto, Fields.findPut] at found
    rw [ofRuleAppend, ofRuleOne]
    split at found
    · next same =>
      cases found
      rw [if_pos same, same]
      exact Tally.countsAdd (countsHeld counts r.ruleName) r
    · next differs =>
      rw [if_neg differs, List.append_nil]
      exact counts.tallies name t found

theorem countsTallies (rs : List Result) : Counts (tallies rs) rs := by
  induction rs using List.reverseRecOn with
  | nil => exact ⟨.nil, fun _ => ⟨fun _ => List.not_mem_nil, fun _ => rfl⟩, fun _ _ => nofun⟩
  | append_singleton rs r ih =>
    rw [tallies, List.foldl_append]
    exact countsInto ih r

theorem totalTallies (rs : List Result) :
    ((tallies rs).map fun e => e.2.total).sum = rs.length := by
  induction rs using List.reverseRecOn with
  | nil => rfl
  | append_singleton rs r ih =>
    have put := Fields.sumPut r.ruleName Tally.total
      (((Fields.find r.ruleName (tallies rs)).getD {}).add r) (countsTallies rs).ascending
    have held : ((Fields.find r.ruleName (tallies rs)).getD {}).total =
        ((Fields.find r.ruleName (tallies rs)).map Tally.total).getD 0 := by
      cases Fields.find r.ruleName (tallies rs) <;> rfl
    rw [Tally.totalAdd, held] at put
    have last : tallies (rs ++ [r]) = tallyInto (tallies rs) r := List.foldl_append
    rw [last, tallyInto, List.length_append, List.length_singleton]
    omega

theorem countsOnly (counts : Counts rules rs) (counts' : Counts others rs) : rules = others := by
  refine Fields.orderedExt counts.ascending counts'.ascending fun name => ?_
  cases found : Fields.find name rules with
  | none => exact ((counts'.names name).mpr ((counts.names name).mp found)).symm
  | some t =>
    cases found' : Fields.find name others with
    | none => rw [(counts.names name).mpr ((counts'.names name).mp found')] at found; cases found
    | some u =>
      exact congrArg some (Tally.countsOnly (counts.tallies name t found)
        (counts'.tallies name u found'))

theorem countsPerm (counts : Counts rules rs) (perm : rs.Perm ss) : Counts rules ss where
  ascending := counts.ascending
  names name := by rw [counts.names, (perm.map Result.ruleName).mem_iff]
  tallies name t found := Tally.countsPerm (counts.tallies name t found) (perm.filter _)

theorem countsSum (counts : Counts rules rs) (counts' : Counts others ss)
    (all : Counts both (rs ++ ss)) : Sum rules others both where
  names name := by
    rw [all.names, counts.names, counts'.names, List.map_append, List.mem_append, not_or]
  tallies name t found := by
    have own := all.tallies name t found
    rw [ofRuleAppend] at own
    exact Tally.countsSum (countsHeld counts name) (countsHeld counts' name) own

theorem ofResultsRules (rs : List Result) : (ofResults rs).rules = tallies rs := by
  cases rs <;> rfl

/-- A summary's tallies are counts, which come to the number of results together. Those of two
lists in a row are the sums of each list's own, rule by rule and name by name below it, and
the order of the results does not matter. -/
theorem talliesAreCounts (rs : List Result) :
    (ofResults rs).results = rs.length ∧
    ((ofResults rs).rules.map fun e => e.2.total).sum = rs.length ∧
    Counts (ofResults rs).rules rs ∧
    (∀ more, Sum (ofResults rs).rules (ofResults more).rules (ofResults (rs ++ more)).rules) ∧
    ∀ others, rs.Perm others → (ofResults others).results = (ofResults rs).results ∧
      (ofResults others).rules = (ofResults rs).rules := by
  have length (rs : List Result) : (ofResults rs).results = rs.length := by
    cases rs <;> rfl
  simp only [ofResultsRules, length]
  refine ⟨trivial, totalTallies rs, countsTallies rs, fun more => ?_, fun others perm => ?_⟩
  · exact countsSum (countsTallies rs) (countsTallies more) (countsTallies (rs ++ more))
  · exact ⟨perm.length_eq.symm,
      (countsOnly (countsPerm (countsTallies rs) perm) (countsTallies others)).symm⟩

theorem bandsTallyInAnyOrder :
    let red : Result := ⟨"rec", "one", "red", "simple", false, none, none, none, .zero,
      .nested [⟨"rec", "one", "deep", "simple", true, none, none, none, .zero, .leaf⟩]⟩
    let band (success : Bool) (below : List Result) : Result :=
      ⟨"rec", "one", "band", "simple", success, none, none, none, .zero, .nested below⟩
    let rs := [band true [red], band false [red]]
    rs.Perm rs.reverse ∧
      (ofResults rs).rules = [("band", { successes := 1, failures := 1, below := [("red", 0)] })] ∧
      (ofResults rs.reverse).rules = (ofResults rs).rules := by
  intro red band rs
  have perm : rs.Perm rs.reverse := (List.reverse_perm rs).symm
  obtain ⟨_, _, _, _, reordered⟩ := talliesAreCounts rs
  exact ⟨perm, by decide, (reordered _ perm).2⟩

end Summary
end RuleBroker
