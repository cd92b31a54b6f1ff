import RuleBroker.Proofs.Flattening
import RuleBroker.Proofs.FloatBounds
import RuleBroker.Result.Written
import RuleBroker.Value.Canonical
/-! Results written as values and read back. Every field comes back as it was, at every
depth, but for an output that is null: that is written as no output is, and read as none.
Times come back because the share of any time among any nodes is finite. -/
namespace RuleBroker.Result

mutual

def withOutputs (f : Option Value → Option Value) : Result → Result
  | { recordId, recordDescription, ruleName, workflow, success, successEvent, lastError, output,
      milliseconds, subResults } =>
    ⟨recordId, recordDescription, ruleName, workflow, success, successEvent, lastError, f output,
      milliseconds, withOutputsBelow f subResults⟩

def withOutputsBelow (f : Option Value → Option Value) : Children Result → Children Result
  | .leaf => .leaf
  | .nested items => .nested (withOutputsAll f items)

def withOutputsAll (f : Option Value → Option Value) : List Result → List Result
  | [] => []
  | r :: rest => withOutputs f r :: withOutputsAll f rest

end

def unlessNull (output : Option Value) : Option Value := output.filter (!·.isNull)

def settled (r : Result) : Result := withOutputs unlessNull r

mutual

theorem withOutputsAgree {f g : Option Value → Option Value} : ∀ r : Result,
    withOutputs f r = withOutputs g r ↔ ∀ n ∈ nodes r, f n.output = g n.output
  | ⟨_, _, _, _, _, _, _, output, _, subResults⟩ => by
    simp [withOutputs, nodes, withOutputsBelowAgree subResults]

theorem withOutputsBelowAgree {f g : Option Value → Option Value} : ∀ c : Children Result,
    withOutputsBelow f c = withOutputsBelow g c ↔ ∀ n ∈ nodesBelow c, f n.output = g n.output
  | .leaf => by simp [withOutputsBelow, nodesBelow]
  | .nested items => by simp [withOutputsBelow, nodesBelow, withOutputsAllAgree items]

theorem withOutputsAllAgree {f g : Option Value → Option Value} : ∀ rs : List Result,
    withOutputsAll f rs = withOutputsAll g rs ↔ ∀ n ∈ nodesAll rs, f n.output = g n.output
  | [] => by simp [withOutputsAll, nodesAll]
  | r :: rest => by
    simp [withOutputsAll, nodesAll, or_imp, forall_and, withOutputsAgree r,
      withOutputsAllAgree rest]

end

mutual

theorem withOutputsId : ∀ r : Result, withOutputs id r = r
  | { subResults, .. } => by simp [withOutputs, withOutputsBelowId subResults]

theorem withOutputsBelowId : ∀ c : Children Result, withOutputsBelow id c = c
  | .leaf => rfl
  | .nested items => by simp [withOutputsBelow, withOutputsAllId items]

theorem withOutputsAllId : ∀ rs : List Result, withOutputsAll id rs = rs
  | [] => rfl
  | r :: rest => by simp [withOutputsAll, withOutputsId r, withOutputsAllId rest]

end

theorem Slot.ofLabels :
    ofLabel? "RecordId" = some .recordId ∧
    ofLabel? "RecordDescription" = some .recordDescription ∧
    ofLabel? "RuleName" = some .ruleName ∧
    ofLabel? "RulesScript" = some .workflow ∧
    ofLabel? "Success" = some .success ∧
    ofLabel? "SuccessResult" = some .successEvent ∧
    ofLabel? "LastError" = some .lastError ∧
    ofLabel? "RuleOutput" = some .output ∧
    ofLabel? "ApproxExecutionMilliseconds" = some .milliseconds ∧
    ofLabel? "SubResults" = some .subResults := by
  simp [ofLabel?, all, label]

theorem readOptionalText (text : Option String) :
    Reading.optional Reading.text (optionalText text) = .ok text := by
  cases text <;> rfl

theorem readOutput (output : Option Value) :
    Reading.optional .ok (output.getD .null) = .ok (unlessNull output) := by
  rcases output with _ | v
  · rfl
  · cases v <;> rfl

theorem canonicalText (text : Option String) :
    (optionalText text).canonical = optionalText text := by
  cases text <;> rfl

theorem canonicalOutput (output : Option Value) :
    (output.getD .null).canonical = (output.map Value.canonical).getD .null := by
  cases output <;> rfl

section Record

variable {r : Result} {below : Children Result}

theorem readWritten (finite : r.milliseconds.isFinite = true)
    (found : readChildren (childrenValue r.subResults) = .ok below) :
    read r.toValue = .ok { r with output := unlessNull r.output, subResults := below } := by
  cases r
  simp only [toValue, Value.ofFloat, finite, if_true, read, readFields, Slot.ofLabels,
    Draft.put, Reading.place, readOptionalText, readOutput, found]
  rfl

theorem readAscending (finite : r.milliseconds.isFinite = true)
    (found : readChildren (childrenValue r.subResults).canonical = .ok below) :
    read r.toValue.canonical = .ok { r with
      output := unlessNull (r.output.map Value.canonical)
      subResults := below } := by
  cases r
  simp only [toValue, Value.ofFloat, finite, if_true, Value.canonical, Value.canonicalFields,
    canonicalText, canonicalOutput, Fields.ofList, Fields.put, List.foldl_cons, List.foldl_nil,
    String.reduceLT, String.reduceEq, if_false]
  simp only [read, readFields, Slot.ofLabels, Draft.put, Reading.place, readOptionalText,
    readOutput, found]
  rfl

end Record

structure Writable (n : Result) : Prop where
  finite : n.milliseconds.isFinite = true
  normal : n.subResults ≠ .nested []

def canonicalUnlessNull (output : Option Value) : Option Value :=
  unlessNull (output.map Value.canonical)

/- Fields are read in the order in which they are written, and in ascending order, in
which an object keeps them. -/
mutual

theorem readTree : ∀ r : Result, (∀ n ∈ nodes r, Writable n) →
    read r.toValue = .ok (withOutputs unlessNull r) ∧
    read r.toValue.canonical = .ok (withOutputs canonicalUnlessNull r)
  | ⟨recordId, recordDescription, ruleName, workflow, success, successEvent, lastError, output,
      milliseconds, subResults⟩, writable => by
    have self := writable _ List.mem_cons_self
    have below := readBelow subResults self.normal fun n member =>
      writable n (List.mem_cons_of_mem _ member)
    exact ⟨readWritten self.finite below.1, readAscending self.finite below.2⟩

theorem readBelow : ∀ c : Children Result, c ≠ .nested [] → (∀ n ∈ nodesBelow c, Writable n) →
    readChildren (childrenValue c) = .ok (withOutputsBelow unlessNull c) ∧
    readChildren (childrenValue c).canonical = .ok (withOutputsBelow canonicalUnlessNull c)
  | .leaf, _, _ => ⟨rfl, rfl⟩
  | .nested [], normal, _ => absurd rfl normal
  | .nested (r :: rest), _, writable => by
    have items := readTrees (r :: rest) writable
    simp only [childrenValue, Value.canonical, readChildren, items.1, items.2]
    exact ⟨rfl, rfl⟩

theorem readTrees : ∀ rs : List Result, (∀ n ∈ nodesAll rs, Writable n) →
    readAll (toValues rs) = .ok (withOutputsAll unlessNull rs) ∧
    readAll (Value.canonicalItems (toValues rs)) = .ok (withOutputsAll canonicalUnlessNull rs)
  | [], _ => ⟨rfl, rfl⟩
  | r :: rest, writable => by
    have first := readTree r fun n member => writable n (List.mem_append_left _ member)
    have later := readTrees rest fun n member => writable n (List.mem_append_right _ member)
    simp only [toValues, Value.canonicalItems, readAll, first.1, first.2, later.1, later.2]
    exact ⟨rfl, rfl⟩

end

theorem shareFinite {elapsed nodes : Nat} (bounded : elapsed < twoTo 64 * tenTo 9)
    (inhabited : 0 < nodes) : (share elapsed nodes).isFinite = true := by
  have wholeSeconds : elapsed / tenTo 9 < twoTo 64 :=
    Nat.div_lt_of_lt_mul (Nat.mul_comm _ _ ▸ bounded)
  have rest : elapsed % tenTo 9 < twoTo 30 :=
    Nat.lt_trans (Nat.mod_lt _ (tenToPos 9)) (by decide)
  have whole : (Binary64.ofNat (elapsed / tenTo 9)).Within 1085 :=
    Binary64.withinOfNat wholeSeconds (by decide) (by decide)
  have part : (Binary64.ofNat (elapsed % tenTo 9)).Within 1084 :=
    Binary64.withinOfNat rest (by decide) (by decide)
  have second := Binary64.ofNatAtLeastOne (tenToPos 9)
  have all : (seconds elapsed).Within 1087 :=
    Binary64.withinAdd whole (Binary64.withinDiv part second.1 second.2 (by decide)) (by decide)
  have thousand : (Binary64.ofNat 1000).Within 1031 :=
    Binary64.withinOfNat (k := 10) (by decide) (by decide) (by decide)
  have count := Binary64.ofNatAtLeastOne inhabited
  have scaled : ((seconds elapsed).mul (Binary64.ofNat 1000)).Within 1098 :=
    Binary64.withinMul all thousand (by decide) (by decide)
  exact (Binary64.withinDiv scaled count.1 count.2 (by decide)).finite

theorem normalAssign {time : Binary64} {n : Result} (normal : n.subResults ≠ .nested []) :
    (assign time n).subResults ≠ .nested [] := by
  obtain ⟨_, _, _, _, _, _, _, _, _, subResults⟩ := n
  rcases subResults with _ | _ | ⟨first, rest⟩
  · exact nofun
  · exact absurd rfl normal
  · simp [assign, assignBelow, assignAll]

theorem writableApportioned {stamp : Stamp} {os : List Outcome} {elapsed : Nat}
    (bounded : elapsed < twoTo 64 * tenTo 9) {n : Result}
    (member : n ∈ nodesAll (apportion elapsed (ofOutcomes stamp os))) : Writable n := by
  rw [apportionAll, nodesAllAssign] at member
  obtain ⟨n, inside, rfl⟩ := List.mem_map.mp member
  have inhabited : 0 < countAll (ofOutcomes stamp os) := by
    rw [← lengthNodesAll]
    exact List.length_pos_of_mem inside
  rw [nodesOfOutcomes] at inside
  obtain ⟨o, _, rfl⟩ := List.mem_map.mp inside
  have finite := shareFinite bounded inhabited
  exact ⟨(congrArg _ (timeAssign _ _)).trans finite, normalAssign (normalOutcome o)⟩

theorem nodesWithin {rs : List Result} {n m : Result} (root : n ∈ rs) (member : m ∈ nodes n) :
    m ∈ nodesAll rs := by
  induction rs with
  | nil => cases root
  | cons r rest ih =>
    rcases List.mem_cons.mp root with rfl | later
    · exact List.mem_append_left _ member
    · exact List.mem_append_right _ (ih later)

theorem unlessNullSelf {output : Option Value} :
    unlessNull output = output ↔ output ≠ some .null := by
  rcases output with _ | v
  · simp [unlessNull]
  · cases v <;> simp [unlessNull, Value.isNull]

theorem settledSelf {n : Result} : n.settled = n ↔ ∀ m ∈ nodes n, m.output ≠ some .null := by
  have agree : n.settled = withOutputs id n ↔ ∀ m ∈ nodes n, unlessNull m.output = m.output :=
    withOutputsAgree n
  simpa only [withOutputsId, unlessNullSelf] using agree

theorem canonicalSettled {n : Result}
    (canonical : ∀ m ∈ nodes n, ∀ v, m.output = some v → v.canonical = v) :
    withOutputs canonicalUnlessNull n = n.settled := by
  refine (withOutputsAgree n).mpr fun m member => ?_
  cases output : m.output with
  | none => rfl
  | some v => rw [canonicalUnlessNull, Option.map_some, canonical m member v output]

/-- Every tree of a batch, whatever its outcomes hold and however long they took, can be
read back from what is written, and is the same again unless it has an output of null. The
bound is that of all times: seconds have 64 bits, and there are fewer than a second's
nanoseconds beside them. -/
theorem treesReadBackUnlessNull (r : Record) (workflow : String) (os : List Outcome)
    (elapsed : Nat) (given : os ≠ []) (bounded : elapsed < twoTo 64 * tenTo 9) :
    ∃ rs, flatten (r.stamp workflow) os = some rs ∧ ∀ n ∈ apportion elapsed rs,
      read n.toValue = .ok n.settled ∧
      ((∀ m ∈ nodes n, ∀ v, m.output = some v → v.canonical = v) →
        read n.toValue.canonical = .ok n.settled) ∧
      (n.settled = n ↔ ∀ m ∈ nodes n, m.output ≠ some .null) := by
  refine ⟨_, flattenSome.mpr ⟨given, rfl⟩, fun n root => ?_⟩
  have back := readTree n fun m member => writableApportioned bounded (nodesWithin root member)
  refine ⟨back.1, fun canonical => ?_, settledSelf⟩
  rw [← canonicalSettled canonical]
  exact back.2

theorem nullOutputIsReadAsNone :
    ∃ n m, (flatten ⟨"rec", "one", "simple"⟩ [(Outcome.success "any").withOutput .null]).map
        (apportion 1000000) = some [n] ∧
      (flatten ⟨"rec", "one", "simple"⟩ [Outcome.success "any"]).map (apportion 1000000) =
        some [m] ∧
      n.output = some .null ∧ m.output = none ∧ n.toValue = m.toValue ∧
      read n.toValue = .ok m ∧ n ≠ m := by
  have written (time : Binary64) (finite : time.isFinite = true) (output : Option Value) :
      read (assign time (ofOutcome ⟨"rec", "one", "simple"⟩
        { Outcome.success "any" with output })).toValue =
      .ok (assign time (ofOutcome ⟨"rec", "one", "simple"⟩
        { Outcome.success "any" with output := unlessNull output })) :=
    readWritten finite rfl
  have finite : (share 1000000 1).isFinite = true := shareFinite (by decide) Nat.one_pos
  refine ⟨_, _, rfl, rfl, rfl, rfl, rfl, written (share 1000000 1) finite (some .null), ?_⟩
  intro same
  cases congrArg Result.output same

def bandOutcomes : List Outcome :=
  [{ Outcome.failure "band" "too low" with
      successEvent := some "banded"
      children := .nested [(Outcome.success "red").withOutput (.list [.int 1, .null]),
        { (Outcome.failure "green" "no").withOutput .null with children := .nested [] }] }]

theorem bandOutcomesReadBack :
    bandOutcomes ≠ [] ∧ 1500000 < twoTo 64 * tenTo 9 ∧
    ∃ rs, flatten (Record.stamp ⟨"rec", "one", .unit⟩ "simple") bandOutcomes = some rs ∧
      ∀ n ∈ apportion 1500000 rs, read n.toValue = .ok n.settled := by
  have given : bandOutcomes ≠ [] := by simp [bandOutcomes]
  have bounded : 1500000 < twoTo 64 * tenTo 9 := by decide
  obtain ⟨rs, flattened, back⟩ :=
    treesReadBackUnlessNull ⟨"rec", "one", .unit⟩ "simple" bandOutcomes 1500000 given bounded
  exact ⟨given, bounded, rs, flattened, fun n root => (back n root).1⟩

end RuleBroker.Result
