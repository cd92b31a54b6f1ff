import Mathlib.Data.List.Perm.Basic
import RuleBroker.Function
import RuleBroker.RuleError
/-! What a registry answers, told from the functions that the providers contribute. Every
qualified name is answered; a bare name is while one function alone has it and no qualified
name is spelled like it. The order in which functions were contributed does not matter. -/
namespace RuleBroker

section Entries

variable {α : Type} {entries : List (String × α)} {name : String} {a : α}

theorem lookupTail {key : String} (differs : name ≠ key) (held : α) (rest : List (String × α)) :
    ((key, held) :: rest).lookup name = rest.lookup name := by
  simp [List.lookup_cons, beq_eq_false_iff_ne.mpr differs]

theorem lookupMember (distinct : (entries.map Prod.fst).Nodup) :
    entries.lookup name = some a ↔ (name, a) ∈ entries := by
  induction entries with
  | nil => simp
  | cons entry rest ih =>
    obtain ⟨key, held⟩ := entry
    obtain ⟨once, distinct⟩ := List.nodup_cons.mp distinct
    rw [List.mem_cons, Prod.mk.injEq]
    by_cases same : name = key
    · subst same
      have apart : (name, a) ∉ rest := fun member => once (List.mem_map.mpr ⟨_, member, rfl⟩)
      simp [apart, eq_comm]
    · simp [lookupTail same, same, ih distinct]

theorem lookupNone : entries.lookup name = none ↔ name ∉ entries.map Prod.fst := by
  simp only [List.lookup_eq_none_iff, bne_iff_ne, List.mem_map, not_exists, not_and]
  exact forall₂_congr fun entry _ => ne_comm

theorem lookupFilter (keep : String → Bool) :
    (entries.filter fun (key, _) => keep key).lookup name =
      if keep name then entries.lookup name else none := by
  induction entries with
  | nil => simp
  | cons entry rest ih =>
    obtain ⟨key, held⟩ := entry
    by_cases same : name = key
    · subst same
      cases kept : keep name <;> simp [kept, ih]
    · cases kept : keep key <;> simp [kept, ih, lookupTail same]

end Entries

namespace Registry

abbrev Contributions := List (String × Function)

def named (bare : String) (cs : Contributions) : Contributions :=
  cs.filter fun (_, f) => f.name = bare

structure Draft.Gathered (d : Draft) (cs : Contributions) : Prop where
  functions : d.functions = cs
  distinct : (cs.map Prod.fst).Nodup
  aliases : ∀ bare, d.aliases.lookup bare = ((named bare cs).map Prod.fst).head?
  ambiguous : ∀ bare, bare ∈ d.ambiguous ↔ 1 < (named bare cs).length

variable {d d' : Draft} {cs before : Contributions} {qualified bare : String} {f : Function}

theorem namedSnoc : named bare (cs ++ [(qualified, f)]) =
    named bare cs ++ if f.name = bare then [(qualified, f)] else [] := by
  simp [named, List.filter_cons]

theorem gatheredNone : Draft.Gathered {} [] := by
  refine ⟨rfl, List.nodup_nil, fun _ => rfl, fun bare => ?_⟩
  simp [named]

theorem addRepeated (gathered : d.Gathered cs) (again : qualified ∈ cs.map Prod.fst) :
    d.add qualified f = .error (.configuration ("自定义函数重复注册: " ++ qualified)) := by
  have held : (d.functions.lookup qualified).isSome = true := by
    rw [Option.isSome_iff_ne_none, gathered.functions]
    exact fun missing => lookupNone.mp missing again
  rw [Draft.add, if_pos held]

theorem distinctSnoc (distinct : (cs.map Prod.fst).Nodup) (fresh : qualified ∉ cs.map Prod.fst) :
    ((cs ++ [(qualified, f)]).map Prod.fst).Nodup := by
  rw [List.map_append, List.nodup_append]
  refine ⟨distinct, by simp, ?_⟩
  rintro key inside _ last rfl
  rw [List.mem_singleton.mp last] at inside
  exact fresh inside

theorem addFresh (gathered : d.Gathered cs) (fresh : qualified ∉ cs.map Prod.fst) :
    ∃ d', d.add qualified f = .ok d' ∧ d'.Gathered (cs ++ [(qualified, f)]) := by
  have unheld : ¬(d.functions.lookup qualified).isSome = true := by
    rw [gathered.functions, lookupNone.mpr fresh]
    exact Bool.false_ne_true
  have distinct := distinctSnoc (f := f) gathered.distinct fresh
  have functions := congrArg (· ++ [(qualified, f)]) gathered.functions
  rw [Draft.add, if_neg unheld]
  cases first : (named f.name cs).map Prod.fst with
  | nil =>
    have empty : named f.name cs = [] := List.map_eq_nil_iff.mp first
    have unknown : d.aliases.lookup f.name = none := by rw [gathered.aliases, first]; rfl
    refine ⟨_, by simp [unknown]; rfl, functions, distinct, fun bare => ?_, fun bare => ?_⟩
    · rw [List.lookup_append, gathered.aliases, namedSnoc]
      by_cases same : f.name = bare
      · subst same
        simp [empty]
      · simp [same, lookupTail (Ne.symm same)]
    · rw [gathered.ambiguous, namedSnoc]
      by_cases same : f.name = bare
      · subst same
        simp [empty]
      · simp [same]
  | cons q qs =>
    have known : d.aliases.lookup f.name = some q := by rw [gathered.aliases, first]; rfl
    have nonempty : named f.name cs ≠ [] := by
      rintro empty
      simp [empty] at first
    refine ⟨_, by simp [known]; rfl, functions, distinct, fun bare => ?_, fun bare => ?_⟩
    · rw [gathered.aliases, namedSnoc]
      by_cases same : f.name = bare
      · subst same
        simp [first]
      · simp [same]
    · rw [List.mem_cons, gathered.ambiguous, namedSnoc]
      by_cases same : f.name = bare
      · subst same
        simpa using List.length_pos_iff.mpr nonempty
      · simp [same, Ne.symm same]

def Draft.gather (d : Draft) (cs : Contributions) : Except RuleError Draft :=
  cs.foldlM (fun (d : Draft) (name, f) => d.add name f) d

theorem gatherCons : d.gather ((qualified, f) :: cs) = d.add qualified f >>= (·.gather cs) := rfl

theorem ofProvidersGather (providers : List Provider) :
    ofProviders providers = Draft.gather {} (contributions providers) >>= fun d => .ok d.finish :=
  rfl

/- One more contribution is added or is a repetition, so the invariant holds of whatever is
gathered, and nothing but a repetition stops the gathering. -/
theorem gatherAll (cs : Contributions) (gathered : d.Gathered before) :
    (∀ d', d.gather cs = .ok d' → d'.Gathered (before ++ cs)) ∧
    (((before ++ cs).map Prod.fst).Nodup → ∃ d', d.gather cs = .ok d') := by
  induction cs generalizing d before with
  | nil =>
    rw [List.append_nil]
    refine ⟨fun d' same => ?_, fun _ => ⟨d, rfl⟩⟩
    cases same
    exact gathered
  | cons c rest ih =>
    obtain ⟨qualified, f⟩ := c
    have regroup : before ++ (qualified, f) :: rest = before ++ [(qualified, f)] ++ rest := by simp
    rw [gatherCons, regroup]
    by_cases again : qualified ∈ before.map Prod.fst
    · rw [addRepeated gathered again]
      refine ⟨nofun, fun distinct => ?_⟩
      rw [List.map_append, List.map_append, List.append_assoc, List.nodup_append] at distinct
      exact absurd rfl (distinct.2.2 qualified again qualified (by simp))
    · obtain ⟨next, added, further⟩ := addFresh gathered again
      rw [added]
      exact ih further

theorem ofProvidersOk {providers : List Provider} :
    (∃ r, ofProviders providers = .ok r) ↔ ((contributions providers).map Prod.fst).Nodup := by
  obtain ⟨kept, collects⟩ := gatherAll (contributions providers) gatheredNone
  rw [ofProvidersGather]
  constructor
  · rintro ⟨r, collected⟩
    obtain ⟨d, gathered, _⟩ := Stages.bindOk.mp collected
    exact (kept d gathered).distinct
  · intro distinct
    obtain ⟨d, gathered⟩ := collects distinct
    exact ⟨d.finish, Stages.bindOk.mpr ⟨d, gathered, rfl⟩⟩

theorem ofProvidersGathered {providers : List Provider} {r : Registry}
    (collected : ofProviders providers = .ok r) :
    ∃ d : Draft, d.Gathered (contributions providers) ∧ r = d.finish := by
  obtain ⟨d, gathered, last⟩ := Stages.bindOk.mp collected
  cases last
  exact ⟨d, (gatherAll _ gatheredNone).1 d gathered, rfl⟩

theorem aliasOnly (gathered : d.Gathered cs) :
    d.finish.aliases.lookup bare = some qualified ↔ ∃ f, named bare cs = [(qualified, f)] := by
  have unambiguous := gathered.ambiguous bare
  rw [Draft.finish, lookupFilter (!d.ambiguous.contains ·), gathered.aliases]
  match found : named bare cs with
  | [] => simp
  | [(q, f)] =>
    have single : bare ∉ d.ambiguous := by simp [unambiguous, found]
    simp [single]
  | _ :: _ :: _ =>
    have many : bare ∈ d.ambiguous := by simp [unambiguous, found]
    simp [many]

theorem getQualified (gathered : d.Gathered cs) (member : (qualified, f) ∈ cs) :
    d.finish.get? qualified = some f := by
  have held : d.functions.lookup qualified = some f := by
    rw [gathered.functions]
    exact (lookupMember gathered.distinct).mpr member
  simp [get?, Draft.finish, held]

theorem getBare (gathered : d.Gathered cs) (unqualified : bare ∉ cs.map Prod.fst) :
    d.finish.get? bare = some f ↔ ∃ q, named bare cs = [(q, f)] := by
  have functions : d.finish.functions = cs := gathered.functions
  have member {q : String} {g : Function} (only : named bare cs = [(q, g)]) : (q, g) ∈ cs :=
    List.mem_of_mem_filter (only ▸ List.mem_singleton_self _)
  rw [get?, functions, lookupNone.mpr unqualified, Option.orElse_eq_orElse, Option.orElse_none]
  simp only [Option.bind_eq_some_iff, aliasOnly gathered]
  constructor
  · rintro ⟨q, ⟨g, only⟩, found⟩
    have same := (lookupMember gathered.distinct).mpr (member only)
    rw [found] at same
    cases same
    exact ⟨q, only⟩
  · rintro ⟨q, only⟩
    exact ⟨q, ⟨f, only⟩, (lookupMember gathered.distinct).mpr (member only)⟩

theorem ascendingNames {r : Registry} (distinct : (r.functions.map Prod.fst).Nodup) :
    r.names.Pairwise (· < ·) := by
  have transitive (a b c : String) (below : decide (a ≤ b) = true) (above : decide (b ≤ c) = true) :
      decide (a ≤ c) = true :=
    decide_eq_true (Std.le_trans (of_decide_eq_true below) (of_decide_eq_true above))
  have total (a b : String) : (decide (a ≤ b) || decide (b ≤ a)) = true := by
    simpa only [Bool.or_eq_true, decide_eq_true_eq] using String.le_total a b
  have sorted : r.names.Pairwise fun a b => decide (a ≤ b) = true :=
    List.pairwise_mergeSort transitive total _
  have apart : r.names.Nodup := (List.mergeSort_perm _ _).nodup_iff.mpr distinct
  exact sorted.imp₂ (fun a b le differs => Std.lt_of_le_of_ne (of_decide_eq_true le) differs) apart

structure Presents (r : Registry) (cs : Contributions) : Prop where
  size : r.size = cs.length
  ascending : r.names.Pairwise (· < ·)
  names : ∀ name, name ∈ r.names ↔ name ∈ cs.map Prod.fst
  qualified : ∀ name f, (name, f) ∈ cs → r.get? name = some f
  bare : ∀ name, name ∉ cs.map Prod.fst →
    ∀ f, r.get? name = some f ↔ ∃ q, named name cs = [(q, f)]
  contains : ∀ name, r.contains name = true ↔ ∃ f, r.get? name = some f
  called : ∀ name f view args, r.get? name = some f → r.call name view args = f.call view args
  uncalled : ∀ name view args, r.get? name = none →
    r.call name view args = .error (.function name "未注册的自定义函数")

theorem presents {providers : List Provider} {r : Registry}
    (collected : ofProviders providers = .ok r) : r.Presents (contributions providers) := by
  obtain ⟨d, gathered, rfl⟩ := ofProvidersGathered collected
  have functions : d.finish.functions = contributions providers := gathered.functions
  refine ⟨congrArg List.length functions, ?_, fun name => ?_, fun _ _ => getQualified gathered,
    fun _ unqualified _ => getBare gathered unqualified, fun name => ?_,
    fun name f view args found => ?_, fun name view args missing => ?_⟩
  · exact ascendingNames (functions ▸ gathered.distinct)
  · rw [names, List.mem_mergeSort, functions]
  · rw [contains, Option.isSome_iff_exists]
  · rw [call, found]
  · rw [call, missing]

end Registry

def Rearranged (providers others : List Provider) : Prop :=
  ∃ between, providers.Perm between ∧ List.Forall₂
    (fun p p' => p.qualifier = p'.qualifier ∧ p.functions.Perm p'.functions) between others

namespace Registry

theorem contributionsPerm {providers others : List Provider}
    (rearranged : Rearranged providers others) :
    (contributions providers).Perm (contributions others) := by
  obtain ⟨between, reordered, each⟩ := rearranged
  refine (reordered.flatMap_right _).trans ?_
  clear reordered
  induction each with
  | nil => exact .nil
  | @cons p p' rest rest' same _ ih =>
    obtain ⟨qualifier, functions⟩ := same
    have renamed : (fun f => (p.qualified f, f)) = fun f => (p'.qualified f, f) := by
      funext f
      rw [Provider.qualified, Provider.qualified, qualifier]
    rw [List.flatMap_cons, renamed]
    exact (functions.map _).append ih

variable {r s : Registry} {cs cs' : Contributions}

theorem getPerm (one : r.Presents cs) (other : s.Presents cs') (same : cs.Perm cs')
    (name : String) : s.get? name = r.get? name := by
  have keys : name ∈ cs.map Prod.fst ↔ name ∈ cs'.map Prod.fst := (same.map _).mem_iff
  by_cases qualified : name ∈ cs.map Prod.fst
  · obtain ⟨⟨_, f⟩, member, rfl⟩ := List.mem_map.mp qualified
    rw [one.qualified _ f member, other.qualified _ f (same.mem_iff.mp member)]
  · refine Option.ext fun f => ?_
    rw [one.bare name qualified, other.bare name (mt keys.mpr qualified)]
    refine exists_congr fun q => ?_
    have alike : (named name cs).Perm (named name cs') := same.filter _
    rw [← List.perm_singleton, ← List.perm_singleton]
    exact ⟨alike.trans, alike.symm.trans⟩

theorem callAlike (one : r.Presents cs) (other : s.Presents cs') {name : String}
    (answer : s.get? name = r.get? name) (view : RecordView) (args : List Value) :
    s.call name view args = r.call name view args := by
  cases found : r.get? name with
  | none => rw [one.uncalled _ _ _ found, other.uncalled _ _ _ (answer.trans found)]
  | some f => rw [one.called _ f _ _ found, other.called _ f _ _ (answer.trans found)]

theorem namesPerm (one : r.Presents cs) (other : s.Presents cs') (same : cs.Perm cs') :
    s.names = r.names := by
  have members (name : String) : name ∈ s.names ↔ name ∈ r.names := by
    rw [one.names, other.names, (same.map _).mem_iff]
  refine Fields.ascendingExt id ?_ ?_ members
  · rw [List.map_id]
    exact other.ascending
  · rw [List.map_id]
    exact one.ascending

/-- A registry is what the contributed functions and their names make it: there is one
exactly when the qualified names differ, each of them is answered by its function, and a
bare name by the only function that has it. Neither the order of providers nor that of their
functions matters. -/
theorem registryOfContributions (providers : List Provider) :
    ((∃ r, ofProviders providers = .ok r) ↔
      ((contributions providers).map Prod.fst).Nodup) ∧
    (∀ r, ofProviders providers = .ok r → r.Presents (contributions providers)) ∧
    (∀ others, Rearranged providers others →
      ((∃ r, ofProviders others = .ok r) ↔ ∃ r, ofProviders providers = .ok r) ∧
      ∀ r s, ofProviders providers = .ok r → ofProviders others = .ok s →
        s.size = r.size ∧ s.names = r.names ∧ ∀ name, s.get? name = r.get? name ∧
          s.contains name = r.contains name ∧
          ∀ view args, s.call name view args = r.call name view args) := by
  refine ⟨ofProvidersOk, fun r => presents, fun others rearranged => ?_⟩
  have same := contributionsPerm rearranged
  refine ⟨?_, fun r s collected again => ?_⟩
  · rw [ofProvidersOk, ofProvidersOk]
    exact (same.map _).nodup_iff.symm
  · have one := presents collected
    have other := presents again
    refine ⟨?_, namesPerm one other same, fun name => ?_⟩
    · rw [one.size, other.size, same.length_eq]
    · have answer := getPerm one other same name
      exact ⟨answer, congrArg Option.isSome answer, callAlike one other answer⟩

section Shadowing

variable {providers : List Provider} {g h : Function} {qualifier qualified bare : String}

theorem contributionQualified (member : (qualified, h) ∈ contributions providers) :
    ∃ qualifier, qualified = qualifier ++ "." ++ h.name := by
  obtain ⟨p, _, inside⟩ := List.mem_flatMap.mp member
  obtain ⟨_, _, same⟩ := List.mem_map.mp inside
  cases same
  exact ⟨p.qualifier, rfl⟩

theorem qualifiedApart : qualifier ++ "." ++ bare ≠ bare := by
  intro same
  have lengths := congrArg String.length same
  rw [String.length_append, String.length_append] at lengths
  have dot : ".".length = 1 := rfl
  omega

theorem memberNames : bare ∈ cs.map Prod.fst ↔ ∃ f, (bare, f) ∈ cs := by simp

theorem undottedUnqualified (undotted : '.' ∉ bare.toList) :
    bare ∉ (contributions providers).map Prod.fst := by
  intro inside
  obtain ⟨_, shadow⟩ := memberNames.mp inside
  obtain ⟨qualifier, spelled⟩ := contributionQualified shadow
  rw [spelled] at undotted
  exact undotted (by simp [String.toList_append])

theorem aloneItself (told : r.Presents cs) (member : (qualified, h) ∈ cs)
    (unqualified : h.name ∉ cs.map Prod.fst) (found : r.get? h.name = some g) :
    named h.name cs = [(qualified, h)] ∧ g = h := by
  have own : (qualified, h) ∈ named h.name cs := List.mem_filter.mpr ⟨member, decide_eq_true rfl⟩
  obtain ⟨q, only⟩ := (told.bare h.name unqualified g).mp found
  rw [only] at own
  cases List.mem_singleton.mp own
  exact ⟨only, rfl⟩

theorem manyNone (told : r.Presents cs) (member : (qualified, h) ∈ cs)
    (unqualified : h.name ∉ cs.map Prod.fst) (missing : r.get? h.name = none) :
    1 < (named h.name cs).length := by
  have own : (qualified, h) ∈ named h.name cs := List.mem_filter.mpr ⟨member, decide_eq_true rfl⟩
  match only : named h.name cs with
  | [] => simp [only] at own
  | [(q, f)] =>
    have found := (told.bare h.name unqualified f).mpr ⟨q, only⟩
    rw [missing] at found
    cases found
  | _ :: _ :: _ => simp

theorem anotherShadows (told : r.Presents (contributions providers))
    (member : (qualified, h) ∈ contributions providers) :
    r.get? h.name = some g ∧ g ≠ h ↔ (h.name, g) ∈ contributions providers := by
  constructor
  · rintro ⟨found, differs⟩
    by_cases inside : h.name ∈ (contributions providers).map Prod.fst
    · obtain ⟨other, shadow⟩ := memberNames.mp inside
      have answer := told.qualified h.name other shadow
      rw [found] at answer
      cases answer
      exact shadow
    · exact absurd (aloneItself told member inside found).2 differs
  · intro shadow
    refine ⟨told.qualified h.name g shadow, ?_⟩
    rintro rfl
    obtain ⟨qualifier, spelled⟩ := contributionQualified shadow
    exact qualifiedApart spelled.symm

/-- A function's bare name is answered by another function exactly where it spells the qualified
name of that one, which is never so without a dot in it. Everywhere else it is answered by the
function itself, or by nothing where several share it. -/
theorem bareNameYieldsToQualified (collected : ofProviders providers = .ok r)
    (member : (qualified, h) ∈ contributions providers) :
    (∀ g, r.get? h.name = some g ∧ g ≠ h ↔ (h.name, g) ∈ contributions providers) ∧
    (h.name ∉ (contributions providers).map Prod.fst →
      named h.name (contributions providers) = [(qualified, h)] ∧ r.get? h.name = some h ∨
      1 < (named h.name (contributions providers)).length ∧ r.get? h.name = none) ∧
    ('.' ∉ h.name.toList → h.name ∉ (contributions providers).map Prod.fst) := by
  have told := presents collected
  refine ⟨fun g => anotherShadows told member, fun unqualified => ?_, undottedUnqualified⟩
  cases answer : r.get? h.name with
  | none => exact .inr ⟨manyNone told member unqualified answer, rfl⟩
  | some g =>
    obtain ⟨only, same⟩ := aloneItself told member unqualified answer
    exact .inl ⟨only, congrArg some same⟩

theorem dottedNameIsShadowed :
    let answering (name text : String) : Function := ⟨name, fun _ _ => .ok (.text text)⟩
    let inner := answering "B" "first"
    let outer := answering "A.B" "second"
    let providers : List Provider := [⟨"A", [inner]⟩, ⟨"X", [outer]⟩]
    ∃ r, ofProviders providers = .ok r ∧ ("X.A.B", outer) ∈ contributions providers ∧
      r.get? outer.name = some inner ∧ inner ≠ outer := by
  intro answering inner outer providers
  refine ⟨_, rfl, ?_, rfl, ?_⟩
  · simp [providers, contributions, Provider.qualified, outer, answering]
  · intro same
    exact absurd (congrArg Function.name same) (by decide)

theorem sharedScoreAnswersNothing :
    let answering (name : String) : Function := ⟨name, fun _ _ => .ok (.text name)⟩
    let providers : List Provider :=
      [⟨"Finance", [answering "Margin", answering "Score"]⟩, ⟨"Risk", [answering "Score"]⟩]
    ∃ r, ofProviders providers = .ok r ∧ r.get? "Margin" = some (answering "Margin") ∧
      r.get? "Score" = none := by
  intro answering providers
  have margin : ("Finance.Margin", answering "Margin") ∈ contributions providers := by
    simp [providers, contributions, Provider.qualified, answering]
  have score : ("Risk.Score", answering "Score") ∈ contributions providers := by
    simp [providers, contributions, Provider.qualified, answering]
  refine ⟨_, rfl, ?_, ?_⟩
  · obtain ⟨_, settled, undotted⟩ := bareNameYieldsToQualified rfl margin
    rcases settled (undotted (by decide)) with ⟨_, found⟩ | ⟨many, _⟩
    · exact found
    · exact absurd many (by decide)
  · obtain ⟨_, settled, undotted⟩ := bareNameYieldsToQualified rfl score
    rcases settled (undotted (by decide)) with ⟨only, _⟩ | ⟨_, missing⟩
    · exact absurd (congrArg List.length only) (by decide)
    · exact missing

end Shadowing
end Registry
end RuleBroker
