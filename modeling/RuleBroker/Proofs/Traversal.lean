import Mathlib.Data.List.Lex
import Mathlib.Data.List.Sort
import RuleBroker.Result
/-! The nodes of a tree by their places. A place is the way down to a node, by the positions of
the nodes on it among their siblings; a traversal goes through all places in ascending order, so
that a node comes before those below it and these come in their own order. -/
namespace RuleBroker.Result

def at? : Result → List Nat → Option Result
  | r, [] => some r
  | r, i :: place => r.subResults.toList[i]?.bind fun s => s.at? place

def among? (rs : List Result) : List Nat → Option Result
  | [] => none
  | i :: place => rs[i]?.bind fun r => r.at? place

structure Walk (find : List Nat → Option Result) (places : List (List Nat)) (ns : List Result) :
    Prop where
  ascending : places.Pairwise (· < ·)
  everywhere : ∀ place, place ∈ places ↔ (find place).isSome
  found : places.map find = ns.map some

def later : List Nat → List Nat
  | [] => []
  | i :: place => (i + 1) :: place

variable {find : List Nat → Option Result} {places others : List (List Nat)} {place : List Nat}
  {r : Result} {rs ns ms : List Result}

theorem walkOnly (walk : Walk find places ns) (walk' : Walk find others ms) : ns = ms := by
  have same : places = others := walk.ascending.eq_of_mem_iff walk'.ascending fun place =>
    (walk.everywhere place).trans (walk'.everywhere place).symm
  have nodes : ns.map some = ms.map some := by rw [← walk.found, ← walk'.found, same]
  exact List.map_injective_iff.mpr (Option.some_injective _) nodes

theorem placeAmong (walk : Walk (among? rs) places ns) (inside : place ∈ places) :
    ∃ i below, place = i :: below := by
  cases place with
  | nil => exact absurd ((walk.everywhere []).mp inside) Bool.false_ne_true
  | cons i below => exact ⟨i, below, rfl⟩

theorem walkNode (walk : Walk (among? r.subResults.toList) places ns) :
    Walk r.at? ([] :: places) (r :: ns) where
  ascending := by
    refine List.pairwise_cons.mpr ⟨fun place inside => ?_, walk.ascending⟩
    obtain ⟨i, below, rfl⟩ := placeAmong walk inside
    exact List.nil_lt_cons i below
  everywhere place := by
    cases place with
    | nil => simp [at?]
    | cons i below =>
      rw [List.mem_cons, or_iff_right (List.cons_ne_nil i below)]
      exact walk.everywhere (i :: below)
  found := by
    rw [List.map_cons, List.map_cons, ← walk.found]
    refine congrArg (some r :: ·) (List.map_congr_left fun place inside => ?_)
    obtain ⟨i, below, rfl⟩ := placeAmong walk inside
    rfl

theorem walkNone : Walk (among? []) [] [] where
  ascending := .nil
  everywhere place := by cases place <;> simp [among?]
  found := rfl

theorem memLater {i : Nat} {below : List Nat} :
    i :: below ∈ others.map later ↔ ∃ j, i = j + 1 ∧ j :: below ∈ others := by
  rw [List.mem_map]
  constructor
  · rintro ⟨place, member, same⟩
    cases place with
    | nil => cases same
    | cons j below =>
      cases same
      exact ⟨j, rfl, member⟩
  · rintro ⟨j, rfl, member⟩
    exact ⟨j :: below, member, rfl⟩

theorem laterAmong (r : Result) (rs : List Result) {i : Nat} {below : List Nat} :
    among? (r :: rs) (later (i :: below)) = among? rs (i :: below) := by
  simp [later, among?]

theorem walkCons (first : Walk r.at? places ns) (rest : Walk (among? rs) others ms) :
    Walk (among? (r :: rs)) (places.map (0 :: ·) ++ others.map later) (ns ++ ms) where
  ascending := by
    refine List.pairwise_append.mpr ⟨?_, ?_, ?_⟩
    · exact first.ascending.map _ fun _ _ less => List.cons_lt_cons_self.mpr less
    · refine List.pairwise_map.mpr (rest.ascending.imp_of_mem fun {p q} inside inside' less => ?_)
      obtain ⟨i, below, rfl⟩ := placeAmong rest inside
      obtain ⟨j, below', rfl⟩ := placeAmong rest inside'
      rw [List.cons_lt_cons_iff] at less
      rw [later, later, List.cons_lt_cons_iff]
      exact less.imp Nat.succ_lt_succ (And.imp_left (congrArg Nat.succ))
    · intro p inside q inside'
      obtain ⟨p, _, rfl⟩ := List.mem_map.mp inside
      obtain ⟨q, member, rfl⟩ := List.mem_map.mp inside'
      obtain ⟨j, below, rfl⟩ := placeAmong rest member
      exact List.cons_lt_cons_iff.mpr (.inl (Nat.succ_pos j))
  everywhere place := by
    rw [List.mem_append]
    match place with
    | [] =>
      have absent : [] ∉ others.map later := by
        intro member
        obtain ⟨place, inside, same⟩ := List.mem_map.mp member
        obtain ⟨i, below, rfl⟩ := placeAmong rest inside
        cases same
      simp [among?, absent]
    | 0 :: below =>
      simp [memLater, first.everywhere, among?]
    | (i + 1) :: below =>
      rw [memLater]
      simp [rest.everywhere, among?]
  found := by
    rw [List.map_append, List.map_append, List.map_map, List.map_map, ← first.found, ← rest.found]
    refine congrArg₂ (· ++ ·) ?_ (List.map_congr_left fun place inside => ?_)
    · exact List.map_congr_left fun place _ => by simp [among?]
    · obtain ⟨i, below, rfl⟩ := placeAmong rest inside
      exact laterAmong r rs

mutual

theorem walkNodes : ∀ r : Result, ∃ places, Walk r.at? places r.nodes
  | ⟨_, _, _, _, _, _, _, _, _, subResults⟩ => by
    obtain ⟨places, walk⟩ := walkBelow subResults
    exact ⟨[] :: places, walkNode walk⟩

theorem walkBelow : ∀ c : Children Result, ∃ places, Walk (among? c.toList) places (nodesBelow c)
  | .leaf => ⟨[], walkNone⟩
  | .nested items => walkAll items

theorem walkAll : ∀ rs : List Result, ∃ places, Walk (among? rs) places (nodesAll rs)
  | [] => ⟨[], walkNone⟩
  | r :: rest => by
    obtain ⟨places, first⟩ := walkNodes r
    obtain ⟨others, later⟩ := walkAll rest
    exact ⟨_, walkCons first later⟩

end

theorem nodesAllFlat (rs : List Result) : nodesAll rs = rs.flatMap nodes := by
  induction rs with
  | nil => rfl
  | cons r rest ih => rw [nodesAll, List.flatMap_cons, ih]

theorem nodesDown (r : Result) : r.nodes = r :: r.subResults.toList.flatMap nodes := by
  obtain ⟨_, _, _, _, _, _, _, _, _, subResults⟩ := r
  cases subResults with
  | leaf => rfl
  | nested items => exact congrArg (_ :: ·) (nodesAllFlat items)

/-- The nodes of a tree are all that stand anywhere in it, each once and in the order of their
places: a node, then those of the trees directly below it one after another. They are as many as
are counted, and so are those of the trees of a list. -/
theorem nodesOnceInPreorder :
    (∀ r : Result, (∀ ns, (∃ places, Walk r.at? places ns) ↔ ns = r.nodes) ∧
      r.nodes = r :: r.subResults.toList.flatMap nodes ∧ r.nodes.length = r.nodeCount) ∧
    ∀ rs : List Result, (∀ ns, (∃ places, Walk (among? rs) places ns) ↔ ns = rs.flatMap nodes) ∧
      countAll rs = (rs.flatMap nodes).length := by
  refine ⟨fun r => ⟨fun ns => ⟨?_, ?_⟩, nodesDown r, lengthNodes r⟩,
    fun rs => ⟨fun ns => ⟨?_, ?_⟩, ?_⟩⟩
  · rintro ⟨places, walk⟩
    obtain ⟨_, own⟩ := walkNodes r
    exact walkOnly walk own
  · rintro rfl
    exact walkNodes r
  · rintro ⟨places, walk⟩
    obtain ⟨_, own⟩ := walkAll rs
    exact nodesAllFlat rs ▸ walkOnly walk own
  · rintro rfl
    exact nodesAllFlat rs ▸ walkAll rs
  · rw [← nodesAllFlat, lengthNodesAll]

end RuleBroker.Result
