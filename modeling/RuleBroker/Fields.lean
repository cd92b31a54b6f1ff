/-! Named fields in ascending order of their names. Main statements: looking up what
was put last, putting keeps the order, and there is one ascending order. -/
namespace RuleBroker.Fields

variable {α β : Type}

def put (name : String) (value : α) : List (String × α) → List (String × α)
  | [] => [(name, value)]
  | (other, held) :: rest =>
    if name < other then (name, value) :: (other, held) :: rest
    else if name = other then (name, value) :: rest
    else (other, held) :: put name value rest

def ofList (fields : List (String × α)) : List (String × α) :=
  fields.foldl (fun held (name, value) => put name value held) []

def find (name : String) (fields : List (String × α)) : Option α := fields.lookup name

def Ordered (fields : List (String × α)) : Prop :=
  (fields.map Prod.fst).Pairwise (· < ·)

theorem findPutSelf (name : String) (value : α) (fields : List (String × α)) :
    find name (put name value fields) = some value := by
  induction fields with
  | nil => simp [put, find]
  | cons f rest ih =>
    obtain ⟨other, held⟩ := f
    simp only [put]
    split
    · simp [find]
    · split
      · simp [find]
      · next h => simpa [find, List.lookup_cons, beq_eq_false_iff_ne.mpr h] using ih

theorem findPutOther {name other : String} (h : name ≠ other) (value : α)
    (fields : List (String × α)) : find name (put other value fields) = find name fields := by
  induction fields with
  | nil => simp [put, find, List.lookup_cons, beq_eq_false_iff_ne.mpr h]
  | cons f rest ih =>
    obtain ⟨third, held⟩ := f
    simp only [put]
    split
    · simp [find, List.lookup_cons, beq_eq_false_iff_ne.mpr h]
    · split
      · next same =>
        subst same
        simp [find, List.lookup_cons, beq_eq_false_iff_ne.mpr h]
      · simp only [find, List.lookup_cons] at ih ⊢
        rw [ih]

theorem memNamesPut {n name : String} {value : α} {fields : List (String × α)} :
    n ∈ (put name value fields).map Prod.fst ↔ n = name ∨ n ∈ fields.map Prod.fst := by
  induction fields with
  | nil => simp [put]
  | cons f rest ih =>
    obtain ⟨other, held⟩ := f
    simp only [put]
    split
    · simp
    · split
      · next same => subst same; simp
      · simp only [List.map_cons, List.mem_cons, ih]
        constructor
        · rintro (h | h | h) <;> simp [h]
        · rintro (h | h | h) <;> simp [h]

theorem orderedPut {name : String} {value : α} {fields : List (String × α)}
    (h : Ordered fields) : Ordered (put name value fields) := by
  induction fields with
  | nil => simp [put, Ordered]
  | cons f rest ih =>
    obtain ⟨other, held⟩ := f
    simp only [Ordered, List.map_cons, List.pairwise_cons] at h
    simp only [put]
    split
    · next less =>
      simp only [Ordered, List.map_cons, List.pairwise_cons, List.mem_cons]
      refine ⟨?_, h⟩
      rintro n (rfl | inside)
      · exact less
      · exact String.lt_trans less (h.1 n inside)
    · split
      · next same => subst same; simpa [Ordered, List.pairwise_cons] using h
      · next notLess differs =>
        have greater : other < name := by
          rcases String.le_total name other with le | le
          · exact absurd (Std.le_antisymm le (Std.not_lt.mp notLess)) differs
          · exact Std.lt_of_le_of_ne le (Ne.symm differs)
        simp only [Ordered, List.map_cons, List.pairwise_cons]
        refine ⟨fun n inside => ?_, ih h.2⟩
        rcases memNamesPut.mp inside with rfl | inside
        · exact greater
        · exact h.1 n inside

theorem orderedFoldl {fields held : List (String × α)} (h : Ordered held) :
    Ordered (fields.foldl (fun held (name, value) => put name value held) held) := by
  induction fields generalizing held with
  | nil => exact h
  | cons f rest ih => exact ih (orderedPut h)

theorem orderedOfList (fields : List (String × α)) : Ordered (ofList fields) :=
  orderedFoldl List.Pairwise.nil

theorem ascendingNodup {names : List String} (ascending : names.Pairwise (· < ·)) :
    names.Nodup := by
  have differ {m n : String} (less : m < n) : m ≠ n := fun same => Std.lt_irrefl (same ▸ less)
  exact ascending.imp differ

/-- There is one way to put things in ascending order of their names. -/
theorem ascendingUnique (name : α → String) {these those : List α} (perm : these.Perm those)
    (ascending : (these.map name).Pairwise (· < ·))
    (ascending' : (those.map name).Pairwise (· < ·)) : these = those := by
  refine perm.eq_of_pairwise (fun a b _ _ less more => ?_) (List.pairwise_map.mp ascending)
    (List.pairwise_map.mp ascending')
  exact absurd less (Std.not_lt.mpr (Std.le_of_lt more))

theorem ascendingExt (name : α → String) {these those : List α}
    (ascending : (these.map name).Pairwise (· < ·))
    (ascending' : (those.map name).Pairwise (· < ·)) (members : ∀ a, a ∈ these ↔ a ∈ those) :
    these = those := by
  have distinct {as : List α} (ascending : (as.map name).Pairwise (· < ·)) : as.Nodup :=
    List.Pairwise.of_map name (fun _ _ differs same => differs (congrArg name same))
      (ascendingNodup ascending)
  exact ascendingUnique name ((List.perm_ext_iff_of_nodup (distinct ascending)
    (distinct ascending')).mpr members) ascending ascending'

end RuleBroker.Fields
