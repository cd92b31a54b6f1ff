import RuleBroker.Value
/-! The canonical form is canonical: making a value canonical twice is making it so
once. Properties are field lists in that form. -/
namespace RuleBroker

namespace Fields

variable {α β : Type}

theorem putAppend {name : String} {value : α} {front : List (String × α)}
    (h : ∀ n ∈ front.map Prod.fst, n < name) :
    put name value front = front ++ [(name, value)] := by
  induction front with
  | nil => rfl
  | cons f rest ih =>
    obtain ⟨other, held⟩ := f
    have less : other < name := h other (by simp)
    have notLess : ¬ name < other := fun back => Std.lt_irrefl (String.lt_trans less back)
    have differs : name ≠ other := fun same => Std.lt_irrefl (same ▸ less)
    simp only [put, notLess, differs, if_false, List.cons_append, List.cons.injEq, true_and]
    exact ih fun n inside => h n (List.mem_cons_of_mem _ inside)

theorem foldlPutOfOrdered {front fields : List (String × α)}
    (h : Ordered (front ++ fields)) :
    fields.foldl (fun held (name, value) => put name value held) front = front ++ fields := by
  induction fields generalizing front with
  | nil => simp
  | cons f rest ih =>
    obtain ⟨name, value⟩ := f
    have last : ∀ n ∈ front.map Prod.fst, n < name := by
      intro n inside
      simp only [Ordered, List.map_append, List.map_cons, List.pairwise_append] at h
      exact h.2.2 n inside name (by simp)
    simp only [List.foldl_cons, putAppend last]
    rw [ih (by simpa using h)]
    simp

theorem ofListOfOrdered {fields : List (String × α)} (h : Ordered fields) :
    ofList fields = fields := by
  have empty : Ordered ([] ++ fields) := by simpa using h
  simpa [ofList] using foldlPutOfOrdered empty

theorem ofListIdempotent (fields : List (String × α)) : ofList (ofList fields) = ofList fields :=
  ofListOfOrdered (orderedOfList fields)

end Fields

namespace Value

theorem canonicalFieldsPut (name : String) (v : Value) (fields : List (String × Value)) :
    canonicalFields (Fields.put name v fields) =
      Fields.put name (canonical v) (canonicalFields fields) := by
  induction fields with
  | nil => rfl
  | cons f rest ih =>
    obtain ⟨other, held⟩ := f
    simp only [Fields.put, canonicalFields]
    split
    · rfl
    · split
      · rfl
      · simp only [canonicalFields, ih]

theorem canonicalFieldsFoldl (fields held : List (String × Value)) :
    canonicalFields (fields.foldl (fun held (name, v) => Fields.put name v held) held) =
      (canonicalFields fields).foldl (fun held (name, v) => Fields.put name v held)
        (canonicalFields held) := by
  induction fields generalizing held with
  | nil => rfl
  | cons f rest ih =>
    obtain ⟨name, v⟩ := f
    simp only [List.foldl_cons, canonicalFields, ih, canonicalFieldsPut]

theorem canonicalFieldsOfList (fields : List (String × Value)) :
    canonicalFields (Fields.ofList fields) = Fields.ofList (canonicalFields fields) :=
  canonicalFieldsFoldl fields []

mutual

theorem canonicalIdempotent : ∀ v : Value, canonical (canonical v) = canonical v
  | .null | .bool _ | .int _ | .float _ | .text _ => rfl
  | .list items => by simp [canonical, canonicalItemsIdempotent items]
  | .object fields => by
    simp [canonical, canonicalFieldsOfList, canonicalFieldsIdempotent fields,
      Fields.ofListIdempotent]

theorem canonicalItemsIdempotent : ∀ vs : List Value,
    canonicalItems (canonicalItems vs) = canonicalItems vs
  | [] => rfl
  | v :: rest => by
    simp [canonicalItems, canonicalIdempotent v, canonicalItemsIdempotent rest]

theorem canonicalFieldsIdempotent : ∀ fs : List (String × Value),
    canonicalFields (canonicalFields fs) = canonicalFields fs
  | [] => rfl
  | (_, v) :: rest => by
    simp [canonicalFields, canonicalIdempotent v, canonicalFieldsIdempotent rest]

end

end Value

structure Properties where
  fields : List (String × Value)
  canonical : Fields.ofList (Value.canonicalFields fields) = fields

namespace Properties

def ofFields (fields : List (String × Value)) : Properties :=
  ⟨Fields.ofList (Value.canonicalFields fields), by
    rw [Value.canonicalFieldsOfList, Value.canonicalFieldsIdempotent,
      Fields.ofListIdempotent]⟩

def empty : Properties := ⟨[], rfl⟩

def isEmpty (p : Properties) : Bool := p.fields.isEmpty

theorem ofFieldsFields (p : Properties) : ofFields p.fields = p := by
  cases p with
  | mk fields canonical => simp only [ofFields, mk.injEq]; exact canonical

end Properties
end RuleBroker
