import RuleBroker.Proofs.Lookup
import RuleBroker.Reading
/-! Structures read from values, field by field. A structure is given as an object or as a
list of its first fields; a draft takes the value of a field once, and what it holds in the
end comes from the fields that are given. -/
namespace RuleBroker

section Entries

variable {α : Type} {before : List (String × α)} {label key : String} {a : α}

theorem lookupSnoc (fresh : label ∉ before.map Prod.fst) :
    (before ++ [(label, a)]).lookup key = if key = label then some a else before.lookup key := by
  rw [List.lookup_append]
  by_cases same : key = label
  · rw [same, lookupNone.mpr fresh]
    simp
  · simp [same, lookupTail same]

theorem nodupSnoc : ((before ++ [(label, a)]).map Prod.fst).Nodup ↔
    (before.map Prod.fst).Nodup ∧ label ∉ before.map Prod.fst := by
  rw [List.map_append, List.perm_append_comm.nodup_iff, List.map_singleton, List.singleton_append,
    List.nodup_cons, and_comm]

end Entries

def Value.entries? (labels : List String) : Value → Option (List (String × Value))
  | .object fields => some (fields.filter fun (label, _) => label ∈ labels)
  | .list values => if values.length ≤ labels.length then some (labels.zip values) else none
  | _ => none

namespace Reading

variable {α : Type} {read : Value → Except Mismatch α} {Means : Value → α → Prop} {field : String}
  {held after : Option α} {given : Option Value} {v : Value} {a default : α}

def Kept (read : Value → Except Mismatch α) (held : Option α) : Option Value → Prop
  | none => held = none
  | some v => ∃ a, read v = .ok a ∧ held = some a

def Given (Means : Value → α → Prop) (default : α) (given : Option Value) (a : α) : Prop :=
  given = none ∧ a = default ∨ ∃ v, given = some v ∧ Means v a

theorem placeOk : place field held read v = .ok after ↔
    Kept read held none ∧ Kept read after (some v) := by
  unfold place Kept
  cases held with
  | some _ => simp
  | none =>
    cases found : read v with
    | error _ => simp [found, Functor.map, Except.map]
    | ok _ => simp [found, Functor.map, Except.map, eq_comm]

theorem placedOk {D : Type} {set : Option α → D} {d : D} :
    (place field held read v >>= fun after => .ok (set after)) = .ok d ↔
      Kept read held none ∧ ∃ after, Kept read after (some v) ∧ set after = d := by
  simp only [Stages.bindOk, placeOk, Except.ok.injEq, and_assoc, exists_and_left]

theorem textOk (v : Value) (s : String) : text v = .ok s ↔ v = .text s := by
  cases v <;> simp [text, wrongType]

theorem keptGiven (reads : ∀ v a, read v = .ok a ↔ Means v a) (kept : Kept read held given) :
    held.getD default = a ↔ Given Means default given a := by
  unfold Given
  cases given with
  | none =>
    cases kept
    simp [eq_comm]
  | some v =>
    obtain ⟨own, ok, rfl⟩ := kept
    have only : own = a ↔ Means v a := by
      rw [← reads, ok, Except.ok.injEq]
    simpa using only

theorem keptRequired (reads : ∀ v a, read v = .ok a ↔ Means v a) (kept : Kept read held given) :
    held = some a ↔ ∃ v, given = some v ∧ Means v a := by
  cases given with
  | none =>
    cases kept
    simp
  | some v =>
    obtain ⟨own, ok, rfl⟩ := kept
    have only : own = a ↔ Means v a := by
      rw [← reads, ok, Except.ok.injEq]
    simpa using only

theorem keptText {held : Option String} {s : String} (kept : Kept text held given) :
    held = some s ↔ given = some (.text s) := by
  rw [keptRequired textOk kept]
  simp

theorem keptFree (kept : Kept read held given) (free : held = none) : given = none := by
  cases given with
  | none => rfl
  | some v =>
    obtain ⟨_, _, filled⟩ := kept
    cases filled.symm.trans free

theorem givenKept (reads : ∀ v a, read v = .ok a ↔ Means v a)
    (meant : Given Means default (some v) a) : Kept read (some a) (some v) := by
  obtain ⟨⟨⟩, _⟩ | ⟨_, ⟨⟩, meant⟩ := meant
  exact ⟨a, (reads _ _).mpr meant, rfl⟩

theorem booleanOk (v : Value) (b : Bool) : boolean v = .ok b ↔ v = .bool b := by
  cases v <;> simp [boolean, wrongType]

def MeansOptional (v : Value) (s : Option String) : Prop :=
  v = .null ∧ s = none ∨ ∃ t, v = .text t ∧ s = some t

theorem optionalOk (v : Value) (s : Option String) :
    optional text v = .ok s ↔ MeansOptional v s := by
  unfold MeansOptional
  cases v <;> simp [optional, text, wrongType, Functor.map, Except.map, eq_comm]

def Listed (given : Option Value) (vs : List Value) : Prop :=
  Given (fun v vs => v = .list vs) [] given vs

/-- How a structure is read into a draft: a slot for each field, what taking a value for it
does, and when a draft holds what the value given there says, or nothing where none is. A slot
takes one value, and that leaves the others as they were. -/
structure Layout (D S : Type) where
  slots : List S
  label : S → String
  blank : D
  put : D → Value → S → Except Mismatch D
  Holds : D → S → Option Value → Prop
  every (s : S) : s ∈ slots
  apart {s t : S} : label s = label t → s = t
  blankHolds (s : S) : Holds blank s none
  free {d : D} {s : S} {given : Option Value} : Holds d s given → Holds d s none → given = none
  taken {d d' : D} {v : Value} {s : S} : put d v s = .ok d' →
    Holds d s none ∧ Holds d' s (some v) ∧
    ∀ t given, t ≠ s → (Holds d' t given ↔ Holds d t given)
  takes {d d' : D} {v : Value} {s : S} : Holds d s none → Holds d' s (some v) →
    ∃ next, put d v s = .ok next

namespace Layout

variable {D S : Type} {l : Layout D S} {d d' : D} {s : S} {label : String}
  {before fields entries : List (String × Value)} {v : Value}

def labels (l : Layout D S) : List String := l.slots.map l.label
def slot? (l : Layout D S) (label : String) : Option S := l.slots.find? (l.label · = label)

def fill (l : Layout D S) (d : D) : List (String × Value) → Except Mismatch D
  | [] => .ok d
  | (label, v) :: rest =>
    match l.slot? label with
    | none => l.fill d rest
    | some s => do l.fill (← l.put d v s) rest

def known (l : Layout D S) (fields : List (String × Value)) : List (String × Value) :=
  fields.filter fun (label, _) => label ∈ l.labels

structure Filled (l : Layout D S) (d : D) (entries : List (String × Value)) : Prop where
  once : (entries.map Prod.fst).Nodup
  holds : ∀ s, l.Holds d s (entries.lookup (l.label s))

theorem slotNone : l.slot? label = none ↔ label ∉ l.labels := by
  simp [slot?, labels, List.find?_eq_none]

theorem slotSome (found : l.slot? label = some s) : label = l.label s := by
  have fits := List.find?_some found
  exact (of_decide_eq_true fits).symm

theorem slotLabel (s : S) : l.slot? (l.label s) = some s := by
  cases found : l.slot? (l.label s) with
  | none => exact absurd (List.mem_map_of_mem (l.every s)) (slotNone.mp found)
  | some t => rw [l.apart (slotSome found)]

theorem knownSlot (s : S) (v : Value) (fields : List (String × Value)) :
    l.known ((l.label s, v) :: fields) = (l.label s, v) :: l.known fields := by
  have inside : l.label s ∈ l.labels := List.mem_map_of_mem (l.every s)
  simp [known, inside]

theorem knownOther (found : l.slot? label = none) :
    l.known ((label, v) :: fields) = l.known fields := by
  simp [known, slotNone.mp found]

theorem knownZip (values : List Value) : l.known (l.labels.zip values) = l.labels.zip values := by
  refine List.filter_eq_self.mpr fun (label, v) inside => ?_
  exact decide_eq_true (List.of_mem_zip inside).1

theorem filledBlank : l.Filled l.blank [] := ⟨List.nodup_nil, l.blankHolds⟩

theorem filledPut (filled : l.Filled d before) (ok : l.put d v s = .ok d') :
    l.Filled d' (before ++ [(l.label s, v)]) := by
  obtain ⟨free, held, others⟩ := l.taken ok
  have fresh := lookupNone.mp (l.free (filled.holds s) free)
  refine ⟨nodupSnoc.mpr ⟨filled.once, fresh⟩, fun t => ?_⟩
  rw [lookupSnoc fresh]
  by_cases same : t = s
  · rw [same, if_pos rfl]
    exact held
  · rw [if_neg (mt l.apart same)]
    exact (others t _ same).mpr (filled.holds t)

theorem fillFilledFrom (filled : l.Filled d before) (ok : l.fill d fields = .ok d') :
    l.Filled d' (before ++ l.known fields) := by
  -- The fields in front have been read, and the draft holds what they say.
  induction fields generalizing d before with
  | nil =>
    cases ok
    simpa [known] using filled
  | cons f rest ih =>
    obtain ⟨label, v⟩ := f
    rw [fill] at ok
    cases found : l.slot? label with
    | none =>
      rw [found] at ok
      rw [knownOther found]
      exact ih filled ok
    | some s =>
      rw [found] at ok
      cases slotSome found
      obtain ⟨next, put, ok⟩ := Stages.bindOk.mp ok
      have later := ih (filledPut filled put) ok
      rwa [List.append_assoc, List.singleton_append, ← knownSlot] at later

theorem fillTakesFrom (filled : l.Filled d before)
    (once : ((before ++ l.known fields).map Prod.fst).Nodup)
    (readable : ∀ s v, (l.label s, v) ∈ l.known fields → ∃ d, l.Holds d s (some v)) :
    ∃ d', l.fill d fields = .ok d' := by
  induction fields generalizing d before with
  | nil => exact ⟨d, rfl⟩
  | cons f rest ih =>
    obtain ⟨label, v⟩ := f
    rw [fill]
    cases found : l.slot? label with
    | none =>
      rw [knownOther found] at once readable
      exact ih filled once readable
    | some s =>
      cases slotSome found
      rw [knownSlot] at once readable
      have regroup : before ++ (l.label s, v) :: l.known rest =
          before ++ [(l.label s, v)] ++ l.known rest := by simp
      rw [regroup] at once
      have front : ((before ++ [(l.label s, v)]).map Prod.fst).Nodup := by
        rw [List.map_append] at once
        exact (List.nodup_append.mp once).1
      have free := filled.holds s
      rw [lookupNone.mpr (nodupSnoc.mp front).2] at free
      obtain ⟨_, held⟩ := readable s v List.mem_cons_self
      obtain ⟨next, put⟩ := l.takes free held
      obtain ⟨d', ok⟩ := ih (filledPut filled put) once fun s v inside =>
        readable s v (List.mem_cons_of_mem _ inside)
      exact ⟨d', Stages.bindOk.mpr ⟨next, put, ok⟩⟩

theorem fillOnly {F : D → List (String × Value) → Except Mismatch D}
    (nil : ∀ d, F d [] = .ok d)
    (unknown : ∀ d label v rest, l.slot? label = none → F d ((label, v) :: rest) = F d rest)
    (known : ∀ d s v rest, F d ((l.label s, v) :: rest) = l.put d v s >>= fun d => F d rest)
    (d : D) (fields : List (String × Value)) : F d fields = l.fill d fields := by
  induction fields generalizing d with
  | nil => exact nil d
  | cons f rest ih =>
    obtain ⟨label, v⟩ := f
    rw [fill]
    cases found : l.slot? label with
    | none => rw [unknown d label v rest found, ih]
    | some s =>
      cases slotSome found
      rw [known]
      simp only [ih]

theorem placesOnly {F : List S → D → List Value → Except Mismatch D}
    (nil : ∀ slots d, F slots d [] = .ok d) (full : ∀ d v rest, F [] d (v :: rest) = .ok d)
    (next : ∀ s slots d v rest,
      F (s :: slots) d (v :: rest) = l.put d v s >>= fun d => F slots d rest)
    (slots : List S) (d : D) (values : List Value) :
    F slots d values = l.fill d ((slots.map l.label).zip values) := by
  induction values generalizing slots d with
  | nil =>
    rw [nil, List.zip_nil_right]
    rfl
  | cons v rest ih =>
    cases slots with
    | nil => exact full d v rest
    | cons s slots =>
      rw [List.map_cons, List.zip_cons_cons, next, fill, slotLabel]
      simp only [ih]

theorem fillKnown (d : D) (fields : List (String × Value)) :
    l.fill d (l.known fields) = l.fill d fields := by
  induction fields generalizing d with
  | nil => rfl
  | cons f rest ih =>
    obtain ⟨label, v⟩ := f
    cases found : l.slot? label with
    | none =>
      rw [knownOther found, ih, fill, found]
    | some s =>
      cases slotSome found
      rw [knownSlot, fill, fill]
      simp only [ih]

theorem entriesKnown (given : v.entries? l.labels = some entries) :
    l.known entries = entries := by
  cases v with
  | object fields =>
    cases given
    simp [known]
  | list values =>
    simp only [Value.entries?] at given
    split at given <;> cases given
    exact knownZip values
  | null | bool _ | int _ | float _ | text _ => cases given

theorem fillFilled (given : v.entries? l.labels = some entries)
    (ok : l.fill l.blank entries = .ok d) : l.Filled d entries := by
  have filled := fillFilledFrom filledBlank ok
  rwa [List.nil_append, entriesKnown given] at filled

theorem fillFinish {α : Type} {a : α} {finish : D → Except Mismatch α} {Means : Prop}
    (given : v.entries? l.labels = some entries)
    (finished : ∀ d, l.Filled d entries → (finish d = .ok a ↔ Means))
    (readable : Means → ∀ s v, entries.lookup (l.label s) = some v → ∃ d, l.Holds d s (some v)) :
    (l.fill l.blank entries >>= finish) = .ok a ↔ (entries.map Prod.fst).Nodup ∧ Means := by
  rw [Stages.bindOk]
  constructor
  · intro ⟨d, ok, done⟩
    have filled := fillFilled given ok
    exact ⟨filled.once, (finished d filled).mp done⟩
  · intro ⟨once, meant⟩
    have distinct : ((l.known entries).map Prod.fst).Nodup := (entriesKnown given).symm ▸ once
    obtain ⟨d, ok⟩ := fillTakesFrom filledBlank distinct fun s v inside => by
      rw [entriesKnown given] at inside
      exact readable meant s v ((lookupMember once).mpr inside)
    exact ⟨d, ok, (finished d (fillFilled given ok)).mpr meant⟩

end Layout
end Reading
end RuleBroker
