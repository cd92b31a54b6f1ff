import Mathlib.Data.List.Induction
import RuleBroker.Record
/-! Look-up by path, told without cutting: a path is names and numbers with points between
them, and leads from a value into it by one step for each. A longer path goes on from where
its first part leads. -/
namespace RuleBroker

namespace Text

variable {cs : List Char} {c : Char} {i n : Nat}

inductive Numeral (i : Nat) : List Char → Prop
  | spelled {sign} (zeros : Nat) (plus : sign = [] ∨ sign = ['+']) :
      Numeral i (sign ++ (List.replicate zeros '0' ++ digits i))

theorem digitsSnoc (isDigit : c.isDigit = true) :
    digits (10 * n + (c.toNat - 48)) = (if n = 0 then [] else digits n) ++ [c] := by
  have range := digitRange isDigit
  have last : digits (c.toNat - 48) = [c] := by
    have same : Nat.digitChar (c.toNat - 48) = c := by
      refine Char.toNat_inj.mp ?_
      rw [Nat.toNat_digitChar_of_lt_ten (by omega)]
      omega
    rw [digits, Nat.toDigits_of_lt_base (by omega), same]
  split
  · next zero => rw [zero, Nat.mul_zero, Nat.zero_add, last, List.nil_append]
  · next more =>
    rw [digits, ← Nat.toDigits_append_toDigits (by decide) (Nat.pos_of_ne_zero more) (by omega)]
    exact congrArg _ last

theorem zerosThenDigits (given : cs ≠ []) (all : ∀ c ∈ cs, c.isDigit = true) :
    ∃ zeros, cs = List.replicate zeros '0' ++ digits (Nat.ofDigitChars 10 cs 0) := by
  induction cs using List.reverseRecOn with
  | nil => exact absurd rfl given
  | append_singleton front c ih =>
    have isDigit : c.isDigit = true := all c (by simp)
    have value : Nat.ofDigitChars 10 (front ++ [c]) 0 =
        10 * Nat.ofDigitChars 10 front 0 + (c.toNat - 48) := Nat.ofDigitChars_append 0
    rw [value, digitsSnoc isDigit]
    by_cases empty : front = []
    · exact ⟨0, by simp [empty]⟩
    · obtain ⟨zeros, cut⟩ := ih empty fun d inside => all d (List.mem_append_left _ inside)
      split
      · next zero =>
        have zeroDigits : digits 0 = ['0'] := rfl
        rw [zero, zeroDigits, ← List.replicate_succ'] at cut
        exact ⟨zeros + 1, congrArg (· ++ [c]) cut⟩
      · exact ⟨zeros, by rw [← List.append_assoc, ← cut]⟩

theorem readNatOnly : readNat cs = some i ↔
    ∃ zeros, cs = List.replicate zeros '0' ++ digits i := by
  constructor
  · intro read
    obtain ⟨⟨given, all⟩, value⟩ := Option.ite_none_right_eq_some.mp read
    cases value
    exact zerosThenDigits given (List.all_eq_true.mp all)
  · rintro ⟨zeros, rfl⟩
    exact readNatZeros zeros i

theorem readU64Only : readU64 cs = some i ↔ Numeral i cs ∧ i < twoTo 64 := by
  rw [readU64, Option.filter_eq_some_iff, decide_eq_true_iff]
  refine and_congr_left fun _ => ⟨fun read => ?_, ?_⟩
  · unfold readUnsigned at read
    split at read
    · obtain ⟨zeros, rfl⟩ := readNatOnly.mp read
      exact .spelled zeros (.inr rfl)
    · obtain ⟨zeros, rfl⟩ := readNatOnly.mp read
      exact .spelled zeros (.inl rfl)
  · rintro ⟨zeros, rfl | rfl⟩
    · exact readUnsignedZeros zeros i
    · exact readNatZeros zeros i

structure Cut (path : String) (segs : List String) : Prop where
  given : segs ≠ []
  undotted : ∀ seg ∈ segs, '.' ∉ seg.toList
  joined : ".".intercalate segs = path

variable {path : String} {segs : List String}

theorem piecesJoined (separator : Char) (cs : List Char) :
    [separator].intercalate (pieces separator cs) = cs := by
  induction cs with
  | nil => rfl
  | cons c cs ih =>
    obtain ⟨p, ps, cut⟩ := List.exists_cons_of_ne_nil (piecesNonempty separator cs)
    rw [cut] at ih
    rw [pieces]
    split
    · next same =>
      rw [cut, List.intercalate_cons_cons, ih, same]
      rfl
    · rw [cut]
      cases ps with
      | nil => rw [List.intercalate_singleton] at ih ⊢; rw [ih]
      | cons q ps =>
        rw [List.intercalate_cons_cons] at ih ⊢
        rw [← ih]
        rfl

theorem piecesFree (separator : Char) (cs : List Char) :
    ∀ p ∈ pieces separator cs, separator ∉ p := by
  induction cs with
  | nil => simp [pieces]
  | cons c cs ih =>
    obtain ⟨p, ps, cut⟩ := List.exists_cons_of_ne_nil (piecesNonempty separator cs)
    rw [cut, List.forall_mem_cons] at ih
    rw [pieces]
    split
    · rw [cut]
      simpa using ih
    · next differs =>
      rw [cut]
      simpa [ih, Ne.symm differs] using ih.2

theorem segmentsCut (path : String) : Cut path (segments '.' path) := by
  refine ⟨by simp [segments, piecesNonempty], ?_, ?_⟩
  · intro seg inside
    obtain ⟨p, piece, rfl⟩ := List.mem_map.mp inside
    rw [String.toList_ofList]
    exact piecesFree '.' path.toList p piece
  · rw [← String.toList_inj, String.toList_intercalate, segments, List.map_map]
    simp only [Function.comp_def, String.toList_ofList, List.map_id']
    exact piecesJoined '.' path.toList

theorem cutOnly : Cut path segs ↔ segs = segments '.' path := by
  constructor
  · rintro ⟨given, undotted, rfl⟩
    induction segs with
    | nil => exact absurd rfl given
    | cons seg rest ih =>
      obtain ⟨free, undotted⟩ := List.forall_mem_cons.mp undotted
      cases rest with
      | nil => rw [String.intercalate_singleton, segmentsWithout free]
      | cons next rest =>
        have later := ih (List.cons_ne_nil _ _) undotted
        have point : "." = String.ofList ['.'] := rfl
        rw [String.intercalate_cons_cons, point, segmentsAppend, segmentsWithout free, ← point,
          ← later]
        rfl
  · rintro rfl
    exact segmentsCut path

end Text

namespace Value

inductive Enters : Value → String → Value → Prop where
  | field {name v before after} (first : name ∉ before.map Prod.fst) :
      Enters (.object (before ++ (name, v) :: after)) name v
  | item {items seg i v} (numeral : Text.Numeral i seg.toList) (fits : i < twoTo 64)
      (found : items[i]? = some v) : Enters (.list items) seg v

inductive Leads : Value → List String → Value → Prop where
  | here {v} : Leads v [] v
  | on {v seg w segs x} (enters : Enters v seg w) (leads : Leads w segs x) :
      Leads v (seg :: segs) x

variable {v w : Value} {seg : String} {segs : List String}

theorem entersOnly : v.step seg.toList = some w ↔ Enters v seg w := by
  constructor
  · intro found
    unfold step at found
    split at found
    · rw [String.ofList_toList] at found
      obtain ⟨before, after, rfl, differ⟩ := List.lookup_eq_some_iff.mp found
      refine .field fun inside => ?_
      obtain ⟨f, member, same⟩ := List.mem_map.mp inside
      simpa [same] using differ f member
    · obtain ⟨i, read, found⟩ := Option.bind_eq_some_iff.mp found
      obtain ⟨numeral, fits⟩ := Text.readU64Only.mp read
      exact .item numeral fits found
    · cases found
  · intro enters
    cases enters with
    | @field _ _ before after first =>
      rw [step, String.ofList_toList]
      refine List.lookup_eq_some_iff.mpr ⟨before, after, rfl, fun f member => ?_⟩
      rw [bne_iff_ne]
      rintro rfl
      exact first (List.mem_map_of_mem member)
    | item numeral fits found =>
      rw [step, Text.readU64Only.mpr ⟨numeral, fits⟩]
      exact found

theorem leadsOnly : v.descend (segs.map String.toList) = some w ↔ Leads v segs w := by
  induction segs generalizing v with
  | nil =>
    constructor
    · rintro ⟨⟩
      exact .here
    · rintro ⟨⟩
      rfl
  | cons seg segs ih =>
    rw [List.map_cons, descend, List.foldlM_cons]
    constructor
    · intro found
      obtain ⟨x, entered, found⟩ := Option.bind_eq_some_iff.mp found
      exact .on (entersOnly.mp entered) (ih.mp found)
    · rintro ⟨⟩
      next enters leads =>
      exact Option.bind_eq_some_iff.mpr ⟨_, entersOnly.mpr enters, ih.mpr leads⟩

end Value

namespace RecordView

variable {view : RecordView} {path : String} {segs : List String}

theorem fieldSegments (view : RecordView) (cut : Text.Cut path segs) :
    view.field? path = view.data.descend (segs.map String.toList) := by
  rw [Text.cutOnly.mp cut, field?, Value.at?, Text.segments, List.map_map]
  simp only [Function.comp_def, String.toList_ofList, List.map_id']

theorem fieldJoined (view : RecordView) (p q : String) :
    view.field? (p ++ "." ++ q) = (view.field? p).bind fun v => (RecordView.mk v).field? q := by
  have point : "." = String.ofList ['.'] := rfl
  simp only [field?, Value.at?, String.toList_append, point, String.toList_ofList]
  rw [List.append_assoc, List.singleton_append, Text.piecesAppend, Value.descendAppend]

/-- A path with a point in it looks up what stands before the point, then the rest in what
was found there. What a path finds, and all that it finds, is where its segments lead. -/
theorem pathsCompose (view : RecordView) :
    (∀ p q, view.field? (p ++ "." ++ q) =
      (view.field? p).bind fun v => (RecordView.mk v).field? q) ∧
    ∀ path v, view.field? path = some v ↔
      ∃ segs, Text.Cut path segs ∧ Value.Leads view.data segs v := by
  refine ⟨fieldJoined view, fun path v => ?_⟩
  have cut := Text.segmentsCut path
  rw [fieldSegments view cut, Value.leadsOnly]
  constructor
  · exact fun leads => ⟨_, cut, leads⟩
  · rintro ⟨segs, own, leads⟩
    rwa [Text.cutOnly.mp own] at leads

example : field? ⟨.object [("", .list [.null, .text "x"]), ("+01", .null)]⟩ ".+01" =
    some (.text "x") := rfl

end RecordView
end RuleBroker
