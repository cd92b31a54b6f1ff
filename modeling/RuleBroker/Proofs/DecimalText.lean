import Mathlib.Algebra.Order.Ring.Nat
import RuleBroker.Proofs.DecimalValue
import RuleBroker.Decimal.Text
/-! Decimals read back from their text. Coefficient and scale come back as they were, and so
does the sign, but for that of a zero. -/
namespace RuleBroker

namespace Text

theorem lengthPadded {width n : Nat} (small : n < tenTo width) (wide : 0 < width) :
    (paddedDigits width n).length = width := by
  have short : (digits n).length ≤ width :=
    (Nat.length_toDigits_le_iff (by decide) wide).mpr small
  rw [paddedDigits, List.length_append, List.length_replicate, Nat.sub_add_cancel short]

theorem paddedAreDigits {width n : Nat} {c : Char} (inside : c ∈ paddedDigits width n) :
    c.isDigit = true := zerosAndDigits _ n inside

theorem valueDigits (n : Nat) : Nat.ofDigitChars 10 (digits n) 0 = n := valueZeros 0 n

theorem valuePadded (width n : Nat) : Nat.ofDigitChars 10 (paddedDigits width n) 0 = n :=
  valueZeros _ n

end Text

namespace Decimal
open Text (digits paddedDigits digitsAreDigits)

/-- A zero loses its sign, as it does whenever it is read. -/
def plain (d : Decimal) : Decimal := { d with negative := d.negative && !d.isZero }

variable {coefficient scale : Nat} {point digit wide : Bool} {c : Char} {ds rest : List Char}

theorem plainOf (d : Decimal) : of? d.coefficient d.scale = some d.plain := by
  have sign : decide (d.coefficient < 0) = (d.negative && !d.isZero) := by
    rw [coefficient, signedCoefficient, isZero, Bool.eq_iff_iff]
    cases d.negative <;> simp [Nat.pos_iff_ne_zero]
  rw [of?, sign, natAbsCoefficient, ofParts?, dif_pos ⟨d.magnitude_le, d.scale_le⟩]
  rfl

theorem plainValue (d : Decimal) : d.plain.value = d.value :=
  (valueOfSome (plainOf d)).trans rfl

theorem plainSelf {d : Decimal} (signed : d.isZero = true → d.negative = false) : d.plain = d := by
  cases zero : d.isZero with
  | true =>
    have unsigned := signed zero
    cases d
    cases unsigned
    rfl
  | false =>
    rw [plain, zero, Bool.not_false, Bool.and_true]

theorem scanDigit (digit wide : Bool) (rest : List Char) (isDigit : c.isDigit = true)
    (fits : coefficient * 10 + digitValue c ≤ greatestCoefficient)
    (room : point = true → scale < greatestScale) : ∃ wide',
      scan coefficient scale point digit wide (c :: rest) =
        scan (coefficient * 10 + digitValue c) (if point then scale + 1 else scale) point true
          wide' rest := by
  have unsettled : ¬(point = true ∧ greatestScale ≤ scale) := fun ⟨after, full⟩ =>
    absurd (room after) (Nat.not_lt.mpr full)
  rw [scan, if_neg unsettled, if_pos isDigit, if_pos fits]
  exact ⟨_, rfl⟩

theorem scanDigits (point digit wide : Bool) (scale : Nat) (rest : List Char)
    (all : ∀ c ∈ ds, c.isDigit = true)
    (fits : Nat.ofDigitChars 10 ds coefficient ≤ greatestCoefficient)
    (room : point = true → scale + ds.length ≤ greatestScale) : ∃ wide',
      scan coefficient scale point digit wide (ds ++ rest) =
        scan (Nat.ofDigitChars 10 ds coefficient) (if point then scale + ds.length else scale)
          point (digit || !ds.isEmpty) wide' rest := by
  induction ds generalizing coefficient scale digit wide with
  | nil => exact ⟨wide, by simp⟩
  | cons c cs ih =>
    have next : 10 * coefficient + (c.toNat - '0'.toNat) = coefficient * 10 + digitValue c := by
      rw [Nat.mul_comm, digitValue]
    rw [Nat.ofDigitChars_cons, next] at fits ⊢
    have grows : Nat.ofDigitChars 10 cs (coefficient * 10 + digitValue c) = _ :=
      Nat.ofDigitChars_eq_ofDigitChars_zero
    have fitsHere : coefficient * 10 + digitValue c ≤ greatestCoefficient := by
      have least : coefficient * 10 + digitValue c ≤
          10 ^ cs.length * (coefficient * 10 + digitValue c) :=
        Nat.le_mul_of_pos_left _ (Nat.pow_pos (by decide))
      omega
    have roomHere : point = true → scale < greatestScale := fun after => by
      have whole := room after
      rw [List.length_cons] at whole
      omega
    obtain ⟨wide', first⟩ := scanDigit digit wide (cs ++ rest) (all c (by simp)) fitsHere roomHere
    have roomLater : point = true → (if point then scale + 1 else scale) + cs.length ≤
        greatestScale := fun after => by
      have whole := room after
      rw [List.length_cons] at whole
      rw [if_pos after]
      omega
    obtain ⟨wide'', later⟩ := ih true wide' _
      (fun d inside => all d (by simp [inside])) fits roomLater
    refine ⟨wide'', ?_⟩
    rw [List.cons_append, first, later]
    cases point <;> simp [Nat.add_assoc, Nat.add_comm 1]

theorem scanPoint : scan coefficient scale false digit wide ('.' :: rest) =
    scan coefficient scale true digit wide rest := by
  rw [scan, if_neg (by simp), if_neg (by decide), if_pos ⟨rfl, rfl⟩]

theorem scanEnd : scan coefficient scale point true wide [] = some (coefficient, scale) := rfl

def unsignedText (d : Decimal) : List Char :=
  if d.scale = 0 then digits d.magnitude
  else digits (d.magnitude / tenTo d.scale) ++
    '.' :: paddedDigits d.scale (d.magnitude % tenTo d.scale)

theorem textUnsigned (d : Decimal) :
    d.text = if d.negative then '-' :: d.unsignedText else d.unsignedText := rfl

theorem scanUnsigned (d : Decimal) :
    scan 0 0 false false false d.unsignedText = some (d.magnitude, d.scale) := by
  have fits := d.magnitude_le
  have nonempty (n : Nat) : (!(digits n).isEmpty) = true := by
    simp [Text.digitsNonempty]
  unfold unsignedText
  split
  · next whole =>
    have value := Text.valueDigits d.magnitude
    obtain ⟨wide, scanned⟩ := scanDigits false false false 0 []
      (fun c inside => digitsAreDigits inside) (value.symm ▸ fits) nofun
    rw [List.append_nil] at scanned
    rw [scanned, value, nonempty, whole]
    rfl
  · next broken =>
    have places : 0 < d.scale := Nat.pos_of_ne_zero broken
    have small : d.magnitude % tenTo d.scale < tenTo d.scale := Nat.mod_lt _ (tenToPos _)
    have width := Text.lengthPadded small places
    have split := Nat.div_add_mod d.magnitude (tenTo d.scale)
    have whole := Text.valueDigits (d.magnitude / tenTo d.scale)
    have value : Nat.ofDigitChars 10 (paddedDigits d.scale (d.magnitude % tenTo d.scale))
        (d.magnitude / tenTo d.scale) = d.magnitude := by
      rw [Nat.ofDigitChars_eq_ofDigitChars_zero, width, Text.valuePadded]
      exact split
    obtain ⟨wide, front⟩ := scanDigits false false false 0
      ('.' :: paddedDigits d.scale (d.magnitude % tenTo d.scale))
      (fun c inside => digitsAreDigits inside)
      (whole.symm ▸ Nat.le_trans (Nat.div_le_self _ _) fits) nofun
    obtain ⟨wide', back⟩ := scanDigits true true wide 0 [] (fun c inside => Text.paddedAreDigits inside)
      (value.symm ▸ fits) (fun _ => by rw [width, Nat.zero_add]; exact d.scale_le)
    rw [List.append_nil, if_pos rfl, Bool.true_or, value, width, Nat.zero_add] at back
    rw [front, whole, nonempty, Bool.false_or, if_neg Bool.false_ne_true, scanPoint, back, scanEnd]

theorem readUnsigned (d : Decimal) (negative : Bool) (same : negative = d.negative) :
    readSigned negative d.unsignedText = some d.plain := by
  rw [readSigned, scanUnsigned, same]
  exact plainOf d

theorem unsignedHead (d : Decimal) : ∃ c cs, d.unsignedText = c :: cs ∧ c.isDigit = true := by
  have first (n : Nat) (after : List Char) :
      ∃ c cs, digits n ++ after = c :: cs ∧ c.isDigit = true := by
    obtain ⟨c, cs, found⟩ := List.exists_cons_of_ne_nil (Text.digitsNonempty n)
    exact ⟨c, cs ++ after, by rw [found, List.cons_append],
      digitsAreDigits (n := n) (by rw [found]; simp)⟩
  unfold unsignedText
  split
  · simpa using first d.magnitude []
  · exact first _ _

theorem readText (d : Decimal) : read d.text = some d.plain := by
  have found : readPlain d.text = some d.plain := by
    rw [textUnsigned]
    cases negative : d.negative with
    | true => exact readUnsigned d true negative.symm
    | false =>
      obtain ⟨c, cs, head, isDigit⟩ := unsignedHead d
      have body := readUnsigned d false negative.symm
      rw [if_neg Bool.false_ne_true]
      rw [head] at body ⊢
      unfold readPlain
      split
      · next same =>
        cases (List.cons.inj same).1
        exact absurd isDigit (by decide)
      · next same =>
        cases (List.cons.inj same).1
        exact absurd isDigit (by decide)
      · exact body
  rw [read, found]
  rfl

theorem ofTextToText (d : Decimal) : ofText? d.toText = some d.plain := by
  rw [ofText?, toText, String.toList_ofList, readText]

end Decimal
end RuleBroker
