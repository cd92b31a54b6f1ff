import RuleBroker.Rounding
/-! Whole numbers as text, in base ten or in others up to sixteen, and characters given by the
number that they have. Main statements: reading the digits of a number gives the number back, and
so does reading its signed form. -/
namespace RuleBroker.Text

def digits (n : Nat) : List Char := Nat.toDigits 10 n

def paddedDigits (width n : Nat) : List Char :=
  List.replicate (width - (digits n).length) '0' ++ digits n

def readNat (cs : List Char) : Option Nat :=
  if cs ≠ [] ∧ cs.all Char.isDigit then some (Nat.ofDigitChars 10 cs 0) else none

def readUnsigned : List Char → Option Nat
  | '+' :: cs => readNat cs
  | cs => readNat cs

def readInteger : List Char → Option Int
  | '-' :: cs => (readNat cs).map fun n => -(n : Int)
  | '+' :: cs => (readNat cs).map fun n => (n : Int)
  | cs => (readNat cs).map fun n => (n : Int)

def integer : Int → List Char
  | .ofNat n => digits n
  | .negSucc n => '-' :: digits (n + 1)

def leastI64 : Int := -9223372036854775808
def greatestI64 : Int := 9223372036854775807

def fitsI64 (n : Int) : Bool := leastI64 ≤ n && n ≤ greatestI64
def fitsU64 (n : Int) : Bool := 0 ≤ n && n < twoTo 64
def fitsI32 (n : Int) : Bool := -2147483648 ≤ n && n ≤ 2147483647

def readI64 (cs : List Char) : Option Int := (readInteger cs).filter fitsI64

def readU64 (cs : List Char) : Option Nat := (readUnsigned cs).filter (· < twoTo 64)

theorem digitsNonempty (n : Nat) : digits n ≠ [] := by
  simp [digits, Nat.toDigits_ne_nil]

theorem digitsAreDigits {n : Nat} {c : Char} (h : c ∈ digits n) : c.isDigit = true :=
  Nat.isDigit_of_mem_toDigits (by decide) (by decide) h

theorem digitRange {c : Char} (isDigit : c.isDigit = true) : 48 ≤ c.toNat ∧ c.toNat ≤ 57 := by
  simpa [Char.isDigit, UInt32.le_iff_toNat_le] using isDigit

theorem zerosAndDigits (zeros n : Nat) {c : Char}
    (inside : c ∈ List.replicate zeros '0' ++ digits n) : c.isDigit = true := by
  rcases List.mem_append.mp inside with zero | digit
  · rw [List.eq_of_mem_replicate zero]
    rfl
  · exact digitsAreDigits digit

theorem valueZeros (zeros n : Nat) :
    Nat.ofDigitChars 10 (List.replicate zeros '0' ++ digits n) 0 = n := by
  rw [Nat.ofDigitChars_append, Nat.ofDigitChars_replicate_zero, Nat.mul_zero]
  exact Nat.ofDigitChars_toDigits (by decide) (by decide)

theorem readNatZeros (zeros n : Nat) :
    readNat (List.replicate zeros '0' ++ digits n) = some n := by
  have all := List.all_eq_true.mpr fun _ inside => zerosAndDigits zeros n inside
  rw [readNat, if_pos ⟨by simp [digitsNonempty], all⟩, valueZeros]

theorem readNatDigits (n : Nat) : readNat (digits n) = some n := readNatZeros 0 n

theorem readUnsignedZeros (zeros n : Nat) :
    readUnsigned (List.replicate zeros '0' ++ digits n) = some n := by
  unfold readUnsigned
  split
  · next cs h =>
    have : ('+' : Char).isDigit = true := zerosAndDigits zeros n (by rw [h]; simp)
    exact absurd this (by decide)
  · exact readNatZeros zeros n

theorem readIntegerInteger (z : Int) : readInteger (integer z) = some z := by
  cases z with
  | ofNat n =>
    simp only [integer]
    unfold readInteger
    split
    · next cs h =>
      have : ('-' : Char).isDigit = true := digitsAreDigits (n := n) (by rw [h]; simp)
      exact absurd this (by decide)
    · next cs h =>
      have : ('+' : Char).isDigit = true := digitsAreDigits (n := n) (by rw [h]; simp)
      exact absurd this (by decide)
    · simp [readNatDigits]
  | negSucc n => simp [integer, readInteger, readNatDigits]; omega

namespace Radix

def digit? (base : Nat) (c : Char) : Option Nat :=
  let n :=
    if c.isDigit then c.toNat - '0'.toNat
    else if 'a' ≤ c ∧ c ≤ 'f' then c.toNat - 'a'.toNat + 10
    else if 'A' ≤ c ∧ c ≤ 'F' then c.toNat - 'A'.toNat + 10
    else base
  if n < base then some n else none

def isDigit (base : Nat) (c : Char) : Bool := (digit? base c).isSome

def number (base : Nat) (cs : List Char) : Nat :=
  cs.foldl (fun n c => n * base + (digit? base c).getD 0) 0

def read? (base : Nat) (cs : List Char) : Option Nat :=
  if cs ≠ [] ∧ cs.all (isDigit base) then some (number base cs) else none

def character (count : Nat) (cs : List Char) : Option (Char × List Char) :=
  let ds := cs.take count
  let n := number 16 ds
  if ds.length = count ∧ ds.all (isDigit 16) ∧ n.isValidChar then
    some (Char.ofNat n, cs.drop count)
  else none

end Radix
end RuleBroker.Text
