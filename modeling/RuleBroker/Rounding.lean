/-! Powers of two and of ten, and quotients of natural numbers rounded to whole numbers. Main
statements: the result is within half a unit, a whole quotient is kept, and a greater number is
rounded to no less. -/
namespace RuleBroker

def twoTo (n : Nat) : Nat := Nat.pow 2 n
def tenTo (n : Nat) : Nat := Nat.pow 10 n

theorem twoToZero : twoTo 0 = 1 := rfl
theorem tenToZero : tenTo 0 = 1 := rfl

theorem twoToSucc (n : Nat) : twoTo (n + 1) = twoTo n * 2 := rfl
theorem tenToSucc (n : Nat) : tenTo (n + 1) = tenTo n * 10 := rfl

theorem twoToPos (n : Nat) : 0 < twoTo n := Nat.pow_pos (by decide)
theorem tenToPos (n : Nat) : 0 < tenTo n := Nat.pow_pos (by decide)

theorem twoToAdd (m n : Nat) : twoTo (m + n) = twoTo m * twoTo n := Nat.pow_add 2 m n
theorem tenToAdd (m n : Nat) : tenTo (m + n) = tenTo m * tenTo n := Nat.pow_add 10 m n

theorem twoToMono {m n : Nat} (h : m ≤ n) : twoTo m ≤ twoTo n := Nat.pow_le_pow_right (by decide) h

namespace Rounding

def halfEven (num den : Nat) : Nat :=
  let whole := num / den
  let rest := num % den
  if 2 * rest < den then whole
  else if den < 2 * rest then whole + 1
  else if whole % 2 = 0 then whole else whole + 1

def halfUp (num den : Nat) : Nat := (2 * num + den) / (2 * den)

theorem halfEvenMul (n : Nat) {den : Nat} (h : 0 < den) : halfEven (n * den) den = n := by
  simp [halfEven, Nat.mul_div_cancel n h, h]

theorem halfEvenOne (n : Nat) : halfEven n 1 = n := by
  have whole : halfEven (n * 1) 1 = n := halfEvenMul n (by decide)
  simpa using whole

theorem halfEvenAtMost (num : Nat) {den : Nat} (h : 0 < den) :
    2 * (halfEven num den * den) ≤ 2 * num + den := by
  have split := Nat.div_add_mod num den
  have small := Nat.mod_lt num h
  have comm : num / den * den = den * (num / den) := Nat.mul_comm _ _
  simp only [halfEven]
  repeat' split
  all_goals (try simp only [Nat.add_mul, Nat.one_mul]); omega

theorem halfEvenAtLeast (num : Nat) {den : Nat} (h : 0 < den) :
    2 * num ≤ 2 * (halfEven num den * den) + den := by
  have split := Nat.div_add_mod num den
  have small := Nat.mod_lt num h
  have comm : num / den * den = den * (num / den) := Nat.mul_comm _ _
  simp only [halfEven]
  repeat' split
  all_goals (try simp only [Nat.add_mul, Nat.one_mul]); omega

theorem halfEvenFloor (num den : Nat) : num / den ≤ halfEven num den := by
  simp only [halfEven]
  repeat' split
  all_goals omega

theorem halfEvenCeil (num den : Nat) : halfEven num den ≤ num / den + 1 := by
  simp only [halfEven]
  repeat' split
  all_goals omega

section Ascending
variable {num den num' den' : Nat}

theorem restAscending (ascending : num * den' ≤ num' * den) (same : num / den = num' / den') :
    num % den * den' ≤ num' % den' * den := by
  rw [← Nat.div_add_mod num den, ← Nat.div_add_mod num' den', same, Nat.add_mul, Nat.add_mul,
    Nat.mul_right_comm den, Nat.mul_comm den den', Nat.mul_right_comm den',
    Nat.mul_right_comm den'] at ascending
  exact Nat.le_of_add_le_add_left ascending

variable (positive : 0 < den) (positive' : 0 < den') (ascending : num * den' ≤ num' * den)
include positive positive' ascending

theorem divAscending : num / den ≤ num' / den' := by
  rw [Nat.le_div_iff_mul_le positive']
  refine Nat.le_of_mul_le_mul_right ?_ positive
  calc num / den * den' * den = num / den * den * den' := Nat.mul_right_comm _ _ _
    _ ≤ num * den' := Nat.mul_le_mul_right _ (Nat.div_mul_le_self num den)
    _ ≤ num' * den := ascending

/- Between the same whole numbers the rests decide, and of two halves both go to the even one. -/
theorem halfEvenAscending : halfEven num den ≤ halfEven num' den' := by
  rcases Nat.lt_or_eq_of_le (divAscending positive positive' ascending) with less | same
  · exact Nat.le_trans (halfEvenCeil num den) (Nat.le_trans less (halfEvenFloor num' den'))
  · have rests := restAscending ascending same
    have half : den ≤ 2 * (num % den) → den' ≤ 2 * (num' % den') := by
      intro half
      refine Nat.le_of_mul_le_mul_right ?_ positive
      have wide := Nat.mul_le_mul_right den' half
      rw [Nat.mul_comm den', Nat.mul_assoc]
      rw [Nat.mul_assoc] at wide
      omega
    have more : den < 2 * (num % den) → den' < 2 * (num' % den') := by
      intro more
      refine Nat.lt_of_mul_lt_mul_right (a := den) ?_
      have wide := Nat.mul_lt_mul_of_pos_right more positive'
      rw [Nat.mul_comm den', Nat.mul_assoc]
      rw [Nat.mul_assoc] at wide
      omega
    simp only [halfEven, same]
    repeat' split
    all_goals omega

end Ascending

theorem halfUpAtMost (num den : Nat) :
    2 * (halfUp num den * den) ≤ 2 * num + den := by
  have below := Nat.div_mul_le_self (2 * num + den) (2 * den)
  rw [Nat.mul_left_comm] at below
  exact below

theorem halfUpAtLeast (num : Nat) {den : Nat} (h : 0 < den) :
    2 * num ≤ 2 * (halfUp num den * den) + den := by
  have above := Nat.lt_div_mul_add (a := 2 * num + den) (Nat.mul_pos Nat.two_pos h)
  rw [Nat.mul_left_comm] at above
  unfold halfUp
  omega

end Rounding
end RuleBroker
