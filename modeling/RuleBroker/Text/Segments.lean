/-! Cutting a text at every occurrence of a separator, and trimming it of white space in the sense
of the Unicode property of that name. Main statement: the pieces of two texts joined by a separator
are the pieces of the one, then of the other. -/
namespace RuleBroker.Text

def pieces (separator : Char) : List Char → List (List Char)
  | [] => [[]]
  | c :: cs =>
    if c = separator then [] :: pieces separator cs
    else match pieces separator cs with
      | [] => [[c]]
      | p :: ps => (c :: p) :: ps

def segments (separator : Char) (s : String) : List String :=
  (pieces separator s.toList).map String.ofList

theorem piecesNonempty (separator : Char) (cs : List Char) : pieces separator cs ≠ [] := by
  cases cs with
  | nil => simp [pieces]
  | cons c cs => unfold pieces; split; · simp
                 split <;> simp

theorem piecesAppend (separator : Char) (as bs : List Char) :
    pieces separator (as ++ separator :: bs) = pieces separator as ++ pieces separator bs := by
  induction as with
  | nil => simp [pieces]
  | cons a as ih =>
    simp only [List.cons_append, pieces, ih]
    split
    · rfl
    · cases h : pieces separator as with
      | nil => exact absurd h (piecesNonempty _ _)
      | cons p ps => rfl

theorem segmentsAppend (separator : Char) (p q : String) :
    segments separator (p ++ String.ofList [separator] ++ q) =
      segments separator p ++ segments separator q := by
  simp [segments, piecesAppend]

theorem piecesWithout {separator : Char} {cs : List Char} (h : separator ∉ cs) :
    pieces separator cs = [cs] := by
  induction cs with
  | nil => rfl
  | cons c cs ih =>
    simp only [List.mem_cons, not_or] at h
    simp [pieces, Ne.symm h.1, ih h.2]

theorem segmentsWithout {separator : Char} {s : String} (h : separator ∉ s.toList) :
    segments separator s = [s] := by
  simp [segments, piecesWithout h]

def isBlank (c : Char) : Bool :=
  let n := c.toNat
  (9 ≤ n && n ≤ 13) || n == 32 || n == 0x85 || n == 0xa0 || n == 0x1680 ||
    (0x2000 ≤ n && n ≤ 0x200a) || n == 0x2028 || n == 0x2029 || n == 0x202f ||
    n == 0x205f || n == 0x3000

def trim (cs : List Char) : List Char :=
  ((cs.dropWhile isBlank).reverse.dropWhile isBlank).reverse

def Blank (s : String) : Prop := ∀ c ∈ s.toList, isBlank c = true

instance (s : String) : Decidable (Blank s) :=
  List.decidableBAll (fun c => isBlank c = true) s.toList

end RuleBroker.Text
