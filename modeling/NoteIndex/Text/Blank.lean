import NoteIndex.Text.Field

/-! Sets of code points given by closed intervals in increasing order, and the first of them: white
space, that is the characters with the property White_Space, trimming, and the words between them. -/
namespace NoteIndex.Text

/-- Whether `n` lies in one of the intervals. The search stops at the first interval above `n`. -/
def inIntervals : List (Nat × Nat) → Nat → Bool
  | [], _ => false
  | (lo, hi) :: rest, n => decide (lo ≤ n) && (decide (n ≤ hi) || inIntervals rest n)

@[simp] theorem inIntervals_nil (n : Nat) : inIntervals [] n = false := rfl

theorem inIntervals_cons (lo hi n : Nat) (rest : List (Nat × Nat)) :
    inIntervals ((lo, hi) :: rest) n
      = (decide (lo ≤ n) && (decide (n ≤ hi) || inIntervals rest n)) := rfl

/-- Code points with the property White_Space. -/
def blankIntervals : List (Nat × Nat) := [
  (9, 13), (32, 32), (133, 133), (160, 160), (5760, 5760), (8192, 8202), (8232, 8233),
  (8239, 8239), (8287, 8287), (12288, 12288)]

def isBlank (c : Char) : Bool := inIntervals blankIntervals c.toNat

def trimEnd (cs : List Char) : List Char := dropEndWhile isBlank cs

def trim (cs : List Char) : List Char := trimEnd (cs.dropWhile isBlank)

/-- The trimmed text, unless nothing is left of it. -/
def trimmed? (cs : List Char) : Option (List Char) :=
  match trim cs with
  | [] => none
  | c :: rest => some (c :: rest)

/-- The words of a text: its maximal stretches without white space. -/
def words (cs : List Char) : List (List Char) := wordsBy isBlank cs

example : words " a  bc\td ".toList = [['a'], ['b', 'c'], ['d']] := by decide
example : trim " a b\n".toList = ['a', ' ', 'b'] := by decide

end NoteIndex.Text
