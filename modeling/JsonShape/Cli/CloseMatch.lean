import JsonShape.Text.CodePoint

/-! Close matches of a word.

Two words are compared by the letters they share in order: those of their longest common block, and, to
the left and to the right of it, those of the longest blocks there, and so on. A word is close when
twice the letters shared make up at least six tenths of the letters of both words.
-/

set_option autoImplicit false

namespace JsonShape.Cli

def sharedFront : Text → Text → Nat
  | a :: as, b :: bs => if a = b then sharedFront as bs + 1 else 0
  | _, _ => 0

structure Block where
  left : Nat
  right : Nat
  length : Nat

/-- The longest common block, the first one in the first text and then in the second. -/
def longestBlock (a b : Text) : Block :=
  (List.range a.length).foldl (fun best i =>
    (List.range b.length).foldl (fun best j =>
      let length := sharedFront (a.drop i) (b.drop j)
      if best.length < length then ⟨i, j, length⟩ else best) best) ⟨0, 0, 0⟩

/-- Letters shared in order. The longer of the parts beside a block is shorter than the whole, so the
length of the first text bounds the depth. -/
def sharedWithin : Nat → Text → Text → Nat
  | 0, _, _ => 0
  | depth + 1, a, b =>
    let block := longestBlock a b
    if block.length = 0 then 0
    else
      sharedWithin depth (a.take block.left) (b.take block.right) + block.length +
        sharedWithin depth (a.drop (block.left + block.length)) (b.drop (block.right + block.length))

def shared (candidate word : Text) : Nat := sharedWithin candidate.length candidate word

structure Match where
  candidate : Text
  score : Nat
  total : Nat

def Match.of (word candidate : Text) : Match :=
  ⟨candidate, 2 * shared candidate word, candidate.length + word.length⟩

def Match.isClose (m : Match) : Bool := 6 * m.total ≤ 10 * m.score

/-- Better matches come first, and of equally good ones the later in the order of texts. -/
def Match.before (m n : Match) : Bool :=
  if m.score * n.total = n.score * m.total then (compare m.candidate n.candidate).isGE
  else n.score * m.total < m.score * n.total

def closeMatches (word : Text) (candidates : List Text) : List Text :=
  let close := (candidates.map (Match.of word)).filter Match.isClose
  (((close.mergeSort Match.before).take 3).map (·.candidate)).mergeSort
    fun a b => (compare a b).isLE

end JsonShape.Cli
