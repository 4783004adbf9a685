/-!
# Similar names

Suggestions for a misspelt name. The similarity of two texts is the share of their characters
that lie in common blocks: the longest common block is matched first, then what is left of it on
both sides and what is right of it, each in the same way. Of several longest blocks the leftmost
is taken.

In a misspelt name of 200 characters or more, a character that makes up more than about a
hundredth of the name starts no block and only extends one.
-/

namespace MiniA64.Text

/-- The length of the common beginning of two texts, up to a character that does not count. -/
def commonPrefix (counts : Char → Bool) : List Char → List Char → Nat
  | a :: first, b :: second =>
    if a = b && counts a then commonPrefix counts first second + 1 else 0
  | _, _ => 0

/-- A block common to two texts, by its offsets in both. -/
structure CommonBlock where
  first : Nat
  second : Nat
  size : Nat
  deriving DecidableEq, Repr

namespace CommonBlock

/-- The better of a block and those that begin here in the first and later in the second text. -/
def longestHere (counts : Char → Bool) (i : Nat) (first : List Char) :
    Nat → List Char → CommonBlock → CommonBlock
  | _, [], best => best
  | j, c :: rest, best =>
    let size := commonPrefix counts first (c :: rest)
    longestHere counts i first (j + 1) rest (if best.size < size then ⟨i, j, size⟩ else best)

/-- The better of a block and those that begin later in the first text. -/
def longestFrom (counts : Char → Bool) (second : List Char) :
    Nat → List Char → CommonBlock → CommonBlock
  | _, [], best => best
  | i, c :: rest, best =>
    longestFrom counts second (i + 1) rest (longestHere counts i (c :: rest) 0 second best)

/-- The leftmost of the longest common blocks of characters that count. -/
def longest (counts : Char → Bool) (first second : List Char) : CommonBlock :=
  longestFrom counts second 0 first ⟨0, 0, 0⟩

/-- Extends a block over equal neighbours, whether they count or not. -/
def extend (first second : List Char) (block : CommonBlock) : CommonBlock :=
  let any (_ : Char) := true
  let before := commonPrefix any (first.take block.first).reverse
    (second.take block.second).reverse
  let after := commonPrefix any (first.drop (block.first + block.size))
    (second.drop (block.second + block.size))
  ⟨block.first - before, block.second - before, before + block.size + after⟩

end CommonBlock

/-- The number of characters in common blocks. -/
def matchedCount (counts : Char → Bool) (first second : List Char) : Nat :=
  match (CommonBlock.longest counts first second).extend first second with
  | ⟨i, j, size⟩ =>
    if _inside : 0 < size ∧ i + size ≤ first.length then
      size + matchedCount counts (first.take i) (second.take j) +
        matchedCount counts (first.drop (i + size)) (second.drop (j + size))
    else 0
termination_by first.length
decreasing_by
  · rw [List.length_take]
    omega
  · rw [List.length_drop]
    omega

/-- The characters of a misspelt name that are too frequent to start a block. -/
def frequent (misspelt : List Char) : List Char :=
  if misspelt.length < 200 then []
  else misspelt.eraseDups.filter fun c ↦ misspelt.length / 100 + 1 < misspelt.count c

/-- A similarity as a fraction of two sizes. -/
structure Similarity where
  name : String
  matched : Nat
  total : Nat

namespace Similarity

def of (misspelt name : String) : Similarity :=
  let common := frequent misspelt.toList
  ⟨name, matchedCount (!common.contains ·) name.toList misspelt.toList,
    name.length + misspelt.length⟩

/-- At least three fifths of the characters are matched. -/
def isClose (similarity : Similarity) : Bool := 3 * similarity.total ≤ 5 * (2 * similarity.matched)

/-- The more similar first; names in descending order decide a tie. -/
def precedes (a b : Similarity) : Bool :=
  let left := a.matched * b.total
  let right := b.matched * a.total
  right < left || (left = right && b.name ≤ a.name)

end Similarity

/-- The three names that are most similar to a misspelt one, if they are close to it. -/
def closeNames (misspelt : String) (names : List String) : List String :=
  let close := (names.map (Similarity.of misspelt)).filter Similarity.isClose
  ((close.mergeSort Similarity.precedes).take 3).map (·.name)

end MiniA64.Text
