namespace LexicalPath.Text

def commonStart : List Char → List Char → Nat
  | a :: s, b :: t => if a = b then commonStart s t + 1 else 0
  | _, _ => 0

/-- The first longest common stretch of two texts: where it is in the one, in the other, and its
length. -/
def longestCommon (s t : List Char) : Nat × Nat × Nat :=
  let stretches := (List.range s.length).flatMap fun i =>
    (List.range t.length).map fun j => (i, j, commonStart (s.drop i) (t.drop j))
  stretches.foldl (fun best stretch => if best.2.2 < stretch.2.2 then stretch else best) (0, 0, 0)

/-- The number of characters that two texts have in common, stretch by stretch. The length of the
first text is fuel enough. -/
def matching : Nat → List Char → List Char → Nat
  | 0, _, _ => 0
  | fuel + 1, s, t =>
      let (i, j, size) := longestCommon s t
      if size = 0 then 0
      else
        matching fuel (s.take i) (t.take j) + size
          + matching fuel (s.drop (i + size)) (t.drop (j + size))

/-- A word with the characters that it has in common with another, and how many both have. -/
structure Likeness where
  word : String
  common : Nat
  total : Nat

/-- Whether a word is at least as like as another. Of two that are equally like, the later one in
the order of characters comes first. -/
def Likeness.atLeast (a b : Likeness) : Bool :=
  let left := a.common * b.total
  let right := b.common * a.total
  right < left || (left = right && b.word ≤ a.word)

/-- Whether so many characters in common out of so many together make two words similar: at least
six tenths. -/
def isSimilar (common total : Nat) : Bool :=
  6 * total ≤ 10 * common

/-- How like a word is to another, if the two are similar. They have no more in common than the
shorter one has, twice over. -/
def likeness? (s t : List Char) : Option (Nat × Nat) :=
  let total := s.length + t.length
  if isSimilar (2 * min s.length t.length) total then
    let common := 2 * matching s.length s t
    if isSimilar common total then some (common, total) else none
  else none

/-- The words that are similar to a word, the three most like at most, in order of their
characters. -/
def similar (word : String) (words : List String) : List String :=
  let scored := words.filterMap fun w =>
    (likeness? w.toList word.toList).map fun (common, total) => Likeness.mk w common total
  let best := (scored.mergeSort Likeness.atLeast).take 3
  (best.map (·.word)).mergeSort fun a b => decide (a ≤ b)

end LexicalPath.Text
