namespace LexicalPath.Text

def consHead (c : Char) : List (List Char) → List (List Char)
  | [] => [[c]]
  | piece :: rest => (c :: piece) :: rest

/-- The pieces of a text between its separator characters. There is always one more piece than there
are separators, so that the empty text has one empty piece. -/
def pieces (isSeparator : Char → Bool) : List Char → List (List Char)
  | [] => [[]]
  | c :: rest =>
      if isSeparator c then [] :: pieces isSeparator rest
      else consHead c (pieces isSeparator rest)

/-- The pieces that are not empty. -/
def runs (isSeparator : Char → Bool) (s : List Char) : List (List Char) :=
  (pieces isSeparator s).filter (! ·.isEmpty)

/-- The pieces of a text between the occurrences of a separator text. Of overlapping occurrences the
leftmost counts; `skip` characters of one that is already counted are still to be passed. -/
def piecesAfter (separator : List Char) : Nat → List Char → List (List Char)
  | _, [] => [[]]
  | skip + 1, _ :: rest => piecesAfter separator skip rest
  | 0, c :: rest =>
      if separator.isPrefixOf (c :: rest) then
        [] :: piecesAfter separator (separator.length - 1) rest
      else consHead c (piecesAfter separator 0 rest)

/-- The pieces of a text between the occurrences of a separator text that is not empty. -/
def piecesBetween (separator s : List Char) : List (List Char) :=
  piecesAfter separator 0 s

/-- The text before the first occurrence of a mark and the text after it. -/
def cutAt? (mark : List Char) : List Char → Option (List Char × List Char)
  | [] => if mark.isEmpty then some ([], []) else none
  | c :: rest =>
      if mark.isPrefixOf (c :: rest) then some ([], (c :: rest).drop mark.length)
      else (cutAt? mark rest).map fun cut => (c :: cut.1, cut.2)

def trimEnd (p : Char → Bool) (s : List Char) : List Char :=
  (s.reverse.dropWhile p).reverse

/-- The text without the characters at either end that satisfy `p`. -/
def trim (p : Char → Bool) (s : List Char) : List Char :=
  trimEnd p (s.dropWhile p)

def joined (separator : List Char) : List (List Char) → List Char
  | [] => []
  | [s] => s
  | s :: t :: rest => s ++ separator ++ joined separator (t :: rest)

def joinedStrings (separator : String) (parts : List String) : String :=
  String.ofList (joined separator.toList (parts.map String.toList))

theorem pieces_ne_nil (isSeparator : Char → Bool) (s : List Char) :
    pieces isSeparator s ≠ [] := by
  cases s with
  | nil => simp [pieces]
  | cons c rest =>
      unfold pieces
      split
      · simp
      · cases pieces isSeparator rest <;> simp [consHead]

theorem joined_consHead (separator : List Char) (c : Char) {parts : List (List Char)}
    (hparts : parts ≠ []) :
    joined separator (consHead c parts) = c :: joined separator parts := by
  match parts with
  | [] => exact absurd rfl hparts
  | [_] => rfl
  | _ :: _ :: _ => simp [consHead, joined]

theorem joined_nil_cons (separator : List Char) {parts : List (List Char)} (hparts : parts ≠ []) :
    joined separator ([] :: parts) = separator ++ joined separator parts := by
  match parts with
  | [] => exact absurd rfl hparts
  | _ :: _ => simp [joined]

theorem joined_pieces (separator : Char) (s : List Char) :
    joined [separator] (pieces (· == separator) s) = s := by
  induction s with
  | nil => rfl
  | cons c rest ih =>
      have hne := pieces_ne_nil (· == separator) rest
      unfold pieces
      split
      · rename_i hc
        rw [joined_nil_cons _ hne, ih]
        simp only [beq_iff_eq] at hc
        simp [hc]
      · rw [joined_consHead _ _ hne, ih]

end LexicalPath.Text
