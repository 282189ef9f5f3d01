import LexicalPath.Display.Styled
import LexicalPath.Text.Blank

namespace LexicalPath.Display

-- Sums start from the core library's zero, also where a later module brings other instances.
attribute [local instance (high)] Zero.ofOfNat0

def tabStop : Nat := 8

/-- The spaces from a column to the next tab stop, if it is at none. -/
def spacesToStop (column : Nat) : Nat :=
  (tabStop - column % tabStop) % tabStop

/-- A text with spaces behind it, which belong to the spans that end with it. -/
def extended (t : Styled) (spaces : Nat) : Styled :=
  { chars := t.chars ++ List.replicate spaces ' '
    spans := t.spans.map fun span =>
      if t.chars.length ≤ span.last then ⟨span.first, span.last + spaces⟩ else span }

/-- Parts that end with a tab each, except perhaps the last, with spaces for the tabs. -/
def expandParts (column : Nat) : List Styled → List Styled
  | [] => []
  | t :: rest =>
      if t.chars.getLast? = some '\t' then
        let spaced : Styled := { t with chars := t.chars.dropLast ++ [' '] }
        let column := column + Text.width spaced.chars
        let spaces := spacesToStop column
        extended spaced spaces :: expandParts (column + spaces) rest
      else t :: expandParts (column + Text.width t.chars) rest

def expandTabs (t : Styled) : Styled :=
  if t.chars.contains '\t' then
    let parts := t.divide ((Styled.positionsFrom (· = '\t') 0 t.chars).map (· + 1))
    Styled.join (expandParts 0 (parts.filter (!·.chars.isEmpty)))
  else t

/-- The words of a line, each with the blanks behind it; the first also has those in front of it. A
line of blanks has none. `behind` tells whether the word that `word` is the start of has blanks
behind it. -/
def wordsFrom (word : List Char) (begun behind : Bool) : List Char → List (List Char)
  | [] => if begun then [word] else []
  | c :: rest =>
      if Text.isBlank c then wordsFrom (word ++ [c]) begun begun rest
      else if behind then word :: wordsFrom [c] true false rest
      else wordsFrom (word ++ [c]) true false rest

/-- The positions at which lines of words begin, but for the first line. The next word is at
`position`, and `used` columns of its line are taken. -/
def breaksFrom (width used position : Nat) : List (List Char) → List Nat
  | [] => []
  | word :: rest =>
      let size := Text.width word
      let next := position + word.length
      if position = 0 then breaksFrom width size next rest
      else if used + Text.width (Text.trimEnd Text.isBlank word) ≤ width then
        breaksFrom width (used + size) next rest
      else position :: breaksFrom width size next rest

/-- A line cut into lines of at most `width` columns, but for words that fit on none. -/
def wrapLine (width : Nat) (t : Styled) : List Styled :=
  t.divide (breaksFrom width 0 0 (wordsFrom [] false false t.chars))

/-- A line without the blanks at its end, as far as there are more than `width` characters. -/
def trimExcess (width : Nat) (t : Styled) : Styled :=
  let blanks := (t.chars.reverse.takeWhile Text.isBlank).length
  let excess := min blanks (t.chars.length - width)
  if excess = 0 then t else t.take (t.chars.length - excess)

/-- As many characters as fit into `room` columns. A space stands for a wide character that is
cut. -/
def takeColumns : Nat → List Text.Cluster → List Char
  | _, [] => []
  | room, cluster :: rest =>
      if room = 0 then []
      else if cluster.columns ≤ room then
        cluster.chars ++ takeColumns (room - cluster.columns) rest
      else [' ']

def resize (width : Nat) (s : List Char) : List Char :=
  let size := Text.width s
  if size ≤ width then s ++ List.replicate (width - size) ' '
  else takeColumns width (Text.clusters s)

/-- A line of as many columns as there are, or cut with an ellipsis at its end. -/
def fit (width : Nat) (t : Styled) : Styled :=
  let size := Text.width t.chars
  if width < size then
    let cut := resize (width - 1) t.chars ++ ['…']
    { chars := cut, spans := Styled.clipSpans cut.length t.spans }
  else { t with chars := t.chars ++ List.replicate (width - size) ' ' }

/-- As many segments as fit into `room` columns. -/
def cropSegments : Nat → List (List Char) → List (List Char)
  | _, [] => []
  | room, segment :: rest =>
      let size := Text.width segment
      if size < room then segment :: cropSegments (room - size) rest else [resize room segment]

/-- Segments that are cut or filled up to a width, each measured by itself. -/
def adjust (width : Nat) (segments : List (List Char)) : List (List Char) :=
  let size := (segments.map Text.width).sum
  if size < width then segments ++ [List.replicate (width - size) ' ']
  else if width < size then cropSegments width segments
  else segments

/-- A text in lines of `width` columns, each in segments. -/
def layOut (width : Nat) (t : Styled) : List (List (List Char)) :=
  t.lines.flatMap fun line =>
    (wrapLine width (expandTabs line)).map fun part =>
      adjust width (fit width (trimExcess width part)).segments

/-- Whether a character ends a line, for the purpose of finding out how wide a text is. -/
def endsLine (c : Char) : Bool :=
  c = '\n' || c = '\x1c' || c = '\x1d' || c = '\x1e' || c = '\x85' || c = '\u2028' || c = '\u2029'

/-- The columns of the longest line of a text. -/
def naturalWidth (s : List Char) : Nat :=
  ((Text.pieces endsLine s).map Text.width).foldl max 0

end LexicalPath.Display
