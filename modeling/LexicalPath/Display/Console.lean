import LexicalPath.Display.Emoji
import LexicalPath.Display.Line

namespace LexicalPath.Display

/-- The emoji that are known, and the number of columns, if there is a limit. -/
structure Console where
  emoji : Emoji.Table := fun _ => none
  columns : Option Nat := none
  /-- A text of which a line has more columns. -/
  foldText : Styled → List Char := fun _ => []
  /-- A table, given by its rows, that has more columns. -/
  foldTable : List (List Styled) → List Char := fun _ => []
  /-- A table with a title, a head as its first row, and lines, that has more columns. -/
  foldRuledTable : List Char → List (List Styled) → List Char := fun _ _ => []

namespace Console

def holds (console : Console) (columns : Nat) : Bool :=
  console.columns.all (columns ≤ ·)

def paragraph (console : Console) (t : Styled) : List Char :=
  let lines := t.lines.map fun line => (expandTabs line).chars
  if lines.all fun line => console.holds (Text.width line) then
    lines.flatMap fun line => line ++ ['\n']
  else console.foldText t

end Console

end LexicalPath.Display
