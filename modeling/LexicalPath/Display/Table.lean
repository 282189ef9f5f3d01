import LexicalPath.Display.Console
import LexicalPath.Display.Markup

namespace LexicalPath.Display

-- Sums start from the core library's zero, also where a later module brings other instances.
attribute [local instance (high)] Zero.ofOfNat0

def columnWidths (rows : List (List Styled)) : List Nat :=
  rows.foldl (fun widths row => widenBy widths (row.map fun cell => naturalWidth cell.chars)) []
where
  widenBy : List Nat → List Nat → List Nat
    | [], sizes => sizes
    | widths, [] => widths
    | w :: widths, n :: sizes => max w n :: widenBy widths sizes

def cellLines (width : Nat) (cell : Styled) : List (List Char) :=
  (layOut width cell).map fun segments =>
    (adjust (width + 2) ([' '] :: segments ++ [[' ']])).flatten

/-- The lines of a row, each with the lines of its cells side by side. -/
def rowLines (widths : List Nat) (row : List Styled) : List (List (List Char)) :=
  let columns := (widths.zip row).map fun (width, cell) => (width, cellLines width cell)
  let height := (columns.map fun column => column.2.length).foldl max 0
  (List.range height).map fun i =>
    columns.map fun (width, lines) => lines.getD i (List.replicate (width + 2) ' ')

/-- The texts of cells. Of several faults the one in the first column counts, and in a column the
first one. -/
def readCells (emoji : Emoji.Table) (rows : List (List (List Char))) :
    Except Markup.Fault (List (List Styled)) :=
  let cells : List (List (Except Markup.Fault Styled)) :=
    rows.map fun row => row.map (Markup.render emoji)
  let columns := (cells.map List.length).foldl max 0
  let inColumns := (List.range columns).flatMap fun j => cells.filterMap fun row => row[j]?
  match inColumns.findSome? fault? with
  | some e => .error e
  | none => .ok (cells.map fun row => row.filterMap Except.toOption)
where
  fault? : Except Markup.Fault Styled → Option Markup.Fault
    | .error e => some e
    | .ok _ => none

def plainTable (console : Console) (rows : List (List (List Char))) :
    Except Markup.Fault (List Char) :=
  (readCells console.emoji rows).map fun rows =>
    let widths := columnWidths rows
    if console.holds (widths.map (· + 2)).sum then
      rows.flatMap fun row => (rowLines widths row).flatMap fun cells => cells.flatten ++ ['\n']
    else console.foldTable rows

/-- The characters of a horizontal line: at its left end, along it, between columns and at its right
end. -/
structure Rule where
  left : Char
  along : Char
  between : Char
  right : Char

def Rule.line (r : Rule) (widths : List Nat) : List Char :=
  r.left :: Text.joined [r.between] (widths.map fun w => List.replicate (w + 2) r.along)
    ++ [r.right, '\n']

def ruledRow (bar : Char) (widths : List Nat) (row : List Styled) : List Char :=
  (rowLines widths row).flatMap fun cells => bar :: Text.joined [bar] cells ++ [bar, '\n']

def centred (width : Nat) (s : List Char) : List Char :=
  let left := (width - Text.width s) / 2
  List.replicate left ' ' ++ s ++ List.replicate (width - Text.width s - left) ' '

def ruledTable (console : Console) (title : List Char) (head : List (List Char))
    (rows : List (List (List Char))) : Except Markup.Fault (List Char) :=
  (readCells console.emoji rows).map fun rows =>
    let head := head.map Styled.plain
    let widths := columnWidths (head :: rows)
    let total := (widths.map (· + 3)).sum + 1
    if console.holds total then
      centred total title ++ '\n' ::
        ({ left := '┏', along := '━', between := '┳', right := '┓' : Rule }.line widths
          ++ ruledRow '┃' widths head
          ++ { left := '┡', along := '━', between := '╇', right := '┩' : Rule }.line widths
          ++ rows.flatMap (ruledRow '│' widths)
          ++ { left := '└', along := '─', between := '┴', right := '┘' : Rule }.line widths)
    else console.foldRuledTable title (head :: rows)

end LexicalPath.Display
