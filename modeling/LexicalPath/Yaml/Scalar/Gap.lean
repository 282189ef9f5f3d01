import LexicalPath.Yaml.Character

namespace LexicalPath.Yaml

/-- What stands behind the last word of a text. -/
inductive Gap where
  | none
  | spaces (held : List Char)
  /-- Line breaks, of which the first may be escaped, and the column that is reached behind them. -/
  | lines (first : Option Char) (more : List Char) (column : Nat)
  deriving DecidableEq

namespace Gap

/-- The text that a gap stands for once another word follows. -/
def text : Gap → List Char
  | none => []
  | spaces held => held
  | lines Option.none more _ => more
  | lines (some first) more _ =>
      if first ≠ '\n' then first :: more
      else if more.isEmpty then [' ']
      else more

/-- A gap with one more space. Spaces behind a line break only count as columns. -/
def addSpace (c : Char) : Gap → Gap
  | none => spaces [c]
  | spaces held => spaces (held ++ [c])
  | lines first more column => lines first more (column + 1)

/-- A gap with one more line break. Spaces in front of a line break are lost. -/
def addBreak (c : Char) : Gap → Gap
  | none | spaces _ => lines (some c) [] 0
  | lines first more _ => lines first (more ++ [c]) 0

def hasBreak : Gap → Bool
  | lines _ _ _ => true
  | _ => false

def atLineStart : Gap → Bool
  | lines _ _ column => column = 0
  | _ => false

/-- Whether a gap ends on a new line in front of a column. -/
def endsBefore (margin : Nat) : Gap → Bool
  | lines _ _ column => column < margin
  | _ => false

end Gap

end LexicalPath.Yaml
