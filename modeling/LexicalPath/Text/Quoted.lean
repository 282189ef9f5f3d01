import LexicalPath.Text.Hex
import LexicalPath.Text.Printable

namespace LexicalPath.Text

/-- A text is put in single quotes, unless it holds a single quote and no double quote. -/
def quoteMark (s : List Char) : Char :=
  if s.contains '\'' && !s.contains '"' then '"' else '\''

/-- A character between quotes: the quote and the backslash are escaped, and so is what is not
printable, by the shortest of the three hexadecimal forms. -/
def quotedChar (mark c : Char) : List Char :=
  if c = mark ∨ c = '\\' then ['\\', c]
  else if c = '\n' then ['\\', 'n']
  else if c = '\r' then ['\\', 'r']
  else if c = '\t' then ['\\', 't']
  else if isPrintable c then [c]
  else if c.toNat < 0x100 then '\\' :: 'x' :: hex lowerDigit 2 c.toNat
  else if c.toNat < 0x10000 then '\\' :: 'u' :: hex lowerDigit 4 c.toNat
  else '\\' :: 'U' :: hex lowerDigit 8 c.toNat

def quotedChars (s : List Char) : List Char :=
  let mark := quoteMark s
  mark :: s.flatMap (quotedChar mark) ++ [mark]

def quoted (s : String) : String :=
  String.ofList (quotedChars s.toList)

def quotedOption : Option String → String
  | none => "None"
  | some s => quoted s

def quotedList (items : List String) : String :=
  "[" ++ ", ".intercalate (items.map quoted) ++ "]"

end LexicalPath.Text
