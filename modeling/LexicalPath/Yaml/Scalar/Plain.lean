import LexicalPath.Yaml.Scalar.Gap

namespace LexicalPath.Yaml

/-- Whether a character separates the items of a collection in brackets. -/
def isFlowMark (c : Char) : Bool :=
  c = ',' || c = '[' || c = ']' || c = '\x7b' || c = '\x7d'

/-- Whether a plain scalar may begin with `c` and go on with `rest`. -/
def startsPlain (flow : Bool) (c : Char) (rest : List Char) : Bool :=
  !(isBlank c || "-?:,[]\x7b\x7d#&*!|>'\"%@\x60".toList.contains c)
    || (!blankNext rest && (c = '-' || (!flow && (c = '?' || c = ':'))))

/-- Whether a word of a plain scalar ends in front of `c` and `rest`. -/
def endsWord (flow : Bool) (c : Char) (rest : List Char) : Bool :=
  isBlank c
    || (c = ':' && (blankNext rest || (flow && rest.head?.any isFlowMark)))
    || (flow && (isFlowMark c || c = '?'))

/-- A plain scalar, behind a gap: its text, what follows it and the gap behind it. On a new line it
goes on only from the column `margin` on, except within brackets. -/
def readPlain (flow : Bool) (margin : Nat) (gap : Gap) :
    List Char → List Char × List Char × Bool
  | [] => ([], [], gap.hasBreak)
  | c :: rest =>
      if gap.atLineStart && startsWithMark (c :: rest) then ([], c :: rest, true)
      else if c = ' ' then readPlain flow margin (gap.addSpace c) rest
      else if isBreak c then readPlain flow margin (gap.addBreak c) rest
      else if (gap ≠ .none ∧ c = '#') || (!flow && gap.endsBefore margin)
          || endsWord flow c rest then
        ([], c :: rest, gap.hasBreak)
      else
        let (text, behind, broken) := readPlain flow margin .none rest
        (gap.text ++ c :: text, behind, broken)

end LexicalPath.Yaml
