import LexicalPath.Text.Hex
import LexicalPath.Yaml.Scalar.Gap
import LexicalPath.Yaml.Token

namespace LexicalPath.Yaml

/-- The text of a scalar and what follows it. -/
abbrev ScalarRead :=
  Except TokenError (List Char × List Char)

/-- A scalar with more text in front of it. -/
def ScalarRead.behind (front : List Char) : ScalarRead → ScalarRead
  | .error e => .error e
  | .ok (text, rest) => .ok (front ++ text, rest)

def readSingle (gap : Gap) : List Char → ScalarRead
  | [] => .error .unfinishedText
  | '\'' :: '\'' :: rest => ScalarRead.behind (gap.text ++ ['\'']) (readSingle .none rest)
  | c :: rest =>
      if c = '\'' then .ok (gap.text, rest)
      else if gap.atLineStart && startsWithMark (c :: rest) then .error .markWithinText
      else if isSpace c then readSingle (gap.addSpace c) rest
      else if isBreak c then readSingle (gap.addBreak c) rest
      else ScalarRead.behind (gap.text ++ [c]) (readSingle .none rest)

def escapeChar? (c : Char) : Option Char :=
  [('0', '\x00'), ('a', '\x07'), ('b', '\x08'), ('t', '\t'), ('\t', '\t'), ('n', '\n'),
    ('v', '\x0b'), ('f', '\x0c'), ('r', '\r'), ('e', '\x1b'), (' ', ' '), ('"', '"'),
    ('\\', '\\'), ('/', '/'), ('N', '\x85'), ('_', '\xa0'), ('L', '\u2028'),
    ('P', '\u2029')].find? (·.1 = c) |>.map (·.2)

/-- The number of hexadecimal digits behind a letter that stands for a code. -/
def codeWidth? (c : Char) : Option Nat :=
  if c = 'x' then some 2 else if c = 'u' then some 4 else if c = 'U' then some 8 else none

/-- The character with a code. A code between the two planes of single characters stands for the
replacement character. -/
def charOfCode (code : Nat) : Except TokenError Char :=
  if 0x110000 ≤ code then .error (.badCode code)
  else .ok (if code.isValidChar then Char.ofNat code else '\ufffd')

/-- The character behind a backslash stands for, given the text behind the backslash, and the number
of characters that belong to it. -/
def readEscape (s : List Char) : Except TokenError (Char × Nat) :=
  match s with
  | [] => .error .badEscape
  | c :: rest =>
      match escapeChar? c, codeWidth? c with
      | some escaped, _ => .ok (escaped, 1)
      | none, none => .error .badEscape
      | none, some width =>
          if (rest.take width).length < width then .error .badEscape
          else
            match Text.hexNumber? 0 (rest.take width) with
            | none => .error .badEscape
            | some code => (charOfCode code).map fun escaped => (escaped, width + 1)

/-- A text up to the double quote that ends it. The first `skip` characters belong to an escape. -/
def readDouble (gap : Gap) : Nat → List Char → ScalarRead
  | _, [] => .error .unfinishedText
  | skip + 1, _ :: rest => readDouble gap skip rest
  | 0, c :: rest =>
      if c = '"' then .ok (gap.text, rest)
      else if gap.atLineStart && startsWithMark (c :: rest) then .error .markWithinText
      else if isSpace c then readDouble (gap.addSpace c) 0 rest
      else if isBreak c then readDouble (gap.addBreak c) 0 rest
      else if c = '\\' then
        if rest.head?.any isBreak then
          ScalarRead.behind gap.text (readDouble (.lines none [] 0) 1 rest)
        else
          match readEscape rest with
          | .error e => .error e
          | .ok (escaped, width) =>
              ScalarRead.behind (gap.text ++ [escaped]) (readDouble .none width rest)
      else ScalarRead.behind (gap.text ++ [c]) (readDouble .none 0 rest)

end LexicalPath.Yaml
