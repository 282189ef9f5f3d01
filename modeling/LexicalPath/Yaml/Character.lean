namespace LexicalPath.Yaml

def isBreak (c : Char) : Bool :=
  c = '\n' || c = '\r' || c = '\x85' || c = '\u2028' || c = '\u2029'

def isSpace (c : Char) : Bool :=
  c = ' ' || c = '\t'

/-- Whether a character stands between words: a space, a tab, a line break or NUL. -/
def isBlank (c : Char) : Bool :=
  isSpace c || isBreak c || c = '\x00'

def blankNext (s : List Char) : Bool :=
  match s with
  | [] => true
  | c :: _ => isBlank c

def isAllowed (c : Char) : Bool :=
  let n := c.toNat
  n = 0x9 || n = 0xa || n = 0xd || (0x20 ≤ n && n ≤ 0x7e) || n = 0x85
    || (0xa0 ≤ n && n ≤ 0xd7ff) || (0xe000 ≤ n && n ≤ 0xfffd) || 0x10000 ≤ n

/-- Whether a text begins like a document mark: three hyphens or three points. -/
def startsLikeMark (s : List Char) : Bool :=
  "---".toList.isPrefixOf s || "...".toList.isPrefixOf s

/-- Whether a text begins with a document mark, which has a blank or nothing behind it. -/
def startsWithMark (s : List Char) : Bool :=
  startsLikeMark s && blankNext (s.drop 3)

/-- A text in which line feeds take the place of the other ways to end a line. Line separators and
paragraph separators are kept. -/
def unifyBreaks : List Char → List Char
  | [] => []
  | '\r' :: '\n' :: rest => '\n' :: unifyBreaks rest
  | c :: rest => (if c = '\r' ∨ c = '\x85' then '\n' else c) :: unifyBreaks rest

/-- Whether a character is a letter or a digit of ASCII, a hyphen or an underscore. -/
def isNameChar (c : Char) : Bool :=
  c.isAlphanum || c = '-' || c = '_'

end LexicalPath.Yaml
