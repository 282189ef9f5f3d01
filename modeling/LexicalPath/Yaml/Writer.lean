import LexicalPath.Text.Hex
import LexicalPath.Yaml.Character
import LexicalPath.Yaml.Tag

/-!
Writing flat YAML documents: mappings whose values are nothing, a text or a list of texts. A text is
written plain where it would be read back as that text, in single quotes if it holds no character
that needs an escape, and in double quotes otherwise. Long lines are folded behind column 80.
-/

namespace LexicalPath.Yaml

/-- The column behind which lines are folded. -/
def bestWidth : Nat := 80

/-- The number of spaces in front of a line that continues a text. -/
def continuationIndent : Nat := 2

/-- A new line with the spaces of a continuation. -/
def foldBreak : List Char :=
  '\n' :: List.replicate continuationIndent ' '

inductive Style where
  | plain
  | single
  | double
  deriving DecidableEq

/-- Whether some character and the one behind it satisfy `p`. -/
def anyPair (p : Char → Char → Bool) : List Char → Bool
  | a :: b :: rest => p a b || anyPair p (b :: rest)
  | _ => false

/-- Whether a character ends a line when a text is written. A carriage return needs an escape. -/
def isWrittenBreak (c : Char) : Bool :=
  isBreak c && c != '\r'

def needsEscape (c : Char) : Bool :=
  let n := c.toNat
  !(c = '\n' || (0x20 ≤ n && n ≤ 0x7e)
    || ((n = 0x85 || (0xa0 ≤ n && n ≤ 0xd7ff) || (0xe000 ≤ n && n ≤ 0xfffd)
        || (0x10000 ≤ n && n < 0x10ffff)) && n != 0xfeff))

/-- Whether a space stands in front of a line break or behind one, or a character needs an escape.
Such texts are written in double quotes. -/
def needsDouble (s : List Char) : Bool :=
  s.any needsEscape
    || anyPair (fun a b => (a = ' ' && isWrittenBreak b) || (isWrittenBreak a && b = ' ')) s

/-- Whether the first characters of a text would be read as something else than text. -/
def startsLikeMarkup (s : List Char) : Bool :=
  startsLikeMark s ||
    match s with
    | [] => false
    | c :: rest =>
        "#,[]\x7b\x7d&*!|>'\"%@\x60".toList.contains c
          || ((c = '?' || c = ':' || c = '-') && blankNext rest)

/-- Whether a text would be read as more than text behind its first character: by a colon in front
of a blank, or a number sign behind one. -/
def holdsMarkup (s : List Char) : Bool :=
  anyPair (fun a b => isBlank a && b = '#') s
    || anyPair (fun a b => a = ':' && isBlank b) s
    || s.getLast? = some ':'

/-- Whether a character at the end of a text would be lost. -/
def isOuter (c : Char) : Bool :=
  c = ' ' || isWrittenBreak c

def Style.of (s : List Char) : Style :=
  if needsDouble s then .double
  else if Tag.ofPlain s ≠ .text || s.any isWrittenBreak || startsLikeMarkup s || holdsMarkup s
      || s.head?.any isOuter || s.getLast?.any isOuter then .single
  else .plain

/-- What was written last within a text: a word, spaces or line breaks. -/
inductive Place where
  | word
  | spaces
  | breaks
  deriving DecidableEq

/-- Whether a text goes on with a character that satisfies `p`. -/
def goesOn (p : Char → Bool) (s : List Char) : Bool :=
  s.head?.any p

/-- A plain text, from a column on. A single space behind column 80 becomes a line break. -/
def writePlain (column : Nat) (place : Place) : List Char → List Char
  | [] => []
  | c :: rest =>
      if c = ' ' then
        if place = .word && bestWidth < column && !goesOn (· = ' ') rest then
          foldBreak ++ writePlain continuationIndent .word rest
        else ' ' :: writePlain (column + 1) .spaces rest
      else c :: writePlain (column + 1) .word rest

/-- A text between single quotes, from a column on. A quote is written twice. A run of line breaks
is written with one more line break in front if it begins with a line feed. A single space behind
column 80 becomes a line break, unless it is the first or the last character. -/
def writeSingle (column : Nat) (place : Place) : List Char → List Char
  | [] => []
  | c :: rest =>
      if c = ' ' then
        if place = .word && bestWidth < column && !rest.isEmpty && !goesOn (· = ' ') rest then
          foldBreak ++ writeSingle continuationIndent .word rest
        else ' ' :: writeSingle (column + 1) .spaces rest
      else if isWrittenBreak c then
        (if place ≠ .breaks ∧ c = '\n' then ['\n'] else [])
          ++ c :: (if goesOn isWrittenBreak rest then writeSingle 0 .breaks rest
            else List.replicate continuationIndent ' '
              ++ writeSingle continuationIndent .word rest)
      else if c = '\'' then '\'' :: '\'' :: writeSingle (column + 2) .word rest
      else c :: writeSingle (column + 1) .word rest

def escapeLetter? (c : Char) : Option Char :=
  [('\x00', '0'), ('\x07', 'a'), ('\x08', 'b'), ('\t', 't'), ('\n', 'n'), ('\x0b', 'v'),
    ('\x0c', 'f'), ('\r', 'r'), ('\x1b', 'e'), ('"', '"'), ('\\', '\\'), ('\x85', 'N'),
    ('\xa0', '_'), ('\u2028', 'L'), ('\u2029', 'P')].find? (·.1 = c) |>.map (·.2)

/-- Whether a character stands for itself between double quotes. -/
def isBare (c : Char) : Bool :=
  let n := c.toNat
  c != '"' && c != '\\' && c != '\u2028' && c != '\u2029' && c != '\ufeff'
    && ((0x20 ≤ n && n ≤ 0x7e) || (0xa0 ≤ n && n ≤ 0xd7ff) || (0xe000 ≤ n && n ≤ 0xfffd))

/-- A character that does not stand for itself between double quotes. -/
def escaped (c : Char) : List Char :=
  match escapeLetter? c with
  | some letter => ['\\', letter]
  | none =>
      let n := c.toNat
      if n ≤ 0xff then '\\' :: 'x' :: Text.hex Text.upperDigit 2 n
      else if n ≤ 0xffff then '\\' :: 'u' :: Text.hex Text.upperDigit 4 n
      else '\\' :: 'U' :: Text.hex Text.upperDigit 8 n

/-- A line break within double quotes, which stands for nothing, in front of a text. A space behind
it has to be escaped. -/
def doubleBreak (rest : List Char) : List Char :=
  '\\' :: foldBreak ++ if goesOn (· = ' ') rest then ['\\'] else []

def columnAfterBreak (rest : List Char) : Nat :=
  continuationIndent + if goesOn (· = ' ') rest then 1 else 0

/-- A text between double quotes, from a column on. Lines are broken in front of a space and next to
an escape, but neither in front of the first character nor in front of the last. `fresh` tells
whether the character before was escaped or a line was just broken. -/
def writeDouble (column : Nat) (first fresh : Bool) : List Char → List Char
  | [] => []
  | c :: rest =>
      let breakable := !first && !rest.isEmpty
      if isBare c then
        if breakable && (c = ' ' || fresh) && bestWidth < column then
          doubleBreak (c :: rest)
            ++ c :: writeDouble (columnAfterBreak (c :: rest) + 1) false false rest
        else c :: writeDouble (column + 1) false false rest
      else
        let e := escaped c
        if breakable && bestWidth + 1 < column + e.length then
          e ++ doubleBreak rest ++ writeDouble (columnAfterBreak rest) false true rest
        else e ++ writeDouble (column + e.length) false true rest

def writeText (column : Nat) (s : List Char) : List Char :=
  match Style.of s with
  | .plain => ' ' :: writePlain (column + 1) .word s
  | .single => ' ' :: '\'' :: writeSingle (column + 2) .spaces s ++ ['\'']
  | .double => ' ' :: '"' :: writeDouble (column + 2) true true s ++ ['"']

/-- A value of a flat document. -/
inductive Field where
  | null
  | text (s : String)
  | texts (items : List String)
  deriving DecidableEq

/-- An entry of a flat document. The key is a word. -/
def writeEntry (key : String) (field : Field) : List Char :=
  key.toList ++ ':' ::
    match field with
    | .null => " null\n".toList
    | .text s => writeText (key.length + 1) s.toList ++ ['\n']
    | .texts [] => " []\n".toList
    | .texts items => '\n' :: items.flatMap fun s => '-' :: writeText 1 s.toList ++ ['\n']

def writeFields (fields : List (String × Field)) : String :=
  String.ofList (fields.flatMap fun (key, field) => writeEntry key field)

end LexicalPath.Yaml
