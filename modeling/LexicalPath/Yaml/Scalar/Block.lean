import LexicalPath.Yaml.Scalar.Quoted

namespace LexicalPath.Yaml

/-- What is kept of the line breaks at the end of a block: one, none or all. -/
inductive Chomping where
  | clip
  | strip
  | keep
  deriving DecidableEq

def Chomping.ofChar? (c : Char) : Option Chomping :=
  if c = '+' then some .keep else if c = '-' then some .strip else none

structure BlockHeader where
  chomping : Chomping := .clip
  /-- By how many columns the lines are indented, if that is said. -/
  indent : Option Nat := none

def blockIndent? (c : Char) : Option Nat :=
  if c.isDigit then some (c.toNat - '0'.toNat) else none

def readIndicators (s : List Char) : BlockHeader × List Char :=
  match s with
  | [] => ({}, s)
  | c :: rest =>
      match Chomping.ofChar? c, blockIndent? c with
      | some chomping, _ =>
          match rest with
          | d :: behind =>
              match blockIndent? d with
              | some n => ({ chomping, indent := some n }, behind)
              | none => ({ chomping }, rest)
          | [] => ({ chomping }, rest)
      | none, some n =>
          match rest with
          | d :: behind =>
              match Chomping.ofChar? d with
              | some chomping => ({ chomping, indent := some n }, behind)
              | none => ({ indent := some n }, rest)
          | [] => ({ indent := some n }, rest)
      | none, none => ({}, s)

/-- The text behind the end of a line that may hold a comment and nothing else. -/
def skipLine? (s : List Char) : Option (List Char) :=
  let s := s.dropWhile (· = ' ')
  let s := if s.head?.any (· = '#') then s.dropWhile (!isBreak ·) else s
  match s with
  | [] => some []
  | c :: rest => if isBreak c then some rest else none

def readBlockHeader (s : List Char) : Except TokenError (BlockHeader × List Char) :=
  let (header, rest) := readIndicators s
  if header.indent = some 0 ∨ rest.head?.any (fun c => c != ' ' && !isBreak c) then
    .error .badBlockHeader
  else
    match skipLine? rest with
    | none => .error .badBlockHeader
    | some rest => .ok (header, rest)

/-- The largest number of spaces in front of the first text of a block, from a column on. Empty
lines count. -/
def blockMargin (column most : Nat) : List Char → Nat
  | [] => most
  | c :: rest =>
      if c = ' ' then blockMargin (column + 1) (max most (column + 1)) rest
      else if isBreak c then blockMargin 0 most rest
      else most

inductive BlockPlace where
  /-- Within a line, which may begin with a blank. -/
  | within (indented : Bool)
  /-- Behind a line that was ended by a line break, if there was one, and behind empty lines, at a
  column of the next line. -/
  | between (ended : Option (Bool × Char)) (breaks : List Char) (column : Nat)
  deriving DecidableEq

/-- The text between two lines. -/
def blockSeparator (fold : Bool) (ended : Option (Bool × Char)) (breaks : List Char)
    (next : Char) : List Char :=
  match ended with
  | none => breaks
  | some (indented, lineBreak) =>
      if fold && lineBreak = '\n' && !indented && !isSpace next then
        if breaks.isEmpty then [' '] else breaks
      else lineBreak :: breaks

/-- The text at the end of a block. -/
def blockTail (chomping : Chomping) (ended : Option (Bool × Char)) (breaks : List Char) :
    List Char :=
  let last := ended.toList.map (·.2)
  match chomping with
  | .strip => []
  | .clip => last
  | .keep => last ++ breaks

/-- The lines of a block that are indented by `margin` columns, and what follows them. -/
def readLines (fold : Bool) (chomping : Chomping) (margin : Nat) (place : BlockPlace) :
    List Char → List Char × List Char
  | [] =>
      match place with
      | .within _ => ([], [])
      | .between ended breaks _ => (blockTail chomping ended breaks, [])
  | c :: rest =>
      match place with
      | .within indented =>
          if isBreak c then
            readLines fold chomping margin (.between (some (indented, c)) [] 0) rest
          else
            let (text, behind) := readLines fold chomping margin place rest
            (c :: text, behind)
      | .between ended breaks column =>
          if isBreak c then readLines fold chomping margin (.between ended (breaks ++ [c]) 0) rest
          else if column < margin then
            if c = ' ' then readLines fold chomping margin (.between ended breaks (column + 1)) rest
            else (blockTail chomping ended breaks, c :: rest)
          else
            let (text, behind) := readLines fold chomping margin (.within (isSpace c)) rest
            (blockSeparator fold ended breaks c ++ c :: text, behind)

/-- A block scalar behind its first character. Its lines are indented by at least `least`
columns. -/
def readBlock (fold : Bool) (least : Nat) (s : List Char) : ScalarRead :=
  match readBlockHeader s with
  | .error e => .error e
  | .ok (header, rest) =>
      let margin :=
        match header.indent with
        | some n => least + n - 1
        | none => max least (blockMargin 0 0 rest)
      .ok (readLines fold header.chomping margin (.between none [] 0) rest)

end LexicalPath.Yaml
