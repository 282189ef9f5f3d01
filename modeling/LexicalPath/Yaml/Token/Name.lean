import LexicalPath.Decimal.Digits
import LexicalPath.Text.Hex
import LexicalPath.Yaml.Scalar.Block

namespace LexicalPath.Yaml

/-- Whether the text is at its end or goes on with a character that satisfies `p`. -/
def endsOr (p : Char → Bool) (s : List Char) : Bool :=
  match s with
  | [] => true
  | c :: _ => p c

def isSpaceOrBreak (c : Char) : Bool :=
  c = ' ' || isBreak c

def readAnchor (s : List Char) : Except TokenError (String × List Char) :=
  let name := s.takeWhile isNameChar
  let rest := s.dropWhile isNameChar
  if name.isEmpty || !endsOr (fun c => isBlank c || "?:,]\x7d%@\x60".toList.contains c) rest then
    .error .badName
  else .ok (String.ofList name, rest)

def isTagChar (c : Char) : Bool :=
  c.isAlphanum || "-;/?:@&=+$,_.!~*'()[]%".toList.contains c

def textOfBytes? (bytes : List UInt8) : Option (List Char) :=
  (String.fromUTF8? ⟨bytes.toArray⟩).map String.toList

/-- A text in which percent signs and two digits stand for bytes. The bytes that were just read and
not yet made a text are given. -/
def unescapedTag? (bytes : List UInt8) : List Char → Option (List Char)
  | '%' :: a :: b :: rest =>
      (Text.hexNumber? 0 [a, b]).bind fun n => unescapedTag? (bytes ++ [n.toUInt8]) rest
  | [] => textOfBytes? bytes
  | c :: rest =>
      if c = '%' then none
      else do
        let front ← textOfBytes? bytes
        let behind ← unescapedTag? [] rest
        return front ++ c :: behind

def readTagText (s : List Char) : Except TokenError (String × List Char) :=
  let word := s.takeWhile isTagChar
  match if word.isEmpty then none else unescapedTag? [] word with
  | none => .error .badTag
  | some text => .ok (String.ofList text, s.dropWhile isTagChar)

/-- The handle behind an exclamation mark: nothing in front of a space, or a word and another
exclamation mark. -/
def readHandle (s : List Char) : Except TokenError (String × List Char) :=
  if s.head? = some ' ' then .ok ("!", s)
  else
    match s.dropWhile isNameChar with
    | '!' :: rest => .ok (String.ofList ('!' :: s.takeWhile isNameChar ++ ['!']), rest)
    | _ => .error .badTag

/-- The handle and the suffix of a tag behind its exclamation mark, and what follows it. -/
def readTagParts (s : List Char) : Except TokenError (Option String × String × List Char) :=
  match s with
  | '<' :: behind => do
      match ← readTagText behind with
      | (suffix, '>' :: rest) => .ok (none, suffix, rest)
      | _ => .error .badTag
  | _ =>
      if blankNext s then .ok (none, "!", s)
      else do
        let (handle, rest) ←
          if (s.takeWhile (!isSpaceOrBreak ·)).contains '!' then readHandle s else .ok ("!", s)
        let (suffix, rest) ← readTagText rest
        return (some handle, suffix, rest)

def readTag (s : List Char) : Except TokenError (Token × List Char) := do
  let (handle, suffix, rest) ← readTagParts s
  if endsOr isSpaceOrBreak rest then return (.tag handle suffix, rest) else .error .badTag

def readNumber (s : List Char) : Except TokenError (Nat × List Char) :=
  let (digits, rest) := Decimal.digits s
  if digits.isEmpty then .error .badDirective else .ok (Decimal.digitsValue digits, rest)

def readVersion (s : List Char) : Except TokenError (Directive × List Char) := do
  let (major, rest) ← readNumber s
  match rest with
  | '.' :: rest =>
      let (minor, rest) ← readNumber rest
      if endsOr isSpaceOrBreak rest then return (.version major minor, rest)
      else .error .badDirective
  | _ => .error .badDirective

/-- The handle in a directive, and the start of the tags that it stands for. -/
def readHandleMeaning (s : List Char) : Except TokenError (Directive × List Char) :=
  match s with
  | '!' :: rest => do
      let (handle, rest) ← readHandle rest
      if rest.head? ≠ some ' ' then .error .badDirective
      else
        let (start, rest) ← readTagText (rest.dropWhile (· = ' '))
        if endsOr isSpaceOrBreak rest then return (.handle handle start, rest)
        else .error .badDirective
  | _ => .error .badDirective

/-- A directive behind its percent sign, and the text behind its line. -/
def readDirective (s : List Char) : Except TokenError (Directive × List Char) := do
  let word := s.takeWhile isNameChar
  let rest := s.dropWhile isNameChar
  if word.isEmpty || !endsOr isSpaceOrBreak rest then .error .badDirective
  else
    let behind := rest.dropWhile (· = ' ')
    let (directive, rest) ←
      if word = "YAML".toList then readVersion behind
      else if word = "TAG".toList then readHandleMeaning behind
      else .ok (.other, rest.dropWhile (!isBreak ·))
    match skipLine? rest with
    | some rest => return (directive, rest)
    | none => .error .badDirective

end LexicalPath.Yaml
