import LexicalPath.Decimal.Digits
import LexicalPath.Text.Hex
import LexicalPath.Text.Printable

/-!
Literals: numbers, strings, words for constants, and collections of literals. Only whether a text is
a literal matters here, not what it stands for.
-/

namespace LexicalPath.Display

/-- What a literal is, as far as it matters for what may be built from it. -/
inductive LiteralKind where
  /-- A real number, with a sign or without. -/
  | real (signed : Bool)
  | imaginary (signed : Bool)
  | text
  | bytes
  /-- Any other literal that can be an element of a set. -/
  | element
  /-- A list, a set or a mapping. -/
  | collection
  deriving DecidableEq

namespace Literal

/-- What is read, with the text behind it; nothing if the text is no literal. -/
abbrev Step :=
  Option (LiteralKind × List Char)

/-- Whether a literal can be an element of a set. -/
def isElement (kind : LiteralKind) : Bool :=
  kind ≠ .collection

/-- The text behind blanks and comments. Line breaks count as blanks within brackets, and behind a
backslash unless the text ends there. -/
def skipBlank (inside comment : Bool) : List Char → List Char
  | [] => []
  | '\\' :: '\n' :: rest =>
      if comment then if inside then skipBlank inside false rest else '\n' :: rest
      else if rest.isEmpty then ['\\', '\n']
      else skipBlank inside false rest
  | c :: rest =>
      if comment then
        if c = '\n' then
          if inside then skipBlank inside false rest else c :: rest
        else skipBlank inside true rest
      else if c = ' ' ∨ c = '\t' ∨ c = '\x0c' ∨ (inside ∧ c = '\n') then
        skipBlank inside false rest
      else if c = '#' then skipBlank inside true rest
      else c :: rest

def isNameChar (c : Char) : Bool :=
  c.isAlphanum || c = '_' || (127 < c.toNat && Text.isPrintable c)

/-- The digits and underscores at the start of a text and what follows. -/
def digitRun (isDigit : Char → Bool) (s : List Char) : List Char × List Char :=
  s.span fun c => isDigit c || c = '_'

/-- Whether underscores stand between digits only, one at a time. -/
def isProperRun : List Char → Bool
  | [] => true
  | ['_'] => false
  | '_' :: '_' :: _ => false
  | _ :: rest => isProperRun rest

/-- Whether a run is digits with single underscores between them. -/
def isNumberRun (run : List Char) : Bool :=
  !run.isEmpty && run.head? != some '_' && isProperRun run

def isDigitOf (base : Nat) (c : Char) : Bool :=
  (Text.hexValue? c).any (· < base)

/-- A whole number with a letter for its base, behind the letter. -/
def basedNumber (base : Nat) (s : List Char) : Step :=
  let s := match s with
    | '_' :: rest => rest
    | _ => s
  let (run, behind) := digitRun (isDigitOf base) s
  if isNumberRun run && !behind.head?.any isNameChar then some (.real false, behind) else none

/-- The exponent at the start of a text, if there is one, and what follows. -/
def exponent (s : List Char) : Bool × List Char :=
  match s with
  | e :: rest =>
      let unsigned :=
        match rest with
        | '+' :: behind | '-' :: behind => behind
        | _ => rest
      let (run, behind) := digitRun Char.isDigit unsigned
      if (e = 'e' ∨ e = 'E') ∧ isNumberRun run then (true, behind) else (false, s)
  | [] => (false, s)

/-- A decimal number: whole, with a fraction or an exponent, and imaginary with the letter j. A
whole number has no zeros in front. -/
def decimalNumber (s : List Char) : Step :=
  let (whole, behind) := digitRun Char.isDigit s
  let (hasPoint, frac, behind) :=
    match behind with
    | '.' :: rest =>
        let (frac, behind) := digitRun Char.isDigit rest
        (true, frac, behind)
    | _ => (false, [], behind)
  let (hasExponent, behind) := exponent behind
  if !(isNumberRun whole && isProperRun frac) && !(whole.isEmpty && isNumberRun frac) then none
  else if frac.head? = some '_' then none
  else
    match behind with
    | 'j' :: rest | 'J' :: rest =>
        if rest.head?.any isNameChar then none else some (.imaginary false, rest)
    | _ =>
        let digits := whole.filter (· != '_')
        let isWhole := !hasPoint && !hasExponent
        if behind.head?.any isNameChar then none
        else if isWhole && digits.head? = some '0' && digits.any (· != '0') then none
        else if isWhole && Decimal.longestWhole < digits.length then none
        else some (.real false, behind)

def number (s : List Char) : Step :=
  match s with
  | '0' :: c :: rest =>
      if c = 'x' ∨ c = 'X' then basedNumber 16 rest
      else if c = 'o' ∨ c = 'O' then basedNumber 8 rest
      else if c = 'b' ∨ c = 'B' then basedNumber 2 rest
      else decimalNumber s
  | _ => decimalNumber s

/-- Whether the text behind a backslash is the start of an escape. -/
def isEscape (bytes : Bool) (s : List Char) : Bool :=
  let hexDigits (n : Nat) (s : List Char) : Bool :=
    (s.take n).length = n && (s.take n).all (isDigitOf 16)
  match s with
  | [] => false
  | 'x' :: rest => hexDigits 2 rest
  | 'u' :: rest => bytes || hexDigits 4 rest
  | 'U' :: rest =>
      bytes || (hexDigits 8 rest
        && (Text.hexNumber? 0 (rest.take 8)).any (· ≤ 0x10ffff))
  | 'N' :: rest => bytes || rest.head? = some '\x7b'
  | _ :: _ => true

/-- The text behind the end of a string. The string ends with `mark`, and only one with a long mark
goes over several lines. `skip` characters are still to be passed over. -/
def stringEnd? (mark : List Char) (raw bytes : Bool) : Nat → List Char → Option (List Char)
  | _, [] => none
  | skip + 1, _ :: rest => stringEnd? mark raw bytes skip rest
  | 0, c :: rest =>
      if mark.isPrefixOf (c :: rest) then some ((c :: rest).drop mark.length)
      else if c = '\\' then
        if raw || isEscape bytes rest then stringEnd? mark raw bytes 1 rest else none
      else if c = '\n' ∧ mark.length = 1 then none
      else if bytes ∧ 127 < c.toNat then none
      else stringEnd? mark raw bytes 0 rest

def string? (raw bytes : Bool) (s : List Char) : Option (List Char) :=
  match s with
  | [] => none
  | q :: rest =>
      if q = '\'' ∨ q = '"' then
        if [q, q].isPrefixOf rest then stringEnd? [q, q, q] raw bytes 0 (rest.drop 2)
        else stringEnd? [q] raw bytes 0 rest
      else none

/-- The string at the start of a text, with the letters in front of it: `r` for raw ones, `b` for
bytes, `u` for others. -/
def stringPart (s : List Char) : Step :=
  let letters := (s.takeWhile Char.isAlpha).map Char.toLower
  let body := s.dropWhile Char.isAlpha
  if [[], ['r'], ['u'], ['b'], ['b', 'r'], ['r', 'b']].contains letters then
    let bytes := letters.contains 'b'
    (string? (letters.contains 'r') bytes body).map fun behind =>
      (if bytes then .bytes else .text, behind)
  else none

/-- Strings one behind another, which are one string. All are of one kind. -/
def strings (fuel : Nat) (inside : Bool) (s : List Char) : Step :=
  match fuel with
  | 0 => none
  | fuel + 1 =>
      match stringPart s with
      | none => none
      | some (kind, behind) =>
          let next := skipBlank inside false behind
          let letters := next.takeWhile Char.isAlpha
          match (next.drop letters.length).head? with
          | some q =>
              if q = '\'' ∨ q = '"' then
                match strings fuel inside next with
                | some (other, behind) => if other = kind then some (kind, behind) else none
                | none => none
              else some (kind, behind)
          | none => some (kind, behind)

def constants : List String :=
  ["None", "True", "False"]

/-- A literal that is not a collection: a constant, a string or a number. -/
def plain (inside : Bool) (s : List Char) : Step :=
  let name := s.takeWhile isNameChar
  if constants.contains (String.ofList name) then some (.element, s.drop name.length)
  else if "...".toList.isPrefixOf s then some (.element, s.drop 3)
  else if s.head?.any (fun c => c.isDigit || c = '.') then number s
  else strings (s.length + 1) inside s

def signed (kind : LiteralKind) : Option LiteralKind :=
  match kind with
  | .real false => some (.real true)
  | .imaginary false => some (.imaginary true)
  | _ => none

/-- What the elements between brackets are. -/
inductive Elements where
  | none
  /-- One literal without a comma. -/
  | single (kind : LiteralKind)
  | several (kinds : List LiteralKind)

def Elements.kinds : Elements → List LiteralKind
  | .none => []
  | .single kind => [kind]
  | .several kinds => kinds

mutual

/-- The literal at the start of a text: a number with a sign, a sum of a real and an imaginary
number, or something else. -/
def literal (fuel : Nat) (inside : Bool) (s : List Char) : Step :=
  match fuel with
  | 0 => none
  | fuel + 1 => do
      let (first, behind) ← term fuel inside (skipBlank inside false s)
      let next := skipBlank inside false behind
      match next with
      | c :: rest =>
          if c = '+' ∨ c = '-' then
            let (second, behind) ← atom fuel inside (skipBlank inside false rest)
            match first, second with
            | .real _, .imaginary false => some (.element, skipBlank inside false behind)
            | _, _ => none
          else some (first, next)
      | [] => some (first, [])

def term (fuel : Nat) (inside : Bool) (s : List Char) : Step :=
  match fuel with
  | 0 => none
  | fuel + 1 =>
      match s with
      | c :: rest =>
          if c = '+' ∨ c = '-' then do
            let (kind, behind) ← atom fuel inside (skipBlank inside false rest)
            return (← signed kind, behind)
          else atom fuel inside s
      | [] => none

def atom (fuel : Nat) (inside : Bool) (s : List Char) : Step :=
  match fuel with
  | 0 => none
  | fuel + 1 =>
      match s with
      | '(' :: rest => do
          let (elements, behind) ← elements fuel ')' (skipBlank true false rest)
          match elements with
          | .none => return (.element, behind)
          | .single kind => return (kind, behind)
          | .several kinds =>
              return (if kinds.all isElement then .element else .collection, behind)
      | '[' :: rest => do
          let (_, behind) ← elements fuel ']' (skipBlank true false rest)
          return (.collection, behind)
      | '\x7b' :: rest => braces fuel (skipBlank true false rest)
      | _ =>
          if "set".toList.isPrefixOf s then
            match skipBlank inside false (s.drop 3) with
            | '(' :: rest =>
                match skipBlank true false rest with
                | ')' :: behind => some (.collection, behind)
                | _ => none
            | _ => none
          else plain inside s

def elements (fuel : Nat) (closing : Char) (s : List Char) : Option (Elements × List Char) :=
  match fuel with
  | 0 => none
  | fuel + 1 =>
      if s.head? = some closing then some (.none, s.tail)
      else do
        let (kind, behind) ← literal fuel true s
        match behind with
        | ',' :: rest =>
            let (more, behind) ← elements fuel closing (skipBlank true false rest)
            return (.several (kind :: more.kinds), behind)
        | c :: rest => if c = closing then some (.single kind, rest) else none
        | [] => none

/-- A set or a mapping, behind its opening brace. Elements and keys must be able to be in a set. -/
def braces (fuel : Nat) (s : List Char) : Step :=
  match fuel with
  | 0 => none
  | fuel + 1 =>
      if s.head? = some '\x7d' then some (.collection, s.tail)
      else do
        let (kind, behind) ← literal fuel true s
        if !isElement kind then none
        else
          match behind with
          | ':' :: rest => do
              let (_, behind) ← literal fuel true rest
              match behind with
              | '\x7d' :: behind => some (.collection, behind)
              | ',' :: rest => entries fuel (skipBlank true false rest)
              | _ => none
          | '\x7d' :: behind => some (.collection, behind)
          | ',' :: rest => do
              let (more, behind) ← elements fuel '\x7d' (skipBlank true false rest)
              if more.kinds.all isElement then some (.collection, behind) else none
          | _ => none

def entries (fuel : Nat) (s : List Char) : Step :=
  match fuel with
  | 0 => none
  | fuel + 1 =>
      if s.head? = some '\x7d' then some (.collection, s.tail)
      else do
        let (kind, behind) ← literal fuel true s
        match behind with
        | ':' :: rest =>
            let (_, behind) ← literal fuel true rest
            if !isElement kind then none
            else
              match behind with
              | '\x7d' :: behind => some (.collection, behind)
              | ',' :: rest => entries fuel (skipBlank true false rest)
              | _ => none
        | _ => none

end

/-- Elements without brackets, with commas between them, up to the end of a text. -/
def bare (fuel : Nat) (s : List Char) : Bool :=
  match fuel with
  | 0 => false
  | fuel + 1 =>
      match literal (8 * s.length + 8) false s with
      | some (_, []) => true
      | some (_, ',' :: rest) =>
          let next := skipBlank false false rest
          next.isEmpty || bare fuel next
      | _ => false

end Literal

/-- Whether a text is a literal, or several with commas between them. A text with NUL is none. -/
def isLiteral (s : List Char) : Bool :=
  !s.contains '\x00' && Literal.bare (s.length + 1) s

end LexicalPath.Display
