import LexicalPath.Datum
import LexicalPath.Decimal.Digits

/-!
Reading JSON. Besides the standard forms `NaN`, `Infinity` and `-Infinity` are numbers. Whole
numbers are kept in full; numbers with a fraction or an exponent are floating-point. A fault tells
the place at which the text stops being the start of a document. Whole numbers that are too long and
lists and mappings that are nested too deep are refused as soon as they are come upon.
-/

namespace LexicalPath.Json

inductive Fault where
  | byteOrderMark
  | expectedValue
  | expectedPropertyName
  | expectedColon
  | expectedComma
  | extraData
  | unterminatedString
  | invalidControl
  | invalidEscape
  | invalidHexEscape
  deriving DecidableEq

def Fault.message : Fault → String
  | .byteOrderMark => "Unexpected UTF-8 BOM (decode using utf-8-sig)"
  | .expectedValue => "Expecting value"
  | .expectedPropertyName => "Expecting property name enclosed in double quotes"
  | .expectedColon => "Expecting ':' delimiter"
  | .expectedComma => "Expecting ',' delimiter"
  | .extraData => "Extra data"
  | .unterminatedString => "Unterminated string starting at"
  | .invalidControl => "Invalid control character at"
  | .invalidEscape => "Invalid \\escape"
  | .invalidHexEscape => "Invalid \\uXXXX escape"

/-- A place in a text. Lines and columns are counted from one, the offset from zero. -/
structure Place where
  line : Nat
  column : Nat
  offset : Nat
  deriving DecidableEq

inductive Limit where
  /-- The digits of a whole number. -/
  | digits (count : Nat)
  /-- The depth of a list. -/
  | listDepth
  /-- The depth of a mapping. -/
  | mappingDepth
  deriving DecidableEq

/-- The lists and mappings that may stand within each other. -/
def deepest : Nat :=
  990

def Limit.message : Limit → String
  | .digits count => Decimal.lengthMessage Decimal.longestWhole (some count)
  | .listDepth =>
      "maximum recursion depth exceeded while decoding a JSON array from a unicode string"
  | .mappingDepth =>
      "maximum recursion depth exceeded while decoding a JSON object from a unicode string"

inductive ReadError where
  | fault (fault : Fault) (place : Place)
  | limit (limit : Limit)
  deriving DecidableEq

def ReadError.message : ReadError → String
  | .fault f place => s!"{f.message}: line {place.line} column {place.column} (char {place.offset})"
  | .limit l => l.message

/-- A fault with the number of characters from its place to the end of the text, or a limit. -/
inductive Failure where
  | fault (fault : Fault) (left : Nat)
  | limit (limit : Limit)
  deriving DecidableEq

abbrev Step (α : Type) :=
  Except Failure (α × List Char)

def isBlank (c : Char) : Bool :=
  c = ' ' || c = '\t' || c = '\n' || c = '\r'

def skipBlank (s : List Char) : List Char :=
  s.dropWhile isBlank

/-- The character with a code, or the replacement character if there is none. -/
def charOfCode (n : Nat) : Char :=
  if n.isValidChar then Char.ofNat n else '\ufffd'

def escapedChar? (c : Char) : Option Char :=
  if c = '"' ∨ c = '\\' ∨ c = '/' then some c
  else if c = 'b' then some '\x08'
  else if c = 'f' then some '\x0c'
  else if c = 'n' then some '\n'
  else if c = 'r' then some '\r'
  else if c = 't' then some '\t'
  else none

/-- The second half of a character that is written as two units, if the text goes on with one: a
`\u` and four digits, which must be digits, with more text behind them. -/
def lowUnit? (s : List Char) : Except Failure (Option Nat) :=
  if "\\u".toList.isPrefixOf s ∧ !(s.drop 6).isEmpty then
    match Text.hexNumber? 0 ((s.drop 2).take 4) with
    | none => .error (.fault .invalidHexEscape (s.length - 1))
    | some n => .ok (if 0xdc00 ≤ n ∧ n ≤ 0xdfff then some n else none)
  else .ok none

/-- The character that an escape stands for, given the text behind the backslash, and the number of
characters that belong to it. Four hexadecimal digits must have more text behind them. -/
def escape (s : List Char) : Except Failure (Char × Nat) :=
  match s with
  | [] => .error (.fault .unterminatedString 0)
  | c :: rest =>
      if c = 'u' then
        match if !(rest.drop 4).isEmpty then Text.hexNumber? 0 (rest.take 4) else none with
        | none => .error (.fault .invalidHexEscape s.length)
        | some high =>
            if 0xd800 ≤ high ∧ high ≤ 0xdbff then
              match lowUnit? (rest.drop 4) with
              | .error e => .error e
              | .ok none => .ok (charOfCode high, 5)
              | .ok (some low) =>
                  .ok (charOfCode (0x10000 + (high - 0xd800) * 0x400 + (low - 0xdc00)), 11)
            else .ok (charOfCode high, 5)
      else
        match escapedChar? c with
        | some c' => .ok (c', 1)
        | none => .error (.fault .invalidEscape (s.length + 1))

/-- The characters of a string up to its closing quote. Where the string was opened, the text
`opened` was left; `skip` characters that belong to an escape are still to be passed. -/
def stringBody (opened : List Char) : Nat → List Char → Step (List Char)
  | _, [] => .error (.fault .unterminatedString opened.length)
  | skip + 1, _ :: rest => stringBody opened skip rest
  | 0, c :: rest =>
      if c = '"' then .ok ([], rest)
      else if c = '\\' then
        if rest.isEmpty then .error (.fault .unterminatedString opened.length)
        else
          match escape rest with
          | .error e => .error e
          | .ok (c', length) =>
              (stringBody opened length rest).map fun (s, after) => (c' :: s, after)
      else if c.toNat < 0x20 then .error (.fault .invalidControl (rest.length + 1))
      else (stringBody opened 0 rest).map fun (s, after) => (c :: s, after)

/-- The digits of a whole number at the start of a text: a zero, or digits that do not start with
one. -/
def wholeDigits? (s : List Char) : Option (List Char × List Char) :=
  match s with
  | '0' :: rest => some (['0'], rest)
  | c :: _ => if c.isDigit then some (Decimal.digits s) else none
  | [] => none

/-- The fraction digits at the start of a text: a point and at least one digit. -/
def fraction (s : List Char) : List Char × List Char :=
  match s with
  | '.' :: rest =>
      let (ds, after) := Decimal.digits rest
      if ds.isEmpty then ([], s) else (ds, after)
  | _ => ([], s)

def number (s : List Char) : Step Datum :=
  let (negative, size) :=
    match s with
    | '-' :: rest => (true, rest)
    | _ => (false, s)
  match wholeDigits? size with
  | none => .error (.fault .expectedValue s.length)
  | some (whole, behind) =>
      let (frac, behind) := fraction behind
      let (power, after) := Decimal.exponent? behind
      if frac.isEmpty && power.isNone then
        if Decimal.longestWhole < whole.length then .error (.limit (.digits whole.length))
        else
          let n : Int := Decimal.digitsValue whole
          .ok (.int (if negative then -n else n), after)
      else
        let size : Decimal.Scientific :=
          ⟨Decimal.digitsValue (whole ++ frac), power.getD 0 - frac.length⟩
        .ok (.float (Decimal.toFloat negative size), after)

def words : List (List Char × Datum) :=
  [("null".toList, .null), ("true".toList, .bool true), ("false".toList, .bool false),
   ("NaN".toList, .float (0.0 / 0.0)), ("Infinity".toList, .float (1.0 / 0.0)),
   ("-Infinity".toList, .float (-1.0 / 0.0))]

def plainValue (s : List Char) : Step Datum :=
  match words.find? fun word => word.1.isPrefixOf s with
  | some (word, value) => .ok (value, s.drop word.length)
  | none => number s

mutual

/-- The value at the start of a text, in which `room` lists and mappings may stand within each
other. The fuel bounds the number of steps; the length of the text and one more is enough. -/
def value (fuel room : Nat) (s : List Char) : Step Datum :=
  match fuel with
  | 0 => .error (.fault .expectedValue s.length)
  | fuel + 1 =>
      match s with
      | '"' :: rest =>
          (stringBody s 0 rest).map fun (t, after) => (.text (String.ofList t), after)
      | '[' :: rest =>
          if room = 0 then .error (.limit .listDepth)
          else
            match skipBlank rest with
            | ']' :: after => .ok (.list [], after)
            | first =>
                (elements fuel (room - 1) first).map fun (items, after) => (.list items, after)
      | '\x7b' :: rest =>
          if room = 0 then .error (.limit .mappingDepth)
          else
            match skipBlank rest with
            | '\x7d' :: after => .ok (.mapping [], after)
            | first =>
                (members fuel (room - 1) first).map fun (entries, after) =>
                  (.mapping (Datum.ofEntries entries), after)
      | _ => plainValue s

/-- The elements of a list, from the first one up to the closing bracket. -/
def elements (fuel room : Nat) (s : List Char) : Step (List Datum) :=
  match fuel with
  | 0 => .error (.fault .expectedValue s.length)
  | fuel + 1 =>
      match value fuel room s with
      | .error e => .error e
      | .ok (item, behind) =>
          match skipBlank behind with
          | ']' :: after => .ok ([item], after)
          | ',' :: next =>
              (elements fuel room (skipBlank next)).map fun (items, after) => (item :: items, after)
          | other => .error (.fault .expectedComma other.length)

/-- The members of a mapping, from the first key up to the closing brace. -/
def members (fuel room : Nat) (s : List Char) : Step (List (Datum × Datum)) :=
  match fuel with
  | 0 => .error (.fault .expectedPropertyName s.length)
  | fuel + 1 =>
      match s with
      | '"' :: rest =>
          match stringBody s 0 rest with
          | .error e => .error e
          | .ok (key, behind) =>
              match skipBlank behind with
              | ':' :: next =>
                  match value fuel room (skipBlank next) with
                  | .error e => .error e
                  | .ok (item, behind) =>
                      let entry := (.text (String.ofList key), item)
                      match skipBlank behind with
                      | '\x7d' :: after => .ok ([entry], after)
                      | ',' :: next =>
                          (members fuel room (skipBlank next)).map fun (entries, after) =>
                            (entry :: entries, after)
                      | other => .error (.fault .expectedComma other.length)
              | other => .error (.fault .expectedColon other.length)
      | _ => .error (.fault .expectedPropertyName s.length)

end

def document (s : List Char) : Except Failure Datum :=
  if s.head? = some '\ufeff' then .error (.fault .byteOrderMark s.length)
  else
    match value (s.length + 1) deepest (skipBlank s) with
    | .error e => .error e
    | .ok (v, behind) =>
        match skipBlank behind with
        | [] => .ok v
        | rest => .error (.fault .extraData rest.length)

def placeOf (left : Nat) (s : List Char) : Place :=
  let before := s.take (s.length - left)
  { line := before.count '\n' + 1
    column := (before.reverse.takeWhile (· != '\n')).length + 1
    offset := before.length }

def Failure.locate (f : Failure) (s : List Char) : ReadError :=
  match f with
  | .fault kind left => .fault kind (placeOf left s)
  | .limit l => .limit l

def read (text : String) : Except ReadError Datum :=
  (document text.toList).mapError fun f => f.locate text.toList

end LexicalPath.Json
