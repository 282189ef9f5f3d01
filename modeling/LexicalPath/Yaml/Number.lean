import LexicalPath.Decimal.Digits
import LexicalPath.Decimal.Shortest
import LexicalPath.Text.Blank
import LexicalPath.Text.Digit
import LexicalPath.Text.Hex
import LexicalPath.Text.LowerCase
import LexicalPath.Text.Split
import LexicalPath.Yaml.Tag

namespace LexicalPath.Yaml

inductive NumberError where
  | empty
  | notWhole (base : Nat) (text : List Char)
  | notDecimal (text : List Char)
  /-- A whole number in more digits than are read. -/
  | tooLong (digits : Nat)
  /-- A sixtieth so far up that it is beyond the floating-point numbers. -/
  | tooLarge
  deriving DecidableEq

def digitBelow? (base : Nat) (c : Char) : Option Nat :=
  (Text.hexValue? c).filter (· < base)

/-- The letter that may stand behind a zero in front of the digits of a base. -/
def baseLetter? (base : Nat) : Option Char :=
  if base = 2 then some 'b' else if base = 8 then some 'o' else if base = 16 then some 'x' else none

/-- The digits behind a zero and the letter of a base, if they are there. -/
def behindBaseLetter (base : Nat) (s : List Char) : List Char :=
  match s with
  | '0' :: c :: rest => if baseLetter? base = some c.toLower then rest else s
  | _ => s

/-- Whether a text has a minus in front, and the text behind its sign. -/
def splitSign (s : List Char) : Bool × List Char :=
  (s.head? = some '-', afterSign s)

/-- A character of a number in its plain form: a digit of any script as the digit of that value, and
a blank as a space. -/
def plainNumeral (c : Char) : Char :=
  if c.toNat < 127 then c
  else if Text.isBlank c then ' '
  else
    match Text.digitValue? c with
    | some d => Char.ofNat (48 + d)
    | none => c

/-- Whether a character in plain form may stand around a number. -/
def isAroundNumeral (c : Char) : Bool :=
  c = ' ' || ('\t' ≤ c && c ≤ '\r')

def plainNumber (s : List Char) : List Char :=
  Text.trim isAroundNumeral (s.map plainNumeral)

def readWhole (base : Nat) (s : List Char) : Except NumberError Int :=
  let (negative, size) := splitSign (plainNumber s)
  let digits := behindBaseLetter base size
  let count := (digits.takeWhile fun c => (digitBelow? base c).isSome).length
  if base = 10 ∧ Decimal.longestWhole < count then .error (.tooLong count)
  else
    match if digits.isEmpty then none else digits.mapM (digitBelow? base) with
    | none => .error (.notWhole base s)
    | some digits =>
        let n := digits.foldl (fun n d => n * base + d) 0
        .ok (if negative then -(n : Int) else n)

def decimalSize? (s : List Char) : Option Decimal.Scientific :=
  let (whole, rest) := Decimal.digits s
  let (frac, rest) :=
    match rest with
    | '.' :: behind => Decimal.digits behind
    | _ => ([], rest)
  let (power, rest) := Decimal.exponent? rest
  if (whole.isEmpty && frac.isEmpty) || !rest.isEmpty then none
  else some ⟨Decimal.digitsValue (whole ++ frac), power.getD 0 - frac.length⟩

/-- The floating-point number that a text in small letters stands for. -/
def readDecimal (s : List Char) : Except NumberError Float :=
  let (negative, size) := splitSign (plainNumber s)
  let signed (x : Float) : Float := if negative then -x else x
  if ["inf", "infinity"].contains (String.ofList size) then .ok (signed (1.0 / 0.0))
  else if size = "nan".toList then .ok (0.0 / 0.0)
  else
    match decimalSize? size with
    | some d => .ok (Decimal.toFloat negative d)
    | none => .error (.notDecimal s)

def wholeOfScalar (s : List Char) : Except NumberError Int := do
  let (negative, size) := splitSign (s.filter (· != '_'))
  let n ←
    match size with
    | [] => .error .empty
    | ['0'] => .ok 0
    | '0' :: 'b' :: digits => readWhole 2 digits
    | '0' :: 'x' :: digits => readWhole 16 digits
    | '0' :: _ => readWhole 8 size
    | _ =>
        if size.contains ':' then do
          let parts ← (colonParts size).mapM (readWhole 10)
          pure (parts.foldl (fun n part => n * 60 + part) 0)
        else readWhole 10 size
  return if negative then -n else n

/-- Parts in sixtieths, the last first, added up. -/
def addSixtieths (sum : Float) (base : Nat) : List Float → Except NumberError Float
  | [] => .ok sum
  | part :: rest =>
      if 2 ^ 1024 ≤ base then .error .tooLarge
      else addSixtieths (sum + part * base.toFloat) (base * 60) rest

/-- The floating-point number that a scalar stands for; `none` for the scalar `.nan`, which stands
for one value wherever it is written. -/
def floatOfScalar (s : List Char) : Except NumberError (Option Float) := do
  let (negative, size) := splitSign (Text.lower (s.filter (· != '_')))
  if s.all (· = '_') then throw .empty
  if size = ".nan".toList then return none
  let x ←
    if size = ".inf".toList then .ok (1.0 / 0.0)
    else if size.contains ':' then do
      let parts ← (colonParts size).mapM readDecimal
      addSixtieths 0.0 1 parts.reverse
    else readDecimal size
  return some (if negative then -x else x)

end LexicalPath.Yaml
