import LexicalPath.Decimal.Digits
import LexicalPath.Decimal.Layout
import LexicalPath.Text.Quoted

namespace LexicalPath

-- Powers and sums are the core library's, also where a later module brings other instances.
attribute [local instance (high)] instPowNat Zero.ofOfNat0

structure Date where
  year : Nat
  month : Nat
  day : Nat
  deriving DecidableEq

/-- A moment on a day, with the offset of its zone in minutes if it has one. -/
structure Timestamp where
  date : Date
  hour : Nat
  minute : Nat
  second : Nat
  microsecond : Nat
  zone : Option Int
  deriving DecidableEq

inductive Datum where
  | null
  | bool (value : Bool)
  | int (value : Int)
  | float (value : Float)
  | text (value : String)
  | bytes (value : List UInt8)
  | date (value : Date)
  | timestamp (value : Timestamp)
  | list (items : List Datum)
  | pair (first second : Datum)
  | set (items : List Datum)
  | mapping (entries : List (Datum × Datum))
  /-- A list that holds itself, at the place where it does. -/
  | withinList
  /-- A mapping that holds itself, at the place where it does. -/
  | withinMapping
  deriving Inhabited

namespace Date

def isLeapYear (year : Nat) : Bool :=
  year % 4 = 0 && (year % 100 != 0 || year % 400 = 0)

def daysInMonth (year month : Nat) : Nat :=
  if month = 2 then if isLeapYear year then 29 else 28
  else if month = 4 || month = 6 || month = 9 || month = 11 then 30
  else 31

/-- The days before a date, counted from the first day of the year zero. -/
def dayNumber (d : Date) : Nat :=
  let years := d.year - 1
  let months := (List.range (d.month - 1)).map fun m => daysInMonth d.year (m + 1)
  years * 365 + years / 4 - years / 100 + years / 400 + months.sum + d.day

def describe (d : Date) : String :=
  s!"datetime.date({d.year}, {d.month}, {d.day})"

end Date

namespace Timestamp

def describeZone (minutes : Int) : String :=
  if minutes = 0 then "datetime.timezone.utc"
  else
    let days := minutes / 1440
    let seconds := minutes % 1440 * 60
    let parts :=
      (if days = 0 then [] else [s!"days={days}"])
        ++ (if seconds = 0 then [] else [s!"seconds={seconds}"])
    "datetime.timezone(datetime.timedelta(" ++ ", ".intercalate parts ++ "))"

/-- A moment as messages show it: seconds and fractions of a second only where they are not zero. -/
def describe (t : Timestamp) : String :=
  let fields : List Nat :=
    [t.date.year, t.date.month, t.date.day, t.hour, t.minute]
      ++ (if t.second = 0 ∧ t.microsecond = 0 then [] else [t.second])
      ++ (if t.microsecond = 0 then [] else [t.microsecond])
  let zone := t.zone.toList.map fun minutes => "tzinfo=" ++ describeZone minutes
  "datetime.datetime(" ++ ", ".intercalate (fields.map toString ++ zone) ++ ")"

/-- The seconds before a moment and its fraction, with the zone taken into account. -/
def instant (t : Timestamp) : Int × Nat :=
  let minutes := (t.date.dayNumber * 24 + t.hour) * 60 + t.minute
  (((minutes : Int) - t.zone.getD 0) * 60 + t.second, t.microsecond)

/-- Whether two moments are the same. One with a zone and one without never are. -/
def same (s t : Timestamp) : Bool :=
  s.zone.isSome = t.zone.isSome && s.instant = t.instant

end Timestamp

namespace Datum

/-- Floating-point numbers in messages are positional from four zeros behind the point up to sixteen
digits in front of it. -/
def floatLayout : Decimal.Layout where
  firstPoint := -3
  lastPoint := 16
  exponentDigits := 2

def quotedByte (mark : Char) (b : UInt8) : List Char :=
  let c := Char.ofNat b.toNat
  if 32 ≤ b.toNat ∧ b.toNat < 127 then if c = mark ∨ c = '\\' then ['\\', c] else [c]
  else if c = '\t' then ['\\', 't']
  else if c = '\n' then ['\\', 'n']
  else if c = '\r' then ['\\', 'r']
  else '\\' :: 'x' :: Text.hex Text.lowerDigit 2 b.toNat

def describeBytes (bytes : List UInt8) : String :=
  let mark := Text.quoteMark (bytes.map fun b => Char.ofNat b.toNat)
  String.ofList ('b' :: mark :: bytes.flatMap (quotedByte mark) ++ [mark])

mutual

def describe : Datum → String
  | null => "None"
  | bool true => "True"
  | bool false => "False"
  | int i => toString i
  | float x => floatLayout.renderFloat x
  | text s => Text.quoted s
  | bytes b => describeBytes b
  | date d => d.describe
  | timestamp t => t.describe
  | list items => "[" ++ ", ".intercalate (describeItems items) ++ "]"
  | pair first second => "(" ++ describe first ++ ", " ++ describe second ++ ")"
  | set [] => "set()"
  | set (item :: items) =>
      "\x7b" ++ ", ".intercalate (describe item :: describeItems items) ++ "\x7d"
  | mapping entries => "\x7b" ++ ", ".intercalate (describeEntries entries) ++ "\x7d"
  | withinList => "[...]"
  | withinMapping => "\x7b...\x7d"

def describeItems : List Datum → List String
  | [] => []
  | item :: rest => describe item :: describeItems rest

def describeEntries : List (Datum × Datum) → List String
  | [] => []
  | (key, value) :: rest => (describe key ++ ": " ++ describe value) :: describeEntries rest

end

mutual

/-- Whether a value can be shown: it holds no whole number that is too long. -/
def isShowable : Datum → Bool
  | int i => Decimal.fits Decimal.longestWhole i
  | list items | set items => areShowable items
  | pair first second => isShowable first && isShowable second
  | mapping entries => entriesAreShowable entries
  | _ => true

def areShowable : List Datum → Bool
  | [] => true
  | item :: rest => isShowable item && areShowable rest

def entriesAreShowable : List (Datum × Datum) → Bool
  | [] => true
  | (key, value) :: rest => isShowable key && isShowable value && entriesAreShowable rest

end

/-- The text that shows a value, or the one shown because it holds a whole number that is too
long. -/
def shown (d : Datum) : Except String String :=
  if d.isShowable then .ok d.describe
  else .error (Decimal.lengthMessage Decimal.longestWhole none)

def kindName : Datum → String
  | null => "NoneType"
  | bool _ => "bool"
  | int _ => "int"
  | float _ => "float"
  | text _ => "str"
  | bytes _ => "bytes"
  | date _ => "datetime.date"
  | timestamp _ => "datetime.datetime"
  | list _ | withinList => "list"
  | pair _ _ => "tuple"
  | set _ => "set"
  | mapping _ | withinMapping => "dict"

/-- Whether a value counts as nothing: null, false, a zero, or something empty. -/
def isBlank : Datum → Bool
  | null | bool false | text "" | bytes [] | list [] | set [] | mapping [] => true
  | int i => i = 0
  | float x => x == 0.0
  | _ => false

/-- The whole number that a floating-point number is equal to. -/
def wholeNumber? (x : Float) : Option Int :=
  if x.isNaN || x.isInf then none
  else
    let b := Decimal.Binary.ofBits x.toBits.toNat
    let scale := 2 ^ (-b.exponent).toNat
    if b.mantissa % scale = 0 then
      let size : Int := b.mantissa / scale * 2 ^ b.exponent.toNat
      some (if x < 0.0 then -size else size)
    else none

/-- The whole number that a value stands for as a key. -/
def keyNumber? : Datum → Option Int
  | bool b => some (if b then 1 else 0)
  | int i => some i
  | float x => wholeNumber? x
  | _ => none

/-- Whether two values are the same key. Numbers are compared by their values, whatever their
kind. -/
def sameKey : Datum → Datum → Bool
  | null, null => true
  | text s, text t => s = t
  | bytes a, bytes b => a = b
  | date a, date b => a = b
  | timestamp a, timestamp b => a.same b
  | float a, float b => a == b
  | a, b =>
      match a.keyNumber?, b.keyNumber? with
      | some i, some j => i = j
      | _, _ => false

/-- The entries with one more. A key that is there already keeps its place and gets the new
value. -/
def insertEntry (key value : Datum) : List (Datum × Datum) → List (Datum × Datum)
  | [] => [(key, value)]
  | (k, v) :: rest =>
      if k.sameKey key then (k, value) :: rest else (k, v) :: insertEntry key value rest

def ofEntries (entries : List (Datum × Datum)) : List (Datum × Datum) :=
  entries.foldl (fun done (key, value) => insertEntry key value done) []

/-- The number of places for `n` elements of a set: eight at least, and a power of two. -/
def setPlaces (n : Nat) : Nat :=
  if n < 5 then 8 else 2 ^ (Nat.log2 (2 * n) + 1)

/-- The number of bits in the prime by which whole numbers are reduced to find their place. -/
def placeBits : Nat := 61

/-- The place of a whole number among so many places. -/
def setPlace (places : Nat) (n : Int) : Nat :=
  let rest := n.tmod (2 ^ placeBits - 1)
  ((if rest = -1 then -2 else rest) % places).toNat

/-- The elements of a set in the order in which it is shown. Whole numbers are shown by their
places, and other sets as their elements come. -/
def setOrder (items : List Datum) : List Datum :=
  let place (d : Datum) : Nat := (d.keyNumber?.map (setPlace (setPlaces items.length))).getD 0
  if items.all (·.keyNumber?.isSome) then items.mergeSort fun a b => place a ≤ place b else items

def lookup? (key : String) : List (Datum × Datum) → Option Datum
  | [] => none
  | (text k, v) :: rest => if k = key then some v else lookup? key rest
  | _ :: rest => lookup? key rest

end Datum

end LexicalPath
