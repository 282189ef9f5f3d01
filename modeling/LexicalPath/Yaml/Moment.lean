import LexicalPath.Datum
import LexicalPath.Decimal.Digits
import LexicalPath.Yaml.Tag

namespace LexicalPath.Yaml

-- Powers are the core library's, also where a later module brings other instances.
attribute [local instance (high)] instPowNat

/-- The ways in which a text that looks like a date or a moment is none. -/
inductive MomentError where
  | form
  | year (n : Nat)
  | month
  | day
  | hour
  | minute
  | second
  /-- A zone that is a day or more away, by its minutes. -/
  | zone (minutes : Int)
  deriving DecidableEq

def dateOf (year month day : Nat) : Except MomentError Date :=
  if year = 0 then .error (.year year)
  else if month = 0 ∨ 12 < month then .error .month
  else if day = 0 ∨ Date.daysInMonth year month < day then .error .day
  else .ok { year, month, day }

/-- The minutes by which a zone is ahead. -/
def zoneOf (t : TimestampText) : Except MomentError (Option Int) :=
  match t.offset with
  | none => .ok (if t.zoned then some 0 else none)
  | some (behind, hours, minutes) =>
      let size : Int := Decimal.digitsValue hours * 60 + Decimal.digitsValue minutes
      let offset := if behind then -size else size
      if size < 24 * 60 then .ok (some offset) else .error (.zone offset)

/-- The millionths of a second that the digits of a fraction stand for. Further digits do not
count. -/
def microsecondsOf (fraction : List Char) : Nat :=
  let digits := fraction.take 6
  Decimal.digitsValue digits * 10 ^ (6 - digits.length)

def momentOfScalar (s : List Char) : Except MomentError Datum :=
  match TimestampText.read? (withoutFinalBreak s) with
  | none => .error .form
  | some t => do
      let date := dateOf (Decimal.digitsValue t.year) (Decimal.digitsValue t.month)
        (Decimal.digitsValue t.day)
      match t.time with
      | none => return .date (← date)
      | some (hour, minute, second) =>
          let zone ← zoneOf t
          let date ← date
          let hour := Decimal.digitsValue hour
          let minute := Decimal.digitsValue minute
          let second := Decimal.digitsValue second
          if 23 < hour then throw .hour
          if 59 < minute then throw .minute
          if 59 < second then throw .second
          let microsecond := microsecondsOf t.fraction
          return .timestamp { date, hour, minute, second, microsecond, zone }

end LexicalPath.Yaml
