import LexicalPath.Text.Quoted
import LexicalPath.Yaml.Composition
import LexicalPath.Yaml.Value

namespace LexicalPath.Yaml

inductive ReadError where
  | character (c : Char)
  | composition (e : CompositionError)
  | value (e : ValueError)
  deriving DecidableEq

/-- The text shown for a number that cannot be read. Of a text for a whole number up to 200
characters are shown. -/
def NumberError.message : NumberError → String
  | .empty => "string index out of range"
  | .notWhole base s =>
      s!"invalid literal for int() with base {base}: "
        ++ String.ofList ((Text.quoted (String.ofList s)).toList.take 200)
  | .notDecimal s => "could not convert string to float: " ++ Text.quoted (String.ofList s)
  | .tooLong digits => Decimal.lengthMessage Decimal.longestWhole (some digits)
  | .tooLarge => "int too large to convert to float"

def describeOffset (minutes : Int) : String :=
  let days := minutes / 1440
  let seconds := minutes % 1440 * 60
  let parts := s!"days={days}" :: if seconds = 0 then [] else [s!"seconds={seconds}"]
  "datetime.timedelta(" ++ ", ".intercalate parts ++ ")"

def MomentError.message : MomentError → String
  | .form => "'NoneType' object has no attribute 'groupdict'"
  | .year n => s!"year {n} is out of range"
  | .month => "month must be in 1..12"
  | .day => "day is out of range for month"
  | .hour => "hour must be in 0..23"
  | .minute => "minute must be in 0..59"
  | .second => "second must be in 0..59"
  | .zone minutes =>
      "offset must be a timedelta strictly between -timedelta(hours=24) and "
        ++ "timedelta(hours=24), not " ++ describeOffset minutes ++ "."

/-- The largest code that an escape may have so that it is refused as the code of no character, and
not as too large a number. -/
def largestCode : Nat :=
  0x7fffffff

/-- The text shown for an error that is not one of form; those have none. -/
def ReadError.message? : ReadError → Option String
  | .composition (.token (.badCode code)) =>
      some (if code ≤ largestCode then "chr() arg not in range(0x110000)"
        else "Python int too large to convert to C int")
  | .value .notMomentText => some "expected string or bytes-like object, got 'list'"
  | .composition (.token .tooDeep) | .composition .tooDeep | .value .endlessDefault =>
      some "maximum recursion depth exceeded"
  | .value (.unknownWord word) => some (Text.quoted (String.ofList word))
  | .value (.number e) => some e.message
  | .value (.moment e) => some e.message
  | _ => none

def read (text : String) : Except ReadError Document :=
  match text.toList.find? (!isAllowed ·) with
  | some c => .error (.character c)
  | none =>
      match Graph.ofTokens? (Tokens.ofText (unifyBreaks text.toList)) with
      | .error e => .error (.composition e)
      | .ok none => .ok .empty
      | .ok (some (graph, root)) => (Document.ofGraph graph root).mapError .value

end LexicalPath.Yaml
