namespace LexicalPath.Yaml

inductive Tag where
  | null
  | bool
  | int
  | float
  | binary
  | timestamp
  | omap
  | pairs
  | set
  | text
  | list
  | mapping
  /-- The key that takes in the entries of another mapping. -/
  | merge
  /-- The key of a default value. -/
  | value
  /-- Any other tag. -/
  | other (name : String)
  deriving DecidableEq

def Tag.commonStart : String :=
  "tag:yaml.org,2002:"

def Tag.common : List (String × Tag) :=
  [("null", .null), ("bool", .bool), ("int", .int), ("float", .float), ("binary", .binary),
   ("timestamp", .timestamp), ("omap", .omap), ("pairs", .pairs), ("set", .set), ("str", .text),
   ("seq", .list), ("map", .mapping), ("merge", .merge), ("value", .value)]

def Tag.ofName (name : String) : Tag :=
  match Tag.common.find? fun entry => Tag.commonStart ++ entry.1 = name with
  | some (_, tag) => tag
  | none => .other name

def isDigitOrLine (c : Char) : Bool :=
  c.isDigit || c = '_'

def afterSign (s : List Char) : List Char :=
  match s with
  | '-' :: rest | '+' :: rest => rest
  | _ => s

def colonParts (s : List Char) : List (List Char) :=
  match s with
  | [] => [[]]
  | c :: rest =>
      if c = ':' then [] :: colonParts rest
      else
        match colonParts rest with
        | [] => [[c]]
        | part :: parts => (c :: part) :: parts

/-- Whether a text is a number below sixty in one or two digits. -/
def isSixtieth (s : List Char) : Bool :=
  match s with
  | [d] => d.isDigit
  | [t, d] => '0' ≤ t && t ≤ '5' && d.isDigit
  | _ => false

/-- Whether a text consists of a first part in digits and at least one sixtieth, with colons
between. -/
def isSixtieths (first : List Char → Bool) (s : List Char) : Bool :=
  match colonParts s with
  | head :: part :: parts => first head && (part :: parts).all isSixtieth
  | _ => false

/-- Whether a text is digits and underscores that begin with a digit from `low` on. -/
def isDigits (low : Char) (s : List Char) : Bool :=
  match s with
  | [] => false
  | c :: rest => low ≤ c && c ≤ '9' && rest.all isDigitOrLine

/-- Whether a text is not empty and all its characters satisfy `p` or are underscores. -/
def isRunOf (p : Char → Bool) (s : List Char) : Bool :=
  !s.isEmpty && s.all fun c => p c || c = '_'

def isHexDigit (c : Char) : Bool :=
  c.isDigit || ('a' ≤ c && c ≤ 'f') || ('A' ≤ c && c ≤ 'F')

/-- Whether a scalar is a whole number: binary, octal, decimal, hexadecimal or in sixtieths. -/
def isInt (s : List Char) : Bool :=
  let size := afterSign s
  match size with
  | '0' :: 'b' :: digits => isRunOf (fun c => c = '0' || c = '1') digits
  | '0' :: 'x' :: digits => isRunOf isHexDigit digits
  | ['0'] => true
  | '0' :: digits => isRunOf (fun c => '0' ≤ c && c ≤ '7') digits
  | _ => isDigits '1' size || isSixtieths (isDigits '1') size

def isExponent (s : List Char) : Bool :=
  match s with
  | [] => true
  | e :: sign :: digits =>
      (e = 'e' || e = 'E') && (sign = '-' || sign = '+') && !digits.isEmpty
        && digits.all Char.isDigit
  | _ => false

/-- Whether a scalar is a number with a point: decimal, in sixtieths, infinite or not a number. -/
def isFloat (s : List Char) : Bool :=
  let size := afterSign s
  let whole := size.takeWhile (· != '.')
  match size.dropWhile (· != '.') with
  | [] => false
  | _ :: behind =>
      let digits := behind.takeWhile isDigitOrLine
      let rest := behind.dropWhile isDigitOrLine
      (isDigits '0' whole && isExponent rest)
        || (isSixtieths (isDigits '0') whole && rest.isEmpty)
        || (whole.isEmpty && size.length = s.length && isDigits '0' digits && isExponent rest)
        || (whole.isEmpty && ["inf", "Inf", "INF"].contains (String.ofList behind))
        || ([".nan", ".NaN", ".NAN"].contains (String.ofList s))

/-- Up to `most` digits at the start of a text, at least `least`, and what follows them. -/
def takeDigits? (least most : Nat) (s : List Char) : Option (List Char × List Char) :=
  let digits := (s.take most).takeWhile Char.isDigit
  if digits.length < least then none else some (digits, s.drop digits.length)

def after? (c : Char) (s : List Char) : Option (List Char) :=
  match s with
  | d :: rest => if d = c then some rest else none
  | [] => none

/-- The parts of a moment as they are written. -/
structure TimestampText where
  year : List Char
  month : List Char
  day : List Char
  /-- Hour, minute and second. -/
  time : Option (List Char × List Char × List Char) := none
  fraction : List Char := []
  /-- Whether there is a zone. -/
  zoned : Bool := false
  /-- Whether the zone is behind, its hours and its minutes. -/
  offset : Option (Bool × List Char × List Char) := none

def TimestampText.withZone? (t : TimestampText) (s : List Char) : Option TimestampText :=
  match s.dropWhile isSpaceOrTab with
  | [] => if s.isEmpty then some t else none
  | ['Z'] => some { t with zoned := true }
  | sign :: rest =>
      if sign = '-' ∨ sign = '+' then do
        let (hours, rest) ← takeDigits? 1 2 rest
        match rest with
        | [] => some { t with zoned := true, offset := some (sign = '-', hours, []) }
        | _ =>
            let (minutes, rest) ← takeDigits? 2 2 (← after? ':' rest)
            if rest.isEmpty then
              some { t with zoned := true, offset := some (sign = '-', hours, minutes) }
            else none
      else none
where
  isSpaceOrTab (c : Char) : Bool := c = ' ' || c = '\t'

def TimestampText.withTime? (t : TimestampText) (s : List Char) : Option TimestampText := do
  let (hour, s) ← takeDigits? 1 2 s
  let (minute, s) ← takeDigits? 2 2 (← after? ':' s)
  let (second, s) ← takeDigits? 2 2 (← after? ':' s)
  let timed := { t with time := some (hour, minute, second) }
  match s with
  | '.' :: rest =>
      let precise := { timed with fraction := rest.takeWhile Char.isDigit }
      precise.withZone? (rest.dropWhile Char.isDigit)
  | _ => timed.withZone? s

/-- A date, perhaps with a time of day and a zone. Month and day may have one digit. -/
def TimestampText.read? (s : List Char) : Option TimestampText := do
  let (year, s) ← takeDigits? 4 4 s
  let (month, s) ← takeDigits? 1 2 (← after? '-' s)
  let (day, s) ← takeDigits? 1 2 (← after? '-' s)
  let date : TimestampText := { year, month, day }
  match s with
  | [] => some date
  | c :: rest =>
      if c = 'T' ∨ c = 't' then date.withTime? rest
      else if c = ' ' ∨ c = '\t' then
        date.withTime? (rest.dropWhile fun d => d = ' ' || d = '\t')
      else none

/-- Whether a scalar is a date or a moment. A date alone has two digits for month and day. -/
def isTimestamp (s : List Char) : Bool :=
  match TimestampText.read? s with
  | none => false
  | some t => t.time.isSome || s.length = 10

def boolWords : List (String × Bool) :=
  [("yes", true), ("Yes", true), ("YES", true), ("no", false), ("No", false), ("NO", false),
   ("true", true), ("True", true), ("TRUE", true), ("false", false), ("False", false),
   ("FALSE", false), ("on", true), ("On", true), ("ON", true), ("off", false), ("Off", false),
   ("OFF", false)]

/-- A text without a line break at its end, if there is something in front of that. What a scalar
stands for does not depend on such a break. -/
def withoutFinalBreak (s : List Char) : List Char :=
  if 1 < s.length ∧ s.getLast? = some '\n' then s.dropLast else s

/-- What a plain scalar without a tag stands for. The marks of anchors, aliases and tags alone stand
for nothing. -/
def Tag.ofPlain (s : List Char) : Tag :=
  let s := withoutFinalBreak s
  let word := String.ofList s
  if boolWords.any fun entry => entry.1 = word then .bool
  else if isFloat s then .float
  else if isInt s then .int
  else if word = "<<" then .merge
  else if ["", "~", "null", "Null", "NULL"].contains word then .null
  else if isTimestamp s then .timestamp
  else if word = "=" then .value
  else if ["!", "&", "*"].contains word then .other (Tag.commonStart ++ "yaml")
  else .text

end LexicalPath.Yaml
