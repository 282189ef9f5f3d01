namespace LexicalPath.Decimal

-- Powers are the core library's, also where a later module brings other instances.
attribute [local instance (high)] instPowNat

/-- The number of decimal digits that a whole number may have where it is read or shown. -/
def longestWhole : Nat := 4300

/-- Whether a whole number has no more than so many digits. -/
def fits (digits : Nat) (i : Int) : Bool :=
  i.natAbs < 10 ^ digits

/-- The text shown for a whole number of more digits than are allowed, with the number of its digits
if it is known. -/
def lengthMessage (allowed : Nat) (digits : Option Nat) : String :=
  s!"Exceeds the limit ({allowed} digits) for integer string conversion"
    ++ digits.elim "" (fun n => s!": value has {n} digits")
    ++ "; use sys.set_int_max_str_digits() to increase the limit"

def digits (s : List Char) : List Char × List Char :=
  s.span Char.isDigit

def digitsValue (ds : List Char) : Nat :=
  ds.foldl (fun n d => n * 10 + (d.toNat - 48)) 0

/-- The exponent at the start of a text: a letter, perhaps a sign, and at least one digit. -/
def exponent? (s : List Char) : Option Int × List Char :=
  match s with
  | c :: rest =>
      if c = 'e' ∨ c = 'E' then
        let (negative, behind) :=
          match rest with
          | '-' :: behind => (true, behind)
          | '+' :: behind => (false, behind)
          | _ => (false, rest)
        let (ds, after) := digits behind
        if ds.isEmpty then (none, s)
        else (some (if negative then -(digitsValue ds : Int) else digitsValue ds), after)
      else (none, s)
  | [] => (none, s)

end LexicalPath.Decimal
