/-!
The shortest decimal that reads back as a given binary number. A finite positive number is taken
apart as `mantissa · 2 ^ exponent`; the decimals that round to it fill an interval, whose ends
belong to it when the mantissa is even. Of one digit, two digits and so on, the first grid of
decimals with a point in the interval is taken, and on it the point nearer to the number.
-/

namespace LexicalPath.Decimal

-- Powers are the core library's, also where a later module brings other instances.
attribute [local instance (high)] instPowNat

/-- A positive binary number, `mantissa · 2 ^ exponent`. -/
structure Binary where
  mantissa : Nat
  exponent : Int
  /-- Whether the gap to the next number below is half the gap to the next one above. -/
  narrowBelow : Bool

/-- A decimal, `coefficient · 10 ^ exponent`. -/
structure Scientific where
  coefficient : Nat
  exponent : Int
  deriving DecidableEq

/-- The low bits of a floating-point number, which hold its fraction. -/
def fractionBits : Nat := 52

/-- The bits above the fraction, which hold the exponent. The sign is the bit above these. -/
def scaleBits : Nat := 11

def Binary.ofBits (bits : Nat) : Binary :=
  let fraction := bits % 2 ^ fractionBits
  let scale : Nat := bits / 2 ^ fractionBits % 2 ^ scaleBits
  if scale = 0 then ⟨fraction, -1074, false⟩
  else ⟨fraction + 2 ^ fractionBits, (scale : Int) - 1075, fraction == 0 && scale != 1⟩

/-- Whether `a · 10 ^ e ≤ b · 2 ^ k`. -/
def decimalLeBinary (a : Nat) (e : Int) (b : Nat) (k : Int) : Bool :=
  a * 10 ^ e.toNat * 2 ^ (-k).toNat ≤ b * 2 ^ k.toNat * 10 ^ (-e).toNat

/-- Whether `a · 10 ^ e < b · 2 ^ k`. -/
def decimalLtBinary (a : Nat) (e : Int) (b : Nat) (k : Int) : Bool :=
  a * 10 ^ e.toNat * 2 ^ (-k).toNat < b * 2 ^ k.toNat * 10 ^ (-e).toNat

/-- Whether the decimal `coefficient · 10 ^ e` rounds to the number. The ends of the interval lie
halfway to the two neighbours. -/
def Binary.readsBack (x : Binary) (coefficient : Nat) (e : Int) : Bool :=
  let low := 4 * x.mantissa - (if x.narrowBelow then 1 else 2)
  let high := 4 * x.mantissa + 2
  let k := x.exponent - 2
  if x.mantissa % 2 = 0 then
    !decimalLtBinary coefficient e low k && decimalLeBinary coefficient e high k
  else !decimalLeBinary coefficient e low k && decimalLtBinary coefficient e high k

/-- The greatest `n` with `n · 10 ^ e` at most the number. -/
def Binary.floorAt (x : Binary) (e : Int) : Nat :=
  x.mantissa * 2 ^ x.exponent.toNat * 10 ^ (-e).toNat
    / (2 ^ (-x.exponent).toNat * 10 ^ e.toNat)

/-- The least power of ten above the number, of the three that its binary length allows. -/
def Binary.decade (x : Binary) : Int :=
  let start := (x.mantissa.log2 + x.exponent) * 30103 / 100000
  if !decimalLeBinary 1 start x.mantissa x.exponent then start
  else if !decimalLeBinary 1 (start + 1) x.mantissa x.exponent then start + 1
  else start + 2

/-- A point of the grid with step `10 ^ e` that rounds to the number. Of two the nearer one is
taken, and of two at the same distance the one with an even coefficient. -/
def Binary.onGrid? (x : Binary) (e : Int) : Option Scientific :=
  let below := x.floorAt e
  let above := below + 1
  match x.readsBack below e, x.readsBack above e with
  | true, false => some ⟨below, e⟩
  | false, true => some ⟨above, e⟩
  | false, false => none
  | true, true =>
      -- the middle of the two points is `(below + above) / 2`
      if decimalLtBinary (below + above) e (2 * x.mantissa) x.exponent then some ⟨above, e⟩
      else if decimalLeBinary (below + above) e (2 * x.mantissa) x.exponent then
        some ⟨if below % 2 = 0 then below else above, e⟩
      else some ⟨below, e⟩

/-- Tries grids of more and more digits. -/
def Binary.search (x : Binary) (decade : Int) : Nat → Nat → Scientific
  | _, 0 => ⟨x.floorAt (decade - 17), decade - 17⟩
  | digits, fuel + 1 =>
      match x.onGrid? (decade - digits) with
      | some s => s
      | none => x.search decade (digits + 1) fuel

/-- A decimal whose coefficient does not end in zero, as far as `fuel` zeros go. -/
def Scientific.stripped (s : Scientific) : Nat → Scientific
  | 0 => s
  | fuel + 1 =>
      if s.coefficient ≠ 0 ∧ s.coefficient % 10 = 0 then
        Scientific.stripped ⟨s.coefficient / 10, s.exponent + 1⟩ fuel
      else s

/-- The shortest decimal that reads back as the number. Seventeen digits are always enough. -/
def Binary.shortest (x : Binary) : Scientific :=
  if x.mantissa = 0 then ⟨0, 0⟩
  else (x.search x.decade 1 17).stripped 17

/-- The number nearest to a decimal, with a sign. Decimals beyond the range become infinite or
zero. -/
def toFloat (negative : Bool) (s : Scientific) : Float :=
  let size :=
    if s.coefficient = 0 then 0.0
    else
      let digits := ((Nat.toDigits 10 s.coefficient).length : Int) + s.exponent
      if digits > 400 then 1.0 / 0.0
      else if digits < -400 then 0.0
      else if 0 ≤ s.exponent then
        OfScientific.ofScientific (s.coefficient * 10 ^ s.exponent.toNat) false 0
      else OfScientific.ofScientific s.coefficient true (-s.exponent).toNat
  if negative then -size else size

end LexicalPath.Decimal
