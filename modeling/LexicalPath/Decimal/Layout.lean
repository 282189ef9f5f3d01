import LexicalPath.Decimal.Shortest

namespace LexicalPath.Decimal

-- Powers are the core library's, also where a later module brings other instances.
attribute [local instance (high)] instPowNat

/-- The decisions of a layout. The point of a decimal is the number of digits in front of it,
counted from the first digit that is not zero. -/
structure Layout where
  /-- The least point that is written positionally. -/
  firstPoint : Int
  /-- The greatest point that is written positionally. -/
  lastPoint : Int
  /-- The least number of digits in an exponent. -/
  exponentDigits : Nat

def padded (width n : Nat) : List Char :=
  let digits := Nat.toDigits 10 n
  List.replicate (width - digits.length) '0' ++ digits

/-- Digits with a point behind the first `point` of them; there is a digit on both sides. -/
def positional (digits : List Char) (point : Int) : List Char :=
  if point ≤ 0 then "0.".toList ++ List.replicate (-point).toNat '0' ++ digits
  else if digits.length ≤ point.toNat then
    digits ++ List.replicate (point.toNat - digits.length) '0' ++ ".0".toList
  else digits.take point.toNat ++ '.' :: digits.drop point.toNat

/-- Digits with a point behind the first, and an exponent with a sign. -/
def exponential (layout : Layout) (digits : List Char) (point : Int) : List Char :=
  let exponent := point - 1
  let mark := if exponent < 0 then '-' else '+'
  let fraction := digits.drop 1
  digits.take 1 ++ (if fraction.isEmpty then [] else '.' :: fraction)
    ++ 'e' :: mark :: padded layout.exponentDigits exponent.natAbs

def Layout.render (layout : Layout) (s : Scientific) : List Char :=
  let digits := Nat.toDigits 10 s.coefficient
  let point := if s.coefficient = 0 then 1 else digits.length + s.exponent
  if layout.firstPoint ≤ point ∧ point ≤ layout.lastPoint then positional digits point
  else exponential layout digits point

/-- A floating-point number as text, by the shortest decimal that reads back as it. -/
def Layout.renderFloat (layout : Layout) (x : Float) : String :=
  if x.isNaN then "nan"
  else
    let bits := x.toBits.toNat
    let size :=
      if x.isInf then "inf"
      else String.ofList (layout.render (Binary.ofBits bits).shortest)
    if bits < 2 ^ (fractionBits + scaleBits) then size else "-" ++ size

end LexicalPath.Decimal
