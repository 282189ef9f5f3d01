namespace LexicalPath.Yaml.Base64

def value? (c : Char) : Option Nat :=
  if 'A' ≤ c ∧ c ≤ 'Z' then some (c.toNat - 'A'.toNat)
  else if 'a' ≤ c ∧ c ≤ 'z' then some (c.toNat - 'a'.toNat + 26)
  else if '0' ≤ c ∧ c ≤ '9' then some (c.toNat - '0'.toNat + 52)
  else if c = '+' then some 62
  else if c = '/' then some 63
  else none

/-- The bytes of a text. `count` characters of four were read, whose bits that belong to no byte yet
are `left`; `pads` equals signs stand right in front. -/
def decodeFrom (count left pads : Nat) : List Char → Option (List UInt8)
  | [] => if count = 0 then some [] else none
  | c :: rest =>
      if c = '=' then
        if count < 2 then decodeFrom count left pads rest
        else if 4 ≤ count + pads + 1 then some []
        else decodeFrom count left (pads + 1) rest
      else
        match value? c with
        | none => decodeFrom count left pads rest
        | some v =>
            let byte (n : Nat) (behind : Option (List UInt8)) : Option (List UInt8) :=
              behind.map (n.toUInt8 :: ·)
            match count with
            | 0 => decodeFrom 1 v 0 rest
            | 1 => byte (left * 4 + v / 16) (decodeFrom 2 (v % 16) 0 rest)
            | 2 => byte (left * 16 + v / 4) (decodeFrom 3 (v % 4) 0 rest)
            | _ => byte (left * 64 + v) (decodeFrom 0 0 0 rest)

def decode? (s : List Char) : Option (List UInt8) :=
  if s.all fun c => c.toNat < 128 then decodeFrom 0 0 0 s else none

end LexicalPath.Yaml.Base64
