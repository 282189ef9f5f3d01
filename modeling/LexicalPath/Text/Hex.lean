namespace LexicalPath.Text

-- Powers are the core library's, also where a later module brings other instances.
attribute [local instance (high)] instPowNat

def lowerDigit (d : Nat) : Char :=
  Char.ofNat (if d < 10 then 48 + d else 87 + d)

def upperDigit (d : Nat) : Char :=
  Char.ofNat (if d < 10 then 48 + d else 55 + d)

/-- The lowest `width` hexadecimal digits of a number, the highest first. -/
def hex (digit : Nat → Char) : Nat → Nat → List Char
  | 0, _ => []
  | width + 1, n => hex digit width (n / 16) ++ [digit (n % 16)]

def hexValue? (c : Char) : Option Nat :=
  if '0' ≤ c ∧ c ≤ '9' then some (c.toNat - 48)
  else if 'a' ≤ c ∧ c ≤ 'f' then some (c.toNat - 87)
  else if 'A' ≤ c ∧ c ≤ 'F' then some (c.toNat - 55)
  else none

/-- The number that a text of hexadecimal digits stands for, with `high` in front of it. -/
def hexNumber? (high : Nat) : List Char → Option Nat
  | [] => some high
  | c :: rest => (hexValue? c).bind fun d => hexNumber? (high * 16 + d) rest

@[simp] theorem length_hex (digit : Nat → Char) (width n : Nat) :
    (hex digit width n).length = width := by
  induction width generalizing n with
  | zero => rfl
  | succ width ih => simp [hex, ih]

theorem hexValue?_lowerDigit : ∀ d < 16, hexValue? (lowerDigit d) = some d := by decide

theorem hexValue?_upperDigit : ∀ d < 16, hexValue? (upperDigit d) = some d := by decide

theorem hexNumber?_append (high : Nat) (s t : List Char) :
    hexNumber? high (s ++ t) = (hexNumber? high s).bind fun n => hexNumber? n t := by
  induction s generalizing high with
  | nil => rfl
  | cons c rest ih =>
      simp only [List.cons_append, hexNumber?, ih]
      cases hexValue? c <;> rfl

theorem hexNumber?_hex {digit : Nat → Char} (hdigit : ∀ d < 16, hexValue? (digit d) = some d)
    (high width n : Nat) :
    hexNumber? high (hex digit width n) = some (high * 16 ^ width + n % 16 ^ width) := by
  induction width generalizing n with
  | zero => simp [hex, hexNumber?, Nat.mod_one]
  | succ width ih =>
      have hlast : hexValue? (digit (n % 16)) = some (n % 16) :=
        hdigit _ (Nat.mod_lt _ (by decide))
      have hsplit : n % 16 ^ (width + 1) = n / 16 % 16 ^ width * 16 + n % 16 := by
        rw [Nat.pow_succ, Nat.mul_comm (16 ^ width), Nat.mod_mul]
        omega
      rw [hex, hexNumber?_append, ih, hsplit]
      simp only [Option.bind_some, hexNumber?, hlast, Nat.pow_succ]
      congr 1
      rw [← Nat.mul_assoc]
      omega

end LexicalPath.Text
