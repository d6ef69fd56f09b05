/-! # Hexadecimal digits -/

namespace Portfolio.Hex

def digit? (c : Char) : Option Nat :=
  if c.isDigit then some (c.toNat - '0'.toNat)
  else if 'a' ≤ c ∧ c ≤ 'f' then some (c.toNat - 'a'.toNat + 10)
  else if 'A' ≤ c ∧ c ≤ 'F' then some (c.toNat - 'A'.toNat + 10)
  else none

def number? (cs : List Char) : Option Nat :=
  cs.foldlM (fun n c => (digit? c).map (n * 16 + ·)) 0

/-- The lower-case digit of a value below sixteen. -/
def lower (n : Nat) : Char :=
  Nat.digitChar n

/-- The upper-case digit of a value below sixteen. -/
def upper (n : Nat) : Char :=
  (Nat.digitChar n).toUpper

/-- Two digits for every octet. -/
def encode : List UInt8 → List Char
  | [] => []
  | b :: bs => lower (b.toNat / 16) :: lower (b.toNat % 16) :: encode bs

/-- The octets of an even number of digits. -/
def decode? : List Char → Option (List UInt8)
  | [] => some []
  | a :: b :: cs => do
    let high ← digit? a
    let low ← digit? b
    let bs ← decode? cs
    pure (UInt8.ofNat (high * 16 + low) :: bs)
  | [_] => none

end Portfolio.Hex
