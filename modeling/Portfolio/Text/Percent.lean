import Portfolio.Text.Hex

/-! # Percent encoding

An octet that is a letter or digit of ASCII or one of `-_.~` stands for itself; every other one is a
percent sign and two upper-case hexadecimal digits. -/

namespace Portfolio.Percent

/-- Stands for itself. -/
def isPlain (b : UInt8) : Bool :=
  let c := Char.ofNat b.toNat
  c.isAlphanum || c == '-' || c == '_' || c == '.' || c == '~'

def encodeOctet (b : UInt8) : List Char :=
  if isPlain b then [Char.ofNat b.toNat]
  else ['%', Hex.upper (b.toNat / 16), Hex.upper (b.toNat % 16)]

def encode (bs : List UInt8) : List Char :=
  bs.flatMap encodeOctet

/-- The octets of percent-encoded characters; there are none for other characters. -/
def decode? : List Char → Option (List UInt8)
  | [] => some []
  | '%' :: high :: low :: cs => do
    let high ← Hex.digit? high
    let low ← Hex.digit? low
    let bs ← decode? cs
    pure (UInt8.ofNat (high * 16 + low) :: bs)
  | c :: cs =>
    if c != '%' && c.toNat < 128 then (decode? cs).map (UInt8.ofNat c.toNat :: ·) else none

example : encode [0x61, 0x20, 0xC3] = "a%20%C3".toList := by decide +kernel
example : decode? "a%20%C3".toList = some [0x61, 0x20, 0xC3] := by decide +kernel

end Portfolio.Percent
