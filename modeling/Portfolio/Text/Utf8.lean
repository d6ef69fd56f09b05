/-! # UTF-8

Octets are read in chunks: a chunk is a character, or a maximal run of octets that starts no
character. Strict reading wants characters only; lenient reading puts U+FFFD for every other
chunk. -/

namespace Portfolio.Utf8

/-- A character begun: the octets still owed, the range of the next one, and the bits so far. -/
structure Pending where
  owed : Nat
  least : Nat
  greatest : Nat
  bits : Nat

/-- What an octet is at the start of a chunk. -/
inductive Lead where
  | char (c : Char)
  | pending (p : Pending)
  | stray

/-- Reads the first octet of a chunk. The ranges leave out overlong forms and surrogates. -/
def lead (b : Nat) : Lead :=
  if b < 0x80 then .char (Char.ofNat b)
  else if 0xC2 ≤ b ∧ b ≤ 0xDF then .pending ⟨1, 0x80, 0xBF, b - 0xC0⟩
  else if b = 0xE0 then .pending ⟨2, 0xA0, 0xBF, 0⟩
  else if b = 0xED then .pending ⟨2, 0x80, 0x9F, 0xD⟩
  else if 0xE1 ≤ b ∧ b ≤ 0xEF then .pending ⟨2, 0x80, 0xBF, b - 0xE0⟩
  else if b = 0xF0 then .pending ⟨3, 0x90, 0xBF, 0⟩
  else if 0xF1 ≤ b ∧ b ≤ 0xF3 then .pending ⟨3, 0x80, 0xBF, b - 0xF0⟩
  else if b = 0xF4 then .pending ⟨3, 0x80, 0x8F, 4⟩
  else .stray

/-- The chunks of the octets after a character begun; `none` is a chunk that is no character. -/
def chunksFrom : Option Pending → List UInt8 → List (Option Char)
  | none, [] => []
  | some _, [] => [none]
  | none, b :: bs =>
    match lead b.toNat with
    | .char c => some c :: chunksFrom none bs
    | .pending p => chunksFrom (some p) bs
    | .stray => none :: chunksFrom none bs
  | some p, b :: bs =>
    if p.least ≤ b.toNat ∧ b.toNat ≤ p.greatest then
      let bits := p.bits * 64 + (b.toNat - 0x80)
      if p.owed ≤ 1 then some (Char.ofNat bits) :: chunksFrom none bs
      else chunksFrom (some ⟨p.owed - 1, 0x80, 0xBF, bits⟩) bs
    else
      none :: match lead b.toNat with
        | .char c => some c :: chunksFrom none bs
        | .pending q => chunksFrom (some q) bs
        | .stray => none :: chunksFrom none bs

def chunks (bs : List UInt8) : List (Option Char) :=
  chunksFrom none bs

/-- The characters, if the octets are nothing else. -/
def decode? (bs : List UInt8) : Option (List Char) :=
  (chunks bs).mapM id

/-- The characters, with U+FFFD for every other chunk. -/
def decodeLossy (bs : List UInt8) : List Char :=
  (chunks bs).map (·.getD '\ufffd')

def encode (s : String) : List UInt8 :=
  s.toUTF8.toList

example : decodeLossy [0x41, 0xE2, 0x82, 0x42, 0xFF] = ['A', '\ufffd', 'B', '\ufffd'] := by
  decide +kernel
example : decode? [0xE2, 0x82, 0xAC] = some ['€'] := by decide +kernel

end Portfolio.Utf8
