import Portfolio.Digest.Sha256

/-! # Keyed digests

HMAC over SHA-256: the message is digested under two keys that are made from one. -/

namespace Portfolio.Digest

def blockSize : Nat := 64

/-- The key of exactly one block: a long one is digested, and zeros fill it up. -/
def blockKey (key : List UInt8) : List UInt8 :=
  let key := if blockSize < key.length then Sha256.digest key else key
  key ++ List.replicate (blockSize - key.length) 0

def hmacSha256 (key message : List UInt8) : List UInt8 :=
  let key := blockKey key
  let inner := Sha256.digest (key.map (· ^^^ 0x36) ++ message)
  Sha256.digest (key.map (· ^^^ 0x5c) ++ inner)

end Portfolio.Digest
