import Federation.Digest.Sha256

/-!
HMAC (RFC 2104) over SHA-256.
-/

namespace Federation.Digest

def blockBytes : Nat := 64

/-- The key as one block: a longer key is hashed first, a shorter one is filled up with zeros. -/
def keyBlock (key : List UInt8) : List UInt8 :=
  let key := if blockBytes < key.length then sha256 key else key
  key ++ List.replicate (blockBytes - key.length) 0

def hmac (key message : List UInt8) : List UInt8 :=
  let inner := sha256 ((keyBlock key).map (· ^^^ 0x36) ++ message)
  sha256 ((keyBlock key).map (· ^^^ 0x5c) ++ inner)

theorem length_hmac (key message : List UInt8) : (hmac key message).length = 32 :=
  length_sha256 _

end Federation.Digest
