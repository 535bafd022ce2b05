import HttpDns.Digest.Sha256
import HttpDns.Text.Form

/-!
# Signatures

A signature is the SHA-256 digest of a subject, a secret and the second after which it is no longer
accepted, with hyphens between them. That second is the present one plus the whole seconds of the
validity, and stays at the greatest 64-bit number when the sum would pass it.
-/

namespace HttpDns

structure Signature where
  /-- the digest in hexadecimal -/
  text : String
  /-- unix seconds after which it is refused -/
  timestamp : Nat
  deriving DecidableEq, Repr

/-- Signs a subject with a secret for a validity in milliseconds from a unix second. -/
abbrev Signer := (subject secret : String) → (validityMs now : Nat) → Signature

namespace Signature

/-- The greatest second a timestamp can hold. -/
def lastSecond : Nat := UInt64.size - 1

def expiry (validityMs now : Nat) : Nat :=
  min (now + validityMs / 1000) lastSecond

/-- The text that is hashed. -/
def message (subject secret : String) (timestamp : Nat) : String :=
  subject ++ "-" ++ secret ++ "-" ++ toString timestamp

/-- The signer that hashes with SHA-256. -/
def sign : Signer := fun subject secret validityMs now =>
  let timestamp := expiry validityMs now
  let digest := Digest.Sha256.digest (Text.Form.utf8 (message subject secret timestamp))
  ⟨String.ofList (Digest.Sha256.hex digest), timestamp⟩

end Signature

end HttpDns
