import CredentialRelay.Dictionary
import CredentialRelay.Time.Instant

/-!
# Secrets

A secret holds entries in two forms: bytes and texts. It also tells when it was created and when
it was written to; a record of a write may lack its time.
-/

namespace CredentialRelay

/-- What is used of a secret. -/
structure Secret where
  /-- The entries in bytes. -/
  data : Dictionary (List UInt8)
  /-- The entries in text; they count where both forms have a key. -/
  stringData : Dictionary String
  /-- When the secret was created. -/
  created : Option Instant
  /-- The times in the records of the writes to the secret. -/
  writes : List (Option Instant)
  deriving DecidableEq

/-- The secret without entries and times. -/
def Secret.empty : Secret :=
  ⟨Dictionary.empty, Dictionary.empty, none, []⟩

end CredentialRelay
