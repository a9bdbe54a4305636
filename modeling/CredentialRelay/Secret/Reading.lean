import CredentialRelay.Failure
import CredentialRelay.Log
import CredentialRelay.Secret.Basic
import CredentialRelay.Text.Utf8
import CredentialRelay.Time.Rfc3339

/-!
# Reading secrets

The entries of a secret are read in two ways. `Secret.texts` reads all of them and never fails:
bytes that are not UTF-8 become a text with replacement characters, and a warning. `Secret.text`
reads one of them and fails where it is missing or not UTF-8.

The time of a secret is the latest of its writes, or else that of its creation. Each of them is
written as a timestamp without a fraction and read back from that. A time that cannot be read back
is passed over with a warning.

Models `secret_string_data` (`texts`), `secret_value` (`text`) and `last_updated_time`
(`lastUpdated?`).
-/

namespace CredentialRelay.Secret

open Log

/-- Why a single entry cannot be read. -/
inductive Cause where
  | missing (key : String)
  | notUtf8 (key : String)
  /-- Where the bytes stop being UTF-8. -/
  | utf8 (error : Text.Utf8.Error)
  deriving Repr, DecidableEq

/-- The wording of each cause. -/
def Cause.message : Cause → String
  | .missing key => s!"Key '{key}' not found"
  | .notUtf8 key => s!"Value of key '{key}' is not valid UTF-8"
  | .utf8 error => error.message

/-- The entries in text, the bytes among them read as far as they go. -/
def texts (s : Secret) : Dictionary String :=
  (s.data.mapValues Text.Utf8.decodeLossy).merge s.stringData

/-- The warning about an entry whose bytes are not UTF-8. -/
def textWarning? (entry : String × List UInt8) : Option Event :=
  match Text.Utf8.decode entry.2 with
  | .ok _ => none
  | .error error =>
    some (event .warn .source s!"Value of key '{entry.1}' is not valid UTF-8: {error.message}")

/-- The warnings about entries whose bytes are not UTF-8. -/
def textWarnings (s : Secret) : List Event :=
  s.data.entries.filterMap textWarning?

/-- A single entry in text. -/
def text (s : Secret) (key : String) : Except (Failure Cause) String :=
  match s.stringData.get? key with
  | some value => .ok value
  | none =>
    match s.data.get? key with
    | none => fail (.missing key)
    | some bytes =>
      match Text.Utf8.decode bytes with
      | .ok value => .ok value
      | .error error => within (.notUtf8 key) (fail (.utf8 error))

/-! ## Times -/

/-- Writes a time without its fraction and reads it back. -/
def readBack (t : Instant) : Except Timestamp.Fault Instant :=
  Timestamp.parseStrict t.truncated.describe

/-- A time without its fraction, if it can be read back. -/
def wholeTime? (t : Instant) : Option Instant :=
  (readBack t).toOption

/-- The warning about a time that cannot be read back. -/
def timeWarning? (t : Instant) : Option Event :=
  match readBack t with
  | .ok _ => none
  | .error fault => some (event .warn .source
    s!"Failed to parse secret metadata timestamp '{t.truncated.describe}': {fault.message}")

/-- The latest of some times. -/
def latest? : List Instant → Option Instant
  | [] => none
  | t :: ts => some (ts.foldl Instant.latest t)

/-- The latest of the writes whose time can be read back. -/
def lastWrite? (s : Secret) : Option Instant :=
  latest? (s.writes.filterMap fun time => time.bind wholeTime?)

/-- The time of the secret. -/
def lastUpdated? (s : Secret) : Option Instant :=
  (lastWrite? s).or (s.created.bind wholeTime?)

/-- The warnings about times that were looked at and cannot be read back. -/
def timeWarnings (s : Secret) : List Event :=
  s.writes.filterMap (fun time => time.bind timeWarning?) ++
    if (lastWrite? s).isSome then [] else (s.created.bind timeWarning?).toList

end CredentialRelay.Secret
