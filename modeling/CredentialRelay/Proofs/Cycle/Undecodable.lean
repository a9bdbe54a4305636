import CredentialRelay.Proofs.Cycle.Calls
import CredentialRelay.Proofs.Json.Exposure
import CredentialRelay.Proofs.Secret.Readings
import Mathlib.Control.Monad.Basic

/-!
# Entries that are not UTF-8

An entry of a secret in bytes that are not UTF-8 is read as a text with replacement characters. What
becomes of it is decided by that text alone: if it cannot be decoded the entry is refused, and
nothing is stored for it. A replacement character outside of strings makes sure of that. One in a
string does not, since a string may hold any character, and a credential with replacement characters
is stored.

* `Refused`: nothing was stored for an entry, and it counts as of no known kind or as malformed.
* `Unreadable key value`: no credential of the kind of the key can be decoded from the value.

Results:
* `refused_iff_unreadable`: an entry is refused exactly if its value is unreadable.
* `unreadable_of_exposed`: a replacement character outside of strings makes a value unreadable.
* `undecoded_refused_iff`: both, for an entry that is not UTF-8 among all entries of a cycle.
* `undecoded_stored`: an entry that is not UTF-8 and is stored.
-/

namespace CredentialRelay

/-! ## Credentials -/

namespace Credential

open Json

variable {σ : Type}

theorem textField_hides (name : String) (set : σ → String → σ) (s : σ) :
    HidesNothing ((textField name set).read s) :=
  (orDefault_hides text_hides).map (set s)

theorem attributesField_hides (name : String) (set : σ → Attributes → σ) (s : σ) :
    HidesNothing ((attributesField name set).read s) :=
  (orDefault_hides (dictionary_hides text_hides)).map (set s)

/-- No credential is read from a text with a replacement character outside of strings. -/
theorem decoder_hides (kind : Kind) : HidesNothing (decoder kind) := by
  cases kind with
  | service =>
    refine (Shape.read_hides ?_ _).map Credential.service
    simp [Shape.HidesNothing, serviceShape, textField_hides, attributesField_hides]
  | certificate =>
    refine (Shape.read_hides ?_ _).map Credential.certificate
    simp [Shape.HidesNothing, certificateShape, textField_hides]
  | generic =>
    refine (Shape.read_hides ?_ _).map Credential.generic
    simp [Shape.HidesNothing, genericShape, textField_hides, attributesField_hides]

theorem parse_of_undecoded {kind : Kind} {value : String} {fault : Fault}
    (h : decode (decoder kind) value = .error fault) :
    parse kind value = .error (.malformed value fault) := by
  unfold parse
  rw [h]

/-- A credential that was decoded is refused only for what it misses. -/
theorem eq_incomplete_of_decoded {kind : Kind} {value : String} {credential : Credential}
    {fault : EntryFault} (h : decode (decoder kind) value = .ok credential)
    (hp : parse kind value = .error fault) : fault = .incomplete credential.missing := by
  unfold parse at hp
  rw [h] at hp
  simp only at hp
  split at hp <;> cases hp
  rfl

end Credential

namespace Cycle

variable {σ ν : Type}

/-! ## One entry -/

/-- Whether an entry counts as of no known kind, or as failed because it was not read. -/
def EntryOutcome.IsRefusal : EntryOutcome → Prop
  | .unsupported => True
  | .failed _ failure => failure.reason = "parse"
  | .stored .. => False

/-- Nothing was stored for an entry, and it counts as refused. -/
def Refused (before after : Recorded σ) (record : EntryRecord) : Prop :=
  after.calls = before.calls ∧ record.outcome.IsRefusal

/-- No credential can be read from the value of an entry. -/
def Unreadable (key value : String) : Prop :=
  ∀ kind, Credential.Kind.ofKey? key = some kind →
    ∃ fault, Json.decode (Credential.decoder kind) value = .error fault

/-- **An entry is refused exactly if no credential can be read from it.** -/
theorem refused_iff_unreadable (services : Services σ ν) (session : ν) (mount key value : String)
    (r : Recorded σ) :
    let worked := storeEntry services.recorded session mount key value r
    Refused r worked.2 worked.1 ↔ Unreadable key value := by
  unfold storeEntry Refused Unreadable
  cases hk : Credential.Kind.ofKey? key with
  | none => exact iff_of_true ⟨rfl, trivial⟩ fun kind h => nomatch h
  | some kind =>
    cases hd : Json.decode (Credential.decoder kind) value with
    | error fault =>
      simp only [Credential.parse_of_undecoded hd]
      exact ⟨fun _ k hk' => ⟨fault, Option.some.inj hk' ▸ hd⟩, fun _ => ⟨trivial, rfl⟩⟩
    | ok credential =>
      refine iff_of_false ?_ ?_
      · rintro ⟨-, hrefusal⟩
        simp only at hrefusal
        split at hrefusal
        · next fault hp =>
          rw [Credential.eq_incomplete_of_decoded hd hp] at hrefusal
          exact absurd hrefusal (by decide : "validation" ≠ "parse")
        · split at hrefusal
          · exact hrefusal
          · exact absurd hrefusal (by decide : "write" ≠ "parse")
      · intro h
        obtain ⟨fault, hfault⟩ := h kind rfl
        rw [hd] at hfault
        cases hfault

/-- **A replacement character outside of strings makes a value unreadable.** -/
theorem unreadable_of_exposed {key value : String} (h : Json.Exposed .outside value.toList) :
    Unreadable key value :=
  fun kind _ => Json.decode_error_of_exposed (Credential.decoder_hides kind) h

/-! ## One entry among others -/

theorem storeEntries_cons (services : Services σ ν) (session : ν) (mount key value : String)
    (entries : List (String × String)) (world : σ) :
    storeEntries services session mount ((key, value) :: entries) world =
      let first := storeEntry services session mount key value world
      let rest := storeEntries services session mount entries first.2
      (first.1 :: rest.1, rest.2) := rfl

/-- Entries are worked on one part after another. -/
theorem storeEntries_append (services : Services σ ν) (session : ν) (mount : String)
    (after : List (String × String)) : ∀ (before : List (String × String)) (world : σ),
      storeEntries services session mount (before ++ after) world =
        let first := storeEntries services session mount before world
        let rest := storeEntries services session mount after first.2
        (first.1 ++ rest.1, rest.2)
  | [], _ => rfl
  | (key, value) :: before, world => by
    have ih := storeEntries_append services session mount after before
      (storeEntry services session mount key value world).2
    simp only [List.cons_append, storeEntries_cons, ih]

/-- **An entry that is not UTF-8 is refused exactly if its text cannot be decoded.** In a cycle that
works on the texts of a secret, the entry stands once among all, with replacement characters for
what is not UTF-8. It is refused exactly if no credential can be read from that text, so always if a
replacement character stands outside of strings. Otherwise what the text asks for is stored. -/
theorem undecoded_refused_iff (services : Services σ ν) (timing : Timing) (job : Job)
    (metrics : Metrics) (session : ν) (secret : Secret) (lastUpdated : Instant) (r : Recorded σ)
    {key : String} {bytes : List UInt8} {error : Text.Utf8.Error}
    (hbytes : secret.data.get? key = some bytes) (htext : secret.stringData.get? key = none)
    (herror : Text.Utf8.decode bytes = .error error) :
    let value := Text.Utf8.decodeLossy bytes
    let work := storeEntries services.recorded session job.credentialMount
    let cycle := complete services.recorded timing job metrics ⟨secret.texts, lastUpdated⟩ session r
    ∃ before after,
      secret.texts.entries = before ++ (key, value) :: after ∧
      (∀ entry ∈ before ++ after, entry.1 ≠ key) ∧
      let reached := (work before r).2
      let worked := storeEntry services.recorded session job.credentialMount key value reached
      let records := (work before r).1 ++ worked.1 :: (work after worked.2).1
      cycle.outcome = .completed (Report.ofRecords records) ∧
      cycle.metrics = ((records.foldl (fun m record => record.outcome.count m)
        metrics).observeDuration timing.millis).setLastSync timing.unixSeconds ∧
      cycle.world = (work after worked.2).2 ∧
      (∃ calls, worked.2.calls = reached.calls ++ calls ∧ calls.map Call.request? =
        (planned? job.credentialMount (key, value)).toList.map some) ∧
      '\uFFFD' ∈ value.toList ∧
      (Refused reached worked.2 worked.1 ↔ Unreadable key value) ∧
      (Json.Exposed .outside value.toList → Unreadable key value) := by
  intro value work cycle
  obtain ⟨before, after, hsplit, hothers⟩ :=
    Dictionary.exists_split_of_get? (Secret.get?_texts hbytes htext)
  have hwork : work secret.texts.entries r = _ :=
    (congrArg (work · r) hsplit).trans (storeEntries_append services.recorded session
      job.credentialMount ((key, value) :: after) before r)
  refine ⟨before, after, hsplit, hothers, ?_, ?_, ?_, storeEntry_calls .., ?_,
    refused_iff_unreadable .., unreadable_of_exposed⟩
  · show Outcome.completed (Report.ofRecords (work secret.texts.entries r).1) = _
    rw [hwork]
    rfl
  · show (((work secret.texts.entries r).1.foldl (fun m record => record.outcome.count m)
      metrics).observeDuration timing.millis).setLastSync timing.unixSeconds = _
    rw [hwork]
    rfl
  · show (work secret.texts.entries r).2 = _
    rw [hwork]
    rfl
  · exact Text.Utf8.replacement_mem_of_decode_error herror

/-! ## An entry that is stored -/

/-- A service credential whose password is one byte, which begins no character. -/
def strayByte : List UInt8 :=
  Text.Utf8.encode "\x7b\"entityName\":\"o\",\"credIndetifier\":\"p\",\"userName\":\"u\",".toList ++
    (Text.Utf8.encode "\"password\":\"".toList ++ 0xff :: Text.Utf8.encode "\"\x7d".toList)

/-- A secret that holds it. -/
def strayByteSecret : Secret :=
  ⟨Dictionary.ofList [("SERVICE-CRED-x", strayByte)], Dictionary.empty, none, []⟩

/-- The work of copying it. -/
def strayByteJob : Job :=
  ⟨"sync", "default", "@daily", "secret", none⟩

theorem undecoded_refused_iff_strayByte :
    let value := Text.Utf8.decodeLossy strayByte
    ∃ before after,
      strayByteSecret.texts.entries = before ++ ("SERVICE-CRED-x", value) :: after ∧
      let reached := (storeEntries Memory.services.recorded () "secret" before ⟨.empty, []⟩).2
      let worked := storeEntry Memory.services.recorded () "secret" "SERVICE-CRED-x" value reached
      (Refused reached worked.2 worked.1 ↔ Unreadable "SERVICE-CRED-x" value) := by
  have hbytes : strayByteSecret.data.get? "SERVICE-CRED-x" = some strayByte := by decide
  have htext : strayByteSecret.stringData.get? "SERVICE-CRED-x" = none := by decide
  have herror : Text.Utf8.decode strayByte = .error (.malformed 1 66) := by decide
  obtain ⟨before, after, hsplit, -, -, -, -, -, -, hrefused, -⟩ :=
    undecoded_refused_iff Memory.services ⟨0, 0⟩ strayByteJob Metrics.zero () strayByteSecret
      ⟨0, 0⟩ ⟨.empty, []⟩ hbytes htext herror
  exact ⟨before, after, hsplit, hrefused⟩

/-- **An entry that is not UTF-8 and is stored**, with a replacement character for its password. -/
theorem undecoded_stored :
    let cycle := complete Memory.services ⟨0, 0⟩ strayByteJob Metrics.zero
      ⟨strayByteSecret.texts, ⟨0, 0⟩⟩ () .empty
    Text.Utf8.decode strayByte = .error (.malformed 1 66) ∧
      cycle.outcome = .completed ⟨1, 0, 0⟩ ∧
      cycle.world.writes = [⟨"secret", "service-cred/o/p",
        Dictionary.ofList [("userName", "u"), ("password", "\uFFFD")]⟩] := by
  decide

end Cycle

end CredentialRelay
