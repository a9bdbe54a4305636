import CredentialRelay.Proofs.Cycle.Calls

/-!
# The fates of entries

Every entry of a secret meets one of four fates: it is of no known kind, it holds no credential, its
credential is refused, or it is stored. Which one it is can be told from the entry itself and from
what the vault answered.

* `Fate mount entry calls record`: the record of an entry, with the call that was made for it.

Results:
* `storeEntries_fates`: every entry meets its fate, and no call is made for anything else.
-/

namespace CredentialRelay

open Log CredentialRelay.Cycle

variable {σ ν : Type}

namespace Cycle

/-- What became of an entry, and the call that was made for it. -/
inductive Fate (mount : String) : String × String → List Call → EntryRecord → Prop
  | unsupported {key value : String} (hkey : Credential.Kind.ofKey? key = none) :
    Fate mount (key, value) [] ⟨key, .unsupported, []⟩
  | faulty {key value : String} {kind : Credential.Kind} {fault : Credential.EntryFault}
      (hkey : Credential.Kind.ofKey? key = some kind)
      (hparse : Credential.parse kind value = .error fault) :
    Fate mount (key, value) [] ⟨key, .failed kind (.fault fault), []⟩
  | refused {key value : String} {kind : Credential.Kind} {credential : Credential}
      {failure : Failure Service.Cause} {log : List Event}
      (hkey : Credential.Kind.ofKey? key = some kind)
      (hparse : Credential.parse kind value = .ok credential) :
    Fate mount (key, value)
      [.store ⟨mount, credential.path, credential.attributes⟩ (.error failure)]
      ⟨key, .failed kind (.store failure), log⟩
  | stored {key value : String} {kind : Credential.Kind} {credential : Credential}
      {log : List Event}
      (hkey : Credential.Kind.ofKey? key = some kind)
      (hparse : Credential.parse kind value = .ok credential) :
    Fate mount (key, value) [.store ⟨mount, credential.path, credential.attributes⟩ (.ok ())]
      ⟨key, .stored kind credential, log⟩

/-- What became of some entries, and the calls that were made for them, in order. -/
inductive Fates (mount : String) : List (String × String) → List Call → List EntryRecord → Prop
  | nil : Fates mount [] [] []
  | cons {entry : String × String} {calls more : List Call} {record : EntryRecord}
      {entries : List (String × String)} {records : List EntryRecord}
      (first : Fate mount entry calls record) (rest : Fates mount entries more records) :
    Fates mount (entry :: entries) (calls ++ more) (record :: records)

theorem storeEntry_fate (services : Services σ ν) (session : ν) (mount key value : String)
    (r : Recorded σ) :
    let done := storeEntry services.recorded session mount key value r
    ∃ calls, done.2.calls = r.calls ++ calls ∧ Fate mount (key, value) calls done.1 := by
  unfold storeEntry
  split
  · next hkey => exact ⟨[], by simp, .unsupported hkey⟩
  · next kind hkey =>
    split
    · next fault hparse => exact ⟨[], by simp, .faulty hkey hparse⟩
    · next credential hparse =>
      have hcalls : (services.recorded.store session mount credential.path credential.attributes
          r).world.calls = r.calls ++ [.store ⟨mount, credential.path, credential.attributes⟩
            (services.recorded.store session mount credential.path credential.attributes r).result] :=
        rfl
      generalize services.recorded.store session mount credential.path credential.attributes r = a
        at hcalls
      obtain ⟨result, log, world⟩ := a
      cases result with
      | error failure => exact ⟨_, hcalls, .refused hkey hparse⟩
      | ok _ => exact ⟨_, hcalls, .stored hkey hparse⟩

/-- **Every entry meets its fate**, and no call is made for anything else. -/
theorem storeEntries_fates (services : Services σ ν) (session : ν) (mount : String) :
    ∀ (entries : List (String × String)) (r : Recorded σ),
      ∃ calls, (storeEntries services.recorded session mount entries r).2.calls =
          r.calls ++ calls ∧
        Fates mount entries calls (storeEntries services.recorded session mount entries r).1
  | [], r => ⟨[], (List.append_nil _).symm, .nil⟩
  | (key, value) :: entries, r => by
    obtain ⟨calls, hcalls, hfate⟩ := storeEntry_fate services session mount key value r
    obtain ⟨more, hmore, hfates⟩ := storeEntries_fates services session mount entries
      (storeEntry services.recorded session mount key value r).2
    refine ⟨calls ++ more, ?_, .cons hfate hfates⟩
    unfold storeEntries
    rw [hmore, hcalls, List.append_assoc]

/-- The records are those of the entries, in their order. -/
theorem Fates.keys {mount : String} {entries : List (String × String)} {calls : List Call}
    {records : List EntryRecord} (h : Fates mount entries calls records) :
    records.map EntryRecord.key = entries.map Prod.fst := by
  induction h with
  | nil => rfl
  | cons first _ ih =>
    rw [List.map_cons, List.map_cons, ih]
    cases first <;> rfl

end Cycle

end CredentialRelay
