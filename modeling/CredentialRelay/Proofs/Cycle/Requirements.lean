import CredentialRelay.Proofs.Credential.Path
import CredentialRelay.Proofs.Cycle.NothingLost

/-!
# What is never empty in what is stored

Whatever a cycle asks to be stored is the credential of an entry that it read and accepted. So the
segments of its path and its attributes are as its kind requires, in every cycle and whatever the
services do.

A producer can empty a user name or a password all the same: further attributes come last, and no
one asks whether they are empty.

Results:
* `Course.exists_entry_of_request`: what is asked to be stored is the credential of an entry.
* `requests_filled`: what is stored has what its kind requires.
* `request_without_password`: further attributes may empty a password.
-/

namespace CredentialRelay.Cycle

variable {σ ν : Type}

/-- An entry that is stored is of a known kind and holds a credential. -/
theorem exists_parse_of_planned? {mount : String} {entry : String × String}
    {request : StoredCredential} (h : planned? mount entry = some request) :
    ∃ kind c, Credential.Kind.ofKey? entry.1 = some kind ∧
      Credential.parse kind entry.2 = .ok c ∧ request = ⟨mount, c.path, c.attributes⟩ := by
  obtain ⟨kind, hkind, h⟩ := Option.bind_eq_some_iff.mp h
  obtain ⟨c, hparse, hrequest⟩ := Option.map_eq_some_iff.mp h
  exact ⟨kind, c, hkind, toOption_eq_some_iff.mp hparse, hrequest.symm⟩

/-- **What is asked to be stored is the credential of an entry** that was read. -/
theorem Course.exists_entry_of_request {job : Job} {turn : Turn (Recorded σ)}
    (h : Course job turn.calls turn.outcome turn.job) {request : StoredCredential}
    (hrequest : request ∈ turn.requests) :
    ∃ snapshot, turn.snapshot? = some snapshot ∧
      ∃ entry ∈ snapshot.data.entries, planned? job.credentialMount entry = some request := by
  cases hdone : turn.outcome.isCompleted with
  | true =>
    obtain ⟨snapshot, hcopies, -⟩ := h.copies hdone
    rw [hcopies.requested] at hrequest
    exact ⟨snapshot, hcopies.read, List.mem_filterMap.mp hrequest⟩
  | false =>
    -- A cycle that is not completed asks for nothing to be stored.
    generalize houtcome : turn.outcome = outcome at h hdone
    generalize hcalls : turn.calls = calls at h
    generalize turn.job = next at h
    rw [Turn.requests, hcalls] at hrequest
    cases h with
    | unavailable failure => cases hrequest
    | unchanged snapshot hsame => cases hrequest
    | refused snapshot failure hnew => cases hrequest
    | completed snapshot stores report hnew hstores => cases hdone

/-- **What is stored has what its kind requires.** Every cycle asks only for credentials of entries
that it read to be stored. The type segment and the entity of such a credential are not empty, and
neither is its identifier unless it belongs to a service. A certificate is stored under its three
names and nothing of it is empty. The user name and the password of a service are its own, which are
not empty, unless its further attributes have others, which may be empty. -/
theorem requests_filled (services : Services σ ν) (timing : Timing) (job : Job) (metrics : Metrics)
    (world : σ) :
    let turn := run services.recorded timing job metrics ⟨world, []⟩
    ∀ request ∈ turn.requests, ∃ snapshot key value kind c,
      turn.snapshot? = some snapshot ∧ (key, value) ∈ snapshot.data.entries ∧
      Credential.Kind.ofKey? key = some kind ∧ Credential.parse kind value = .ok c ∧
      c.kind = kind ∧ request = ⟨job.credentialMount, c.path, c.attributes⟩ ∧
      c.typeSegment ≠ "" ∧ c.entity ≠ "" ∧ (kind ≠ .service → c.identifier ≠ "") ∧ c.Filled := by
  intro turn request hrequest
  obtain ⟨calls, hcalls, hcourse⟩ := run_course services timing job metrics ⟨world, []⟩
  have hcourse : Course job turn.calls turn.outcome turn.job := by
    rw [show turn.calls = calls from hcalls]
    exact hcourse
  obtain ⟨snapshot, hread, ⟨key, value⟩, hentry, hplanned⟩ :=
    hcourse.exists_entry_of_request hrequest
  obtain ⟨kind, c, hkind, hparse, hmade⟩ := exists_parse_of_planned? hplanned
  obtain ⟨htype, hentity⟩ := Credential.ne_empty_of_parse hparse
  exact ⟨snapshot, key, value, kind, c, hread, hentry, hkind, hparse,
    Credential.kind_of_parse hparse, hmade, htype, hentity,
    Credential.identifier_ne_empty_of_parse hparse, .of_parse hparse⟩

/-! ## A password that is emptied -/

/-- A service credential whose further attributes have an empty password. -/
def emptiedPassword : String :=
  "\x7b\"entityName\":\"o\",\"credIndetifier\":\"p\",\"userName\":\"u\",\"password\":\"p1\"," ++
    "\"additionalData\":\x7b\"password\":\"\"\x7d\x7d"

/-- A world in which it is all that there is to copy. -/
def emptiedPasswordWorld : Memory :=
  Memory.empty.setSecret ⟨Dictionary.ofList [("SERVICE-CRED-x", emptiedPassword)], ⟨0, 0⟩⟩

/-- The work of copying it. -/
def emptiedPasswordJob : Job :=
  ⟨"sync", "default", "@daily", "secret", none⟩

theorem requests_filled_emptied :
    let turn := run Memory.services.recorded ⟨0, 0⟩ emptiedPasswordJob Metrics.zero
      ⟨emptiedPasswordWorld, []⟩
    let request : StoredCredential := ⟨"secret", "service-cred/o/p",
      Dictionary.ofList [("userName", "u"), ("password", "")]⟩
    request ∈ turn.requests ∧ ∃ snapshot key value kind c, turn.snapshot? = some snapshot ∧
      (key, value) ∈ snapshot.data.entries ∧ Credential.Kind.ofKey? key = some kind ∧
      Credential.parse kind value = .ok c ∧
      request = ⟨"secret", c.path, c.attributes⟩ ∧ c.Filled := by
  intro turn request
  have hrequest : request ∈ turn.requests := by decide +kernel
  obtain ⟨snapshot, key, value, kind, c, hread, hentry, hkind, hparse, -, hmade, -, -, -,
      hfilled⟩ :=
    requests_filled Memory.services ⟨0, 0⟩ emptiedPasswordJob Metrics.zero emptiedPasswordWorld
      request hrequest
  exact ⟨hrequest, snapshot, key, value, kind, c, hread, hentry, hkind, hparse, hmade, hfilled⟩

/-- **An empty password is stored** of a credential that has one which is not empty. -/
theorem request_without_password :
    let cycle := run Memory.services ⟨0, 0⟩ emptiedPasswordJob Metrics.zero emptiedPasswordWorld
    cycle.outcome = .completed ⟨1, 0, 0⟩ ∧
      cycle.world.writes.map (fun write => write.attributes.get? "password") = [some ""] ∧
      (Credential.parse .service emptiedPassword).toOption.map Credential.required =
        some [("userName", "u"), ("password", "p1"), ("entityName", "o")] := by
  decide

end CredentialRelay.Cycle
