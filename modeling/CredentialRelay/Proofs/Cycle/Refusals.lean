import CredentialRelay.Proofs.Cycle.Attempts
import CredentialRelay.Proofs.Cycle.Secrecy
import CredentialRelay.Proofs.Cycle.Telling
import CredentialRelay.Proofs.Cycle.Undecodable
import CredentialRelay.Proofs.Vault.Refusal

/-!
# What is told of a refusal

Whatever the vault says when it refuses, it comes through: to the caller as the root of the failure,
and in a cycle to the end of the one event about the entry that could not be stored.

* `refusedEvent job key kind path root`: the event about an entry that the vault refused to store.

Results:
* `storeEntry_of_isRefused`: what becomes of an entry that the vault refuses to store.
* `run_log_eq`: all that a cycle with an open session tells.
* `reasons_surface`: the reasons of a refusal, from the body of the response to the event.
* `reasons_hidden`: reasons that do not come through, since a member beside them has no name.
-/

namespace CredentialRelay

open Log Json

namespace Vault

/-- A write that is refused tells nothing. -/
theorem Session.log_store_of_isRefused {s : Session} {mount path : String} {attributes : Attributes}
    {server : Server} {response : Http.Response}
    (h : s.IsRefused mount path attributes server response) :
    (s.store mount path attributes server).log = [] := by
  have hfailed := result_sendChecked_of_refused (.writeRefused (Text.trimSlashes mount)
    (Text.trimSlashes path)) h.1 h.2
  unfold storeUrl at hfailed
  unfold store
  dsimp only
  rw [Attempt.telling_of_error (Attempt.result_map_of_error hfailed _)]
  refine List.map_eq_nil_iff.mpr (List.eq_nil_iff_forall_not_mem.mpr ?_)
  exact Attempt.Tells.map (Attempt.Tells.andThen (send_tells _ _ _ _ _ server)
    fun response server => checked_tells _ response server) _

end Vault

namespace Cycle

/-! ## One entry -/

/-- The event about an entry that the vault refused to store. -/
def refusedEvent (job : Job) (key : String) (kind : Credential.Kind) (path root : String) :
    Event where
  level := .error
  component := .job
  message := s!"failed to write {key} secret data to vault: " ++
    s!"Vault rejected write to {Text.trimSlashes job.credentialMount}/{Text.trimSlashes path}: " ++
    root
  fields := [("credential_type", kind.label), ("reason", "write")]
  spans := [span job]

/-- A failure of two causes in one line. -/
theorem line_pair (cause root : Service.Cause) :
    Service.line ⟨cause, [root]⟩ = cause.message ++ ": " ++ root.message := by
  simp [Service.line, Failure.line, Failure.causes]

theorem message_refused (key mount path : String) (root : Vault.Cause) :
    (EntryFailure.store ⟨.vault (.writeRefused mount path), [.vault root]⟩).message key =
      s!"failed to write {key} secret data to vault: " ++
        s!"Vault rejected write to {mount}/{path}: " ++ root.message := by
  have hline : Service.line ⟨.vault (.writeRefused mount path), [.vault root]⟩ =
      s!"Vault rejected write to {mount}/{path}" ++ ": " ++ root.message := line_pair _ _
  unfold EntryFailure.message
  simp only [hline, toString, String.append_assoc]

variable {config : VaultConfig} {session : Vault.Session} {key value : String}
  {kind : Credential.Kind} {credential : Credential} {response : Http.Response}

/-- An entry whose credential cannot be stored has failed. -/
theorem storeEntry_of_store {σ ν : Type} (services : Services σ ν) {session : ν} {mount : String}
    {w : σ} {failure : Failure Service.Cause} (hkey : Credential.Kind.ofKey? key = some kind)
    (hparse : Credential.parse kind value = .ok credential)
    (hstore : (services.store session mount credential.path credential.attributes w).result =
      .error failure) :
    (storeEntry services session mount key value w).1 =
      ⟨key, .failed kind (.store failure),
        (services.store session mount credential.path credential.attributes w).log⟩ := by
  unfold storeEntry
  rw [hkey]
  simp only [hparse, hstore]

/-- **An entry that the vault refuses to store** has failed, and one event tells why. -/
theorem storeEntry_of_isRefused (config : VaultConfig) {job : Job} {w : Surroundings}
    (hkey : Credential.Kind.ofKey? key = some kind)
    (hparse : Credential.parse kind value = .ok credential)
    (h : session.IsRefused job.credentialMount credential.path credential.attributes w.vault
      response) :
    (storeEntry (Surroundings.services config) session job.credentialMount key value w).1.events.map
      (Event.inSpan (span job)) =
        [refusedEvent job key kind credential.path (Vault.refusal response).message] := by
  have hstore : (w.onVault (session.store job.credentialMount credential.path
      credential.attributes)).result = .error ⟨.vault (.writeRefused
        (Text.trimSlashes job.credentialMount) (Text.trimSlashes credential.path)),
        [.vault (Vault.refusal response)]⟩ := by
    rw [Surroundings.result_onVault, Vault.Session.store_of_isRefused h]
    rfl
  have hlog : (w.onVault (session.store job.credentialMount credential.path
      credential.attributes)).log = [] := by
    rw [Surroundings.log_onVault, Vault.Session.log_store_of_isRefused h]
  rw [storeEntry_of_store (Surroundings.services config) hkey hparse hstore]
  simp only [Surroundings.services, hlog]
  exact congrArg (fun message => [(⟨.error, .job, message,
    [("credential_type", kind.label), ("reason", "write")], [span job]⟩ : Event)])
    (message_refused key _ _ (Vault.refusal response))

/-! ## Cycles -/

/-- **All that a cycle with an open session tells**: what is told of the reading, of the session, of
each entry, and of the end. -/
theorem run_log_eq {σ ν : Type} (services : Services σ ν) (timing : Timing) {job : Job}
    (metrics : Metrics) {world : σ} {snapshot : Snapshot} {session : ν}
    (hread : (services.read job.namespaceName job.secretName world).result = .ok snapshot)
    (hnew : job.cursor ≠ some snapshot.lastUpdated)
    (hlogin : (services.login
      (services.read job.namespaceName job.secretName world).world).result = .ok session) :
    let reading := services.read job.namespaceName job.secretName world
    let opened := services.login reading.world
    let records :=
      (storeEntries services session job.credentialMount snapshot.data.entries opened.world).1
    (run services timing job metrics world).log =
      (event .debug .job "Started vault credential sync cycle" :: (reading.log ++
        event .debug .job s!"Found {snapshot.data.size} secret values to sync" :: (opened.log ++
          (records.flatMap EntryRecord.events ++
            [completionEvent (Report.ofRecords records)])))).map (Event.inSpan (span job)) := by
  unfold run attempt
  generalize services.read job.namespaceName job.secretName world = reading at hread hlogin ⊢
  obtain ⟨result, log, after⟩ := reading
  obtain rfl : result = .ok snapshot := hread
  unfold proceed
  dsimp only at hlogin ⊢
  rw [if_neg hnew]
  generalize services.login after = opened at hlogin ⊢
  obtain ⟨result, log, last⟩ := opened
  obtain rfl : result = .ok session := hlogin
  rfl

/-- The event about an entry that was refused is told among the others. -/
theorem run_log_of_isRefused (timing : Timing) (metrics : Metrics) {job : Job}
    {before : Surroundings} {snapshot : Snapshot}
    (hread : (before.read job.namespaceName job.secretName).result = .ok snapshot)
    (hnew : job.cursor ≠ some snapshot.lastUpdated)
    (hlogin : (Surroundings.login config
      (before.read job.namespaceName job.secretName).world).result = .ok session)
    {ahead behind : List (String × String)}
    (hentries : snapshot.data.entries = ahead ++ (key, value) :: behind)
    (hkey : Credential.Kind.ofKey? key = some kind)
    (hparse : Credential.parse kind value = .ok credential)
    (h : session.IsRefused job.credentialMount credential.path credential.attributes
      (storeEntries (Surroundings.services config) session job.credentialMount ahead
        (Surroundings.login config
          (before.read job.namespaceName job.secretName).world).world).2.vault response) :
    refusedEvent job key kind credential.path (Vault.refusal response).message ∈
      (run (Surroundings.services config) timing job metrics before).log := by
  have hevents := storeEntry_of_isRefused config hkey hparse h
  obtain ⟨e, he, hspan⟩ := List.mem_map.mp (hevents.symm ▸ List.mem_singleton_self _)
  rw [run_log_eq (Surroundings.services config) timing metrics hread hnew hlogin, ← hspan]
  refine List.mem_map_of_mem ?_
  simp only [hentries, storeEntries_append, storeEntries_cons, List.flatMap_append,
    List.flatMap_cons, List.mem_cons, List.mem_append]
  exact .inr (.inr (.inr (.inr (.inl (.inr (.inl he))))))

/-- **The reasons of a refusal come through.** Opening a session and storing through it fail with
what was tried and one root, if the last response is no success. The root is the reasons that the
body tells, joined by semicolons, and the status with the whole body where it tells none. In a cycle
one event about the entry is told, an error, and the root is its end. -/
theorem reasons_surface :
    (∀ {o : Vault.Opening} {address : String} {server : Vault.Server} {response : Http.Response},
      o.IsRefused address server response →
      (o.run address server).result = .error ⟨o.context, [Vault.refusal response]⟩) ∧
    (∀ {s : Vault.Session} {mount path : String} {attributes : Attributes} {server : Vault.Server}
      {response : Http.Response}, s.IsRefused mount path attributes server response →
      (s.store mount path attributes server).result = .error ⟨.writeRefused
        (Text.trimSlashes mount) (Text.trimSlashes path), [Vault.refusal response]⟩) ∧
    (∀ {response : Http.Response} {v : Json.Value} {reasons : List String},
      Json.Holds response.text v → Vault.TellsReasons v reasons →
      (Vault.refusal response).message =
        s!"Vault API error (HTTP {response.status}): " ++ "; ".intercalate reasons) ∧
    (∀ {response : Http.Response},
      (∀ v reasons, Json.Holds response.text v → ¬Vault.TellsReasons v reasons) →
      (Vault.refusal response).message =
        s!"HTTP {response.status} (status: {Http.showStatus response.status}): {response.text}") ∧
    ∀ {config : VaultConfig} {job : Job} {before : Surroundings} {snapshot : Snapshot}
      {session : Vault.Session} (timing : Timing) (metrics : Metrics),
      (before.read job.namespaceName job.secretName).result = .ok snapshot →
      job.cursor ≠ some snapshot.lastUpdated →
      let opened := Surroundings.login config (before.read job.namespaceName job.secretName).world
      opened.result = .ok session →
      ∀ {ahead behind : List (String × String)} {key value : String} {kind : Credential.Kind}
        {credential : Credential} {response : Http.Response},
        snapshot.data.entries = ahead ++ (key, value) :: behind →
        Credential.Kind.ofKey? key = some kind →
        Credential.parse kind value = .ok credential →
        let services := Surroundings.services config
        let reached := (storeEntries services session job.credentialMount ahead opened.world).2
        session.IsRefused job.credentialMount credential.path credential.attributes reached.vault
          response →
        let told := refusedEvent job key kind credential.path (Vault.refusal response).message
        (storeEntry services session job.credentialMount key value reached).1.events.map
            (Event.inSpan (span job)) = [told] ∧
          told ∈ (run services timing job metrics before).log := by
  refine ⟨Vault.Opening.run_of_isRefused, Vault.Session.store_of_isRefused, fun h htells => ?_,
    fun h => ?_, ?_⟩
  · rw [Vault.refusal_of_reasons h htells]
    rfl
  · rw [Vault.refusal_of_no_reasons h]
    rfl
  · intro config job before snapshot session timing metrics hread hnew opened hlogin ahead behind
      key value kind credential response hentries hkey hparse services reached h told
    exact ⟨storeEntry_of_isRefused config hkey hparse h,
      run_log_of_isRefused timing metrics hread hnew hlogin hentries hkey hparse h⟩

/-- A response with reasons, one of them with an escape, beside a member that does not matter. -/
def denied : Http.Response :=
  ⟨403, Text.Utf8.encode
    "\x7b\"warnings\":[null],\"errors\":[\"denied\",\"r\\u00e9vis\u00e9\"]\x7d".toList, none⟩

/-- A response that is not from the vault. -/
def badGateway : Http.Response :=
  ⟨502, Text.Utf8.encode "<html>".toList, none⟩

theorem reasons_surface_denied :
    let address := "http://vault:8200"
    let server (response : Http.Response) : Vault.Server :=
      ⟨.working, .joined, [.respond response], []⟩
    let opening : Vault.Opening := .known "t"
    let session : Vault.Session := ⟨address, "t"⟩
    let credential : Credential := .generic ⟨"a", "b", "c", .empty⟩
    let root := "Vault API error (HTTP 403): denied; r\u00e9vis\u00e9"
    (Vault.refusal denied).message = root ∧
      (Vault.refusal badGateway).message = "HTTP 502 (status: 502 Bad Gateway): <html>" ∧
      (opening.run address (server denied)).result =
        .error ⟨opening.context, [Vault.refusal denied]⟩ ∧
      (session.store "secret" "a/b/c" .empty (server badGateway)).result =
        .error ⟨.writeRefused (Text.trimSlashes "secret") (Text.trimSlashes "a/b/c"),
          [Vault.refusal badGateway]⟩ ∧
      refusedEvent answeringJob "GENERIC" .generic credential.path (Vault.refusal denied).message ∈
        (run (Surroundings.services tokenConfig) ⟨0, 0⟩ answeringJob Metrics.zero
          (answering [.respond denied])).log := by
  intro address server opening session credential root
  obtain ⟨hopening, hstoring, hreasons, hrest, hcycle⟩ := reasons_surface
  have hdenied : (Vault.refusal denied).message = root := by
    have hdecode : Json.decode (Vault.errorsShape.read []) denied.text =
        .ok ["denied", "r\u00e9vis\u00e9"] := by decide
    obtain ⟨v, hholds, htells⟩ := (Vault.decode_errors_iff (List.cons_ne_nil _ _)).mp hdecode
    rw [hreasons hholds htells]
    decide
  have hgateway : (Vault.refusal badGateway).message =
      "HTTP 502 (status: 502 Bad Gateway): <html>" := by
    have hdecode : (Json.decode (Vault.errorsShape.read []) badGateway.text).toOption = none := by
      decide
    have hnone (v reasons) (hholds : Holds badGateway.text v) : ¬Vault.TellsReasons v reasons := by
      intro htells
      rw [(Vault.decode_errors_iff htells.1).mpr ⟨v, hholds, htells⟩] at hdecode
      cases hdecode
    rw [hrest hnone]
    decide
  have hopen : opening.IsRefused address (server denied) denied :=
    ⟨by decide, by decide⟩
  have hstore : session.IsRefused "secret" "a/b/c" .empty (server badGateway) badGateway :=
    ⟨by decide, by decide⟩
  have hlogin : (Surroundings.login tokenConfig
      ((answering [.respond denied]).read answeringJob.namespaceName
        answeringJob.secretName).world).result = .ok session := by
    rw [world_read_answering, ← toOption_eq_some_iff]
    decide
  have hparse : Credential.parse .generic "[\"a\",\"b\",\"c\"]" = .ok credential := by
    decide
  have hentries : answeringSnapshot.data.entries =
      [] ++ ("GENERIC", "[\"a\",\"b\",\"c\"]") :: [] := by decide
  have hkey : Credential.Kind.ofKey? "GENERIC" = some .generic := by decide
  have hrefused : session.IsRefused answeringJob.credentialMount credential.path
      credential.attributes (storeEntries (Surroundings.services tokenConfig) session
        answeringJob.credentialMount [] (Surroundings.login tokenConfig
          ((answering [.respond denied]).read answeringJob.namespaceName
            answeringJob.secretName).world).world).2.vault denied := by
    rw [world_read_answering]
    exact ⟨by decide, by decide⟩
  have htold := (@hcycle tokenConfig answeringJob (answering [.respond denied]) answeringSnapshot
    session ⟨0, 0⟩ Metrics.zero (read_answering _) nofun hlogin [] [] "GENERIC" _ .generic
    credential denied hentries hkey hparse hrefused).2
  exact ⟨hdenied, hgateway, hopening hopen, hstoring hstore, htold⟩

/-- An object with one reason, beside a member whose name is half of a surrogate pair. -/
def unnamedBeside : Items .object :=
  .item Blanks.none (.member Blanks.none [.code ⟨'d', rfl⟩ ⟨'8', rfl⟩ ⟨'0', rfl⟩ ⟨'0', rfl⟩]
      Blanks.none Blanks.none) (.scalar .null)
    (.item Blanks.none (plainKey "errors")
      (.bracketed .list (.item Blanks.none (.element Blanks.none)
        (.scalar (.string (plainGlyphs "denied"))) (.close Blanks.none)))
      (.close Blanks.none))

/-- **Reasons that do not come through**: the only `errors` of an object is a list of one string,
and the root is the whole body, since another member of the object has no name. -/
theorem reasons_hidden :
    let text := "\x7b\"\\ud800\":null,\"errors\":[\"denied\"]\x7d"
    let response : Http.Response := ⟨403, Text.Utf8.encode text.toList, none⟩
    let server : Vault.Server := ⟨.working, .joined, [.respond response], []⟩
    Holds response.text (.bracketed .object unnamedBeside) ∧
      unnamedBeside.members.Gives "errors" (Value.list? Value.string?) ["denied"] ∧
      (Vault.Session.withToken "http://vault:8200" "t" server).result =
        .error ⟨.lookupRefused, [.refused 403 text]⟩ ∧
      (Vault.Cause.refused 403 text).message ≠ "Vault API error (HTTP 403): denied" := by
  intro text response server
  exact ⟨⟨Blanks.none, Blanks.none, by decide⟩, ⟨_, rfl, by decide⟩,
    by decide, by decide⟩

end Cycle

end CredentialRelay
