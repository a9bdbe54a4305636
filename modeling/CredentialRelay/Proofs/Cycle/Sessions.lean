import CredentialRelay.Proofs.Cycle.History
import CredentialRelay.Proofs.Cycle.Writes
import CredentialRelay.Proofs.Kubernetes.Fetch
import CredentialRelay.Proofs.Vault.Opening

/-!
# One session for each cycle

A cycle asks the cluster for the secret first. Only if that has a new time, it goes on: it may ask
for the secret with the token, it asks the vault for a session, and what it stores is sent with the
token of that session. Nothing that it knows is left from the cycle before, other than the time.

* `Renewed job before secret`: the cluster's next reply is the secret, with a new time.
* `Presents config before opening`: what a session is opened with is in the cluster's reply behind
  it, or in a file.
* `Converses config job before after`: what a cycle may ask of the cluster and of the vault.

Results:
* `run_converses`: every cycle keeps to that.
* `steps_converse`: every cycle of every history does.
-/

namespace CredentialRelay

/-- The paths of the secrets that opening a session takes. -/
def AuthMethod.secretPaths : AuthMethod → List String
  | .token name space _ => [Kubernetes.pathOf space name]
  | .kubernetes .. => []

namespace Cycle

/-- The next reply of the cluster is a secret whose time is not the one that the job remembers. -/
def Renewed (job : Job) (before : Surroundings) (secret : Secret) : Prop :=
  ∃ response rest time, before.cluster.replies = .respond response :: rest ∧
    Kubernetes.readSecret response = .ok secret ∧ secret.lastUpdated? = some time ∧
    job.cursor ≠ some time

/-- What a session is opened with: the value that the cluster's second reply has for the token, or
the content of the file with the proof. -/
inductive Presents (config : VaultConfig) (before : Surroundings) : Vault.Opening → Prop
  | known {name space key value : String} {first second : Http.Response}
      {rest : List Http.Reply} {secret : Secret}
      (hauth : config.auth = .token name space key)
      (hreplies : before.cluster.replies = .respond first :: .respond second :: rest)
      (hsecret : Kubernetes.readSecret second = .ok secret)
      (hvalue : secret.text key = .ok value) :
    Presents config before (.known value)
  | login {role mount path jwt : String} (hauth : config.auth = .kubernetes role mount path)
      (hfile : before.readFile path = .ok jwt) :
    Presents config before (.login mount role jwt)

/-- What a cycle may ask: the paths `secrets` of the cluster, and of the vault first `opening`, to
open a session, and then `storing`, to store through it. -/
structure Conversation (config : VaultConfig) (job : Job) (before : Surroundings)
    (secrets : List String) (opening storing : List (Http.Request Vault.Body)) : Prop where
  /-- The secret comes first, and the one with the token second, if at all. -/
  ordered : secrets <+:
    Kubernetes.pathOf job.namespaceName job.secretName :: config.auth.secretPaths
  /-- Nothing but the secret is asked for unless it has a new time. -/
  gated : secrets.length ≤ 1 ∧ opening = [] ∧ storing = [] ∨ ∃ secret, Renewed job before secret
  /-- The vault is asked to open one session, behind the secret with the token if there is one, and
  with what is presented in this cycle. -/
  opens : opening = [] ∨ ∃ (how : Vault.Opening) (sent : Http.Sent Vault.Body before.vault.locate),
    secrets = Kubernetes.pathOf job.namespaceName job.secretName :: config.auth.secretPaths ∧
    Presents config before how ∧ how.request config.address = .ok sent.first ∧
    opening = sent.asked
  /-- Something is stored only through the session that was opened in this cycle. What is asked then
  are the chains of the planned requests, and every request has the token of the session. -/
  stores : storing = [] ∨ ∃ how session secret, Presents config before how ∧
    how.Granted config.address before.vault opening session ∧ Renewed job before secret ∧
    (∃ sent : List (Http.Sent Vault.Body before.vault.locate),
      storing = sent.flatMap Http.Sent.asked ∧
      sent.map Http.Sent.first = (secret.texts.entries.filterMap
        (planned? job.credentialMount)).filterMap session.request?) ∧
    ∀ request ∈ storing, request.token = some session.token

end Cycle

open CredentialRelay.Cycle

namespace Surroundings

variable {namespaceName name : String} {before s : Surroundings}

/-! ## Reading and opening -/

theorem world_read (namespaceName name : String) (s : Surroundings) :
    (s.read namespaceName name).world =
      { s with cluster := (Kubernetes.fetch namespaceName name s.cluster).world } := by
  have hsame : ((Kubernetes.fetch namespaceName name s.cluster).andThen
      (snapshot namespaceName name)).world =
      (Kubernetes.fetch namespaceName name s.cluster).world := by
    refine Attempt.world_andThen_of_same fun secret cluster => ?_
    unfold snapshot
    split <;> rfl
  exact congrArg (fun cluster => { s with cluster := cluster }) hsame

/-- A snapshot that was read shows the secret that was fetched. -/
theorem read_ok {found : Snapshot} (h : (s.read namespaceName name).result = .ok found) :
    ∃ secret time, (Kubernetes.fetch namespaceName name s.cluster).result = .ok secret ∧
      secret.lastUpdated? = some time ∧ found = ⟨secret.texts, time⟩ := by
  obtain ⟨secret, hfetch, hshown, -⟩ := Attempt.andThen_ok (Attempt.mapCause_ok h)
  unfold snapshot at hshown
  cases htime : secret.lastUpdated? with
  | none =>
    rw [htime] at hshown
    cases hshown
  | some time =>
    rw [htime] at hshown
    cases hshown
    exact ⟨secret, time, hfetch, htime, rfl⟩

theorem world_onVault {α : Type} (s : Surroundings)
    (act : Vault.Server → Attempt Vault.Cause Vault.Server α) :
    (s.onVault act).world = { s with vault := (act s.vault).world } := rfl

theorem log_onVault {α : Type} (s : Surroundings)
    (act : Vault.Server → Attempt Vault.Cause Vault.Server α) :
    (s.onVault act).log = (act s.vault).log := rfl

theorem result_onVault {α : Type} (s : Surroundings)
    (act : Vault.Server → Attempt Vault.Cause Vault.Server α) :
    (s.onVault act).result = (act s.vault).result.mapError (Failure.map .vault) := rfl

/-- What can come of opening a session with a token: it cannot be read, or it is looked up. -/
theorem login_token (config : VaultConfig) {tokenName space key : String}
    (hauth : config.auth = .token tokenName space key) (s : Surroundings) :
    (login config s).world.cluster = (Kubernetes.fetch space tokenName s.cluster).world ∧
      ((∃ failure, (login config s).result = .error failure) ∧
          (login config s).world.vault = s.vault ∨
        ∃ token, (Kubernetes.fetchValue space tokenName key s.cluster).result = .ok token ∧
          (login config s).world.vault =
            ((Vault.Opening.known token).run config.address s.vault).world ∧
          (login config s).result = ((Vault.Opening.known token).run config.address
            s.vault).result.mapError (Failure.map .vault)) := by
  rw [← Kubernetes.world_fetchValue space tokenName key]
  have hlogin : login config s = ((s.onCluster (Kubernetes.fetchValue space tokenName key)).within
      .readingToken).andThen
        fun token s => s.onVault ((Vault.Opening.known token).run config.address) := by
    unfold login
    rw [hauth]
    rfl
  generalize hread : (s.onCluster (Kubernetes.fetchValue space tokenName key)).within
    .readingToken = reading at hlogin
  have hworld : reading.world =
      { s with cluster := (Kubernetes.fetchValue space tokenName key s.cluster).world } := by
    rw [← hread]
    rfl
  rw [hlogin]
  cases hresult : reading.result with
  | error failure =>
    rw [Attempt.world_andThen_of_error hresult, hworld]
    exact ⟨rfl, .inl ⟨⟨failure, Attempt.result_andThen_of_error hresult⟩, rfl⟩⟩
  | ok token =>
    rw [Attempt.world_andThen_of_ok hresult, Attempt.result_andThen_of_ok hresult, hworld,
      world_onVault, result_onVault]
    dsimp only
    refine ⟨rfl, .inr ⟨token, ?_, rfl, rfl⟩⟩
    rw [← hread] at hresult
    exact Attempt.mapCause_ok (Attempt.within_ok hresult)

/-- What can come of opening a session with a proof: it cannot be read, or it is presented. -/
theorem login_proof (config : VaultConfig) {role mount path : String}
    (hauth : config.auth = .kubernetes role mount path) (s : Surroundings) :
    (login config s).world.cluster = s.cluster ∧
      ((∃ failure, (login config s).result = .error failure) ∧
          (login config s).world.vault = s.vault ∨
        ∃ jwt, s.readFile path = .ok jwt ∧
          (login config s).world.vault =
            ((Vault.Opening.login mount role jwt).run config.address s.vault).world ∧
          (login config s).result = ((Vault.Opening.login mount role jwt).run config.address
            s.vault).result.mapError (Failure.map .vault)) := by
  have hlogin : login config s = (Attempt.ofResult (within (.readingProof path) (s.readFile path))
      s).andThen fun jwt s =>
        s.onVault ((Vault.Opening.login mount role jwt).run config.address) := by
    unfold login
    rw [hauth]
    rfl
  rw [hlogin]
  cases hfile : s.readFile path with
  | error failure => exact ⟨rfl, .inl ⟨⟨_, rfl⟩, rfl⟩⟩
  | ok jwt =>
    have hresult : (Attempt.ofResult (within (.readingProof path) (.ok jwt)) s :
        Attempt Service.Cause Surroundings String).result = .ok jwt := rfl
    rw [Attempt.world_andThen_of_ok hresult, Attempt.result_andThen_of_ok hresult, world_onVault,
      result_onVault]
    dsimp only [Attempt.ofResult]
    exact ⟨rfl, .inr ⟨jwt, rfl, rfl, rfl⟩⟩

/-- **What can come of opening a session** behind the reply with the secret: nothing can be
presented, and the vault is not asked; or a session is opened with what is presented. -/
theorem login_cases (config : VaultConfig) {first : Http.Response}
    (hreplies : before.cluster.replies = .respond first :: s.cluster.replies)
    (hfiles : s.files = before.files) :
    (∃ paths, paths <+: config.auth.secretPaths ∧
        (login config s).world.cluster.asked = s.cluster.asked ++ paths) ∧
      ((∃ failure, (login config s).result = .error failure) ∧
          (login config s).world.vault = s.vault ∨
        ∃ how, Presents config before how ∧
          (login config s).world.cluster.asked = s.cluster.asked ++ config.auth.secretPaths ∧
          (login config s).world.vault = (how.run config.address s.vault).world ∧
          (login config s).result =
            (how.run config.address s.vault).result.mapError (Failure.map .vault)) := by
  cases hauth : config.auth with
  | token tokenName space key =>
    obtain ⟨hcluster, hopened⟩ := login_token config hauth s
    rw [hcluster]
    refine ⟨Kubernetes.fetch_asked space tokenName s.cluster, ?_⟩
    rcases hopened with hfailed | ⟨token, hvalue, hopened⟩
    · exact .inl hfailed
    · obtain ⟨secret, hfetch, htext⟩ := Kubernetes.fetchValue_ok hvalue
      obtain ⟨second, rest, hsecond, hread, hworld⟩ := Kubernetes.fetch_ok hfetch
      rw [hsecond] at hreplies
      refine .inr ⟨.known token, .known hauth hreplies hread htext, ?_, hopened⟩
      rw [hworld]
      rfl
  | kubernetes role mount path =>
    obtain ⟨hcluster, hopened⟩ := login_proof config hauth s
    rw [hcluster]
    have hnone : s.cluster.asked = s.cluster.asked ++ [] := (List.append_nil _).symm
    refine ⟨⟨[], List.nil_prefix, hnone⟩, ?_⟩
    rcases hopened with hfailed | ⟨jwt, hfile, hopened⟩
    · exact .inl hfailed
    · refine .inr ⟨.login mount role jwt, .login hauth ?_, hnone, hopened⟩
      unfold readFile at hfile ⊢
      rwa [← hfiles]

end Surroundings

namespace Cycle

/-! ## Cycles -/

section

variable {σ ν : Type} (services : Services σ ν) (timing : Timing) (job : Job) (metrics : Metrics)

/-- What going on with a snapshot does to the world: nothing, unless it has a new time. Then a
session is opened, and the entries are stored if that succeeds. -/
theorem world_proceed (snapshot : Snapshot) (world : σ) :
    let opened := services.login world
    let after := (proceed services timing job metrics snapshot world).world
    job.cursor = some snapshot.lastUpdated ∧ after = world ∨
      job.cursor ≠ some snapshot.lastUpdated ∧
        ((∃ failure, opened.result = .error failure) ∧ after = opened.world ∨
          ∃ session, opened.result = .ok session ∧ after = (storeEntries services session
            job.credentialMount snapshot.data.entries opened.world).2) := by
  unfold proceed
  by_cases hsame : job.cursor = some snapshot.lastUpdated
  · rw [if_pos hsame]
    exact .inl ⟨hsame, rfl⟩
  · rw [if_neg hsame]
    refine .inr ⟨hsame, ?_⟩
    generalize services.login world = opened
    obtain ⟨result, log, world⟩ := opened
    cases result with
    | error failure => exact .inl ⟨⟨failure, rfl⟩, rfl⟩
    | ok session => exact .inr ⟨session, rfl, rfl⟩

/-- **What a cycle does to the world**: it reads the secret, and goes on with what it read. -/
theorem world_run {world : σ} {reading : Attempt Service.Cause σ Snapshot}
    (hreading : services.read job.namespaceName job.secretName world = reading) :
    let after := (run services timing job metrics world).world
    (∃ failure, reading.result = .error failure) ∧ after = reading.world ∨
      ∃ snapshot, reading.result = .ok snapshot ∧
        after = (proceed services timing job metrics.countCycle snapshot reading.world).world := by
  unfold run attempt
  rw [hreading]
  obtain ⟨result, log, world⟩ := reading
  cases result with
  | error failure => exact .inl ⟨⟨failure, rfl⟩, rfl⟩
  | ok snapshot => exact .inr ⟨snapshot, rfl, rfl⟩

end

/-- Every request of the chains that store credentials has the token of the session. -/
theorem token_of_sent {session : Vault.Session} {writes : List StoredCredential}
    {locate : Http.Locate} {sent : List (Http.Sent Vault.Body locate)}
    (hfirst : sent.map Http.Sent.first = writes.filterMap session.request?)
    {request : Http.Request Vault.Body}
    (hrequest : request ∈ sent.flatMap Http.Sent.asked) :
    request.token = some session.token := by
  obtain ⟨s, hs, hrequest⟩ := List.mem_flatMap.mp hrequest
  have hmem := List.mem_map_of_mem (f := Http.Sent.first) hs
  rw [hfirst] at hmem
  obtain ⟨write, -, hwrite⟩ := List.mem_filterMap.mp hmem
  rw [s.chain.token_eq.1 request hrequest]
  exact Vault.Session.token_of_request? hwrite

/-- What a cycle has become that asked this much of the cluster and of the vault. -/
def Converses (config : VaultConfig) (job : Job) (before after : Surroundings) : Prop :=
  ∃ secrets opening storing,
    after.cluster.asked = before.cluster.asked ++ secrets ∧
    after.vault.asked = before.vault.asked ++ (opening ++ storing) ∧
    Conversation config job before secrets opening storing

/-- A cycle that stops after asking for the secret. -/
theorem Converses.of_stopped {config : VaultConfig} {job : Job} {before after : Surroundings}
    {paths : List String}
    (hpaths : paths <+: [Kubernetes.pathOf job.namespaceName job.secretName])
    (hcluster : after.cluster.asked = before.cluster.asked ++ paths)
    (hvault : after.vault = before.vault) : Converses config job before after :=
  ⟨paths, [], [], hcluster, by rw [hvault]; exact (List.append_nil _).symm,
    hpaths.trans (List.prefix_append _ _), .inl ⟨hpaths.length_le, rfl, rfl⟩, .inl rfl, .inl rfl⟩

/-- A cycle that goes on with a secret that has a new time. -/
theorem converses_of_renewed {config : VaultConfig} {job : Job} {secret : Secret}
    {before s after : Surroundings} {response : Http.Response} {rest : List Http.Reply}
    (hreplies : before.cluster.replies = .respond response :: rest)
    (hs : s = { before with cluster := { before.cluster with
      replies := rest
      asked := before.cluster.asked ++ [Kubernetes.pathOf job.namespaceName job.secretName] } })
    (hrenewed : Renewed job before secret)
    (hafter : let opened := Surroundings.login config s
      (∃ failure, opened.result = .error failure) ∧ after = opened.world ∨
        ∃ session, opened.result = .ok session ∧
          after = (storeEntries (Surroundings.services config) session job.credentialMount
            secret.texts.entries opened.world).2) : Converses config job before after := by
  have hleft : before.cluster.replies = .respond response :: s.cluster.replies := by
    rw [hs]
    exact hreplies
  have hfiles : s.files = before.files := by rw [hs]
  have hvault : s.vault = before.vault := by rw [hs]
  have hasked : s.cluster.asked = before.cluster.asked ++
      [Kubernetes.pathOf job.namespaceName job.secretName] := by rw [hs]
  obtain ⟨⟨paths, hpaths, hmore⟩, hlogin⟩ := Surroundings.login_cases config hleft hfiles
  rw [hasked, List.append_assoc] at hmore
  have hordered : [Kubernetes.pathOf job.namespaceName job.secretName] ++ paths <+:
      Kubernetes.pathOf job.namespaceName job.secretName :: config.auth.secretPaths :=
    List.cons_prefix_cons.mpr ⟨rfl, hpaths⟩
  rcases hlogin with ⟨⟨failure, hfailed⟩, hsame⟩ | ⟨how, hpresents, hall, hworld, hresult⟩
  · -- Nothing can be presented, so the vault is not asked.
    rcases hafter with ⟨-, rfl⟩ | ⟨session, hopened, -⟩
    · refine ⟨_, [], [], hmore, ?_, hordered, .inr ⟨secret, hrenewed⟩, .inl rfl, .inl rfl⟩
      rw [hsame, hvault]
      exact (List.append_nil _).symm
    · rw [hfailed] at hopened
      cases hopened
  · obtain ⟨opening, hopening, hchain⟩ := how.run_asked config.address s.vault
    rw [hasked, List.append_assoc] at hall
    obtain rfl := List.append_cancel_left (List.append_cancel_left (hmore.symm.trans hall))
    rw [hvault] at hchain
    have hopens : opening = [] ∨
        ∃ (how : Vault.Opening) (sent : Http.Sent Vault.Body before.vault.locate),
        [Kubernetes.pathOf job.namespaceName job.secretName] ++ config.auth.secretPaths =
          Kubernetes.pathOf job.namespaceName job.secretName :: config.auth.secretPaths ∧
        Presents config before how ∧ how.request config.address = .ok sent.first ∧
        opening = sent.asked := by
      rcases hchain with rfl | ⟨sent, hfirst, rfl⟩
      · exact .inl rfl
      · exact .inr ⟨how, sent, rfl, hpresents, hfirst, rfl⟩
    rcases hafter with ⟨-, rfl⟩ | ⟨session, hopened, rfl⟩
    · -- The vault opens no session.
      refine ⟨_, opening, [], hmore, ?_, hordered, .inr ⟨secret, hrenewed⟩, hopens, .inl rfl⟩
      rw [hworld, hopening, hvault, List.append_nil]
    · have hsession : (how.run config.address s.vault).result = .ok session :=
        mapError_eq_ok (hresult.symm.trans hopened)
      obtain ⟨asked, hrun, hgranted, hlink⟩ := Vault.Opening.run_ok hsession
      obtain rfl : asked = opening := List.append_cancel_left (hrun.symm.trans hopening)
      obtain ⟨_, -, hextends⟩ := how.run_sent config.address s.vault
      have hworking : (Surroundings.login config s).world.vault.link = .working := by
        rw [hworld, hextends.link, hlink]
      have hlocate : (Surroundings.login config s).world.vault.locate = before.vault.locate := by
        rw [hworld, hextends.locate, hvault]
      have hstoring := storeEntries_sent config session job.credentialMount
        secret.texts.entries hworking
      rw [hlocate] at hstoring
      obtain ⟨sent, hfirst, hstored, hcluster⟩ := hstoring
      refine ⟨_, asked, sent.flatMap Http.Sent.asked, ?_, ?_, hordered, .inr ⟨secret, hrenewed⟩,
        hopens, .inr ⟨how, session, secret, hpresents, hvault ▸ hgranted, hrenewed,
          ⟨sent, rfl, hfirst⟩, fun _ => token_of_sent hfirst⟩⟩
      · rw [hcluster, hmore]
      · rw [hstored.asked, hworld, hrun, hvault, List.append_assoc]

/-- **Every cycle keeps to its conversation**: it asks for the secret first, goes on only if that
has a new time, opens one session with what is presented in this cycle, and stores through no
other. -/
theorem run_converses (config : VaultConfig) (timing : Timing) (job : Job) (metrics : Metrics)
    (before : Surroundings) : Converses config job before
      (run (Surroundings.services config) timing job metrics before).world := by
  have hworld := Surroundings.world_read job.namespaceName job.secretName before
  generalize hreading : before.read job.namespaceName job.secretName = reading at hworld
  obtain ⟨paths, hpaths, hasked⟩ :=
    Kubernetes.fetch_asked job.namespaceName job.secretName before.cluster
  have hstopped : Converses config job before reading.world := by
    rw [hworld]
    exact .of_stopped hpaths hasked rfl
  rcases world_run (Surroundings.services config) timing job metrics hreading with
    ⟨-, hafter⟩ | ⟨found, hfound, hafter⟩
  · rwa [hafter]
  · rcases world_proceed (Surroundings.services config) timing job metrics.countCycle found
      reading.world with ⟨-, hsame⟩ | ⟨hnew, hopened⟩
    · rwa [hafter, hsame]
    · rw [← hreading] at hfound
      obtain ⟨secret, time, hfetch, htime, rfl⟩ := Surroundings.read_ok hfound
      obtain ⟨response, rest, hreplies, hsecret, hleft⟩ := Kubernetes.fetch_ok hfetch
      rw [hleft] at hworld
      exact converses_of_renewed hreplies hworld
        ⟨response, rest, time, hreplies, hsecret, htime, hnew⟩ (hafter ▸ hopened)

/-- **One session for each cycle.** Over every history of a job with a cluster and a vault, whatever
these answer and however they change in between, every cycle keeps to its conversation. -/
theorem steps_converse (config : VaultConfig) (job : Job) (metrics : Metrics)
    (world : Surroundings) (rounds : List (Round Surroundings)) :
    (steps (Surroundings.services config) job metrics world rounds).map Step.turn =
        history (Surroundings.services config) job metrics world rounds ∧
      ∀ step ∈ steps (Surroundings.services config) job metrics world rounds,
        Converses config step.job step.before step.turn.world :=
  ⟨map_turn_steps _ job metrics world rounds,
    forall_steps (fun timing job metrics before => run_converses config timing job metrics before)
      job metrics world rounds⟩

/-! ## A token that changes -/

/-- A response with a secret, whose members are given in parts. -/
def secretReply (parts : List String) : Http.Reply :=
  .respond ⟨200, Text.Utf8.encode ('\x7b' :: (parts.flatMap String.toList ++ ['\x7d'])), none⟩

/-- A round in which the secret has the given time and further members, and the token is another
one. -/
def tokenRound (time : String) (members : List String) (token : String) : Round Surroundings where
  change s :=
    { s with
      cluster := { s.cluster with replies := [
        secretReply (["\"metadata\":\x7b", "\"creationTimestamp\":\"", time, "\"\x7d"] ++ members),
        secretReply ["\"stringData\":\x7b\"token\":\" ", token, " \"\x7d"]] }
      vault := { s.vault with replies := [.respond ⟨200, [], none⟩, .respond ⟨204, [], none⟩] } }
  timing := ⟨0, 0⟩

/-- The members of a secret with one generic credential. -/
def genericMembers : List String :=
  [",\"stringData\":\x7b\"GENERIC\":", "\"[\\\"a\\\",\\\"b\\\",\\\"c\\\"]\"\x7d"]

/-- A token in a secret, and a vault at its usual address. -/
def tokenConfig : VaultConfig :=
  ⟨"http://vault:8200", .token "vault-token" "default" "token", "secret", 30⟩

/-- The steps of a job that begins with nothing known, when the token changes in between, and there
is something to store then. -/
def tokenSteps : List (Step Surroundings) :=
  steps (Surroundings.services tokenConfig) ⟨"sync", "default", "@daily", "secret", none⟩
    Metrics.zero ⟨⟨.working, [], []⟩, ⟨.working, .joined, [], []⟩, Dictionary.empty⟩
    [tokenRound "2024-03-01T12:00:00Z" [] "t1",
      tokenRound "2024-03-01T13:00:00Z" genericMembers "t2"]

/-- The tokens of what a step asked the vault. -/
def Step.tokens (step : Step Surroundings) : List (Option String) :=
  (step.turn.world.vault.asked.drop step.before.vault.asked.length).map Http.Request.token

theorem steps_converse_tokens :
    tokenSteps.map Step.tokens = [[some "t1"], [some "t2", some "t2"]] ∧
      ∃ first second, tokenSteps = [first, second] ∧
        Converses tokenConfig second.job second.before second.turn.world := by
  refine ⟨by decide +kernel, _, _, rfl, ?_⟩
  exact (steps_converse tokenConfig ⟨"sync", "default", "@daily", "secret", none⟩ Metrics.zero
    ⟨⟨.working, [], []⟩, ⟨.working, .joined, [], []⟩, Dictionary.empty⟩
    [tokenRound "2024-03-01T12:00:00Z" [] "t1",
      tokenRound "2024-03-01T13:00:00Z" genericMembers "t2"]).2 _
    (List.mem_cons_of_mem _ List.mem_cons_self)

end Cycle

end CredentialRelay
