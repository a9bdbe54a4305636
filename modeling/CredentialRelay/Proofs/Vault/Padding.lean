import CredentialRelay.Config
import CredentialRelay.Proofs.Text.Trimming
import CredentialRelay.Proofs.Vault.Discretion
import Mathlib.Data.List.Forall2

/-!
# Slashes and blanks that do not matter

An address may end in slashes, a mount and a path may have some at both ends, and a token and a
proof may have blanks around them. With more of them a conversation with the vault comes to the
same: the same is asked, opened, stored and told, and failures have the same causes. This goes for
texts that are nothing but slashes as well.

The settings trim the address and the mount before a session does. Nothing changes by that either,
since a text has all of its slashes on top of what the settings leave of it.

* `Opening.Padded o o'`: the second opening has more slashes and blanks than the first.
* `StoredCredential.Padded w w'`: the second credential goes to the same place with more slashes.

Results:
* `Opening.run_padded`, `Session.store_padded`: opening a session, and storing through it.
* `transcript_padded`: conversations, and what the settings make of an address and of mounts.
-/

namespace CredentialRelay

open Text

/-- The second credential goes to the same place, with more slashes around mount and path. -/
structure StoredCredential.Padded (w w' : StoredCredential) : Prop where
  mount : Wraps (· == '/') w.mount w'.mount
  path : Wraps (· == '/') w.path w'.path
  attributes : w'.attributes = w.attributes

namespace Vault

/-- The second opening has more slashes around its mount and more blanks around its secret. -/
inductive Opening.Padded : Opening → Opening → Prop where
  | known {token token' : String} (htoken : Wraps isBlank token token') :
    Padded (.known token) (.known token')
  | login {mount mount' jwt jwt' : String} (role : String)
    (hmount : Wraps (· == '/') mount mount') (hjwt : Wraps isBlank jwt jwt') :
    Padded (.login mount role jwt) (.login mount' role jwt')

theorem Opening.Padded.refl : (o : Opening) → o.Padded o
  | .known token => .known (.refl _ token)
  | .login mount role jwt => .login role (.refl _ mount) (.refl _ jwt)

variable {address address' : String} {o o' : Opening}

/-- **Opening a session** comes to the same with more slashes and blanks. -/
theorem Opening.run_padded (haddress : Trails (· == '/') address address') (h : o.Padded o')
    (server : Server) : o'.run address' server = o.run address server := by
  cases h with
  | known htoken =>
    unfold run Session.withToken
    simp only [haddress.trimEndSlashes_eq, htoken.trim_eq]
  | login role hmount hjwt =>
    unfold run Session.login
    simp only [haddress.trimEndSlashes_eq, hmount.trimSlashes_eq, hjwt.trim_eq]

/-- **Storing through a session** comes to the same with more slashes. -/
theorem Session.store_padded (s : Session) {w w' : StoredCredential} (h : w.Padded w')
    (server : Server) : s.store w'.mount w'.path w'.attributes server =
      s.store w.mount w.path w.attributes server := by
  unfold store
  simp only [h.mount.trimSlashes_eq, h.path.trimSlashes_eq, h.attributes]

theorem Session.storeEach_padded (s : Session) {writes writes' : List StoredCredential}
    (h : List.Forall₂ StoredCredential.Padded writes writes') (server : Server) :
    s.storeEach writes' server = s.storeEach writes server := by
  induction h generalizing server with
  | nil => rfl
  | cons hwrite _ ih =>
    unfold storeEach
    simp only [s.store_padded hwrite server, ih]

/-- A whole conversation comes to the same. -/
theorem transcript_eq_of_padded (haddress : Trails (· == '/') address address') (h : o.Padded o')
    {writes writes' : List StoredCredential}
    (hwrites : List.Forall₂ StoredCredential.Padded writes writes') (server : Server) :
    transcript address' o' writes' server = transcript address o writes server := by
  unfold transcript
  rw [Opening.run_padded haddress h server]
  simp only
  split
  · next session _ => rw [session.storeEach_padded hwrites]
  · rfl

/-! ## Settings -/

/-- A credential that goes to a path below a mount. -/
abbrev storedAt (mount : String) (write : String × Attributes) : StoredCredential :=
  ⟨mount, write.1, write.2⟩

theorem forall₂_storedAt {mount mount' : String} (h : Wraps (· == '/') mount mount')
    (writes : List (String × Attributes)) :
    List.Forall₂ StoredCredential.Padded (writes.map (storedAt mount))
      (writes.map (storedAt mount')) :=
  List.forall₂_map_left_iff.mpr (List.forall₂_map_right_iff.mpr
    (List.forall₂_same.mpr fun _ _ => ⟨h, .refl _ _, rfl⟩))

theorem textOr_of_get? {env : Environment} {key value : String} (h : env.get? key = some value)
    (hblank : allBlank value = false) (default : String) :
    Config.textOr env key default = value := by
  unfold Config.textOr
  rw [h]
  exact if_neg (Bool.eq_false_iff.mp hblank)

/-- A mount for logins goes through the settings as it is. -/
theorem authMount_of_get? {env : Environment} {role authMount authMount' jwtPath : String}
    (hauth : Config.authOf env = .ok (.kubernetes role authMount' jwtPath))
    (h : env.get? "VAULT_K8S_AUTH_MOUNT" = some authMount) (hblank : allBlank authMount = false) :
    authMount' = authMount := by
  simp only [Config.authOf] at hauth
  split at hauth
  · cases hauth
  · split at hauth
    · cases hauth
      exact textOr_of_get? h hblank _
    · cases hauth

/-- **Conversations with more slashes and blanks come to the same**: slashes at the end of the
address, around the mounts and the paths, blanks around the token or the proof. They also come to
the same with an address and a mount that went through the settings, if these are not blank; a mount
for logins goes through the settings as it is. -/
theorem transcript_padded :
    (∀ {address address' : String} {o o' : Opening} {writes writes' : List StoredCredential},
      Trails (· == '/') address address' → o.Padded o' →
      List.Forall₂ StoredCredential.Padded writes writes' → ∀ server,
        transcript address' o' writes' server = transcript address o writes server) ∧
    ∀ {env : Environment} {auth : AuthMethod} {address mount : String},
      env.get? "VAULT_ADDR" = some address → allBlank address = false →
      env.get? "VAULT_CREDENTIAL_MOUNT" = some mount → allBlank mount = false →
      Config.authOf env = .ok auth →
      ∃ config, Config.ofEnvironment env = .ok config ∧
        (∀ (o : Opening) (writes : List (String × Attributes)) (server : Server),
          transcript config.vault.address o (writes.map (storedAt config.vault.credentialMount))
            server = transcript address o (writes.map (storedAt mount)) server) ∧
        ∀ authMount, env.get? "VAULT_K8S_AUTH_MOUNT" = some authMount →
          allBlank authMount = false → ∀ role authMount' jwtPath,
          config.vault.auth = .kubernetes role authMount' jwtPath → authMount' = authMount := by
  refine ⟨fun haddress h hwrites server => transcript_eq_of_padded haddress h hwrites server, ?_⟩
  intro env auth address mount haddress hblank hmount hblank' hauth
  refine ⟨_, by rw [Config.ofEnvironment, hauth]; rfl, fun o writes server => ?_, ?_⟩
  · simp only [textOr_of_get? haddress hblank, textOr_of_get? hmount hblank']
    exact (transcript_eq_of_padded (trails_trimEndSlashes address) (.refl o)
      (forall₂_storedAt (wraps_trimSlashes mount) writes) server).symm
  · intro authMount hget hblank role authMount' jwtPath hkubernetes
    obtain rfl : auth = .kubernetes role authMount' jwtPath := hkubernetes
    exact authMount_of_get? hauth hget hblank

/-- An environment with slashes around its mounts and at the end of its address. -/
def slashed : Environment :=
  .ofList [("VAULT_ADDR", "http://vault:8200//"), ("VAULT_AUTH_METHOD", "kubernetes"),
    ("VAULT_CREDENTIAL_MOUNT", "/secret/"), ("VAULT_K8S_AUTH_MOUNT", "/kubernetes")]

theorem transcript_padded_wavering :
    let address := "http://vault:8200//"
    let login : Opening := .login "/kubernetes" "writer" "eyJ\n"
    let writes : List (String × Attributes) := [("a", .empty), ("b", .empty)]
    transcript address login [⟨"/secret/", "//a", .empty⟩, ⟨"secret", "b/", .empty⟩] wavering =
        transcript "http://vault:8200" (.login "kubernetes" "writer" "eyJ")
          [⟨"secret", "a", .empty⟩, ⟨"secret", "b", .empty⟩] wavering ∧
      ∃ config, Config.ofEnvironment slashed = .ok config ∧
        transcript config.vault.address login
            (writes.map (storedAt config.vault.credentialMount)) wavering =
          transcript address login (writes.map (storedAt "/secret/")) wavering := by
  intro address login writes
  obtain ⟨hpadded, hsettings⟩ := transcript_padded
  have haddress : Trails (· == '/') "http://vault:8200" address :=
    ⟨['/', '/'], by simp, by decide⟩
  have hlogin : Opening.Padded (.login "kubernetes" "writer" "eyJ") login :=
    .login "writer" ⟨['/'], [], by simp, by simp, by decide⟩
      ⟨[], ['\n'], nofun, List.forall_mem_singleton.mpr rfl, by decide⟩
  have hwrites : List.Forall₂ StoredCredential.Padded
      [⟨"secret", "a", .empty⟩, ⟨"secret", "b", .empty⟩]
      [⟨"/secret/", "//a", .empty⟩, ⟨"secret", "b/", .empty⟩] :=
    .cons ⟨⟨['/'], ['/'], by simp, by simp, by decide⟩,
      ⟨['/', '/'], [], by simp, by simp, by decide⟩, rfl⟩
      (.cons ⟨.refl _ _, ⟨[], ['/'], by simp, by simp, by decide⟩, rfl⟩ .nil)
  have hauth : Config.authOf slashed = .ok (.kubernetes "vault-cred-sync" "/kubernetes"
      "/var/run/secrets/kubernetes.io/serviceaccount/token") := by decide
  have haddr : slashed.get? "VAULT_ADDR" = some address := by decide
  have hmount : slashed.get? "VAULT_CREDENTIAL_MOUNT" = some "/secret/" := by decide
  have hblank : allBlank address = false := by decide
  have hblank' : allBlank "/secret/" = false := by decide
  obtain ⟨config, hconfig, hsame, -⟩ := hsettings haddr hblank hmount hblank' hauth
  exact ⟨hpadded haddress hlogin hwrites wavering, config, hconfig, hsame login writes wavering⟩

end Vault

end CredentialRelay
