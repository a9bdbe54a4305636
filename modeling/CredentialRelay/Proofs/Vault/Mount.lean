import CredentialRelay.Credential.Decode
import CredentialRelay.Proofs.Url.Segments
import CredentialRelay.Proofs.Vault.Session
import Mathlib.Control.Monad.Basic

/-!
# Writes below a mount

Attributes are stored at a path below a mount, and the path is put together from names that the
producer of a credential chose. The URL is read after that, and with it the dot segments among these
names: they lead out of the mount, and anywhere below the address.

* `StaysBelow mount path`: the path leads from the directory of the mount to something below it.

Results:
* `storeUrl_eq`: the URL is the address with the directory of the mount and the path behind it.
* `path_below_mount_iff`: the vault is asked below the mount exactly if the path stays there.
* `staysBelow_of_no_doubleDot`: a path without double dots stays below every mount.
* `path_outside_mount`: an accepted credential whose path does not.
-/

namespace CredentialRelay

/-- The user is no part of the path. -/
theorem Url.path_withoutUser (url : Url) : url.withoutUser.path = url.path := by
  unfold withoutUser
  split <;> rfl

namespace Vault

/-- Whether a path, begun in the directory of a mount, ends below it. It may go up from there if it
comes down again the same way. -/
def StaysBelow (mount path : String) : Prop :=
  (Url.Walk.start.along (Url.segmentsOf (Text.trimSlashes path))).Returns
    (['v', '1'] :: Text.splitAll '/' (Text.trimSlashes mount).toList ++ [['d', 'a', 't', 'a']])

instance (mount path : String) : Decidable (StaysBelow mount path) :=
  inferInstanceAs (Decidable (Url.Walk.Returns _ _))

/-- The segments of the directory of a mount. -/
theorem splitAll_directory (mount : String) :
    Text.splitAll '/' ("v1/" ++ mount ++ "/data").toList =
      ['v', '1'] :: Text.splitAll '/' mount.toList ++ [['d', 'a', 't', 'a']] := by
  have htext : ("v1/" ++ mount ++ "/data").toList =
      (['v', '1'] ++ '/' :: mount.toList) ++ '/' :: ['d', 'a', 't', 'a'] := by
    simp
  rw [htext, Text.splitAll_append, Text.splitAll_append]
  rfl

theorem isPlainPath_directory {mount : String} (h : Url.IsPlainPath mount) :
    Url.IsPlainPath ("v1/" ++ mount ++ "/data") := by
  intro segment hs
  rw [splitAll_directory] at hs
  rcases List.mem_append.mp hs with hs | hs
  · rcases List.mem_cons.mp hs with rfl | hs
    · decide
    · exact h segment hs
  · rw [List.mem_singleton.mp hs]
    decide

/-- A plain path does not begin with a slash. -/
theorem trimStartSlashes_append {plain : String} (h : Url.IsPlainPath plain) (rest : String) :
    Text.trimStartSlashes (plain ++ rest) = plain ++ rest := by
  unfold Text.trimStartSlashes
  rw [← String.toList_inj, String.toList_ofList, String.toList_append]
  cases hchars : plain.toList with
  | nil =>
    refine absurd rfl (h [] ?_).1
    rw [hchars]
    exact List.mem_singleton_self []
  | cons c cs =>
    rw [List.cons_append, List.dropWhile_cons_of_neg]
    rintro hslash
    refine absurd rfl (h [] ?_).1
    rw [hchars, eq_of_beq hslash]
    exact Text.splitAll_append '/' cs [] ▸ List.mem_cons_self

/-- **The URL of a write** is the address with the directory of the mount and the path. -/
theorem storeUrl_eq {s : Session} {mount path : String}
    (h : Url.IsPlainPath (Text.trimSlashes mount)) :
    s.storeUrl mount path =
      s.address ++ "/" ++ (("v1/" ++ Text.trimSlashes mount ++ "/data") ++ "/" ++
        Text.trimSlashes path) := by
  unfold Session.storeUrl Session.urlOf
  have hassoc : Text.trimSlashes mount ++ "/data/" ++ Text.trimSlashes path =
      Text.trimSlashes mount ++ ("/data/" ++ Text.trimSlashes path) := String.append_assoc
  rw [hassoc, trimStartSlashes_append h, ← String.toList_inj]
  simp

/-- What the vault is asked first when attributes are stored is the URL of the write. -/
theorem url_of_asked {s : Session} {mount path : String} {attributes : Attributes}
    {server : Server} {asked : Http.Request Body} {more : List (Http.Request Body)}
    (h : (s.store mount path attributes server).world.asked = server.asked ++ asked :: more) :
    ∃ url, Url.parse (s.storeUrl mount path) = .ok url ∧ asked.url = url.withoutUser := by
  rcases s.store_asked mount path attributes server with
    hnone | ⟨request, rest, hmade, hfirst⟩
  · rw [hnone] at h
    simp at h
  · rw [hfirst] at h
    obtain ⟨rfl, -⟩ := List.cons.inj (List.append_cancel_left h)
    obtain ⟨url, hurl, -, -, rfl⟩ := Http.make_ok hmade
    exact ⟨url, hurl, rfl⟩

/-- **A write stays below its mount exactly if its path does.** Whatever comes of storing a
credential, if the vault is asked anything, it is first asked below the mount exactly if the path of
the credential stays there. -/
theorem path_below_mount_iff {s : Session} {mount : String} (ha : Url.IsHttpAddress s.address)
    (hm : Url.IsPlainPath (Text.trimSlashes mount)) (credential : Credential) {server : Server}
    {asked : Http.Request Body} {more : List (Http.Request Body)}
    (h : (s.store mount credential.path credential.attributes server).world.asked =
      server.asked ++ asked :: more) :
    (∃ rest, asked.url.path.render = "/v1/" ++ Text.trimSlashes mount ++ "/data/" ++ rest) ↔
      StaysBelow mount credential.path := by
  obtain ⟨url, hurl, hasked⟩ := url_of_asked h
  have hpath : asked.url.path = url.path := by
    rw [hasked, Url.path_withoutUser]
  rw [storeUrl_eq hm] at hurl
  have hbelow := Url.below_iff_returns ha (isPlainPath_directory hm) hurl
  rw [splitAll_directory] at hbelow
  unfold StaysBelow
  rw [← hbelow, hpath]
  have hwritten : "/v1/" ++ Text.trimSlashes mount ++ "/data/" =
      "/" ++ ("v1/" ++ Text.trimSlashes mount ++ "/data") ++ "/" := by
    rw [← String.toList_inj]
    simp
  rw [hwritten]

theorem isHttpAddress_vault : Url.IsHttpAddress "http://vault:8200" := by
  have hplace : ("vault:8200".toList.all fun c =>
      decide (Url.isSlash true c = false ∧ Url.endsPath c = false)) = true := by
    decide
  exact ⟨"http".toList, "vault:8200".toList, by decide, .inl (by decide),
    fun c hc => of_decide_eq_true (List.all_eq_true.mp hplace c hc),
    'v', by decide, by decide⟩

/-- A credential with plain names stays below its mount. -/
theorem path_below_mount_iff_plain :
    let s : Session := ⟨"http://vault:8200", "t"⟩
    let credential : Credential := .service ⟨"orders", "primary", "svc", "p1", Dictionary.empty⟩
    let server : Server := ⟨.working, .joined, [.respond ⟨200, [], none⟩], []⟩
    ∃ asked, (s.store "secret" credential.path credential.attributes server).world.asked = [asked] ∧
      ((∃ rest, asked.url.path.render = "/v1/" ++ Text.trimSlashes "secret" ++ "/data/" ++ rest) ↔
        StaysBelow "secret" credential.path) := by
  intro s credential server
  have hmount : Url.IsPlainPath (Text.trimSlashes "secret") := by decide
  let url : Url := ⟨"http", "", none, some (.name "vault"), some 8200,
    .segments ["v1", "secret", "data", "service-cred", "orders", "primary"], none, none⟩
  let request : Http.Request Body := ⟨.post, url, some "t", some (.data credential.attributes)⟩
  have hasked : (s.store "secret" credential.path credential.attributes server).world.asked =
      server.asked ++ request :: [] := by
    decide
  exact ⟨_, hasked, path_below_mount_iff isHttpAddress_vault hmount credential hasked⟩

/-- **An accepted credential that is written elsewhere**: its path leads out of the mount and to the
end point that seals the vault. -/
theorem path_outside_mount :
    let s : Session := ⟨"http://vault:8200", "t"⟩
    let server : Server := ⟨.working, .joined, [.respond ⟨200, [], none⟩], []⟩
    let credential : Credential := .generic ⟨"..", "..", "sys/seal", Dictionary.empty⟩
    Credential.parse .generic
        "\x7b\"credentialType\":\"..\",\"entityName\":\"..\",\"credIndetifier\":\"sys/seal\"\x7d" =
        .ok credential ∧
      ¬ StaysBelow "secret" credential.path ∧
      ∃ request, (s.store "secret" credential.path credential.attributes server).world.asked =
          [request] ∧
        request.method = .post ∧ request.url.path.render = "/v1/sys/seal" := by
  intro s server credential
  let url : Url := ⟨"http", "", none, some (.name "vault"), some 8200,
    .segments ["v1", "sys", "seal"], none, none⟩
  exact ⟨by decide, by decide,
    ⟨.post, url, some "t", some (.data credential.attributes)⟩, by decide, rfl,
    by decide⟩

end Vault

end CredentialRelay
