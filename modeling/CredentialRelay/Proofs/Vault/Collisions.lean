import CredentialRelay.Proofs.Credential.Path
import CredentialRelay.Proofs.Url.Legible
import CredentialRelay.Proofs.Vault.Mount

/-!
# Credentials with one URL

The path of a credential tells it from every other one, but it is not the path that is asked for: it
is written into a URL as it is, and the URL is read after that. Whatever means something in a URL may
be in the names that the producer of a credential chose. So two credentials are written to one URL
exactly if their paths lead to the same place there, with the same query, and different credentials
may well do that. Those with legible names do not.

* `Session.directory mount`: the directory of a mount, as the URL of a write is read.
* `Credential.Legible`: a credential whose names are read as they are written.

Results:
* `storeUrl_split`: the URL of a write goes on from the directory of the mount.
* `urls_equal_iff`: the condition for one URL, and what follows for legible names.
* `urls_collide`: two accepted credentials, told apart by what is not sent.
-/

namespace CredentialRelay

/-! ## Trimmed paths -/

namespace Text

theorem dropEndWhile_concat (p : Char → Bool) (c : Char) : ∀ cs : List Char,
    dropEndWhile p (cs ++ [c]) = if p c then dropEndWhile p cs else cs ++ [c]
  | [] => rfl
  | d :: cs => by
    have ih := dropEndWhile_concat p c cs
    rw [List.cons_append, dropEndWhile, ih]
    cases hc : p c with
    | true => rfl
    | false =>
      rw [if_neg Bool.false_ne_true]
      split
      · next hnil => exact absurd hnil (List.concat_ne_nil c cs)
      · rfl

/-- The end of a text without the character stays. -/
theorem dropEndWhile_append_of_not_mem {c : Char} {cs ds : List Char} (hne : ds ≠ [])
    (h : c ∉ ds) : dropEndWhile (· == c) (cs ++ ds) = cs ++ ds := by
  obtain ⟨before, last, rfl⟩ := (List.eq_nil_or_concat ds).resolve_left hne
  rw [List.concat_eq_append] at h ⊢
  have hlast : ¬ (last == c) = true := fun heq => h (eq_of_beq heq ▸ List.mem_concat_self)
  rw [← List.append_assoc, dropEndWhile_concat, if_neg hlast]

end Text

namespace Credential

/-- A credential whose names are read as they are written. -/
structure Legible (c : Credential) : Prop where
  typeSegment : Url.IsLegible c.typeSegment.toList
  entity : Url.IsLegible c.entity.toList
  identifier : Url.IsLegible c.identifier.toList

/-- The names in the path of a credential. An empty identifier is left out with the slash before. -/
def names (c : Credential) : List (List Char) :=
  c.typeSegment.toList :: c.entity.toList :: if c.identifier = "" then [] else [c.identifier.toList]

theorem names_ne_nil (c : Credential) : c.names ≠ [] :=
  List.cons_ne_nil _ _

/-- Credentials with the same names are told apart by nothing. -/
theorem triple_eq_of_names {c d : Credential} (h : c.names = d.names) : c.triple = d.triple := by
  unfold names at h
  obtain ⟨htype, hrest⟩ := List.cons.inj h
  obtain ⟨hentity, hidentifier⟩ := List.cons.inj hrest
  unfold triple
  rw [String.toList_inj.mp htype, String.toList_inj.mp hentity]
  split at hidentifier <;> split at hidentifier
  · next hc hd => rw [hc, hd]
  · cases hidentifier
  · cases hidentifier
  · rw [String.toList_inj.mp (List.cons.inj hidentifier).1]

theorem isLegible_of_mem_names {c : Credential} (h : c.Legible) :
    ∀ name ∈ c.names, Url.IsLegible name := by
  intro name hname
  unfold names at hname
  rcases List.mem_cons.mp hname with rfl | hname
  · exact h.typeSegment
  · rcases List.mem_cons.mp hname with rfl | hname
    · exact h.entity
    · split at hname
      · cases hname
      · rw [List.mem_singleton.mp hname]
        exact h.identifier

/-- **The path of a legible credential**, with the slashes at its ends trimmed, joins its names. -/
theorem trimSlashes_path {c : Credential} (h : c.Legible) (htype : c.typeSegment ≠ "")
    (hentity : c.entity ≠ "") :
    Text.trimSlashes c.path = String.ofList (['/'].intercalate c.names) := by
  have hnil {s : String} (hs : s ≠ "") : s.toList ≠ [] :=
    fun heq => hs (String.toList_eq_nil_iff.mp heq)
  have htext : c.path.toList =
      (c.typeSegment.toList ++ '/' :: c.entity.toList) ++ '/' :: c.identifier.toList := by
    simp [path, pathOf]
  obtain ⟨first, more, hfirst⟩ := List.exists_cons_of_ne_nil (hnil htype)
  have hslash : ¬ (first == '/') = true := fun heq =>
    h.typeSegment.slash_not_mem (hfirst ▸ eq_of_beq heq ▸ List.mem_cons_self)
  have hstart : c.path.toList.dropWhile (· == '/') = c.path.toList := by
    rw [htext, hfirst]
    exact List.dropWhile_cons_of_neg hslash
  unfold Text.trimSlashes Text.trimBy names
  rw [hstart, htext]
  by_cases hidentifier : c.identifier = ""
  · rw [if_pos hidentifier, hidentifier, String.toList_empty, Text.dropEndWhile_concat,
      if_pos (beq_self_eq_true '/'), List.append_cons,
      Text.dropEndWhile_append_of_not_mem (hnil hentity) h.entity.slash_not_mem]
    simp [List.intercalate]
  · rw [if_neg hidentifier, List.append_cons _ '/' c.identifier.toList,
      Text.dropEndWhile_append_of_not_mem (hnil hidentifier) h.identifier.slash_not_mem]
    simp [List.intercalate]

end Credential

namespace Vault

/-- What stands between an address and the path of a write. -/
def leadOf (mount : String) : String :=
  "v1/" ++ Text.trimStartSlashes (Text.trimSlashes mount ++ "/data")

/-- **The URL of a write** is the address with what leads to the path, and the path. -/
theorem storeUrl_split (s : Session) (mount path : String) :
    s.storeUrl mount path =
      s.address ++ "/" ++ (leadOf mount ++ "/" ++ Text.trimSlashes path) := by
  -- The text in between is not all slashes, so what is trimmed at its start ends before the path.
  have hstart (mount path : String) : Text.trimStartSlashes (mount ++ "/data/" ++ path) =
      Text.trimStartSlashes (mount ++ "/data") ++ "/" ++ path := by
    have hdata : "/data/".toList = ['/', 'd', 'a', 't', 'a', '/'] := rfl
    have hdata' : "/data".toList = ['/', 'd', 'a', 't', 'a'] := rfl
    unfold Text.trimStartSlashes
    rw [← String.toList_inj]
    simp only [String.toList_append, String.toList_ofList, hdata, hdata', List.append_assoc]
    simp only [List.dropWhile_append]
    split <;> simp
  unfold Session.storeUrl Session.urlOf leadOf
  rw [hstart, ← String.toList_inj]
  generalize Text.trimStartSlashes (Text.trimSlashes mount ++ "/data") = lead
  generalize Text.trimSlashes path = path
  simp

theorem endsPath_of_any {cs : List Char} (h : cs.any Url.endsPath = false) :
    ∀ c ∈ cs, Url.endsPath c = false :=
  fun c hc => Bool.eq_false_iff.mpr (List.any_eq_false.mp h c hc)

/-- What leads to the path of a write ends it only if the mount does. -/
theorem endsPath_of_mem_leadOf {mount : String} (hm : ∀ c ∈ mount.toList, Url.endsPath c = false) :
    ∀ c ∈ (leadOf mount).toList, Url.endsPath c = false := by
  have htrimmed : ∀ c ∈ (Text.trimSlashes mount).toList, c ∈ mount.toList := by
    intro c hc
    unfold Text.trimSlashes Text.trimBy at hc
    rw [String.toList_ofList] at hc
    obtain ⟨rest, hrest, -⟩ :=
      Text.dropEndWhile_append (· == '/') (mount.toList.dropWhile (· == '/'))
    have hmem := List.mem_append_left rest hc
    rw [← hrest] at hmem
    exact (List.dropWhile_suffix _).subset hmem
  intro c hc
  unfold leadOf Text.trimStartSlashes at hc
  rw [String.toList_append] at hc
  rcases List.mem_append.mp hc with hc | hc
  · exact endsPath_of_any (show "v1/".toList.any Url.endsPath = false from rfl) c hc
  · rw [String.toList_ofList, String.toList_append] at hc
    rcases List.mem_append.mp ((List.dropWhile_suffix _).subset hc) with hc | hc
    · exact hm c (htrimmed c hc)
    · exact endsPath_of_any (show "/data".toList.any Url.endsPath = false from rfl) c hc

/-- The directory of a mount: the path of the URL with nothing behind the mount. -/
def Session.directory (s : Session) (mount : String) : List (List Char) :=
  match Url.parse (s.storeUrl mount "") with
  | .ok url => url.path.toSegments.dropLast
  | .error _ => []

/-- The URL of a write goes on from the directory of the mount. -/
theorem parse_storeUrl {address : String} (ha : Url.IsBase address) {s : Session}
    (hs : s.address = Text.trimEndSlashes address) {mount : String}
    (hm : ∀ c ∈ mount.toList, Url.endsPath c = false) :
    ∃ place : Except Url.Fault Url,
      (∀ segment ∈ s.directory mount, Url.IsWhole segment) ∧
      ∀ path, Url.parse (s.storeUrl mount path) =
        place.map fun url => url.below (s.directory mount) (Text.trimSlashes path) := by
  obtain ⟨place, directory, hwhole, hparse⟩ := Url.parse_below ha (endsPath_of_mem_leadOf hm)
  have hurl (path : String) : Url.parse (s.storeUrl mount path) =
      place.map fun url => url.below directory (Text.trimSlashes path) := by
    rw [storeUrl_split, hs, hparse]
  cases place with
  | error fault =>
    have hdirectory : s.directory mount = [] := by
      have hnone := hurl ""
      unfold Session.directory
      rw [hnone]
      rfl
    rw [hdirectory]
    refine ⟨.error fault, List.forall_mem_nil _, fun path => ?_⟩
    rw [hurl path]
    simp only [Except.map]
  | ok url =>
    have hdirectory : s.directory mount = directory := by
      have hempty := hurl ""
      have hsegments : Url.addSegments directory (Url.segmentsOf (Text.trimSlashes "")) =
          directory ++ [[]] := rfl
      unfold Session.directory
      rw [hempty]
      show (List.map String.toList (List.map String.ofList
        (Url.addSegments directory (Url.segmentsOf (Text.trimSlashes ""))))).dropLast = directory
      rw [hsegments]
      simp
    exact ⟨.ok url, hdirectory ▸ hwhole, hdirectory ▸ hurl⟩

/-- **Two credentials have one URL exactly if their paths lead to one place.** Behind an address that
has no query and no fragment, and for a mount with nothing that ends a path, the vault is first asked
for one URL exactly if the two paths lead to the same place from the directory of the mount, and have
the same query. Credentials with legible names that can be told apart never share a URL. -/
theorem urls_equal_iff {address : String} (ha : Url.IsBase address) {s : Session}
    (hs : s.address = Text.trimEndSlashes address) {mount : String}
    (hm : ∀ c ∈ mount.toList, Url.endsPath c = false) {kind kind' : Credential.Kind}
    {value value' : String} {c d : Credential} (hc : Credential.parse kind value = .ok c)
    (hd : Credential.parse kind' value' = .ok d) {server server' : Server}
    {asked asked' : Http.Request Body} {more more' : List (Http.Request Body)}
    (hasked : (s.store mount c.path c.attributes server).world.asked =
      server.asked ++ asked :: more)
    (hasked' : (s.store mount d.path d.attributes server').world.asked =
      server'.asked ++ asked' :: more') :
    (asked.url.renderTarget = asked'.url.renderTarget ↔
      Url.locate (s.directory mount) (Text.trimSlashes c.path) =
        Url.locate (s.directory mount) (Text.trimSlashes d.path)) ∧
    (c.Legible → d.Legible → c.triple ≠ d.triple →
      asked.url.renderTarget ≠ asked'.url.renderTarget) := by
  obtain ⟨place, hwhole, hparse⟩ := parse_storeUrl ha hs hm
  obtain ⟨url, hurl, hfirst⟩ := url_of_asked hasked
  obtain ⟨url', hurl', hfirst'⟩ := url_of_asked hasked'
  rw [hparse] at hurl hurl'
  have hsame : asked.url.renderTarget = asked'.url.renderTarget ↔
      Url.locate (s.directory mount) (Text.trimSlashes c.path) =
        Url.locate (s.directory mount) (Text.trimSlashes d.path) := by
    cases place with
    | error fault => cases hurl
    | ok place =>
      rw [hfirst, hfirst', ← Except.ok.inj hurl, ← Except.ok.inj hurl']
      exact Url.renderTarget_below_iff place hwhole _ _
  refine ⟨hsame, fun hlegible hlegible' hne heq => hne (Credential.triple_eq_of_names ?_)⟩
  obtain ⟨htype, hentity⟩ := Credential.ne_empty_of_parse hc
  obtain ⟨htype', hentity'⟩ := Credential.ne_empty_of_parse hd
  have hplace := hsame.mp heq
  rw [Credential.trimSlashes_path hlegible htype hentity,
    Credential.trimSlashes_path hlegible' htype' hentity'] at hplace
  exact Url.locate_legible_inj c.names_ne_nil d.names_ne_nil
    (Credential.isLegible_of_mem_names hlegible) (Credential.isLegible_of_mem_names hlegible')
    hplace

/-- Legible names may hold spaces and letters of any script; they are encoded. -/
theorem urls_equal_iff_legible :
    let s : Session := ⟨"http://vault:8200/kv", "t"⟩
    let c : Credential := .service ⟨"orders", "", "svc", "p1", Dictionary.empty⟩
    let d : Credential := .generic ⟨"service-cred", "orders", "caf\u00e9 1", Dictionary.empty⟩
    let server : Server := ⟨.working, .joined, [.respond ⟨200, [], none⟩], []⟩
    ∃ asked asked',
      (s.store "secret" c.path c.attributes server).world.asked = [asked] ∧
      (s.store "secret" d.path d.attributes server).world.asked = [asked'] ∧
      asked.url.renderTarget ≠ asked'.url.renderTarget := by
  intro s c d server
  have haddress : Url.IsBase "http://vault:8200/kv/" :=
    ⟨⟨"http", "", none, some (.name "vault"), some 8200, .segments ["kv", ""], none, none⟩,
      by decide +kernel, .inl rfl, rfl, rfl⟩
  have hc : Credential.parse .service
      "\x7b\"entityName\":\"orders\",\"userName\":\"svc\",\"password\":\"p1\"\x7d" = .ok c := by
    decide +kernel
  have hd : Credential.parse .generic
      ("\x7b\"credentialType\":\"service-cred\",\"entityName\":\"orders\"," ++
        "\"credIndetifier\":\"caf\u00e9 1\"\x7d") = .ok d := by
    decide +kernel
  let url (identifier : List String) : Url :=
    ⟨"http", "", none, some (.name "vault"), some 8200,
      .segments (["kv", "v1", "secret", "data", "service-cred", "orders"] ++ identifier), none, none⟩
  let request (c : Credential) (identifier : List String) : Http.Request Body :=
    ⟨.post, url identifier, some "t", some (.data c.attributes)⟩
  have hasked : (s.store "secret" c.path c.attributes server).world.asked =
      server.asked ++ request c [] :: [] := by
    decide +kernel
  have hasked' : (s.store "secret" d.path d.attributes server).world.asked =
      server.asked ++ request d ["caf%C3%A9%201"] :: [] := by
    decide +kernel
  have hlegible : c.Legible := ⟨by decide +kernel, by decide +kernel, by decide +kernel⟩
  have hlegible' : d.Legible := ⟨by decide +kernel, by decide +kernel, by decide +kernel⟩
  have hmount : ∀ c ∈ "secret".toList, Url.endsPath c = false := endsPath_of_any (by decide)
  exact ⟨_, _, hasked, hasked', (urls_equal_iff haddress (by decide +kernel) hmount hc hd
    hasked hasked').2 hlegible hlegible' (by decide +kernel)⟩

/-- **Two accepted credentials with one URL**: what tells them apart is a fragment, and no fragment is
sent. -/
theorem urls_collide :
    let s : Session := ⟨"http://vault:8200", "t"⟩
    let server : Server := ⟨.working, .joined, [.respond ⟨200, [], none⟩], []⟩
    let c : Credential := .generic ⟨"a", "b", "c#1", Dictionary.empty⟩
    let d : Credential := .generic ⟨"a", "b", "c#2", Dictionary.empty⟩
    Credential.parse .generic
        "\x7b\"credentialType\":\"a\",\"entityName\":\"b\",\"credIndetifier\":\"c#1\"\x7d" = .ok c ∧
      Credential.parse .generic
        "\x7b\"credentialType\":\"a\",\"entityName\":\"b\",\"credIndetifier\":\"c#2\"\x7d" = .ok d ∧
      c.triple ≠ d.triple ∧
      (∀ name ∈ ["a", "b", "c#1", "c#2"], '/' ∉ name.toList) ∧
      ∃ request request',
        (s.store "secret" c.path c.attributes server).world.asked = [request] ∧
        (s.store "secret" d.path d.attributes server).world.asked = [request'] ∧
        request.url.renderTarget = "http://vault:8200/v1/secret/data/a/b/c" ∧
        request'.url.renderTarget = request.url.renderTarget := by
  intro s server c d
  let url (fragment : String) : Url := ⟨"http", "", none, some (.name "vault"), some 8200,
    .segments ["v1", "secret", "data", "a", "b", "c"], none, some fragment⟩
  exact ⟨by decide +kernel, by decide +kernel, by decide +kernel, by decide +kernel,
    ⟨.post, url "1", some "t", some (.data c.attributes)⟩,
    ⟨.post, url "2", some "t", some (.data d.attributes)⟩,
    by decide +kernel, by decide +kernel, by decide +kernel, rfl⟩

end Vault

end CredentialRelay
