import CredentialRelay.Credential.Decode
import CredentialRelay.Proofs.Attempt

/-!
# What is filled in

A credential is accepted if none of its required fields is empty. What is stored of it is put
together from its fields afterwards, so the two could disagree: the further attributes of a service
credential come over its user name and password, and may empty them again.

* `Filled`: what is stored of a credential has what its kind requires.

Results:
* `filled_of_parse`: no required field of an accepted credential is empty.
* `get?_service`, `entries_certificate`: what is stored of a credential.
* `Filled.of_parse`: accepted credentials are filled in.
-/

namespace CredentialRelay.Credential

variable {kind : Kind} {value : String} {c : Credential}

/-- No required field of an accepted credential is empty. -/
theorem filled_of_parse (h : parse kind value = .ok c) : ∀ field ∈ c.required, field.2 ≠ "" := by
  obtain ⟨-, hmissing⟩ := parse_eq_ok_iff.mp h
  intro field hfield hempty
  have hmem : field.1 ∈ c.missing :=
    List.mem_map_of_mem (List.mem_filter.mpr ⟨hfield, by rw [hempty]; rfl⟩)
  rw [hmissing] at hmem
  cases hmem

theorem kind_of_decoder {cs rest : List Char} (h : decoder kind cs = .ok (c, rest)) :
    c.kind = kind := by
  cases kind with
  | service =>
    obtain ⟨_, -, hmade⟩ := map_eq_ok h
    cases hmade
    rfl
  | certificate =>
    obtain ⟨_, -, hmade⟩ := map_eq_ok h
    cases hmade
    rfl
  | generic =>
    obtain ⟨_, -, hmade⟩ := map_eq_ok h
    cases hmade
    rfl

/-- A credential is of the kind that it was read as. -/
theorem kind_of_parse (h : parse kind value = .ok c) : c.kind = kind := by
  obtain ⟨hdecode, -⟩ := parse_eq_ok_iff.mp h
  unfold Json.decode at hdecode
  split at hdecode
  · cases hdecode
  · next hread =>
    split at hdecode
    · cases hdecode
      exact kind_of_decoder hread
    · cases hdecode

/-! ## What is stored -/

/-- **Further attributes win** over the user name and the password. -/
theorem get?_service (c : ServiceCredential) (name : String) :
    (service c).attributes.get? name = (c.additional.get? name).or
      (if name = "password" then some c.password
        else if name = "userName" then some c.userName else none) := by
  show ((Dictionary.ofList [("userName", c.userName), ("password", c.password)]).merge
    c.additional).get? name = _
  rw [Dictionary.get?_merge]
  simp only [Dictionary.ofList, List.foldl_cons, List.foldl_nil, Dictionary.get?_insert,
    Dictionary.get?_empty]

/-- What is stored of a certificate, in the order of the names. -/
theorem entries_certificate (c : CertificateCredential) : (certificate c).attributes.entries =
    [("ca.pem", c.authority), ("cert.crt", c.certificate), ("key.key", c.key)] := by
  have hca : "ca.pem" < "cert.crt" := by decide +kernel
  have hcert : "cert.crt" < "key.key" := by decide +kernel
  have hkey : "ca.pem" < "key.key" := String.lt_trans hca hcert
  simp [attributes, Dictionary.ofList, Dictionary.insert, Dictionary.insertEntry, Dictionary.empty,
    hca, hcert, hkey, String.lt_asymm hca, String.lt_asymm hcert, String.lt_asymm hkey]

/-- Only further attributes can empty a user name or a password. -/
theorem get?_service_seeded {c : ServiceCredential} {field : String × String}
    (hfield : field ∈ [("userName", c.userName), ("password", c.password)]) :
    (service c).attributes.get? field.1 =
      some ((c.additional.get? field.1).getD field.2) := by
  rw [get?_service]
  rcases List.mem_cons.mp hfield with rfl | hfield
  · rw [if_neg (show "userName" ≠ "password" by decide), if_pos rfl]
    cases c.additional.get? "userName" <;> rfl
  · obtain rfl := List.mem_singleton.mp hfield
    rw [if_pos rfl]
    cases c.additional.get? "password" <;> rfl

/-! ## What is required -/

/-- What is stored of a credential has what its kind requires. Its user name and its password are
its own, which are not empty, unless its further attributes have others. -/
def Filled : Credential → Prop
  | .service c => ∀ field ∈ [("userName", c.userName), ("password", c.password)],
    field.2 ≠ "" ∧
      (service c).attributes.get? field.1 = some ((c.additional.get? field.1).getD field.2)
  | .certificate c =>
    (certificate c).attributes.keys = ["ca.pem", "cert.crt", "key.key"] ∧
      ∀ entry ∈ (certificate c).attributes.entries, entry.2 ≠ ""
  | .generic _ => True

/-- **Accepted credentials are filled in.** -/
theorem Filled.of_parse (h : parse kind value = .ok c) : c.Filled := by
  have hfilled := filled_of_parse h
  cases c with
  | service c =>
    intro field hfield
    exact ⟨hfilled field (List.mem_append_left [("entityName", c.entity)] hfield),
      get?_service_seeded hfield⟩
  | certificate c =>
    refine ⟨by rw [Dictionary.keys, entries_certificate]; rfl, ?_⟩
    rw [entries_certificate]
    simp only [required, List.forall_mem_cons] at hfilled ⊢
    exact ⟨hfilled.1, hfilled.2.1, hfilled.2.2.1, List.forall_mem_nil _⟩
  | generic c => exact trivial

/-- Accepted credentials have an identifier, except for those of services. -/
theorem identifier_ne_empty_of_parse (h : parse kind value = .ok c) (hkind : kind ≠ .service) :
    c.identifier ≠ "" := by
  have hfilled := filled_of_parse h
  have hsame := kind_of_parse h
  cases c with
  | service c => exact absurd hsame.symm hkind
  | certificate c => exact hfilled ("certIndetifier", c.identifier) (by simp [required])
  | generic c => exact hfilled ("credIndetifier", c.identifier) (by simp [required])

end CredentialRelay.Credential
