import CredentialRelay.Proofs.Credential.Filled
import CredentialRelay.Proofs.Text.Split

/-!
# Paths and what they name

A path is put together from a type segment, an entity and an identifier. As long as the first two
have no slash, it can be taken apart again, whatever is in the identifier.

Results:
* `pathOf_inj`, `path_inj`: credentials with one path have one type segment, one entity and one
  identifier.
* `ne_empty_of_parse`: of an accepted credential, the identifier alone may be empty.
-/

namespace CredentialRelay.Credential

/-- What tells apart credentials: the type segment, the entity and the identifier. -/
def triple (c : Credential) : String × String × String :=
  (c.typeSegment, c.entity, c.identifier)

/-- A credential whose type segment and entity have no slash. -/
def Separable (c : Credential) : Prop :=
  '/' ∉ c.typeSegment.toList ∧ '/' ∉ c.entity.toList

instance (c : Credential) : Decidable c.Separable :=
  inferInstanceAs (Decidable (_ ∧ _))

/-- **A path can be taken apart** into its three segments. -/
theorem pathOf_inj {type entity identifier type' entity' identifier' : String}
    (htype : '/' ∉ type.toList) (hentity : '/' ∉ entity.toList) (htype' : '/' ∉ type'.toList)
    (hentity' : '/' ∉ entity'.toList)
    (h : pathOf type entity identifier = pathOf type' entity' identifier') :
    type = type' ∧ entity = entity' ∧ identifier = identifier' := by
  have htext (type entity identifier : String) : (pathOf type entity identifier).toList =
      type.toList ++ '/' :: (entity.toList ++ '/' :: identifier.toList) := by
    simp [pathOf]
  have hfirst := congrArg (fun path => Text.splitFirst '/' path.toList) h
  simp only [htext, Text.splitFirst_append htype, Text.splitFirst_append htype', Prod.mk.injEq,
    Option.some.injEq] at hfirst
  have hsecond := congrArg (Text.splitFirst '/') hfirst.2
  simp only [Text.splitFirst_append hentity, Text.splitFirst_append hentity', Prod.mk.injEq,
    Option.some.injEq] at hsecond
  exact ⟨String.toList_inj.mp hfirst.1, String.toList_inj.mp hsecond.1,
    String.toList_inj.mp hsecond.2⟩

/-- **Credentials with one path are told apart by nothing.** -/
theorem path_inj {c d : Credential} (hc : c.Separable) (hd : d.Separable) (h : c.path = d.path) :
    c.triple = d.triple := by
  obtain ⟨htype, hentity, hidentifier⟩ := pathOf_inj hc.1 hc.2 hd.1 hd.2 h
  unfold triple
  rw [htype, hentity, hidentifier]

/-- The type segment and the entity of an accepted credential are not empty. -/
theorem ne_empty_of_parse {kind : Kind} {value : String} {c : Credential}
    (h : parse kind value = .ok c) : c.typeSegment ≠ "" ∧ c.entity ≠ "" := by
  have hfilled := filled_of_parse h
  have hfixed : Kind.service.pathSegment ≠ "" ∧ Kind.certificate.pathSegment ≠ "" := by
    decide +kernel
  cases c with
  | service c =>
    have hentity := hfilled ("entityName", c.entity) (by simp [required])
    exact ⟨hfixed.1, hentity⟩
  | certificate c =>
    have hentity := hfilled ("entityName", c.entity) (by simp [required])
    exact ⟨hfixed.2, hentity⟩
  | generic c =>
    have hentity := hfilled ("entityName", c.entity) (by simp [required])
    have htype := hfilled ("credentialType", c.type) (by simp [required])
    exact ⟨htype, hentity⟩

end CredentialRelay.Credential
