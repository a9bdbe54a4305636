import CredentialRelay.Text.Lowercase

/-!
# Kinds of credentials

The key of an entry begins with a marker that tells its kind. The markers are tried in a fixed
order, so a key that begins with more than one of them belongs to the first.

Models `classify` (`Kind.ofKey?`).

Results:
* `Kind.ofKey?_eq_some_iff`: a key has a kind exactly if it begins with the marker of the kind.
-/

namespace CredentialRelay.Credential

/-- What a credential is. -/
inductive Kind where
  /-- A user name with a password. -/
  | service
  /-- A certificate with its private key and its authority. -/
  | certificate
  /-- Any attributes. -/
  | generic
  deriving Repr, DecidableEq

namespace Kind

/-- The kinds in the order in which their markers are tried. -/
def all : List Kind :=
  [.service, .certificate, .generic]

/-- What the keys of this kind begin with. -/
def marker : Kind → String
  | .service => "SERVICE-CRED"
  | .certificate => "CERTS"
  | .generic => "GENERIC"

/-- The name of the kind in metrics and log fields. -/
def label : Kind → String
  | .service => "service_credential"
  | .certificate => "certificate"
  | .generic => "generic"

/-- Whether `key` begins with the marker. -/
def marks (kind : Kind) (key : String) : Bool :=
  kind.marker.toList.isPrefixOf key.toList

/-- The kind of an entry with the given key. -/
def ofKey? (key : String) : Option Kind :=
  all.find? fun kind => kind.marks key

/-- The kind of a label. -/
def ofLabel? (label : String) : Option Kind :=
  all.find? fun kind => kind.label == label

/-- The first segment of the paths of this kind, where the kind fixes it. -/
def pathSegment (kind : Kind) : String :=
  Text.lowercase kind.marker

/-- No key begins with the markers of two kinds. -/
theorem eq_of_marks {key : String} {a b : Kind} (ha : a.marks key = true)
    (hb : b.marks key = true) : a = b := by
  simp only [marks, List.isPrefixOf_iff_prefix] at ha hb
  obtain ⟨s, hs⟩ := ha
  obtain ⟨t, ht⟩ := hb
  have h : a.marker.toList ++ s = b.marker.toList ++ t := hs.trans ht.symm
  have hhead : (a.marker.toList ++ s).head? = (b.marker.toList ++ t).head? := by rw [h]
  cases a <;> cases b <;> first | rfl | (exact absurd hhead (by simp [marker]))

/-- A key has a kind exactly if it begins with the marker of the kind. -/
theorem ofKey?_eq_some_iff {key : String} {kind : Kind} :
    ofKey? key = some kind ↔ kind.marks key = true := by
  have marked {other : Kind} (h : ofKey? key = some other) : other.marks key = true := by
    simp only [ofKey?] at h
    exact List.find?_some (p := fun kind : Kind => kind.marks key) h
  constructor
  · exact marked
  · intro h
    cases hf : ofKey? key with
    | some other => rw [eq_of_marks h (marked hf)]
    | none =>
      have := List.find?_eq_none.1 hf kind (by cases kind <;> simp [all])
      exact absurd h this

end Kind

end CredentialRelay.Credential
