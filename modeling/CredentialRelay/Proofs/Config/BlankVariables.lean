import CredentialRelay.Config
import CredentialRelay.Proofs.Dictionary

/-!
# Blank variables

The settings are told by the variables that are set and not blank: a text that is blank counts as
its default, and a number that is blank cannot be read. Only the namespace of the secret is taken
from the first variable that is set, blank or not. So a blank variable can be left out of an
environment, unless it is the one that the namespace is taken from; then the namespace is blank, and
so is that of the secret with the token, if it is not set on its own.

* `text? env key`: the text of a variable, if it is not blank.
* `SameTexts env env'`: two environments differ in blank variables only.
* `namespaceVariable? env`: the variable that the namespace is taken from.

Results:
* `ofEnvironment_eq_iff`: what blank variables change is the namespace, and nothing else.
* `blank_is_unset_iff`: when a blank variable counts as unset.
* `blank_namespace_counts`: a blank variable that does not.
-/

namespace CredentialRelay.Config

variable {env env' : Environment} {key value : String}

/-! ## Variables that are not blank -/

/-- The text of a variable, if it is not blank. -/
def text? (env : Environment) (key : String) : Option String :=
  (env.get? key).filter fun value => !Text.allBlank value

/-- Two environments have the same variables that are not blank. -/
def SameTexts (env env' : Environment) : Prop :=
  ∀ key, text? env key = text? env' key

theorem text?_of_get? (h : env.get? key = some value) :
    text? env key = if Text.allBlank value then none else some value := by
  unfold text?
  rw [h, Option.filter_some]
  cases Text.allBlank value <;> rfl

theorem text?_of_unset (h : env.get? key = none) : text? env key = none := by
  unfold text?
  rw [h]
  rfl

theorem textOr_eq (env : Environment) (key default : String) :
    textOr env key default = (text? env key).getD default := by
  unfold textOr
  cases h : env.get? key with
  | none => rw [text?_of_unset h, Option.getD_none]
  | some value =>
    rw [text?_of_get? h]
    cases hblank : Text.allBlank value <;> simp [hblank]

/-- A blank text is no number. -/
theorem readNatural_trim_of_blank (bound : Nat) (hblank : Text.allBlank value = true) :
    Text.readNatural bound (Text.trim value).toList = .error .empty := by
  rw [Text.trim, String.toList_ofList, Text.trimBy_eq_nil_iff.mpr hblank]
  rfl

theorem naturalOr_eq (env : Environment) (key : String) (bound default : Nat) :
    naturalOr env key bound default = ((text? env key).bind fun value =>
      (Text.readNatural bound (Text.trim value).toList).toOption).getD default := by
  unfold naturalOr
  cases h : env.get? key with
  | none => rw [text?_of_unset h, Option.bind_none, Option.getD_none]
  | some value =>
    rw [text?_of_get? h]
    cases hblank : Text.allBlank value with
    | true => simp [readNatural_trim_of_blank bound hblank]
    | false =>
      simp only [Bool.false_eq_true, if_false, Option.bind_some]
      cases Text.readNatural bound (Text.trim value).toList <;> rfl

namespace SameTexts

theorem textOr (h : SameTexts env env') (key default : String) :
    textOr env key default = Config.textOr env' key default := by
  rw [textOr_eq, textOr_eq, h key]

theorem naturalOr (h : SameTexts env env') (key : String) (bound default : Nat) :
    naturalOr env key bound default = Config.naturalOr env' key bound default := by
  rw [naturalOr_eq, naturalOr_eq, h key]

end SameTexts

/-- An environment without a blank variable. -/
theorem sameTexts_erase (h : env.get? key = some value) (hblank : Text.allBlank value = true) :
    SameTexts env (env.erase key) := by
  intro other
  by_cases hother : other = key
  · subst hother
    rw [text?_of_get? h, if_pos hblank, text?_of_unset]
    rw [Dictionary.get?_erase, if_pos rfl]
  · unfold text?
    rw [Dictionary.get?_erase, if_neg hother]

/-! ## Settings -/

/-- Whether there are settings does not depend on blank variables, and neither does the method of
authentication but for the namespace. -/
theorem SameTexts.authOf (h : SameTexts env env') :
    (∃ failure, authOf env = .error failure ∧ Config.authOf env' = .error failure) ∨
      (∃ auth, Config.authOf env = .ok auth) ∧
        (namespaceOf env = namespaceOf env' → Config.authOf env = Config.authOf env') := by
  unfold Config.authOf
  simp only [h.textOr]
  split
  · exact .inr ⟨⟨_, rfl⟩, fun hspace => by rw [hspace]⟩
  · split
    · exact .inr ⟨⟨_, rfl⟩, fun _ => rfl⟩
    · exact .inl ⟨_, rfl, rfl⟩

theorem ofEnvironment_of_error {failure : Failure Cause} (h : authOf env = .error failure) :
    ofEnvironment env = .error failure := by
  unfold ofEnvironment
  rw [h]
  rfl

theorem namespaceName_of_ok {config : Config} (h : ofEnvironment env = .ok config) :
    config.namespaceName = namespaceOf env := by
  unfold ofEnvironment at h
  cases hauth : authOf env with
  | error failure =>
    rw [hauth] at h
    cases h
  | ok auth =>
    rw [hauth] at h
    cases h
    rfl

/-- **Blank variables change nothing but the namespace.** Two environments that differ in blank
variables only have the same settings exactly if these are refused or have the same namespace. -/
theorem ofEnvironment_eq_iff (h : SameTexts env env') :
    ofEnvironment env = ofEnvironment env' ↔
      (∃ failure, ofEnvironment env = .error failure) ∨ namespaceOf env = namespaceOf env' := by
  rcases h.authOf with ⟨failure, herror, herror'⟩ | ⟨⟨auth, hauth⟩, hsame⟩
  · have hrefused := ofEnvironment_of_error herror
    exact iff_of_true (hrefused.trans (ofEnvironment_of_error herror').symm)
      (.inl ⟨failure, hrefused⟩)
  · obtain ⟨config, hconfig⟩ : ∃ config, ofEnvironment env = .ok config := by
      unfold ofEnvironment
      rw [hauth]
      exact ⟨_, rfl⟩
    constructor
    · intro heq
      exact .inr ((namespaceName_of_ok hconfig).symm.trans (namespaceName_of_ok (heq ▸ hconfig)))
    · rintro (⟨failure, hrefused⟩ | hspace)
      · rw [hconfig] at hrefused
        cases hrefused
      · unfold ofEnvironment
        simp only [hsame hspace, hspace, h.textOr, h.naturalOr]

/-! ## The namespace -/

/-- The variable that tells the namespace of the secret. -/
def secretSpace : String := "VAULT_CRED_SYNC_SECRET_NAMESPACE"

/-- The variable that tells the namespace of the process. -/
def processSpace : String := "POD_NAMESPACE"

/-- The variable that the namespace is taken from. -/
def namespaceVariable? (env : Environment) : Option String :=
  [secretSpace, processSpace].find? fun key => (env.get? key).isSome

theorem namespaceOf_eq (env : Environment) : namespaceOf env =
    ((env.get? secretSpace).or (env.get? processSpace)).getD "default" :=
  rfl

theorem processSpace_ne : processSpace ≠ secretSpace := by
  decide

theorem namespaceVariable?_eq (env : Environment) : namespaceVariable? env =
    if (env.get? secretSpace).isSome then some secretSpace
    else if (env.get? processSpace).isSome then some processSpace else none := by
  unfold namespaceVariable?
  rw [List.find?_cons, List.find?_cons]
  cases env.get? secretSpace with
  | some _ => rfl
  | none => cases env.get? processSpace <;> rfl

/-- **When a blank variable can be left out** without a change of the namespace: when that is taken
from another variable, or the next one has the same text. -/
theorem namespaceOf_erase_iff (h : env.get? key = some value)
    (hblank : Text.allBlank value = true) :
    namespaceOf env = namespaceOf (env.erase key) ↔
      namespaceVariable? env ≠ some key ∨
        key = secretSpace ∧ env.get? processSpace = some value := by
  have hvalue : value ≠ "default" := by
    rintro rfl
    exact absurd hblank (by decide)
  rw [namespaceOf_eq, namespaceOf_eq, namespaceVariable?_eq, Dictionary.get?_erase,
    Dictionary.get?_erase]
  by_cases hsecret : key = secretSpace
  · -- The namespace of the process, or else the default, takes the place of the blank one.
    subst hsecret
    rw [h, if_pos rfl, if_neg processSpace_ne]
    cases hprocess : env.get? processSpace with
    | none => simp [hvalue]
    | some space => simp [eq_comm]
  · rw [if_neg (Ne.symm hsecret)]
    cases hset : env.get? secretSpace with
    | some space => simp [Ne.symm hsecret]
    | none =>
      by_cases hprocess : key = processSpace
      · -- The default takes the place of the blank one, and is not blank.
        subst hprocess
        simp [h, hvalue, hsecret]
      · rw [if_neg (Ne.symm hprocess)]
        cases env.get? processSpace <;> simp [Ne.symm hprocess]

/-- The namespace is the text of the variable that it is taken from. -/
theorem namespaceOf_of_variable (hvariable : namespaceVariable? env = some key)
    (h : env.get? key = some value) : namespaceOf env = value := by
  rw [namespaceVariable?_eq] at hvariable
  rw [namespaceOf_eq]
  cases hset : env.get? secretSpace with
  | some space =>
    rw [hset] at hvariable
    obtain rfl := Option.some.inj hvariable
    exact Option.some.inj (hset.symm.trans h)
  | none =>
    rw [hset] at hvariable
    cases hprocess : env.get? processSpace with
    | some space =>
      rw [hprocess] at hvariable
      obtain rfl := Option.some.inj hvariable
      exact Option.some.inj (hprocess.symm.trans h)
    | none =>
      rw [hprocess] at hvariable
      cases hvariable

/-! ## Blank variables -/

/-- **When a blank variable counts as unset.** The settings are those without it, or the method of
authentication is refused with it and without it, exactly if the namespace is not taken from it, or
the namespace of the process has the same text. Otherwise the namespace is the blank text. -/
theorem blank_is_unset_iff (h : env.get? key = some value) (hblank : Text.allBlank value = true) :
    (ofEnvironment env = ofEnvironment (env.erase key) ↔
      (∃ failure, ofEnvironment env = .error failure) ∨ namespaceVariable? env ≠ some key ∨
        key = secretSpace ∧ env.get? processSpace = some value) ∧
    (namespaceVariable? env = some key → ∀ config, ofEnvironment env = .ok config →
      config.namespaceName = value) := by
  constructor
  · rw [ofEnvironment_eq_iff (sameTexts_erase h hblank), namespaceOf_erase_iff h hblank]
  · intro hvariable config hconfig
    rw [namespaceName_of_ok hconfig]
    exact namespaceOf_of_variable hvariable h

/-- An environment with a blank address and a namespace. -/
def blankAddress : Environment :=
  Dictionary.ofList [("VAULT_ADDR", " \t"), ("POD_NAMESPACE", "vault-cred")]

/-- A blank address counts as the default. -/
theorem blank_is_unset_iff_address :
    blankAddress.get? "VAULT_ADDR" = some " \t" ∧ Text.allBlank " \t" = true ∧
      ofEnvironment blankAddress = ofEnvironment (blankAddress.erase "VAULT_ADDR") := by
  have h : blankAddress.get? "VAULT_ADDR" = some " \t" := by decide
  have hblank : Text.allBlank " \t" = true := by decide
  exact ⟨h, hblank, (blank_is_unset_iff h hblank).1.mpr (.inr (.inl (by decide)))⟩

/-- An environment with a namespace for the process, and a blank one for the secret. -/
def blankNamespace : Environment :=
  Dictionary.ofList [("POD_NAMESPACE", "vault-cred"), ("VAULT_CRED_SYNC_SECRET_NAMESPACE", "")]

/-- **A blank namespace counts**: it does not fall back to that of the process, and the secret with
the token is looked for there too. -/
theorem blank_namespace_counts :
    let unset := blankNamespace.erase "VAULT_CRED_SYNC_SECRET_NAMESPACE"
    blankNamespace.get? "VAULT_CRED_SYNC_SECRET_NAMESPACE" = some "" ∧
      ofEnvironment blankNamespace ≠ ofEnvironment unset ∧
      (∃ config, ofEnvironment blankNamespace = .ok config ∧ config.namespaceName = "" ∧
        config.vault.auth = .token "vault-server-init" "" "root-token") ∧
      ∃ config, ofEnvironment unset = .ok config ∧ config.namespaceName = "vault-cred" ∧
        config.vault.auth = .token "vault-server-init" "vault-cred" "root-token" := by
  intro unset
  have hblank : ∃ config, ofEnvironment blankNamespace = .ok config ∧ config.namespaceName = "" ∧
      config.vault.auth = .token "vault-server-init" "" "root-token" :=
    ⟨_, rfl, by decide +kernel, by decide +kernel⟩
  have hunset : ∃ config,
      ofEnvironment (blankNamespace.erase "VAULT_CRED_SYNC_SECRET_NAMESPACE") = .ok config ∧
        config.namespaceName = "vault-cred" ∧
        config.vault.auth = .token "vault-server-init" "vault-cred" "root-token" :=
    ⟨_, rfl, by decide +kernel, by decide +kernel⟩
  refine ⟨by decide, fun hsame => ?_, hblank, hunset⟩
  obtain ⟨config, hconfig, hname, -⟩ := hblank
  obtain ⟨config', hconfig', hname', -⟩ := hunset
  obtain rfl := Except.ok.inj (hconfig.symm.trans (hsame.trans hconfig'))
  exact absurd (hname.symm.trans hname') (by decide)

end CredentialRelay.Config
