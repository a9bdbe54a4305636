import CredentialRelay.Proofs.Json.Elements
import CredentialRelay.Proofs.Vault.Opening

/-!
# What is said of a refusal

The vault refuses with a response that is no success. The root of the failure is then what the vault
said: its reasons, if the body of the response tells some, and else the status with the whole body.
Above the root stands what was tried.

* `TellsReasons v reasons`: the value tells the reasons of a refusal.
* `Opening.IsRefused`, `Session.IsRefused`: the last response to an attempt to open a session, or to
  store something through it, is no success.

Results:
* `reasonsMeaning_iff`: what is read of a value are the reasons that it tells.
* `refusal_of_reasons`, `refusal_of_no_reasons`: the root of the failure.
* `Opening.run_of_isRefused`, `Session.store_of_isRefused`: the failure.
-/

namespace CredentialRelay.Vault

open Json

/-! ## What a response says -/

/-- A value tells reasons: it is an object of members with names, whose only `errors` is a list of
strings that say the reasons, or a list of that. There is at least one reason. -/
def TellsReasons (v : Value) (reasons : List String) : Prop :=
  reasons ≠ [] ∧
    match v with
    | .bracketed .object items =>
      (∀ v, (none, v) ∉ items.members) ∧
        items.members.Gives "errors" (Value.list? Value.string?) reasons
    | .bracketed .list items => ∃ v, items.values = [v] ∧ v.list? Value.string? = some reasons
    | .scalar _ => False

/-! ## Reasons that are read -/

/-- What a value means as a list of reasons. -/
def reasonsMeaning : Value → Option (List String) :=
  errorsShape.meaning (fun _ _ => Value.list? Value.string?) []

/-- What members say of the reasons. -/
def reasonsOf (reasons : List String) (ms : Members) : List String :=
  ms.getD "errors" (Value.list? Value.string?) reasons

theorem errorsFields_means : ∀ field ∈ errorsShape.fields, ∀ reasons,
    Means (field.read reasons) (Value.list? Value.string?) := by
  simp only [errorsShape, List.forall_mem_cons]
  exact ⟨fun _ => list_means text_means, List.forall_mem_nil _⟩

theorem errors_spells : Spells (errorsShape.read []) := by
  refine Shape.read_spells ?_ _
  simp only [errorsShape, List.forall_mem_cons]
  exact ⟨fun _ => list_spells text_spells, List.forall_mem_nil _⟩

theorem reasonsOf_cons : ∀ field ∈ errorsShape.fields, ∀ reasons v others ms,
    Value.list? Value.string? v = some others → some field.name ∉ ms.map Prod.fst →
      reasonsOf reasons ((some field.name, v) :: ms) = reasonsOf others ms := by
  simp only [errorsShape, List.forall_mem_cons]
  refine ⟨fun reasons v others ms hv hms => ?_, List.forall_mem_nil _⟩
  simp [reasonsOf, Members.getD_cons, Members.getD_absent hms, hv]

theorem errorsShape_builds :
    errorsShape.Builds (fun _ v => (v.list? Value.string?).isSome) reasonsOf where
  unique := rfl
  required := by decide
  start _ := rfl
  passed reasons name v ms hname := by
    simp [Shape.names, errorsShape] at hname
    simp [reasonsOf, Members.getD_cons, hname]
  fills field hfield := ⟨fun _ => Value.list? Value.string?, errorsFields_means field hfield,
    fun _ _ => rfl, reasonsOf_cons field hfield⟩

/-- **A value means some reasons exactly if it tells them.** -/
theorem reasonsMeaning_iff {v : Value} {reasons : List String} (hne : reasons ≠ []) :
    reasonsMeaning v = some reasons ↔ TellsReasons v reasons := by
  unfold TellsReasons
  rw [and_iff_right hne]
  match v with
  | .scalar s => exact iff_of_false nofun id
  | .bracketed .list items =>
    show errorsShape.fill (fun _ _ => Value.list? Value.string?) errorsShape.fields []
      items.values = some reasons ↔ ∃ v, items.values = [v] ∧ v.list? Value.string? = some reasons
    match items.values with
    | [] => simpa [errorsShape, Shape.fill] using hne.symm
    | [v] => cases hv : v.list? Value.string? <;> simp [errorsShape, Shape.fill, hv]
    | v :: w :: vs => cases hv : v.list? Value.string? <;> simp [errorsShape, Shape.fill, hv]
  | .bracketed .object items =>
    show errorsShape.meaning (fun _ _ => Value.list? Value.string?) [] (.bracketed .object items) =
      some reasons ↔ (∀ v, (none, v) ∉ items.members) ∧
        items.members.Gives "errors" (Value.list? Value.string?) reasons
    rw [errorsShape_builds.meaning_object (fun _ _ _ _ => rfl) reasonsOf_cons, Members.sound_iff]
    have hgives : items.members.Gives "errors" (Value.list? Value.string?) reasons ↔
        items.members.GivesOr "errors" (Value.list? Value.string?) [] reasons :=
      (or_iff_left fun h => hne h.2).symm
    rw [hgives, Members.givesOr_iff]
    simp only [Shape.names, Shape.Complete, errorsShape, reasonsOf, List.map_cons, List.map_nil,
      List.forall_mem_cons, List.not_mem_nil, false_implies, implies_true, and_true, true_and]
    rw [and_assoc, and_assoc]

/-! ## The root of a failure -/

variable {response : Http.Response} {reasons : List String}

/-- The reasons are read of a body that tells them. -/
theorem decode_errors_iff {text : String} (hne : reasons ≠ []) :
    decode (errorsShape.read []) text = .ok reasons ↔
      ∃ v, Holds text v ∧ TellsReasons v reasons := by
  rw [decode_ok_iff (Shape.read_means errorsFields_means _) errors_spells]
  exact exists_congr fun v => and_congr_right fun _ => reasonsMeaning_iff hne

/-- **Reasons that are told are the root.** -/
theorem refusal_of_reasons {v : Value} (h : Holds response.text v)
    (htells : TellsReasons v reasons) :
    refusal response = .errors response.status reasons := by
  have hdecode := (decode_errors_iff htells.1).mpr ⟨v, h, htells⟩
  obtain ⟨e, es, rfl⟩ := List.exists_cons_of_ne_nil htells.1
  unfold refusal
  rw [hdecode]

/-- **Where no reasons are told, the root is all that was said.** -/
theorem refusal_of_no_reasons (h : ∀ v reasons, Holds response.text v → ¬TellsReasons v reasons) :
    refusal response = .refused response.status response.text := by
  unfold refusal
  split
  · next e es hdecode =>
    obtain ⟨v, hholds, htells⟩ := (decode_errors_iff (List.cons_ne_nil e es)).mp hdecode
    exact absurd htells (h v (e :: es) hholds)
  · rfl

/-! ## The failure -/

/-- The last response to an attempt to open a session is no success. -/
def Opening.IsRefused (o : Opening) (address : String) (server : Server)
    (response : Http.Response) : Prop :=
  (send o.purpose o.method (o.url address) o.token? o.body? server).result = .ok response ∧
    Http.isSuccess response.status = false

/-- The last response to an attempt to store something is no success. -/
def Session.IsRefused (s : Session) (mount path : String) (attributes : Attributes)
    (server : Server) (response : Http.Response) : Prop :=
  (send (.writing (Text.trimSlashes mount) (Text.trimSlashes path)) .post (s.storeUrl mount path)
    (some s.token) (some (.data attributes)) server).result = .ok response ∧
    Http.isSuccess response.status = false

theorem result_checked_of_refused {context : Cause} (server : Server)
    (h : Http.isSuccess response.status = false) :
    (checked context response server).result = .error ⟨context, [refusal response]⟩ := by
  unfold checked
  rw [if_neg (Bool.eq_false_iff.mp h)]
  rfl

/-- What was sent and refused is a failure in its context. -/
theorem result_sendChecked_of_refused (context : Cause) {purpose : Cause} {method : Http.Method}
    {url : String} {token : Option String} {body : Option Body} {server : Server}
    (hsent : (send purpose method url token body server).result = .ok response)
    (h : Http.isSuccess response.status = false) :
    ((send purpose method url token body server).andThen (checked context)).result =
      .error ⟨context, [refusal response]⟩ :=
  (Attempt.result_andThen_of_ok hsent).trans (result_checked_of_refused _ h)

/-- **The failure to open a session** is what was tried, and below it what the vault said. -/
theorem Opening.run_of_isRefused {o : Opening} {address : String} {server : Server}
    (h : o.IsRefused address server response) :
    (o.run address server).result = .error ⟨o.context, [refusal response]⟩ := by
  obtain ⟨hsent, hstatus⟩ := h
  cases o with
  | known token =>
    have hfailed := result_sendChecked_of_refused .lookupRefused hsent hstatus
    unfold run Session.withToken
    simp only [Attempt.result_telling, Attempt.map]
    exact congrArg (Except.map _) hfailed
  | login mount role jwt =>
    have hfailed := result_sendChecked_of_refused (.loginRefused role) hsent hstatus
    unfold run Session.login
    simp only [Attempt.result_telling, Attempt.map]
    exact congrArg (Except.map _) (Attempt.result_andThen_of_error hfailed)

/-- **The failure to store something** is what was tried, and below it what the vault said. -/
theorem Session.store_of_isRefused {s : Session} {mount path : String} {attributes : Attributes}
    {server : Server} (h : s.IsRefused mount path attributes server response) :
    (s.store mount path attributes server).result = .error ⟨.writeRefused
      (Text.trimSlashes mount) (Text.trimSlashes path), [refusal response]⟩ := by
  obtain ⟨hsent, hstatus⟩ := h
  have hfailed := result_sendChecked_of_refused (.writeRefused (Text.trimSlashes mount)
    (Text.trimSlashes path)) hsent hstatus
  unfold store
  simp only [Attempt.inSpan, Attempt.result_telling, Attempt.map]
  exact congrArg (Except.map _) hfailed

end CredentialRelay.Vault
