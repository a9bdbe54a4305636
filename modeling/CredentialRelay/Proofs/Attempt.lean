import CredentialRelay.Attempt

/-!
# Parts of attempts

What is known of an attempt from the parts that it was put together from. One that succeeded had
only parts that succeeded, and left the world of the last of them. The same holds of results that
come without a world.

Results:
* `bind_ok`: a result in two parts is there by both.
* `exists_mapM_ok_iff`, `mem_of_mapM_ok`: results of a list are there by all of them.
* `Attempt.andThen_ok`: an attempt in two parts succeeds by both.
* `Attempt.lift_andThen`: an attempt in two parts is seen in another world by both.
-/

namespace CredentialRelay

/-- **A result in two parts is there by both.** -/
theorem bind_ok {ε α β : Type} {a : Except ε α} {next : α → Except ε β} {value : β}
    (h : (a >>= next) = .ok value) : ∃ first, a = .ok first ∧ next first = .ok value := by
  cases a with
  | error _ => cases h
  | ok first => exact ⟨first, rfl, h⟩

/-- A result is not there by changing its failure. -/
theorem mapError_eq_ok {ε μ α : Type} {f : ε → μ} {a : Except ε α} {value : α}
    (h : a.mapError f = .ok value) : a = .ok value := by
  cases a with
  | error _ => cases h
  | ok first =>
    cases h
    rfl

/-- What is left of a result without its failure. -/
theorem toOption_eq_some_iff {ε α : Type} {a : Except ε α} {value : α} :
    a.toOption = some value ↔ a = .ok value := by
  cases a with
  | error _ => exact iff_of_false nofun nofun
  | ok first => exact ⟨fun h => congrArg Except.ok (Option.some.inj h), fun h => by rw [h]; rfl⟩

/-- A result that was changed was there before. -/
theorem map_eq_ok {ε α β : Type} {f : α → β} {a : Except ε α} {value : β}
    (h : a.map f = .ok value) : ∃ first, a = .ok first ∧ f first = value := by
  cases a with
  | error _ => cases h
  | ok first =>
    cases h
    exact ⟨first, rfl, rfl⟩

section

variable {ε α β : Type} {f : α → Except ε β}

/-- Results of a list are those of its first member and of the others. -/
theorem mapM_cons_ok_iff {x : α} {xs : List α} {ys : List β} : (x :: xs).mapM f = .ok ys ↔
    ∃ first more, f x = .ok first ∧ xs.mapM f = .ok more ∧ ys = first :: more := by
  rw [List.mapM_cons]
  constructor
  · intro h
    obtain ⟨first, hfirst, h⟩ := bind_ok h
    obtain ⟨more, hmore, h⟩ := bind_ok h
    cases h
    exact ⟨first, more, hfirst, hmore, rfl⟩
  · rintro ⟨first, more, hfirst, hmore, rfl⟩
    rw [hfirst, hmore]
    rfl

/-- **Results of a list are there by all of them.** -/
theorem exists_mapM_ok_iff : ∀ {xs : List α},
    (∃ ys, xs.mapM f = .ok ys) ↔ ∀ x ∈ xs, ∃ y, f x = .ok y
  | [] => ⟨fun _ => nofun, fun _ => ⟨[], rfl⟩⟩
  | x :: xs => by
    have ih : (∃ ys, xs.mapM f = .ok ys) ↔ ∀ x ∈ xs, ∃ y, f x = .ok y := exists_mapM_ok_iff
    simp only [mapM_cons_ok_iff, List.forall_mem_cons, ← ih]
    constructor
    · rintro ⟨_, first, more, hfirst, hmore, -⟩
      exact ⟨⟨first, hfirst⟩, more, hmore⟩
    · rintro ⟨⟨first, hfirst⟩, more, hmore⟩
      exact ⟨_, first, more, hfirst, hmore, rfl⟩

/-- The results of a list are those of its members. -/
theorem mem_of_mapM_ok {y : β} : ∀ {xs : List α} {ys : List β}, xs.mapM f = .ok ys →
    (y ∈ ys ↔ ∃ x ∈ xs, f x = .ok y)
  | [], ys, h => by
    cases h
    simp
  | x :: xs, ys, h => by
    obtain ⟨first, more, hfirst, hmore, rfl⟩ := mapM_cons_ok_iff.mp h
    have ih := mem_of_mapM_ok (y := y) hmore
    simp [ih, hfirst, eq_comm]

end

namespace Attempt

variable {κ μ σ α β : Type}

/-- **A success goes on from a success**, and leaves the world of the second part. -/
theorem andThen_ok {a : Attempt κ σ α} {next : α → σ → Attempt κ σ β} {value : β}
    (h : (a.andThen next).result = .ok value) :
    ∃ first, a.result = .ok first ∧ (next first a.world).result = .ok value ∧
      (a.andThen next).world = (next first a.world).world := by
  obtain ⟨result, log, world⟩ := a
  cases result with
  | error failure => cases h
  | ok first => exact ⟨first, rfl, h, rfl⟩

/-- What an attempt leaves that fails before it goes on. -/
theorem world_andThen_of_error {a : Attempt κ σ α} {next : α → σ → Attempt κ σ β}
    {failure : Failure κ} (h : a.result = .error failure) : (a.andThen next).world = a.world := by
  unfold andThen
  rw [h]

/-- What an attempt leaves that goes on. -/
theorem world_andThen_of_ok {a : Attempt κ σ α} {next : α → σ → Attempt κ σ β} {value : α}
    (h : a.result = .ok value) : (a.andThen next).world = (next value a.world).world := by
  unfold andThen
  rw [h]

/-- What comes of an attempt that fails before it goes on. -/
theorem result_andThen_of_error {a : Attempt κ σ α} {next : α → σ → Attempt κ σ β}
    {failure : Failure κ} (h : a.result = .error failure) :
    (a.andThen next).result = .error failure := by
  unfold andThen
  rw [h]

/-- What comes of an attempt that goes on. -/
theorem result_andThen_of_ok {a : Attempt κ σ α} {next : α → σ → Attempt κ σ β} {value : α}
    (h : a.result = .ok value) : (a.andThen next).result = (next value a.world).result := by
  unfold andThen
  rw [h]

/-- What an attempt leaves that goes on with a part that does not act. -/
theorem world_andThen_of_same {a : Attempt κ σ α} {next : α → σ → Attempt κ σ β}
    (h : ∀ value world, (next value world).world = world) : (a.andThen next).world = a.world := by
  cases ha : a.result with
  | error failure => exact world_andThen_of_error ha
  | ok value => rw [world_andThen_of_ok ha, h]

theorem within_ok {context : κ} {a : Attempt κ σ α} {value : α}
    (h : (a.within context).result = .ok value) : a.result = .ok value := by
  obtain ⟨result, log, world⟩ := a
  cases result with
  | error failure => cases h
  | ok first => exact h

theorem mapCause_ok {f : κ → μ} {a : Attempt κ σ α} {value : α}
    (h : (a.mapCause f).result = .ok value) : a.result = .ok value := by
  obtain ⟨result, log, world⟩ := a
  cases result with
  | error failure => cases h
  | ok first =>
    cases h
    rfl

theorem map_ok {f : α → β} {a : Attempt κ σ α} {value : β}
    (h : (a.map f).result = .ok value) : ∃ first, a.result = .ok first ∧ f first = value := by
  obtain ⟨result, log, world⟩ := a
  cases result with
  | error failure => cases h
  | ok first =>
    cases h
    exact ⟨first, rfl, rfl⟩

/-- **An attempt in two parts is seen in another world by both.** -/
theorem lift_andThen {τ : Type} {see : σ → τ} {a : Attempt κ σ α}
    {next : α → σ → Attempt κ σ β} {next' : α → τ → Attempt κ τ β}
    (h : ∀ value world, (next value world).lift see = next' value (see world)) :
    (a.andThen next).lift see = (a.lift see).andThen next' := by
  obtain ⟨result, log, world⟩ := a
  cases result with
  | error failure => rfl
  | ok value =>
    simp only [andThen, lift, ← h]

theorem map_map {γ : Type} (f : α → β) (g : β → γ) (a : Attempt κ σ α) :
    (a.map f).map g = a.map fun value => g (f value) := by
  obtain ⟨result, log, world⟩ := a
  cases result <;> rfl

theorem lift_map {τ : Type} (see : σ → τ) (f : α → β) (a : Attempt κ σ α) :
    (a.map f).lift see = (a.lift see).map f := rfl

theorem lift_inSpan {τ : Type} (see : σ → τ) (span : Log.Span) (a : Attempt κ σ α) :
    (a.inSpan span).lift see = (a.lift see).inSpan span := rfl

theorem lift_telling {τ : Type} (see : σ → τ) (a : Attempt κ σ α) (event : α → Log.Event) :
    (a.telling event).lift see = (a.lift see).telling event := by
  obtain ⟨result, log, world⟩ := a
  cases result <;> rfl

/-- An event that tells alike of a value before and after it was changed. -/
theorem map_telling {f : α → β} {a : Attempt κ σ α} {event : α → Log.Event}
    (event' : β → Log.Event) (h : ∀ value, event value = event' (f value)) :
    (a.telling event).map f = (a.map f).telling event' := by
  obtain ⟨result, log, world⟩ := a
  cases result with
  | error failure => rfl
  | ok value => exact congrArg (Attempt.mk _ · world) (congrArg (log ++ [·]) (h value))

@[simp] theorem result_telling (a : Attempt κ σ α) (event : α → Log.Event) :
    (a.telling event).result = a.result := by
  unfold telling
  split <;> rfl

theorem result_map_of_error {a : Attempt κ σ α} {failure : Failure κ}
    (h : a.result = .error failure) (f : α → β) : (a.map f).result = .error failure := by
  unfold map
  rw [h]
  rfl

/-- After a failure nothing more is told. -/
theorem telling_of_error {a : Attempt κ σ α} {failure : Failure κ} (h : a.result = .error failure)
    (event : α → Log.Event) : a.telling event = a := by
  unfold telling
  rw [h]

@[simp] theorem world_telling (a : Attempt κ σ α) (event : α → Log.Event) :
    (a.telling event).world = a.world := by
  unfold telling
  split <;> rfl

end Attempt

end CredentialRelay
