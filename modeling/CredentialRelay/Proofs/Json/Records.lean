import CredentialRelay.Proofs.Json.Values
import Mathlib.Tactic.Choose

/-!
# Records and the members of objects

A record whose members may not be repeated is read from an object exactly if the members have names,
those that it asks for are given once at most, each of these has a value that is taken, and those
that have no default are there. What is read then does not depend on the order of the members, nor on
others that stand between them.

* `Document`: a text that is one object.
* `Members.getD ms name meaning default`: what the member of a name means, or a default.
* `Members.Sound names takes seen ms`: a record with these names is read from the members behind
  those that were seen.
* `Members.Gives ms name meaning a`: the only member of a name means `a`; `Members.GivesOr` allows for
  a default.
* `Shape.Builds takes record`: what a record is made of from its members.
* `Shape.Complete ms`: the members that have no default are there.
* `Shape.meaning means start`: what a value means as a record.

Results:
* `Members.sound_iff`, `Members.givesOr_iff`: members are sound if each gives something.
* `Shape.Builds.run_members`, `Shape.Builds.meaning_object`: a record is made of the members of an
  object exactly if they are sound and complete.
* `Shape.Builds.read_members`: the members are read exactly then.
* `Shape.Builds.decode_document`: so is a document, and nothing but its members counts.
-/

namespace CredentialRelay.Json

/-! ## Documents -/

/-- A text that is one object. -/
structure Document where
  ahead : Blanks
  items : Items .object
  behind : Blanks

/-- The characters of a document. -/
def Document.text (d : Document) : String :=
  String.ofList (d.ahead.1 ++ ((Value.bracketed .object d.items).text ++ d.behind.1))

/-- The members of a document. -/
def Document.members (d : Document) : Members :=
  d.items.members

/-! ## Members by their names -/

namespace Members

variable {α β : Type} {names : List String} {takes : String → Value → Bool} {seen : List String}
  {name : String} {v : Value} {ms : Members}

/-- What the first member of a name means, or a default if there is none. -/
def getD (ms : Members) (name : String) (meaning : Value → Option α) (default : α) : α :=
  ((ms.lookup (some name)).bind meaning).getD default

theorem getD_cons (other : String) (v : Value) (ms : Members) (name : String)
    (meaning : Value → Option α) (default : α) :
    getD ((some other, v) :: ms) name meaning default =
      if other = name then (meaning v).getD default else ms.getD name meaning default := by
  unfold getD
  rw [List.lookup_cons]
  by_cases h : other = name
  · subst h
    simp
  · have hne : (some name == some other) = false := by
      simpa using fun hsame => h hsame.symm
    simp [hne, h]

theorem getD_absent (h : some name ∉ ms.map Prod.fst) (meaning : Value → Option α) (default : α) :
    ms.getD name meaning default = default := by
  have hlookup : ms.lookup (some name) = none := by
    refine List.lookup_eq_none_iff.mpr fun member hmember => ?_
    have hne : some name ≠ member.1 := fun hsame => h (hsame ▸ List.mem_map_of_mem hmember)
    simpa using hne
  rw [getD, hlookup]
  rfl

theorem getD_of_mem (hcount : (ms.map Prod.fst).count (some name) ≤ 1) (h : (some name, v) ∈ ms)
    (meaning : Value → Option α) (default : α) :
    ms.getD name meaning default = (meaning v).getD default := by
  obtain ⟨before, after, rfl⟩ := List.append_of_mem h
  have habsent : some name ∉ before.map Prod.fst := by
    intro hmem
    have hpos := List.count_pos_iff.mpr hmem
    rw [List.map_append, List.count_append, List.map_cons, List.count_cons_self] at hcount
    omega
  have hlookup : (before ++ (some name, v) :: after).lookup (some name) = some v := by
    refine List.lookup_eq_some_iff.mpr ⟨before, after, rfl, fun member hmember => ?_⟩
    have hne : some name ≠ member.1 := fun hsame => habsent (hsame ▸ List.mem_map_of_mem hmember)
    simpa using hne
  rw [getD, hlookup, Option.bind_some]

/-- A member that is absent or `null` means the default. -/
theorem getD_of_null (h : ∀ v, (some name, v) ∈ ms → v = .scalar .null)
    {meaning : Value → Option α} {default : α} (hnull : meaning (.scalar .null) = some default) :
    ms.getD name meaning default = default := by
  unfold getD
  cases hlookup : ms.lookup (some name) with
  | none => rfl
  | some v =>
    obtain ⟨before, after, rfl, -⟩ := List.lookup_eq_some_iff.mp hlookup
    obtain rfl := h v (List.mem_append_right _ List.mem_cons_self)
    rw [Option.bind_some, hnull, Option.getD_some]

/-- Members of which a record can be made, behind those that were seen: they have names, the record
has no member twice, and their values are taken. -/
structure Sound (names : List String) (takes : String → Value → Bool) (seen : List String)
    (ms : Members) : Prop where
  named : ∀ v, (none, v) ∉ ms
  distinct : ∀ name ∈ names, seen.count name + (ms.map Prod.fst).count (some name) ≤ 1
  taken : ∀ name ∈ names, ∀ v, (some name, v) ∈ ms → takes name v = true

theorem not_sound_unnamed : ¬Sound names takes seen ((none, v) :: ms) :=
  fun h => h.named v List.mem_cons_self

theorem count_cons (name other : String) (v : Value) (ms : Members) :
    (((some name, v) :: ms).map Prod.fst).count (some other) =
      (ms.map Prod.fst).count (some other) + if name = other then 1 else 0 := by
  rw [List.map_cons, List.count_cons]
  by_cases h : name = other <;> simp [h]

/-- A member that is not asked for makes no difference. -/
theorem sound_passed (hname : name ∉ names) :
    Sound names takes seen ((some name, v) :: ms) ↔ Sound names takes seen ms := by
  have hne : ∀ other ∈ names, other ≠ name := fun other hother hsame => hname (hsame ▸ hother)
  have hcount : ∀ other ∈ names, (((some name, v) :: ms).map Prod.fst).count (some other) =
      (ms.map Prod.fst).count (some other) := by
    intro other hother
    rw [count_cons, if_neg (hne other hother).symm, Nat.add_zero]
  constructor
  · rintro ⟨hnamed, hdistinct, htaken⟩
    exact ⟨fun w h => hnamed w (List.mem_cons_of_mem _ h),
      fun other hother => hcount other hother ▸ hdistinct other hother,
      fun other hother w h => htaken other hother w (List.mem_cons_of_mem _ h)⟩
  · rintro ⟨hnamed, hdistinct, htaken⟩
    refine ⟨fun w h => hnamed w ((List.mem_cons.mp h).resolve_left nofun),
      fun other hother => (hcount other hother).symm ▸ hdistinct other hother,
      fun other hother w h => htaken other hother w ((List.mem_cons.mp h).resolve_left ?_)⟩
    rintro ⟨⟩
    exact hname hother

/-- A member that is asked for is taken, and counts as seen from then on. -/
theorem sound_known (hname : name ∈ names) :
    Sound names takes seen ((some name, v) :: ms) ↔
      takes name v = true ∧ Sound names takes (name :: seen) ms := by
  have hcount : ∀ other : String,
      seen.count other + (((some name, v) :: ms).map Prod.fst).count (some other) =
        (name :: seen).count other + (ms.map Prod.fst).count (some other) := by
    intro other
    rw [count_cons, List.count_cons]
    by_cases h : name = other <;> simp [h]
    omega
  constructor
  · rintro ⟨hnamed, hdistinct, htaken⟩
    exact ⟨htaken name hname v List.mem_cons_self, fun w h => hnamed w (List.mem_cons_of_mem _ h),
      fun other hother => hcount other ▸ hdistinct other hother,
      fun other hother w h => htaken other hother w (List.mem_cons_of_mem _ h)⟩
  · rintro ⟨hv, hnamed, hdistinct, htaken⟩
    refine ⟨fun w h => hnamed w ((List.mem_cons.mp h).resolve_left nofun),
      fun other hother => (hcount other).symm ▸ hdistinct other hother, fun other hother w h => ?_⟩
    rcases List.mem_cons.mp h with hsame | h
    · cases hsame
      exact hv
    · exact htaken other hother w h

theorem sound_nil (hseen : seen.Nodup) : Sound names takes seen [] where
  named _ := List.not_mem_nil
  distinct name _ := List.nodup_iff_count.mp hseen name
  taken _ _ _ h := absurd h List.not_mem_nil

theorem not_sound_repeated (hname : name ∈ names) (hseen : name ∈ seen) :
    ¬Sound names takes (name :: seen) ms := by
  intro h
  have hdistinct := h.distinct name hname
  have hpos := List.count_pos_iff.mpr hseen
  rw [List.count_cons_self] at hdistinct
  omega

theorem Sound.absent_of_seen (h : Sound names takes seen ms) (hname : name ∈ names)
    (hseen : name ∈ seen) : some name ∉ ms.map Prod.fst := by
  have hdistinct := h.distinct name hname
  have hpos := List.count_pos_iff.mpr hseen
  exact List.count_eq_zero.mp (by omega)

/-- The values that the members of a name have. -/
def valuesOf (ms : Members) (name : String) : List Value :=
  (ms.filter fun member => member.1 == some name).map Prod.snd

theorem mem_valuesOf : v ∈ ms.valuesOf name ↔ (some name, v) ∈ ms := by
  simp [valuesOf]

theorem length_valuesOf (ms : Members) (name : String) :
    (ms.valuesOf name).length = (ms.map Prod.fst).count (some name) := by
  rw [valuesOf, List.length_map, List.count, List.countP_map, List.countP_eq_length_filter]
  rfl

theorem valuesOf_ne_nil : ms.valuesOf name ≠ [] ↔ some name ∈ ms.map Prod.fst := by
  rw [← List.length_pos_iff, length_valuesOf, List.count_pos_iff]

theorem lookup_eq_head? (ms : Members) (name : String) :
    ms.lookup (some name) = (ms.valuesOf name).head? := by
  induction ms with
  | nil => rfl
  | cons member ms ih =>
    rw [List.lookup_cons, valuesOf, List.filter_cons]
    by_cases h : member.1 = some name
    · simp [h]
    · have hne : (some name == member.1) = false := by simpa using fun hsame => h hsame.symm
      simpa [hne, h, valuesOf] using ih

/-- The only member of a name means something. -/
def Gives (ms : Members) (name : String) (meaning : Value → Option α) (a : α) : Prop :=
  ∃ v, ms.valuesOf name = [v] ∧ meaning v = some a

/-- The only member of a name means something, or there is none and a default counts. -/
def GivesOr (ms : Members) (name : String) (meaning : Value → Option α) (default a : α) : Prop :=
  ms.Gives name meaning a ∨ ms.valuesOf name = [] ∧ a = default

theorem gives_iff {meaning : Value → Option α} {a : α} (default : α) :
    ms.Gives name meaning a ↔
      ms.GivesOr name meaning default a ∧ some name ∈ ms.map Prod.fst := by
  rw [← valuesOf_ne_nil]
  constructor
  · intro h
    obtain ⟨v, hvalues, -⟩ := id h
    exact ⟨.inl h, hvalues ▸ List.cons_ne_nil v []⟩
  · rintro ⟨h | ⟨hvalues, -⟩, hne⟩
    · exact h
    · exact absurd hvalues hne

/-- A member gives what it means, or the default, if it is there at most once and is taken. -/
theorem givesOr_iff {meaning : Value → Option α} {default a : α} :
    ms.GivesOr name meaning default a ↔
      (ms.map Prod.fst).count (some name) ≤ 1 ∧
        (∀ v, (some name, v) ∈ ms → (meaning v).isSome = true) ∧
        a = ms.getD name meaning default := by
  rw [← length_valuesOf, getD, lookup_eq_head?]
  simp only [← mem_valuesOf]
  unfold GivesOr Gives
  cases hvalues : ms.valuesOf name with
  | nil => simp
  | cons v vs =>
    cases vs with
    | nil =>
      cases hv : meaning v with
      | none => simp [hv]
      | some b => simpa [hv] using eq_comm
    | cons w vs => simp

/-- Members are sound if they have names, and those that the record has are there at most once and
are taken. -/
theorem sound_iff : Sound names takes [] ms ↔ (∀ v, (none, v) ∉ ms) ∧ ∀ name ∈ names,
    (ms.map Prod.fst).count (some name) ≤ 1 ∧ ∀ v, (some name, v) ∈ ms → takes name v = true := by
  constructor
  · rintro ⟨hnamed, hdistinct, htaken⟩
    refine ⟨hnamed, fun name hname => ⟨?_, htaken name hname⟩⟩
    have h := hdistinct name hname
    rwa [List.count_nil, Nat.zero_add] at h
  · rintro ⟨hnamed, h⟩
    refine ⟨hnamed, fun name hname => ?_, fun name hname => (h name hname).2⟩
    rw [List.count_nil, Nat.zero_add]
    exact (h name hname).1

end Members

/-! ## Records -/

namespace Shape

variable {σ : Type} {shape : Shape σ} {takes : String → Value → Bool} {record : σ → Members → σ}

/-- The names of the members that a record asks for. -/
def names (shape : Shape σ) : List String :=
  shape.fields.map Member.name

/-- What a field does to a record: it takes the value of its member, which is then part of what is
made of the members. -/
def Fills (takes : String → Value → Bool) (record : σ → Members → σ) (field : Member σ) : Prop :=
  ∃ meaning : σ → Value → Option σ, (∀ s, Means (field.read s) (meaning s)) ∧
    (∀ s v, (meaning s v).isSome = takes field.name v) ∧
    ∀ s v t ms, meaning s v = some t → some field.name ∉ ms.map Prod.fst →
      record s ((some field.name, v) :: ms) = record t ms

/-- What is made of members, beginning with what is known. -/
structure Builds (shape : Shape σ) (takes : String → Value → Bool) (record : σ → Members → σ) :
    Prop where
  unique : shape.unique = true
  required : ∀ name ∈ shape.required, name ∈ shape.names
  start : ∀ s, record s [] = s
  passed : ∀ s name v ms, name ∉ shape.names → record s ((some name, v) :: ms) = record s ms
  fills : ∀ field ∈ shape.fields, Fills takes record field

theorem find?_eq_none_of_not_mem {name : String} (h : name ∉ shape.names) :
    (shape.fields.find? fun field => field.name == name) = none :=
  List.find?_eq_none.mpr fun _ hfield hname =>
    h (eq_of_beq hname ▸ List.mem_map_of_mem hfield)

theorem exists_find? {name : String} (h : name ∈ shape.names) :
    ∃ field ∈ shape.fields, field.name = name ∧
      (shape.fields.find? fun field => field.name == name) = some field := by
  obtain ⟨found, hfound, hname⟩ := List.mem_map.mp h
  have hsome : (shape.fields.find? fun field => field.name == name).isSome = true :=
    List.find?_isSome.mpr ⟨found, hfound, beq_iff_eq.mpr hname⟩
  obtain ⟨field, hfind⟩ := Option.isSome_iff_exists.mp hsome
  exact ⟨field, List.mem_of_find?_eq_some hfind, eq_of_beq
    (List.find?_some (p := fun field : Member σ => field.name == name) hfind), hfind⟩

theorem step_passed {known : σ × List String} {name : String} (h : name ∉ shape.names)
    (value : Member σ → Option σ) : shape.step known name value = some known := by
  rw [step, find?_eq_none_of_not_mem h]

theorem step_known (hunique : shape.unique = true) {known : σ × List String} {name : String}
    {field : Member σ} (hfind : (shape.fields.find? fun field => field.name == name) = some field)
    (value : Member σ → Option σ) :
    shape.step known name value =
      if name ∈ known.2 then none else (value field).map fun s => (s, name :: known.2) := by
  rw [step, hfind, hunique]
  simp

/-- **The members of a record are read exactly if they are sound**, behind those that were seen, and
what is read is made of them. -/
theorem Builds.run_members (h : shape.Builds takes record) {means : Member σ → σ → Value → Option σ}
    (hvalue : ∀ field ∈ shape.fields, ∀ s v, (means field s v).isSome = takes field.name v)
    (hrecord : ∀ field ∈ shape.fields, ∀ s v t ms, means field s v = some t →
      some field.name ∉ ms.map Prod.fst → record s ((some field.name, v) :: ms) = record t ms)
    (s : σ) (seen : List String) (hseen : seen.Nodup) (ms : Members) :
    let result := ms.run
      (fun known key v => shape.step known key fun field => means field known.1 v) (s, seen)
    (ms.Sound shape.names takes seen → ∃ seen', result = some (record s ms, seen') ∧
      ∀ name ∈ shape.names, name ∈ seen' ↔ name ∈ seen ∨ some name ∈ ms.map Prod.fst) ∧
      (¬ms.Sound shape.names takes seen → result = none) := by
  induction ms generalizing s seen with
  | nil =>
    refine ⟨fun _ => ⟨seen, ?_, fun name _ => by simp⟩,
      fun hsound => absurd (Members.sound_nil hseen) hsound⟩
    rw [h.start]
    rfl
  | cons member ms ih =>
    obtain ⟨_ | name, v⟩ := member
    · exact ⟨fun hsound => absurd hsound Members.not_sound_unnamed, fun _ => rfl⟩
    by_cases hname : name ∈ shape.names
    · obtain ⟨field, hfield, rfl, hfind⟩ := exists_find? hname
      rw [Members.run_named, Members.sound_known hname, step_known h.unique hfind]
      by_cases hmem : field.name ∈ seen
      · refine ⟨fun hsound => absurd hsound.2 (Members.not_sound_repeated hname hmem), fun _ => ?_⟩
        rw [if_pos hmem]
        rfl
      · rw [if_neg hmem, ← hvalue field hfield s v]
        cases hmeans : means field s v with
        | none => exact ⟨fun hsound => absurd hsound.1 Bool.false_ne_true, fun _ => rfl⟩
        | some t =>
          obtain ⟨hsound, hunsound⟩ := ih t (field.name :: seen) (List.nodup_cons.mpr ⟨hmem, hseen⟩)
          refine ⟨fun ⟨_, hrest⟩ => ?_, fun hnot => hunsound fun hrest => hnot ⟨rfl, hrest⟩⟩
          rw [hrecord field hfield s v t ms hmeans
            (hrest.absent_of_seen hname List.mem_cons_self)]
          obtain ⟨seen', hresult, hknown⟩ := hsound hrest
          refine ⟨seen', hresult, fun name hname => ?_⟩
          rw [hknown name hname, List.mem_cons, List.map_cons, List.mem_cons, Option.some.injEq]
          exact or_assoc.trans or_left_comm
    · rw [Members.run_named, step_passed hname, Members.sound_passed hname,
        h.passed s name v ms hname]
      obtain ⟨hsound, hunsound⟩ := ih s seen hseen
      refine ⟨fun hrest => ?_, hunsound⟩
      obtain ⟨seen', hresult, hknown⟩ := hsound hrest
      refine ⟨seen', hresult, fun other hother => ?_⟩
      have hne : other ≠ name := fun hsame => hname (hsame ▸ hother)
      rw [hknown other hother, List.map_cons, List.mem_cons, Option.some.injEq, or_iff_right hne]

/-- Whether the members that have no default are all there. -/
def Complete (shape : Shape σ) (ms : Members) : Prop :=
  ∀ name ∈ shape.required, some name ∈ ms.map Prod.fst

/-- What the elements of a list mean for fields that are still to be read. -/
def fill (shape : Shape σ) (means : Member σ → σ → Value → Option σ) :
    List (Member σ) → σ → List Value → Option σ
  | [], s, [] => some s
  | [], _, _ :: _ => none
  | field :: fields, s, [] =>
    if (field :: fields).any fun field => shape.required.contains field.name then none else some s
  | field :: fields, s, v :: vs => (means field s v).bind fun s => shape.fill means fields s vs

/-- What a value means as a record, if `means` is what its fields make of theirs. -/
def meaning (shape : Shape σ) (means : Member σ → σ → Value → Option σ) (start : σ) :
    Value → Option σ
  | .bracketed .object items =>
    (items.members.run (fun known key v =>
        shape.step known key fun field => means field known.1 v) (start, [])).bind fun known =>
      if shape.required.all known.2.contains then some known.1 else none
  | .bracketed .list items =>
    if shape.positional then shape.fill means shape.fields start items.values else none
  | .scalar _ => none

/-- **A record is made of the members of an object exactly if they are sound and complete.** -/
theorem Builds.meaning_object (h : shape.Builds takes record)
    {means : Member σ → σ → Value → Option σ}
    (hvalue : ∀ field ∈ shape.fields, ∀ s v, (means field s v).isSome = takes field.name v)
    (hrecord : ∀ field ∈ shape.fields, ∀ s v t ms, means field s v = some t →
      some field.name ∉ ms.map Prod.fst → record s ((some field.name, v) :: ms) = record t ms)
    (start : σ) (items : Items .object) (result : σ) :
    shape.meaning means start (.bracketed .object items) = some result ↔
      items.members.Sound shape.names takes [] ∧ shape.Complete items.members ∧
        result = record start items.members := by
  obtain ⟨hsound, hunsound⟩ := h.run_members hvalue hrecord start [] List.nodup_nil items.members
  unfold meaning
  by_cases hs : items.members.Sound shape.names takes []
  · obtain ⟨seen, hresult, hknown⟩ := hsound hs
    have hcomplete : shape.required.all seen.contains = true ↔ shape.Complete items.members := by
      rw [List.all_eq_true]
      refine forall₂_congr fun name hname => ?_
      rw [List.contains_iff_mem, hknown name (h.required name hname)]
      simp
    simp only [hresult, Option.bind_some]
    split
    · next hall =>
      rw [Option.some.injEq]
      exact ⟨fun heq => ⟨hs, hcomplete.mp hall, heq.symm⟩, fun h => h.2.2.symm⟩
    · next hnot => exact iff_of_false nofun fun h => hnot (hcomplete.mpr h.2.1)
  · simp only [hunsound hs, Option.bind_none]
    exact iff_of_false nofun fun h => hs h.1

/-- What a record reads from an object, or else a fault before what comes behind. -/
theorem read_object_takes {means : Member σ → σ → Value → Option σ}
    (hmeans : ∀ field ∈ shape.fields, ∀ s, Means (field.read s) (means field s)) (start : σ)
    (gap : Blanks) (items : Items .object) :
    ∃ fault, ∀ r, shape.read start (gap.1 ++ ((Value.bracketed .object items).text ++ r)) =
      leaving (orFault (shape.meaning means start (.bracketed .object items)) fault) r := by
  obtain ⟨fault, hread⟩ := members_means (member_means hmeans) items (start, [])
  simp only [read_object, hread, meaning]
  cases hrun : items.members.run (fun known key v =>
      shape.step known key fun field => means field known.1 v) (start, []) with
  | none => exact ⟨fault, fun r => rfl⟩
  | some known =>
    simp only [orFault, leaving, readOn, finish, Option.bind_some]
    cases hfind : shape.required.find? fun name => !known.2.contains name with
    | none =>
      have hall : shape.required.all known.2.contains = true := by
        rw [List.all_eq_true]
        intro name hname
        simpa using List.find?_eq_none.mp hfind name hname
      rw [hall]
      exact ⟨Cause.endInValue.here [], fun r => rfl⟩
    | some name =>
      have hmissing := List.find?_some hfind
      have hname := List.mem_of_find?_eq_some hfind
      have hall : shape.required.all known.2.contains = false := by
        rw [List.all_eq_false]
        exact ⟨name, hname, by simpa using hmissing⟩
      rw [hall]
      exact ⟨(Cause.missingField name).here [], fun r => rfl⟩

/-- **A record is read from an object exactly if its members are sound and complete.** -/
theorem Builds.read_members (h : shape.Builds takes record) (start : σ) (gap : Blanks)
    (items : Items .object) :
    (items.members.Sound shape.names takes [] ∧ shape.Complete items.members → ∀ r,
      shape.read start (gap.1 ++ ((Value.bracketed .object items).text ++ r)) =
        .ok (record start items.members, r)) ∧
    (¬(items.members.Sound shape.names takes [] ∧ shape.Complete items.members) →
      ∃ fault : Fault, ∀ r,
        shape.read start (gap.1 ++ ((Value.bracketed .object items).text ++ r)) =
          .error (fault.behind r)) := by
  choose! means hmeans hvalue hrecord using h.fills
  have hobject := h.meaning_object hvalue hrecord start items
  obtain ⟨fault, hread⟩ := read_object_takes hmeans start gap items
  simp only [hread]
  constructor
  · rintro ⟨hsound, hcomplete⟩ r
    rw [(hobject _).mpr ⟨hsound, hcomplete, rfl⟩]
    rfl
  · intro hnot
    have hnone : shape.meaning means start (.bracketed .object items) = none :=
      Option.eq_none_iff_forall_ne_some.mpr fun result hresult =>
        hnot ⟨((hobject result).mp hresult).1, ((hobject result).mp hresult).2.1⟩
    exact ⟨fault, fun r => by rw [hnone]; rfl⟩

/-- **A document is read exactly if its members are sound**, and what is read is made of them, if all
fields have defaults. -/
theorem Builds.decode_document {α : Type} (h : shape.Builds takes record)
    (hdefaults : shape.required = []) (start : σ) (f : σ → α) (d : Document) :
    let decoder : Decoder α := fun cs =>
      (shape.read start cs).map fun (value, rest) => (f value, rest)
    (d.members.Sound shape.names takes [] →
      decode decoder d.text = .ok (f (record start d.members))) ∧
    (¬d.members.Sound shape.names takes [] → ∃ fault, decode decoder d.text = .error fault) := by
  intro decoder
  have hcomplete : shape.Complete d.members := by
    intro name hname
    rw [hdefaults] at hname
    cases hname
  obtain ⟨hsound, hunsound⟩ := h.read_members start d.ahead d.items
  unfold decode
  rw [Document.text, String.toList_ofList]
  constructor
  · intro hs
    simp only [decoder, hsound ⟨hs, hcomplete⟩, Except.map, skipBlanks_blanks, Document.members]
  · intro hs
    obtain ⟨fault, hread⟩ := hunsound fun h => hs h.1
    refine ⟨fault.behind d.behind.1, ?_⟩
    simp only [decoder, hread, Except.map]

end Shape

end CredentialRelay.Json
