import CredentialRelay.Proofs.Json.Yields
import CredentialRelay.Proofs.Time.Rfc3339
import CredentialRelay.Secret.Decode
import CredentialRelay.Secret.Reading
import Mathlib.Data.List.ReduceOption

/-!
# When a secret was updated last

The time of a secret is the latest of the times of its writes, to the second. Only writes in years
of four digits count, as the times are written down and read back. Where none does, the time of the
creation takes their place, if its year has four digits, and else the secret has no time.

So the order of the writes does not matter, nor do records without a time, nor with which offsets
the times were written. What can move the time back is a first write that counts: it takes the place
of the creation, which may be later.

* `Instant.IsLatest times u`: the instant is one of some times, and none of them is later.
* `Secret.IsProper`: the leap seconds of a secret end minutes.
* `IsWriteTime s u`, `IsCreationTime s u`: the instant counts as the time of a write to the secret,
  or as that of its creation.
* `IsReadFrom s created writes`: the times of the secret are read from texts.
* `WriteOneInstant a b`: two texts write one instant, each with an offset of its own.

Results:
* `isProper_of_parse`: every secret that is read is proper.
* `lastUpdated?_eq_some_iff`: what the time of a secret is.
* `lastUpdated_is_latest_write`: that, and what it does not depend on.
-/

namespace CredentialRelay

/-! ## The latest of some times -/

namespace Instant

/-- The instant is one of some times, and none of them is later. -/
def IsLatest (times : Instant → Prop) (u : Instant) : Prop :=
  times u ∧ ∀ v, times v → u.before v = false

theorem before_self (t : Instant) : t.before t = false := by
  simp [before]

/-- Of two instants that are not before each other there is only one. -/
theorem eq_of_not_before {a b : Instant} (hab : a.before b = false) (hba : b.before a = false) :
    a = b := by
  obtain ⟨s, m⟩ := a
  obtain ⟨t, n⟩ := b
  simp [before] at hab hba
  obtain rfl : s = t := by omega
  obtain rfl : m = n := by omega
  rfl

theorem not_before_trans {a b c : Instant} (hab : b.before a = false) (hbc : c.before b = false) :
    c.before a = false := by
  simp [before] at hab hbc ⊢
  omega

/-- The later of two instants is one of them and before neither. -/
theorem latest_isLatest (a b : Instant) : IsLatest (· ∈ [a, b]) (a.latest b) := by
  unfold latest
  split
  · next hbefore =>
    exact ⟨by simp, by simp [before_asymm hbefore, before_self]⟩
  · next hnot =>
    exact ⟨by simp, by simp [before_self, Bool.eq_false_iff.mpr hnot]⟩

theorem foldl_latest_isLatest (t : Instant) (ts : List Instant) :
    IsLatest (· ∈ t :: ts) (ts.foldl latest t) := by
  induction ts generalizing t with
  | nil => exact ⟨List.mem_singleton_self t, by simp [before_self]⟩
  | cons v ts ih =>
    obtain ⟨hmem, hlast⟩ := ih (t.latest v)
    obtain ⟨hone, hboth⟩ := latest_isLatest t v
    have hlatest := hlast _ List.mem_cons_self
    refine ⟨?_, List.forall_mem_cons.mpr ⟨?_, List.forall_mem_cons.mpr ⟨?_, ?_⟩⟩⟩
    · rcases List.mem_cons.mp hmem with heq | hmem
      · exact heq ▸ List.mem_append_left ts hone
      · exact List.mem_append_right [t, v] hmem
    · exact not_before_trans (hboth t (by simp)) hlatest
    · exact not_before_trans (hboth v (by simp)) hlatest
    · exact fun w hw => hlast w (List.mem_cons_of_mem _ hw)

theorem IsLatest.unique {times : Instant → Prop} {u v : Instant} (hu : IsLatest times u)
    (hv : IsLatest times v) : u = v :=
  eq_of_not_before (hu.2 v hv.1) (hv.2 u hu.1)

end Instant

namespace Secret

open Instant Json

theorem latest?_eq_some_iff {ts : List Instant} {u : Instant} :
    latest? ts = some u ↔ IsLatest (· ∈ ts) u := by
  match ts with
  | [] => exact iff_of_false nofun fun h => List.not_mem_nil h.1
  | t :: ts =>
    have hlatest := foldl_latest_isLatest t ts
    show some (ts.foldl latest t) = some u ↔ _
    rw [Option.some.injEq]
    exact ⟨fun h => h ▸ hlatest, fun h => hlatest.unique h⟩

theorem latest?_eq_none_iff {ts : List Instant} : latest? ts = none ↔ ts = [] := by
  cases ts <;> simp [latest?]

/-! ## Proper secrets -/

/-- The leap seconds of a secret end minutes. -/
structure IsProper (s : Secret) : Prop where
  writes : ∀ t, some t ∈ s.writes → t.IsProper
  created : ∀ t, s.created = some t → t.IsProper

theorem time_yields : Yields time Instant.IsProper :=
  textAs_yields fun _ _ h => Timestamp.isProper_of_parse (mapError_eq_ok h)

section

variable {σ α : Type} {I : σ → Prop}

theorem member_yields {Q : α → Prop} {name : String} {decoder : Decoder α} {set : σ → α → σ}
    (h : Yields decoder Q) (hset : ∀ s value, I s → Q value → I (set s value)) :
    ∀ s, I s → Yields ((member name decoder set).read s) I :=
  fun s hs => h.map fun value hvalue => hset s value hs hvalue

theorem checked_yields {name : String} {decoder : Decoder α} :
    ∀ s, I s → Yields ((checked name decoder).read s) I :=
  member_yields (yields_true decoder) fun _ _ hs _ => hs

end

theorem write_yields :
    Yields (writeShape.read none) fun time => ∀ t, time = some t → t.IsProper := by
  refine Shape.read_yields ?_ nofun
  simp only [writeShape, record, List.forall_mem_cons]
  exact ⟨checked_yields, checked_yields, checked_yields, checked_yields, checked_yields,
    checked_yields, member_yields (optional_yields time_yields) fun _ _ _ htime => htime,
    List.forall_mem_nil _⟩

theorem metadata_yields (s : Secret) : Yields (metadata s) IsProper := by
  have hfresh : ({ s with created := none, writes := [] } : Secret).IsProper := ⟨by simp, by simp⟩
  refine orDefault_yields hfresh (Shape.read_yields ?_ hfresh)
  simp only [metadataShape, record, List.forall_mem_cons]
  refine ⟨checked_yields, ?_, checked_yields, checked_yields, checked_yields, checked_yields,
    checked_yields, checked_yields, ?_, checked_yields, checked_yields, checked_yields,
    checked_yields, checked_yields, checked_yields, List.forall_mem_nil _⟩
  · exact member_yields (optional_yields time_yields) fun s _ hs hcreated => ⟨hs.writes, hcreated⟩
  · refine member_yields (orDefault_yields (List.forall_mem_nil _) (list_yields write_yields))
      fun s _ hs hwrites => ⟨fun t ht => hwrites _ ht t rfl, hs.created⟩

/-- **Every secret that is read is proper.** -/
theorem isProper_of_parse {text : String} {s : Secret} (h : parse text = .ok s) : s.IsProper := by
  refine Yields.decode (Shape.read_yields ?_ ⟨by simp [empty], by simp [empty]⟩) h
  simp only [shape, record, List.forall_mem_cons]
  exact ⟨checked_yields, checked_yields,
    member_yields (yields_true _) fun s _ hs _ => ⟨hs.writes, hs.created⟩, checked_yields,
    fun s _ => metadata_yields s,
    member_yields (yields_true _) fun s _ hs _ => ⟨hs.writes, hs.created⟩, checked_yields,
    List.forall_mem_nil _⟩

/-! ## The times that count -/

/-- The instant counts as the time of a write to the secret: a write in a year of four digits, to
the second. -/
def IsWriteTime (s : Secret) (u : Instant) : Prop :=
  ∃ t, some t ∈ s.writes ∧ t.HasFourDigitYear ∧ u = t.truncated

/-- The instant counts as the time of the creation of the secret. -/
def IsCreationTime (s : Secret) (u : Instant) : Prop :=
  ∃ t, s.created = some t ∧ t.HasFourDigitYear ∧ u = t.truncated

variable {s s' : Secret}

/-- A time is read back in years of four digits only. -/
theorem wholeTime?_eq_some_iff {t u : Instant} (ht : t.IsProper) :
    wholeTime? t = some u ↔ t.HasFourDigitYear ∧ u = t.truncated := by
  have hyear : t.truncated.HasFourDigitYear ↔ t.HasFourDigitYear := Iff.rfl
  unfold wholeTime? readBack
  rw [toOption_eq_some_iff, Timestamp.parseStrict_describe ht.truncated]
  split
  · next h =>
    rw [Except.ok.injEq]
    exact ⟨fun heq => ⟨hyear.mp h, heq.symm⟩, fun heq => heq.2.symm⟩
  · next h => exact iff_of_false nofun fun heq => h (hyear.mpr heq.1)

theorem mem_wholeTimes_iff (hs : s.IsProper) {u : Instant} :
    u ∈ s.writes.filterMap (fun time => time.bind wholeTime?) ↔ s.IsWriteTime u := by
  simp only [List.mem_filterMap, Option.bind_eq_some_iff]
  constructor
  · rintro ⟨_, hmem, t, rfl, hwhole⟩
    exact ⟨t, hmem, (wholeTime?_eq_some_iff (hs.writes t hmem)).mp hwhole⟩
  · rintro ⟨t, hmem, hwhole⟩
    exact ⟨some t, hmem, t, rfl, (wholeTime?_eq_some_iff (hs.writes t hmem)).mpr hwhole⟩

theorem lastWrite?_eq_some_iff (hs : s.IsProper) {u : Instant} :
    s.lastWrite? = some u ↔ IsLatest s.IsWriteTime u := by
  unfold lastWrite?
  rw [latest?_eq_some_iff]
  exact and_congr (mem_wholeTimes_iff hs)
    (forall_congr' fun v => imp_congr_left (mem_wholeTimes_iff hs))

theorem lastWrite?_eq_none_iff (hs : s.IsProper) :
    s.lastWrite? = none ↔ ∀ u, ¬s.IsWriteTime u := by
  unfold lastWrite?
  rw [latest?_eq_none_iff, List.eq_nil_iff_forall_not_mem]
  exact forall_congr' fun v => not_congr (mem_wholeTimes_iff hs)

/-- Of writes that count one is the latest. -/
theorem exists_isLatest (hs : s.IsProper) {u : Instant} (hu : s.IsWriteTime u) :
    ∃ v, IsLatest s.IsWriteTime v := by
  cases hlast : s.lastWrite? with
  | none => exact absurd hu ((lastWrite?_eq_none_iff hs).mp hlast u)
  | some v => exact ⟨v, (lastWrite?_eq_some_iff hs).mp hlast⟩

/-- **What the time of a secret is**: the latest of its writes, or else its creation. -/
theorem lastUpdated?_eq_some_iff (hs : s.IsProper) {u : Instant} :
    s.lastUpdated? = some u ↔ IsLatest s.IsWriteTime u ∨
      (∀ v, ¬s.IsWriteTime v) ∧ s.IsCreationTime u := by
  unfold lastUpdated?
  rw [Option.or_eq_some_iff, lastWrite?_eq_some_iff hs, lastWrite?_eq_none_iff hs,
    Option.bind_eq_some_iff]
  refine or_congr_right (and_congr_right fun _ => exists_congr fun t => ?_)
  exact and_congr_right fun hcreated => wholeTime?_eq_some_iff (hs.created t hcreated)

/-! ## What the time does not depend on -/

/-- Only the times that count matter. -/
theorem lastUpdated?_congr (hs : s.IsProper) (hs' : s'.IsProper)
    (hwrites : ∀ u, s'.IsWriteTime u ↔ s.IsWriteTime u) (hcreated : s'.created = s.created) :
    s'.lastUpdated? = s.lastUpdated? := by
  have hsame : s'.IsWriteTime = s.IsWriteTime := funext fun u => propext (hwrites u)
  have hcreation : s'.IsCreationTime = s.IsCreationTime := by
    unfold IsCreationTime
    rw [hcreated]
  refine Option.ext fun u => ?_
  rw [lastUpdated?_eq_some_iff hs', lastUpdated?_eq_some_iff hs, hsame, hcreation]

/-- Neither the order of the writes matters nor records without a time. -/
theorem lastUpdated?_of_perm (hs : s.IsProper)
    (hwrites : s'.writes.reduceOption.Perm s.writes.reduceOption)
    (hcreated : s'.created = s.created) : s'.lastUpdated? = s.lastUpdated? := by
  have hmem (t : Instant) : some t ∈ s'.writes ↔ some t ∈ s.writes := by
    simpa only [List.reduceOption_mem_iff] using hwrites.mem_iff (a := t)
  have hs' : s'.IsProper :=
    ⟨fun t ht => hs.writes t ((hmem t).mp ht), fun t ht => hs.created t (hcreated ▸ ht)⟩
  exact lastUpdated?_congr hs hs' (fun u => exists_congr fun t => and_congr_left' (hmem t)) hcreated

/-- The text writes the instant with the offset of some zone. -/
def Writes (text : String) (t : Instant) : Prop :=
  ∃ minutes : Int, minutes.natAbs < 1440 ∧ (t.ahead minutes).isInBounds = true ∧
    text = t.writtenAt minutes

/-- Two texts write one instant, each with an offset of its own. -/
def WriteOneInstant (a b : String) : Prop :=
  ∃ t : Instant, t.IsProper ∧ t.isInBounds = true ∧ Writes a t ∧ Writes b t

/-- A time is read from a text, and none from none. -/
def ReadsTime : Option String → Option Instant → Prop :=
  Option.Rel fun text t => Timestamp.parse text = .ok t

/-- The times of the secret are read from texts. -/
def IsReadFrom (s : Secret) (created : Option String) (writes : List (Option String)) : Prop :=
  ReadsTime created s.created ∧ List.Forall₂ ReadsTime writes s.writes

theorem parse_of_writes {text : String} {t : Instant} (ht : t.IsProper)
    (hbounds : t.isInBounds = true) (h : Writes text t) : Timestamp.parse text = .ok t := by
  obtain ⟨minutes, hminutes, hhere, rfl⟩ := h
  exact Timestamp.parse_writtenAt ht hminutes hhere hbounds

/-- The offset does not matter to what is read. -/
theorem ReadsTime.unique {a b : Option String} {t u : Option Instant}
    (h : Option.Rel WriteOneInstant a b) (ha : ReadsTime a t) (hb : ReadsTime b u) : t = u := by
  cases h with
  | none =>
    cases ha
    cases hb
    rfl
  | some h =>
    obtain ⟨v, hv, hbounds, hwrites, hwrites'⟩ := h
    cases ha with
    | some ha =>
      cases hb with
      | some hb =>
        rw [parse_of_writes hv hbounds hwrites, Except.ok.injEq] at ha
        rw [parse_of_writes hv hbounds hwrites', Except.ok.injEq] at hb
        rw [← ha, hb]

theorem ReadsTime.unique_list {as bs : List (Option String)} {ts us : List (Option Instant)}
    (h : List.Forall₂ (Option.Rel WriteOneInstant) as bs) (has : List.Forall₂ ReadsTime as ts)
    (hbs : List.Forall₂ ReadsTime bs us) : ts = us := by
  induction h generalizing ts us with
  | nil =>
    cases has
    cases hbs
    rfl
  | cons hone _ ih =>
    cases has with
    | cons ha has =>
      cases hbs with
      | cons hb hbs => rw [ReadsTime.unique hone ha hb, ih has hbs]

/-- The offsets that the times were written with do not matter. -/
theorem lastUpdated?_of_offsets {created created' : Option String}
    {writes writes' : List (Option String)} (hcreated : Option.Rel WriteOneInstant created created')
    (hwrites : List.Forall₂ (Option.Rel WriteOneInstant) writes writes')
    (h : s.IsReadFrom created writes) (h' : s'.IsReadFrom created' writes') :
    s'.lastUpdated? = s.lastUpdated? := by
  unfold lastUpdated? lastWrite?
  rw [ReadsTime.unique_list hwrites h.2 h'.2, ReadsTime.unique hcreated h.1 h'.1]

/-- One more write does not move the time back if there was one that counts. -/
theorem lastUpdated?_append (hs : s.IsProper) {write : Option Instant}
    (hwrite : ∀ t, write = some t → t.IsProper) {u : Instant} (hu : s.IsWriteTime u) :
    ∃ v w, s.lastUpdated? = some v ∧
      ({ s with writes := s.writes ++ [write] } : Secret).lastUpdated? = some w ∧
      w.before v = false := by
  have hmore : ({ s with writes := s.writes ++ [write] } : Secret).IsProper := by
    refine ⟨fun t ht => ?_, hs.created⟩
    rcases List.mem_append.mp ht with ht | ht
    · exact hs.writes t ht
    · exact hwrite t (List.mem_singleton.mp ht).symm
  have hkept {v : Instant} (hv : s.IsWriteTime v) :
      ({ s with writes := s.writes ++ [write] } : Secret).IsWriteTime v := by
    obtain ⟨t, ht, hv⟩ := hv
    exact ⟨t, List.mem_append_left _ ht, hv⟩
  obtain ⟨v, hv⟩ := exists_isLatest hs hu
  obtain ⟨w, hw⟩ := exists_isLatest hmore (hkept hu)
  exact ⟨v, w, (lastUpdated?_eq_some_iff hs).mpr (.inl hv),
    (lastUpdated?_eq_some_iff hmore).mpr (.inl hw), hw.2 v (hkept hv.1)⟩

/-- **The time of a secret is the latest of its writes**: of those in years of four digits, to the
second. Where there is none, it is the time of the creation if that is in such a year, and else
there is no time. So it depends neither on the order of the writes, nor on records without a time,
nor on the offsets that the times were written with, and one more write does not move it back if
there was one that counts. All this holds of secrets whose leap seconds end minutes, as they do in
every secret that is read. -/
theorem lastUpdated_is_latest_write :
    (∀ text s, parse text = .ok s → s.IsProper) ∧
    ∀ s : Secret, s.IsProper →
      (∀ u, s.lastUpdated? = some u ↔ IsLatest s.IsWriteTime u ∨
        (∀ v, ¬s.IsWriteTime v) ∧ s.IsCreationTime u) ∧
      (∀ s' : Secret, s'.writes.reduceOption.Perm s.writes.reduceOption →
        s'.created = s.created → s'.lastUpdated? = s.lastUpdated?) ∧
      (∀ (s' : Secret) created created' writes writes',
        Option.Rel WriteOneInstant created created' →
        List.Forall₂ (Option.Rel WriteOneInstant) writes writes' →
        s.IsReadFrom created writes → s'.IsReadFrom created' writes' →
        s'.lastUpdated? = s.lastUpdated?) ∧
      ∀ write : Option Instant, (∀ t, write = some t → t.IsProper) → (∃ u, s.IsWriteTime u) →
        ∃ v w, s.lastUpdated? = some v ∧
          ({ s with writes := s.writes ++ [write] } : Secret).lastUpdated? = some w ∧
          w.before v = false :=
  ⟨fun _ _ => isProper_of_parse, fun _ hs => ⟨fun _ => lastUpdated?_eq_some_iff hs,
    fun _ hwrites hcreated => lastUpdated?_of_perm hs hwrites hcreated,
    fun _ _ _ _ _ hcreated hwrites h h' => lastUpdated?_of_offsets hcreated hwrites h h',
    fun _ hwrite ⟨_, hu⟩ => lastUpdated?_append hs hwrite hu⟩⟩

/-- A leap second, the second before it, and a year of five digits; the creation is later than the
leap second. -/
def leapt : Secret where
  data := .empty
  stringData := .empty
  created := some ⟨1483315200, 0⟩
  writes := [some ⟨1483228799, 250000000⟩, none, some ⟨1483228799, 1750000000⟩,
    some ⟨253402300800, 0⟩]

/-- The same, with an offset of its own for each time. -/
def leaptText : String :=
  "\x7b\"metadata\":\x7b\"creationTimestamp\":\"2017-01-02T00:00:00Z\",\"managedFields\":[" ++
    "\x7b\"time\":\"2016-12-31T18:59:59.25-05:00\"\x7d,\x7b\"manager\":\"writer\"\x7d," ++
    "\x7b\"time\":\"2017-01-01T01:59:60.75+02:00\"\x7d," ++
    "\x7b\"time\":\"+10000-01-01T00:00:00Z\"\x7d]\x7d\x7d"

theorem lastUpdated_is_latest_write_leapt :
    parse leaptText = .ok leapt ∧ leapt.lastUpdated? = some ⟨1483228799, 1000000000⟩ ∧
      IsLatest leapt.IsWriteTime ⟨1483228799, 1000000000⟩ ∧
      ({ leapt with writes := leapt.writes.reverse } : Secret).lastUpdated? = leapt.lastUpdated? ∧
      (∀ s : Secret, s.IsReadFrom (some "2017-01-01T18:30:00-05:30") [
          some "2017-01-01T07:59:59.250+08:00", none, some "2016-12-31T23:59:60.750+00:00",
          some "9999-12-31T23:30:00-00:30"] → s.lastUpdated? = leapt.lastUpdated?) ∧
      ∃ v w, leapt.lastUpdated? = some v ∧
        ({ leapt with writes := leapt.writes ++ [some ⟨0, 0⟩] } : Secret).lastUpdated? = some w ∧
        w.before v = false := by
  obtain ⟨hproper, hlast⟩ := lastUpdated_is_latest_write
  have hparse : parse leaptText = .ok leapt := by decide +kernel
  obtain ⟨hupdated, hperm, hoffsets, happend⟩ := hlast leapt (hproper _ _ hparse)
  have htime : leapt.lastUpdated? = some ⟨1483228799, 1000000000⟩ := by decide +kernel
  have hleap : leapt.IsWriteTime ⟨1483228799, 1000000000⟩ :=
    ⟨⟨1483228799, 1750000000⟩, by decide, by decide +kernel, by decide⟩
  refine ⟨hparse, htime, ?_, hperm _ (by decide) rfl, fun s hs => ?_, happend _ ?_ ⟨_, hleap⟩⟩
  · exact ((hupdated _).mp htime).resolve_right fun h => h.1 _ hleap
  · have hread : leapt.IsReadFrom (some "2017-01-02T01:00:00+01:00") [
        some "2016-12-31T18:59:59.250-05:00", none, some "2017-01-01T01:59:60.750+02:00",
        some "+10000-01-01T00:00:00+00:00"] := by
      refine ⟨.some (by decide +kernel), .cons (.some (by decide +kernel)) (.cons .none
        (.cons (.some (by decide +kernel)) (.cons (.some (by decide +kernel)) .nil)))⟩
    refine hoffsets s _ _ _ _ (.some ?_)
      (.cons (.some ?_) (.cons .none (.cons (.some ?_) (.cons (.some ?_) .nil)))) hread hs
    · exact ⟨⟨1483315200, 0⟩, ⟨by decide, by decide⟩, by decide, ⟨60, by decide +kernel⟩,
        ⟨-330, by decide +kernel⟩⟩
    · exact ⟨⟨1483228799, 250000000⟩, ⟨by decide, by decide⟩, by decide, ⟨-300, by decide +kernel⟩,
        ⟨480, by decide +kernel⟩⟩
    · exact ⟨⟨1483228799, 1750000000⟩, ⟨by decide, by decide⟩, by decide, ⟨120, by decide +kernel⟩,
        ⟨0, by decide +kernel⟩⟩
    · exact ⟨⟨253402300800, 0⟩, ⟨by decide, by decide⟩, by decide, ⟨0, by decide +kernel⟩,
        ⟨-30, by decide +kernel⟩⟩
  · rintro t ⟨⟩
    exact ⟨by decide, by decide⟩

end Secret

end CredentialRelay
