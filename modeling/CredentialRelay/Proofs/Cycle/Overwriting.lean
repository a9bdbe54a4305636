import CredentialRelay.Proofs.Credential.Path
import CredentialRelay.Proofs.Cycle.Accounting
import CredentialRelay.Proofs.Cycle.NothingLost
import CredentialRelay.Proofs.Dictionary
import CredentialRelay.Proofs.Text.ByteOrder

/-!
# What overwrites what

A cycle stores one credential after another, and what is stored at a path takes the place of what
was there. A path names the type segment, the entity and the identifier of a credential, so a
credential gives way to its namesakes only, which may be of another kind: a generic credential may
call itself whatever it likes.

* `replay writes`: the map from paths to attributes that some writes leave.
* `Turn.writes`: what the vault took in a turn.
* `Turn.Leaves`: at every path stands what the entry with the greatest key has stored there.
* `Turn.KeepsAll`: nothing is overwritten at all, and the order of the entries does not matter.

A vault may refuse requests at one time that it takes at another. So entries that are worked on in
another order leave the same map if the vault takes the same of them, and else there is nothing to
compare.

Results:
* `Fates.writes`: what the vault took is what the records say.
* `leaves_replay`, `keepsAll_replay`: the map that the writes of a settled turn leave.
* `overwritten_by_namesakes`: both, for every cycle that is completed.
-/

namespace CredentialRelay

open CredentialRelay.Cycle

variable {σ ν : Type}

namespace Cycle

/-! ## Writes -/

/-- What a call wrote: what it asked to be stored, if the vault took it. -/
def Call.write? : Call → Option StoredCredential
  | .store request (.ok ()) => some request
  | _ => none

/-- What the vault took in a turn, in order. -/
def Turn.writes (turn : Turn (Recorded σ)) : List StoredCredential :=
  turn.calls.filterMap Call.write?

/-- The map from paths to attributes that some writes leave. -/
def replay (writes : List StoredCredential) : Dictionary Attributes :=
  writes.foldl (fun map write => map.insert write.path write.attributes) .empty

theorem get?_foldl_of_forall_ne {path : String} {writes : List StoredCredential}
    (h : ∀ write ∈ writes, write.path ≠ path) (map : Dictionary Attributes) :
    (writes.foldl (fun map write => map.insert write.path write.attributes) map).get? path =
      map.get? path := by
  induction writes generalizing map with
  | nil => rfl
  | cons write writes ih =>
    obtain ⟨hfirst, hrest⟩ := List.forall_mem_cons.mp h
    rw [List.foldl_cons, ih hrest, Dictionary.get?_insert, if_neg hfirst.symm]

/-- **The last write at a path stays.** -/
theorem get?_replay_around {before after : List StoredCredential} {write : StoredCredential}
    (h : ∀ later ∈ after, later.path ≠ write.path) :
    (replay (before ++ write :: after)).get? write.path = some write.attributes := by
  unfold replay
  rw [List.foldl_append, List.foldl_cons, get?_foldl_of_forall_ne h, Dictionary.get?_insert,
    if_pos rfl]

/-- Where nothing is written there is nothing. -/
theorem get?_replay_eq_none {path : String} {writes : List StoredCredential}
    (h : ∀ write ∈ writes, write.path ≠ path) : (replay writes).get? path = none :=
  get?_foldl_of_forall_ne h .empty

/-- Of writes at different paths, every one stays. -/
theorem get?_replay_of_mem {writes : List StoredCredential} {write : StoredCredential}
    (hpaths : (writes.map StoredCredential.path).Nodup) (h : write ∈ writes) :
    (replay writes).get? write.path = some write.attributes := by
  obtain ⟨before, after, rfl⟩ := List.append_of_mem h
  rw [List.map_append, List.map_cons, List.nodup_append, List.nodup_cons] at hpaths
  refine get?_replay_around fun later hlater heq => hpaths.2.1.1 ?_
  exact heq ▸ List.mem_map_of_mem hlater

/-- **The order of writes at different paths does not matter.** -/
theorem replay_congr {writes others : List StoredCredential}
    (hpaths : (writes.map StoredCredential.path).Nodup)
    (hothers : (others.map StoredCredential.path).Nodup)
    (h : ∀ write, write ∈ writes ↔ write ∈ others) : replay writes = replay others := by
  refine Dictionary.ext_get? fun path => ?_
  by_cases hpath : ∃ write ∈ writes, write.path = path
  · obtain ⟨write, hwrite, rfl⟩ := hpath
    rw [get?_replay_of_mem hpaths hwrite, get?_replay_of_mem hothers ((h write).mp hwrite)]
  · have hnone : ∀ write ∈ writes, write.path ≠ path := fun write hwrite heq =>
      hpath ⟨write, hwrite, heq⟩
    rw [get?_replay_eq_none hnone,
      get?_replay_eq_none fun write hwrite => hnone write ((h write).mpr hwrite)]

/-! ## What is stored of entries -/

/-- The credential that an entry holds, if it is accepted. -/
def accepted? (entry : String × String) : Option Credential :=
  (Credential.Kind.ofKey? entry.1).bind fun kind => (Credential.parse kind entry.2).toOption

theorem planned?_eq (mount : String) (entry : String × String) :
    planned? mount entry = (accepted? entry).map fun c => ⟨mount, c.path, c.attributes⟩ := by
  unfold planned? accepted?
  rw [Option.map_bind]
  rfl

/-- The credential that was stored. -/
def EntryRecord.stored? (record : EntryRecord) : Option Credential :=
  match record.outcome with
  | .stored _ c => some c
  | _ => none

theorem EntryRecord.write?_eq (mount : String) (record : EntryRecord) :
    record.write? mount = record.stored?.map fun c => ⟨mount, c.path, c.attributes⟩ := by
  obtain ⟨key, outcome, log⟩ := record
  cases outcome <;> rfl

/-- The keys of the entries that were stored. -/
def storedKeys (records : List EntryRecord) : List String :=
  (records.filter fun r => r.stored?.isSome).map EntryRecord.key

variable {mount : String} {entries : List (String × String)} {calls : List Call}
  {records : List EntryRecord}

theorem Fate.writes {entry : String × String} {record : EntryRecord}
    (h : Fate mount entry calls record) :
    calls.filterMap Call.write? = (record.write? mount).toList := by
  cases h <;> rfl

/-- **What the vault took is what the records say.** -/
theorem Fates.writes (h : Fates mount entries calls records) :
    calls.filterMap Call.write? = records.filterMap (·.write? mount) := by
  induction h with
  | nil => rfl
  | cons first _ ih =>
    rw [List.filterMap_append, first.writes, ih, List.filterMap_cons]
    split <;> next hwrite => rw [hwrite]; rfl

theorem Fate.accepted {entry : String × String} {record : EntryRecord} {c : Credential}
    (h : Fate mount entry calls record) (hstored : c ∈ record.stored?) :
    entry.1 = record.key ∧ accepted? entry = some c := by
  cases h with
  | stored hkey hparse =>
    cases hstored
    refine ⟨rfl, ?_⟩
    unfold accepted?
    rw [hkey, Option.bind_some, hparse]
    rfl
  | _ => cases hstored

/-- What is stored was accepted. -/
theorem Fates.accepted {record : EntryRecord} {c : Credential}
    (h : Fates mount entries calls records) (hmem : record ∈ records) (hstored : c ∈ record.stored?) :
    ∃ entry ∈ entries, entry.1 = record.key ∧ accepted? entry = some c := by
  induction h with
  | nil => cases hmem
  | cons first _ ih =>
    rcases List.mem_cons.mp hmem with rfl | hmem
    · exact ⟨_, List.mem_cons_self, first.accepted hstored⟩
    · obtain ⟨entry, hentry, haccepted⟩ := ih hmem
      exact ⟨entry, List.mem_cons_of_mem _ hentry, haccepted⟩

/-- What is stored is some of what is accepted, in the same order. -/
theorem Fates.stored_sublist (h : Fates mount entries calls records) :
    (records.filterMap EntryRecord.stored?).Sublist (entries.filterMap accepted?) := by
  induction h with
  | nil => exact .slnil
  | @cons entry _ _ record _ _ first _ ih =>
    cases hstored : record.stored? with
    | none =>
      rw [List.filterMap_cons_none hstored]
      refine ih.trans ?_
      rw [List.filterMap_cons]
      split
      · exact List.Sublist.refl _
      · exact List.sublist_cons_self _ _
    | some c =>
      rw [List.filterMap_cons_some hstored, List.filterMap_cons_some (first.accepted hstored).2]
      exact ih.cons_cons c

/-- What is written is what the stored entries ask for. -/
theorem Fates.mem_writes_iff {write : StoredCredential} (h : Fates mount entries calls records)
    (hkeys : ∀ first ∈ entries, ∀ second ∈ entries, first.1 = second.1 → first = second) :
    write ∈ calls.filterMap Call.write? ↔
      ∃ entry ∈ entries, entry.1 ∈ storedKeys records ∧ planned? mount entry = some write := by
  rw [h.writes, List.mem_filterMap]
  constructor
  · rintro ⟨record, hrecord, hwrite⟩
    rw [EntryRecord.write?_eq, Option.map_eq_some_iff] at hwrite
    obtain ⟨c, hstored, rfl⟩ := hwrite
    obtain ⟨entry, hentry, hkey, haccepted⟩ := h.accepted hrecord hstored
    refine ⟨entry, hentry, ?_, by rw [planned?_eq, haccepted]; rfl⟩
    rw [hkey]
    exact List.mem_map_of_mem (List.mem_filter.mpr ⟨hrecord, by rw [hstored]; rfl⟩)
  · rintro ⟨entry, hentry, hkey, hplanned⟩
    obtain ⟨record, hrecord, hkey⟩ := List.mem_map.mp hkey
    obtain ⟨hrecord, hsome⟩ := List.mem_filter.mp hrecord
    obtain ⟨c, hstored⟩ := Option.isSome_iff_exists.mp hsome
    obtain ⟨other, hother, hsame, haccepted⟩ := h.accepted hrecord hstored
    rw [hkeys other hother entry hentry (hsame.trans hkey)] at haccepted
    refine ⟨record, hrecord, ?_⟩
    rw [EntryRecord.write?_eq, hstored, ← hplanned, planned?_eq, haccepted]

/-! ## Paths that differ -/

/-- All credentials among some entries can be told apart: no two have one triple. -/
def ToldApart (entries : List (String × String)) : Prop :=
  ((entries.filterMap accepted?).map Credential.triple).Nodup

/-- Credentials that are told apart are stored at different paths. -/
theorem Fates.nodup_paths (h : Fates mount entries calls records)
    (hseparable : ∀ entry ∈ entries, ∀ c ∈ accepted? entry, c.Separable)
    (hapart : ToldApart entries) :
    ((calls.filterMap Call.write?).map StoredCredential.path).Nodup := by
  have hpaths : (calls.filterMap Call.write?).map StoredCredential.path =
      (records.filterMap EntryRecord.stored?).map Credential.path := by
    rw [h.writes, List.map_filterMap, List.map_filterMap]
    refine List.filterMap_congr fun record _ => ?_
    rw [EntryRecord.write?_eq, Option.map_map]
    rfl
  rw [hpaths]
  refine List.Nodup.sublist (h.stored_sublist.map _) ?_
  have htriples := List.pairwise_map.mp hapart
  refine List.pairwise_map.mpr (htriples.imp_of_mem fun {c d} hc hd hne hpath => hne ?_)
  obtain ⟨entry, hentry, hc⟩ := List.mem_filterMap.mp hc
  obtain ⟨other, hother, hd⟩ := List.mem_filterMap.mp hd
  exact Credential.path_inj (hseparable entry hentry c hc) (hseparable other hother d hd) hpath

/-! ## What a turn leaves -/

/-- What some records leave: at every path what the record with the greatest key, in the order of
the bytes, has stored there, and nothing anywhere else. -/
structure Turn.Leaves (turn : Turn (Recorded σ)) (records : List EntryRecord) : Prop where
  greatest : ∀ record ∈ records, ∀ c ∈ record.stored?,
    ∃ last ∈ records, ∃ d ∈ last.stored?, d.path = c.path ∧
      (replay turn.writes).get? c.path = some d.attributes ∧
      ∀ other ∈ records, ∀ e ∈ other.stored?, e.path = c.path →
        Text.Utf8.encode other.key.toList ≤ Text.Utf8.encode last.key.toList
  nothing_else : ∀ path, (∀ record ∈ records, ∀ c ∈ record.stored?, c.path ≠ path) →
    (replay turn.writes).get? path = none

/-- What is stored stays, whatever the order. -/
structure Turn.KeepsAll (services : Services σ ν) (turn : Turn (Recorded σ))
    (entries : List (String × String)) (records : List EntryRecord) : Prop where
  own : ∀ record ∈ records, ∀ c ∈ record.stored?,
    (replay turn.writes).get? c.path = some c.attributes
  /-- The same writes in another order leave the same. -/
  writes_order : ∀ writes, writes.Perm turn.writes → replay writes = replay turn.writes
  /-- The same entries in another order leave the same, if the vault takes the same of them. -/
  entries_order : ∀ order, order.Perm entries → ∀ session w,
    let again := storeEntries services.recorded session turn.job.credentialMount order ⟨w, []⟩
    (∀ key, key ∈ storedKeys again.1 ↔ key ∈ storedKeys records) →
      replay (again.2.calls.filterMap Call.write?) = replay turn.writes

theorem exists_last {α : Type} {P : α → Prop} {xs : List α} (h : ∃ x ∈ xs, P x) :
    ∃ before x after, xs = before ++ x :: after ∧ P x ∧ ∀ y ∈ after, ¬ P y := by
  induction xs with
  | nil =>
    obtain ⟨x, hx, -⟩ := h
    cases hx
  | cons first rest ih =>
    by_cases hrest : ∃ x ∈ rest, P x
    · obtain ⟨before, x, after, rfl, hx⟩ := ih hrest
      exact ⟨first :: before, x, after, rfl, hx⟩
    · have hnone : ∀ y ∈ rest, ¬ P y := fun y hy hp => hrest ⟨y, hy, hp⟩
      obtain ⟨x, hx, hp⟩ := h
      rcases List.mem_cons.mp hx with rfl | hx
      · exact ⟨[], x, rest, rfl, hp, hnone⟩
      · exact absurd hp (hnone x hx)

section

variable {services : Services σ ν} {turn : Turn (Recorded σ)} {snapshot : Snapshot}

/-- The writes of a settled turn are those of its records. -/
theorem Turn.Settles.fates (h : turn.Settles services snapshot records) :
    ∃ stores, turn.writes = stores.filterMap Call.write? ∧
      Fates turn.job.credentialMount snapshot.data.entries stores records := by
  obtain ⟨stores, hcalls, hfates⟩ := h.calls
  refine ⟨stores, ?_, hfates⟩
  unfold Turn.writes
  rw [hcalls]
  rfl

/-- **At every path stands what the greatest key has stored there.** -/
theorem leaves_replay (h : turn.Settles services snapshot records) : turn.Leaves records := by
  obtain ⟨stores, hwrites, hfates⟩ := h.fates
  have hwrites := hwrites.trans hfates.writes
  have hpath {path : String} {some : List EntryRecord}
      (hnone : ∀ record ∈ some, ¬ ∃ c ∈ record.stored?, c.path = path) :
      ∀ write ∈ some.filterMap (·.write? turn.job.credentialMount), write.path ≠ path := by
    intro write hwrite heq
    obtain ⟨record, hrecord, hwrite⟩ := List.mem_filterMap.mp hwrite
    rw [EntryRecord.write?_eq, Option.map_eq_some_iff] at hwrite
    obtain ⟨c, hstored, rfl⟩ := hwrite
    exact hnone record hrecord ⟨c, hstored, heq⟩
  constructor
  · intro record hrecord c hstored
    -- The records are in the order of their keys, so the last one at the path has the greatest.
    obtain ⟨before, last, after, hsplit, ⟨d, hd, hsame⟩, hnone⟩ :=
      exists_last (P := fun r : EntryRecord => ∃ d ∈ r.stored?, d.path = c.path)
        ⟨record, hrecord, c, hstored, rfl⟩
    have hascending := List.pairwise_map.mp h.ascending
    rw [hsplit, List.pairwise_append] at hascending
    refine ⟨last, ?_, d, hd, hsame, ?_, fun other hother e he heq => ?_⟩
    · rw [hsplit]
      exact List.mem_append_right _ List.mem_cons_self
    · have hwrite : last.write? turn.job.credentialMount =
          some ⟨turn.job.credentialMount, d.path, d.attributes⟩ := by
        rw [EntryRecord.write?_eq, hd]
        rfl
      rw [hwrites, hsplit, List.filterMap_append, List.filterMap_cons_some hwrite, ← hsame]
      exact get?_replay_around (hpath (hsame ▸ hnone))
    · rw [hsplit] at hother
      rcases List.mem_append.mp hother with hother | hother
      · exact Text.Utf8.encode_le_of_lt (hascending.2.2 other hother last List.mem_cons_self)
      · rcases List.mem_cons.mp hother with rfl | hother
        · exact List.le_refl _
        · exact absurd ⟨e, he, heq⟩ (hnone other hother)
  · intro path hnone
    rw [hwrites]
    refine get?_replay_eq_none (hpath fun record hrecord => ?_)
    rintro ⟨c, hstored, heq⟩
    exact hnone record hrecord c hstored heq

/-- **Where all credentials are told apart, nothing is overwritten.** -/
theorem keepsAll_replay (h : turn.Settles services snapshot records)
    (hseparable : ∀ entry ∈ snapshot.data.entries, ∀ c ∈ accepted? entry, c.Separable)
    (hapart : ToldApart snapshot.data.entries) :
    turn.KeepsAll services snapshot.data.entries records := by
  obtain ⟨stores, hwrites, hfates⟩ := h.fates
  have hpaths : (turn.writes.map StoredCredential.path).Nodup :=
    hwrites ▸ hfates.nodup_paths hseparable hapart
  have hkeys : ∀ first ∈ snapshot.data.entries, ∀ second ∈ snapshot.data.entries,
      first.1 = second.1 → first = second := by
    rintro ⟨key, value⟩ hfirst ⟨_, other⟩ hsecond rfl
    rw [Dictionary.mem_entries_iff] at hfirst hsecond
    rw [Option.some.inj (hfirst.symm.trans hsecond)]
  refine ⟨fun record hrecord c hstored => ?_, fun writes hperm => ?_,
    fun order hperm session w => ?_⟩
  · have hwrite : (⟨turn.job.credentialMount, c.path, c.attributes⟩ : StoredCredential) ∈
        turn.writes := by
      rw [hwrites, hfates.writes, List.mem_filterMap]
      exact ⟨record, hrecord, by rw [EntryRecord.write?_eq, hstored]; rfl⟩
    exact get?_replay_of_mem hpaths hwrite
  · exact replay_congr ((hperm.map _).nodup_iff.mpr hpaths) hpaths fun _ => hperm.mem_iff
  · intro again hsame
    obtain ⟨more, hmore, hagain⟩ :=
      storeEntries_fates services session turn.job.credentialMount order ⟨w, []⟩
    have hcalls : again.2.calls = more := hmore
    have hsub {entry : String × String} (hentry : entry ∈ order) : entry ∈ snapshot.data.entries :=
      hperm.mem_iff.mp hentry
    have hapart' : ToldApart order :=
      (((hperm.filterMap accepted?).map Credential.triple).nodup_iff).mpr hapart
    rw [hcalls]
    refine replay_congr
      (hagain.nodup_paths (fun entry hentry => hseparable entry (hsub hentry)) hapart') hpaths
      fun write => ?_
    rw [hwrites, hfates.mem_writes_iff hkeys, hagain.mem_writes_iff
      fun first hfirst second hsecond => hkeys first (hsub hfirst) second (hsub hsecond)]
    constructor
    · rintro ⟨entry, hentry, hkey, hplanned⟩
      exact ⟨entry, hsub hentry, (hsame entry.1).mp hkey, hplanned⟩
    · rintro ⟨entry, hentry, hkey, hplanned⟩
      exact ⟨entry, hperm.mem_iff.mpr hentry, (hsame entry.1).mpr hkey, hplanned⟩

end

/-- **A credential is overwritten by its namesakes only.** In every cycle that is completed on
credentials whose type segments and entities have no slash, what is stored at one path has one
triple, and at every path stands what the greatest key has stored there. If no two credentials have
one triple, all that was stored is kept, whatever the order. -/
theorem overwritten_by_namesakes (services : Services σ ν) (timing : Timing) (job : Job)
    (metrics : Metrics) (world : σ) (snapshot : Snapshot)
    (hread : (run services.recorded timing job metrics ⟨world, []⟩).snapshot? = some snapshot)
    (hdone : (run services.recorded timing job metrics ⟨world, []⟩).outcome.isCompleted = true)
    (hseparable : ∀ entry ∈ snapshot.data.entries, ∀ c ∈ accepted? entry, c.Separable) :
    let turn := run services.recorded timing job metrics ⟨world, []⟩
    ∃ records, turn.Settles services snapshot records ∧
      (∀ first ∈ records, ∀ second ∈ records, ∀ c ∈ first.stored?, ∀ d ∈ second.stored?,
        c.path = d.path → c.triple = d.triple) ∧
      turn.Leaves records ∧
      (ToldApart snapshot.data.entries →
        turn.KeepsAll services snapshot.data.entries records) := by
  intro turn
  obtain ⟨records, hledger, -⟩ := run_ledger services timing job metrics (r := ⟨world, []⟩) rfl
  cases hledger with
  | givenUp h => exact absurd hdone (by rw [h]; exact Bool.false_ne_true)
  | @completed read _ h =>
    have hsame : read = snapshot := by
      obtain ⟨stores, hcalls, -⟩ := h.calls
      have hreading := Turn.reading?_of_snapshot? hread
      unfold Turn.reading? at hreading
      rw [hcalls] at hreading
      exact Except.ok.inj (Option.some.inj hreading)
    subst hsame
    obtain ⟨stores, -, hfates⟩ := h.fates
    refine ⟨records, h, fun first hfirst second hsecond c hc d hd hpath => ?_, leaves_replay h,
      keepsAll_replay h hseparable⟩
    obtain ⟨entry, hentry, -, hc⟩ := hfates.accepted hfirst hc
    obtain ⟨other, hother, -, hd⟩ := hfates.accepted hsecond hd
    exact Credential.path_inj (hseparable entry hentry c hc) (hseparable other hother d hd) hpath

/-- A generic credential that goes by the name of a service credential, and that credential. -/
def namesakes : Snapshot :=
  ⟨Dictionary.ofList [
    ("GENERIC-a", "\x7b\"credentialType\":\"service-cred\",\"entityName\":\"orders\"," ++
      "\"credIndetifier\":\"main\",\"credential\":\x7b\"token\":\"t\"\x7d\x7d"),
    ("SERVICE-CRED-b", "\x7b\"entityName\":\"orders\",\"credIndetifier\":\"main\"," ++
      "\"userName\":\"u\",\"password\":\"p\"\x7d")], ⟨9, 0⟩⟩

theorem overwritten_by_namesakes_sharedPath :
    let turn := run Memory.services.recorded ⟨0, 0⟩ (Job.ofConfig Config.default) Metrics.zero
      ⟨Memory.empty.setSecret namesakes, []⟩
    (∃ records, turn.Settles Memory.services namesakes records ∧ turn.Leaves records) ∧
      turn.writes.map StoredCredential.path = ["service-cred/orders/main", "service-cred/orders/main"] ∧
      (replay turn.writes).get? "service-cred/orders/main" =
        some (Dictionary.ofList [("userName", "u"), ("password", "p")]) := by
  intro turn
  -- All that is computed of this cycle, in one go.
  have ⟨hread, hdone, hseparable, hpaths, hkept⟩ : turn.snapshot? = some namesakes ∧
      turn.outcome.isCompleted = true ∧
      (∀ entry ∈ namesakes.data.entries, ∀ c ∈ accepted? entry, c.Separable) ∧
      turn.writes.map StoredCredential.path =
        ["service-cred/orders/main", "service-cred/orders/main"] ∧
      (replay turn.writes).get? "service-cred/orders/main" =
        some (Dictionary.ofList [("userName", "u"), ("password", "p")]) := by
    decide +kernel
  obtain ⟨records, hsettles, -, hleaves, -⟩ := overwritten_by_namesakes Memory.services ⟨0, 0⟩
    (Job.ofConfig Config.default) Metrics.zero (Memory.empty.setSecret namesakes) namesakes hread
    hdone hseparable
  exact ⟨⟨records, hsettles, hleaves⟩, hpaths, hkept⟩

end Cycle

end CredentialRelay
