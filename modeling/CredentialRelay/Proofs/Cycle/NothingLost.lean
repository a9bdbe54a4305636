import CredentialRelay.Proofs.Cycle.ChangeDetection
import Mathlib.Data.Nat.Init

/-!
# No change is lost

A job remembers a time and not the data that it stored, so a change is noticed only if it comes with
another time. Where the source keeps to that, an unchanged cycle has read what the latest completed
cycle stored, and a cycle that reads anything else goes on to the vault.

* The world may change in any way between two cycles: another secret, a source or a vault that
  cannot be reached and comes back, paths that are closed and opened. Times may go backwards and
  come back to an earlier value.
* `Consistent snapshots`: no two different data under one time.
* `Turn.Copies mount snapshot`: a turn was completed on a snapshot, and asked for each of its
  credentials to be stored, once.

Results:
* `latestCompleted?_copies`: the cursor is the time of what the latest completed turn stored.
* `latestCompleted?_take_eq`: cycles that are given up leave the latest completed turn as it was.
* `no_change_lost`: what was read is what was stored, or it is stored with the next session.
-/

namespace CredentialRelay.Cycle

variable {σ ν : Type}

namespace Turn

/-- The secret that was read. -/
def snapshot? (turn : Turn (Recorded σ)) : Option Snapshot :=
  turn.reading?.bind Except.toOption

/-- What the turn asked to be stored. -/
def requests (turn : Turn (Recorded σ)) : List StoredCredential :=
  turn.calls.filterMap Call.request?

/-- Whether the vault answered to the login with a session. -/
def opens (turn : Turn (Recorded σ)) : Bool :=
  (turn.login?.bind Except.toOption).isSome

/-- Whether the secret was read and a session was opened. -/
def reaches (turn : Turn (Recorded σ)) : Bool :=
  turn.snapshot?.isSome && turn.opens

/-- The turn was completed on a snapshot: every entry that holds a credential was asked to be
stored, once, and nothing else. -/
structure Copies (mount : String) (snapshot : Snapshot) (turn : Turn (Recorded σ)) : Prop where
  completed : turn.outcome.isCompleted = true
  read : turn.snapshot? = some snapshot
  requested : turn.requests = snapshot.data.entries.filterMap (planned? mount)

end Turn

/-- Of two snapshots with the same time, neither shows other data than the other. -/
def Consistent (snapshots : List Snapshot) : Prop :=
  ∀ s ∈ snapshots, ∀ s' ∈ snapshots, s.lastUpdated = s'.lastUpdated → s.data = s'.data

instance (snapshots : List Snapshot) : Decidable (Consistent snapshots) :=
  inferInstanceAs (Decidable (∀ s ∈ snapshots, ∀ s' ∈ snapshots, _ → _))

/-- The latest completed turn. -/
def latestCompleted? (turns : List (Turn (Recorded σ))) : Option (Turn (Recorded σ)) :=
  turns.reverse.find? fun turn => turn.outcome.isCompleted

/-! ## One turn -/

theorem Turn.reading?_of_snapshot? {turn : Turn (Recorded σ)} {snapshot : Snapshot}
    (h : turn.snapshot? = some snapshot) : turn.reading? = some (.ok snapshot) := by
  obtain ⟨answer, hread, hanswer⟩ := Option.bind_eq_some_iff.mp h
  cases answer with
  | error failure => cases hanswer
  | ok read =>
    cases hanswer
    exact hread

theorem Turn.snapshot?_of_reading? {turn : Turn (Recorded σ)} {snapshot : Snapshot}
    (h : turn.reading? = some (.ok snapshot)) : turn.snapshot? = some snapshot := by
  unfold snapshot?
  rw [h]
  rfl

theorem Turn.login?_of_opens {turn : Turn (Recorded σ)} (h : turn.opens = true) :
    turn.login? = some (.ok ()) := by
  unfold opens at h
  cases hlogin : turn.login? with
  | none =>
    rw [hlogin] at h
    cases h
  | some answer =>
    cases answer with
    | error failure =>
      rw [hlogin] at h
      cases h
    | ok session => rfl

/-- **A completed turn copies what it read**, whatever the vault answered to each request. -/
theorem Course.copies {job : Job} {turn : Turn (Recorded σ)}
    (h : Course job turn.calls turn.outcome turn.job) (hdone : turn.outcome.isCompleted = true) :
    ∃ snapshot, turn.Copies job.credentialMount snapshot ∧
      turn.job.cursor = some snapshot.lastUpdated := by
  generalize hcalls : turn.calls = calls at h
  generalize houtcome : turn.outcome = outcome at h
  generalize hjob : turn.job = next at h
  rw [houtcome] at hdone
  cases h with
  | unavailable failure => cases hdone
  | unchanged snapshot hsame => cases hdone
  | refused snapshot failure hnew => cases hdone
  | completed snapshot stores report hnew hstores =>
    refine ⟨snapshot, ⟨?_, Turn.snapshot?_of_reading? ?_, ?_⟩, rfl⟩
    · rw [houtcome]
      rfl
    · rw [Turn.reading?, hcalls]
      rfl
    · have hid (calls : List Call) : calls.filterMap Call.request? =
          (calls.map Call.request?).filterMap id := by
        rw [List.filterMap_map]
        rfl
      have hrest : stores.filterMap Call.request? =
          snapshot.data.entries.filterMap (planned? job.credentialMount) := by
        rw [hid, hstores, List.filterMap_map]
        exact List.filterMap_some
      rw [Turn.requests, hcalls]
      exact hrest

/-- An unchanged turn read the time that its job remembered. -/
theorem Course.cursor_of_unchanged {job : Job} {turn : Turn (Recorded σ)}
    (h : Course job turn.calls turn.outcome turn.job) (hsame : turn.outcome = .unchanged) :
    ∃ snapshot, turn.snapshot? = some snapshot ∧ job.cursor = some snapshot.lastUpdated := by
  generalize hcalls : turn.calls = calls at h
  generalize turn.job = next at h
  rw [hsame] at h
  cases h with
  | unchanged snapshot hcursor =>
    refine ⟨snapshot, Turn.snapshot?_of_reading? ?_, hcursor⟩
    rw [Turn.reading?, hcalls]
    rfl

/-- A turn that reads another time than its job remembers asks for a session. -/
theorem Course.login_of_new {job : Job} {turn : Turn (Recorded σ)} {snapshot : Snapshot}
    (h : Course job turn.calls turn.outcome turn.job) (hread : turn.snapshot? = some snapshot)
    (hnew : job.cursor ≠ some snapshot.lastUpdated) : ∃ answer, turn.login? = some answer := by
  replace hread := Turn.reading?_of_snapshot? hread
  rw [Turn.reading?] at hread
  rw [Turn.login?]
  generalize turn.calls = calls at h hread
  generalize turn.outcome = outcome at h
  generalize turn.job = next at h
  cases h with
  | unavailable failure => cases hread
  | unchanged other hsame =>
    cases hread
    exact absurd hsame hnew
  | refused other failure hother => exact ⟨_, rfl⟩
  | completed other stores report hother hstores => exact ⟨_, rfl⟩

/-- A completed turn read the secret and opened a session. -/
theorem DetectsChange.reaches {job : Job} {turn : Turn (Recorded σ)} (h : DetectsChange job turn)
    (hcourse : Course job turn.calls turn.outcome turn.job)
    (hdone : turn.outcome.isCompleted = true) : turn.reaches = true := by
  obtain ⟨snapshot, hcopies, -⟩ := hcourse.copies hdone
  have hread := Turn.reading?_of_snapshot? hcopies.read
  have hlogin : turn.login? = some (.ok ()) := by
    refine (h.completed_iff snapshot hread fun hsame => ?_).mp hdone
    rw [(h.unchanged_iff snapshot hread).mpr hsame] at hdone
    cases hdone
  unfold Turn.reaches Turn.opens
  rw [hcopies.read, hlogin]
  rfl

/-! ## Histories -/

theorem latestCompleted?_append_singleton (turns : List (Turn (Recorded σ)))
    (turn : Turn (Recorded σ)) :
    latestCompleted? (turns ++ [turn]) =
      if turn.outcome.isCompleted then some turn else latestCompleted? turns := by
  unfold latestCompleted?
  rw [List.reverse_append, List.reverse_singleton, List.singleton_append, List.find?_cons]
  cases turn.outcome.isCompleted <;> rfl

section History

variable (services : Services σ ν) (job : Job) (metrics : Metrics) (world : σ)
variable (rounds : List (Round σ))

/-- The mount stays the one that the job began with. -/
theorem credentialMount_jobAfter :
    let turns := watched services job metrics world rounds
    ∀ n ≤ turns.length, (jobAfter job (turns.take n)).credentialMount = job.credentialMount := by
  intro turns n
  induction n with
  | zero => exact fun _ => rfl
  | succ n ih =>
    intro hn
    have hturn := (watched_course services job metrics world rounds n hn).detectsChange
    rw [List.take_succ_eq_append_getElem hn, jobAfter_append_singleton, ← ih (Nat.le_of_succ_le hn)]
    cases hdone : turns[n].outcome.isCompleted with
    | false => rw [hturn.kept hdone]
    | true => rw [(hturn.moved hdone).2]

/-- **The cursor is the time of what the latest completed turn stored.** -/
theorem latestCompleted?_copies (hjob : job.cursor = none) :
    let turns := watched services job metrics world rounds
    ∀ n ≤ turns.length,
      match latestCompleted? (turns.take n) with
      | none => (jobAfter job (turns.take n)).cursor = none
      | some done => done ∈ turns ∧ ∃ copied, done.Copies job.credentialMount copied ∧
          (jobAfter job (turns.take n)).cursor = some copied.lastUpdated := by
  intro turns n
  induction n with
  | zero => exact fun _ => hjob
  | succ n ih =>
    intro hn
    have hcourse := watched_course services job metrics world rounds n hn
    rw [List.take_succ_eq_append_getElem hn, jobAfter_append_singleton,
      latestCompleted?_append_singleton]
    cases hdone : turns[n].outcome.isCompleted with
    | false =>
      rw [hcourse.detectsChange.kept hdone]
      exact ih (Nat.le_of_succ_le hn)
    | true =>
      obtain ⟨copied, hcopies, hcursor⟩ := hcourse.copies hdone
      rw [credentialMount_jobAfter services job metrics world rounds n (Nat.le_of_succ_le hn)]
        at hcopies
      exact ⟨List.getElem_mem hn, copied, hcopies, hcursor⟩

/-- **Turns that are given up leave the latest completed one as it was**, however many of them there
are. -/
theorem latestCompleted?_take_eq :
    let turns := watched services job metrics world rounds
    ∀ (j i : Nat), j ≤ i → i ≤ turns.length →
      (∀ (m : Nat) (hm : m < turns.length), j ≤ m → m < i → turns[m].reaches = false) →
      latestCompleted? (turns.take i) = latestCompleted? (turns.take j) := by
  intro turns j i hji
  induction i, hji using Nat.le_induction with
  | base => exact fun _ _ => rfl
  | succ i hji ih =>
    intro hi hfail
    have hcourse := watched_course services job metrics world rounds i hi
    have hgiven : turns[i].outcome.isCompleted = false :=
      Bool.eq_false_iff.mpr fun hdone => Bool.eq_false_iff.mp (hfail i hi hji (Nat.lt_succ_self i))
        (hcourse.detectsChange.reaches hcourse hdone)
    rw [List.take_succ_eq_append_getElem hi, latestCompleted?_append_singleton, hgiven]
    exact ih (Nat.le_of_succ_le hi) fun m hm hjm hmi => hfail m hm hjm (Nat.lt_succ_of_lt hmi)

end History

/-- **No change is lost.** A new job goes through any rounds, and its source never showed different
data under one time. If a cycle ends as unchanged, then the latest completed cycle asked for exactly
the credentials of the data that it read. If since some point no cycle got as far as a session, and
a cycle reads other data than the completed cycle before that point copied, then it asks for a
session, and is completed on that data if it gets one. -/
theorem no_change_lost (services : Services σ ν) (config : Config) (metrics : Metrics) (world : σ)
    (rounds : List (Round σ))
    (hsource : Consistent ((watched services (Job.ofConfig config) metrics world rounds).filterMap
      Turn.snapshot?)) :
    let mount := config.vault.credentialMount
    let turns := watched services (Job.ofConfig config) metrics world rounds
    turns.map (Turn.through Recorded.world) =
        history services (Job.ofConfig config) metrics world rounds ∧
    ∀ (i : Nat) (hi : i < turns.length),
      (turns[i].outcome = .unchanged →
        ∃ done copied snapshot, latestCompleted? (turns.take i) = some done ∧
          done.Copies mount copied ∧ turns[i].snapshot? = some snapshot ∧
          copied.data = snapshot.data) ∧
      ∀ (j : Nat) (snapshot : Snapshot), j ≤ i →
        (∀ (m : Nat) (hm : m < turns.length), j ≤ m → m < i → turns[m].reaches = false) →
        turns[i].snapshot? = some snapshot →
        ((latestCompleted? (turns.take j)).bind Turn.snapshot?).map Snapshot.data ≠
          some snapshot.data →
        turns[i].login?.isSome = true ∧ (turns[i].opens = true → turns[i].Copies mount snapshot) := by
  intro mount turns
  refine ⟨watched_through services _ metrics world rounds, fun i hlt => ?_⟩
  have hi := Nat.le_of_lt hlt
  have hcourse : Course _ turns[i].calls turns[i].outcome turns[i].job :=
    watched_course services _ metrics world rounds i hlt
  have hlatest := latestCompleted?_copies services (Job.ofConfig config) metrics world rounds rfl i hi
  have hshown {turn : Turn (Recorded σ)} {snapshot : Snapshot} (hmem : turn ∈ turns)
      (hread : turn.snapshot? = some snapshot) : snapshot ∈ turns.filterMap Turn.snapshot? :=
    List.mem_filterMap.mpr ⟨turn, hmem, hread⟩
  refine ⟨fun hsame => ?_, fun j snapshot hji hfail hread hother => ?_⟩
  · obtain ⟨snapshot, hread, hcursor⟩ := hcourse.cursor_of_unchanged hsame
    cases hdone : latestCompleted? (turns.take i) with
    | none =>
      rw [hdone] at hlatest
      rw [hlatest] at hcursor
      cases hcursor
    | some done =>
      rw [hdone] at hlatest
      obtain ⟨hmem, copied, hcopies, htime⟩ := hlatest
      rw [htime] at hcursor
      exact ⟨done, copied, snapshot, rfl, hcopies, hread,
        hsource _ (hshown hmem hcopies.read) _ (hshown (List.getElem_mem hlt) hread)
          (Option.some.inj hcursor)⟩
  · -- No turn since `j` was completed, so the cursor still is the time of the data of that turn.
    rw [← latestCompleted?_take_eq services _ metrics world rounds j i hji hi hfail] at hother
    have hnew : (jobAfter (Job.ofConfig config) (turns.take i)).cursor ≠
        some snapshot.lastUpdated := by
      intro hcursor
      cases hdone : latestCompleted? (turns.take i) with
      | none =>
        rw [hdone] at hlatest
        rw [hlatest] at hcursor
        cases hcursor
      | some done =>
        rw [hdone] at hlatest
        obtain ⟨hmem, copied, hcopies, htime⟩ := hlatest
        rw [htime] at hcursor
        refine hother ?_
        show ((latestCompleted? (turns.take i)).bind Turn.snapshot?).map Snapshot.data = _
        rw [hdone, Option.bind_some, hcopies.read]
        exact congrArg some (hsource _ (hshown hmem hcopies.read) _
          (hshown (List.getElem_mem hlt) hread) (Option.some.inj hcursor))
    obtain ⟨answer, hanswer⟩ := hcourse.login_of_new hread hnew
    refine ⟨Option.isSome_iff_exists.mpr ⟨answer, hanswer⟩, fun hopens => ?_⟩
    have hdone := (hcourse.detectsChange.completed_iff snapshot
      (Turn.reading?_of_snapshot? hread) hnew).mpr (Turn.login?_of_opens hopens)
    obtain ⟨copied, hcopies, -⟩ := hcourse.copies hdone
    have hsame : copied = snapshot := Option.some.inj (hcopies.read.symm.trans hread)
    rw [credentialMount_jobAfter services _ metrics world rounds i hi, hsame] at hcopies
    exact hcopies

/-! ## A change during outages -/

/-- A secret with one generic credential. -/
def sampleSnapshot (secret : String) (time : Instant) : Snapshot :=
  ⟨Dictionary.ofList [("GENERIC-x",
    "\x7b\"credentialType\":\"a\",\"entityName\":\"b\",\"credIndetifier\":\"c\",\"credential\":\x7b\"s\":\"" ++
      secret ++ "\"\x7d\x7d")], time⟩

/-- A secret is copied and read again; it is changed, under an earlier time, while the vault is out
of reach; then the source is, and then both are back. -/
def outages : List (Round Memory) :=
  let down : Failure Service.Cause := .of (.told "down")
  [⟨fun m => m.setSecret (sampleSnapshot "old" ⟨9, 0⟩), ⟨0, 0⟩⟩,
    ⟨id, ⟨0, 0⟩⟩,
    ⟨fun m => { m.setSecret (sampleSnapshot "new" ⟨5, 0⟩) with loginFailure := some down }, ⟨0, 0⟩⟩,
    ⟨fun m => { m with readFailure := some down }, ⟨0, 0⟩⟩,
    ⟨fun m => { m with readFailure := none, loginFailure := none }, ⟨0, 0⟩⟩]

/-- The second cycle ends as unchanged and had its data stored; the last one stores the change. -/
theorem no_change_lost_outages :
    let turns := watched Memory.services (Job.ofConfig Config.default) Metrics.zero .empty outages
    Consistent (turns.filterMap Turn.snapshot?) ∧
      (∃ done copied, latestCompleted? (turns.take 1) = some done ∧
        done.Copies "secret" copied ∧ copied.data = (sampleSnapshot "old" ⟨9, 0⟩).data) ∧
      ∃ last, turns[4]? = some last ∧ last.Copies "secret" (sampleSnapshot "new" ⟨5, 0⟩) := by
  intro turns
  -- All that is computed of these cycles, in one go.
  have ⟨hsource, hoffline, ⟨hsame, hread⟩, hlater, hopens, hother⟩ :
      Consistent (turns.filterMap Turn.snapshot?) ∧
        turns.map Turn.reaches = [true, false, false, false, true] ∧
        (turns[1]?.map Turn.outcome = some .unchanged ∧
          turns[1]?.bind Turn.snapshot? = some (sampleSnapshot "old" ⟨9, 0⟩)) ∧
        turns[4]?.bind Turn.snapshot? = some (sampleSnapshot "new" ⟨5, 0⟩) ∧
        turns[4]?.map Turn.opens = some true ∧
        ((latestCompleted? (turns.take 2)).bind Turn.snapshot?).map Snapshot.data ≠
          some (sampleSnapshot "new" ⟨5, 0⟩).data := by
    decide
  obtain ⟨-, hturns⟩ := no_change_lost Memory.services Config.default Metrics.zero .empty outages
    hsource
  have hlength : turns.length = 5 := by simpa using congrArg List.length hoffline
  have hsecond : 1 < turns.length := by omega
  have hlast : 4 < turns.length := by omega
  have hgiven (m : Nat) (hm : m < turns.length) (hfrom : 2 ≤ m) (hto : m < 4) :
      turns[m].reaches = false := by
    have hflag : (turns.map Turn.reaches)[m]? = some turns[m].reaches := by
      rw [List.getElem?_map, List.getElem?_eq_getElem hm, Option.map_some]
    rw [hoffline] at hflag
    have hcases : m = 2 ∨ m = 3 := by omega
    rcases hcases with rfl | rfl
    · exact (Option.some.inj hflag).symm
    · exact (Option.some.inj hflag).symm
  refine ⟨hsource, ?_, turns[4], List.getElem?_eq_getElem hlast, ?_⟩
  · rw [List.getElem?_eq_getElem hsecond, Option.map_some] at hsame
    rw [List.getElem?_eq_getElem hsecond, Option.bind_some] at hread
    obtain ⟨done, copied, snapshot, hdone, hcopies, hsnapshot, hdata⟩ :=
      (hturns 1 hsecond).1 (Option.some.inj hsame)
    have heq : snapshot = sampleSnapshot "old" ⟨9, 0⟩ :=
      Option.some.inj (hsnapshot.symm.trans hread)
    exact ⟨done, copied, hdone, hcopies, heq ▸ hdata⟩
  · rw [List.getElem?_eq_getElem hlast, Option.bind_some] at hlater
    rw [List.getElem?_eq_getElem hlast, Option.map_some] at hopens
    have hcopies := (hturns 4 hlast).2 2 _ (Nat.le_add_left 2 2) hgiven hlater hother
    exact hcopies.2 (Option.some.inj hopens)

end CredentialRelay.Cycle
