import CredentialRelay.Proofs.Cycle.Memory
import CredentialRelay.Proofs.Dictionary

/-!
# Entries are isolated

Whatever an entry holds, and whether it is there at all, the other entries of the secret fare the
same: what is stored, told and counted for them stays as it was, and in its place. The entry itself
adds one outcome, with at most one credential that is stored, one event, and one unit of one count.

* A choice for a key is a value, well-formed or not, or nothing at all (`Dictionary.assign`).
* What a cycle tells of itself names numbers of entries, so it may differ: how many were found, and
  how many of them were stored and failed.

Results:
* `Report.ofRecords_around`: an outcome counts the same wherever it stands.
* `entry_isolated`: cycles with different choices for a key.
-/

namespace CredentialRelay.Cycle

open Log

/-! ## Counting -/

/-- It does not matter in which order outcomes are counted. -/
theorem Report.add_add_comm (r : Report) (first second : EntryOutcome) :
    (r.add first).add second = (r.add second).add first := by
  cases first <;> cases second <;> rfl

theorem Report.foldl_add (records : List EntryRecord) (r : Report) (outcome : EntryOutcome) :
    records.foldl (fun r record => r.add record.outcome) (r.add outcome) =
      (records.foldl (fun r record => r.add record.outcome) r).add outcome := by
  induction records generalizing r with
  | nil => rfl
  | cons record records ih =>
    rw [List.foldl_cons, List.foldl_cons, Report.add_add_comm, ih]

/-- **An outcome counts the same wherever it stands.** -/
theorem Report.ofRecords_around (before after : List EntryRecord) (record : EntryRecord) :
    Report.ofRecords (before ++ record :: after) =
      (Report.ofRecords (before ++ after)).add record.outcome := by
  unfold Report.ofRecords
  rw [List.foldl_append, List.foldl_append, List.foldl_cons, Report.foldl_add]

/-- The report with one more outcome, if there is one. -/
def Report.addAny (r : Report) : Option EntryOutcome → Report
  | some outcome => r.add outcome
  | none => r

@[simp] theorem Report.addAny_none (r : Report) : r.addAny none = r := rfl

@[simp] theorem Report.addAny_some (r : Report) (outcome : EntryOutcome) :
    r.addAny (some outcome) = r.add outcome := rfl

/-! ## Cycles -/

/-- A turn that gives account of the records around one entry, and of the outcome of that entry, if
there is one: what was stored, what was told, and what is reported of it stand in their places. -/
structure Turn.AccountsAround (turn : Turn Memory) (job : Job) (m : Memory) (size : Nat)
    (before after : List EntryRecord) (key : String) (own : Option EntryOutcome) : Prop where
  outcome : turn.outcome = .completed ((Report.ofRecords (before ++ after)).addAny own)
  writes : turn.world.writes = m.writes ++ (before.filterMap (·.write? job.credentialMount) ++
    (own.bind (·.write? job.credentialMount)).toList ++
    after.filterMap (·.write? job.credentialMount))
  log : turn.log = (startEvent :: foundEvent size ::
    (before.map (fun r => r.outcome.event r.key) ++ (own.map (·.event key)).toList ++
      after.map (fun r => r.outcome.event r.key) ++
      [completionEvent ((Report.ofRecords (before ++ after)).addAny own)])).map
      (Event.inSpan (span job))

/-- A record between others gives its part of every account. -/
theorem Turn.Accounts.around {turn : Turn Memory} {job : Job} {m : Memory}
    {before after : List EntryRecord} {key : String} {choice : Option String}
    (h : turn.Accounts job m
      (before ++ (choice.map fun value => m.record (key, value)).toList ++ after)) :
    turn.AccountsAround job m
      (before ++ (choice.map fun value => m.record (key, value)).toList ++ after).length before after
      key (choice.map (m.outcomeOf key)) := by
  obtain ⟨houtcome, hwrites, hlog⟩ := h
  cases choice with
  | none => exact ⟨by simpa using houtcome, by simpa using hwrites, by simpa using hlog⟩
  | some value =>
    have hreport := Report.ofRecords_around before after (m.record (key, value))
    rw [Option.map_some, Option.toList_some, List.append_assoc, List.singleton_append] at *
    rw [hreport] at houtcome hlog
    refine ⟨houtcome, ?_, by simpa [Memory.record] using hlog⟩
    have hown : (m.record (key, value)).write? job.credentialMount =
        (m.outcomeOf key value).write? job.credentialMount := rfl
    rw [hwrites, List.filterMap_append, List.filterMap_cons, hown, Option.map_some, Option.bind_some]
    cases (m.outcomeOf key value).write? job.credentialMount <;> simp

/-- **An entry changes nothing but what is its own.** Either all cycles with some choice for a key
are given up in the same way, or all of them are completed: the other entries have the same records,
and those of lesser keys come before, and those of greater keys after, what is chosen for the key. -/
theorem entry_isolated (timing : Timing) (job : Job) (metrics : Metrics) (m : Memory)
    (data : Dictionary String) (time : Instant) (key : String) :
    let secret (choice : Option String) := data.assign key choice
    let turn (choice : Option String) :=
      run Memory.services timing job metrics (m.setSecret ⟨secret choice, time⟩)
    (∃ ending closing,
      ∀ choice, (turn choice).GivesUp job m (secret choice).size ending closing) ∨
    ∃ before after, before ++ after = (data.erase key).entries.map m.record ∧
      (∀ record ∈ before ++ after, record.key ≠ key) ∧
      ∀ choice, (turn choice).AccountsAround job m (secret choice).size before after key
        (choice.map (m.outcomeOf key)) := by
  intro secret turn
  rcases run_memory timing job metrics m time with ⟨ending, closing, hgiven⟩ | haccounts
  · exact .inl ⟨ending, closing, fun choice => hgiven (secret choice)⟩
  · refine .inr ⟨(data.below key).map m.record, (data.above key).map m.record, ?_, ?_, ?_⟩
    · rw [Dictionary.entries_erase, List.map_append]
    · intro record hrecord
      rw [← List.map_append] at hrecord
      obtain ⟨entry, hentry, rfl⟩ := List.mem_map.mp hrecord
      exact Dictionary.ne_of_mem_below_above hentry
    · intro choice
      have hrecords : (secret choice).entries.map m.record = (data.below key).map m.record ++
          (choice.map fun value => m.record (key, value)).toList ++
          (data.above key).map m.record := by
        rw [Dictionary.entries_assign, List.map_append, List.map_append]
        cases choice <;> rfl
      have hsize : (secret choice).size = ((secret choice).entries.map m.record).length :=
        (List.length_map _).symm
      have haround := haccounts (secret choice)
      rw [hrecords] at haround hsize
      exact hsize ▸ haround.around

end CredentialRelay.Cycle
