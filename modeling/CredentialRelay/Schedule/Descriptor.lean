import CredentialRelay.Cron.Occurrence
import CredentialRelay.Cron.Weekday
import CredentialRelay.Number.Word
import CredentialRelay.Schedule.Interval
import CredentialRelay.Text.Blank

/-!
# Schedules

A schedule tells when to work next. It is written as `@every` with an interval, as one of seven
shortcuts, or as a cron expression.

* An expression of five fields fires at second 0 and numbers its weekdays from 0; one of six or
  seven fields is taken as it is.
* An interval counts from the instant asked about. It has no next instant if it is longer than
  `2 ^ 63 - 1` milliseconds or leads out of the calendar.

Models `from_str` (`Schedule.parse`), `next_after` (`Schedule.next?`) and `upcoming`
(`Schedule.upcoming`).
-/

namespace CredentialRelay

/-- When to work next. -/
inductive Schedule where
  /-- A fixed time after the last work. -/
  | every (interval : Interval)
  /-- Whenever an expression fires; `source` is its text. -/
  | cron (source : String) (times : Cron)
  deriving DecidableEq

namespace Schedule

/-- Why a text is no schedule. -/
inductive Cause where
  | empty
  | interval (cause : Interval.Cause)
  | unknownShortcut (descriptor : String)
  | fieldCount (descriptor : String) (count : Nat)
  /-- An expression is refused. -/
  | badExpression (descriptor : String)
  /-- The reason why an expression is refused. -/
  | expression (fault : Cron.Fault)
  /-- The weekdays of an expression are refused. -/
  | badWeekdays (descriptor : String)
  /-- The reason why weekdays are refused. -/
  | weekdays (fault : Cron.WeekdayFault)
  deriving Repr, DecidableEq

/-- The wording of each cause. -/
def Cause.message : Cause → String
  | .empty => "Schedule descriptor cannot be empty"
  | .interval cause => cause.message
  | .unknownShortcut descriptor => s!"Unknown schedule shortcut '{descriptor}'"
  | .fieldCount descriptor count =>
    s!"Cron expression '{descriptor}' has {count} fields, expected 5, 6 or 7"
  | .badExpression descriptor => s!"Invalid cron expression '{descriptor}'"
  | .expression fault => fault.message
  | .badWeekdays descriptor => s!"Invalid day of week in cron expression '{descriptor}'"
  | .weekdays fault => fault.message

/-- The expressions that the shortcuts stand for. -/
def shortcuts : List (String × String) := [
  ("@yearly", "0 0 0 1 1 *"), ("@annually", "0 0 0 1 1 *"), ("@monthly", "0 0 0 1 * *"),
  ("@weekly", "0 0 0 * * Sun"), ("@daily", "0 0 0 * * *"), ("@midnight", "0 0 0 * * *"),
  ("@hourly", "0 0 * * * *")]

/-- What an interval is written behind. -/
def everyMark : List Char := "@every".toList

/-- The expression of six fields for one of five. -/
def withSeconds (descriptor : String) : Except (Failure Cause) String :=
  let fields := Text.fields descriptor
  match Cron.shiftWeekdays (fields.getLastD "").toList with
  | .ok weekdays =>
    .ok ("0 " ++ " ".intercalate (fields.dropLast ++ [String.ofList weekdays]))
  | .error fault => within (.badWeekdays descriptor) (fail (.weekdays fault))

/-- The cron expression of a descriptor without blanks at its ends. -/
def expression (descriptor : String) : Except (Failure Cause) String :=
  match shortcuts.lookup (Text.lowercase descriptor) with
  | some expression => .ok expression
  | none =>
    if descriptor.toList.head? = some '@' then fail (.unknownShortcut descriptor)
    else
      let count := (Text.fields descriptor).length
      if count = 5 then withSeconds descriptor
      else if count = 6 ∨ count = 7 then .ok descriptor
      else fail (.fieldCount descriptor count)

/-- Reads a schedule. -/
def parse (text : String) : Except (Failure Cause) Schedule :=
  let descriptor := Text.trim text
  if descriptor.isEmpty then fail .empty
  else if everyMark.isPrefixOf descriptor.toList then
    match Interval.parse (Text.trim (String.ofList (descriptor.toList.drop everyMark.length))) with
    | .ok interval => .ok (.every interval)
    | .error failure => .error (failure.map .interval)
  else
    match expression descriptor with
    | .error failure => .error failure
    | .ok source =>
      match Cron.parse source with
      | .ok times => .ok (.cron source times)
      | .error fault => within (.badExpression descriptor) (fail (.expression fault))

/-- What is accepted is an interval behind its mark, or an expression. -/
theorem parse_ok {text : String} {s : Schedule} (h : parse text = .ok s) :
    (everyMark <+: (Text.trim text).toList ∧ ∃ interval,
      Interval.parse (Text.trim (String.ofList
        ((Text.trim text).toList.drop everyMark.length))) = .ok interval ∧ s = .every interval) ∨
    ∃ source times, expression (Text.trim text) = .ok source ∧ Cron.parse source = .ok times ∧
      s = .cron source times := by
  unfold parse at h
  dsimp only at h
  split at h
  · cases h
  split at h
  · next hmark =>
    split at h
    · next interval hread =>
      cases h
      exact .inl ⟨List.isPrefixOf_iff_prefix.mp hmark, interval, hread, rfl⟩
    · cases h
  · split at h
    · cases h
    · next source hsource =>
      split at h
      · next times htimes =>
        cases h
        exact .inr ⟨source, times, hsource, htimes, rfl⟩
      · cases h

/-- The expression of a descriptor is that of a shortcut, or it has five fields and is put together
anew, or it has more and is taken as it is. -/
theorem expression_ok {descriptor source : String} (h : expression descriptor = .ok source) :
    (∃ shortcut ∈ shortcuts, shortcut.2 = source) ∨
    ((Text.fields descriptor).length = 5 ∧ withSeconds descriptor = .ok source) ∨
    ((Text.fields descriptor).length = 6 ∨ (Text.fields descriptor).length = 7) ∧
      source = descriptor := by
  unfold expression at h
  split at h
  · next found hfound =>
    cases h
    obtain ⟨before, after, heq, -⟩ := List.lookup_eq_some_iff.mp hfound
    refine .inl ⟨(Text.lowercase descriptor, source), ?_, rfl⟩
    rw [heq]
    exact List.mem_append_right _ List.mem_cons_self
  · split at h
    · cases h
    dsimp only at h
    split at h
    · next hcount => exact .inr (.inl ⟨hcount, h⟩)
    split at h
    · next hcount =>
      cases h
      exact .inr (.inr ⟨hcount, rfl⟩)
    · cases h

/-- The longest interval, in milliseconds, after which there can be an instant. -/
def maxAhead : Nat := Word.size63 - 1

/-- The next instant to work at, after `now`. -/
def next? (s : Schedule) (now : Instant) : Option Instant :=
  match s with
  | .every interval => if interval.millis ≤ maxAhead then now.addMillis? interval.millis else none
  | .cron _ times => times.next? now

/-- The next `count` instants to work at, after `now`; fewer if there are no more. -/
def upcoming (s : Schedule) : (count : Nat) → (now : Instant) → List Instant
  | 0, _ => []
  | count + 1, now =>
    match s.next? now with
    | some t => t :: s.upcoming count t
    | none => []

end Schedule

end CredentialRelay
