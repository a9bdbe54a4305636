import CredentialRelay.Proofs.Cron.Adjacent
import CredentialRelay.Proofs.Cron.Occurrence
import CredentialRelay.Text.Blank

/-!
# Expressions put together from fields

An expression is put together from fields that are each a text of their own, with one space between
any two of them. It is read field by field, and each field has the values that it has by itself.

* `IsField part text values`: the text has no blanks, and is read whole as a field with these values.

Results:
* `ofChars_of_isField`: behind five fields, the weekdays decide about an expression.
-/

namespace CredentialRelay.Cron

/-- A text without blanks that is read whole as the field of a part. -/
structure IsField (part : Part) (text : List Char) (values : List Nat) : Prop where
  unbroken : ∀ c ∈ text, Text.isBlank c = false
  read : partField part text = .ok (values, [])

theorem isSpace_of_not_isBlank {c : Char} (h : Text.isBlank c = false) : isSpace c = false := by
  cases hspace : isSpace c with
  | false => rfl
  | true =>
    simp only [isSpace, Bool.or_eq_true, beq_iff_eq] at hspace
    rcases hspace with ((rfl | rfl) | rfl) | rfl <;> exact absurd h (by decide)

theorem partField_eq_ok_iff {part : Part} {cs rest : List Char} {values : List Nat} :
    partField part cs = .ok (values, rest) ↔
      ∃ items, field (part == .day || part == .weekday) cs = some (items, rest) ∧
        resolve part items = .ok values := by
  unfold partField
  cases field (part == .day || part == .weekday) cs with
  | none => simp
  | some read =>
    obtain ⟨items, left⟩ := read
    dsimp only
    constructor
    · intro h
      cases hvalues : resolve part items with
      | error fault =>
        rw [hvalues] at h
        cases h
      | ok found =>
        rw [hvalues] at h
        cases h
        exact ⟨items, rfl, hvalues⟩
    · rintro ⟨items', hread, hvalues⟩
      obtain ⟨rfl, rfl⟩ := Prod.mk.inj (Option.some.inj hread)
      rw [hvalues]
      rfl

namespace IsField

variable {part : Part} {text : List Char} {values : List Nat}

theorem of_any (h : text.any Text.isBlank = false)
    (hread : partField part text = .ok (values, [])) : IsField part text values :=
  ⟨fun c hc => Bool.eq_false_iff.mpr (List.any_eq_false.mp h c hc), hread⟩

theorem no_spaces (h : IsField part text values) : ∀ c ∈ text, isSpace c = false :=
  fun c hc => isSpace_of_not_isBlank (h.unbroken c hc)

theorem opens (h : IsField part text values) : Opens text := by
  obtain ⟨items, hread, -⟩ := partField_eq_ok_iff.mp h.read
  exact opens_of_field h.no_spaces hread

/-- In front of another field, a field has the values that it has by itself. -/
theorem append (h : IsField part text values) {next : List Char} (hnext : Opens next) :
    partField part (text ++ ' ' :: next) = .ok (values, next) := by
  obtain ⟨items, hread, hvalues⟩ := partField_eq_ok_iff.mp h.read
  exact partField_eq_ok_iff.mpr ⟨items, field_append hnext h.no_spaces hread, hvalues⟩

/-- The values of a field are in order and in bounds. -/
theorem holds (h : IsField part text values) : part.Holds values := by
  obtain ⟨items, -, hvalues⟩ := partField_eq_ok_iff.mp h.read
  exact resolve_holds hvalues

end IsField

section

variable {second minute hour day month weekday : List Char}
  {seconds minutes hours days months : List Nat} {items : List Item}

/-- **Behind five fields, the weekdays decide** about an expression, if they are all that is left of
it. Every year belongs to it then. -/
theorem ofChars_of_isField (hsecond : IsField .second second seconds)
    (hminute : IsField .minute minute minutes) (hhour : IsField .hour hour hours)
    (hday : IsField .day day days) (hmonth : IsField .month month months)
    (hopens : Opens weekday) (hread : field true weekday = some (items, [])) :
    Cron.ofChars ([' '].intercalate [second, minute, hour, day, month, weekday]) =
      (resolve .weekday items).map fun weekdays =>
        ⟨seconds, minutes, hours, days, months, weekdays, Part.year.values⟩ := by
  have hjoin : [' '].intercalate [second, minute, hour, day, month, weekday] =
      second ++ ' ' :: (minute ++ ' ' :: (hour ++ ' ' :: (day ++ ' ' :: (month ++ ' ' :: weekday)))) := by
    simp [List.intercalate]
  have hweekday : partField .weekday weekday =
      (resolve .weekday items).map fun weekdays => (weekdays, []) := by
    unfold partField
    rw [show (Part.weekday == Part.day || Part.weekday == Part.weekday) = true from rfl, hread]
  have hfirst := hsecond.append (hminute.opens.append (' ' :: (hour ++ ' ' :: (day ++ ' ' ::
    (month ++ ' ' :: weekday)))))
  rw [hjoin, Cron.ofChars, hfirst]
  show (partField .minute _ >>= _) = _
  rw [hminute.append (hhour.opens.append _)]
  show (partField .hour _ >>= _) = _
  rw [hhour.append (hday.opens.append _)]
  show (partField .day _ >>= _) = _
  rw [hday.append (hmonth.opens.append _)]
  show (partField .month _ >>= _) = _
  rw [hmonth.append hopens]
  show (partField .weekday _ >>= _) = _
  rw [hweekday]
  cases resolve .weekday items with
  | error fault => rfl
  | ok weekdays => rfl

end

end CredentialRelay.Cron
