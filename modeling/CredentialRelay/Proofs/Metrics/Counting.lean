import CredentialRelay.Metrics.Basic
import CredentialRelay.Proofs.Dictionary
import Mathlib.Algebra.GroupWithZero.Nat

/-!
# Counting by label

One more of a label raises its own count and the total by one, and no other count. The counts of
failures are tallies by reason, so the same holds of them twice over.

* `Dictionary.weigh`: the sum of what the values of a dictionary weigh.
* `Metrics.failureTotal`: all failures, whatever their kinds and reasons.

Results:
* `Dictionary.weigh_insert`: what an insertion changes about the sum.
* `Tally.count_bump`, `Tally.total_bump`: one more of a label.
* `Metrics.failureCount_countFailure`, `Metrics.failureTotal_countFailure`: one more failure.
-/

namespace CredentialRelay

namespace Dictionary

variable {α : Type} (weight : α → Nat)

/-- The sum of what the values weigh. -/
def weigh (d : Dictionary α) : Nat :=
  (d.entries.map fun entry => weight entry.2).sum

theorem sum_insertEntry (key : String) (value : α) {entries : List (String × α)}
    (h : entries.Pairwise fun a b => a.1 < b.1) :
    ((insertEntry key value entries).map fun entry => weight entry.2).sum +
        (entries.lookup key).elim 0 weight =
      (entries.map fun entry => weight entry.2).sum + weight value := by
  induction entries with
  | nil => simp [insertEntry]
  | cons first rest ih =>
    obtain ⟨hfirst, hrest⟩ := List.pairwise_cons.mp h
    obtain ⟨k, v⟩ := first
    have hnone (hlt : ∀ entry ∈ rest, key < entry.1) : rest.lookup key = none :=
      List.lookup_eq_none_iff.mpr fun entry he => by simpa using String.ne_of_lt (hlt entry he)
    unfold insertEntry
    by_cases hlt : key < k
    · have hne : (key == k) = false := beq_eq_false_iff_ne.mpr (String.ne_of_lt hlt)
      have hlookup := hnone fun entry he => String.lt_trans hlt (hfirst entry he)
      simp [hlt, List.lookup_cons, hne, hlookup]
      omega
    · by_cases hgt : k < key
      · have hne : (key == k) = false := beq_eq_false_iff_ne.mpr (String.ne_of_lt hgt).symm
        have hbehind := ih hrest
        simp only [if_neg hlt, if_pos hgt, List.map_cons, List.sum_cons, List.lookup_cons, hne]
        omega
      · have hkey : k = key := String.le_antisymm (String.not_lt.mp hlt) (String.not_lt.mp hgt)
        simp [hkey]
        omega

/-- **What an insertion changes about the sum**: the new value weighs in for the old one, if there
was one. -/
theorem weigh_insert (d : Dictionary α) (key : String) (value : α) :
    (d.insert key value).weigh weight + (d.get? key).elim 0 weight = d.weigh weight + weight value :=
  sum_insertEntry weight key value d.ascending

end Dictionary

namespace Tally

/-- **One more of a label.** -/
theorem count_bump (t : Tally) (label other : String) :
    count (t.bump label) other = count t other + if other = label then 1 else 0 := by
  unfold count bump
  rw [Dictionary.get?_insert]
  split
  · next h => rw [h]; rfl
  · rfl

theorem total_eq_weigh (t : Tally) : t.total = t.weigh id := by
  have hall : ∀ (entries : List (String × Nat)) (n : Nat),
      entries.foldl (fun total entry => total + entry.2) n =
        n + (entries.map fun entry => id entry.2).sum := by
    intro entries
    induction entries with
    | nil => exact fun n => rfl
    | cons entry entries ih =>
      intro n
      rw [List.foldl_cons, ih, List.map_cons, List.sum_cons, id, Nat.add_assoc]
  exact (hall t.entries 0).trans (Nat.zero_add _)

/-- **The total goes up with every count.** -/
theorem total_bump (t : Tally) (label : String) : (t.bump label).total = t.total + 1 := by
  have hweigh := Dictionary.weigh_insert id t label (count t label + 1)
  have hcount : (t.get? label).elim 0 id = count t label := by
    unfold count
    cases t.get? label <;> rfl
  rw [total_eq_weigh, total_eq_weigh]
  rw [hcount] at hweigh
  unfold bump
  simp only [id] at hweigh
  omega

end Tally

namespace Metrics

/-- All failures. -/
def failureTotal (m : Metrics) : Nat :=
  m.failures.weigh Tally.total

/-- **One more failure**, of its kind and for its reason. -/
theorem failureCount_countFailure (m : Metrics) (kind reason kind' reason' : String) :
    (m.countFailure kind reason).failureCount kind' reason' =
      m.failureCount kind' reason' + if kind' = kind ∧ reason' = reason then 1 else 0 := by
  unfold failureCount countFailure
  simp only [Dictionary.get?_insert]
  by_cases hreason : reason' = reason
  · rw [if_pos hreason, Option.getD_some, Tally.count_bump, hreason]
    simp
  · rw [if_neg hreason, if_neg fun h => hreason h.2, Nat.add_zero]

/-- **All failures are one more.** -/
theorem failureTotal_countFailure (m : Metrics) (kind reason : String) :
    (m.countFailure kind reason).failureTotal = m.failureTotal + 1 := by
  have hweigh := Dictionary.weigh_insert Tally.total m.failures reason
    (Tally.bump ((m.failures.get? reason).getD Dictionary.empty) kind)
  have hold : (m.failures.get? reason).elim 0 Tally.total =
      Tally.total ((m.failures.get? reason).getD Dictionary.empty) := by
    cases m.failures.get? reason <;> rfl
  rw [hold, Tally.total_bump] at hweigh
  unfold failureTotal countFailure
  simp only
  omega

end Metrics

end CredentialRelay
