import CredentialRelay.Cron.Grammar
import CredentialRelay.Proofs.Text.Letters

/-!
# Fields behind each other

A field that is a text of its own is read the same where a space and another field stand behind it.
This is not so of its parts: a reader that stops before a hyphen, a slash or a comma because nothing
follows would read on if something did. But then the text has more in it than one field.

* `Onward next rest rest'`: `rest'` is what a reader leaves where a space and `next` stand behind
  the text, if `rest` is what it leaves of the text alone.
* `ReadsOn next`: two readings of one thing, the second one with a space and `next` behind it.

Results:
* `item_readsOn`: an item reads on, or what is left behind it can belong to no field.
* `field_append`: a whole field is read the same in front of another one.
* `opens_of_field`: what a field begins with.
-/

namespace CredentialRelay.Cron

variable {α : Type} {next rest rest' cs : List Char}

/-- Whether a field can begin with a character. -/
def beginsField (c : Char) : Bool :=
  c == '*' || c == '?' || c.isDigit || c.isAlpha

/-- A text that begins as a field does. -/
def Opens (next : List Char) : Prop :=
  ∃ c more, next = c :: more ∧ beginsField c = true

/-- What is left of a text without spaces, alone and with a space and `next` behind it. Readers of
numbers and names skip the space. -/
def Onward (next rest rest' : List Char) : Prop :=
  (∀ c ∈ rest, isSpace c = false) ∧ (rest' = rest ++ ' ' :: next ∨ rest = [] ∧ rest' = next)

/-- Two readings of one thing. -/
inductive ReadsOn (next : List Char) :
    Option (α × List Char) → Option (α × List Char) → Prop
  | none : ReadsOn next none none
  | some (value : α) {rest rest' : List Char} (h : Onward next rest rest') :
      ReadsOn next (some (value, rest)) (some (value, rest'))

/-- No field has these marks at its start. -/
theorem ne_of_beginsField {c : Char} (h : beginsField c = true) :
    isSpace c = false ∧ c ≠ '-' ∧ c ≠ '/' ∧ c ≠ ',' ∧ c ≠ '@' := by
  have hspace : isSpace c = false := by
    cases hs : isSpace c with
    | false => rfl
    | true =>
      simp only [isSpace, Bool.or_eq_true, beq_iff_eq] at hs
      rcases hs with ((rfl | rfl) | rfl) | rfl <;> exact absurd h (by decide)
  refine ⟨hspace, ?_, ?_, ?_, ?_⟩ <;> (rintro rfl; exact absurd h (by decide))

theorem ascii_of_beginsField {c : Char} (h : beginsField c = true) : c.toNat < 0x80 := by
  simp only [beginsField, Bool.or_eq_true, beq_iff_eq] at h
  rcases h with ((rfl | rfl) | h) | h
  · decide
  · decide
  · simp only [Char.isDigit, Bool.and_eq_true, decide_eq_true_eq, UInt32.le_iff_toNat_le] at h
    exact Nat.lt_of_le_of_lt h.2 (by decide)
  · exact Text.toNat_lt_of_isAlpha h

theorem Opens.append {text : List Char} (h : Opens text) (rest : List Char) :
    Opens (text ++ rest) := by
  obtain ⟨c, more, rfl, hc⟩ := h
  exact ⟨c, more ++ rest, rfl, hc⟩

theorem Onward.of_append (h : ∀ c ∈ cs, isSpace c = false) : Onward next cs (cs ++ ' ' :: next) :=
  ⟨h, .inl rfl⟩

/-- What is left is not shorter with more behind it. -/
theorem Onward.length_le (h : Onward next rest rest') : rest.length ≤ rest'.length := by
  rcases h.2 with rfl | ⟨rfl, rfl⟩
  · simp
  · exact Nat.zero_le _

/-- If nothing is left, then nothing but the next field and a space is left with it. -/
theorem Onward.skipSpaces_eq (hnext : Opens next) (h : Onward next [] rest') :
    skipSpaces rest' = next := by
  obtain ⟨c, more, rfl, hc⟩ := hnext
  have hstop : skipSpaces (c :: more) = c :: more :=
    List.dropWhile_cons_of_neg (by simp [(ne_of_beginsField hc).1])
  rcases h.2 with rfl | ⟨-, rfl⟩
  · exact hstop
  · exact hstop

/-! ## Marks, numbers and names -/

/-- The marks between the parts of a field are in the field itself. -/
theorem Onward.mark {m : Char} (hm : m = '-' ∨ m = '/' ∨ m = ',') (hnext : Opens next)
    (h : Onward next rest rest') : mark m rest' = (mark m rest).map (· ++ ' ' :: next) := by
  obtain ⟨c, more, rfl, hc⟩ := hnext
  obtain ⟨-, hhyphen, hslash, hcomma, -⟩ := ne_of_beginsField hc
  have hspace : ' ' ≠ m := by rcases hm with rfl | rfl | rfl <;> decide
  have hne : c ≠ m := by rcases hm with rfl | rfl | rfl <;> assumption
  rcases h.2 with rfl | ⟨rfl, rfl⟩
  · cases rest with
    | nil => exact if_neg hspace
    | cons d rest =>
      unfold Cron.mark
      simp only [List.cons_append]
      split <;> rfl
  · exact if_neg hne

theorem mark_eq_some {m : Char} (h : mark m cs = some rest) : cs = m :: rest := by
  unfold mark at h
  split at h
  · split at h
    · next heq => rw [heq, Option.some.inj h]
    · cases h
  · cases h

theorem takeWhile_append_space {p : Char → Bool} (hp : p ' ' = false) (next : List Char) :
    ∀ cs : List Char, (cs ++ ' ' :: next).takeWhile p = cs.takeWhile p ∧
      (cs ++ ' ' :: next).dropWhile p = cs.dropWhile p ++ ' ' :: next
  | [] => by simp [hp]
  | c :: cs => by
    have ih := takeWhile_append_space hp next cs
    cases hc : p c <;> simp [hc, ih]

/-- A run in the text is the same run with more behind it. -/
theorem run_readsOn {p : Char → Bool} (hp : p ' ' = false) (hnext : Opens next)
    (h : ∀ c ∈ cs, isSpace c = false) (hne : cs ≠ []) :
    ReadsOn next (run p cs) (run p (cs ++ ' ' :: next)) := by
  have hstart (tail : List Char) : skipSpaces (cs ++ tail) = cs ++ tail := by
    obtain ⟨c, cs, rfl⟩ := List.exists_cons_of_ne_nil hne
    exact List.dropWhile_cons_of_neg (by simp [h c List.mem_cons_self])
  have hleft : ∀ c ∈ cs.dropWhile p, isSpace c = false :=
    fun c hc => h c ((List.dropWhile_suffix p).subset hc)
  obtain ⟨htake, hdrop⟩ := takeWhile_append_space hp next cs
  unfold run
  simp only
  rw [hstart (' ' :: next), htake, hdrop, ← List.append_nil cs, hstart [], List.append_nil]
  split
  · exact .none
  · refine .some _ ?_
    cases hrest : cs.dropWhile p with
    | nil =>
      have hempty : Onward next [] ([] ++ ' ' :: next) := Onward.of_append nofun
      have hskip := Onward.skipSpaces_eq hnext hempty
      exact ⟨nofun, .inr ⟨rfl, hskip⟩⟩
    | cons c rest =>
      rw [hrest] at hleft
      have hc : isSpace c = false := hleft c List.mem_cons_self
      have hkeep (tail : List Char) : skipSpaces (c :: rest ++ tail) = c :: rest ++ tail :=
        List.dropWhile_cons_of_neg (by simp [hc])
      rw [hkeep (' ' :: next), ← List.append_nil (c :: rest), hkeep [], List.append_nil]
      exact Onward.of_append hleft

theorem ReadsOn.map {β : Type} (f : α → β) {alone followed : Option (α × List Char)}
    (h : ReadsOn next alone followed) :
    ReadsOn next (alone.map fun read => (f read.1, read.2))
      (followed.map fun read => (f read.1, read.2)) := by
  cases h with
  | none => exact .none
  | some value honward => exact .some (f value) honward

theorem ReadsOn.or {alone followed alone' followed' : Option (α × List Char)}
    (h : ReadsOn next alone followed) (h' : ReadsOn next alone' followed') :
    ReadsOn next (alone.or alone') (followed.or followed') := by
  cases h with
  | none => exact h'
  | some value honward => exact .some value honward

/-- A reader that reads on. -/
abbrev Continues (next : List Char) (part : Reader α) : Prop :=
  ∀ {cs : List Char}, (∀ c ∈ cs, isSpace c = false) → cs ≠ [] →
    ReadsOn next (part cs) (part (cs ++ ' ' :: next))

theorem number_continues (hnext : Opens next) : Continues next number := by
  intro cs h hne
  have hrun := run_readsOn (p := Char.isDigit) (by decide) hnext h hne
  unfold number
  generalize run Char.isDigit cs = alone at hrun
  generalize run Char.isDigit (cs ++ ' ' :: next) = followed at hrun
  cases hrun with
  | none => exact .none
  | some digits honward =>
    simp only
    split
    · exact .some _ honward
    · exact .none

theorem word_continues (hnext : Opens next) : Continues next word :=
  fun h hne => (run_readsOn (by decide) hnext h hne).map String.ofList

/-! ## Extents and items -/

/-- Behind a mark, a text goes on with what the reader continues, or it ends there. -/
theorem bind_mark_readsOn {part : Reader α} (hpart : Continues next part) {m : Char}
    (hm : m = '-' ∨ m = '/' ∨ m = ',') (hnext : Opens next) (h : Onward next rest rest') :
    ReadsOn next ((mark m rest).bind part) ((mark m rest').bind part) ∨ rest = [m] := by
  rw [h.mark hm hnext]
  cases hmark : mark m rest with
  | none => exact .inl .none
  | some behind =>
    have hrest : rest = m :: behind := mark_eq_some hmark
    by_cases hne : behind = []
    · exact .inr (by rw [hrest, hne])
    · exact .inl (hpart (fun c hc => h.1 c (by simp [hrest, hc])) hne)

theorem pair_eq (part : Reader α) (cs : List Char) :
    pair part cs = (part cs).bind fun first =>
      ((mark '-' first.2).bind part).map fun last => ((first.1, last.1), last.2) := by
  unfold pair
  cases part cs with
  | none => rfl
  | some first =>
    simp only [Option.bind_eq_bind, Option.bind_some]
    cases mark '-' first.2 with
    | none => rfl
    | some behind =>
      simp only [Option.bind_some]
      cases part behind <;> rfl

/-- A pair reads on, or only a hyphen is behind its first part. -/
theorem pair_readsOn {part : Reader α} (hpart : Continues next part) (hnext : Opens next)
    (h : ∀ c ∈ cs, isSpace c = false) (hne : cs ≠ []) :
    ReadsOn next (pair part cs) (pair part (cs ++ ' ' :: next)) ∨
      ∃ value, part cs = some (value, ['-']) := by
  have hfirst := hpart h hne
  rw [pair_eq, pair_eq]
  generalize part cs = alone at hfirst
  generalize part (cs ++ ' ' :: next) = followed at hfirst
  cases hfirst with
  | none => exact .inl .none
  | some value honward =>
    rcases bind_mark_readsOn hpart (.inl rfl) hnext honward with hlast | rfl
    · exact .inl (hlast.map (Prod.mk value))
    · exact .inr ⟨value, rfl⟩

/-- Something with no hyphen behind it is no pair. -/
theorem pair_eq_none_of_mark {part : Reader α} {value : α} (h : part cs = some (value, rest))
    (hmark : mark '-' rest = none) : pair part cs = none := by
  rw [pair_eq, h, Option.bind_some, hmark]
  rfl

/-- A hyphen with nothing behind it makes no pair. -/
theorem pair_eq_none {part : Reader α} {value : α} (h : part cs = some (value, ['-']))
    (hnil : part [] = none) : pair part cs = none := by
  rw [pair_eq, h]
  show ((part []).map _) = none
  rw [hnil]
  rfl

theorem extent_of_ne {c : Char} (hall : c ≠ '*') (hany : c ≠ '?') (day : Bool)
    (cs : List Char) :
    extent day (c :: cs) =
      ((pair number (c :: cs)).map fun read => (.range read.1.1 read.1.2, read.2)).or
        (((number (c :: cs)).map fun read => (.point read.1, read.2)).or
          ((pair word (c :: cs)).map fun read => (.namedRange read.1.1 read.1.2, read.2))) := by
  have hmark : mark '?' (c :: cs) = none := if_neg hany
  unfold extent
  split
  · next heq => exact absurd (List.cons.inj heq).1 hall
  · rw [hmark]
    cases pair number (c :: cs) with
    | some _ => rfl
    | none =>
      cases number (c :: cs) with
      | some _ => rfl
      | none => rfl

/-- An extent reads on, or a number or a name with only a hyphen behind it is there instead. -/
theorem extent_readsOn (day : Bool) (hnext : Opens next) (h : ∀ c ∈ cs, isSpace c = false)
    (hne : cs ≠ []) :
    ReadsOn next (extent day cs) (extent day (cs ++ ' ' :: next)) ∨
      (∃ value, extent day cs = some (value, ['-'])) ∨
      extent day cs = none ∧ ∃ name, word cs = some (name, ['-']) := by
  obtain ⟨c, cs, rfl⟩ := List.exists_cons_of_ne_nil hne
  have hcs : ∀ d ∈ cs, isSpace d = false := fun d hd => h d (List.mem_cons_of_mem c hd)
  by_cases hall : c = '*'
  · subst hall
    exact .inl (.some Extent.all (Onward.of_append hcs))
  by_cases hany : c = '?'
  · subst hany
    cases day with
    | true => exact .inl (ReadsOn.some Extent.all (Onward.of_append hcs))
    | false => exact .inl .none
  have hpoint := number_continues hnext h hne
  rw [List.cons_append, extent_of_ne hall hany, extent_of_ne hall hany, ← List.cons_append]
  rcases pair_readsOn (number_continues hnext) hnext h hne with hrange | ⟨n, hn⟩
  · have hnumber := (hrange.map fun ends => Extent.range ends.1 ends.2).or (hpoint.map .point)
    rw [← Option.or_assoc, ← Option.or_assoc]
    rcases pair_readsOn (word_continues hnext) hnext h hne with hnamed | ⟨name, hname⟩
    · exact .inl (hnumber.or (hnamed.map fun ends => Extent.namedRange ends.1 ends.2))
    · rw [pair_eq_none hname rfl, Option.map_none, Option.or_none]
      generalize Option.or _ _ = alone at hnumber
      generalize Option.or (Option.map _ (pair number _)) _ = followed at hnumber
      cases hnumber with
      | none => exact .inr (.inr ⟨rfl, name, hname⟩)
      | some _ honward => exact .inl (.some _ honward)
  · rw [pair_eq_none hn rfl, hn]
    exact .inr (.inl ⟨.point n, rfl⟩)

theorem item_eq (day : Bool) (cs : List Char) :
    item day cs =
      ((extent day cs).map fun read =>
        ((step read.2).map fun n => (Item.stepped read.1 n.1, n.2)).getD
          (.plain read.1, read.2)).or
      ((word cs).map fun read => (.named read.1, read.2)) := by
  unfold item
  cases extent day cs with
  | none => rfl
  | some read =>
    simp only [Option.map_some, Option.some_or]
    cases step read.2 <;> rfl

/-- What is left behind an item and can belong to no field. -/
def Stuck (rest : List Char) : Prop :=
  rest = ['-'] ∨ rest = ['/']

/-- **An item reads on**, or what is left behind it can belong to no field. -/
theorem item_readsOn (day : Bool) (hnext : Opens next) (h : ∀ c ∈ cs, isSpace c = false)
    (hne : cs ≠ []) :
    ReadsOn next (item day cs) (item day (cs ++ ' ' :: next)) ∨
      ∃ value rest, item day cs = some (value, rest) ∧ Stuck rest := by
  rw [item_eq, item_eq]
  rcases extent_readsOn day hnext h hne with hextent | ⟨value, hvalue⟩ | ⟨hnone, name, hname⟩
  · generalize extent day cs = alone at hextent
    generalize extent day (cs ++ ' ' :: next) = followed at hextent
    cases hextent with
    | none => exact .inl ((word_continues hnext h hne).map Item.named)
    | @some value rest rest' honward =>
      rcases bind_mark_readsOn (number_continues hnext) (.inr (.inl rfl)) hnext honward with
        hstep | rfl
      · refine .inl ?_
        have hstep : ReadsOn next (step rest) (step rest') := hstep
        simp only [Option.map_some, Option.some_or]
        generalize step rest = alone at hstep
        generalize step rest' = followed at hstep
        cases hstep with
        | none => exact .some _ honward
        | some _ honward => exact .some _ honward
      · exact .inr ⟨.plain value, ['/'], rfl, .inr rfl⟩
  · exact .inr ⟨.plain value, ['-'], by rw [hvalue]; rfl, .inl rfl⟩
  · exact .inr ⟨.named name, ['-'], by rw [hnone, hname]; rfl, .inl rfl⟩

/-! ## Fields -/

/-- **More items are read the same** in front of another field, with any more fuel, if all of the
text belongs to them. -/
theorem moreItems_onward (day : Bool) (hnext : Opens next) : ∀ {fuel more : Nat} {items : List Item}
    {rest rest' : List Char}, fuel ≤ more → Onward next rest rest' →
    moreItems day fuel rest = (items, []) →
    ∃ left, moreItems day more rest' = (items, left) ∧ Onward next [] left := by
  intro fuel
  induction fuel with
  | zero =>
    intro more items rest rest' _ honward hread
    obtain ⟨rfl, rfl⟩ := Prod.mk.inj hread
    refine ⟨rest', ?_, honward⟩
    cases more with
    | zero => rfl
    | succ more =>
      unfold moreItems
      rw [honward.mark (.inr (.inr rfl)) hnext]
      rfl
  | succ fuel ih =>
    intro more items rest rest' hle honward hread
    obtain ⟨more, rfl⟩ := Nat.exists_eq_add_of_le' hle
    unfold moreItems at hread ⊢
    cases hfirst : (mark ',' rest).bind (item day) with
    | none =>
      rw [hfirst] at hread
      obtain ⟨rfl, rfl⟩ := Prod.mk.inj hread
      refine ⟨rest', ?_, honward⟩
      rw [honward.mark (.inr (.inr rfl)) hnext]
      rfl
    | some read =>
      obtain ⟨first, left⟩ := read
      rw [hfirst] at hread
      obtain ⟨behind, hbehind, hitem⟩ := Option.bind_eq_some_iff.mp hfirst
      have hne : behind ≠ [] := by
        rintro rfl
        cases day <;> cases hitem
      have hspaces : ∀ c ∈ behind, isSpace c = false :=
        fun c hc => honward.1 c (mark_eq_some hbehind ▸ List.mem_cons_of_mem ',' hc)
      rw [honward.mark (.inr (.inr rfl)) hnext, hbehind, Option.map_some, Option.bind_some]
      rcases item_readsOn day hnext hspaces hne with hreads | ⟨value, rest, hvalue, hstuck⟩
      · rw [hitem] at hreads
        generalize item day (behind ++ ' ' :: next) = followed at hreads ⊢
        cases hreads with
        | some _ hleft =>
          simp only at hread ⊢
          have hall : (moreItems day fuel left).2 = [] := congrArg Prod.snd hread
          obtain ⟨last, hlast, hend⟩ := ih (Nat.le_of_add_le_add_right hle) hleft
            (Prod.ext rfl hall : moreItems day fuel left = ((moreItems day fuel left).1, []))
          obtain ⟨rfl, -⟩ := Prod.mk.inj hread
          exact ⟨last, by rw [hlast], hend⟩
      · rw [hitem] at hvalue
        obtain ⟨rfl, rfl⟩ := Prod.mk.inj (Option.some.inj hvalue)
        simp only at hread
        have hnone : moreItems day fuel left = ([], left) := by
          cases fuel with
          | zero => rfl
          | succ fuel => rcases hstuck with rfl | rfl <;> rfl
        rw [hnone] at hread
        rcases hstuck with rfl | rfl <;> cases hread

theorem mark_no_spaces {m : Char} (h : ∀ c ∈ cs, isSpace c = false)
    (hmark : mark m cs = some rest) : ∀ c ∈ rest, isSpace c = false :=
  fun c hc => h c (mark_eq_some hmark ▸ List.mem_cons_of_mem m hc)

/-- A text without spaces leaves none behind an item. -/
theorem item_no_spaces {day : Bool} {value : Item} (h : ∀ c ∈ cs, isSpace c = false)
    (hread : item day cs = some (value, rest)) : ∀ c ∈ rest, isSpace c = false := by
  have hne : cs ≠ [] := by
    rintro rfl
    cases day <;> cases hread
  rcases item_readsOn day (⟨'*', [], rfl, rfl⟩ : Opens ['*']) h hne with hreads |
    ⟨value', rest', hvalue, hstuck⟩
  · rw [hread] at hreads
    generalize item day (cs ++ ' ' :: ['*']) = followed at hreads
    cases hreads with
    | some _ honward => exact honward.1
  · rw [hread] at hvalue
    obtain ⟨rfl, rfl⟩ := Prod.mk.inj (Option.some.inj hvalue)
    rcases hstuck with rfl | rfl <;> exact List.forall_mem_singleton.mpr rfl

/-- A text without spaces leaves none behind its items. -/
theorem moreItems_no_spaces (day : Bool) : ∀ {fuel : Nat} {cs : List Char},
    (∀ c ∈ cs, isSpace c = false) → ∀ c ∈ (moreItems day fuel cs).2, isSpace c = false
  | 0, _, h => h
  | fuel + 1, cs, h => by
    unfold moreItems
    cases hfirst : (mark ',' cs).bind (item day) with
    | none => exact h
    | some read =>
      obtain ⟨behind, hbehind, hitem⟩ := Option.bind_eq_some_iff.mp hfirst
      exact moreItems_no_spaces day (item_no_spaces (mark_no_spaces h hbehind) hitem)

/-- **A whole field is read the same in front of another one.** -/
theorem field_append {day : Bool} {items : List Item} (hnext : Opens next)
    (h : ∀ c ∈ cs, isSpace c = false) (hread : field day cs = some (items, [])) :
    field day (cs ++ ' ' :: next) = some (items, next) := by
  have hskip (tail : List Char) (hne : cs ≠ []) : skipSpaces (cs ++ tail) = cs ++ tail := by
    obtain ⟨c, cs, rfl⟩ := List.exists_cons_of_ne_nil hne
    exact List.dropWhile_cons_of_neg (by simp [h c List.mem_cons_self])
  have hne : cs ≠ [] := by
    rintro rfl
    cases day <;> cases hread
  unfold field at hread ⊢
  have hown := hskip [] hne
  rw [List.append_nil] at hown
  rw [hown] at hread
  rw [hskip _ hne]
  cases hitem : item day cs with
  | none =>
    rw [hitem] at hread
    cases hread
  | some read =>
    obtain ⟨first, left⟩ := read
    rw [hitem] at hread
    obtain ⟨hitems, hend⟩ := Prod.mk.inj (Option.some.inj hread)
    -- Nothing is left of the text, since it has no spaces to skip.
    have hleft : ∀ c ∈ left, isSpace c = false := item_no_spaces h hitem
    have hall : (moreItems day left.length left).2 = [] := by
      cases hlast : (moreItems day left.length left).2 with
      | nil => rfl
      | cons c last =>
        have hspaces : ∀ c ∈ (moreItems day left.length left).2, isSpace c = false :=
          moreItems_no_spaces day hleft
        have hc := hspaces c (hlast ▸ List.mem_cons_self)
        rw [hlast] at hend
        unfold skipSpaces at hend
        rw [List.dropWhile_cons_of_neg (by simp [hc])] at hend
        cases hend
    rcases item_readsOn day hnext h hne with hreads | ⟨value, rest, hvalue, hstuck⟩
    · rw [hitem] at hreads
      generalize item day (cs ++ ' ' :: next) = followed at hreads ⊢
      cases hreads with
      | some _ honward =>
        obtain ⟨last, hmore, hlast⟩ := moreItems_onward day hnext honward.length_le honward
          (Prod.ext rfl hall : moreItems day left.length left = (_, []))
        simp only
        rw [hmore, ← hitems]
        simp only
        rw [hlast.skipSpaces_eq hnext]
    · rw [hitem] at hvalue
      obtain ⟨rfl, rfl⟩ := Prod.mk.inj (Option.some.inj hvalue)
      rcases hstuck with rfl | rfl <;> cases hall

/-- **What a field begins with**, if no space stands before it. -/
theorem opens_of_field {day : Bool} {items : List Item} (h : ∀ c ∈ cs, isSpace c = false)
    (hread : field day cs = some (items, rest)) : Opens cs := by
  cases cs with
  | nil => cases day <;> cases hread
  | cons c cs =>
    refine ⟨c, cs, rfl, ?_⟩
    have hc := h c List.mem_cons_self
    have hskip : skipSpaces (c :: cs) = c :: cs := List.dropWhile_cons_of_neg (by simp [hc])
    refine Bool.of_not_eq_false fun hbegins => ?_
    simp only [beginsField, Bool.or_eq_false_iff, beq_eq_false_iff_ne] at hbegins
    obtain ⟨⟨⟨hall, hany⟩, hdigit⟩, halpha⟩ := hbegins
    have hrun (p : Char → Bool) (hp : p c = false) : run p (c :: cs) = none := by
      unfold run
      simp [hskip, hp]
    have hnumber : number (c :: cs) = none := by rw [number, hrun _ hdigit]
    have hword : word (c :: cs) = none := by rw [word, hrun _ halpha, Option.map_none]
    have hitem : item day (c :: cs) = none := by
      rw [item_eq, extent_of_ne hall hany, pair_eq, pair_eq, hnumber, hword]
      rfl
    rw [field, hskip, hitem] at hread
    cases hread

end CredentialRelay.Cron
