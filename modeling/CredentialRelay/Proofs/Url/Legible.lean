import CredentialRelay.Proofs.Url.Behind
import CredentialRelay.Proofs.Url.Percent

/-!
# Names that are read as they are written

A name is legible if nothing in it means anything in a URL: no slash, which a backslash is too, no
question mark and no number sign, no percent sign, no tab and no line end, no space or control
character at its end, and not just one dot or two. A path of legible names has a segment for each,
and can be told from every other such path. Any other character may stand in a name, and is encoded.

Results:
* `segmentsOf_legible`: the segments of a path of legible names.
* `locate_legible_inj`: paths of legible names that lead to one place have the same names.
-/

namespace CredentialRelay.Url

/-- Whether a character means nothing in a URL. -/
def isLegible (c : Char) : Bool :=
  !(isSlash true c || endsPath c || isDropped c || c == '%')

/-- A name that is read as it is written. -/
structure IsLegible (name : List Char) : Prop where
  all : name.all isLegible = true
  not_dot : name ≠ ['.']
  not_dots : name ≠ ['.', '.']
  ending : ∀ c ∈ name.getLast?, 0x20 < c.toNat

instance (name : List Char) : Decidable (IsLegible name) :=
  decidable_of_iff (name.all isLegible = true ∧ name ≠ ['.'] ∧ name ≠ ['.', '.'] ∧
    (name.getLast?.all fun c => decide (0x20 < c.toNat)) = true)
    ⟨fun ⟨h, h', h'', h'''⟩ => ⟨h, h', h'', by simpa [Option.all_eq_true] using h'''⟩,
      fun h => ⟨h.all, h.not_dot, h.not_dots, by simpa [Option.all_eq_true] using h.ending⟩⟩

namespace IsLegible

variable {name : List Char}

theorem of_mem (h : IsLegible name) {c : Char} (hc : c ∈ name) :
    isSlash true c = false ∧ endsPath c = false ∧ isDropped c = false ∧ c ≠ '%' := by
  have hlegible := List.all_eq_true.mp h.all c hc
  unfold isLegible at hlegible
  simpa [and_assoc] using hlegible

theorem slash_not_mem (h : IsLegible name) : '/' ∉ name := fun hmem => by
  have hslash := (h.of_mem hmem).1
  cases hslash

theorem percent_not_mem (h : IsLegible name) : '%' ∉ name := fun hmem =>
  (h.of_mem hmem).2.2.2 rfl

/-- Nothing of a legible name is tidied up. -/
theorem tidied (h : IsLegible name) : tidied name = name := by
  unfold Url.tidied
  have htrim : name.rdropWhile (fun c => decide (c.toNat ≤ 0x20)) = name := by
    refine List.rdropWhile_eq_self_iff.mpr fun hne => ?_
    have hlast := h.ending _ (List.getLast?_eq_some_getLast hne)
    simpa using hlast
  rw [htrim]
  refine List.filter_eq_self.mpr fun c hc => ?_
  rw [(h.of_mem hc).2.2.1]
  rfl

end IsLegible

/-! ## Paths of legible names -/

/-- A path of legible names is read as it is written. -/
theorem tidied_legible : ∀ {names : List (List Char)}, names ≠ [] →
    (∀ name ∈ names, IsLegible name) →
    tidied (['/'].intercalate names) = ['/'].intercalate names
  | [], hne, _ => absurd rfl hne
  | [name], _, h => by
    have hname := h name List.mem_cons_self
    simpa [List.intercalate] using hname.tidied
  | name :: next :: names, _, h => by
    have hname := h name List.mem_cons_self
    have ih := tidied_legible (List.cons_ne_nil next names)
      fun n hn => h n (List.mem_cons_of_mem name hn)
    have hjoin : ['/'].intercalate (name :: next :: names) =
        name ++ '/' :: ['/'].intercalate (next :: names) := by
      simp [List.intercalate]
    have hkept : name.filter (fun c => !isDropped c) = name := List.filter_eq_self.mpr fun c hc => by
      rw [(hname.of_mem hc).2.2.1]
      rfl
    rw [hjoin, tidied_append, hkept, ih]

theorem mem_intercalate {names : List (List Char)} {c : Char} (h : c ∈ ['/'].intercalate names) :
    c = '/' ∨ ∃ name ∈ names, c ∈ name := by
  cases names with
  | nil => cases h
  | cons name names =>
    have hmem : c ∈ (name :: names).flatMap ('/' :: ·) := by
      rw [Text.flatMap_eq_cons_intercalate '/' (List.cons_ne_nil name names)]
      exact List.mem_cons_of_mem '/' h
    obtain ⟨other, hother, hmem⟩ := List.mem_flatMap.mp hmem
    exact (List.mem_cons.mp hmem).imp_right fun hmem => ⟨other, hother, hmem⟩

/-- **A path of legible names has a segment for each.** -/
theorem segmentsOf_legible {names : List (List Char)} (hne : names ≠ [])
    (h : ∀ name ∈ names, IsLegible name) :
    segmentsOf (String.ofList (['/'].intercalate names)) = names.map (percentEncode inPathSet) := by
  have hgoes : ∀ c ∈ ['/'].intercalate names, (!endsPath c) = true := by
    intro c hc
    rcases mem_intercalate hc with rfl | ⟨name, hname, hc⟩
    · rfl
    · rw [((h name hname).of_mem hc).2.1]
      rfl
  have hmarked : (['/'].intercalate names).map (fun c => if isSlash true c then '/' else c) =
      ['/'].intercalate names := by
    refine (List.map_congr_left fun c hc => ?_).trans (List.map_id' _)
    rcases mem_intercalate hc with rfl | ⟨name, hname, hc⟩
    · rfl
    · rw [((h name hname).of_mem hc).1]
      rfl
  unfold segmentsOf readSegments
  rw [String.toList_ofList, tidied_legible hne h, List.takeWhile_eq_self_iff.mpr hgoes, hmarked,
    Text.splitAll_intercalate hne fun name hname => (h name hname).slash_not_mem]

/-- **Paths of legible names that lead to one place have the same names.** -/
theorem locate_legible_inj {directory names others : List (List Char)} (hne : names ≠ [])
    (hne' : others ≠ []) (h : ∀ name ∈ names, IsLegible name) (h' : ∀ name ∈ others, IsLegible name)
    (hsame : locate directory (String.ofList (['/'].intercalate names)) =
      locate directory (String.ofList (['/'].intercalate others))) : names = others := by
  have hdots {names : List (List Char)} (h : ∀ name ∈ names, IsLegible name) :
      ∀ segment ∈ names.map (percentEncode inPathSet),
        isDoubleDot segment = false ∧ isSingleDot segment = false := by
    intro segment hsegment
    obtain ⟨name, hname, rfl⟩ := List.mem_map.mp hsegment
    exact ⟨isDoubleDot_percentEncode (h name hname).percent_not_mem (h name hname).not_dots,
      isSingleDot_percentEncode (h name hname).percent_not_mem (h name hname).not_dot⟩
  have hpath := congrArg Prod.fst hsame
  simp only [locate, segmentsOf_legible hne h, segmentsOf_legible hne' h'] at hpath
  rw [addSegments_of_no_dots (hdots h), addSegments_of_no_dots (hdots h')] at hpath
  have hencoded := List.append_cancel_left hpath
  clear hne hne' hsame hpath hdots
  induction names generalizing others with
  | nil => exact (List.map_eq_nil_iff.mp hencoded.symm).symm
  | cons name names ih =>
    cases others with
    | nil => cases hencoded
    | cons other others =>
      obtain ⟨hname, hnames⟩ := List.forall_mem_cons.mp h
      obtain ⟨hother, hothers⟩ := List.forall_mem_cons.mp h'
      obtain ⟨hfirst, hrest⟩ := List.cons.inj hencoded
      rw [percentEncode_inj hname.percent_not_mem hother.percent_not_mem hfirst,
        ih hnames hothers hrest]

end CredentialRelay.Url
