import CredentialRelay.Proofs.Text.Split
import CredentialRelay.Proofs.Url.Address
import CredentialRelay.Proofs.Url.Walk

/-!
# Segments behind a directory

A directory of plain segments is written behind an address, and a path behind that. The directory is
read as it is written; the path is a walk from there, which may lead anywhere below the address.

* `IsPlainPath text`: segments of unreserved characters, none of them empty or a dot segment.
* `segmentsOf path`: the segments that a path at the end of a URL is read as.

Results:
* `path_eq_target`: the URL has the path that the walk along the segments ends in.
* `below_iff_returns`: it stays below the directory exactly if that walk returns.
-/

namespace CredentialRelay

namespace Url

/-! ## Directories of plain segments -/

/-- Whether a character may stand anywhere in a URL and means nothing there but itself. -/
def isUnreserved (c : Char) : Bool :=
  c.isAlphanum || ['-', '.', '_', '~'].contains c

/-- A segment that is no dot segment and needs no encoding. -/
def IsPlainSegment (segment : List Char) : Prop :=
  segment ≠ [] ∧ segment ≠ ['.'] ∧ segment ≠ ['.', '.'] ∧ segment.all isUnreserved = true

instance (segment : List Char) : Decidable (IsPlainSegment segment) :=
  inferInstanceAs (Decidable (_ ∧ _ ∧ _ ∧ _))

/-- A text of plain segments between slashes. -/
def IsPlainPath (text : String) : Prop :=
  ∀ segment ∈ Text.splitAll '/' text.toList, IsPlainSegment segment

instance (text : String) : Decidable (IsPlainPath text) :=
  inferInstanceAs (Decidable (∀ segment ∈ _, _))

/-- The segments that a text is read as. -/
def readSegments (cs : List Char) : List (List Char) :=
  (Text.splitAll '/' (cs.map fun c => if isSlash true c then '/' else c)).map
    (percentEncode inPathSet)

/-- The segments that a path at the end of a URL is read as. -/
def segmentsOf (path : String) : List (List Char) :=
  readSegments ((tidied path.toList).takeWhile fun c => !endsPath c)

theorem toNat_lt_of_isUnreserved {c : Char} (h : isUnreserved c = true) : c.toNat < 0x80 := by
  rcases Bool.or_eq_true_iff.mp h with h | h
  · rcases Bool.or_eq_true_iff.mp h with h | h
    · exact Text.toNat_lt_of_isAlpha h
    · unfold Char.isDigit at h
      simp only [Bool.and_eq_true, decide_eq_true_eq, UInt32.le_iff_toNat_le] at h
      exact Nat.lt_of_le_of_lt h.2 (by decide)
  · have hall : (['-', '.', '_', '~'].all fun d => decide (d.toNat < 0x80)) = true := by decide
    exact of_decide_eq_true (List.all_eq_true.mp hall c (List.contains_iff_mem.mp h))

/-- What holds of every unreserved character of ASCII holds of every unreserved character. -/
theorem of_isUnreserved {P : Char → Prop}
    (hP : ∀ n ∈ List.range 0x80, isUnreserved (Char.ofNat n) = true → P (Char.ofNat n)) {c : Char}
    (h : isUnreserved c = true) : P c := by
  have hc := hP c.toNat (List.mem_range.mpr (toNat_lt_of_isUnreserved h))
  rw [Char.ofNat_toNat] at hc
  exact hc h

theorem isSlash_of_isUnreserved {c : Char} (h : isUnreserved c = true) : isSlash true c = false :=
  of_isUnreserved (P := fun c => isSlash true c = false) (by decide +kernel) h

theorem endsPath_of_isUnreserved {c : Char} (h : isUnreserved c = true) : endsPath c = false :=
  of_isUnreserved (P := fun c => endsPath c = false) (by decide +kernel) h

theorem isDropped_of_isUnreserved {c : Char} (h : isUnreserved c = true) : isDropped c = false :=
  of_isUnreserved (P := fun c => isDropped c = false) (by decide +kernel) h

theorem inPathSet_of_isUnreserved {c : Char} (h : isUnreserved c = true) : inPathSet c = false :=
  of_isUnreserved (P := fun c => inPathSet c = false) (by decide +kernel) h

/-- No unreserved character is a percent sign or a mark of a drive, in any case. -/
theorem ne_of_isUnreserved {c : Char} (h : isUnreserved c = true) :
    c.toLower ≠ '%' ∧ c ≠ ':' ∧ c ≠ '|' ∧ (c.toLower = '.' → c = '.') :=
  of_isUnreserved (P := fun c => c.toLower ≠ '%' ∧ c ≠ ':' ∧ c ≠ '|' ∧ (c.toLower = '.' → c = '.'))
    (by decide +kernel) h

namespace IsPlainSegment

variable {segment : List Char}

theorem isUnreserved (h : IsPlainSegment segment) {c : Char} (hc : c ∈ segment) :
    isUnreserved c = true :=
  List.all_eq_true.mp h.2.2.2 c hc

theorem percentEncode (h : IsPlainSegment segment) :
    Url.percentEncode inPathSet segment = segment :=
  percentEncode_eq_self fun _ hc =>
    ⟨toNat_lt_of_isUnreserved (h.isUnreserved hc), inPathSet_of_isUnreserved (h.isUnreserved hc)⟩

/-- Dots are not written with percent signs. -/
theorem percent_not_mem (h : IsPlainSegment segment) : '%' ∉ segment.map Char.toLower := by
  intro hmem
  obtain ⟨c, hc, hpercent⟩ := List.mem_map.mp hmem
  exact (ne_of_isUnreserved (h.isUnreserved hc)).1 hpercent

/-- In lower case the segment is only dots where it is as it stands. -/
theorem eq_replicate (h : IsPlainSegment segment) {n : Nat}
    (hn : segment.map Char.toLower = List.replicate n '.') : segment = List.replicate n '.' := by
  refine List.eq_replicate_iff.mpr ⟨?_, fun c hc => ?_⟩
  · rw [← List.length_map Char.toLower, hn, List.length_replicate]
  · have hdot : c.toLower = '.' := List.eq_of_mem_replicate (hn ▸ List.mem_map_of_mem hc)
    exact (ne_of_isUnreserved (h.isUnreserved hc)).2.2.2 hdot

theorem isSingleDot (h : IsPlainSegment segment) : isSingleDot segment = false := by
  have hpercent := h.percent_not_mem
  unfold Url.isSingleDot
  simp only [List.contains_cons, List.contains_nil, Bool.or_false, Bool.or_eq_false_iff,
    beq_eq_false_iff_ne, ne_eq]
  exact ⟨fun heq => h.2.1 (h.eq_replicate (n := 1) heq), fun heq => hpercent (by simp [heq])⟩

theorem isDoubleDot (h : IsPlainSegment segment) : isDoubleDot segment = false := by
  have hpercent := h.percent_not_mem
  unfold Url.isDoubleDot
  simp only [List.contains_cons, List.contains_nil, Bool.or_false, Bool.or_eq_false_iff,
    beq_eq_false_iff_ne, ne_eq]
  exact ⟨fun heq => h.2.2.1 (h.eq_replicate (n := 2) heq), fun heq => hpercent (by simp [heq]),
    fun heq => hpercent (by simp [heq]), fun heq => hpercent (by simp [heq])⟩

theorem isDrive (h : IsPlainSegment segment) : isDrive segment = false := by
  unfold Url.isDrive
  split
  · next c d =>
    obtain ⟨-, hcolon, hbar, -⟩ := ne_of_isUnreserved (h.isUnreserved (c := d) (by simp))
    simp [hcolon, hbar]
  · rfl

end IsPlainSegment

/-- The characters of a plain path are slashes and unreserved ones. -/
theorem IsPlainPath.mem {text : String} (h : IsPlainPath text) {c : Char} (hc : c ∈ text.toList) :
    c = '/' ∨ isUnreserved c = true := by
  rcases Text.exists_mem_splitAll (c := '/') hc with hslash | ⟨segment, hsegment, hc⟩
  · exact .inl hslash
  · exact .inr ((h segment hsegment).isUnreserved hc)

/-- **A plain path is read as it is written**, whatever stands behind it. -/
theorem segmentsOf_append {directory : String} (h : IsPlainPath directory) (path : String) :
    segmentsOf (directory ++ "/" ++ path) =
      Text.splitAll '/' directory.toList ++ segmentsOf path := by
  have hends : ∀ c ∈ directory.toList, (!endsPath c) = true := by
    intro c hc
    rcases h.mem hc with rfl | hc
    · rfl
    · rw [endsPath_of_isUnreserved hc]
      rfl
  have hkept : directory.toList.filter (fun c => !isDropped c) = directory.toList := by
    refine List.filter_eq_self.mpr fun c hc => ?_
    rcases h.mem hc with rfl | hc
    · rfl
    · rw [isDropped_of_isUnreserved hc]
      rfl
  have hmarked : directory.toList.map (fun c => if isSlash true c then '/' else c) =
      directory.toList := by
    refine (List.map_congr_left fun c hc => ?_).trans (List.map_id' _)
    rcases h.mem hc with rfl | hc
    · rfl
    · rw [isSlash_of_isUnreserved hc]
      rfl
  have hencoded : (Text.splitAll '/' directory.toList).map (percentEncode inPathSet) =
      Text.splitAll '/' directory.toList :=
    (List.map_congr_left fun segment hs => (h segment hs).percentEncode).trans (List.map_id' _)
  have htext : (directory ++ "/" ++ path).toList = directory.toList ++ '/' :: path.toList := by
    simp
  unfold segmentsOf readSegments
  rw [htext, tidied_append, hkept, List.takeWhile_append_of_pos hends,
    List.takeWhile_cons_of_pos rfl, List.map_append, hmarked, List.map_cons, ite_self,
    Text.splitAll_append, List.map_append, hencoded]

/-! ## Walks from a directory -/

theorem segmentsOf_ne_nil (path : String) : segmentsOf path ≠ [] := by
  unfold segmentsOf readSegments
  rw [ne_eq, List.map_eq_nil_iff]
  exact Text.splitAll_ne_nil _ _

/-- The directory that segments lead to if more of them follow. -/
def enter (start segments : List (List Char)) : List (List Char) :=
  segments.foldl (fun directory segment => addSegment directory segment false) start

/-- Segments lead to a directory, and those behind them go on from there. -/
theorem addSegments_append {rest : List (List Char)} (hrest : rest ≠ []) :
    ∀ start segments : List (List Char),
      addSegments start (segments ++ rest) = addSegments (enter start segments) rest
  | _, [] => rfl
  | start, segment :: segments => by
    have ih := addSegments_append hrest (addSegment start segment false) segments
    obtain ⟨next, others, hnext⟩ := List.exists_cons_of_ne_nil (l := segments ++ rest)
      (List.append_ne_nil_of_right_ne_nil _ hrest)
    rw [List.cons_append, hnext, addSegments_cons_cons, ← hnext, ih]
    rfl

/-- Segments that are no dot segments lead down. -/
theorem enter_of_no_dots : ∀ {segments : List (List Char)},
    (∀ segment ∈ segments, isDoubleDot segment = false ∧ isSingleDot segment = false) →
    ∀ start : List (List Char), enter start segments = start ++ segments
  | [], _, start => (List.append_nil start).symm
  | segment :: segments, h, start => by
    obtain ⟨hdouble, hsingle⟩ := h segment List.mem_cons_self
    have ih := enter_of_no_dots (fun s hs => h s (List.mem_cons_of_mem segment hs))
      (start ++ [segment])
    rw [List.append_assoc] at ih
    have hadded : addSegment start segment false = start ++ [segment] :=
      addSegment_plain hdouble hsingle
    rw [← hadded] at ih
    exact ih

theorem enter_of_plain {segments : List (List Char)}
    (h : ∀ segment ∈ segments, IsPlainSegment segment) (start : List (List Char)) :
    enter start segments = start ++ segments :=
  enter_of_no_dots (fun segment hs => ⟨(h segment hs).isDoubleDot, (h segment hs).isSingleDot⟩) start

/-- Segments that are no dot segments are added as they are. -/
theorem addSegments_of_no_dots {segments : List (List Char)}
    (h : ∀ segment ∈ segments, isDoubleDot segment = false ∧ isSingleDot segment = false)
    (start : List (List Char)) : addSegments start segments = start ++ segments := by
  rcases List.eq_nil_or_concat segments with rfl | ⟨before, last, rfl⟩
  · exact (List.append_nil start).symm
  · rw [List.concat_eq_append] at h ⊢
    obtain ⟨hdouble, hsingle⟩ := h last List.mem_concat_self
    rw [addSegments_append (List.cons_ne_nil last []),
      enter_of_no_dots fun s hs => h s (List.mem_append_left [last] hs)]
    exact (addSegment_plain hdouble hsingle).trans (List.append_assoc ..)

/-- Nothing is in a path but the segments that it was read from, and nameless ones. -/
theorem mem_addSegments {start segments : List (List Char)} {segment : List Char}
    (h : segment ∈ addSegments start segments) :
    segment = [] ∨ segment ∈ segments ∨ segment ∈ start := by
  have hroot : ∀ segment ∈ ([] : List (List Char)), isDrive segment = false := nofun
  have hwalk := Walk.addSegments_target hroot ⟨0, start⟩ segments
  unfold Walk.target at hwalk
  rw [List.take_nil, List.take_nil, List.nil_append, List.nil_append] at hwalk
  rw [hwalk] at h
  exact Walk.mem_down_along h

theorem mem_enter {start segments : List (List Char)} {segment : List Char}
    (h : segment ∈ enter start segments) :
    segment = [] ∨ segment ∈ segments ∨ segment ∈ start := by
  have hadded : segment ∈ addSegments start (segments ++ [[]]) := by
    rw [addSegments_append (List.cons_ne_nil [] [])]
    exact List.mem_append_left [[]] h
  rcases mem_addSegments hadded with h | h | h
  · exact .inl h
  · rcases List.mem_append.mp h with h | h
    · exact .inr (.inl h)
    · exact .inl (List.mem_singleton.mp h)
  · exact .inr (.inr h)

/-- **The URL has the path that the walk ends in.** -/
theorem path_eq_target {address directory path : String} {url : Url} (ha : IsHttpAddress address)
    (hd : IsPlainPath directory)
    (h : parse (address ++ "/" ++ (directory ++ "/" ++ path)) = .ok url) :
    url.path = .ofSegments ((Walk.start.along (segmentsOf path)).target
      (Text.splitAll '/' directory.toList)) := by
  have hread : url.path = .ofSegments
      (addSegments [] (segmentsOf (directory ++ "/" ++ path))) := path_of_parse ha h
  rw [hread, segmentsOf_append hd, addSegments_append (segmentsOf_ne_nil path), enter_of_plain hd,
    List.nil_append, ← Walk.addSegments_target fun segment hs => (hd segment hs).isDrive,
    Walk.target_start]

/-! ## Paths as they are written -/

/-- What is encoded holds characters that may stand there, percent signs and digits. -/
theorem mem_percentEncode {set : Char → Bool} {cs : List Char} {c : Char}
    (h : c ∈ percentEncode set cs) :
    c ∈ cs ∧ set c = false ∨ c = '%' ∨ ∃ n < 16, c = upperHexDigit n := by
  unfold percentEncode percentEncodeChar at h
  obtain ⟨d, hd, hmem⟩ := List.mem_flatMap.mp h
  split at hmem
  · next hkept =>
    obtain rfl := List.mem_singleton.mp hmem
    exact .inl ⟨hd, hkept.2⟩
  · obtain ⟨b, -, hb⟩ := List.mem_flatMap.mp hmem
    simp only [percentByte, List.mem_cons, List.not_mem_nil, or_false] at hb
    rcases hb with hb | hb | hb
    · exact .inr (.inl hb)
    · exact .inr (.inr ⟨_, by have := b.toNat_lt; omega, hb⟩)
    · exact .inr (.inr ⟨_, Nat.mod_lt _ (by decide), hb⟩)

/-- A character that is neither a percent sign nor a digit comes of no encoding. -/
theorem not_mem_percentEncode {set : Char → Bool} {cs : List Char} {c : Char}
    (hpercent : c ≠ '%') (hdigit : ∀ n ∈ List.range 16, upperHexDigit n ≠ c)
    (h : c ∈ cs → set c = true) : c ∉ percentEncode set cs := by
  intro hmem
  rcases mem_percentEncode hmem with ⟨hc, hset⟩ | hc | ⟨n, hn, hc⟩
  · rw [h hc] at hset
    cases hset
  · exact hpercent hc
  · exact hdigit n (List.mem_range.mpr hn) hc.symm

/-- No encoded segment holds a slash that was not there before. -/
theorem slash_not_mem_percentEncode {cs : List Char} (h : '/' ∉ cs) :
    '/' ∉ percentEncode inPathSet cs :=
  not_mem_percentEncode (by decide) (by decide) fun hmem => absurd hmem h

theorem slash_not_mem_of_mem_segmentsOf {path : String} {segment : List Char}
    (h : segment ∈ segmentsOf path) : '/' ∉ segment := by
  obtain ⟨piece, hpiece, rfl⟩ := List.mem_map.mp h
  exact slash_not_mem_percentEncode (Text.not_mem_of_mem_splitAll hpiece)

theorem toList_render_ofSegments (segments : List (List Char)) :
    (Path.ofSegments segments).render.toList = segments.flatMap ('/' :: ·) := by
  unfold Path.ofSegments Path.render
  rw [String.toList_join, List.map_map, List.flatMap_map]
  simp

/-- A path begins with a directory as it is written exactly if its segments begin with those of the
directory, and go on. -/
theorem render_below_iff {directory segments : List (List Char)}
    (h : ∀ segment ∈ segments, '/' ∉ segment) (hd : ∀ segment ∈ directory, '/' ∉ segment) :
    (∃ rest, segments.flatMap ('/' :: ·) = directory.flatMap ('/' :: ·) ++ '/' :: rest) ↔
      ∃ segment more, segments = directory ++ segment :: more := by
  constructor
  · rintro ⟨rest, hrest⟩
    have hsplit := congrArg (Text.splitAll '/') hrest
    rw [Text.splitAll_flatMap h, Text.splitAll_append, Text.splitAll_flatMap hd,
      List.cons_append] at hsplit
    obtain ⟨segment, more, hmore⟩ := List.exists_cons_of_ne_nil (Text.splitAll_ne_nil '/' rest)
    rw [hmore] at hsplit
    exact ⟨segment, more, (List.cons.inj hsplit).2⟩
  · rintro ⟨segment, more, rfl⟩
    exact ⟨segment ++ more.flatMap ('/' :: ·), by simp⟩

/-- **The path stays below the directory exactly if the walk returns.** -/
theorem below_iff_returns {address directory path : String} {url : Url} (ha : IsHttpAddress address)
    (hd : IsPlainPath directory)
    (h : parse (address ++ "/" ++ (directory ++ "/" ++ path)) = .ok url) :
    (∃ rest, url.path.render = "/" ++ directory ++ "/" ++ rest) ↔
      (Walk.start.along (segmentsOf path)).Returns (Text.splitAll '/' directory.toList) := by
  have hslash : ∀ segment ∈ Text.splitAll '/' directory.toList, '/' ∉ segment :=
    fun _ => Text.not_mem_of_mem_splitAll
  have htarget : ∀ segment ∈ (Walk.start.along (segmentsOf path)).target
      (Text.splitAll '/' directory.toList), '/' ∉ segment := by
    intro segment hs
    rcases List.mem_append.mp hs with hs | hs
    · exact hslash segment (List.mem_of_mem_take hs)
    · rcases Walk.mem_down_along hs with rfl | hs | hs
      · exact List.not_mem_nil
      · exact slash_not_mem_of_mem_segmentsOf hs
      · cases hs
  have hwritten : '/' :: directory.toList =
      (Text.splitAll '/' directory.toList).flatMap ('/' :: ·) := by
    rw [Text.flatMap_eq_cons_intercalate _ (Text.splitAll_ne_nil _ _), Text.intercalate_splitAll]
  have hrender (rest : String) : url.path.render = "/" ++ directory ++ "/" ++ rest ↔
      ((Walk.start.along (segmentsOf path)).target
        (Text.splitAll '/' directory.toList)).flatMap ('/' :: ·) =
        (Text.splitAll '/' directory.toList).flatMap ('/' :: ·) ++ '/' :: rest.toList := by
    rw [path_eq_target ha hd h, ← String.toList_inj, toList_render_ofSegments, ← hwritten]
    simp
  rw [← Walk.target_below_iff, ← render_below_iff htarget hslash]
  constructor
  · rintro ⟨rest, hrest⟩
    exact ⟨rest.toList, (hrender rest).mp hrest⟩
  · rintro ⟨rest, hrest⟩
    refine ⟨String.ofList rest, (hrender _).mpr ?_⟩
    rw [String.toList_ofList]
    exact hrest

end Url

end CredentialRelay
