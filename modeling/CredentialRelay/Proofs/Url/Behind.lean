import CredentialRelay.Proofs.Url.Origin
import CredentialRelay.Proofs.Url.Segments

/-!
# URLs behind one address

An address leads to a place and into a directory there. Whatever is written behind it is read by
itself: its path goes on from that directory, and what ends the path is its query. So of two texts
behind one address, the URLs are the same if and only if the two lead to the same place.

* `IsBase address`: an address of HTTP that may go on to a directory, but has no query and no
  fragment, which would swallow what is written behind.
* `locate directory path`: where a path leads to from a directory, with its query.

Results:
* `parse_below`: what is read of an address with a path behind it.
* `renderTarget_below_iff`: requests for two paths name the same URL exactly if both are located at
  the same place.
-/

namespace CredentialRelay.Url

/-- An address of HTTP without a query and a fragment. -/
def IsBase (address : String) : Prop :=
  ∃ url, parse address = .ok url ∧ (url.scheme = "http" ∨ url.scheme = "https") ∧
    url.query = none ∧ url.fragment = none

/-- The query of a path at the end of a URL. -/
def queryOf (path : String) : Option String :=
  match (tidied path.toList).dropWhile fun c => !endsPath c with
  | '?' :: rest => some (String.ofList (percentEncode inSpecialQuerySet (rest.takeWhile (· != '#'))))
  | _ => none

/-- The fragment of a path at the end of a URL. -/
def fragmentOf (path : String) : Option String :=
  match (tidied path.toList).dropWhile fun c => !endsPath c with
  | '?' :: rest => readFragment (rest.dropWhile (· != '#'))
  | cs => readFragment cs

/-- Where a path leads to from a directory, and with which query. -/
def locate (directory : List (List Char)) (path : String) : List (List Char) × Option String :=
  (addSegments directory (segmentsOf path), queryOf path)

/-- The URL of a path that goes on from a directory at some place. -/
def below (place : Url) (directory : List (List Char)) (path : String) : Url :=
  { place with
    path := .ofSegments (addSegments directory (segmentsOf path))
    query := queryOf path
    fragment := fragmentOf path }

/-! ## Reading behind an address -/

theorem readSegments_append (cs ds : List Char) :
    readSegments (cs ++ '/' :: ds) = readSegments cs ++ readSegments ds := by
  unfold readSegments
  rw [List.map_append, List.map_cons, ite_self, Text.splitAll_append, List.map_append]

/-- What ends a path is a query or a fragment. -/
theorem withTail_eq (url : Url) (hs : isSpecial url.scheme = true) (path : String) :
    withTail url ((tidied path.toList).dropWhile fun c => !endsPath c) =
      { url with query := queryOf path, fragment := fragmentOf path } := by
  unfold withTail queryOf fragmentOf
  generalize (tidied path.toList).dropWhile (fun c => !endsPath c) = cs
  cases cs with
  | nil => rfl
  | cons c rest =>
    by_cases hc : c = '?'
    · subst hc
      simp only [hs, if_true]
    · simp [hc]

/-- **A path behind a place is read by itself**, and so is what ends it. -/
theorem withPath_below {place : Url} (hs : isSpecial place.scheme = true) {slash : Char}
    (hslash : isSlash true slash = true) {lead : List Char} (hlead : ∀ c ∈ lead, endsPath c = false)
    (path : String) :
    withPath place (slash :: (lead ++ '/' :: tidied path.toList)) =
      place.below (enter [] (readSegments lead)) path := by
  have hgoes : ∀ c ∈ lead, (!endsPath c) = true := fun c hc => by rw [hlead c hc]; rfl
  have hpath : readPath true [] (lead ++ '/' :: (tidied path.toList).takeWhile fun c => !endsPath c) =
      addSegments (enter [] (readSegments lead)) (segmentsOf path) := by
    rw [← addSegments_append (segmentsOf_ne_nil path), segmentsOf, ← readSegments_append]
    rfl
  rw [withPath_slash hs hslash, List.takeWhile_append_of_pos hgoes,
    List.dropWhile_append_of_pos hgoes, List.takeWhile_cons_of_pos rfl,
    List.dropWhile_cons_of_pos rfl, hpath, withTail_eq _ (by exact hs)]
  rfl

/-- A URL whose path is ended by nothing has neither a query nor a fragment. -/
theorem endsPath_of_withPath {url : Url} {cs : List Char} (hquery : (withPath url cs).query = none)
    (hfragment : (withPath url cs).fragment = none) : ∀ c ∈ cs, endsPath c = false := by
  unfold withPath at hquery hfragment
  simp only at hquery hfragment
  have hnil : cs.dropWhile (fun c => !endsPath c) = [] := by
    cases hdrop : cs.dropWhile fun c => !endsPath c with
    | nil => rfl
    | cons c rest =>
      have hends := List.head?_dropWhile_not (fun c => !endsPath c) cs
      rw [hdrop] at hends hquery hfragment
      have hends : endsPath c = true := by simpa using hends
      rcases Bool.or_eq_true_iff.mp hends with h | h
      · rw [eq_of_beq h] at hquery
        cases hquery
      · rw [eq_of_beq h] at hfragment
        cases hfragment
  intro c hc
  have hgoes := List.dropWhile_eq_nil_iff.mp hnil c hc
  simpa using hgoes

/-- A URL with neither a query nor a fragment was read from a text that nothing ends. -/
theorem endsPath_of_readAuthority {scheme : String} {cs : List Char} {url : Url}
    (hs : isSpecial scheme = true) (h : readAuthority scheme cs = .ok url)
    (hquery : url.query = none) (hfragment : url.fragment = none) :
    ∀ c ∈ cs, endsPath c = false := by
  have hpath : ∃ place behind, url = withPath place (behind ++ cs.dropWhile isBeforePath) := by
    unfold readAuthority at h
    simp only [hs, if_true] at h
    split at h
    · cases h
    · obtain ⟨host, -, h⟩ := bind_ok h
      rcases drop_hostPart false (readUser (cs.takeWhile isBeforePath)).2.2 with
        hnil | ⟨digits, hcolon⟩
      · unfold isBeforePath at hnil
        rw [hnil] at h
        cases h
        exact ⟨_, [], rfl⟩
      · unfold isBeforePath at hcolon
        rw [hcolon] at h
        obtain ⟨⟨port, behind⟩, -, h⟩ := bind_ok h
        cases h
        exact ⟨_, behind, rfl⟩
  obtain ⟨place, behind, rfl⟩ := hpath
  have hrest := endsPath_of_withPath hquery hfragment
  intro c hc
  rw [← List.takeWhile_append_dropWhile (p := isBeforePath) (l := cs)] at hc
  rcases List.mem_append.mp hc with hc | hc
  · have hbefore := List.mem_takeWhile_imp hc
    unfold isBeforePath at hbefore
    rw [Bool.not_eq_true', Bool.or_eq_false_iff] at hbefore
    exact hbefore.2
  · exact hrest c (List.mem_append_right behind hc)

/-- A space or a control character ends no path. -/
theorem endsPath_of_blank {c : Char} (hc : c.toNat ≤ 0x20) : endsPath c = false := by
  unfold endsPath
  rw [beq_false_of_ne (ne_of_blank hc (by decide)), beq_false_of_ne (ne_of_blank hc (by decide))]
  rfl

/-- **What is read behind an address.** A place is found at once, or nothing is read whatever stands
behind; the place is followed by the directory of the address, and the text that was written. -/
theorem parse_behind {address : String} (ha : IsBase address) :
    ∃ (place : Except Fault Url) (folder : List Char),
      (∀ url, place = .ok url → isSpecial url.scheme = true) ∧
      (∀ c ∈ folder, endsPath c = false) ∧ (∀ c ∈ folder.head?, isSlash true c = true) ∧
      ∀ rest : String, parse (Text.trimEndSlashes address ++ "/" ++ rest) =
        place.map fun url => withPath url (folder ++ '/' :: tidied rest.toList) := by
  obtain ⟨base, hbase, hscheme, hquery, hfragment⟩ := ha
  have hs : isSpecial base.scheme = true := by
    rcases hscheme with h | h <;> rw [h] <;> rfl
  obtain ⟨lead, slashes, blanks, haddress, hwhole, hslashes, hblanks⟩ :=
    cleaned_behind address.toList
  have htext (rest : String) : cleaned (Text.trimEndSlashes address ++ "/" ++ rest).toList =
      lead ++ (blanks ++ '/' :: tidied rest.toList) := by
    rw [← hwhole]
    simp [Text.trimEndSlashes]
  unfold parse at hbase ⊢
  rw [haddress] at hbase
  cases hread : readScheme? (lead ++ slashes) with
  | none =>
    unfold parseChars at hbase
    rw [hread] at hbase
    cases hbase
  | some read =>
    obtain ⟨scheme, behind⟩ := read
    obtain ⟨named, rfl, hother⟩ := readScheme?_append_slashes hread hslashes
    have hspecial := isSpecial_of_parseChars hread hs hbase
    rw [parseChars_special hread hspecial, List.dropWhile_append] at hbase
    -- The slashes before a host are skipped, so it has to begin in the address.
    have hnamed : ¬ (named.dropWhile (isSlash true)).isEmpty = true := by
      intro hempty
      have hnil : slashes.dropWhile (isSlash true) = [] :=
        List.dropWhile_eq_nil_iff.mpr fun c hc => hslashes c hc ▸ rfl
      rw [if_pos hempty, hnil, readAuthority_nil hspecial] at hbase
      cases hbase
    rw [if_neg hnamed] at hbase
    generalize hhost : named.dropWhile (isSlash true) = host at hbase
    obtain ⟨place, hplace, hpath⟩ := readAuthority_append hspecial (host ++ blanks)
    have hfolder : ∀ c ∈ host ++ blanks, endsPath c = false := by
      have hends := endsPath_of_readAuthority hspecial hbase hquery hfragment
      intro c hc
      rcases List.mem_append.mp hc with hc | hc
      · exact hends c (List.mem_append_left slashes hc)
      · exact endsPath_of_blank (hblanks c hc)
    refine ⟨place, (host ++ blanks).dropWhile isBeforePath,
      fun url hurl => hplace url hurl ▸ hspecial,
      fun c hc => hfolder c ((List.dropWhile_suffix _).subset hc), fun c hc => ?_, fun rest => ?_⟩
    · have hmem := (List.dropWhile_suffix (l := host ++ blanks) isBeforePath).subset
        (List.mem_of_mem_head? hc)
      have hstop := List.head?_dropWhile_not isBeforePath (host ++ blanks)
      rw [hc] at hstop
      have hstop : isBeforePath c = false := by simpa using hstop
      unfold isBeforePath at hstop
      rw [hfolder c hmem] at hstop
      simpa using hstop
    · rw [htext, parseChars_special (hother _) hspecial, List.dropWhile_append, if_neg hnamed, hhost,
        ← hpath, List.append_assoc]

/-! ## Segments as they are written -/

/-- A segment that holds nothing that ends one. -/
def IsWhole (segment : List Char) : Prop :=
  '/' ∉ segment ∧ '?' ∉ segment

theorem isWhole_of_mem_readSegments {cs segment : List Char} (h : segment ∈ readSegments cs) :
    IsWhole segment := by
  obtain ⟨piece, hpiece, rfl⟩ := List.mem_map.mp h
  exact ⟨slash_not_mem_percentEncode (Text.not_mem_of_mem_splitAll hpiece),
    not_mem_percentEncode (by decide) (by decide) fun _ => rfl⟩

theorem isWhole_of_mem_enter {cs segment : List Char} (h : segment ∈ enter [] (readSegments cs)) :
    IsWhole segment := by
  rcases mem_enter h with rfl | h | h
  · exact ⟨List.not_mem_nil, List.not_mem_nil⟩
  · exact isWhole_of_mem_readSegments h
  · cases h

theorem isWhole_of_mem_addSegments {directory : List (List Char)}
    (hd : ∀ segment ∈ directory, IsWhole segment) {path : String} {segment : List Char}
    (h : segment ∈ addSegments directory (segmentsOf path)) : IsWhole segment := by
  rcases mem_addSegments h with rfl | h | h
  · exact ⟨List.not_mem_nil, List.not_mem_nil⟩
  · exact isWhole_of_mem_readSegments h
  · exact hd segment h

/-- **What is read of an address with a path behind it.** A place and a directory are found at once,
and the path goes on from there. -/
theorem parse_below {address lead : String} (ha : IsBase address)
    (hlead : ∀ c ∈ lead.toList, endsPath c = false) :
    ∃ (place : Except Fault Url) (directory : List (List Char)),
      (∀ segment ∈ directory, IsWhole segment) ∧
      ∀ path : String, parse (Text.trimEndSlashes address ++ "/" ++ (lead ++ "/" ++ path)) =
        place.map fun url => url.below directory path := by
  obtain ⟨place, folder, hspecial, hfolder, hslash, hparse⟩ := parse_behind ha
  have hkept : ∀ c ∈ lead.toList.filter fun c => !isDropped c, endsPath c = false :=
    fun c hc => hlead c (List.mem_filter.mp hc).1
  have htext (path : String) : tidied (lead ++ "/" ++ path).toList =
      lead.toList.filter (fun c => !isDropped c) ++ '/' :: tidied path.toList := by
    rw [← tidied_append]
    simp
  generalize lead.toList.filter (fun c => !isDropped c) = kept at hkept htext
  -- The path begins with the directory of the address, if there is one, or else with what follows.
  obtain ⟨slash, more, hmore, hsplit, hends⟩ : ∃ slash more, isSlash true slash = true ∧
      (∀ rest, folder ++ '/' :: (kept ++ '/' :: rest) = slash :: (more ++ '/' :: rest)) ∧
      ∀ c ∈ more, endsPath c = false := by
    cases folder with
    | nil => exact ⟨'/', kept, rfl, fun rest => rfl, hkept⟩
    | cons slash folder =>
      refine ⟨slash, folder ++ '/' :: kept, hslash slash rfl, fun rest => by simp, fun c hc => ?_⟩
      rcases List.mem_append.mp hc with hc | hc
      · exact hfolder c (List.mem_cons_of_mem slash hc)
      · rcases List.mem_cons.mp hc with rfl | hc
        · rfl
        · exact hkept c hc
  refine ⟨place, enter [] (readSegments more), fun segment => isWhole_of_mem_enter, fun path => ?_⟩
  rw [hparse, htext, hsplit]
  cases place with
  | error fault => rfl
  | ok url => exact congrArg Except.ok (withPath_below (hspecial url rfl) hmore hends path)

/-- The user that is left out does not depend on the path. -/
theorem withoutUser_below (place : Url) (directory : List (List Char)) (path : String) :
    (place.below directory path).withoutUser = place.withoutUser.below directory path := by
  unfold withoutUser below
  simp only
  split <;> rfl

/-- What stands before a question mark and what stands behind it can be told apart. -/
theorem append_query_inj {cs ds : List Char} (hcs : '?' ∉ cs) (hds : '?' ∉ ds)
    {query other : Option String}
    (h : cs ++ (query.elim [] fun q => '?' :: q.toList) =
      ds ++ (other.elim [] fun q => '?' :: q.toList)) : cs = ds ∧ query = other := by
  have hsplit {cs : List Char} (hcs : '?' ∉ cs) (query : Option String) :
      Text.splitFirst '?' (cs ++ (query.elim [] fun q => '?' :: q.toList)) =
        (cs, query.map String.toList) := by
    cases query with
    | none => rw [Option.elim_none, List.append_nil, Text.splitFirst_of_not_mem hcs]; rfl
    | some q => exact Text.splitFirst_append hcs q.toList
  have hparts := congrArg (Text.splitFirst '?') h
  rw [hsplit hcs, hsplit hds, Prod.mk.injEq] at hparts
  exact ⟨hparts.1, Option.map_injective (fun _ _ => String.toList_inj.mp) hparts.2⟩

/-- **Requests for two paths name the same URL exactly if both are located at the same place.** -/
theorem renderTarget_below_iff (place : Url) {directory : List (List Char)}
    (hd : ∀ segment ∈ directory, IsWhole segment) (path other : String) :
    (place.below directory path).withoutUser.renderTarget =
        (place.below directory other).withoutUser.renderTarget ↔
      locate directory path = locate directory other := by
  rw [withoutUser_below, withoutUser_below]
  generalize place.withoutUser = place
  have hrender (path : String) : (place.below directory path).renderTarget.toList =
      (place.scheme ++ ":" ++ place.renderAuthority).toList ++
        ((addSegments directory (segmentsOf path)).flatMap ('/' :: ·) ++
          ((queryOf path).elim [] fun q => '?' :: q.toList)) := by
    have hauthority : (place.below directory path).renderAuthority = place.renderAuthority := rfl
    have hquery : (place.below directory path).query = queryOf path := rfl
    unfold renderTarget renderBase
    rw [hauthority, hquery, ← toList_render_ofSegments]
    cases queryOf path <;> simp [below]
  have hwhole (path : String) : '?' ∉
      (addSegments directory (segmentsOf path)).flatMap ('/' :: ·) := by
    intro hmem
    obtain ⟨segment, hsegment, hmem⟩ := List.mem_flatMap.mp hmem
    exact (isWhole_of_mem_addSegments hd hsegment).2
      ((List.mem_cons.mp hmem).resolve_left (by decide))
  unfold locate
  rw [← String.toList_inj, hrender, hrender, Prod.mk.injEq]
  constructor
  · intro h
    obtain ⟨hpath, hquery⟩ :=
      append_query_inj (hwhole path) (hwhole other) (List.append_cancel_left h)
    have hsplit := congrArg (Text.splitAll '/') hpath
    rw [Text.splitAll_flatMap fun _ hs => (isWhole_of_mem_addSegments hd hs).1,
      Text.splitAll_flatMap fun _ hs => (isWhole_of_mem_addSegments hd hs).1] at hsplit
    exact ⟨(List.cons.inj hsplit).2, hquery⟩
  · rintro ⟨hpath, hquery⟩
    rw [hpath, hquery]

end CredentialRelay.Url
