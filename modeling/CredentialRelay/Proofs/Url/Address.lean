import CredentialRelay.Proofs.Attempt
import CredentialRelay.Proofs.Text.Letters
import CredentialRelay.Url.Parse
import Mathlib.Data.List.DropRight

/-!
# Paths behind addresses

A path is written behind an address of HTTP, and the whole is read as a URL. Whatever the place in
the address is, the path is read by itself: its end is tidied up, it ends before a query or a
fragment, and it is split into segments.

* `IsHttpAddress address`: a scheme of HTTP and a place without a path, a query or a fragment.
* `tidied`: a text at the end of a URL, as it is read.

Results:
* `path_of_parse`: the path of a URL that was read from an address with a path behind it.
-/

namespace CredentialRelay.Url

/-- An address that names a scheme of HTTP and a place, and nothing behind it. -/
def IsHttpAddress (address : String) : Prop :=
  ∃ scheme place : List Char,
    address.toList = scheme ++ ':' :: '/' :: '/' :: place ∧
    (scheme.map Char.toLower = ['h', 't', 't', 'p'] ∨
      scheme.map Char.toLower = ['h', 't', 't', 'p', 's']) ∧
    (∀ c ∈ place, isSlash true c = false ∧ endsPath c = false) ∧
    ∃ c ∈ place, isDropped c = false

/-- What is read of a text at the end of a URL. -/
def tidied (cs : List Char) : List Char :=
  (cs.rdropWhile fun c => decide (c.toNat ≤ 0x20)).filter fun c => !isDropped c

/-! ## Tidying -/

theorem rdropWhile_append_cons {α : Type} {p : α → Bool} (lead rest : List α) {c : α}
    (h : p c = false) : (lead ++ c :: rest).rdropWhile p = lead ++ c :: rest.rdropWhile p := by
  unfold List.rdropWhile
  rw [List.reverse_append, List.reverse_cons, List.append_assoc, List.dropWhile_append]
  split
  · next hnil =>
    rw [List.isEmpty_iff.mp hnil, List.singleton_append, List.dropWhile_cons_of_neg (by simp [h])]
    simp
  · simp

/-- A slash keeps what stands before it from being trimmed. -/
theorem tidied_append (lead rest : List Char) :
    tidied (lead ++ '/' :: rest) = lead.filter (fun c => !isDropped c) ++ '/' :: tidied rest := by
  unfold tidied
  rw [rdropWhile_append_cons lead rest rfl, List.filter_append, List.filter_cons_of_pos rfl]

/-- A text that does not begin with a blank is only tidied. -/
theorem cleaned_cons {c : Char} {cs : List Char} (h : 0x20 < c.toNat) :
    cleaned (c :: cs) = tidied (c :: cs) := by
  unfold cleaned tidied List.rdropWhile
  simp only
  rw [List.dropWhile_cons_of_neg (by simpa using h)]

/-! ## Schemes -/

/-- The scheme of an address of HTTP consists of letters. -/
theorem isAlpha_of_mem_scheme {scheme : List Char}
    (h : scheme.map Char.toLower = ['h', 't', 't', 'p'] ∨
      scheme.map Char.toLower = ['h', 't', 't', 'p', 's']) {c : Char} (hc : c ∈ scheme) :
    c.isAlpha = true := by
  have hmem := List.mem_map_of_mem (f := Char.toLower) hc
  have hlower : c.toLower ∈ ['h', 't', 't', 'p', 's'] := by
    rcases h with h | h
    · rw [h] at hmem
      exact List.mem_append_left ['s'] hmem
    · rwa [h] at hmem
  have hall : ['h', 't', 't', 'p', 's'].all Char.isAlpha = true := by decide
  exact Text.isAlpha_of_toLower (List.all_eq_true.mp hall c.toLower hlower)

/-- The scheme before a colon is read. -/
theorem readScheme?_append {scheme rest : List Char} (hne : scheme ≠ [])
    (h : ∀ c ∈ scheme, c.isAlpha = true) :
    readScheme? (scheme ++ ':' :: rest) = some (String.ofList (scheme.map Char.toLower), rest) := by
  have hpart : ∀ c ∈ scheme, (c.isAlphanum || c == '+' || c == '-' || c == '.') = true := by
    intro c hc
    unfold Char.isAlphanum
    rw [h c hc]
    rfl
  unfold readScheme?
  simp only
  rw [List.dropWhile_append_of_pos hpart, List.takeWhile_append_of_pos hpart,
    List.dropWhile_cons_of_neg (by decide), List.takeWhile_cons_of_neg (by decide)]
  obtain ⟨c, cs, rfl⟩ := List.exists_cons_of_ne_nil hne
  simp [h c List.mem_cons_self]

/-! ## Places -/

/-- What follows a host is nothing, or a port behind a colon. -/
theorem drop_hostPart : ∀ (inside : Bool) (cs : List Char),
    cs.drop (hostPart inside cs).length = [] ∨
      ∃ digits, cs.drop (hostPart inside cs).length = ':' :: digits
  | _, [] => .inl rfl
  | inside, c :: cs => by
    unfold hostPart
    split
    · next h => exact .inr ⟨cs, by rw [h.1]; rfl⟩
    · split
      · exact drop_hostPart true cs
      · split
        · exact drop_hostPart false cs
        · exact drop_hostPart inside cs

/-- The text behind a user is a part of the whole. -/
theorem mem_of_mem_readUser {cs : List Char} {c : Char} (h : c ∈ (readUser cs).2.2) : c ∈ cs := by
  unfold readUser at h
  split at h
  · exact List.mem_reverse.mp ((List.takeWhile_prefix _).subset (List.mem_reverse.mp h))
  · exact h

/-- What stands behind a port that was read is what stands behind its digits. -/
theorem behind_of_readPort {scheme : String} {cs behind : List Char} {port : Option Nat}
    (h : readPort scheme cs = .ok (port, behind)) : behind = cs.dropWhile Char.isDigit := by
  unfold readPort at h
  simp only at h
  split at h
  · cases h
  · split at h
    · cases h
      rfl
    · cases h
      rfl

/-- A port that was read, with no backslash behind it, was all that there was. -/
theorem readPort_ok {scheme : String} {cs behind : List Char} {port : Option Nat}
    (h : readPort scheme cs = .ok (port, behind)) (hcs : '\\' ∉ cs) : behind = [] := by
  have hbehind := behind_of_readPort h
  unfold readPort at h
  simp only at h
  split at h
  · cases h
  · next hbad =>
    cases hrest : cs.dropWhile Char.isDigit with
    | nil => exact hbehind.trans hrest
    | cons c rest =>
      refine absurd (.inr ?_) hbad
      have hc : c ∈ cs := (List.dropWhile_suffix _).subset (hrest ▸ List.mem_cons_self)
      rw [hrest]
      simp only [List.head?_cons, Option.map_some, Option.getD_some, bne_iff_ne]
      rintro rfl
      exact hcs hc

/-- Behind the slash after a place stands a path, and then what ends it. -/
theorem withPath_slash {url : Url} (hs : isSpecial url.scheme = true) {slash : Char}
    (hslash : isSlash true slash = true) (rest : List Char) :
    withPath url (slash :: rest) =
      withTail { url with
        path := .ofSegments (readPath true [] (rest.takeWhile fun c => !endsPath c)) }
        (rest.dropWhile fun c => !endsPath c) := by
  have hgoes : (!endsPath slash) = true := by
    rcases Bool.or_eq_true_iff.mp hslash with h | h
    · rw [eq_of_beq h]
      rfl
    · rw [eq_of_beq h]
      rfl
  have htake : (slash :: rest).takeWhile (fun c => !endsPath c) =
      slash :: rest.takeWhile fun c => !endsPath c := List.takeWhile_cons_of_pos hgoes
  have hdrop : (slash :: rest).dropWhile (fun c => !endsPath c) =
      rest.dropWhile fun c => !endsPath c := List.dropWhile_cons_of_pos hgoes
  unfold withPath
  simp only [htake, hdrop, hs, hslash, if_true]

/-- Whether a character belongs to what is read before a path. -/
def isBeforePath (c : Char) : Bool :=
  !(isSlash true c || endsPath c)

/-- **A place is read by itself**: the user, the host and the port that it names do not depend on
what is written behind it. -/
theorem readAuthority_append {scheme : String} (hs : isSpecial scheme = true) (cs : List Char) :
    ∃ place : Except Fault Url, (∀ url, place = .ok url → url.scheme = scheme) ∧
      ∀ rest, readAuthority scheme (cs ++ '/' :: rest) =
        place.map fun url => withPath url (cs.dropWhile isBeforePath ++ '/' :: rest) := by
  have hstop : ¬ isBeforePath '/' = true := by decide
  have hread (rest : List Char) : (cs ++ '/' :: rest).takeWhile isBeforePath =
        cs.takeWhile isBeforePath ∧
      (cs ++ '/' :: rest).dropWhile isBeforePath = cs.dropWhile isBeforePath ++ '/' :: rest := by
    rw [List.takeWhile_append, List.dropWhile_append, List.takeWhile_cons_of_neg hstop,
      List.dropWhile_cons_of_neg hstop, List.append_nil]
    refine ⟨?_, ?_⟩ <;> split
    · next hall => exact ((List.takeWhile_prefix _).eq_of_length hall).symm
    · rfl
    · next hnil => rw [List.isEmpty_iff.mp hnil, List.nil_append]
    · rfl
  have hbackslash : '\\' ∉ (readUser (cs.takeWhile isBeforePath)).2.2 := by
    intro hmem
    have hbefore := List.mem_takeWhile_imp (mem_of_mem_readUser hmem)
    cases hbefore
  unfold isBeforePath at hread hbackslash ⊢
  unfold readAuthority
  simp only [hs, hread, if_true]
  generalize List.takeWhile _ cs = authority at hbackslash ⊢
  generalize readUser authority = user at hbackslash ⊢
  by_cases hempty : (hostPart false user.2.2).isEmpty = true
  · refine ⟨.error .emptyHost, nofun, fun rest => ?_⟩
    rw [if_pos ⟨hempty, .inl trivial⟩]
    rfl
  · simp only [hempty]
    cases hhost : specialHost (hostPart false user.2.2) with
    | error fault => exact ⟨.error fault, nofun, fun rest => rfl⟩
    | ok host =>
      rcases drop_hostPart false user.2.2 with hnil | ⟨digits, hcolon⟩
      · rw [hnil]
        exact ⟨.ok ⟨scheme, user.1, user.2.1, some host, none, .segments [], none, none⟩,
          fun url h => by cases h; rfl, fun rest => rfl⟩
      · rw [hcolon]
        simp only
        cases hport : readPort scheme digits with
        | error fault => exact ⟨.error fault, nofun, fun rest => rfl⟩
        | ok port =>
          obtain ⟨port, behind⟩ := port
          obtain rfl := readPort_ok hport fun hmem =>
            hbackslash (List.mem_of_mem_drop (hcolon ▸ List.mem_cons_of_mem ':' hmem))
          exact ⟨.ok ⟨scheme, user.1, user.2.1, some host, port, .segments [], none, none⟩,
            fun url h => by cases h; rfl, fun rest => rfl⟩

/-- **The path behind a place is read by itself**, whatever user, host and port the place names. -/
theorem path_of_readAuthority {scheme : String} {place rest : List Char} {url : Url}
    (hs : isSpecial scheme = true)
    (hplace : ∀ c ∈ place, isSlash true c = false ∧ endsPath c = false)
    (h : readAuthority scheme (place ++ '/' :: rest) = .ok url) :
    url.path = .ofSegments (readPath true [] (rest.takeWhile fun c => !endsPath c)) := by
  have hnil : place.dropWhile isBeforePath = [] := List.dropWhile_eq_nil_iff.mpr fun c hc => by
    unfold isBeforePath
    rw [(hplace c hc).1, (hplace c hc).2]
    rfl
  have htail (url : Url) (cs : List Char) : (withTail url cs).path = url.path := by
    unfold withTail
    split <;> rfl
  obtain ⟨read, hscheme, hread⟩ := readAuthority_append hs place
  rw [hread, hnil] at h
  cases read with
  | error fault => cases h
  | ok base =>
    cases h
    show (withPath base ('/' :: rest)).path = _
    rw [withPath_slash ((hscheme base rfl).symm ▸ hs) rfl, htail]

/-! ## Addresses -/

/-- Letters are kept. -/
theorem filter_dropped_of_isAlpha {scheme : List Char} (h : ∀ c ∈ scheme, c.isAlpha = true) :
    scheme.filter (fun c => !isDropped c) = scheme := by
  refine List.filter_eq_self.mpr fun c hc => ?_
  have hlt := Text.lt_toNat_of_isAlpha (h c hc)
  unfold isDropped
  simp only [Bool.not_eq_true', Bool.or_eq_false_iff, beq_eq_false_iff_ne, ne_eq]
  refine ⟨⟨?_, ?_⟩, ?_⟩ <;> (rintro rfl; revert hlt; decide)

/-- An address with a path behind it is tidied up in each part. -/
theorem cleaned_address {scheme : List Char} (hne : scheme ≠ [])
    (h : ∀ c ∈ scheme, c.isAlpha = true) (place rest : List Char) :
    cleaned ((scheme ++ ':' :: '/' :: '/' :: place) ++ '/' :: rest) =
      scheme ++ ':' :: '/' :: '/' :: (place.filter (fun c => !isDropped c) ++
        '/' :: tidied rest) := by
  have hkept := filter_dropped_of_isAlpha h
  obtain ⟨c, cs, rfl⟩ := List.exists_cons_of_ne_nil hne
  have hlt := Text.lt_toNat_of_isAlpha (h c List.mem_cons_self)
  rw [List.cons_append, List.cons_append, cleaned_cons (Nat.lt_trans (by decide) hlt),
    ← List.cons_append, ← List.cons_append, tidied_append, List.filter_append, hkept]
  simp [isDropped]

/-- **The path behind an address is read by itself.** -/
theorem path_of_parse {address rest : String} {url : Url} (ha : IsHttpAddress address)
    (h : parse (address ++ "/" ++ rest) = .ok url) :
    url.path = .ofSegments
      (readPath true [] ((tidied rest.toList).takeWhile fun c => !endsPath c)) := by
  obtain ⟨scheme, place, haddress, hscheme, hplace, c, hc, hdropped⟩ := ha
  have halpha : ∀ c ∈ scheme, c.isAlpha = true := fun c => isAlpha_of_mem_scheme hscheme
  have hne : scheme ≠ [] := by
    rintro rfl
    rcases hscheme with hnil | hnil <;> cases hnil
  have hspecial : isSpecial (String.ofList (scheme.map Char.toLower)) = true := by
    rcases hscheme with hlower | hlower <;> rw [hlower] <;> rfl
  have htext : (address ++ "/" ++ rest).toList =
      (scheme ++ ':' :: '/' :: '/' :: place) ++ '/' :: rest.toList := by
    simp [haddress]
  have hplace' : ∀ c ∈ place.filter (fun c => !isDropped c),
      isSlash true c = false ∧ endsPath c = false :=
    fun c hc => hplace c (List.mem_filter.mp hc).1
  unfold parse parseChars at h
  rw [htext, cleaned_address hne halpha, readScheme?_append hne halpha] at h
  simp only [hspecial, if_true] at h
  -- Any number of slashes may stand before a place, so it has to begin with something else.
  cases hfiltered : place.filter (fun c => !isDropped c) with
  | nil => exact absurd hdropped (by simpa using List.filter_eq_nil_iff.mp hfiltered c hc)
  | cons first others =>
    rw [hfiltered] at h hplace'
    have hfirst := (hplace' first List.mem_cons_self).1
    rw [List.dropWhile_cons_of_pos rfl, List.dropWhile_cons_of_pos rfl, List.cons_append,
      List.dropWhile_cons_of_neg (by rw [hfirst]; exact Bool.false_ne_true)] at h
    exact path_of_readAuthority hspecial hplace' h

end CredentialRelay.Url
