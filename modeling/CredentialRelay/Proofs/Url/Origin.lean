import CredentialRelay.Proofs.Text.Trimming
import CredentialRelay.Proofs.Url.Address
import CredentialRelay.Proofs.Url.Host

/-!
# The origin of an address

Something is written behind an address, and the whole is read as a URL. If that can be read, requests
for it go where requests for the address go, since what is read of the address before its path is
read of the whole.

* Slashes at the end of the address may be left out before.
* An address may end in blanks, which are not read of the address itself, but of the whole. They may
  stand in a path or in what follows it; in a host or a port they make the whole unreadable.

Results:
* `origin_eq_of_authority`: what a URL is read from before its path decides where requests for it go.
* `readAuthority_blank`: nothing is read where that ends in a space or a control character.
* `origin_of_parse`: a URL behind an address has the origin of the address.
-/

namespace CredentialRelay.Url

/-! ## Origins -/

/-- What follows a host does not matter. -/
@[simp] theorem origin_withPath (url : Url) (cs : List Char) :
    (withPath url cs).origin = url.origin := by
  unfold withPath withTail
  simp only
  split <;> rfl

/-- The user does not matter. -/
@[simp] theorem origin_withoutUser (url : Url) : url.withoutUser.origin = url.origin := by
  unfold withoutUser
  split <;> rfl

/-! ## Authorities -/

/-- What is read before a path: the user, the host and the port. -/
def authorityOf (scheme : String) (cs : List Char) : List Char :=
  cs.takeWhile fun c => !(isSlash (isSpecial scheme) c || endsPath c)

/-- What is read of an authority: the text of a host, and the text of a port behind it. -/
def placeOf (scheme : String) (cs : List Char) : List Char :=
  (readUser (authorityOf scheme cs)).2.2

/-- Reads the text of a host. -/
def hostOf (scheme : String) (place : List Char) : Except Fault Host :=
  if isSpecial scheme then specialHost (hostPart false place) else plainHost (hostPart false place)

/-- Reads what stands behind the text of a host. -/
def portOf (scheme : String) (place : List Char) : Except Fault (Option Nat × List Char) :=
  match place.drop (hostPart false place).length with
  | ':' :: digits => readPort scheme digits
  | behind => .ok (none, behind)

/-- **What a URL is read from**: a host and a port, and a path behind them. -/
theorem readAuthority_ok {scheme : String} {cs : List Char} {url : Url}
    (h : readAuthority scheme cs = .ok url) :
    ∃ host port behind, hostOf scheme (placeOf scheme cs) = .ok host ∧
      portOf scheme (placeOf scheme cs) = .ok (port, behind) ∧
      url.origin = origin ⟨scheme, "", none,
        if (hostPart false (placeOf scheme cs)).isEmpty then none else some host, port,
        .segments [], none, none⟩ := by
  unfold hostOf portOf placeOf authorityOf
  unfold readAuthority at h
  simp only at h
  generalize (readUser _).2.2 = place at h ⊢
  split at h
  · cases h
  · by_cases hs : isSpecial scheme = true
    case' pos => rw [if_pos hs] at h ⊢
    case' neg => rw [if_neg hs] at h ⊢
    all_goals
      obtain ⟨host, hhost, h⟩ := bind_ok h
      rcases drop_hostPart false place with hnil | ⟨digits, hcolon⟩
      · rw [hnil] at h ⊢
        cases h
        exact ⟨host, none, [], hhost, rfl, origin_withPath _ _⟩
      · rw [hcolon] at h ⊢
        obtain ⟨⟨port, behind⟩, hport, h⟩ := bind_ok h
        cases h
        exact ⟨host, port, behind, hhost, hport, origin_withPath _ _⟩

/-- **The authority decides the origin.** -/
theorem origin_eq_of_authority {scheme : String} {cs ds : List Char} {base url : Url}
    (hsame : authorityOf scheme ds = authorityOf scheme cs)
    (hbase : readAuthority scheme cs = .ok base) (hurl : readAuthority scheme ds = .ok url) :
    url.origin = base.origin := by
  have hplace : placeOf scheme ds = placeOf scheme cs := by
    unfold placeOf
    rw [hsame]
  obtain ⟨host, port, behind, hhost, hport, horigin⟩ := readAuthority_ok hbase
  obtain ⟨host', port', behind', hhost', hport', horigin'⟩ := readAuthority_ok hurl
  rw [hplace] at hhost' hport' horigin'
  obtain rfl := Except.ok.inj (hhost.symm.trans hhost')
  obtain ⟨rfl, rfl⟩ := Prod.mk.inj (Except.ok.inj (hport.symm.trans hport'))
  exact horigin'.trans horigin.symm

/-- A host is a part at the beginning of what is read for it. -/
theorem hostPart_begins : ∀ (inside : Bool) (cs : List Char), hostPart inside cs <+: cs
  | _, [] => List.prefix_refl []
  | inside, c :: cs => by
    unfold hostPart
    split
    · exact List.nil_prefix
    · split
      · exact List.cons_prefix_cons.mpr ⟨rfl, hostPart_begins true cs⟩
      · split
        · exact List.cons_prefix_cons.mpr ⟨rfl, hostPart_begins false cs⟩
        · exact List.cons_prefix_cons.mpr ⟨rfl, hostPart_begins inside cs⟩

theorem hostPart_append_drop (inside : Bool) (cs : List Char) :
    hostPart inside cs ++ cs.drop (hostPart inside cs).length = cs := by
  have htake := List.prefix_iff_eq_take.mp (hostPart_begins inside cs)
  calc hostPart inside cs ++ cs.drop (hostPart inside cs).length
      = cs.take (hostPart inside cs).length ++ cs.drop (hostPart inside cs).length := by rw [← htake]
    _ = cs := List.take_append_drop _ _

/-- What stands behind the user ends as the whole does. -/
theorem readUser_concat {c : Char} (hc : c ≠ '@') (cs : List Char) :
    ∃ place, (readUser (cs ++ [c])).2.2 = place ++ [c] := by
  unfold readUser
  split
  · refine ⟨(cs.reverse.takeWhile (· != '@')).reverse, ?_⟩
    simp only
    rw [List.reverse_append, List.reverse_singleton, List.singleton_append,
      List.takeWhile_cons_of_pos (by simpa using hc), List.reverse_cons]
  · exact ⟨cs, rfl⟩

/-- A port that was read, with no backslash behind it, consists of digits. -/
theorem isDigit_of_readPort {scheme : String} {cs behind : List Char} {port : Option Nat}
    (h : readPort scheme cs = .ok (port, behind)) (hcs : '\\' ∉ cs) {c : Char} (hc : c ∈ cs) :
    c.isDigit = true :=
  List.dropWhile_eq_nil_iff.mp ((behind_of_readPort h).symm.trans (readPort_ok h hcs)) c hc

theorem isDigit_of_blank {c : Char} (hc : c.toNat ≤ 0x20) : c.isDigit = false := by
  have hlt : ¬ '0'.val ≤ c.val := by
    intro hle
    have hval : '0'.toNat ≤ c.toNat := UInt32.le_iff_toNat_le.mp hle
    exact absurd (Nat.le_trans hval hc) (by decide)
  unfold Char.isDigit
  rw [decide_eq_false hlt]
  rfl

/-- **Nothing is read where an authority ends in a space or a control character.** -/
theorem readAuthority_blank {scheme : String} {cs before : List Char} {c : Char}
    (hs : isSpecial scheme = true) (hc : c.toNat ≤ 0x20)
    (ha : authorityOf scheme cs = before ++ [c]) (url : Url) : readAuthority scheme cs ≠ .ok url := by
  intro h
  have hbackslash : '\\' ∉ before ++ [c] := by
    intro hmem
    rw [← ha] at hmem
    have hends := List.mem_takeWhile_imp hmem
    rw [hs] at hends
    cases hends
  obtain ⟨host, port, behind, hhost, hport, -⟩ := readAuthority_ok h
  obtain ⟨place, hplace⟩ := readUser_concat (ne_of_blank hc (by decide)) before
  have hsplit := hostPart_append_drop false (place ++ [c])
  unfold placeOf at hhost hport
  unfold hostOf at hhost
  unfold portOf at hport
  rw [ha, hplace] at hhost hport
  rw [if_pos hs] at hhost
  rcases drop_hostPart false (place ++ [c]) with hnil | ⟨digits, hcolon⟩
  · rw [hnil, List.append_nil] at hsplit
    rw [hsplit] at hhost
    exact specialHost_blank hc place host hhost
  · rw [hcolon] at hport hsplit
    have hlast : (':' :: digits).getLast? = some c := by
      have hall := congrArg List.getLast? hsplit
      rwa [List.getLast?_append_of_ne_nil _ (List.cons_ne_nil _ _), List.getLast?_concat] at hall
    have hmem : c ∈ digits :=
      (List.mem_cons.mp (List.mem_of_getLast? hlast)).resolve_left (ne_of_blank hc (by decide))
    have hdigits : '\\' ∉ digits := fun hd => hbackslash (mem_of_mem_readUser
      (hplace.symm ▸ hsplit ▸ List.mem_append_right _ (List.mem_cons_of_mem _ hd)))
    have hdigit := isDigit_of_readPort hport hdigits hmem
    rw [isDigit_of_blank hc] at hdigit
    cases hdigit

/-! ## Addresses -/

/-- What is tidied up at the end of a text are blanks. -/
theorem exists_tidied_append (cs : List Char) :
    ∃ blanks, cs.filter (fun c => !isDropped c) = tidied cs ++ blanks ∧
      ∀ c ∈ blanks, c.toNat ≤ 0x20 := by
  let isBlank (c : Char) : Bool := decide (c.toNat ≤ 0x20)
  refine ⟨(cs.rtakeWhile isBlank).filter fun c => !isDropped c, ?_, fun c hc => ?_⟩
  · have hcs : cs.rdropWhile isBlank ++ cs.rtakeWhile isBlank = cs :=
      List.rdropWhile_append_rtakeWhile
    calc cs.filter (fun c => !isDropped c)
        = (cs.rdropWhile isBlank ++ cs.rtakeWhile isBlank).filter (fun c => !isDropped c) := by
          rw [hcs]
      _ = tidied cs ++ (cs.rtakeWhile isBlank).filter (fun c => !isDropped c) :=
          List.filter_append ..
  · exact of_decide_eq_true (List.mem_rtakeWhile_imp (p := isBlank) (List.mem_filter.mp hc).1)

/-- Behind a slash, everything is tidied by itself. -/
theorem cleaned_append (lead rest : List Char) : cleaned (lead ++ '/' :: rest) =
    (lead.dropWhile fun c => decide (c.toNat ≤ 0x20)).filter (fun c => !isDropped c) ++
      '/' :: tidied rest := by
  have hcleaned (cs : List Char) :
      cleaned cs = tidied (cs.dropWhile fun c => decide (c.toNat ≤ 0x20)) := rfl
  have hslash : (lead ++ '/' :: rest).dropWhile (fun c => decide (c.toNat ≤ 0x20)) =
      lead.dropWhile (fun c => decide (c.toNat ≤ 0x20)) ++ '/' :: rest := by
    rw [List.dropWhile_append]
    split
    · next hnil =>
      rw [List.isEmpty_iff.mp hnil]
      rfl
    · rfl
  rw [hcleaned, hslash, tidied_append]

/-- **An address and what is written behind it**, as they are read: they begin alike, then come
slashes of the address, or blanks of it and what is written behind. -/
theorem cleaned_behind (address : List Char) :
    ∃ lead slashes blanks, cleaned address = lead ++ slashes ∧
      (∀ rest, cleaned (Text.dropEndWhile (· == '/') address ++ '/' :: rest) =
        lead ++ (blanks ++ '/' :: tidied rest)) ∧
      (∀ c ∈ slashes, c = '/') ∧ ∀ c ∈ blanks, c.toNat ≤ 0x20 := by
  obtain ⟨more, haddress, hmore⟩ := Text.dropEndWhile_append (· == '/') address
  generalize Text.dropEndWhile (· == '/') address = body at haddress
  generalize hbody : body.dropWhile (fun c => decide (c.toNat ≤ 0x20)) = text
  have hwhole (cs : List Char) : cleaned (body ++ '/' :: cs) =
      text.filter (fun c => !isDropped c) ++ '/' :: tidied cs := by
    rw [cleaned_append, hbody]
  rw [haddress]
  cases more with
  | nil =>
    have htext : cleaned body = tidied text := congrArg tidied hbody
    rw [List.append_nil, htext]
    obtain ⟨blanks, hblanks, hall⟩ := exists_tidied_append text
    refine ⟨tidied text, [], blanks, (List.append_nil _).symm, fun rest => ?_, nofun, hall⟩
    rw [hwhole, hblanks, List.append_assoc]
  | cons c more =>
    obtain rfl : c = '/' := eq_of_beq (hmore c List.mem_cons_self)
    rw [hwhole]
    refine ⟨text.filter fun c => !isDropped c, '/' :: tidied more, [], rfl, hwhole, fun c hc => ?_,
      nofun⟩
    rcases List.mem_cons.mp hc with rfl | hc
    · rfl
    · exact eq_of_beq (hmore c (List.mem_cons_of_mem _
        ((List.rdropWhile_prefix _ _).subset (List.mem_filter.mp hc).1)))

/-- What stands before the colon of a scheme is read without what stands behind, and is no part of a
path. -/
theorem readScheme?_eq_some {cs rest : List Char} {scheme : String}
    (h : readScheme? cs = some (scheme, rest)) :
    ∃ name, cs = name ++ ':' :: rest ∧ '/' ∉ name ∧
      ∀ other, readScheme? (name ++ ':' :: other) = some (scheme, other) := by
  unfold readScheme? at h
  simp only at h
  split at h
  · next hdrop =>
    split at h
    · next halpha =>
      cases h
      let isPart (c : Char) : Bool := c.isAlphanum || c == '+' || c == '-' || c == '.'
      have hall : ∀ c ∈ cs.takeWhile isPart, isPart c = true := fun c => List.mem_takeWhile_imp
      have hcs : cs = cs.takeWhile isPart ++ ':' :: rest :=
        hdrop ▸ (List.takeWhile_append_dropWhile (p := isPart)).symm
      refine ⟨cs.takeWhile isPart, hcs, fun hmem => absurd (hall '/' hmem) (by decide),
        fun other => ?_⟩
      have hhead : (cs.takeWhile isPart ++ ':' :: other).head? =
          (cs.takeWhile isPart ++ ':' :: rest).head? := by
        cases cs.takeWhile isPart <;> rfl
      unfold readScheme?
      simp only
      rw [List.dropWhile_append_of_pos hall, List.takeWhile_append_of_pos hall, hhead, ← hcs,
        List.dropWhile_cons_of_neg (by decide), List.takeWhile_cons_of_neg (by decide),
        List.append_nil]
      exact if_pos halpha
    · cases h
  · cases h

theorem scheme_withPath (url : Url) (cs : List Char) : (withPath url cs).scheme = url.scheme :=
  congrArg Origin.scheme (origin_withPath url cs)

theorem scheme_of_readAuthority {scheme : String} {cs : List Char} {url : Url}
    (h : readAuthority scheme cs = .ok url) : url.scheme = scheme := by
  obtain ⟨host, port, behind, -, -, horigin⟩ := readAuthority_ok h
  exact congrArg Origin.scheme horigin

theorem scheme_of_readPlain {scheme : String} {cs : List Char} {url : Url}
    (h : readPlain scheme cs = .ok url) : url.scheme = scheme := by
  unfold readPlain at h
  split at h
  · exact scheme_of_readAuthority h
  · cases h
    exact scheme_withPath _ _
  · cases h
    unfold withTail
    split <;> rfl

theorem scheme_of_readFile {cs : List Char} {url : Url} (h : readFile cs = .ok url) :
    url.scheme = "file" := by
  unfold readFile at h
  simp only at h
  split at h
  · obtain ⟨read, hread, h⟩ := bind_ok h
    have hscheme := scheme_of_readAuthority hread
    split at h
    · cases h
      exact hscheme
    · cases h
      exact hscheme
  · exact scheme_of_readPlain h
  · exact scheme_of_readPlain h

theorem parseChars_special {cs rest : List Char} {scheme : String}
    (hscheme : readScheme? cs = some (scheme, rest)) (hs : isSpecial scheme = true) :
    parseChars cs = readAuthority scheme (rest.dropWhile (isSlash true)) := by
  unfold parseChars
  rw [hscheme]
  exact if_pos hs

/-- A URL with a special scheme was read with it. -/
theorem isSpecial_of_parseChars {cs rest : List Char} {scheme : String} {url : Url}
    (hscheme : readScheme? cs = some (scheme, rest)) (hs : isSpecial url.scheme = true)
    (h : parseChars cs = .ok url) : isSpecial scheme = true := by
  unfold parseChars at h
  rw [hscheme] at h
  simp only at h
  split at h
  · assumption
  · next hplain =>
    split at h
    · rw [scheme_of_readFile h] at hs
      cases hs
    · rw [scheme_of_readPlain h] at hs
      exact absurd hs hplain

/-- The scheme of an address is read before the slashes at its end. -/
theorem readScheme?_append_slashes {lead slashes rest : List Char} {scheme : String}
    (h : readScheme? (lead ++ slashes) = some (scheme, rest)) (hslashes : ∀ c ∈ slashes, c = '/') :
    ∃ place, rest = place ++ slashes ∧
      ∀ other, readScheme? (lead ++ other) = some (scheme, place ++ other) := by
  obtain ⟨name, hname, -, hother⟩ := readScheme?_eq_some h
  have hcolon : ':' ∉ slashes := fun hmem => by
    have heq := hslashes ':' hmem
    cases heq
  rcases List.append_eq_append_iff.mp hname with ⟨more, -, hslash⟩ | ⟨more, hlead, hrest⟩
  · exact absurd (hslash ▸ List.mem_append_right _ List.mem_cons_self) hcolon
  · rcases List.append_eq_cons_iff.mp hrest.symm with ⟨-, hslash⟩ | ⟨place, rfl, hplace⟩
    · exact absurd (hslash ▸ List.mem_cons_self) hcolon
    · refine ⟨place, hplace, fun other => ?_⟩
      rw [hlead, List.append_assoc, List.cons_append]
      exact hother _

/-- What is read of a place before its path is the same with slashes behind it and with blanks and
more behind it, unless it ends in one of the blanks. -/
theorem authorityOf_behind (scheme : String) (place behind : List Char) {slashes blanks : List Char}
    (hslashes : ∀ c ∈ slashes, c = '/') (hblanks : ∀ c ∈ blanks, c.toNat ≤ 0x20) :
    authorityOf scheme (place ++ (blanks ++ '/' :: behind)) = authorityOf scheme (place ++ slashes) ∨
      ∃ before c, c.toNat ≤ 0x20 ∧
        authorityOf scheme (place ++ (blanks ++ '/' :: behind)) = before ++ [c] := by
  let stays (c : Char) : Bool := !(isSlash (isSpecial scheme) c || endsPath c)
  have hstays : ∀ c ∈ blanks, stays c = true := by
    intro c hc
    have hne {d : Char} (hd : 0x20 < d.toNat) : (c == d) = false :=
      beq_false_of_ne (ne_of_blank (hblanks c hc) hd)
    simp [stays, isSlash, endsPath, hne (d := '/') (by decide), hne (d := '\\') (by decide),
      hne (d := '?') (by decide), hne (d := '#') (by decide)]
  have hslash : stays '/' = false := rfl
  have hnone : slashes.takeWhile stays = [] := by
    cases slashes with
    | nil => rfl
    | cons c slashes =>
      rw [hslashes c List.mem_cons_self]
      exact List.takeWhile_cons_of_neg (by rw [hslash]; exact Bool.false_ne_true)
  have hwhole : (blanks ++ '/' :: behind).takeWhile stays = blanks := by
    rw [List.takeWhile_append_of_pos hstays, List.takeWhile_cons_of_neg
      (by rw [hslash]; exact Bool.false_ne_true), List.append_nil]
  show List.takeWhile stays _ = List.takeWhile stays _ ∨ ∃ _ _, _ ∧ List.takeWhile stays _ = _
  have happend (cs : List Char) : (place ++ cs).takeWhile stays =
      if (place.takeWhile stays).length = place.length then place ++ cs.takeWhile stays
      else place.takeWhile stays := List.takeWhile_append
  rw [happend, happend, hnone, hwhole]
  split
  · rcases List.eq_nil_or_concat blanks with rfl | ⟨before, c, rfl⟩
    · exact .inl rfl
    · rw [List.concat_eq_append] at hblanks ⊢
      exact .inr ⟨place ++ before, c, hblanks c List.mem_concat_self, (List.append_assoc ..).symm⟩
  · exact .inl rfl

/-- A scheme of HTTP needs a host. -/
theorem readAuthority_nil {scheme : String} (hs : isSpecial scheme = true) :
    readAuthority scheme [] = .error .emptyHost := by
  unfold readAuthority
  simp only [hs]
  rfl

/-- **A URL behind an address has the origin of the address.** -/
theorem origin_of_parse {address rest : String} {base url : Url} (hbase : parse address = .ok base)
    (hurl : parse (Text.trimEndSlashes address ++ "/" ++ rest) = .ok url)
    (hs : isSpecial url.scheme = true) : url.origin = base.origin := by
  have htext : (Text.trimEndSlashes address ++ "/" ++ rest).toList =
      Text.dropEndWhile (· == '/') address.toList ++ '/' :: rest.toList := by
    simp [Text.trimEndSlashes]
  obtain ⟨lead, slashes, blanks, haddress, hwhole, hslashes, hblanks⟩ :=
    cleaned_behind address.toList
  unfold parse at hbase hurl
  rw [htext, hwhole] at hurl
  rw [haddress] at hbase
  cases hread : readScheme? (lead ++ slashes) with
  | none =>
    unfold parseChars at hbase
    rw [hread] at hbase
    cases hbase
  | some read =>
    obtain ⟨scheme, behind⟩ := read
    obtain ⟨place, rfl, hother⟩ := readScheme?_append_slashes hread hslashes
    have hspecial := isSpecial_of_parseChars (hother _) hs hurl
    rw [parseChars_special hread hspecial] at hbase
    rw [parseChars_special (hother _) hspecial] at hurl
    rw [List.dropWhile_append] at hbase hurl
    split at hbase
    · have hnil : slashes.dropWhile (isSlash true) = [] :=
        List.dropWhile_eq_nil_iff.mpr fun c hc => hslashes c hc ▸ rfl
      rw [hnil, readAuthority_nil hspecial] at hbase
      cases hbase
    · next hplace =>
      rw [if_neg hplace] at hurl
      rcases authorityOf_behind scheme (place.dropWhile (isSlash true)) (tidied rest.toList) hslashes
        hblanks with hsame | ⟨before, c, hc, hends⟩
      · exact origin_eq_of_authority hsame hbase hurl
      · exact absurd hurl (readAuthority_blank hspecial hc hends url)

end CredentialRelay.Url
