import CredentialRelay.Proofs.Dictionary
import CredentialRelay.Proofs.Text.Split
import CredentialRelay.Proofs.Text.Utf8
import CredentialRelay.Secret.Reading

/-!
# The two readings of a secret agree

One entry is read strictly and all entries are read as far as they go. The first reading looks into
the texts and then into the bytes, the second one puts the texts over the bytes, and they decode
bytes in different ways. Still they tell the same of every key: the strict reading gives what the
other one gives, or fails where that has replacement characters.

* `Undecodable s key`: the key has bytes that no text is written in, and no text.
* `Warns key event`: the event tells that the bytes of a key are not UTF-8.
* `WarnsOnce key log`: one event does, and no other one.

Results:
* `get?_texts_eq`: what is read for a key, the texts first.
* `text_cases`: the ways a key is read.
* `warnsOnce_of_decode_error`: bytes that are not UTF-8 are told of once, also under a text.
* `readings_agree`: what the strict reading comes to, by what the other one gives.
-/

namespace CredentialRelay.Secret

open Log Text.Utf8

variable {s : Secret} {key : String}

/-- The key has bytes that are not UTF-8, and no text. -/
def Undecodable (s : Secret) (key : String) : Prop :=
  s.stringData.get? key = none ∧ ∃ bytes, s.data.get? key = some bytes ∧ ¬IsUtf8 bytes

/-- The event tells that the bytes of a key are not UTF-8. -/
def Warns (key : String) (e : Event) : Prop :=
  ∃ error : Text.Utf8.Error,
    e = event .warn .source s!"Value of key '{key}' is not valid UTF-8: {error.message}"

/-- One event tells that the bytes of a key are not UTF-8, and no other one. -/
def WarnsOnce (key : String) (log : List Event) : Prop :=
  ∃ before warning after, log = before ++ warning :: after ∧ Warns key warning ∧
    ∀ e ∈ before ++ after, ¬Warns key e

/-! ## What is read -/

/-- **What is read for a key**: its text, or else its bytes as far as they go. -/
theorem get?_texts_eq (s : Secret) (key : String) :
    s.texts.get? key = (s.stringData.get? key).or ((s.data.get? key).map decodeLossy) := by
  unfold texts
  rw [Dictionary.get?_merge, Dictionary.get?_mapValues]

/-- Bytes without a text of the same key are read as far as they go. -/
theorem get?_texts {bytes : List UInt8} (hb : s.data.get? key = some bytes)
    (ht : s.stringData.get? key = none) : s.texts.get? key = some (decodeLossy bytes) := by
  rw [get?_texts_eq, ht, hb]
  rfl

/-- A key that has a text. -/
theorem text_of_stringData {value : String} (h : s.stringData.get? key = some value) :
    s.text key = .ok value ∧ s.texts.get? key = some value := by
  constructor
  · unfold text
    rw [h]
  · rw [get?_texts_eq, h]
    rfl

/-- **The ways a key is read.** Both readings give the same, or neither finds the key, or the key is
undecodable. -/
theorem text_cases (s : Secret) (key : String) :
    (∃ value, s.text key = .ok value ∧ s.texts.get? key = some value ∧ ¬Undecodable s key) ∨
    (s.text key = fail (.missing key) ∧ s.texts.get? key = none ∧ ¬Undecodable s key) ∨
    (∃ bytes error, s.data.get? key = some bytes ∧ decode bytes = .error error ∧
      s.text key = within (.notUtf8 key) (fail (.utf8 error)) ∧
      s.texts.get? key = some (decodeLossy bytes) ∧ Undecodable s key) := by
  cases ht : s.stringData.get? key with
  | some value =>
    refine .inl ⟨value, (text_of_stringData ht).1, (text_of_stringData ht).2, ?_⟩
    rintro ⟨hnone, -⟩
    rw [ht] at hnone
    cases hnone
  | none =>
    unfold text
    rw [ht]
    cases hb : s.data.get? key with
    | none =>
      refine .inr (.inl ⟨rfl, ?_, ?_⟩)
      · rw [get?_texts_eq, ht, hb]
        rfl
      · rintro ⟨-, bytes, hsome, -⟩
        rw [hb] at hsome
        cases hsome
    | some bytes =>
      have hlenient := get?_texts hb ht
      cases hread : decode bytes with
      | ok value =>
        rw [decodeLossy_of_decode hread] at hlenient
        refine .inl ⟨value, by simp only [hread], hlenient, ?_⟩
        rintro ⟨-, other, hother, hinvalid⟩
        cases hb.symm.trans hother
        exact hinvalid ⟨value, decode_eq_ok_iff.mp hread⟩
      | error error =>
        exact .inr (.inr ⟨bytes, error, rfl, hread, by simp only [hread], hlenient, ht, bytes, hb,
          decode_error_iff.mp ⟨error, hread⟩⟩)

/-! ## Warnings -/

theorem apostrophe_not_mem_digits (n : Nat) : '\'' ∉ (toString n).toList := by
  intro h
  have hmem : '\'' ∈ Nat.toDigits 10 n := Nat.toList_repr ▸ h
  exact absurd (Nat.isDigit_of_mem_toDigits (by decide) (by decide) hmem) (by decide)

/-- The wording of a fault is free of apostrophes. -/
theorem apostrophe_not_mem_message (error : Text.Utf8.Error) : '\'' ∉ error.message.toList := by
  cases error with
  | malformed length index =>
    have hmessage : (Text.Utf8.Error.malformed length index).message =
      "invalid utf-8 sequence of " ++ toString length ++ " bytes from index " ++ toString index :=
      rfl
    rw [hmessage]
    simp only [String.toList_append, List.mem_append, not_or]
    exact ⟨⟨⟨by decide, apostrophe_not_mem_digits length⟩, by decide⟩,
      apostrophe_not_mem_digits index⟩
  | truncated index =>
    have hmessage : (Text.Utf8.Error.truncated index).message =
      "incomplete utf-8 byte sequence from index " ++ toString index := rfl
    rw [hmessage]
    simp only [String.toList_append, List.mem_append, not_or]
    exact ⟨by decide, apostrophe_not_mem_digits index⟩

/-- What stands before the last mark of a text can be told. -/
theorem append_mark_inj {mark : Char} {cs ds es fs : List Char} (hes : mark ∉ es) (hfs : mark ∉ fs)
    (h : cs ++ mark :: es = ds ++ mark :: fs) : cs = ds := by
  have hreverse := congrArg List.reverse h
  simp only [List.reverse_append, List.reverse_cons, List.append_assoc, List.singleton_append]
    at hreverse
  have hparts := congrArg (Text.splitFirst mark) hreverse
  rw [Text.splitFirst_append (by simpa using hes), Text.splitFirst_append (by simpa using hfs),
    Prod.mk.injEq, Option.some.injEq] at hparts
  exact List.reverse_inj.mp hparts.2

/-- A warning is about one key. -/
theorem eq_of_warns {other : String} {e : Event} (h : Warns key e) (ho : Warns other e) :
    key = other := by
  obtain ⟨error, rfl⟩ := h
  obtain ⟨error', heq⟩ := ho
  have hmessages := congrArg (String.toList ∘ Event.message) heq
  have hshape (k : String) (error : Text.Utf8.Error) :
      (s!"Value of key '{k}' is not valid UTF-8: {error.message}").toList =
        ("Value of key '".toList ++ k.toList) ++
          '\'' :: (" is not valid UTF-8: ".toList ++ error.message.toList) := by
    show ("Value of key '" ++ k ++ "' is not valid UTF-8: " ++ error.message).toList = _
    rw [String.toList_append, String.toList_append, String.toList_append, List.append_assoc]
    rfl
  have hfree (error : Text.Utf8.Error) :
      '\'' ∉ " is not valid UTF-8: ".toList ++ error.message.toList := by
    rw [List.mem_append, not_or]
    exact ⟨by decide, apostrophe_not_mem_message error⟩
  have hkeys := append_mark_inj (hfree error) (hfree error')
    ((hshape key error).symm.trans (hmessages.trans (hshape other error')))
  exact String.toList_inj.mp (List.append_cancel_left hkeys)

/-- Only an entry whose bytes are not UTF-8 is warned of. -/
theorem textWarning?_eq_some_iff {entry : String × List UInt8} {e : Event} :
    textWarning? entry = some e ↔ ∃ error, decode entry.2 = .error error ∧
      e = event .warn .source s!"Value of key '{entry.1}' is not valid UTF-8: {error.message}" := by
  unfold textWarning?
  cases decode entry.2 with
  | ok text => simp
  | error error => simp [eq_comm]

/-- **Bytes that are not UTF-8 are told of once**, also where a text has the same key. -/
theorem warnsOnce_of_decode_error {bytes : List UInt8} {error : Text.Utf8.Error}
    (hb : s.data.get? key = some bytes) (he : decode bytes = .error error) :
    WarnsOnce key s.textWarnings := by
  obtain ⟨before, after, hsplit, hothers⟩ := Dictionary.exists_split_of_get? hb
  have hwarning : textWarning? (key, bytes) = some _ := textWarning?_eq_some_iff.mpr ⟨error, he, rfl⟩
  refine ⟨before.filterMap textWarning?, _, after.filterMap textWarning?, ?_, ⟨error, rfl⟩, ?_⟩
  · unfold textWarnings
    rw [hsplit, List.filterMap_append, List.filterMap_cons_some hwarning]
  · intro e hin hkey
    rw [← List.filterMap_append] at hin
    obtain ⟨entry, hentry, hmade⟩ := List.mem_filterMap.mp hin
    obtain ⟨error', -, hwording⟩ := textWarning?_eq_some_iff.mp hmade
    exact hothers entry hentry (eq_of_warns ⟨error', hwording⟩ hkey)

/-! ## The readings side by side -/

/-- The keys of what is read as far as it goes are those of the bytes and of the texts. -/
theorem mem_keys_texts (s : Secret) (key : String) :
    key ∈ s.texts.keys ↔ key ∈ s.data.keys ∨ key ∈ s.stringData.keys := by
  rw [Dictionary.mem_keys_iff, Dictionary.mem_keys_iff, Dictionary.mem_keys_iff, get?_texts_eq]
  cases s.stringData.get? key <;> cases s.data.get? key <;> simp

/-- **The readings of a secret agree.** The strict reading of a key gives just what the other reading
gives, unless the key is undecodable. It does not find the key just if the other reading has nothing
for it, and finds it not to be UTF-8 just if it is undecodable; the other reading then gives a text
with a replacement character, and there is one warning about the key. The keys of the other reading
are those of the bytes and of the texts, and in both the texts come first. -/
theorem readings_agree (s : Secret) (key : String) :
    (∀ value, s.text key = .ok value ↔ s.texts.get? key = some value ∧ ¬Undecodable s key) ∧
    (s.text key = fail (.missing key) ↔ s.texts.get? key = none) ∧
    ((∃ error, s.text key = within (.notUtf8 key) (fail (.utf8 error))) ↔ Undecodable s key) ∧
    (Undecodable s key →
      (∃ value, s.texts.get? key = some value ∧ '\uFFFD' ∈ value.toList) ∧
        WarnsOnce key s.textWarnings) ∧
    (key ∈ s.texts.keys ↔ key ∈ s.data.keys ∨ key ∈ s.stringData.keys) ∧
    (∀ value, s.stringData.get? key = some value →
      s.text key = .ok value ∧ s.texts.get? key = some value) := by
  have hkeys := mem_keys_texts s key
  have hfirst (value : String) : s.stringData.get? key = some value → _ := text_of_stringData
  rcases text_cases s key with ⟨value, htext, htexts, hdecodable⟩ |
    ⟨htext, htexts, hdecodable⟩ | ⟨bytes, error, hbytes, hread, htext, htexts, hundecodable⟩
  · refine ⟨fun other => ?_, ?_, ?_, fun h => absurd h hdecodable, hkeys, hfirst⟩
    · rw [htext, htexts, Except.ok.injEq, Option.some.injEq]
      exact (and_iff_left hdecodable).symm
    · rw [htext, htexts]
      exact iff_of_false (fun h => nomatch h) (fun h => nomatch h)
    · rw [htext]
      exact iff_of_false (fun ⟨_, h⟩ => nomatch h) hdecodable
  · refine ⟨fun other => ?_, iff_of_true htext htexts, ?_, fun h => absurd h hdecodable, hkeys,
      hfirst⟩
    · rw [htext, htexts]
      exact iff_of_false (fun h => nomatch h) (fun h => nomatch h.1)
    · rw [htext]
      refine iff_of_false ?_ hdecodable
      rintro ⟨error, h⟩
      cases h
  · refine ⟨fun other => ?_, ?_, iff_of_true ⟨error, htext⟩ hundecodable,
      fun _ => ⟨⟨_, htexts, replacement_mem_of_decode_error hread⟩,
        warnsOnce_of_decode_error hbytes hread⟩, hkeys, hfirst⟩
    · rw [htext]
      exact iff_of_false (fun h => nomatch h) (fun h => h.2 hundecodable)
    · rw [htext, htexts]
      refine iff_of_false ?_ (fun h => nomatch h)
      intro h
      cases h

/-- A secret with two entries of one byte that begins no character; one of them has a text too. -/
def straySecret : Secret :=
  ⟨Dictionary.ofList [("both", [0xff]), ("stray", [0xff])], Dictionary.ofList [("both", "t")], none,
    []⟩

theorem readings_agree_straySecret :
    (straySecret.text "both" = .ok "t" ∧ straySecret.texts.get? "both" = some "t") ∧
    (∃ error, straySecret.text "stray" = within (.notUtf8 "stray") (fail (.utf8 error))) ∧
    (∃ value, straySecret.texts.get? "stray" = some value ∧ '\uFFFD' ∈ value.toList) ∧
    WarnsOnce "stray" straySecret.textWarnings := by
  have hinvalid : ¬IsUtf8 [0xff] := decode_error_iff.mp ⟨.malformed 1 0, rfl⟩
  have hundecodable : Undecodable straySecret "stray" := ⟨by decide, [0xff], by decide, hinvalid⟩
  obtain ⟨-, -, -, -, -, hfirst⟩ := readings_agree straySecret "both"
  obtain ⟨-, -, hfails, hstray, -, -⟩ := readings_agree straySecret "stray"
  exact ⟨hfirst "t" (by decide), hfails.mpr hundecodable, hstray hundecodable⟩

end CredentialRelay.Secret
