/-
Standard JSON in the parser of the device.

Every JSON text is read to its end, and its items are those of its value: numbers rounded, strings
as their bytes, what is escaped encoded in UTF-8.  A text must not be nested deeper than the
limit, and a number must not be followed by further bytes of a number.

* `utf16LiteralToUtf8_unicode`, `utf16LiteralToUtf8_pair` — escapes;
* `parseString_standard`, `parseNumber_standard` — strings and numbers;
* `completeSpec` — the recursion, by induction on the fuel;
* `cJSONParse_standard` — `cJSON_Parse` of a JSON text.
-/
import SentrySystem.CJsonParse

namespace Sentry

open Checked

/-! ### Escapes -/

section Escapes

variable {b : ParseBuffer} {input inputEnd : ℕ} {u u' s : List UInt8} {code high low : ℕ}

/-- The four digits of an escape. -/
theorem parseHex4_escape (hu : IsUnicodeEscape u code) (h : b.content.drop input = u ++ s) :
    parseHex4 4 (input + 2) 0 b = .ok code b := by
  obtain ⟨ds, rfl, hlen, hvalue⟩ := hu
  have hds : ds <+: b.content.drop (input + 2) :=
    ⟨s, (drop_succ_of_drop (drop_succ_of_drop h)).symm⟩
  have hne : ds ≠ [] := List.ne_nil_of_length_pos (by omega)
  have hparse := parseHex4_eq (p := 0) hne hds
  rwa [hlen, hvalue] at hparse

theorem length_unicodeEscape (hu : IsUnicodeEscape u code) : u.length = 6 := by
  obtain ⟨ds, rfl, hlen, -⟩ := hu
  rw [List.length_cons, List.length_cons, hlen]

theorem lt_of_unicodeEscape (hu : IsUnicodeEscape u code) : code < 0x10000 := by
  obtain ⟨ds, -, hlen, hvalue⟩ := hu
  have hlt := getD_hexValue_lt hlen
  rwa [hvalue] at hlt

/-- **An escape** is one codepoint. -/
theorem utf16LiteralToUtf8_unicode (hu : IsUnicodeEscape u code) (hhigh : ¬ IsHighSurrogate code)
    (hlow : ¬ IsLowSurrogate code) (h : b.content.drop input = u ++ s)
    (hend : input + 6 ≤ inputEnd) :
    utf16LiteralToUtf8 input inputEnd b =
      .ok (some (6, String.utf8EncodeChar (Char.ofNat code))) b := by
  have hlt := lt_of_unicodeEscape hu
  have hlow' : ¬ (0xDC00 ≤ code ∧ code ≤ 0xDFFF) := hlow
  have hhigh' : ¬ (0xD800 ≤ code ∧ code ≤ 0xDBFF) := hhigh
  rw [utf16LiteralToUtf8, if_neg (by omega), bind_of_ok (parseHex4_escape hu h), if_neg hlow',
    if_neg hhigh', encodeUtf8_eq ⟨hhigh, hlow, by omega⟩]
  rfl

/-- **Two escapes** are a pair. -/
theorem utf16LiteralToUtf8_pair (hu : IsUnicodeEscape u high) (hu' : IsUnicodeEscape u' low)
    (hhigh : IsHighSurrogate high) (hlow : IsLowSurrogate low)
    (h : b.content.drop input = u ++ (u' ++ s)) (hend : input + 12 ≤ inputEnd) :
    utf16LiteralToUtf8 input inputEnd b =
      .ok (some (12, String.utf8EncodeChar (Char.ofNat (pairCode high low)))) b := by
  have hsecond : b.content.drop (input + 6) = u' ++ s := by
    rw [← List.drop_drop, h, ← length_unicodeEscape hu, List.drop_left]
  have hparse := parseHex4_escape hu' hsecond
  obtain ⟨ds, hds, -⟩ := hu'
  rw [hds] at hsecond
  have hslash : byteAt (input + 6) b = .ok Ascii.backslash b := byteAt_ok (getElem?_of_drop hsecond)
  have hletter : byteAt (input + 7) b = .ok 0x75 b :=
    byteAt_ok (getElem?_of_drop (drop_succ_of_drop hsecond))
  have hnot : ¬ (0xDC00 ≤ high ∧ high ≤ 0xDFFF) := by
    have hle := hhigh.2
    omega
  have hhigh' : 0xD800 ≤ high ∧ high ≤ 0xDBFF := hhigh
  have hin : ¬ (low < 0xDC00 ∨ 0xDFFF < low) := by
    have hge := hlow.1
    have hle := hlow.2
    omega
  rw [utf16LiteralToUtf8, if_neg (by omega), bind_of_ok (parseHex4_escape hu h), if_neg hnot,
    if_pos hhigh', if_neg (by omega), bind_of_ok hslash, if_neg (by simp), bind_of_ok hletter,
    if_neg (by simp), bind_of_ok hparse, if_neg hin, pairCode_eq hhigh hlow,
    encodeUtf8_eq (isScalar_pairCode hhigh hlow)]
  rfl

end Escapes

/-! ### Strings -/

theorem ne_of_hexDigit {c : UInt8} {d : ℕ} (h : hexDigit c = some d) :
    c ≠ Ascii.quote ∧ c ≠ Ascii.backslash := by
  constructor
  · rintro rfl
    cases h
  · rintro rfl
    cases h

theorem isEscaped_digits {ds s : List UInt8} (hs : IsEscaped s) : ∀ {p code : ℕ},
    hexValue p ds = some code → IsEscaped (ds ++ s) := by
  induction ds with
  | nil =>
    intro p code _
    exact hs
  | cons c ds ih =>
    intro p code h
    obtain ⟨d, hd, hrest⟩ := Option.bind_eq_some_iff.mp h
    obtain ⟨hquote, hbackslash⟩ := ne_of_hexDigit hd
    exact .byte hquote hbackslash (ih hrest)

theorem isEscaped_unicodeEscape {u s : List UInt8} {code : ℕ} (hu : IsUnicodeEscape u code)
    (hs : IsEscaped s) : IsEscaped (u ++ s) := by
  obtain ⟨ds, rfl, -, hvalue⟩ := hu
  exact .escape (isEscaped_digits hs hvalue)

/-- The inside of a string has an end the first loop finds. -/
theorem isEscaped_of_jsonChars {body v : List UInt8} (h : JsonChars body v) : IsEscaped body := by
  induction h with
  | nil => exact .nil
  | byte _ hquote hbackslash _ ih => exact .byte hquote hbackslash ih
  | escape _ _ ih => exact .escape ih
  | unicode hu _ _ _ ih => exact isEscaped_unicodeEscape hu ih
  | pair hu hu' _ _ _ ih => exact isEscaped_unicodeEscape hu (isEscaped_unicodeEscape hu' ih)

theorem scanString_escaped {body : List UInt8} (h : IsEscaped body) (rest : List UInt8) :
    ∃ skipped, scanString (body ++ Ascii.quote :: rest) = some (body.length, skipped) := by
  induction h with
  | nil =>
    refine ⟨0, ?_⟩
    rw [List.nil_append, scanString.eq_def]
    exact if_pos rfl
  | byte hquote hbackslash h ih =>
    obtain ⟨skipped, hscan⟩ := ih
    refine ⟨skipped, ?_⟩
    rw [List.cons_append, scanString.eq_def]
    simp only [if_neg hquote, if_neg hbackslash, hscan]
    rfl
  | escape h ih =>
    obtain ⟨skipped, hscan⟩ := ih
    refine ⟨skipped + 1, ?_⟩
    rw [List.cons_append, List.cons_append, scanString.eq_def]
    simp only [if_neg (by decide : Ascii.backslash ≠ Ascii.quote), if_pos, hscan]
    rfl

theorem escapesBefore_digits {ds s : List UInt8} {k : ℕ} : ∀ {p code : ℕ},
    hexValue p ds = some code → escapesBefore (ds ++ s) (ds.length + k) = escapesBefore s k := by
  induction ds with
  | nil =>
    intro p code _
    rw [List.length_nil, Nat.zero_add, List.nil_append]
  | cons c ds ih =>
    intro p code h
    obtain ⟨d, hd, hrest⟩ := Option.bind_eq_some_iff.mp h
    rw [List.cons_append, List.length_cons, Nat.add_right_comm,
      escapesBefore_byte (ne_of_hexDigit hd).2, ih hrest]

theorem escapesBefore_unicodeEscape {u s : List UInt8} {code k : ℕ} (hu : IsUnicodeEscape u code) :
    escapesBefore (u ++ s) (u.length + k) = escapesBefore s k + 1 := by
  obtain ⟨ds, rfl, -, hvalue⟩ := hu
  have hlen : (Ascii.backslash :: 0x75 :: ds).length + k = ds.length + k + 1 + 1 := by
    rw [List.length_cons, List.length_cons]
    omega
  rw [hlen, List.cons_append, List.cons_append, escapesBefore_escape, Nat.add_sub_cancel,
    escapesBefore_digits hvalue]

theorem length_utf8_le {code : ℕ} (h : IsScalar code) :
    (String.utf8EncodeChar (Char.ofNat code)).length ≤ 4 ∧
      (code < 0x10000 → (String.utf8EncodeChar (Char.ofNat code)).length ≤ 3) :=
  length_encodeUtf8 (encodeUtf8_eq h)

/-- What a string stands for and its escapes are no longer than its inside. -/
theorem length_le_of_jsonChars {body v : List UInt8} (h : JsonChars body v) (rest : List UInt8) :
    v.length + escapesBefore (body ++ rest) body.length ≤ body.length := by
  induction h with
  | nil => exact le_of_eq (congrArg (0 + ·) (escapesBefore_zero _))
  | byte _ _ hbackslash _ ih =>
    rw [List.cons_append, List.length_cons, List.length_cons, escapesBefore_byte hbackslash]
    omega
  | escape _ _ ih =>
    rw [List.cons_append, List.cons_append, List.length_cons, List.length_cons, List.length_cons,
      escapesBefore_escape, Nat.add_sub_cancel]
    omega
  | unicode hu hhigh hlow _ ih =>
    have hlt := lt_of_unicodeEscape hu
    have hlen := (length_utf8_le ⟨hhigh, hlow, by omega⟩).2 hlt
    have hsix := length_unicodeEscape hu
    rw [List.append_assoc, List.length_append, List.length_append, escapesBefore_unicodeEscape hu]
    omega
  | pair hu hu' hhigh hlow _ ih =>
    have hlen := (length_utf8_le (isScalar_pairCode hhigh hlow)).1
    have hsix := length_unicodeEscape hu
    have hsix' := length_unicodeEscape hu'
    rw [List.append_assoc, List.append_assoc, List.length_append, List.length_append,
      List.length_append, escapesBefore_unicodeEscape hu, escapesBefore_unicodeEscape hu']
    omega

/-- One round of the second loop: `n` bytes read, `bytes` written. -/
theorem unescape_round {b : ParseBuffer} {inputEnd size fuel input n : ℕ}
    {output v : List UInt8} (bytes : List UInt8) (hroom : output.length + (bytes ++ v).length ≤ size)
    (hnext : unescape inputEnd size fuel (input + n) (output ++ bytes) b =
      .ok (output ++ bytes ++ v) b) :
    ((store size output bytes) >>= fun output => unescape inputEnd size fuel (input + n) output) b =
      .ok (output ++ (bytes ++ v)) b := by
  rw [List.length_append] at hroom
  have hstore : (output ++ bytes).length ≤ size := by
    rw [List.length_append]
    omega
  rw [bind_of_ok (store_ok hstore), hnext, List.append_assoc]

/-- A round at a sequence of UTF-16. -/
theorem unescape_sequence {b : ParseBuffer} {inputEnd size fuel input n code : ℕ}
    {u output bytes v t : List UInt8} (hu : IsUnicodeEscape u code)
    (hdrop : b.content.drop input = u ++ t) (hlt : input < inputEnd)
    (hseq : utf16LiteralToUtf8 input inputEnd b = .ok (some (n, bytes)) b)
    (hroom : output.length + (bytes ++ v).length ≤ size)
    (hnext : unescape inputEnd size fuel (input + n) (output ++ bytes) b =
      .ok (output ++ bytes ++ v) b) :
    unescape inputEnd size (fuel + 1) input output b = .ok (output ++ (bytes ++ v)) b := by
  obtain ⟨ds, rfl, -⟩ := hu
  have hslash : byteAt input b = .ok Ascii.backslash b := byteAt_ok (getElem?_of_drop hdrop)
  have hletter : byteAt (input + 1) b = .ok 0x75 b :=
    byteAt_ok (getElem?_of_drop (drop_succ_of_drop hdrop))
  rw [unescape, if_neg (Nat.not_le.mpr hlt), bind_of_ok hslash, if_neg (not_not.mpr rfl),
    bind_of_ok hletter, if_pos rfl, bind_of_ok hseq]
  exact unescape_round bytes hroom hnext

/-- **The second loop** writes what the inside of a string stands for. -/
theorem unescape_standard {b : ParseBuffer} {inputEnd size : ℕ} {rest body v : List UInt8}
    (h : JsonChars body v) : ∀ {fuel input : ℕ} {output : List UInt8},
    b.content.drop input = body ++ rest → input + body.length = inputEnd → body.length < fuel →
    output.length + v.length ≤ size →
    unescape inputEnd size fuel input output b = .ok (output ++ v) b := by
  have hroom_next : ∀ {output bytes v : List UInt8}, output.length + (bytes ++ v).length ≤ size →
      (output ++ bytes).length + v.length ≤ size := by
    intro output bytes v hroom
    rwa [List.length_append, Nat.add_assoc, ← List.length_append]
  induction h with
  | nil =>
    intro fuel input output _ hend hfuel _
    obtain ⟨fuel, rfl⟩ := Nat.exists_eq_succ_of_ne_zero (Nat.ne_of_gt hfuel)
    have hdone : inputEnd ≤ input := le_of_eq hend.symm
    rw [unescape, if_pos hdone, List.append_nil]
    rfl
  | @byte c s v _ _ hbackslash _ ih =>
    intro fuel input output hdrop hend hfuel hroom
    rw [List.length_cons] at hend hfuel
    rw [List.cons_append] at hdrop
    obtain ⟨fuel, rfl⟩ := Nat.exists_eq_succ_of_ne_zero (Nat.ne_of_gt (Nat.zero_lt_of_lt hfuel))
    rw [unescape, if_neg (by omega), bind_of_ok (byteAt_ok (getElem?_of_drop hdrop)),
      if_pos hbackslash]
    exact unescape_round [c] hroom
      (ih (drop_succ_of_drop hdrop) (by omega) (by omega) (hroom_next hroom))
  | @escape c e s v he _ ih =>
    intro fuel input output hdrop hend hfuel hroom
    rw [List.length_cons, List.length_cons] at hend hfuel
    rw [List.cons_append, List.cons_append] at hdrop
    obtain ⟨fuel, rfl⟩ := Nat.exists_eq_succ_of_ne_zero (Nat.ne_of_gt (Nat.zero_lt_of_lt hfuel))
    have hslash : byteAt input b = .ok Ascii.backslash b := byteAt_ok (getElem?_of_drop hdrop)
    have hletter : byteAt (input + 1) b = .ok c b :=
      byteAt_ok (getElem?_of_drop (drop_succ_of_drop hdrop))
    have hplain : c ≠ 0x75 := by
      rintro rfl
      cases he
    rw [unescape, if_neg (by omega), bind_of_ok hslash, if_neg (not_not.mpr rfl),
      bind_of_ok hletter, if_neg hplain, he]
    exact unescape_round [e] hroom
      (ih (drop_succ_of_drop (drop_succ_of_drop hdrop)) (by omega) (by omega) (hroom_next hroom))
  | @unicode u code s v hu hhigh hlow _ ih =>
    intro fuel input output hdrop hend hfuel hroom
    have hsix := length_unicodeEscape hu
    rw [List.length_append, hsix] at hend hfuel
    rw [List.append_assoc] at hdrop
    obtain ⟨fuel, rfl⟩ := Nat.exists_eq_succ_of_ne_zero (Nat.ne_of_gt (Nat.zero_lt_of_lt hfuel))
    have hnext : b.content.drop (input + 6) = s ++ rest := by
      rw [← List.drop_drop, hdrop, ← hsix, List.drop_left]
    exact unescape_sequence hu hdrop (by omega)
      (utf16LiteralToUtf8_unicode hu hhigh hlow hdrop (by omega)) hroom
      (ih hnext (by omega) (by omega) (hroom_next hroom))
  | @pair u u' high low s v hu hu' hhigh hlow _ ih =>
    intro fuel input output hdrop hend hfuel hroom
    have hsix := length_unicodeEscape hu
    have hsix' := length_unicodeEscape hu'
    rw [List.length_append, List.length_append, hsix, hsix'] at hend hfuel
    rw [List.append_assoc, List.append_assoc] at hdrop
    obtain ⟨fuel, rfl⟩ := Nat.exists_eq_succ_of_ne_zero (Nat.ne_of_gt (Nat.zero_lt_of_lt hfuel))
    have hnext : b.content.drop (input + 12) = s ++ rest := by
      rw [show input + 12 = input + 6 + 6 from rfl, ← List.drop_drop, ← List.drop_drop, hdrop]
      nth_rewrite 2 [← hsix]
      rw [List.drop_left, ← hsix', List.drop_left]
    exact unescape_sequence hu hdrop (by omega)
      (utf16LiteralToUtf8_pair hu hu' hhigh hlow hdrop (by omega)) hroom
      (ih hnext (by omega) (by omega) (hroom_next hroom))

/-- **A string of the standard** is read to its closing quote. -/
theorem parseString_standard {b : ParseBuffer} (hfits : b.Fits) {s v rest : List UInt8}
    (hs : standardJson.string s v) (hahead : b.ahead = s ++ rest) :
    parseString b = .ok v (b.forward s.length) := by
  obtain ⟨body, rfl, hchars⟩ := hs
  have hdrop : b.content.drop b.offset = Ascii.quote :: (body ++ Ascii.quote :: rest) := by
    rw [← hfits.ahead, hahead, List.cons_append, List.append_assoc]
    rfl
  have hbody : b.content.drop (b.offset + 1) = body ++ Ascii.quote :: rest := drop_succ_of_drop hdrop
  have hquote : bufferAtOffset 0 b = .ok Ascii.quote b := byteAt_ok (getElem?_of_drop hdrop)
  obtain ⟨skipped, hscan⟩ := scanString_escaped (isEscaped_of_jsonChars hchars) rest
  have hlen := length_le_of_jsonChars hchars (Ascii.quote :: rest)
  have hskipped := (scanString_sound hscan).2
  have hrun : unescape (b.offset + 1 + body.length)
      (b.offset + 1 + body.length - b.offset - skipped + 1) (body.length + 1) (b.offset + 1) [] b =
      .ok ([] ++ v) b := by
    refine unescape_standard hchars hbody rfl (Nat.lt_succ_self _) ?_
    rw [List.length_nil]
    omega
  have hterminator : store (b.offset + 1 + body.length - b.offset - skipped + 1) ([] ++ v) [0] b =
      .ok ([] ++ v ++ [0]) b := by
    refine store_ok ?_
    rw [List.nil_append, List.length_append, List.length_singleton]
    omega
  have hend : ({ b with offset := b.offset + 1 + body.length + 1 } : ParseBuffer) =
      b.forward (Ascii.quote :: (body ++ [Ascii.quote])).length := by
    refine ParseBuffer.eq_forward ?_
    rw [List.length_cons, List.length_append, List.length_singleton]
    omega
  rw [parseString, bind_get, bind_of_ok hquote, if_neg (not_not.mpr rfl), hfits.take, hbody, hscan]
  simp only []
  rw [bind_of_ok hrun, bind_of_ok hterminator, bind_modify, hend]
  rfl

/-! ### Numbers -/

theorem head_of_standard {lit : DecimalLit} (h : lit.Standard) :
    ∃ c ∈ lit.text.head?, c = minusByte ∨ (byteDigit c).isSome := by
  rw [DecimalLit.text]
  cases hsign : lit.sign with
  | some minus =>
    cases minus with
    | true => exact ⟨minusByte, rfl, .inl rfl⟩
    | false => exact absurd hsign h.sign
  | none =>
    cases hint : lit.int with
    | nil => exact absurd hint h.int
    | cons d ds => exact ⟨digitByte d, rfl, .inr (by rw [byteDigit_digitByte]; rfl)⟩

/-- **A number of the standard** is read to its end, and rounded. -/
theorem parseNumber_standard {b : ParseBuffer} {s rest : List UInt8} {q : ℚ}
    (hs : standardJson.number s q) (hahead : b.ahead = s ++ rest)
    (hrest : ∀ c ∈ rest.head?, isNumberByte c = false) :
    parseNumber b = .ok (itemFields (.number (.ofRat q))) (b.forward s.length) := by
  obtain ⟨lit, -, rfl, rfl⟩ := hs
  have hrun : b.ahead.takeWhile isNumberByte = lit.text := by
    rw [hahead, List.takeWhile_append_of_pos fun c hc => isNumberByte_of_mem hc]
    cases rest with
    | nil => exact List.append_nil _
    | cons c rest =>
      rw [List.takeWhile_cons_of_neg (by rw [hrest c rfl]; simp), List.append_nil]
  have hscan : scanDecimal lit.text = some (lit, []) := by
    have htext : scanDecimal (lit.text ++ []) = some (lit, []) :=
      scanDecimal_text lit fun c hc => by cases hc
    rwa [List.append_nil] at htext
  have hstrtod : strtod lit.text = some (.ofRat lit.value, lit.text.length) := by
    rw [strtod, hscan]
    rfl
  rw [parseNumber, hrun, hstrtod]
  rfl

/-! ### Arrays and objects -/

/-- The value with its numbers rounded. -/
def rounded (v : Json ℚ (List UInt8)) : Json Binary64 (List UInt8) := v.map .ofRat id

/-- What is no blank of the device's parser. -/
def IsVisible (c : UInt8) : Prop := ¬ c ≤ 32

theorem le_of_blank {c : UInt8} (h : standardJson.blank c) : c ≤ 32 := by
  rcases h with rfl | rfl | rfl | rfl
  all_goals decide

theorem isNumberByte_of_blank {c : UInt8} (h : standardJson.blank c) : isNumberByte c = false := by
  rcases h with rfl | rfl | rfl | rfl
  all_goals decide

/-- Blanks are skipped. -/
theorem skip_blanks {b : ParseBuffer} (hfits : b.Fits) {w rest : List UInt8} {c : UInt8}
    (hahead : b.ahead = w ++ c :: rest) (hw : ∀ c ∈ w, standardJson.blank c) (hc : IsVisible c) :
    bufferSkipWhitespace b = .ok ⟨⟩ (b.forward w.length) := by
  rw [bufferSkipWhitespace_eq hfits, hahead,
    skipLength_append (fun c hc => le_of_blank (hw c hc)) hc]

/-- The first byte of a value. -/
structure StartsValue (c : UInt8) : Prop where
  visible : IsVisible c
  bracket : c ≠ Ascii.rbracket
  brace : c ≠ Ascii.rbrace
  mark : c ≠ 0xef

instance (c : UInt8) : Decidable (IsVisible c) := inferInstanceAs (Decidable (¬ _))

instance (c : UInt8) : Decidable (StartsValue c) :=
  decidable_of_iff (IsVisible c ∧ c ≠ Ascii.rbracket ∧ c ≠ Ascii.rbrace ∧ c ≠ 0xef)
    ⟨fun h => ⟨h.1, h.2.1, h.2.2.1, h.2.2.2⟩, fun h => ⟨h.visible, h.bracket, h.brace, h.mark⟩⟩

theorem startsValue_number {c : UInt8} (h : c = minusByte ∨ (byteDigit c).isSome) :
    StartsValue c := by
  rcases h with rfl | h
  · decide
  · obtain ⟨d, hd⟩ := Option.isSome_iff_exists.mp h
    rw [← digitByte_of_byteDigit hd]
    exact (by decide : ∀ d, StartsValue (digitByte d)) d

theorem jsonText_head {d : ℕ} {s : List UInt8} {v : Json ℚ (List UInt8)}
    (h : JsonText standardJson d s v) : ∃ c t, s = c :: t ∧ StartsValue c := by
  cases h with
  | null => exact ⟨_, _, rfl, by decide⟩
  | bool b =>
    cases b
    · exact ⟨_, _, rfl, by decide⟩
    · exact ⟨_, _, rfl, by decide⟩
  | number hn =>
    obtain ⟨lit, hlit, rfl, -⟩ := hn
    obtain ⟨c, hc, hstart⟩ := head_of_standard hlit
    obtain ⟨t, ht⟩ := List.head?_eq_some_iff.mp hc
    exact ⟨c, t, ht, startsValue_number hstart⟩
  | string hs =>
    obtain ⟨body, rfl, -⟩ := hs
    exact ⟨_, _, rfl, by decide⟩
  | emptyArray _ => exact ⟨_, _, rfl, by decide⟩
  | array _ => exact ⟨_, _, rfl, by decide⟩
  | emptyObject _ => exact ⟨_, _, rfl, by decide⟩
  | object _ => exact ⟨_, _, rfl, by decide⟩

/-- Elements behind the blanks in front of them. -/
theorem elementsText_strip {d : ℕ} {s : List UInt8} {es : JsonArray ℚ (List UInt8)}
    (h : ElementsText standardJson d s es) :
    ∃ w c t, s = w ++ c :: t ∧ (∀ c ∈ w, standardJson.blank c) ∧ StartsValue c ∧
      ElementsText standardJson d (c :: t) es := by
  cases h with
  | @last _ w s w' v hw hv hw' =>
    obtain ⟨c, t, rfl, hc⟩ := jsonText_head hv
    exact ⟨w, c, t ++ w', rfl, hw, hc, .last (w := []) (fun _ hc => by cases hc) hv hw'⟩
  | @more _ w s w' u v es hw hv hw' hes =>
    obtain ⟨c, t, rfl, hc⟩ := jsonText_head hv
    exact ⟨w, c, t ++ (w' ++ Ascii.comma :: u), rfl, hw, hc,
      .more (w := []) (fun _ hc => by cases hc) hv hw' hes⟩

/-- Members behind the blanks in front of them. -/
theorem membersText_strip {d : ℕ} {s : List UInt8} {ms : JsonObject ℚ (List UInt8)}
    (h : MembersText standardJson d s ms) :
    ∃ w c t, s = w ++ c :: t ∧ (∀ c ∈ w, standardJson.blank c) ∧ StartsValue c ∧
      MembersText standardJson d (c :: t) ms := by
  cases h with
  | @last _ w k w' u s u' name v hw hk hw' hu hv hu' =>
    have hname := hk
    obtain ⟨body, rfl, -⟩ := hk
    exact ⟨w, Ascii.quote, _, rfl, hw, by decide,
      .last (w := []) (fun _ hc => by cases hc) hname hw' hu hv hu'⟩
  | @more _ w k w' u s u' t name v ms hw hk hw' hu hv hu' hms =>
    have hname := hk
    obtain ⟨body, rfl, -⟩ := hk
    exact ⟨w, Ascii.quote, _, rfl, hw, by decide,
      .more (w := []) (fun _ hc => by cases hc) hname hw' hu hv hu' hms⟩

section Children

variable {b : ParseBuffer} {opened : Parse Bool} {opening closing : UInt8} {type : CJsonType}
variable {loop : Parse CJson} {head : CJson} {w rest : List UInt8}

/-- What lies behind the bytes that were read. -/
theorem ahead_forward_of_eq {t u : List UInt8} (hfits : b.Fits) (h : b.ahead = t ++ u) :
    (b.forward t.length).ahead = u := by
  rw [hfits.ahead_forward, h, List.drop_left]

/-- The opening byte, and the blanks behind it. -/
theorem parseChildren_opened {t : List UInt8} {c : UInt8} (hfits : b.Fits)
    (hahead : b.ahead = opening :: (w ++ c :: t)) (hdepth : b.depth < nestingLimit)
    (hopened : opened b.deeper = .ok true b.deeper) (hw : ∀ c ∈ w, standardJson.blank c)
    (hc : IsVisible c) : parseChildren opened closing type loop b =
      (do
        if (← nextIs closing) = true then closeItem type .null
        else if (← Checked.get).canAccessAtIndex 0 = false then
          stepBack
          Checked.fail
        else
          stepBack
          let head ← loop
          if (← nextIs closing) = true then closeItem type head else Checked.fail :
        Parse (CJsonFields × CJson)) (b.deeper.forward (1 + w.length)) := by
  have hfits' : b.deeper.Fits := hfits
  have hbehind : (b.deeper.forward 1).ahead = w ++ c :: t :=
    ahead_forward_of_eq (t := [opening]) hfits' hahead
  have hskip := skip_blanks (hfits'.forward 1) hbehind hw hc
  rw [ParseBuffer.forward_forward] at hskip
  have hdeeper : modify (fun b : ParseBuffer => { b with depth := b.depth + 1 }) b =
      .ok ⟨⟩ b.deeper := rfl
  rw [parseChildren, bind_get, if_neg (Nat.not_le.mpr hdepth), bind_of_ok hdeeper,
    bind_of_ok hopened, if_neg (by simp), bind_of_ok (advance_eq 1), bind_of_ok hskip]

/-- Nothing but blanks. -/
theorem parseChildren_empty (hfits : b.Fits) (hahead : b.ahead = opening :: (w ++ closing :: rest))
    (hdepth : b.depth < nestingLimit) (hopened : opened b.deeper = .ok true b.deeper)
    (hw : ∀ c ∈ w, standardJson.blank c) (hclosing : IsVisible closing) :
    parseChildren opened closing type loop b =
      .ok ({ newItem with type := type }, .null) (b.forward (w.length + 2)) := by
  have hfits' : b.deeper.Fits := hfits
  have hend : (b.deeper.forward (1 + w.length)).ahead = closing :: rest := by
    rw [Nat.add_comm]
    exact ahead_forward_of_eq (t := opening :: w) hfits' hahead
  rw [parseChildren_opened hfits hahead hdepth hopened hw hclosing,
    bind_of_ok (nextIs_eq (hfits'.forward _) closing), hend, if_pos (by simp)]
  show Outcome.ok _ (b.forward (1 + w.length + 1)) = _
  rw [show 1 + w.length + 1 = w.length + 2 from by omega]

/-- What the loop reads. -/
theorem parseChildren_loop {t : List UInt8} {c : UInt8} (hfits : b.Fits)
    (hahead : b.ahead = opening :: (w ++ c :: (t ++ closing :: rest)))
    (hdepth : b.depth < nestingLimit) (hopened : opened b.deeper = .ok true b.deeper)
    (hw : ∀ c ∈ w, standardJson.blank c) (hc : IsVisible c) (hne : c ≠ closing)
    (hloop : loop (b.deeper.forward w.length) =
      .ok head (b.deeper.forward (w.length + (1 + (c :: t).length)))) :
    parseChildren opened closing type loop b =
      .ok ({ newItem with type := type }, head) (b.forward ((w ++ c :: t).length + 2)) := by
  have hfits' : b.deeper.Fits := hfits
  have hbehind : (b.deeper.forward (1 + w.length)).ahead = c :: (t ++ closing :: rest) := by
    rw [Nat.add_comm]
    exact ahead_forward_of_eq (t := opening :: w) hfits' hahead
  have haccess : ¬ (b.deeper.forward (1 + w.length)).canAccessAtIndex 0 = false := by
    have hlt := offset_lt_of_head (hfits'.forward _) (congrArg List.head? hbehind)
    rw [canAccessAtIndex_eq_true (i := 0) hlt]
    simp
  have hend : (b.deeper.forward (w.length + (1 + (c :: t).length))).ahead = closing :: rest := by
    have hlen : w.length + (1 + (c :: t).length) = (opening :: (w ++ c :: t)).length := by
      simp only [List.length_cons, List.length_append]
      omega
    rw [hlen]
    refine ahead_forward_of_eq hfits' ?_
    rw [show b.deeper.ahead = b.ahead from rfl, hahead]
    simp only [List.cons_append, List.append_assoc]
  rw [parseChildren_opened hfits hahead hdepth hopened hw hc,
    bind_of_ok (nextIs_eq (hfits'.forward _) closing), hbehind, if_neg (by simpa using hne),
    bind_get, if_neg haccess, bind_of_ok (stepBack_eq w.length), bind_of_ok hloop,
    bind_of_ok (nextIs_eq (hfits'.forward _) closing), hend, if_pos (by simp)]
  show Outcome.ok _ (b.forward (w.length + (1 + (c :: t).length) + 1)) = _
  rw [List.length_append, show w.length + (1 + (c :: t).length) + 1 = w.length + (c :: t).length + 2
    from by omega]

/-- The byte in front of what is behind the blanks. -/
theorem exists_front {t : List UInt8} (hahead : b.ahead = opening :: (w ++ t)) :
    ∃ front, b.ahead.drop w.length = front :: t := by
  cases hw : w.reverse with
  | nil =>
    obtain rfl := List.reverse_eq_nil_iff.mp hw
    exact ⟨opening, hahead⟩
  | cons front u =>
    obtain rfl : w = u.reverse ++ [front] := by
      rw [← List.reverse_reverse w, hw, List.reverse_cons]
    refine ⟨front, ?_⟩
    rw [hahead, List.append_assoc, List.length_append, ← List.cons_append, List.length_singleton,
      ← List.length_cons (a := opening), List.drop_left]
    rfl

/-- One round of the loops: a value between blanks. -/
theorem parseItem_standard {string : Option (List UInt8)} {value : Parse (CJsonFields × CJson)}
    {more : Parse CJson} {fields : CJsonFields} {child : CJson} {s w' : List UInt8}
    {c front : UInt8} (hfits : b.Fits) (hahead : b.ahead = front :: (w ++ (s ++ (w' ++ c :: rest))))
    (hs : ∃ d t, s = d :: t ∧ StartsValue d)
    (hw : ∀ c ∈ w, standardJson.blank c) (hw' : ∀ c ∈ w', standardJson.blank c) (hc : IsVisible c)
    (hvalue : value (b.forward (1 + w.length)) =
      .ok (fields, child) (b.forward (1 + w.length + s.length))) :
    parseItem string value more b =
      (do
        if (← nextIs Ascii.comma) = true then return .item string fields child (← more)
        else return .item string fields child .null : Parse CJson)
        (b.forward (1 + (w ++ (s ++ w')).length)) := by
  obtain ⟨d, t, rfl, hd⟩ := hs
  have hbehind : (b.forward 1).ahead = w ++ d :: (t ++ (w' ++ c :: rest)) :=
    ahead_forward_of_eq (t := [front]) hfits hahead
  have hskip := skip_blanks (hfits.forward 1) hbehind hw hd.visible
  rw [ParseBuffer.forward_forward] at hskip
  have hrest : (b.forward (1 + w.length + (d :: t).length)).ahead = w' ++ c :: rest := by
    have hlen : 1 + w.length + (d :: t).length = (front :: (w ++ d :: t)).length := by
      simp only [List.length_cons, List.length_append]
      omega
    rw [hlen]
    refine ahead_forward_of_eq hfits ?_
    rw [hahead]
    simp only [List.cons_append, List.append_assoc]
  have hskip' := skip_blanks (hfits.forward _) hrest hw' hc
  rw [ParseBuffer.forward_forward] at hskip'
  rw [parseItem, bind_of_ok (advance_eq 1), bind_of_ok hskip, bind_of_ok hvalue]
  simp only []
  have hlen : 1 + w.length + (d :: t).length + w'.length = 1 + (w ++ (d :: t ++ w')).length := by
    simp only [List.length_append]
    omega
  rw [bind_of_ok hskip', hlen]

end Children

/-! ### The recursion -/

/-- What the calls with this fuel do with standard texts, if it suffices. -/
structure CompleteSpec (fuel : ℕ) : Prop where
  value : ∀ {b : ParseBuffer} {d : ℕ} {s rest : List UInt8} {v : Json ℚ (List UInt8)}, b.Fits →
    b.ahead = s ++ rest → JsonText standardJson d s v → b.depth + d ≤ nestingLimit →
    (v.IsNumber → ∀ c ∈ rest.head?, isNumberByte c = false) →
    3 * (b.length - b.offset) + 3 ≤ fuel →
    parseValue fuel b =
      .ok (itemFields (rounded v), itemChild (rounded v)) (b.forward s.length)
  array : ∀ {b : ParseBuffer} {d : ℕ} {s rest : List UInt8} {es : JsonArray ℚ (List UInt8)},
    b.Fits → b.ahead = s ++ rest → JsonText standardJson d s (.array es) →
    b.depth + d ≤ nestingLimit → 3 * (b.length - b.offset) + 2 ≤ fuel →
    parseArray fuel b =
      .ok ({ newItem with type := .array }, elementItems (es.map .ofRat id)) (b.forward s.length)
  elements : ∀ {b : ParseBuffer} {d : ℕ} {front : UInt8} {s rest : List UInt8}
    {es : JsonArray ℚ (List UInt8)}, b.Fits → b.ahead = front :: (s ++ Ascii.rbracket :: rest) →
    ElementsText standardJson d s es → b.depth + d ≤ nestingLimit →
    3 * (b.length - b.offset) + 1 ≤ fuel →
    parseElements fuel b = .ok (elementItems (es.map .ofRat id)) (b.forward (1 + s.length))
  object : ∀ {b : ParseBuffer} {d : ℕ} {s rest : List UInt8} {ms : JsonObject ℚ (List UInt8)},
    b.Fits → b.ahead = s ++ rest → JsonText standardJson d s (.object ms) →
    b.depth + d ≤ nestingLimit → 3 * (b.length - b.offset) + 2 ≤ fuel →
    parseObject fuel b =
      .ok ({ newItem with type := .object }, memberItems (ms.map .ofRat id)) (b.forward s.length)
  members : ∀ {b : ParseBuffer} {d : ℕ} {front : UInt8} {s rest : List UInt8}
    {ms : JsonObject ℚ (List UInt8)}, b.Fits → b.ahead = front :: (s ++ Ascii.rbrace :: rest) →
    MembersText standardJson d s ms → b.depth + d ≤ nestingLimit →
    3 * (b.length - b.offset) + 1 ≤ fuel →
    parseMembers fuel b = .ok (memberItems (ms.map .ofRat id)) (b.forward (1 + s.length))

theorem not_word_prefix {word l : List UInt8} {c : UInt8} (hl : l.head? = some c)
    (hne : word ≠ []) (hword : word.head? ≠ some c) : ¬ word <+: l := by
  rintro ⟨rest, rfl⟩
  rw [List.head?_append_of_ne_nil _ hne] at hl
  exact hword hl

/-- A value that is no word. -/
theorem parseValue_dispatch {b : ParseBuffer} {c : UInt8} (fuel : ℕ) (hfits : b.Fits)
    (hhead : b.ahead.head? = some c) (hn : c ≠ 0x6e) (hf : c ≠ 0x66) (ht : c ≠ 0x74) :
    parseValue (fuel + 1) b =
      (do
        if (← nextIs Ascii.quote) = true then return (stringItem (← parseString), .null)
        else if (← nextIsNumber) = true then return (← parseNumber, .null)
        else if (← nextIs Ascii.lbracket) = true then parseArray fuel
        else if (← nextIs Ascii.lbrace) = true then parseObject fuel
        else Checked.fail : Parse (CJsonFields × CJson)) b := by
  have hnull : ¬ Ascii.null <+: b.ahead :=
    not_word_prefix hhead (by decide) fun h => hn (Option.some_inj.mp h).symm
  have hfalse : ¬ Ascii.false <+: b.ahead :=
    not_word_prefix hhead (by decide) fun h => hf (Option.some_inj.mp h).symm
  have htrue : ¬ Ascii.true <+: b.ahead :=
    not_word_prefix hhead (by decide) fun h => ht (Option.some_inj.mp h).symm
  rw [parseValue, bind_of_ok (startsWith_eq hfits (by decide)), if_neg (by simpa using hnull),
    bind_of_ok (startsWith_eq hfits (by decide)), if_neg (by simpa using hfalse),
    bind_of_ok (startsWith_eq hfits (by decide)), if_neg (by simpa using htrue)]

theorem parseValue_array {b : ParseBuffer} (fuel : ℕ) (hfits : b.Fits)
    (hhead : b.ahead.head? = some Ascii.lbracket) : parseValue (fuel + 1) b = parseArray fuel b := by
  rw [parseValue_dispatch fuel hfits hhead (by decide) (by decide) (by decide),
    bind_of_ok (nextIs_eq hfits Ascii.quote), hhead, if_neg (by decide),
    bind_of_ok (nextIsNumber_eq hfits), hhead, if_neg (by decide),
    bind_of_ok (nextIs_eq hfits Ascii.lbracket), hhead, if_pos (by decide)]

theorem parseValue_object {b : ParseBuffer} (fuel : ℕ) (hfits : b.Fits)
    (hhead : b.ahead.head? = some Ascii.lbrace) : parseValue (fuel + 1) b = parseObject fuel b := by
  rw [parseValue_dispatch fuel hfits hhead (by decide) (by decide) (by decide),
    bind_of_ok (nextIs_eq hfits Ascii.quote), hhead, if_neg (by decide),
    bind_of_ok (nextIsNumber_eq hfits), hhead, if_neg (by decide),
    bind_of_ok (nextIs_eq hfits Ascii.lbracket), hhead, if_neg (by decide),
    bind_of_ok (nextIs_eq hfits Ascii.lbrace), hhead, if_pos (by decide)]

/-- The first byte of a number starts no other value. -/
theorem plain_number {c : UInt8} (h : c = minusByte ∨ (byteDigit c).isSome) :
    c ≠ 0x6e ∧ c ≠ 0x66 ∧ c ≠ 0x74 ∧ c ≠ Ascii.quote := by
  rcases h with rfl | h
  · decide
  · obtain ⟨d, hd⟩ := Option.isSome_iff_exists.mp h
    rw [← digitByte_of_byteDigit hd]
    exact (by decide : ∀ d, digitByte d ≠ 0x6e ∧ digitByte d ≠ 0x66 ∧ digitByte d ≠ 0x74 ∧
      digitByte d ≠ Ascii.quote) d

theorem CompleteSpec.value_step {fuel : ℕ} (h : CompleteSpec fuel) {b : ParseBuffer} {d : ℕ}
    {s rest : List UInt8} {v : Json ℚ (List UInt8)} (hfits : b.Fits) (hahead : b.ahead = s ++ rest)
    (hv : JsonText standardJson d s v) (hdepth : b.depth + d ≤ nestingLimit)
    (hrest : v.IsNumber → ∀ c ∈ rest.head?, isNumberByte c = false)
    (hfuel : 3 * (b.length - b.offset) + 3 ≤ fuel + 1) :
    parseValue (fuel + 1) b =
      .ok (itemFields (rounded v), itemChild (rounded v)) (b.forward s.length) := by
  have hhead : ∀ {c t}, s = c :: t → b.ahead.head? = some c := by
    rintro c t rfl
    rw [hahead]
    rfl
  cases hv with
  | null =>
    have hword : Ascii.null <+: b.ahead := ⟨rest, hahead.symm⟩
    rw [parseValue, bind_of_ok (startsWith_eq hfits (by decide)), if_pos (decide_eq_true hword)]
    rfl
  | bool value =>
    cases value with
    | false =>
      have hword : Ascii.false <+: b.ahead := ⟨rest, hahead.symm⟩
      have hnull : ¬ Ascii.null <+: b.ahead := not_word_prefix (hhead rfl) (by decide) (by decide)
      rw [parseValue, bind_of_ok (startsWith_eq hfits (by decide)), if_neg (by simpa using hnull),
        bind_of_ok (startsWith_eq hfits (by decide)), if_pos (decide_eq_true hword)]
      rfl
    | true =>
      have hword : Ascii.true <+: b.ahead := ⟨rest, hahead.symm⟩
      have hnull : ¬ Ascii.null <+: b.ahead := not_word_prefix (hhead rfl) (by decide) (by decide)
      have hfalse : ¬ Ascii.false <+: b.ahead :=
        not_word_prefix (hhead rfl) (by decide) (by decide)
      rw [parseValue, bind_of_ok (startsWith_eq hfits (by decide)), if_neg (by simpa using hnull),
        bind_of_ok (startsWith_eq hfits (by decide)), if_neg (by simpa using hfalse),
        bind_of_ok (startsWith_eq hfits (by decide)), if_pos (decide_eq_true hword)]
      rfl
  | string hs =>
    obtain ⟨body, rfl, -⟩ := id hs
    rw [parseValue_dispatch fuel hfits (hhead rfl) (by decide) (by decide) (by decide),
      bind_of_ok (nextIs_eq hfits Ascii.quote), if_pos (decide_eq_true (hhead rfl)),
      bind_of_ok (parseString_standard hfits hs hahead)]
    rfl
  | number hn =>
    obtain ⟨lit, hlit, rfl, -⟩ := id hn
    obtain ⟨c, hc, hstart⟩ := head_of_standard hlit
    obtain ⟨t, ht⟩ := List.head?_eq_some_iff.mp hc
    have hplain := plain_number hstart
    have hnumber : (b.ahead.head?.any fun c => decide (c = minusByte) || (byteDigit c).isSome) =
        true := by
      rw [hhead ht]
      simpa using hstart
    rw [parseValue_dispatch fuel hfits (hhead ht) hplain.1 hplain.2.1 hplain.2.2.1,
      bind_of_ok (nextIs_eq hfits Ascii.quote), hhead ht, if_neg (by simpa using hplain.2.2.2),
      bind_of_ok (nextIsNumber_eq hfits), if_pos hnumber,
      bind_of_ok (parseNumber_standard hn hahead (hrest ⟨_, rfl⟩))]
    rfl
  | emptyArray hw =>
    rw [parseValue_array fuel hfits (hhead rfl)]
    exact h.array hfits hahead (.emptyArray hw) hdepth (by omega)
  | array hes =>
    rw [parseValue_array fuel hfits (hhead rfl)]
    exact h.array hfits hahead (.array hes) hdepth (by omega)
  | emptyObject hw =>
    rw [parseValue_object fuel hfits (hhead rfl)]
    exact h.object hfits hahead (.emptyObject hw) hdepth (by omega)
  | object hms =>
    rw [parseValue_object fuel hfits (hhead rfl)]
    exact h.object hfits hahead (.object hms) hdepth (by omega)

theorem CompleteSpec.array_step {fuel : ℕ} (h : CompleteSpec fuel) {b : ParseBuffer} {d : ℕ}
    {s rest : List UInt8} {es : JsonArray ℚ (List UInt8)} (hfits : b.Fits)
    (hahead : b.ahead = s ++ rest) (hv : JsonText standardJson d s (.array es))
    (hdepth : b.depth + d ≤ nestingLimit) (hfuel : 3 * (b.length - b.offset) + 2 ≤ fuel + 1) :
    parseArray (fuel + 1) b =
      .ok ({ newItem with type := .array }, elementItems (es.map .ofRat id))
        (b.forward s.length) := by
  have hfits' : b.deeper.Fits := hfits
  have hclosing : IsVisible Ascii.rbracket := by decide
  have hopened : ∀ {t}, b.ahead = Ascii.lbracket :: t →
      (do return decide ((← bufferAtOffset 0) = Ascii.lbracket) : Parse Bool) b.deeper =
        .ok true b.deeper := by
    intro t ht
    have hhead : b.deeper.ahead.head? = some Ascii.lbracket := by
      rw [show b.deeper.ahead = b.ahead from rfl, ht]
      rfl
    refine (opened_eq hfits' (offset_lt_of_head hfits' hhead)).trans ?_
    rw [hhead]
    rfl
  rw [parseArray]
  cases hv with
  | @emptyArray d w hw =>
    have hahead' : b.ahead = Ascii.lbracket :: (w ++ Ascii.rbracket :: rest) := by
      rw [hahead, List.cons_append, List.append_assoc]
      rfl
    rw [parseChildren_empty hfits hahead' (by omega) (hopened hahead') hw hclosing]
    simp only [List.length_cons, List.length_append, List.length_nil]
    rfl
  | @array d s es hes =>
    obtain ⟨w, c, t, rfl, hw, hc, hstrip⟩ := elementsText_strip hes
    have hahead' : b.ahead = Ascii.lbracket :: (w ++ c :: (t ++ Ascii.rbracket :: rest)) := by
      rw [hahead]
      simp only [List.cons_append, List.append_assoc, List.nil_append]
    have hroom : b.offset < b.length :=
      offset_lt_of_head hfits (congrArg List.head? hahead')
    -- the loop starts at the byte in front of the first element
    obtain ⟨front, hfront⟩ := exists_front hahead'
    have hloop := h.elements (b := b.deeper.forward w.length) (s := c :: t) (hfits'.forward _)
      ((hfits'.ahead_forward _).trans hfront) hstrip (by show b.depth + 1 + d ≤ _; omega)
      (by rw [length_forward_sub]; show 3 * (b.length - b.offset - w.length) + 1 ≤ fuel; omega)
    rw [ParseBuffer.forward_forward] at hloop
    rw [parseChildren_loop hfits hahead' (by omega) (hopened hahead') hw hc.visible hc.bracket hloop]
    simp only [List.length_cons, List.length_append, List.length_nil]

theorem CompleteSpec.object_step {fuel : ℕ} (h : CompleteSpec fuel) {b : ParseBuffer} {d : ℕ}
    {s rest : List UInt8} {ms : JsonObject ℚ (List UInt8)} (hfits : b.Fits)
    (hahead : b.ahead = s ++ rest) (hv : JsonText standardJson d s (.object ms))
    (hdepth : b.depth + d ≤ nestingLimit) (hfuel : 3 * (b.length - b.offset) + 2 ≤ fuel + 1) :
    parseObject (fuel + 1) b =
      .ok ({ newItem with type := .object }, memberItems (ms.map .ofRat id))
        (b.forward s.length) := by
  have hfits' : b.deeper.Fits := hfits
  have hclosing : IsVisible Ascii.rbrace := by decide
  have hopened : ∀ {t}, b.ahead = Ascii.lbrace :: t →
      nextIs Ascii.lbrace b.deeper = .ok true b.deeper := by
    intro t ht
    have hhead : b.deeper.ahead.head? = some Ascii.lbrace := by
      rw [show b.deeper.ahead = b.ahead from rfl, ht]
      rfl
    rw [nextIs_eq hfits', hhead]
    rfl
  rw [parseObject]
  cases hv with
  | @emptyObject d w hw =>
    have hahead' : b.ahead = Ascii.lbrace :: (w ++ Ascii.rbrace :: rest) := by
      rw [hahead, List.cons_append, List.append_assoc]
      rfl
    rw [parseChildren_empty hfits hahead' (by omega) (hopened hahead') hw hclosing]
    simp only [List.length_cons, List.length_append, List.length_nil]
    rfl
  | @object d s ms hms =>
    obtain ⟨w, c, t, rfl, hw, hc, hstrip⟩ := membersText_strip hms
    have hahead' : b.ahead = Ascii.lbrace :: (w ++ c :: (t ++ Ascii.rbrace :: rest)) := by
      rw [hahead]
      simp only [List.cons_append, List.append_assoc, List.nil_append]
    have hroom : b.offset < b.length :=
      offset_lt_of_head hfits (congrArg List.head? hahead')
    obtain ⟨front, hfront⟩ := exists_front hahead'
    have hloop := h.members (b := b.deeper.forward w.length) (s := c :: t) (hfits'.forward _)
      ((hfits'.ahead_forward _).trans hfront) hstrip (by show b.depth + 1 + d ≤ _; omega)
      (by rw [length_forward_sub]; show 3 * (b.length - b.offset - w.length) + 1 ≤ fuel; omega)
    rw [ParseBuffer.forward_forward] at hloop
    rw [parseChildren_loop hfits hahead' (by omega) (hopened hahead') hw hc.visible hc.brace hloop]
    simp only [List.length_cons, List.length_append, List.length_nil]

/-- What follows a value in an array or object ends a number. -/
theorem endsNumber {w rest : List UInt8} {c : UInt8} (hw : ∀ c ∈ w, standardJson.blank c)
    (hc : isNumberByte c = false) : ∀ d ∈ (w ++ c :: rest).head?, isNumberByte d = false := by
  refine forall_head_append ?_ ?_
  · intro d hd
    exact isNumberByte_of_blank (hw d (List.mem_of_mem_head? hd))
  · intro d hd
    obtain rfl : c = d := Option.some_inj.mp hd
    exact hc

/-- A value behind the byte in front and blanks. -/
theorem CompleteSpec.value_behind {fuel : ℕ} (h : CompleteSpec fuel) {b : ParseBuffer} {d : ℕ}
    {front : UInt8} {w s rest : List UInt8} {v : Json ℚ (List UInt8)} (hfits : b.Fits)
    (hahead : b.ahead = front :: (w ++ (s ++ rest))) (hv : JsonText standardJson d s v)
    (hdepth : b.depth + d ≤ nestingLimit) (hrest : ∀ c ∈ rest.head?, isNumberByte c = false)
    (hfuel : 3 * (b.length - b.offset) ≤ fuel) :
    parseValue fuel (b.forward (1 + w.length)) =
      .ok (itemFields (rounded v), itemChild (rounded v))
        (b.forward (1 + w.length + s.length)) := by
  have hroom : b.offset < b.length := offset_lt_of_head hfits (congrArg List.head? hahead)
  have hbehind : (b.forward (1 + w.length)).ahead = s ++ rest := by
    rw [Nat.add_comm]
    exact ahead_forward_of_eq (t := front :: w) hfits hahead
  rw [← ParseBuffer.forward_forward (1 + w.length)]
  refine h.value (hfits.forward _) hbehind hv hdepth (fun _ => hrest) ?_
  rw [length_forward_sub]
  omega

theorem CompleteSpec.elements_step {fuel : ℕ} (h : CompleteSpec fuel) {b : ParseBuffer} {d : ℕ}
    {front : UInt8} {s rest : List UInt8} {es : JsonArray ℚ (List UInt8)} (hfits : b.Fits)
    (hahead : b.ahead = front :: (s ++ Ascii.rbracket :: rest))
    (hes : ElementsText standardJson d s es) (hdepth : b.depth + d ≤ nestingLimit)
    (hfuel : 3 * (b.length - b.offset) + 1 ≤ fuel + 1) :
    parseElements (fuel + 1) b =
      .ok (elementItems (es.map .ofRat id)) (b.forward (1 + s.length)) := by
  have hroom : b.offset < b.length := offset_lt_of_head hfits (congrArg List.head? hahead)
  rw [parseElements]
  cases hes with
  | @last _ w s w' v hw hv hw' =>
    have hahead' : b.ahead = front :: (w ++ (s ++ (w' ++ Ascii.rbracket :: rest))) := by
      rw [hahead]
      simp only [List.append_assoc]
    have hvalue := h.value_behind hfits hahead' hv hdepth (endsNumber hw' (by decide)) (by omega)
    have hend : (b.forward (1 + (w ++ (s ++ w')).length)).ahead = Ascii.rbracket :: rest := by
      rw [Nat.add_comm]
      exact ahead_forward_of_eq (t := front :: (w ++ (s ++ w'))) hfits hahead
    rw [parseItem_standard hfits hahead' (jsonText_head hv) hw hw' (by decide) hvalue,
      bind_of_ok (nextIs_eq (hfits.forward _) Ascii.comma), hend, if_neg (by simp +decide)]
    rfl
  | @more _ w s w' t v es hw hv hw' ht =>
    have hahead' : b.ahead =
        front :: (w ++ (s ++ (w' ++ Ascii.comma :: (t ++ Ascii.rbracket :: rest)))) := by
      rw [hahead]
      simp only [List.append_assoc, List.cons_append]
    have hvalue := h.value_behind hfits hahead' hv hdepth (endsNumber hw' (by decide)) (by omega)
    have hcomma : (b.forward (1 + (w ++ (s ++ w')).length)).ahead =
        Ascii.comma :: (t ++ Ascii.rbracket :: rest) := by
      rw [Nat.add_comm]
      refine ahead_forward_of_eq (t := front :: (w ++ (s ++ w'))) hfits ?_
      rw [hahead']
      simp only [List.append_assoc, List.cons_append]
    have hmore := h.elements (hfits.forward _) hcomma ht hdepth
      (by rw [length_forward_sub]; omega)
    rw [parseItem_standard hfits hahead' (jsonText_head hv) hw hw' (by decide) hvalue,
      bind_of_ok (nextIs_eq (hfits.forward _) Ascii.comma), hcomma, if_pos (by simp),
      bind_of_ok hmore, ParseBuffer.forward_forward]
    have hlen : 1 + (w ++ (s ++ w')).length + (1 + t.length) =
        1 + (w ++ (s ++ (w' ++ Ascii.comma :: t))).length := by
      simp only [List.length_append, List.length_cons]
      omega
    rw [hlen]
    rfl

/-- **The name of a member** is read up to the colon. -/
theorem parseName_standard {b : ParseBuffer} {front : UInt8} {w k w' rest name : List UInt8}
    (hfits : b.Fits) (hahead : b.ahead = front :: (w ++ (k ++ (w' ++ Ascii.colon :: rest))))
    (hw : ∀ c ∈ w, standardJson.blank c) (hk : standardJson.string k name)
    (hw' : ∀ c ∈ w', standardJson.blank c) :
    parseName b = .ok name (b.forward (1 + (w ++ (k ++ w')).length)) := by
  obtain ⟨body, rfl, -⟩ := id hk
  have haccess : ¬ b.canAccessAtIndex 1 = false := by
    have hlen := hfits.length_ahead
    rw [hahead] at hlen
    simp only [List.length_cons, List.length_append] at hlen
    rw [canAccessAtIndex_eq_true (by omega)]
    simp
  have hbehind : (b.forward 1).ahead =
      w ++ Ascii.quote :: ((body ++ [Ascii.quote]) ++ (w' ++ Ascii.colon :: rest)) :=
    ahead_forward_of_eq (t := [front]) hfits hahead
  have hskip := skip_blanks (hfits.forward 1) hbehind hw (by decide)
  rw [ParseBuffer.forward_forward] at hskip
  have hstring : (b.forward (1 + w.length)).ahead =
      Ascii.quote :: (body ++ [Ascii.quote]) ++ (w' ++ Ascii.colon :: rest) := by
    rw [Nat.add_comm]
    exact ahead_forward_of_eq (t := front :: w) hfits hahead
  have hname := parseString_standard (hfits.forward _) hk hstring
  rw [ParseBuffer.forward_forward] at hname
  generalize Ascii.quote :: (body ++ [Ascii.quote]) = k at *
  have hrest : (b.forward (1 + w.length + k.length)).ahead = w' ++ Ascii.colon :: rest := by
    have hlen : 1 + w.length + k.length = (front :: (w ++ k)).length := by
      simp only [List.length_cons, List.length_append]
      omega
    rw [hlen]
    refine ahead_forward_of_eq hfits ?_
    rw [hahead]
    simp only [List.cons_append, List.append_assoc]
  have hskip' := skip_blanks (hfits.forward _) hrest hw' (by decide)
  rw [ParseBuffer.forward_forward] at hskip'
  have hlen : 1 + w.length + k.length + w'.length = 1 + (w ++ (k ++ w')).length := by
    simp only [List.length_append]
    omega
  have hcolon : (b.forward (1 + (w ++ (k ++ w')).length)).ahead = Ascii.colon :: rest := by
    rw [Nat.add_comm]
    refine ahead_forward_of_eq (t := front :: (w ++ (k ++ w'))) hfits ?_
    rw [hahead]
    simp only [List.cons_append, List.append_assoc]
  rw [parseName, bind_get, if_neg haccess, bind_of_ok (advance_eq 1), bind_of_ok hskip,
    bind_of_ok hname, bind_of_ok hskip', hlen, bind_of_ok (nextIs_eq (hfits.forward _) Ascii.colon),
    hcolon, if_pos (by simp)]
  rfl

/-- A member, up to the byte behind it. -/
theorem CompleteSpec.member {fuel : ℕ} (h : CompleteSpec fuel) {b : ParseBuffer} {d : ℕ}
    {front c : UInt8} {w k w' u s u' rest name : List UInt8} {v : Json ℚ (List UInt8)}
    {more : Parse CJson} (hfits : b.Fits)
    (hahead : b.ahead = front :: ((w ++ (k ++ (w' ++ Ascii.colon :: (u ++ (s ++ u'))))) ++ c :: rest))
    (hw : ∀ c ∈ w, standardJson.blank c) (hk : standardJson.string k name)
    (hw' : ∀ c ∈ w', standardJson.blank c) (hu : ∀ c ∈ u, standardJson.blank c)
    (hv : JsonText standardJson d s v) (hu' : ∀ c ∈ u', standardJson.blank c)
    (hdepth : b.depth + d ≤ nestingLimit) (hc : IsVisible c) (hends : isNumberByte c = false)
    (hfuel : 3 * (b.length - b.offset) ≤ fuel) :
    (parseName >>= fun string => parseItem (some string) (parseValue fuel) more) b =
      (do
        if (← nextIs Ascii.comma) = true then
          return .item (some name) (itemFields (rounded v)) (itemChild (rounded v)) (← more)
        else return .item (some name) (itemFields (rounded v)) (itemChild (rounded v)) .null :
        Parse CJson)
        (b.forward (1 + (w ++ (k ++ (w' ++ Ascii.colon :: (u ++ (s ++ u'))))).length)) := by
  have hname : b.ahead =
      front :: (w ++ (k ++ (w' ++ Ascii.colon :: (u ++ (s ++ (u' ++ c :: rest)))))) := by
    rw [hahead]
    simp only [List.append_assoc, List.cons_append]
  set p := b.forward (1 + (w ++ (k ++ w')).length) with hp
  have hfits' : p.Fits := hfits.forward _
  have hcolon : p.ahead = Ascii.colon :: (u ++ (s ++ (u' ++ c :: rest))) := by
    rw [hp, Nat.add_comm]
    refine ahead_forward_of_eq (t := front :: (w ++ (k ++ w'))) hfits ?_
    rw [hname]
    simp only [List.cons_append, List.append_assoc]
  have hroom : 3 * (p.length - p.offset) ≤ fuel := by
    rw [hp, length_forward_sub]
    omega
  have hvalue := h.value_behind hfits' hcolon hv hdepth (endsNumber hu' hends) hroom
  have hlen : 1 + (w ++ (k ++ w')).length + (1 + (u ++ (s ++ u')).length) =
      1 + (w ++ (k ++ (w' ++ Ascii.colon :: (u ++ (s ++ u'))))).length := by
    simp only [List.length_append, List.length_cons]
    omega
  rw [bind_of_ok (parseName_standard hfits hname hw hk hw'), ← hp,
    parseItem_standard hfits' hcolon (jsonText_head hv) hu hu' hc hvalue, hp,
    ParseBuffer.forward_forward, hlen]

theorem CompleteSpec.members_step {fuel : ℕ} (h : CompleteSpec fuel) {b : ParseBuffer} {d : ℕ}
    {front : UInt8} {s rest : List UInt8} {ms : JsonObject ℚ (List UInt8)} (hfits : b.Fits)
    (hahead : b.ahead = front :: (s ++ Ascii.rbrace :: rest))
    (hms : MembersText standardJson d s ms) (hdepth : b.depth + d ≤ nestingLimit)
    (hfuel : 3 * (b.length - b.offset) + 1 ≤ fuel + 1) :
    parseMembers (fuel + 1) b =
      .ok (memberItems (ms.map .ofRat id)) (b.forward (1 + s.length)) := by
  rw [parseMembers]
  cases hms with
  | @last _ w k w' u s u' name v hw hk hw' hu hv hu' =>
    have hend : (b.forward (1 + (w ++ (k ++ (w' ++ Ascii.colon :: (u ++ (s ++ u'))))).length)).ahead =
        Ascii.rbrace :: rest := by
      rw [Nat.add_comm]
      exact ahead_forward_of_eq (t := front :: _) hfits hahead
    rw [h.member hfits hahead hw hk hw' hu hv hu' hdepth (by decide) (by decide) (by omega),
      bind_of_ok (nextIs_eq (hfits.forward _) Ascii.comma), hend, if_neg (by simp +decide)]
    rfl
  | @more _ w k w' u s u' t name v ms hw hk hw' hu hv hu' ht =>
    have hahead' : b.ahead = front :: ((w ++ (k ++ (w' ++ Ascii.colon :: (u ++ (s ++ u'))))) ++
        Ascii.comma :: (t ++ Ascii.rbrace :: rest)) := by
      rw [hahead]
      simp only [List.append_assoc, List.cons_append]
    have hcomma : (b.forward (1 +
        (w ++ (k ++ (w' ++ Ascii.colon :: (u ++ (s ++ u'))))).length)).ahead =
        Ascii.comma :: (t ++ Ascii.rbrace :: rest) := by
      rw [Nat.add_comm]
      exact ahead_forward_of_eq (t := front :: _) hfits hahead'
    have hroom : b.offset < b.length := offset_lt_of_head hfits (congrArg List.head? hahead)
    have hmore := h.members (hfits.forward _) hcomma ht hdepth
      (by rw [length_forward_sub]; omega)
    have hlen : 1 + (w ++ (k ++ (w' ++ Ascii.colon :: (u ++ (s ++ u'))))).length +
        (1 + t.length) = 1 + (w ++ (k ++ (w' ++ Ascii.colon ::
          (u ++ (s ++ (u' ++ Ascii.comma :: t)))))).length := by
      simp only [List.length_append, List.length_cons]
      omega
    rw [h.member hfits hahead' hw hk hw' hu hv hu' hdepth (by decide) (by decide) (by omega),
      bind_of_ok (nextIs_eq (hfits.forward _) Ascii.comma), hcomma, if_pos (by simp),
      bind_of_ok hmore, ParseBuffer.forward_forward, hlen]
    rfl

/-- By induction on the fuel. -/
theorem completeSpec (fuel : ℕ) : CompleteSpec fuel := by
  induction fuel with
  | zero =>
    constructor
    all_goals
      intros
      omega
  | succ fuel ih =>
    exact ⟨ih.value_step, ih.array_step, ih.elements_step, ih.object_step, ih.members_step⟩

/-! ### Every text -/

theorem skipUtf8Bom_eq {b : ParseBuffer} (hfits : b.Fits) : ∀ {bom : List UInt8},
    bom = [] ∨ bom = utf8Bom → ∀ {t : List UInt8} {c : UInt8}, b.ahead = bom ++ c :: t → t ≠ [] →
    c ≠ 0xef → skipUtf8Bom b = .ok ⟨⟩ (b.forward bom.length) := by
  rintro _ (rfl | rfl) t c hahead hne hc
  · have hbom : ¬ utf8Bom <+: b.ahead := by
      refine not_word_prefix (congrArg List.head? hahead) (by decide) ?_
      exact fun h => hc (Option.some_inj.mp h).symm
    rw [skipUtf8Bom, bind_get]
    split_ifs
    · rw [bind_of_ok (startsWith_eq hfits (by decide)),
        show decide ([0xef, 0xbb, 0xbf] <+: b.ahead) = false from decide_eq_false hbom]
      rfl
    · rfl
  · have hbom : utf8Bom <+: b.ahead := ⟨c :: t, hahead.symm⟩
    have haccess : b.canAccessAtIndex 4 = true := by
      have hlen := hfits.length_ahead
      have hpos := List.length_pos_iff.mpr hne
      rw [hahead] at hlen
      simp only [utf8Bom, List.cons_append, List.nil_append, List.length_cons] at hlen
      exact canAccessAtIndex_eq_true (by omega)
    rw [skipUtf8Bom, bind_get, if_pos haccess, bind_of_ok (startsWith_eq hfits (by decide)),
      show decide ([0xef, 0xbb, 0xbf] <+: b.ahead) = true from decide_eq_true hbom]
    rfl

/-- A JSON text in a buffer, behind a byte order mark and blanks. -/
theorem cJSONParseWithLength_standard {bom w s rest : List UInt8} {d : ℕ}
    {v : Json ℚ (List UInt8)} (hbom : bom = [] ∨ bom = utf8Bom)
    (hw : ∀ c ∈ w, standardJson.blank c) (hv : JsonText standardJson d s v) (hd : d ≤ nestingLimit)
    (hne : rest ≠ []) (hrest : v.IsNumber → ∀ c ∈ rest.head?, isNumberByte c = false) :
    ∃ b, cJSONParseWithLength (bom ++ (w ++ (s ++ rest))) (bom ++ (w ++ (s ++ rest))).length =
      .ok (itemFields (rounded v), itemChild (rounded v)) b := by
  obtain ⟨c, t, hs, hc⟩ := jsonText_head hv
  set b : ParseBuffer := ⟨bom ++ (w ++ (s ++ rest)), (bom ++ (w ++ (s ++ rest))).length, 0, 0⟩
    with hb
  have hfits : b.Fits := rfl
  have hahead : b.ahead = bom ++ (w ++ (s ++ rest)) := hfits.ahead
  have hmark : skipUtf8Bom b = .ok ⟨⟩ (b.forward bom.length) := by
    cases w with
    | nil =>
      rw [hs] at hahead
      exact skipUtf8Bom_eq hfits hbom hahead (by simp [hne]) hc.mark
    | cons u w =>
      refine skipUtf8Bom_eq hfits hbom hahead (by simp [hne]) ?_
      rintro rfl
      exact absurd (le_of_blank (hw _ List.mem_cons_self)) (by decide)
  have hstart : (b.forward bom.length).ahead = w ++ (s ++ rest) :=
    ahead_forward_of_eq hfits hahead
  have hskip : bufferSkipWhitespace (b.forward bom.length) =
      .ok ⟨⟩ (b.forward (bom.length + w.length)) := by
    rw [← ParseBuffer.forward_forward]
    rw [hs] at hstart
    exact skip_blanks (hfits.forward _) hstart hw hc.visible
  have htext : (b.forward (bom.length + w.length)).ahead = s ++ rest := by
    rw [← ParseBuffer.forward_forward]
    exact ahead_forward_of_eq (hfits.forward _) hstart
  refine ⟨(b.forward (bom.length + w.length)).forward s.length, ?_⟩
  show (skipUtf8Bom >>= fun _ => bufferSkipWhitespace >>= fun _ =>
    parseValue (3 * (bom ++ (w ++ (s ++ rest))).length + 3)) b = _
  rw [bind_of_ok hmark, bind_of_ok hskip]
  refine (completeSpec _).value (hfits.forward _) htext hv (by show 0 + d ≤ _; omega) hrest ?_
  rw [length_forward_sub]
  show 3 * ((bom ++ (w ++ (s ++ rest))).length - 0 - _) + 3 ≤ _
  omega

end Sentry
