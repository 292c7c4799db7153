/-
What the parser of the device accepts (`parse_value` in `src/json/cJSON.c`).

Whatever the bytes, the parser ends without leaving the buffer, and what it accepts is a text of
its dialect, in which more is blank and strings and numbers are less strict than in JSON.

* `deviceJson` — the dialect;
* `itemFields`, `itemChild` — the items of a value;
* `parseChildren_ends`, `parseItem_ends` — arrays and objects, from the loops;
* `parseValue_ends` — the recursion, by induction on the fuel;
* `cJSONParse_ends` — `cJSON_Parse`, for every string.
-/
import Mathlib.Data.List.TakeWhile
import SentrySystem.CJsonString

namespace Sentry

open Checked

/-! ### The dialect -/

/-- The texts the parser accepts. -/
def deviceJson : JsonDialect Binary64 (List UInt8) where
  blank c := c ≤ 32
  number s x := ∃ lit : DecimalLit, s = lit.text ∧ x = .ofRat lit.value ∧
    ∃ c ∈ s.head?, c = minusByte ∨ (byteDigit c).isSome
  string := IsQuoted

/-- The members of the item of a value. -/
def itemFields : Json Binary64 (List UInt8) → CJsonFields
  | .null => { newItem with type := .null }
  | .bool false => { newItem with type := .false }
  | .bool true => { newItem with type := .true, valueint := 1 }
  | .number x => { newItem with type := .number, valuedouble := x, valueint := x.toInt }
  | .string s => stringItem s
  | .array _ => { newItem with type := .array }
  | .object _ => { newItem with type := .object }

mutual

/-- The `child` of the item of a value. -/
def itemChild : Json Binary64 (List UInt8) → CJson
  | .array es => elementItems es
  | .object ms => memberItems ms
  | .null | .bool _ | .number _ | .string _ => .null

/-- The list of the items of an array. -/
def elementItems : JsonArray Binary64 (List UInt8) → CJson
  | .nil => .null
  | .cons e rest => .item none (itemFields e) (itemChild e) (elementItems rest)

/-- The list of the items of an object. -/
def memberItems : JsonObject Binary64 (List UInt8) → CJson
  | .nil => .null
  | .cons name v rest => .item (some name) (itemFields v) (itemChild v) (memberItems rest)

end

/-! ### What lies ahead -/

theorem singleton_prefix_iff {c : UInt8} {l : List UInt8} : [c] <+: l ↔ l.head? = some c := by
  cases l with
  | nil => simp
  | cons d l => simp [List.cons_prefix_cons, eq_comm]

section Buffer

variable {b : ParseBuffer}

theorem startsWith_eq (hfits : b.Fits) {word : List UInt8} (hword : word ≠ []) :
    startsWith word b = .ok (decide (word <+: b.ahead)) b := by
  have hlen : b.content.length = b.length := hfits
  rw [startsWith, ParseBuffer.canRead]
  by_cases hread : b.offset + word.length ≤ b.length
  · rw [if_pos (decide_eq_true hread), if_pos (hlen ▸ hread), hfits.ahead]
    congr 1
    exact decide_eq_decide.mpr (by rw [List.prefix_iff_eq_take, eq_comm])
  · have hnot : ¬ word <+: b.ahead := by
      intro h
      have hle := hfits.length_le_of_prefix h
      have hpos := List.length_pos_iff.mpr hword
      omega
    rw [if_neg (by rw [decide_eq_true_iff]; exact hread), decide_eq_false hnot]

/-- Nothing lies ahead, or a byte that can be read. -/
theorem ahead_cases (hfits : b.Fits) :
    (b.length ≤ b.offset ∧ b.ahead = []) ∨
      ∃ c, b.offset < b.length ∧ bufferAtOffset 0 b = .ok c b ∧ b.ahead.head? = some c := by
  have hlen : b.content.length = b.length := hfits
  rcases Nat.lt_or_ge b.offset b.length with hlt | hge
  · obtain ⟨c, hc, hread⟩ := exists_byteAt (b := b) b.offset (by omega)
    refine .inr ⟨c, hlt, hread, ?_⟩
    rw [hfits.ahead, drop_of_getElem? hc]
    rfl
  · refine .inl ⟨hge, ?_⟩
    rw [hfits.ahead]
    exact List.drop_eq_nil_of_le (by omega)

theorem offset_lt_of_head (hfits : b.Fits) {c : UInt8} (h : b.ahead.head? = some c) :
    b.offset < b.length := by
  rcases ahead_cases hfits with ⟨-, hahead⟩ | ⟨d, hlt, -, -⟩
  · rw [hahead] at h
    cases h
  · exact hlt

theorem canAccessAtIndex_eq_true {i : ℕ} (h : b.offset + i < b.length) :
    b.canAccessAtIndex i = true :=
  decide_eq_true h

theorem canAccessAtIndex_eq_false {i : ℕ} (h : b.length ≤ b.offset + i) :
    b.canAccessAtIndex i = false :=
  decide_eq_false (Nat.not_lt.mpr h)

theorem nextIs_eq (hfits : b.Fits) (c : UInt8) :
    nextIs c b = .ok (decide (b.ahead.head? = some c)) b := by
  rw [nextIs, bind_get]
  rcases ahead_cases hfits with ⟨hend, hahead⟩ | ⟨d, hlt, hread, hahead⟩
  · rw [if_neg (by rw [canAccessAtIndex_eq_false hend]; simp), hahead]
    rfl
  · rw [if_pos (canAccessAtIndex_eq_true hlt), bind_of_ok hread, hahead]
    simp

theorem nextIsNumber_eq (hfits : b.Fits) : nextIsNumber b =
    .ok (b.ahead.head?.any fun c => decide (c = minusByte) || (byteDigit c).isSome) b := by
  rw [nextIsNumber, bind_get]
  rcases ahead_cases hfits with ⟨hend, hahead⟩ | ⟨d, hlt, hread, hahead⟩
  · rw [if_neg (by rw [canAccessAtIndex_eq_false hend]; simp), hahead]
    rfl
  · rw [if_pos (canAccessAtIndex_eq_true hlt), bind_of_ok hread, hahead]
    rfl

/-- How far `buffer_skip_whitespace` goes; it leaves one byte. -/
def skipLength (s : List UInt8) : ℕ :=
  if (s.takeWhile fun c => decide (c ≤ 32)).length = s.length then s.length - 1
  else (s.takeWhile fun c => decide (c ≤ 32)).length

theorem bufferSkipWhitespace_eq (hfits : b.Fits) :
    bufferSkipWhitespace b = .ok ⟨⟩ (b.forward (skipLength b.ahead)) := by
  rw [bufferSkipWhitespace, modify_apply]
  rcases ahead_cases hfits with ⟨hend, hahead⟩ | ⟨d, hlt, -, -⟩
  · rw [if_neg (by rw [canAccessAtIndex_eq_false hend]; simp), hahead]
    rfl
  · rw [if_pos (canAccessAtIndex_eq_true hlt)]
    have hlen := hfits.length_ahead
    simp only [skipLength, ParseBuffer.forward]
    congr 2
    split_ifs
    · omega
    · omega
    · omega
    · rfl

/-- The blanks that are skipped. -/
theorem exists_skipped (s : List UInt8) :
    ∃ w, skipLength s = w.length ∧ w <+: s ∧ (∀ c ∈ w, c ≤ 32) ∧ w.length ≤ s.length - 1 := by
  have hle : skipLength s ≤ s.length - 1 := by
    have hrun := (List.takeWhile_prefix (p := fun c => decide (c ≤ 32)) (l := s)).length_le
    rw [skipLength]
    split_ifs with hall
    · exact le_rfl
    · omega
  have hskipped : s.take (skipLength s) <+: s.takeWhile fun c => decide (c ≤ 32) := by
    rw [skipLength]
    split_ifs with hall
    · rw [(List.takeWhile_prefix _).eq_of_length hall]
      exact List.take_prefix _ _
    · rw [(List.prefix_iff_eq_take.mp (List.takeWhile_prefix _)).symm]
  have hlen : (s.take (skipLength s)).length = skipLength s :=
    List.length_take_of_le (hle.trans (Nat.sub_le _ _))
  refine ⟨s.take (skipLength s), hlen.symm, List.take_prefix _ _, ?_, hlen.trans_le hle⟩
  intro c hc
  exact of_decide_eq_true
    (List.mem_takeWhile_imp (p := fun c => decide (c ≤ 32)) (hskipped.subset hc))

theorem exists_skip (hfits : b.Fits) : ∃ w, w <+: b.ahead ∧ (∀ c ∈ w, c ≤ 32) ∧
    bufferSkipWhitespace b = .ok ⟨⟩ (b.forward w.length) ∧ w.length ≤ b.ahead.length - 1 := by
  obtain ⟨w, hlen, hprefix, hblank, hle⟩ := exists_skipped b.ahead
  exact ⟨w, hprefix, hblank, hlen ▸ bufferSkipWhitespace_eq hfits, hle⟩

theorem advance_eq (n : ℕ) : advance n b = .ok ⟨⟩ (b.forward n) := rfl

theorem stepBack_eq (n : ℕ) : stepBack (b.forward (1 + n)) = .ok ⟨⟩ (b.forward n) := by
  rw [stepBack, modify_apply]
  congr 1
  show ({ b with offset := b.offset + (1 + n) - 1 } : ParseBuffer) = b.forward n
  exact ParseBuffer.eq_forward (by omega)

/-- Blanks are skipped up to the first byte that is none. -/
theorem skipLength_append {w rest : List UInt8} {c : UInt8} (hw : ∀ c ∈ w, c ≤ 32) (hc : ¬ c ≤ 32) :
    skipLength (w ++ c :: rest) = w.length := by
  have hrun : ((w ++ c :: rest).takeWhile fun c => decide (c ≤ 32)) = w := by
    rw [List.takeWhile_append_of_pos fun c hc => decide_eq_true (hw c hc),
      List.takeWhile_cons_of_neg (by simpa using hc), List.append_nil]
  rw [skipLength, hrun, if_neg]
  simp

end Buffer

/-! ### Numbers -/

theorem text_ne_nil (lit : DecimalLit) : lit.text ≠ [] := by
  intro h
  simp only [DecimalLit.text, List.append_eq_nil_iff, List.map_eq_nil_iff] at h
  obtain ⟨-, hint, hfrac, -⟩ := h
  apply lit.digits_ne
  cases hf : lit.frac with
  | none => simp [hint]
  | some ds =>
    rw [hf] at hfrac
    cases hfrac

/-- The number `strtod` takes from the bytes ahead. -/
theorem strtod_sound {s : List UInt8} {x : Binary64} {n : ℕ} (h : strtod s = some (x, n)) :
    ∃ lit : DecimalLit, lit.text <+: s ∧ n = lit.text.length ∧ x = .ofRat lit.value := by
  obtain ⟨⟨lit, rest⟩, hscan, heq⟩ := Option.map_eq_some_iff.mp h
  obtain ⟨rfl, rfl⟩ := Prod.mk.inj heq
  have hs := scanDecimal_sound hscan
  refine ⟨lit, ⟨rest, hs.symm⟩, ?_, rfl⟩
  rw [hs, List.length_append]
  exact Nat.add_sub_cancel _ _

/-- **A number** is read as far as `strtod` takes it. -/
theorem parseNumber_ends {b : ParseBuffer}
    (hnumber : ∃ c ∈ b.ahead.head?, c = minusByte ∨ (byteDigit c).isSome) :
    Ends parseNumber b
      (Reads b fun s fields => ∃ x, deviceJson.number s x ∧ fields = itemFields (.number x))
      (fun _ => True) := by
  cases hx : strtod (b.ahead.takeWhile isNumberByte) with
  | none =>
    refine .of_fail (t := b) ?_ trivial
    rw [parseNumber, hx]
  | some r =>
    obtain ⟨x, n⟩ := r
    obtain ⟨lit, hlit, rfl, rfl⟩ := strtod_sound hx
    have hahead : lit.text <+: b.ahead := hlit.trans (List.takeWhile_prefix _)
    have hhead : lit.text.head? = b.ahead.head? := by
      obtain ⟨rest, hrest⟩ := hahead
      rw [← hrest, List.head?_append_of_ne_nil _ (text_ne_nil lit)]
    refine .of_ok (t := b.forward lit.text.length) ?_
      ⟨lit.text, hahead, rfl, _, ⟨lit, rfl, rfl, by rwa [hhead]⟩, rfl⟩
    rw [parseNumber, hx]
    rfl

/-! ### Arrays and objects -/

/-- The buffer one level deeper. -/
def ParseBuffer.deeper (b : ParseBuffer) : ParseBuffer := { b with depth := b.depth + 1 }

/-- What the loop of an array or object reads: `s` lies behind the next byte. -/
def ReadsBehind {α : Type} (b : ParseBuffer) (P : List UInt8 → α → Prop) (a : α)
    (b' : ParseBuffer) : Prop :=
  ∃ s, s <+: b.ahead.drop 1 ∧ b' = b.forward (1 + s.length) ∧ P s a

/-- An item of `type`, without children or with those of the loop. -/
def ReadsChildren (opening closing : UInt8) (type : CJsonType)
    (P : List UInt8 → CJson → Prop) (s : List UInt8) (r : CJsonFields × CJson) : Prop :=
  ∃ w t, (∀ c ∈ w, c ≤ 32) ∧ s = opening :: (w ++ (t ++ [closing])) ∧
    r.1 = { newItem with type := type } ∧ ((t = [] ∧ r.2 = .null) ∨ P t r.2)

section Children

variable {b : ParseBuffer} {opened : Parse Bool} {opening closing : UInt8} {type : CJsonType}
variable {loop : Parse CJson} {P : List UInt8 → CJson → Prop}

/-- The closing byte behind what was read. -/
theorem closeItem_ends {n : ℕ} {head : CJson} {Q : CJsonFields × CJson → ParseBuffer → Prop}
    (h : Q ({ newItem with type := type }, head) (b.forward (n + 1))) :
    Ends (closeItem type head) (b.deeper.forward n) Q (fun _ => True) :=
  .of_ok rfl h

/-- **Arrays and objects**: blanks, or what the loop reads, between the two bytes. -/
theorem parseChildren_ends (hfits : b.Fits) (hoffset : b.offset < b.length)
    (hopened : ∀ b' : ParseBuffer, b'.Fits → b'.offset < b'.length →
      opened b' = .ok (decide (b'.ahead.head? = some opening)) b')
    (hloop : ∀ n, b.offset + n < b.length → b.depth < nestingLimit →
      Ends loop (b.deeper.forward n)
        (ReadsBehind (b.deeper.forward n) P) (fun _ => True)) :
    Ends (parseChildren opened closing type loop) b
      (Reads b fun s r => b.depth < nestingLimit ∧ ReadsChildren opening closing type P s r)
      (fun _ => True) := by
  rw [parseChildren]
  refine .bind_ok rfl ?_
  by_cases hdepth : nestingLimit ≤ b.depth
  · rw [if_pos hdepth]
    exact .of_fail rfl trivial
  rw [if_neg hdepth]
  have hdeep : b.depth < nestingLimit := Nat.lt_of_not_le hdepth
  have hfits' : (b.deeper).Fits := hfits
  refine .bind_ok rfl (.bind_ok (hopened b.deeper hfits hoffset) ?_)
  by_cases hopen : b.deeper.ahead.head? = some opening
  swap
  · rw [if_pos (by simpa using hopen)]
    exact .of_fail rfl trivial
  rw [if_neg (by simpa using hopen)]
  have hprefix : [opening] <+: b.ahead := singleton_prefix_iff.mpr hopen
  -- what is skipped
  obtain ⟨w, hw, hblank, hskip, -⟩ := exists_skip (hfits'.forward 1)
  rw [hfits'.ahead_forward] at hw
  rw [ParseBuffer.forward_forward] at hskip
  have hskipped : opening :: w <+: b.ahead := prefix_append hprefix hw
  refine .bind_ok (advance_eq 1) (.bind_ok hskip ?_)
  have hahead := hfits'.ahead_forward (1 + w.length)
  refine .bind_ok (nextIs_eq (hfits'.forward _) closing) ?_
  by_cases hclose : (b.deeper.forward (1 + w.length)).ahead.head? = some closing
  · rw [if_pos (decide_eq_true hclose)]
    refine closeItem_ends ⟨opening :: (w ++ [closing]), ?_, ?_, hdeep, w, [], hblank, rfl, rfl,
      .inl ⟨rfl, rfl⟩⟩
    · rw [hahead, Nat.add_comm] at hclose
      exact prefix_append hskipped (singleton_prefix_iff.mpr hclose)
    · congr 1
      simp only [List.length_cons, List.length_append, List.length_nil]
      omega
  rw [if_neg (by simpa using hclose)]
  refine .bind_ok rfl ?_
  by_cases haccess : (b.deeper.forward (1 + w.length)).canAccessAtIndex 0 = false
  · rw [if_pos haccess]
    exact .of_fail rfl trivial
  rw [if_neg haccess]
  rw [Bool.not_eq_false, ParseBuffer.canAccessAtIndex, decide_eq_true_iff] at haccess
  have hroom : b.offset + (1 + w.length) < b.length := haccess
  refine .bind_ok (stepBack_eq w.length) (.bind (hloop w.length (by omega) hdeep) ?_)
  rintro head b' ⟨t, ht, rfl, hP⟩
  rw [ParseBuffer.forward_forward]
  rw [hfits'.ahead_forward, List.drop_drop] at ht
  have hread : opening :: (w ++ t) <+: b.ahead := prefix_append hskipped ht
  refine .bind_ok (nextIs_eq (hfits'.forward _) closing) ?_
  have hahead := hfits'.ahead_forward (w.length + (1 + t.length))
  by_cases hclose : (b.deeper.forward (w.length + (1 + t.length))).ahead.head? = some closing
  · rw [if_pos (decide_eq_true hclose)]
    refine closeItem_ends ⟨opening :: (w ++ (t ++ [closing])), ?_, ?_, hdeep, w, t, hblank, rfl,
      rfl, .inr hP⟩
    · have hlen : w.length + (1 + t.length) = (opening :: (w ++ t)).length := by
        simp only [List.length_cons, List.length_append]
        omega
      rw [hahead, hlen] at hclose
      rw [← List.append_assoc]
      exact prefix_append hread (singleton_prefix_iff.mpr hclose)
    · congr 1
      simp only [List.length_cons, List.length_append, List.length_nil]
      omega
  · rw [if_neg (by simpa using hclose)]
    exact .of_fail rfl trivial

end Children

/-- **A round of their loops**: blanks around a value, and more behind a comma. -/
theorem parseItem_ends {b : ParseBuffer} (hfits : b.Fits) {string : Option (List UInt8)}
    {value : Parse (CJsonFields × CJson)} {more : Parse CJson}
    {P : List UInt8 → CJsonFields × CJson → Prop} {R : List UInt8 → CJson → Prop}
    (hvalue : ∀ n, Ends value (b.forward (1 + n)) (Reads (b.forward (1 + n)) P) (fun _ => True))
    (hmore : ∀ n, b.offset + (1 + n) < b.length →
      Ends more (b.forward (1 + n)) (ReadsBehind (b.forward (1 + n)) R) (fun _ => True)) :
    Ends (parseItem string value more) b
      (ReadsBehind b fun s item => ∃ w t w' r, (∀ c ∈ w, c ≤ 32) ∧ (∀ c ∈ w', c ≤ 32) ∧ P t r ∧
        ((s = w ++ (t ++ w') ∧ item = .item string r.1 r.2 .null) ∨
          ∃ u next, R u next ∧ s = w ++ (t ++ (w' ++ Ascii.comma :: u)) ∧
            item = .item string r.1 r.2 next))
      (fun _ => True) := by
  rw [parseItem]
  obtain ⟨w, hw, hblank, hskip, -⟩ := exists_skip (hfits.forward 1)
  rw [hfits.ahead_forward] at hw
  rw [ParseBuffer.forward_forward] at hskip
  refine .bind_ok (advance_eq 1) (.bind_ok hskip (.bind (hvalue w.length) ?_))
  rintro ⟨fields, child⟩ b' ⟨t, ht, rfl, hP⟩
  rw [ParseBuffer.forward_forward]
  rw [hfits.ahead_forward, ← List.drop_drop] at ht
  have hvalue : w ++ t <+: b.ahead.drop 1 := prefix_append hw ht
  obtain ⟨w', hw', hblank', hskip', -⟩ := exists_skip (hfits.forward (1 + w.length + t.length))
  rw [hfits.ahead_forward, Nat.add_assoc, ← List.drop_drop, ← List.length_append] at hw'
  rw [ParseBuffer.forward_forward] at hskip'
  have hbehind : w ++ t ++ w' <+: b.ahead.drop 1 := prefix_append hvalue hw'
  refine .bind_ok hskip' (.bind_ok (nextIs_eq (hfits.forward _) Ascii.comma) ?_)
  have hahead := hfits.ahead_forward (1 + w.length + t.length + w'.length)
  by_cases hcomma :
      (b.forward (1 + w.length + t.length + w'.length)).ahead.head? = some Ascii.comma
  · rw [if_pos (decide_eq_true hcomma)]
    have hlt := offset_lt_of_head (hfits.forward _) hcomma
    have hlen : 1 + w.length + t.length + w'.length = 1 + (w ++ t ++ w').length := by
      simp only [List.length_append]
      omega
    rw [hlen] at hahead hcomma hlt ⊢
    refine .bind (hmore _ hlt) ?_
    rintro next b'' ⟨u, hu, rfl, hR⟩
    rw [ParseBuffer.forward_forward]
    rw [hahead, ← List.drop_drop] at hcomma
    have hread := prefix_append hbehind (singleton_prefix_iff.mpr hcomma)
    rw [hahead, List.drop_drop, Nat.add_assoc, ← List.drop_drop] at hu
    have hlen' : (w ++ t ++ w' ++ [Ascii.comma]).length = (w ++ t ++ w').length + 1 := by
      rw [List.length_append, List.length_singleton]
    rw [← hlen'] at hu
    refine .of_ok rfl ⟨w ++ (t ++ (w' ++ Ascii.comma :: u)), ?_, ?_, w, t, w', (fields, child),
      hblank, hblank', hP, .inr ⟨u, next, hR, rfl, rfl⟩⟩
    · have hall := prefix_append hread hu
      simpa only [List.append_assoc, List.singleton_append] using hall
    · congr 1
      simp only [List.length_append, List.length_cons]
      omega
  · rw [if_neg (by simpa using hcomma)]
    refine .of_ok rfl ⟨w ++ (t ++ w'), ?_, ?_, w, t, w', (fields, child), hblank, hblank', hP,
      .inl ⟨rfl, rfl⟩⟩
    · rwa [← List.append_assoc]
    · congr 1
      simp only [List.length_append]
      omega

/-- **The name of a member**: blanks around a string, in front of a colon. -/
theorem parseName_ends {b : ParseBuffer} (hfits : b.Fits) :
    Ends parseName b
      (fun name b' => b'.ahead.head? = some Ascii.colon ∧
        ReadsBehind b (fun s _ => ∃ w k w', (∀ c ∈ w, c ≤ 32) ∧ (∀ c ∈ w', c ≤ 32) ∧
          deviceJson.string k name ∧ s = w ++ (k ++ w')) name b')
      (fun _ => True) := by
  rw [parseName]
  refine .bind_ok rfl ?_
  by_cases haccess : b.canAccessAtIndex 1 = false
  · rw [if_pos haccess]
    exact .of_fail rfl trivial
  rw [if_neg haccess]
  rw [Bool.not_eq_false, ParseBuffer.canAccessAtIndex, decide_eq_true_iff] at haccess
  obtain ⟨w, hw, hblank, hskip, hle⟩ := exists_skip (hfits.forward 1)
  rw [(hfits.forward 1).length_ahead] at hle
  rw [hfits.ahead_forward] at hw
  rw [ParseBuffer.forward_forward] at hskip
  have hroom : (b.forward (1 + w.length)).offset < (b.forward (1 + w.length)).length := by
    have hle' : w.length ≤ b.length - (b.offset + 1) - 1 := hle
    show b.offset + (1 + w.length) < b.length
    omega
  refine .bind_ok (advance_eq 1) (.bind_ok hskip
    (.bind (parseString_ends (hfits.forward _) hroom) ?_))
  rintro name b' ⟨k, hk, rfl, hquoted⟩
  rw [ParseBuffer.forward_forward]
  rw [hfits.ahead_forward, ← List.drop_drop] at hk
  have hname : w ++ k <+: b.ahead.drop 1 := prefix_append hw hk
  obtain ⟨w', hw', hblank', hskip', -⟩ := exists_skip (hfits.forward (1 + w.length + k.length))
  rw [hfits.ahead_forward, Nat.add_assoc, ← List.drop_drop, ← List.length_append] at hw'
  rw [ParseBuffer.forward_forward] at hskip'
  have hread : w ++ k ++ w' <+: b.ahead.drop 1 := prefix_append hname hw'
  refine .bind_ok hskip' (.bind_ok (nextIs_eq (hfits.forward _) Ascii.colon) ?_)
  by_cases hcolon :
      (b.forward (1 + w.length + k.length + w'.length)).ahead.head? = some Ascii.colon
  · rw [if_pos (decide_eq_true hcolon)]
    refine .of_ok rfl ⟨hcolon, w ++ (k ++ w'), ?_, ?_, w, k, w', hblank, hblank', hquoted, rfl⟩
    · rwa [← List.append_assoc]
    · congr 1
      simp only [List.length_append]
      omega
  · rw [if_neg (by simpa using hcolon)]
    exact .of_fail rfl trivial

/-! ### The recursion -/

/-- The text of a value, and its item. -/
def ReadsItem (d : ℕ) (s : List UInt8) (r : CJsonFields × CJson) : Prop :=
  ∃ v, JsonText deviceJson d s v ∧ r = (itemFields v, itemChild v)

/-- A value is read, as deep as the limit allows. -/
def ReadsValue (b : ParseBuffer) : CJsonFields × CJson → ParseBuffer → Prop :=
  Reads b (ReadsItem (nestingLimit - b.depth))

/-- What the calls with this fuel do, in a buffer for which it suffices. -/
structure ParseSpec (fuel : ℕ) : Prop where
  value : ∀ {b : ParseBuffer}, b.Fits → 3 * (b.length - b.offset) + 3 ≤ fuel →
    Ends (parseValue fuel) b (ReadsValue b) (fun _ => True)
  array : ∀ {b : ParseBuffer}, b.Fits → b.offset < b.length →
    3 * (b.length - b.offset) + 2 ≤ fuel →
    Ends (parseArray fuel) b (ReadsValue b) (fun _ => True)
  elements : ∀ {b : ParseBuffer}, b.Fits → b.offset < b.length →
    3 * (b.length - b.offset) + 1 ≤ fuel →
    Ends (parseElements fuel) b
      (ReadsBehind b fun s head =>
        ∃ es, ElementsText deviceJson (nestingLimit - b.depth) s es ∧ head = elementItems es)
      (fun _ => True)
  object : ∀ {b : ParseBuffer}, b.Fits → b.offset < b.length →
    3 * (b.length - b.offset) + 2 ≤ fuel →
    Ends (parseObject fuel) b (ReadsValue b) (fun _ => True)
  members : ∀ {b : ParseBuffer}, b.Fits → b.offset < b.length →
    3 * (b.length - b.offset) + 1 ≤ fuel →
    Ends (parseMembers fuel) b
      (ReadsBehind b fun s head =>
        ∃ ms, MembersText deviceJson (nestingLimit - b.depth) s ms ∧ head = memberItems ms)
      (fun _ => True)

theorem length_forward_sub {b : ParseBuffer} (n : ℕ) :
    (b.forward n).length - (b.forward n).offset = b.length - b.offset - n :=
  Nat.sub_add_eq _ _ _

/-- A word of a value. -/
theorem word_ends {b : ParseBuffer} {word : List UInt8} {v : Json Binary64 (List UInt8)}
    {r : CJsonFields × CJson} (hword : word <+: b.ahead)
    (hv : ∀ d, JsonText deviceJson d word v) (hr : r = (itemFields v, itemChild v)) :
    Ends (advance word.length >>= fun _ => pure r) b (ReadsValue b) (fun _ => True) :=
  .bind_ok (advance_eq _) (.of_ok rfl ⟨word, hword, rfl, v, hv _, hr⟩)

theorem ParseSpec.value_step {fuel : ℕ} (h : ParseSpec fuel) {b : ParseBuffer} (hfits : b.Fits)
    (hfuel : 3 * (b.length - b.offset) + 3 ≤ fuel + 1) :
    Ends (parseValue (fuel + 1)) b (ReadsValue b) (fun _ => True) := by
  rw [parseValue]
  refine .bind_ok (startsWith_eq hfits (by decide)) ?_
  by_cases hnull : Ascii.null <+: b.ahead
  · rw [if_pos (decide_eq_true hnull)]
    exact word_ends hnull (fun d => .null) rfl
  rw [if_neg (by simpa using hnull)]
  refine .bind_ok (startsWith_eq hfits (by decide)) ?_
  by_cases hfalse : Ascii.false <+: b.ahead
  · rw [if_pos (decide_eq_true hfalse)]
    exact word_ends hfalse (fun d => .bool false) rfl
  rw [if_neg (by simpa using hfalse)]
  refine .bind_ok (startsWith_eq hfits (by decide)) ?_
  by_cases htrue : Ascii.true <+: b.ahead
  · rw [if_pos (decide_eq_true htrue)]
    exact word_ends htrue (fun d => .bool true) rfl
  rw [if_neg (by simpa using htrue)]
  refine .bind_ok (nextIs_eq hfits Ascii.quote) ?_
  by_cases hquote : b.ahead.head? = some Ascii.quote
  · rw [if_pos (decide_eq_true hquote)]
    refine .bind (parseString_ends hfits (offset_lt_of_head hfits hquote)) ?_
    rintro string b' ⟨s, hs, rfl, hquoted⟩
    exact .of_ok rfl ⟨s, hs, rfl, .string string, .string hquoted, rfl⟩
  rw [if_neg (by simpa using hquote)]
  refine .bind_ok (nextIsNumber_eq hfits) ?_
  split_ifs with hnumber
  · refine .bind (parseNumber_ends ?_) ?_
    · simpa [Option.any_eq_true] using hnumber
    · rintro fields b' ⟨s, hs, rfl, x, hx, rfl⟩
      exact .of_ok rfl ⟨s, hs, rfl, .number x, .number hx, rfl⟩
  refine .bind_ok (nextIs_eq hfits Ascii.lbracket) ?_
  by_cases hbracket : b.ahead.head? = some Ascii.lbracket
  · rw [if_pos (decide_eq_true hbracket)]
    exact h.array hfits (offset_lt_of_head hfits hbracket) (by omega)
  rw [if_neg (by simpa using hbracket)]
  refine .bind_ok (nextIs_eq hfits Ascii.lbrace) ?_
  by_cases hbrace : b.ahead.head? = some Ascii.lbrace
  · rw [if_pos (decide_eq_true hbrace)]
    exact h.object hfits (offset_lt_of_head hfits hbrace) (by omega)
  · rw [if_neg (by simpa using hbrace)]
    exact .of_fail rfl trivial

/-- The first byte of an array is read without a check. -/
theorem opened_eq {b : ParseBuffer} (hfits : b.Fits) (hoffset : b.offset < b.length) :
    (do return decide ((← bufferAtOffset 0) = Ascii.lbracket) : Parse Bool) b =
      .ok (decide (b.ahead.head? = some Ascii.lbracket)) b := by
  rcases ahead_cases hfits with ⟨hend, -⟩ | ⟨c, -, hread, hahead⟩
  · omega
  · rw [bind_of_ok hread, hahead]
    simp

/-- The depth inside an array or object. -/
theorem nestingLimit_sub {depth : ℕ} (h : depth < nestingLimit) :
    nestingLimit - depth = nestingLimit - (depth + 1) + 1 := by
  omega

theorem ParseSpec.array_step {fuel : ℕ} (h : ParseSpec fuel) {b : ParseBuffer} (hfits : b.Fits)
    (hoffset : b.offset < b.length) (hfuel : 3 * (b.length - b.offset) + 2 ≤ fuel + 1) :
    Ends (parseArray (fuel + 1)) b (ReadsValue b) (fun _ => True) := by
  have hloop : ∀ n, b.offset + n < b.length → b.depth < nestingLimit →
      Ends (parseElements fuel) (b.deeper.forward n)
        (ReadsBehind (b.deeper.forward n) fun s head =>
          ∃ es, ElementsText deviceJson (nestingLimit - (b.depth + 1)) s es ∧ head = elementItems es)
        (fun _ => True) := by
    intro n hn _
    exact h.elements (b := b.deeper.forward n) hfits hn
      (by rw [length_forward_sub]; show 3 * (b.length - b.offset - n) + 1 ≤ fuel; omega)
  rw [parseArray]
  refine (parseChildren_ends hfits hoffset (fun _ => opened_eq) hloop).imp ?_ fun _ _ => trivial
  rintro ⟨fields, child⟩ b' ⟨s, hs, rfl, hdepth, w, t, hblank, rfl, rfl, hchild⟩
  rw [ReadsValue, nestingLimit_sub hdepth]
  rcases hchild with ⟨rfl, rfl⟩ | ⟨es, hes, rfl⟩
  · exact ⟨_, hs, rfl, .array .nil, .emptyArray hblank, rfl⟩
  · have htext := JsonText.array (hes.behind (D := deviceJson) hblank)
    rw [List.append_assoc] at htext
    exact ⟨_, hs, rfl, .array es, htext, rfl⟩

theorem ParseSpec.object_step {fuel : ℕ} (h : ParseSpec fuel) {b : ParseBuffer} (hfits : b.Fits)
    (hoffset : b.offset < b.length) (hfuel : 3 * (b.length - b.offset) + 2 ≤ fuel + 1) :
    Ends (parseObject (fuel + 1)) b (ReadsValue b) (fun _ => True) := by
  have hloop : ∀ n, b.offset + n < b.length → b.depth < nestingLimit →
      Ends (parseMembers fuel) (b.deeper.forward n)
        (ReadsBehind (b.deeper.forward n) fun s head =>
          ∃ ms, MembersText deviceJson (nestingLimit - (b.depth + 1)) s ms ∧ head = memberItems ms)
        (fun _ => True) := by
    intro n hn _
    exact h.members (b := b.deeper.forward n) hfits hn
      (by rw [length_forward_sub]; show 3 * (b.length - b.offset - n) + 1 ≤ fuel; omega)
  rw [parseObject]
  refine (parseChildren_ends hfits hoffset (fun _ hb _ => nextIs_eq hb Ascii.lbrace) hloop).imp ?_
    fun _ _ => trivial
  rintro ⟨fields, child⟩ b' ⟨s, hs, rfl, hdepth, w, t, hblank, rfl, rfl, hchild⟩
  rw [ReadsValue, nestingLimit_sub hdepth]
  rcases hchild with ⟨rfl, rfl⟩ | ⟨ms, hms, rfl⟩
  · exact ⟨_, hs, rfl, .object .nil, .emptyObject hblank, rfl⟩
  · have htext := JsonText.object (hms.behind (D := deviceJson) hblank)
    rw [List.append_assoc] at htext
    exact ⟨_, hs, rfl, .object ms, htext, rfl⟩

theorem ParseSpec.elements_step {fuel : ℕ} (h : ParseSpec fuel) {b : ParseBuffer} (hfits : b.Fits)
    (hoffset : b.offset < b.length) (hfuel : 3 * (b.length - b.offset) + 1 ≤ fuel + 1) :
    Ends (parseElements (fuel + 1)) b
      (ReadsBehind b fun s head =>
        ∃ es, ElementsText deviceJson (nestingLimit - b.depth) s es ∧ head = elementItems es)
      (fun _ => True) := by
  have hvalue : ∀ n, Ends (parseValue fuel) (b.forward (1 + n))
      (Reads (b.forward (1 + n)) (ReadsItem (nestingLimit - b.depth))) (fun _ => True) := by
    intro n
    refine h.value (b := b.forward (1 + n)) (hfits.forward _) ?_
    rw [length_forward_sub]
    omega
  have hmore : ∀ n, b.offset + (1 + n) < b.length →
      Ends (parseElements fuel) (b.forward (1 + n))
        (ReadsBehind (b.forward (1 + n)) fun s head =>
          ∃ es, ElementsText deviceJson (nestingLimit - b.depth) s es ∧ head = elementItems es)
        (fun _ => True) := by
    intro n hn
    refine h.elements (b := b.forward (1 + n)) (hfits.forward _) hn ?_
    rw [length_forward_sub]
    omega
  rw [parseElements]
  refine (parseItem_ends hfits hvalue hmore).imp ?_ fun _ _ => trivial
  rintro item b' ⟨s, hs, rfl, w, t, w', r, hblank, hblank', ⟨v, hv, rfl⟩, hitem⟩
  rcases hitem with ⟨rfl, rfl⟩ | ⟨u, next, ⟨es, hes, rfl⟩, rfl, rfl⟩
  · exact ⟨_, hs, rfl, .cons v .nil, .last hblank hv hblank', rfl⟩
  · exact ⟨_, hs, rfl, .cons v es, .more hblank hv hblank' hes, rfl⟩

theorem ParseSpec.members_step {fuel : ℕ} (h : ParseSpec fuel) {b : ParseBuffer} (hfits : b.Fits)
    (hoffset : b.offset < b.length) (hfuel : 3 * (b.length - b.offset) + 1 ≤ fuel + 1) :
    Ends (parseMembers (fuel + 1)) b
      (ReadsBehind b fun s head =>
        ∃ ms, MembersText deviceJson (nestingLimit - b.depth) s ms ∧ head = memberItems ms)
      (fun _ => True) := by
  rw [parseMembers]
  refine .bind (parseName_ends hfits) ?_
  rintro name b' ⟨hcolon, s, hs, rfl, u, k, u', hu, hu', hk, rfl⟩
  set p := b.forward (1 + (u ++ (k ++ u')).length) with hp
  have hfits' : p.Fits := hfits.forward _
  have hlen : p.length - p.offset = b.length - b.offset - (1 + (u ++ (k ++ u')).length) :=
    length_forward_sub _
  have hvalue : ∀ n, Ends (parseValue fuel) (p.forward (1 + n))
      (Reads (p.forward (1 + n)) (ReadsItem (nestingLimit - b.depth))) (fun _ => True) := by
    intro n
    refine h.value (b := p.forward (1 + n)) (hfits'.forward _) ?_
    rw [length_forward_sub, hlen]
    omega
  have hmore : ∀ n, p.offset + (1 + n) < p.length →
      Ends (parseMembers fuel) (p.forward (1 + n))
        (ReadsBehind (p.forward (1 + n)) fun s head =>
          ∃ ms, MembersText deviceJson (nestingLimit - b.depth) s ms ∧ head = memberItems ms)
        (fun _ => True) := by
    intro n hn
    refine h.members (b := p.forward (1 + n)) (hfits'.forward _) hn ?_
    rw [length_forward_sub, hlen]
    omega
  refine (parseItem_ends hfits' hvalue hmore).imp ?_ fun _ _ => trivial
  rintro item b' ⟨t, ht, rfl, w, x, w', r, hblank, hblank', ⟨v, hv, rfl⟩, hitem⟩
  -- the name, the colon and the value in one
  rw [hp, hfits.ahead_forward, ← List.drop_drop] at hcolon ht
  have hname := prefix_append hs (singleton_prefix_iff.mpr hcolon)
  have hread : u ++ (k ++ u') ++ [Ascii.colon] ++ t <+: b.ahead.drop 1 := by
    refine prefix_append hname ?_
    rwa [List.length_append, List.length_singleton, ← List.drop_drop]
  have hforward : p.forward (1 + t.length) =
      b.forward (1 + (u ++ (k ++ u') ++ [Ascii.colon] ++ t).length) := by
    rw [hp, ParseBuffer.forward_forward]
    congr 1
    simp only [List.length_append, List.length_singleton]
    omega
  refine ⟨_, hread, hforward, ?_⟩
  rcases hitem with ⟨rfl, rfl⟩ | ⟨t, next, ⟨ms, hms, rfl⟩, rfl, rfl⟩
  · refine ⟨.cons name v .nil, ?_, rfl⟩
    have htext := MembersText.last hu hk hu' hblank hv hblank'
    simpa only [List.append_assoc, List.singleton_append] using htext
  · refine ⟨.cons name v ms, ?_, rfl⟩
    have htext := MembersText.more hu hk hu' hblank hv hblank' hms
    simpa only [List.append_assoc, List.singleton_append] using htext

/-- By induction on the fuel. -/
theorem parseSpec (fuel : ℕ) : ParseSpec fuel := by
  induction fuel with
  | zero =>
    constructor
    · intro b _ hfuel
      omega
    · intro b _ _ hfuel
      omega
    · intro b _ _ hfuel
      omega
    · intro b _ _ hfuel
      omega
    · intro b _ _ hfuel
      omega
  | succ fuel ih =>
    exact ⟨ih.value_step, ih.array_step, ih.elements_step, ih.object_step, ih.members_step⟩

/-! ### Every string -/

/-- The byte order mark. -/
def utf8Bom : List UInt8 := [0xef, 0xbb, 0xbf]

theorem skipUtf8Bom_ends {b : ParseBuffer} (hfits : b.Fits) :
    Ends skipUtf8Bom b (Reads b fun s _ => s = [] ∨ s = utf8Bom) (fun _ => True) := by
  have hnothing : Reads b (fun s (_ : PUnit) => s = [] ∨ s = utf8Bom) ⟨⟩ b :=
    ⟨[], List.nil_prefix, rfl, .inl rfl⟩
  rw [skipUtf8Bom]
  refine .bind_ok rfl ?_
  split_ifs with haccess
  · refine .bind_ok (startsWith_eq hfits (by decide)) ?_
    by_cases hbom : utf8Bom <+: b.ahead
    · rw [show decide ([0xef, 0xbb, 0xbf] <+: b.ahead) = true from decide_eq_true hbom]
      exact .of_ok rfl ⟨utf8Bom, hbom, rfl, .inr rfl⟩
    · rw [show decide ([0xef, 0xbb, 0xbf] <+: b.ahead) = false from decide_eq_false hbom]
      exact .of_ok rfl hnothing
  · exact .of_ok rfl hnothing

/-- Every buffer. -/
theorem cJSONParseWithLength_ends (content : List UInt8) :
    (∃ b, cJSONParseWithLength content content.length = .fail b) ∨
      ∃ bom w s rest v b, (bom = [] ∨ bom = utf8Bom) ∧ (∀ c ∈ w, c ≤ 32) ∧
        content = bom ++ (w ++ (s ++ rest)) ∧ JsonText deviceJson nestingLimit s v ∧
        cJSONParseWithLength content content.length = .ok (itemFields v, itemChild v) b := by
  set b : ParseBuffer := ⟨content, content.length, 0, 0⟩ with hb
  have hfits : b.Fits := rfl
  have hahead : b.ahead = content := hfits.ahead
  have hends : Ends
      (skipUtf8Bom >>= fun _ => bufferSkipWhitespace >>= fun _ =>
        parseValue (3 * content.length + 3)) b
      (fun r _ => ∃ bom w s rest v, (bom = [] ∨ bom = utf8Bom) ∧ (∀ c ∈ w, c ≤ 32) ∧
        content = bom ++ (w ++ (s ++ rest)) ∧ JsonText deviceJson nestingLimit s v ∧
        r = (itemFields v, itemChild v))
      (fun _ => True) := by
    refine .bind (skipUtf8Bom_ends hfits) ?_
    rintro _ b' ⟨bom, hbom, rfl, hmark⟩
    obtain ⟨w, hw, hblank, hskip, -⟩ := exists_skip (hfits.forward bom.length)
    rw [ParseBuffer.forward_forward] at hskip
    rw [hfits.ahead_forward] at hw
    have hstart : bom ++ w <+: b.ahead := prefix_append hbom hw
    have hfuel : 3 * ((b.forward (bom.length + w.length)).length -
        (b.forward (bom.length + w.length)).offset) + 3 ≤ 3 * content.length + 3 := by
      rw [length_forward_sub]
      show 3 * (content.length - 0 - (bom.length + w.length)) + 3 ≤ _
      omega
    refine .bind_ok hskip (((parseSpec _).value (hfits.forward _) hfuel).imp ?_
      fun _ _ => trivial)
    rintro r b' ⟨s, hs, rfl, v, hv, rfl⟩
    rw [hfits.ahead_forward, ← List.length_append] at hs
    obtain ⟨rest, hrest⟩ := prefix_append hstart hs
    refine ⟨bom, w, s, rest, v, hmark, hblank, ?_, hv, rfl⟩
    rw [← hahead, ← hrest]
    simp only [List.append_assoc]
  rcases hends.cases with ⟨r, b', hok, bom, w, s, rest, v, hmark, hblank, heq, hv, rfl⟩ |
    ⟨b', hfail, -⟩
  · exact .inr ⟨bom, w, s, rest, v, b', hmark, hblank, heq, hv, hok⟩
  · exact .inl ⟨b', hfail⟩

/-- **`cJSON_Parse`**, for every string: the call ends and stays in its memory; either it fails, or
the string starts with a text of the dialect, nested no deeper than the limit, behind a byte
order mark and blanks, and its items are returned. -/
theorem cJSONParse_ends (value : List UInt8) :
    (∃ b, cJSONParse value = .fail b) ∨
      ∃ bom w s rest v b, (bom = [] ∨ bom = utf8Bom) ∧ (∀ c ∈ w, c ≤ 32) ∧
        value ++ [0] = bom ++ (w ++ (s ++ rest)) ∧ JsonText deviceJson nestingLimit s v ∧
        cJSONParse value = .ok (itemFields v, itemChild v) b := by
  have hlen : (value ++ [0]).length = value.length + 1 := List.length_append
  rw [cJSONParse, ← hlen]
  exact cJSONParseWithLength_ends (value ++ [0])

end Sentry
