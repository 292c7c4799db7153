/-
What the device prints is JSON (`cJSON_PrintUnformatted` and `cJSON_Parse` in `src/json/cJSON.c`).

The values are those the device makes: numbers are `int`s, strings end at their first zero byte.

* `deviceStyle` — how the device writes them, `printedItem` — their items;
* `itemText_deviceStyle` — the text of the item is the text of the value;
* `deviceStyle_writes` — it is a standard JSON text;
* `cJSONParse_print` — what is printed is parsed to the same items.
-/
import SentrySystem.CJsonComplete
import SentrySystem.CJsonPrint
import SentrySystem.Lib.JsonWriter

namespace Sentry

/-! ### The style -/

/-- The style of `cJSON_PrintUnformatted`. -/
def deviceStyle : JsonStyle Int32 (List UInt8) where
  number z := (DecimalLit.ofInt z.toInt).text
  string s := quotedText (some s)
  comma := []
  colon := []

/-- A number as a `double`. -/
def doubleOf (z : Int32) : Binary64 := .finite z.toInt

theorem natAbs_toInt_lt (z : Int32) : z.toInt.natAbs < 10 ^ (9 + 1) := by
  have hlt := z.toInt_lt
  have hle := z.le_toInt
  omega

theorem toInt_doubleOf (z : Int32) : (doubleOf z).toInt = z.toInt := by
  have hlt := z.toInt_lt
  have hle := z.le_toInt
  exact Binary64.toInt_intCast hle (by omega)

theorem numberText_doubleOf (env : PrintEnv) (z : Int32) :
    numberText env (itemFields (.number (doubleOf z))) = deviceStyle.number z := by
  rw [itemFields, toInt_doubleOf, numberText]
  exact if_pos rfl

section Text

variable (env : PrintEnv)

mutual

/-- The text of the item of a value is the text of the value. -/
theorem itemText_deviceStyle : ∀ v : Json Int32 (List UInt8),
    itemText env (itemFields (v.map doubleOf id)) (itemChild (v.map doubleOf id)) =
      some (v.write deviceStyle)
  | .null => rfl
  | .bool b => by
    cases b
    · rfl
    · rfl
  | .number z => by
    have htext := numberText_doubleOf env z
    have hlen := DecimalLit.length_text_ofInt (natAbs_toInt_lt z)
    show (if 25 < (numberText env (itemFields (.number (doubleOf z)))).length then none
      else some (numberText env (itemFields (.number (doubleOf z))))) = _
    rw [htext, if_neg (by rw [Nat.not_lt]; exact hlen.trans (by decide))]
    rfl
  | .string s => rfl
  | .array es => by
    rw [itemText, Json.map, itemChild, elementsText_deviceStyle es]
    rfl
  | .object ms => by
    rw [itemText, Json.map, itemChild, membersText_deviceStyle ms]
    rfl

theorem elementsText_deviceStyle : ∀ es : JsonArray Int32 (List UInt8),
    elementsText env (elementItems (es.map doubleOf id)) = some (es.write deviceStyle)
  | .nil => rfl
  | .cons e .nil => by
    have hvalue := itemText_deviceStyle e
    rw [itemText] at hvalue
    show catText (valueText env _ _ _) (nextText .null _) = _
    rw [hvalue]
    exact congrArg some (List.append_nil _)
  | .cons e (.cons e' rest) => by
    have hvalue := itemText_deviceStyle e
    rw [itemText] at hvalue
    have hrest := elementsText_deviceStyle (.cons e' rest)
    show catText (valueText env _ _ _)
      (catText _ (elementsText env (elementItems ((JsonArray.cons e' rest).map doubleOf id)))) = _
    rw [hvalue, hrest]
    rfl

theorem membersText_deviceStyle : ∀ ms : JsonObject Int32 (List UInt8),
    membersText env (memberItems (ms.map doubleOf id)) = some (ms.write deviceStyle)
  | .nil => rfl
  | .cons name v .nil => by
    have hvalue := itemText_deviceStyle v
    rw [itemText] at hvalue
    show catText _ (catText (valueText env _ _ _) (nextText .null _)) = _
    rw [hvalue]
    show some ((quotedText (some name) ++ [Ascii.colon]) ++ (v.write deviceStyle ++ [])) = _
    rw [List.append_nil, List.append_assoc]
    rfl
  | .cons name v (.cons name' v' rest) => by
    have hvalue := itemText_deviceStyle v
    rw [itemText] at hvalue
    have hrest := membersText_deviceStyle (.cons name' v' rest)
    show catText _ (catText (valueText env _ _ _)
      (catText _ (membersText env (memberItems ((JsonObject.cons name' v' rest).map doubleOf id)))))
        = _
    rw [hvalue, hrest]
    show some ((quotedText (some name) ++ [Ascii.colon]) ++ _) = _
    rw [List.append_assoc]
    rfl

end

end Text

/-! ### Standard JSON -/

theorem hexDigit_hexByte {n : ℕ} (h : n < 16) : hexDigit (hexByte n) = some n := by
  interval_cases n <;> decide

/-- An escape of `"u%04x"`. -/
theorem isUnicodeEscape_unicodeDigits (c : UInt8) :
    IsUnicodeEscape (Ascii.backslash :: unicodeDigits c) c.toNat := by
  have hlt := c.toNat_lt
  refine ⟨_, rfl, rfl, ?_⟩
  have hhigh := hexDigit_hexByte (n := c.toNat / 16) (by omega)
  have hlow := hexDigit_hexByte (n := c.toNat % 16) (by omega)
  have hzero : hexDigit 0x30 = some 0 := rfl
  rw [hexValue, hzero, Option.bind_some, hexValue, hzero, Option.bind_some, hexValue, hhigh,
    Option.bind_some, hexValue, hlow, Option.bind_some, hexValue]
  congr 1
  omega

theorem utf8EncodeChar_of_lt {c : UInt8} (h : c < 32) :
    String.utf8EncodeChar (Char.ofNat c.toNat) = [c] := by
  have hascii : ∀ n < 32, String.utf8EncodeChar (Char.ofNat n) = [UInt8.ofNat n] := by decide
  have hc := hascii c.toNat (UInt8.lt_iff_toNat_lt.mp h)
  rwa [UInt8.ofNat_toNat] at hc

theorem escapedByte_shortEscape {c e : UInt8} (h : shortEscape c = some e) :
    escapedByte e = some c := by
  rw [shortEscape] at h
  split_ifs at h with hself
  all_goals obtain rfl := Option.some_inj.mp h
  · rcases hself with rfl | rfl
    · rfl
    · rfl
  all_goals
    subst c
    rfl

theorem jsonChars_escapeText (s : List UInt8) : JsonChars (s.flatMap escapeText) s := by
  induction s with
  | nil => exact .nil
  | cons c s ih =>
    rw [List.flatMap_cons, escapeText]
    split_ifs with hplain
    · refine .byte ?_ hplain.2.1 hplain.2.2 ih
      rw [UInt8.le_iff_toNat_le]
      exact Nat.succ_le_of_lt (UInt8.lt_iff_toNat_lt.mp hplain.1)
    · cases hshort : shortEscape c with
      | some e => exact .escape (escapedByte_shortEscape hshort) ih
      | none =>
        have hlow := lt_of_not_plain hplain hshort
        have hlt : c.toNat < 32 := UInt8.lt_iff_toNat_lt.mp hlow
        have hchars := JsonChars.unicode (isUnicodeEscape_unicodeDigits c)
          (fun hhigh => by have hge := hhigh.1; omega) (fun hhigh => by have hge := hhigh.1; omega) ih
        rw [utf8EncodeChar_of_lt hlow] at hchars
        exact hchars

/-- **The device writes standard JSON.** -/
theorem deviceStyle_writes :
    deviceStyle.Writes standardJson (fun z => (z.toInt : ℚ)) untilNul where
  number z := ⟨_, DecimalLit.standard_ofInt z.toInt, rfl, (DecimalLit.value_ofInt z.toInt).symm⟩
  string s := ⟨_, rfl, jsonChars_escapeText _⟩
  comma := by simp [deviceStyle]
  colon := by simp [deviceStyle]

/-! ### Round trip -/

/-- Rounding keeps the numbers of a device. -/
theorem rounded_map (v : Json Int32 (List UInt8)) (g : List UInt8 → List UInt8) :
    rounded (v.map (fun z => (z.toInt : ℚ)) g) = v.map doubleOf g := by
  have hdouble : Binary64.ofRat ∘ (fun z : Int32 => (z.toInt : ℚ)) = doubleOf := by
    funext z
    have hlt := z.toInt_lt
    have hle := z.le_toInt
    exact Binary64.ofRat_intCast (abs_lt.mpr ⟨by omega, by omega⟩)
  rw [rounded, Json.map_map, hdouble]
  rfl

/-- **Round trip**, for every value and every state of the heap: what is printed of a value is
parsed to the items of the value, with strings up to their first zero byte.  Nothing is printed only
if the last allocation asked for fails or the text is too long. -/
theorem cJSONParse_print (env : PrintEnv) {v : Json Int32 (List UInt8)}
    (hdepth : v.depth ≤ nestingLimit) :
    (∃ s p b, cJSONPrintUnformatted env (itemFields (v.map doubleOf id))
        (itemChild (v.map doubleOf id)) = .ok (s ++ [0]) p ∧
      cJSONParse s =
        .ok (itemFields (v.map doubleOf untilNul), itemChild (v.map doubleOf untilNul)) b) ∨
      ∃ p, cJSONPrintUnformatted env (itemFields (v.map doubleOf id))
        (itemChild (v.map doubleOf id)) = .fail p ∧
        (env.realloc p.calls = none ∨ intMax < (v.write deviceStyle).length + 2) := by
  have htext := itemText_deviceStyle env v
  rcases (print_ends env (itemFields (v.map doubleOf id))
    (itemChild (v.map doubleOf id))).cases with ⟨_, p, hok, s, hs, -, rfl⟩ | ⟨p, hfail, h⟩
  · obtain rfl : v.write deviceStyle = s := Option.some_inj.mp (htext.symm.trans hs)
    obtain ⟨b, hparse⟩ := cJSONParseWithLength_standard (w := []) (.inl rfl) (by simp)
      (deviceStyle_writes.jsonText v le_rfl) hdepth (List.cons_ne_nil 0 [])
      (by rintro - _ ⟨⟩; decide)
    rw [rounded_map] at hparse
    refine .inl ⟨v.write deviceStyle, p, b, hok, ?_⟩
    rw [← hparse, cJSONParse, List.nil_append, List.nil_append, List.length_append,
      List.length_singleton]
  · exact .inr ⟨p, hfail, h.imp_right fun hlong => hlong _ htext⟩

/-- An array in an array, beside a quote; the heap holds anything. -/
theorem cJSONParse_print_nested :
    let v : Json Int32 (List UInt8) :=
      .array (.cons (.array .nil) (.cons (.string [Ascii.quote]) .nil))
    let env : PrintEnv := ⟨fun _ => some fun _ => 0xff, fun _ => [], by simp⟩
    ∃ s p b, cJSONPrintUnformatted env (itemFields (v.map doubleOf id))
        (itemChild (v.map doubleOf id)) = .ok (s ++ [0]) p ∧
      cJSONParse s =
        .ok (itemFields (v.map doubleOf untilNul), itemChild (v.map doubleOf untilNul)) b := by
  intro v env
  refine (cJSONParse_print env (v := v) (by decide)).resolve_right ?_
  rintro ⟨p, -, hnone | hlong⟩
  · cases hnone
  · exact absurd hlong (by decide)

end Sentry
