/-
Writers of JSON.

* `Json.depth` — how deep arrays and objects are nested;
* `JsonStyle` — how numbers, strings and separators are written;
* `Json.write` — the text of a value in a style;
* `JsonStyle.Writes`, `JsonStyle.Writes.jsonText` — what is written is a text of the dialect;
* `IsUtf8`, `JsonStyle.WritesUtf8` — the encoding of what is written.
-/
import SentrySystem.Lib.Json

/-! ### Depth -/

section Depth

variable {N S : Type}

mutual

/-- How deep arrays and objects are nested. -/
def Json.depth : Json N S → ℕ
  | .null | .bool _ | .number _ | .string _ => 0
  | .array es => es.depth + 1
  | .object ms => ms.depth + 1

/-- The depth of the deepest element. -/
def JsonArray.depth : JsonArray N S → ℕ
  | .nil => 0
  | .cons e rest => max e.depth rest.depth

/-- The depth of the deepest member. -/
def JsonObject.depth : JsonObject N S → ℕ
  | .nil => 0
  | .cons _ v rest => max v.depth rest.depth

end

theorem JsonArray.depth_ofList_le {d : ℕ} {l : List (Json N S)} (h : ∀ v ∈ l, v.depth ≤ d) :
    (JsonArray.ofList l).depth ≤ d := by
  induction l with
  | nil => exact Nat.zero_le _
  | cons v l ih =>
    exact max_le (h v List.mem_cons_self) (ih fun v' hv' => h v' (List.mem_cons_of_mem _ hv'))

theorem JsonObject.depth_ofList_le {d : ℕ} {l : List (S × Json N S)}
    (h : ∀ m ∈ l, m.2.depth ≤ d) : (JsonObject.ofList l).depth ≤ d := by
  induction l with
  | nil => exact Nat.zero_le _
  | cons m l ih =>
    exact max_le (h m List.mem_cons_self) (ih fun m' hm' => h m' (List.mem_cons_of_mem _ hm'))

end Depth

/-! ### Styles -/

/-- A style: numbers, strings, and the blanks behind a comma and a colon. -/
structure JsonStyle (N S : Type) where
  number : N → List UInt8
  string : S → List UInt8
  comma : List UInt8
  colon : List UInt8

section Write

variable {N S : Type} (style : JsonStyle N S)

mutual

/-- The text of a value. -/
def Json.write : Json N S → List UInt8
  | .null => Ascii.null
  | .bool b => boolText b
  | .number n => style.number n
  | .string s => style.string s
  | .array es => Ascii.lbracket :: (es.write ++ [Ascii.rbracket])
  | .object ms => Ascii.lbrace :: (ms.write ++ [Ascii.rbrace])

/-- The text between the brackets. -/
def JsonArray.write : JsonArray N S → List UInt8
  | .nil => []
  | .cons e .nil => e.write
  | .cons e rest => e.write ++ Ascii.comma :: (style.comma ++ rest.write)

/-- The text between the braces. -/
def JsonObject.write : JsonObject N S → List UInt8
  | .nil => []
  | .cons name v .nil => style.string name ++ Ascii.colon :: (style.colon ++ v.write)
  | .cons name v rest =>
    style.string name ++ Ascii.colon :: (style.colon ++
      (v.write ++ Ascii.comma :: (style.comma ++ rest.write)))

end

end Write

/-! ### What is written -/

section Texts

variable {N S N' S' : Type} {style : JsonStyle N S} {D : JsonDialect N' S'} {f : N → N'}
variable {g : S → S'}

/-- The style writes in the dialect; a number `n` is read as `f n`, a string `s` as `g s`. -/
structure JsonStyle.Writes (style : JsonStyle N S) (D : JsonDialect N' S') (f : N → N')
    (g : S → S') : Prop where
  number : ∀ n, D.number (style.number n) (f n)
  string : ∀ s, D.string (style.string s) (g s)
  comma : ∀ c ∈ style.comma, D.blank c
  colon : ∀ c ∈ style.colon, D.blank c

mutual

/-- **What is written** is a text of the dialect, as deeply nested as the value. -/
theorem JsonStyle.Writes.jsonText (h : style.Writes D f g) {d : ℕ} :
    ∀ v : Json N S, v.depth ≤ d → JsonText D d (v.write style) (v.map f g)
  | .null, _ => .null
  | .bool b, _ => .bool b
  | .number n, _ => .number (h.number n)
  | .string s, _ => .string (h.string s)
  | .array .nil, hd => by
    obtain ⟨d, rfl⟩ := Nat.exists_eq_succ_of_ne_zero (Nat.ne_of_gt (Nat.zero_lt_of_lt hd))
    exact .emptyArray (w := []) fun c hc => by cases hc
  | .array (.cons e rest), hd => by
    obtain ⟨d, rfl⟩ := Nat.exists_eq_succ_of_ne_zero (Nat.ne_of_gt (Nat.zero_lt_of_lt hd))
    exact .array (h.elementsText e rest (Nat.le_of_succ_le_succ hd))
  | .object .nil, hd => by
    obtain ⟨d, rfl⟩ := Nat.exists_eq_succ_of_ne_zero (Nat.ne_of_gt (Nat.zero_lt_of_lt hd))
    exact .emptyObject (w := []) fun c hc => by cases hc
  | .object (.cons name v rest), hd => by
    obtain ⟨d, rfl⟩ := Nat.exists_eq_succ_of_ne_zero (Nat.ne_of_gt (Nat.zero_lt_of_lt hd))
    exact .object (h.membersText name v rest (Nat.le_of_succ_le_succ hd))

theorem JsonStyle.Writes.elementsText (h : style.Writes D f g) {d : ℕ} (e : Json N S) :
    ∀ rest : JsonArray N S, (JsonArray.cons e rest).depth ≤ d →
      ElementsText D d ((JsonArray.cons e rest).write style) ((JsonArray.cons e rest).map f g)
  | .nil, hd => .bareLast (h.jsonText e (le_of_max_le_left hd))
  | .cons e' rest, hd =>
    .bareMore (h.jsonText e (le_of_max_le_left hd))
      ((h.elementsText e' rest (le_of_max_le_right hd)).behind h.comma)

theorem JsonStyle.Writes.membersText (h : style.Writes D f g) {d : ℕ} (name : S) (v : Json N S) :
    ∀ rest : JsonObject N S, (JsonObject.cons name v rest).depth ≤ d →
      MembersText D d ((JsonObject.cons name v rest).write style)
        ((JsonObject.cons name v rest).map f g)
  | .nil, hd => .bareLast (h.string name) h.colon (h.jsonText v (le_of_max_le_left hd))
  | .cons name' v' rest, hd =>
    .bareMore (h.string name) h.colon (h.jsonText v (le_of_max_le_left hd))
      ((h.membersText name' v' rest (le_of_max_le_right hd)).behind h.comma)

end

end Texts

/-! ### UTF-8 -/

/-- An encoding in UTF-8. -/
def IsUtf8 (s : List UInt8) : Prop := ∃ cs : List Char, s = cs.flatMap String.utf8EncodeChar

theorem IsUtf8.nil : IsUtf8 [] := ⟨[], rfl⟩

theorem IsUtf8.append {s t : List UInt8} (hs : IsUtf8 s) (ht : IsUtf8 t) : IsUtf8 (s ++ t) := by
  obtain ⟨cs, rfl⟩ := hs
  obtain ⟨ds, rfl⟩ := ht
  exact ⟨cs ++ ds, List.flatMap_append.symm⟩

theorem IsUtf8.singleton {c : UInt8} (hc : c < 0x80) : IsUtf8 [c] := by
  have hascii : ∀ n < 128, String.utf8EncodeChar (Char.ofNat n) = [UInt8.ofNat n] := by
    decide +kernel
  have hchar := hascii c.toNat (UInt8.lt_iff_toNat_lt.mp hc)
  rw [UInt8.ofNat_toNat] at hchar
  exact ⟨[Char.ofNat c.toNat], by rw [List.flatMap_singleton, hchar]⟩

theorem IsUtf8.cons {c : UInt8} {s : List UInt8} (hc : c < 0x80) (hs : IsUtf8 s) :
    IsUtf8 (c :: s) :=
  (IsUtf8.singleton hc).append hs

theorem IsUtf8.of_ascii {s : List UInt8} (h : ∀ c ∈ s, c < 0x80) : IsUtf8 s := by
  induction s with
  | nil => exact .nil
  | cons c s ih =>
    exact .cons (h c List.mem_cons_self) (ih fun d hd => h d (List.mem_cons_of_mem _ hd))

/-- A character has one ASCII byte, or none. -/
theorem utf8EncodeChar_cases (c : Char) :
    (∃ b, b < 0x80 ∧ String.utf8EncodeChar c = [b]) ∨
      ∀ b ∈ String.utf8EncodeChar c, 0x80 ≤ b := by
  have hhigh : ∀ n, 128 ≤ n → n < 256 → (0x80 : UInt8) ≤ UInt8.ofNat n := by
    intro n hge hlt
    rw [UInt8.le_iff_toNat_le, UInt8.toNat_ofNat_of_lt' hlt]
    exact hge
  rw [String.utf8EncodeChar]
  split_ifs with hascii
  · refine .inl ⟨_, ?_, rfl⟩
    rw [UInt8.lt_iff_toNat_lt, UInt8.toNat_ofNat_of_lt' (hascii.trans_lt (by decide))]
    exact Nat.lt_succ_of_le hascii
  all_goals
    refine .inr fun b hb => ?_
    simp only [List.mem_cons, List.not_mem_nil, or_false] at hb
    rcases hb with rfl | rfl | rfl | rfl
    all_goals exact hhigh _ (by omega) (by omega)

section Utf8

variable {N S : Type} {style : JsonStyle N S} {Q : S → Prop}

mutual

/-- The strings of a value, the names among them, have a property. -/
def Json.Strings (Q : S → Prop) : Json N S → Prop
  | .null | .bool _ | .number _ => True
  | .string s => Q s
  | .array es => es.Strings Q
  | .object ms => ms.Strings Q

/-- The strings of elements have it. -/
def JsonArray.Strings (Q : S → Prop) : JsonArray N S → Prop
  | .nil => True
  | .cons e rest => e.Strings Q ∧ rest.Strings Q

/-- The strings of members have it. -/
def JsonObject.Strings (Q : S → Prop) : JsonObject N S → Prop
  | .nil => True
  | .cons name v rest => Q name ∧ v.Strings Q ∧ rest.Strings Q

end

theorem JsonArray.strings_ofList {l : List (Json N S)} (h : ∀ v ∈ l, v.Strings Q) :
    (JsonArray.ofList l).Strings Q := by
  induction l with
  | nil => trivial
  | cons v l ih =>
    exact ⟨h v List.mem_cons_self, ih fun v' hv' => h v' (List.mem_cons_of_mem _ hv')⟩

theorem JsonObject.strings_ofList {l : List (S × Json N S)}
    (h : ∀ m ∈ l, Q m.1 ∧ m.2.Strings Q) : (JsonObject.ofList l).Strings Q := by
  induction l with
  | nil => trivial
  | cons m l ih =>
    have hm := h m List.mem_cons_self
    exact ⟨hm.1, hm.2, ih fun m' hm' => h m' (List.mem_cons_of_mem _ hm')⟩

section Congr

variable {N' S' : Type} {f : N → N'} {g h : S → S'}

mutual

/-- Strings with the property are replaced alike. -/
theorem Json.map_congr_strings (heq : ∀ s, Q s → g s = h s) :
    ∀ v : Json N S, v.Strings Q → v.map f g = v.map f h
  | .null, _ | .bool _, _ | .number _, _ => rfl
  | .string s, hs => congrArg Json.string (heq s hs)
  | .array es, hes => congrArg Json.array (JsonArray.map_congr_strings heq es hes)
  | .object ms, hms => congrArg Json.object (JsonObject.map_congr_strings heq ms hms)

theorem JsonArray.map_congr_strings (heq : ∀ s, Q s → g s = h s) :
    ∀ es : JsonArray N S, es.Strings Q → es.map f g = es.map f h
  | .nil, _ => rfl
  | .cons e rest, he =>
    congrArg₂ JsonArray.cons (Json.map_congr_strings heq e he.1)
      (JsonArray.map_congr_strings heq rest he.2)

theorem JsonObject.map_congr_strings (heq : ∀ s, Q s → g s = h s) :
    ∀ ms : JsonObject N S, ms.Strings Q → ms.map f g = ms.map f h
  | .nil, _ => rfl
  | .cons name v rest, hm => by
    rw [JsonObject.map, JsonObject.map, heq name hm.1, Json.map_congr_strings heq v hm.2.1,
      JsonObject.map_congr_strings heq rest hm.2.2]

end

end Congr

/-- What a style writes of the parts is UTF-8. -/
structure JsonStyle.WritesUtf8 (style : JsonStyle N S) (Q : S → Prop) : Prop where
  number : ∀ n, IsUtf8 (style.number n)
  string : ∀ s, Q s → IsUtf8 (style.string s)
  comma : IsUtf8 style.comma
  colon : IsUtf8 style.colon

mutual

/-- What is written of a value is UTF-8. -/
theorem JsonStyle.WritesUtf8.write (h : style.WritesUtf8 Q) :
    ∀ v : Json N S, v.Strings Q → IsUtf8 (v.write style)
  | .null, _ => .of_ascii (s := Ascii.null) (by decide +kernel)
  | .bool true, _ => .of_ascii (s := Ascii.true) (by decide +kernel)
  | .bool false, _ => .of_ascii (s := Ascii.false) (by decide +kernel)
  | .number n, _ => h.number n
  | .string s, hs => h.string s hs
  | .array es, hes =>
    .cons (by decide) ((h.writeElements es hes).append (.singleton (by decide)))
  | .object ms, hms =>
    .cons (by decide) ((h.writeMembers ms hms).append (.singleton (by decide)))

theorem JsonStyle.WritesUtf8.writeElements (h : style.WritesUtf8 Q) :
    ∀ es : JsonArray N S, es.Strings Q → IsUtf8 (es.write style)
  | .nil, _ => .nil
  | .cons e .nil, he => h.write e he.1
  | .cons e (.cons e' rest), he =>
    (h.write e he.1).append
      (.cons (by decide) (h.comma.append (h.writeElements (.cons e' rest) he.2)))

theorem JsonStyle.WritesUtf8.writeMembers (h : style.WritesUtf8 Q) :
    ∀ ms : JsonObject N S, ms.Strings Q → IsUtf8 (ms.write style)
  | .nil, _ => .nil
  | .cons name v .nil, hm =>
    (h.string name hm.1).append (.cons (by decide) (h.colon.append (h.write v hm.2.1)))
  | .cons name v (.cons name' v' rest), hm =>
    (h.string name hm.1).append (.cons (by decide) (h.colon.append ((h.write v hm.2.1).append
      (.cons (by decide) (h.comma.append (h.writeMembers (.cons name' v' rest) hm.2.2))))))

end

end Utf8
