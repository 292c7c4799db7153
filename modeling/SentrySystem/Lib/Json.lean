/-
JSON: values and the grammar of their texts.

The grammar is one for all dialects, which differ in what is blank and in how numbers and strings
are written.

* `Json` — the values, over any numbers and strings; `JsonObject.find` — a member;
* `JsonText` — the texts of a value, with a bound for how deep arrays and objects are nested;
* `ElementsText.behind`, `MembersText.behind` — blanks in front of a text;
* `standardJson` — the standard: decimal literals, strings with their escapes.
-/
import SentrySystem.Lib.Decimal

/-! ### Values -/

mutual

/-- A value, with numbers `N` and strings `S`. -/
inductive Json (N S : Type) : Type
  | null
  | bool (b : Bool)
  | number (n : N)
  | string (s : S)
  | array (elements : JsonArray N S)
  | object (members : JsonObject N S)

/-- The elements of an array. -/
inductive JsonArray (N S : Type) : Type
  | nil
  | cons (element : Json N S) (rest : JsonArray N S)

/-- The members of an object, as they come; names may repeat. -/
inductive JsonObject (N S : Type) : Type
  | nil
  | cons (name : S) (value : Json N S) (rest : JsonObject N S)

end

/-- The array of these elements. -/
def JsonArray.ofList {N S : Type} : List (Json N S) → JsonArray N S
  | [] => .nil
  | e :: es => .cons e (ofList es)

/-- The object of these members. -/
def JsonObject.ofList {N S : Type} : List (S × Json N S) → JsonObject N S
  | [] => .nil
  | m :: ms => .cons m.1 m.2 (ofList ms)

/-- A number is at the top. -/
def Json.IsNumber {N S : Type} (v : Json N S) : Prop := ∃ n, v = .number n

/-- The first member whose name is one that is looked for. -/
def JsonObject.find {N S : Type} (isName : S → Bool) : JsonObject N S → Option (Json N S)
  | .nil => none
  | .cons name v rest => if isName name then some v else rest.find isName

/-- How many members come before it. -/
def JsonObject.findIdx {N S : Type} (isName : S → Bool) : JsonObject N S → ℕ
  | .nil => 0
  | .cons name _ rest => if isName name then 0 else rest.findIdx isName + 1

theorem JsonObject.find_ofList {N S : Type} (isName : S → Bool) (l : List (S × Json N S)) :
    (JsonObject.ofList l).find isName = (l.find? fun m => isName m.1).map Prod.snd := by
  induction l with
  | nil => rfl
  | cons m l ih =>
    rw [ofList, find, List.find?_cons, ih]
    cases isName m.1
    · rfl
    · rfl

section ObjectFree

variable {N S : Type}

mutual

/-- A value without objects. -/
def Json.ObjectFree : Json N S → Prop
  | .object _ => False
  | .array es => es.ObjectFree
  | _ => True

/-- Elements without objects. -/
def JsonArray.ObjectFree : JsonArray N S → Prop
  | .nil => True
  | .cons e rest => e.ObjectFree ∧ rest.ObjectFree

end

theorem JsonArray.objectFree_ofList {l : List (Json N S)} (h : ∀ v ∈ l, v.ObjectFree) :
    (JsonArray.ofList l).ObjectFree := by
  induction l with
  | nil => trivial
  | cons v l ih =>
    exact ⟨h v List.mem_cons_self, ih fun v' hv' => h v' (List.mem_cons_of_mem _ hv')⟩

end ObjectFree

section Map

variable {N S N' S' : Type} (f : N → N') (g : S → S')

mutual

/-- The value with its numbers and strings replaced. -/
def Json.map : Json N S → Json N' S'
  | .null => .null
  | .bool b => .bool b
  | .number n => .number (f n)
  | .string s => .string (g s)
  | .array es => .array es.map
  | .object ms => .object ms.map

/-- The elements with theirs replaced. -/
def JsonArray.map : JsonArray N S → JsonArray N' S'
  | .nil => .nil
  | .cons e rest => .cons e.map rest.map

/-- The members with theirs replaced. -/
def JsonObject.map : JsonObject N S → JsonObject N' S'
  | .nil => .nil
  | .cons name v rest => .cons (g name) v.map rest.map

end

theorem JsonObject.find_map (isName : S' → Bool) : ∀ ms : JsonObject N S,
    (ms.map f g).find isName = (ms.find fun name => isName (g name)).map (Json.map f g)
  | .nil => rfl
  | .cons name v rest => by
    rw [map, find, find, find_map isName rest]
    cases isName (g name)
    · rfl
    · rfl

end Map

section MapMap

variable {N S N' S' N'' S'' : Type} {f : N → N'} {g : S → S'} {f' : N' → N''} {g' : S' → S''}

mutual

theorem Json.map_map : ∀ v : Json N S, (v.map f g).map f' g' = v.map (f' ∘ f) (g' ∘ g)
  | .null => rfl
  | .bool _ => rfl
  | .number _ => rfl
  | .string _ => rfl
  | .array es => congrArg Json.array es.map_map
  | .object ms => congrArg Json.object ms.map_map

theorem JsonArray.map_map : ∀ es : JsonArray N S, (es.map f g).map f' g' = es.map (f' ∘ f) (g' ∘ g)
  | .nil => rfl
  | .cons e rest => congrArg₂ JsonArray.cons e.map_map rest.map_map

theorem JsonObject.map_map : ∀ ms : JsonObject N S,
    (ms.map f g).map f' g' = ms.map (f' ∘ f) (g' ∘ g)
  | .nil => rfl
  | .cons _ v rest => congrArg₂ (JsonObject.cons _) v.map_map rest.map_map

end

end MapMap

/-! ### Texts -/

namespace Ascii

/-- `"`. -/
def quote : UInt8 := 0x22

/-- `\`. -/
def backslash : UInt8 := 0x5c

/-- `,`. -/
def comma : UInt8 := 0x2c

/-- `:`. -/
def colon : UInt8 := 0x3a

/-- `[`. -/
def lbracket : UInt8 := 0x5b

/-- `]`. -/
def rbracket : UInt8 := 0x5d

/-- The left brace. -/
def lbrace : UInt8 := 0x7b

/-- The right brace. -/
def rbrace : UInt8 := 0x7d

/-- `null`. -/
def null : List UInt8 := [0x6e, 0x75, 0x6c, 0x6c]

/-- `false`. -/
def false : List UInt8 := [0x66, 0x61, 0x6c, 0x73, 0x65]

/-- `true`. -/
def true : List UInt8 := [0x74, 0x72, 0x75, 0x65]

end Ascii

/-- What a dialect decides. -/
structure JsonDialect (N S : Type) where
  blank : UInt8 → Prop
  number : List UInt8 → N → Prop
  string : List UInt8 → S → Prop

open Ascii in
/-- The text of a truth value. -/
def boolText (b : Bool) : List UInt8 := if b then true else false

mutual

/-- `JsonText D d s v`: the text `s` stands for `v`, and is nested no deeper than `d`. -/
inductive JsonText {N S : Type} (D : JsonDialect N S) : ℕ → List UInt8 → Json N S → Prop
  | null {d} : JsonText D d Ascii.null .null
  | bool {d} (b : Bool) : JsonText D d (boolText b) (.bool b)
  | number {d s n} (h : D.number s n) : JsonText D d s (.number n)
  | string {d s v} (h : D.string s v) : JsonText D d s (.string v)
  | emptyArray {d w} (hw : ∀ c ∈ w, D.blank c) :
    JsonText D (d + 1) (Ascii.lbracket :: (w ++ [Ascii.rbracket])) (.array .nil)
  | array {d s es} (h : ElementsText D d s es) :
    JsonText D (d + 1) (Ascii.lbracket :: (s ++ [Ascii.rbracket])) (.array es)
  | emptyObject {d w} (hw : ∀ c ∈ w, D.blank c) :
    JsonText D (d + 1) (Ascii.lbrace :: (w ++ [Ascii.rbrace])) (.object .nil)
  | object {d s ms} (h : MembersText D d s ms) :
    JsonText D (d + 1) (Ascii.lbrace :: (s ++ [Ascii.rbrace])) (.object ms)

/-- The text of elements, one at least, between the brackets. -/
inductive ElementsText {N S : Type} (D : JsonDialect N S) :
    ℕ → List UInt8 → JsonArray N S → Prop
  | last {d w s w' v} (hw : ∀ c ∈ w, D.blank c) (hv : JsonText D d s v)
    (hw' : ∀ c ∈ w', D.blank c) : ElementsText D d (w ++ (s ++ w')) (.cons v .nil)
  | more {d w s w' t v es} (hw : ∀ c ∈ w, D.blank c) (hv : JsonText D d s v)
    (hw' : ∀ c ∈ w', D.blank c) (ht : ElementsText D d t es) :
    ElementsText D d (w ++ (s ++ (w' ++ Ascii.comma :: t))) (.cons v es)

/-- The text of members, one at least, between the braces. -/
inductive MembersText {N S : Type} (D : JsonDialect N S) :
    ℕ → List UInt8 → JsonObject N S → Prop
  | last {d w k w' u s u' name v} (hw : ∀ c ∈ w, D.blank c) (hk : D.string k name)
    (hw' : ∀ c ∈ w', D.blank c) (hu : ∀ c ∈ u, D.blank c) (hv : JsonText D d s v)
    (hu' : ∀ c ∈ u', D.blank c) :
    MembersText D d (w ++ (k ++ (w' ++ Ascii.colon :: (u ++ (s ++ u'))))) (.cons name v .nil)
  | more {d w k w' u s u' t name v ms} (hw : ∀ c ∈ w, D.blank c) (hk : D.string k name)
    (hw' : ∀ c ∈ w', D.blank c) (hu : ∀ c ∈ u, D.blank c) (hv : JsonText D d s v)
    (hu' : ∀ c ∈ u', D.blank c) (ht : MembersText D d t ms) :
    MembersText D d (w ++ (k ++ (w' ++ Ascii.colon :: (u ++ (s ++ (u' ++ Ascii.comma :: t))))))
      (.cons name v ms)

end

section Behind

variable {N S : Type} {D : JsonDialect N S} {d : ℕ} {w s : List UInt8}

theorem forall_blank_append {u : List UInt8} (hw : ∀ c ∈ w, D.blank c) (hu : ∀ c ∈ u, D.blank c) :
    ∀ c ∈ w ++ u, D.blank c := by
  intro c hc
  exact (List.mem_append.mp hc).elim (hw c) (hu c)

/-- A text with blanks in front. -/
theorem ElementsText.behind {es : JsonArray N S} (hw : ∀ c ∈ w, D.blank c)
    (h : ElementsText D d s es) : ElementsText D d (w ++ s) es := by
  cases h with
  | last hu hv hu' =>
    rw [← List.append_assoc]
    exact .last (forall_blank_append hw hu) hv hu'
  | more hu hv hu' ht =>
    rw [← List.append_assoc]
    exact .more (forall_blank_append hw hu) hv hu' ht

theorem MembersText.behind {ms : JsonObject N S} (hw : ∀ c ∈ w, D.blank c)
    (h : MembersText D d s ms) : MembersText D d (w ++ s) ms := by
  cases h with
  | last hu hk hu' hx hv hx' =>
    rw [← List.append_assoc]
    exact .last (forall_blank_append hw hu) hk hu' hx hv hx'
  | more hu hk hu' hx hv hx' ht =>
    rw [← List.append_assoc]
    exact .more (forall_blank_append hw hu) hk hu' hx hv hx' ht

theorem forall_blank_nil : ∀ c ∈ ([] : List UInt8), D.blank c := by
  intro c hc
  cases hc

/-- Elements without blanks. -/
theorem ElementsText.bareLast {v : Json N S} (hv : JsonText D d s v) :
    ElementsText D d s (.cons v .nil) := by
  have hlast := ElementsText.last forall_blank_nil hv forall_blank_nil
  rwa [List.nil_append, List.append_nil] at hlast

theorem ElementsText.bareMore {t : List UInt8} {v : Json N S} {es : JsonArray N S}
    (hv : JsonText D d s v) (ht : ElementsText D d t es) :
    ElementsText D d (s ++ Ascii.comma :: t) (.cons v es) :=
  .more forall_blank_nil hv forall_blank_nil ht

/-- Members without blanks but those behind the colon. -/
theorem MembersText.bareLast {k u : List UInt8} {name : S} {v : Json N S} (hk : D.string k name)
    (hu : ∀ c ∈ u, D.blank c) (hv : JsonText D d s v) :
    MembersText D d (k ++ Ascii.colon :: (u ++ s)) (.cons name v .nil) := by
  have hlast := MembersText.last forall_blank_nil hk forall_blank_nil hu hv forall_blank_nil
  rwa [List.nil_append, List.nil_append, List.append_nil] at hlast

theorem MembersText.bareMore {k u t : List UInt8} {name : S} {v : Json N S} {ms : JsonObject N S}
    (hk : D.string k name) (hu : ∀ c ∈ u, D.blank c) (hv : JsonText D d s v)
    (ht : MembersText D d t ms) :
    MembersText D d (k ++ Ascii.colon :: (u ++ (s ++ Ascii.comma :: t))) (.cons name v ms) :=
  .more forall_blank_nil hk forall_blank_nil hu hv forall_blank_nil ht

end Behind

/-! ### The standard -/

/-- The value of a hexadecimal digit. -/
def hexDigit (c : UInt8) : Option ℕ :=
  if 0x30 ≤ c.toNat ∧ c.toNat ≤ 0x39 then some (c.toNat - 0x30)
  else if 0x41 ≤ c.toNat ∧ c.toNat ≤ 0x46 then some (10 + c.toNat - 0x41)
  else if 0x61 ≤ c.toNat ∧ c.toNat ≤ 0x66 then some (10 + c.toNat - 0x61)
  else none

/-- The value of hexadecimal digits, behind a number already read. -/
def hexValue : ℕ → List UInt8 → Option ℕ
  | n, [] => some n
  | n, c :: rest => (hexDigit c).bind fun d => hexValue (16 * n + d) rest

/-- The byte an escape of two bytes stands for. -/
def escapedByte (c : UInt8) : Option UInt8 :=
  if c = 0x62 then some 0x08
  else if c = 0x66 then some 0x0c
  else if c = 0x6e then some 0x0a
  else if c = 0x72 then some 0x0d
  else if c = 0x74 then some 0x09
  else if c = Ascii.quote ∨ c = Ascii.backslash ∨ c = 0x2f then some c
  else none

/-- The first half of a pair of UTF-16. -/
def IsHighSurrogate (code : ℕ) : Prop := 0xD800 ≤ code ∧ code ≤ 0xDBFF

/-- The second half. -/
def IsLowSurrogate (code : ℕ) : Prop := 0xDC00 ≤ code ∧ code ≤ 0xDFFF

instance (code : ℕ) : Decidable (IsHighSurrogate code) := inferInstanceAs (Decidable (_ ∧ _))

instance (code : ℕ) : Decidable (IsLowSurrogate code) := inferInstanceAs (Decidable (_ ∧ _))

/-- The codepoint of a pair. -/
def pairCode (high low : ℕ) : ℕ := 0x10000 + (high - 0xD800) * 0x400 + (low - 0xDC00)

/-- A backslash, `u` and four hexadecimal digits. -/
def IsUnicodeEscape (s : List UInt8) (code : ℕ) : Prop :=
  ∃ ds, s = Ascii.backslash :: 0x75 :: ds ∧ ds.length = 4 ∧ hexValue 0 ds = some code

/-- The inside of a string, and the bytes it stands for; what is escaped is encoded in UTF-8. -/
inductive JsonChars : List UInt8 → List UInt8 → Prop
  | nil : JsonChars [] []
  | byte {c s v} (hlow : 0x20 ≤ c) (hquote : c ≠ Ascii.quote) (hbackslash : c ≠ Ascii.backslash)
    (h : JsonChars s v) : JsonChars (c :: s) (c :: v)
  | escape {c e s v} (hc : escapedByte c = some e) (h : JsonChars s v) :
    JsonChars (Ascii.backslash :: c :: s) (e :: v)
  | unicode {u code s v} (hu : IsUnicodeEscape u code) (hhigh : ¬ IsHighSurrogate code)
    (hlow : ¬ IsLowSurrogate code) (h : JsonChars s v) :
    JsonChars (u ++ s) (String.utf8EncodeChar (Char.ofNat code) ++ v)
  | pair {u u' high low s v} (hu : IsUnicodeEscape u high) (hu' : IsUnicodeEscape u' low)
    (hhigh : IsHighSurrogate high) (hlow : IsLowSurrogate low) (h : JsonChars s v) :
    JsonChars (u ++ (u' ++ s)) (String.utf8EncodeChar (Char.ofNat (pairCode high low)) ++ v)

/-- A literal of the standard: digits on both sides of a point, and no leading zero. -/
structure DecimalLit.Standard (lit : DecimalLit) : Prop where
  sign : lit.sign ≠ some false
  int : lit.int ≠ []
  lead : lit.int.head? = some 0 → lit.int = [0]
  frac : lit.frac ≠ some []

/-- JSON as it is standardized. -/
def standardJson : JsonDialect ℚ (List UInt8) where
  blank c := c = 0x20 ∨ c = 0x09 ∨ c = 0x0a ∨ c = 0x0d
  number s q := ∃ lit : DecimalLit, lit.Standard ∧ s = lit.text ∧ q = lit.value
  string s v := ∃ body, s = Ascii.quote :: (body ++ [Ascii.quote]) ∧ JsonChars body v

/-- The literal of an integer is one of the standard. -/
theorem DecimalLit.standard_ofInt (z : ℤ) : (DecimalLit.ofInt z).Standard where
  sign := by
    rw [ofInt]
    split_ifs
    · simp
    · simp
  int := digitsOfNat_ne _
  lead := digitsOfNat_lead _
  frac := by
    intro h
    cases h
