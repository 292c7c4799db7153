/-
The printer of the device (`print_value` in `src/json/cJSON.c`), unformatted.

The text goes to one allocation, which `realloc` moves when it gets too small.  Every allocation may
fail, and what is fresh in one holds anything.  A byte stored behind the allocation is a fault, and
so is a string without a terminator.

* `PrintBuffer`, `Print`, `ensure`, `updateOffset` — the buffer, and how it grows;
* `printNumber`, `printStringPtr` — numbers and strings;
* `printValue`, `printElements`, `printMembers` — the recursion, along the items;
* `cJSONPrintUnformatted` — `cJSON_PrintUnformatted`;
* `valueText`, `elementsText`, `membersText` — the text of an item;
* `printValue_ends` — the printer writes it, or an allocation fails, or it is too long;
* `cJSONPrintUnformatted_ends` — every item, every allocator.
-/
import Mathlib.Data.List.TakeWhile
import SentrySystem.CJson
import SentrySystem.Lib.Buffer

namespace Sentry

/-! ### The buffer -/

/-- `INT_MAX`. -/
def intMax : ℕ := 2147483647

/-- `printbuffer`, with the allocation `buffer` points to and the number of allocations so far. -/
structure PrintBuffer where
  content : List UInt8
  length : ℕ
  offset : ℕ
  calls : ℕ

/-- A call on the buffer. -/
abbrev Print (α : Type) := Checked PrintBuffer α

/-- The outside of the printer. -/
structure PrintEnv where
  /-- What the next allocation holds behind the bytes that it keeps, `none` when it fails. -/
  realloc : ℕ → Option (ℕ → UInt8)
  /-- What `sprintf` leaves in `number_buffer` for a number that is no `int`, with 15 digits or, where
  `sscanf` and `compare_double` do not find the number in these, with 17; it has no zero byte. -/
  sprintf : Binary64 → List UInt8
  sprintf_ne : ∀ x, 0 ∉ sprintf x

section Print

variable (env : PrintEnv)

/-- `realloc(buffer, size)`. -/
def reallocate (size : ℕ) : Print PUnit := fun p =>
  match env.realloc p.calls with
  | none => .fail p
  | some fresh =>
    .ok ⟨⟩ { p with
      content := p.content.take size ++ load fresh p.content.length (size - p.content.length)
      calls := p.calls + 1 }

/-- The buffer moves to `newsize` bytes. -/
def grow (newsize : ℕ) : Print ℕ := do
  reallocate env newsize
  Checked.modify fun p => { p with length := newsize }
  return (← Checked.get).offset

/-- `ensure`: the address of `needed` bytes; a `size_t` holds every length. -/
def ensure (needed : ℕ) : Print ℕ := do
  let p ← Checked.get
  if 0 < p.length ∧ p.length ≤ p.offset then Checked.fail
  else if intMax < needed then Checked.fail
  else
    let needed := needed + (p.offset + 1)
    if needed ≤ p.length then return p.offset
    else if intMax / 2 < needed then
      if needed ≤ intMax then grow env intMax else Checked.fail
    else grow env (needed * 2)

/-- Bytes stored at an address. -/
def putBytes (address : ℕ) (bytes : List UInt8) : Print PUnit := fun p =>
  if address + bytes.length ≤ p.content.length then
    .ok ⟨⟩ { p with content := writeAt p.content address bytes }
  else .fault

/-- `output_buffer->offset += n`. -/
def addOffset (n : ℕ) : Print PUnit := Checked.modify fun p => { p with offset := p.offset + n }

/-- The bytes of a string in front of its terminator. -/
def untilNul (s : List UInt8) : List UInt8 := s.takeWhile fun c => decide (c ≠ 0)

/-- `update_offset`, with its `strlen`. -/
def updateOffset : Print PUnit := fun p =>
  if 0 ∈ p.content.drop p.offset then
    .ok ⟨⟩ { p with offset := p.offset + (untilNul (p.content.drop p.offset)).length }
  else .fault

/-- Room for bytes and the terminator behind them, and the two stored. -/
def putString (text : List UInt8) : Print PUnit := do
  let output ← ensure env (text.length + 1)
  putBytes output (text ++ [0])

/-- A byte without a terminator, where there is room for `needed`. -/
def putByte (needed : ℕ) (c : UInt8) : Print PUnit := do
  putBytes (← ensure env needed) [c]
  addOffset 1

/-- The comma behind an item. -/
def putComma : Print PUnit := do
  putString env [Ascii.comma]
  addOffset 1

/-! ### Numbers -/

/-- What `print_number` has in `number_buffer`. -/
def numberText (fields : CJsonFields) : List UInt8 :=
  match fields.valuedouble with
  | .infinity _ => Ascii.null
  | .finite q =>
    if q = fields.valueint then (DecimalLit.ofInt fields.valueint).text
    else env.sprintf (.finite q)

/-- `print_number`. -/
def printNumber (fields : CJsonFields) : Print PUnit :=
  let text := numberText env fields
  if 25 < text.length then Checked.fail
  else do
    putString env text
    addOffset text.length

/-! ### Strings -/

/-- The byte behind the backslash, for what has an escape of two bytes. -/
def shortEscape (c : UInt8) : Option UInt8 :=
  if c = Ascii.quote ∨ c = Ascii.backslash then some c
  else if c = 0x08 then some 0x62
  else if c = 0x0c then some 0x66
  else if c = 0x0a then some 0x6e
  else if c = 0x0d then some 0x72
  else if c = 0x09 then some 0x74
  else none

/-- What an escape adds to a byte. -/
def escapeCharacters (c : UInt8) : ℕ :=
  if (shortEscape c).isSome then 1 else if c < 32 then 5 else 0

/-- A digit of `"%x"`. -/
def hexByte (n : ℕ) : UInt8 := UInt8.ofNat (if n < 10 then 0x30 + n else 0x57 + n)

/-- `"u%04x"` of a byte. -/
def unicodeDigits (c : UInt8) : List UInt8 :=
  [0x75, 0x30, 0x30, hexByte (c.toNat / 16), hexByte (c.toNat % 16)]

/-- The loop that copies a string, from `output_pointer` on. -/
def copyEscaped : List UInt8 → ℕ → Print PUnit
  | [], _ => return ⟨⟩
  | c :: rest, output =>
    if 31 < c ∧ c ≠ Ascii.quote ∧ c ≠ Ascii.backslash then do
      putBytes output [c]
      copyEscaped rest (output + 1)
    else do
      putBytes output [Ascii.backslash]
      match shortEscape c with
      | some e =>
        putBytes (output + 1) [e]
        copyEscaped rest (output + 2)
      | none =>
        -- with the terminator of `sprintf`
        putBytes (output + 1) (unicodeDigits c ++ [0])
        copyEscaped rest (output + 6)

/-- The bytes of a string with these `escape_characters`. -/
def putEscaped (s : List UInt8) (escapes output : ℕ) : Print PUnit :=
  if escapes = 0 then putBytes output s else copyEscaped s output

/-- `print_string_ptr`. -/
def printStringPtr (input : Option (List UInt8)) : Print PUnit :=
  match input with
  | none => putString env [Ascii.quote, Ascii.quote]
  | some input => do
    let s := untilNul input
    let escapes := (s.map escapeCharacters).sum
    let outputLength := s.length + escapes
    let output ← ensure env (outputLength + 3)
    putBytes output [Ascii.quote]
    putEscaped s escapes (output + 1)
    putBytes (output + outputLength + 1) [Ascii.quote]
    putBytes (output + outputLength + 2) [0]

/-! ### The recursion -/

/-- `print_array`, with its loop. -/
def printArray (loop : Print PUnit) : Print PUnit := do
  putByte env 1 Ascii.lbracket
  loop
  putString env [Ascii.rbracket]

/-- `print_object`, with its loop. -/
def printObject (loop : Print PUnit) : Print PUnit := do
  putByte env 2 Ascii.lbrace
  loop
  putString env [Ascii.rbrace]

/-- `print_value` of an item, with the loops over its `child`. -/
def printValue (fields : CJsonFields) (elements members : Print PUnit) : Print PUnit :=
  match fields.type with
  | .null => putString env Ascii.null
  | .false => putString env Ascii.false
  | .true => putString env Ascii.true
  | .number => printNumber env fields
  | .string => printStringPtr env fields.valuestring
  | .array => printArray env elements
  | .object => printObject env members
  | .invalid => Checked.fail

/-- The name of a member, and the colon. -/
def printName (string : Option (List UInt8)) : Print PUnit := do
  printStringPtr env string
  updateOffset
  putByte env 1 Ascii.colon

/-- A comma and `more`, if another item comes. -/
def printNext (next : CJson) (last more : Print PUnit) : Print PUnit :=
  match next with
  | .null => last
  | .item .. => do
    putComma env
    more

mutual

/-- The loop of `print_array`. -/
def printElements : CJson → Print PUnit
  | .null => return ⟨⟩
  | .item _ fields child next => do
    printValue env fields (printElements child) (printMembers child)
    updateOffset
    printNext env next (return ⟨⟩) (printElements next)

/-- The loop of `print_object`. -/
def printMembers : CJson → Print PUnit
  | .null => return ⟨⟩
  | .item string fields child next => do
    printName env string
    printValue env fields (printElements child) (printMembers child)
    updateOffset
    printNext env next (putString env []) (printMembers next)

end

/-- `print`: the bytes of the string that is returned, up to the end of its allocation. -/
def print (fields : CJsonFields) (child : CJson) : Print (List UInt8) := do
  let _ ← grow env 256
  printValue env fields (printElements env child) (printMembers env child)
  updateOffset
  reallocate env ((← Checked.get).offset + 1)
  return (← Checked.get).content

/-- `cJSON_PrintUnformatted`. -/
def cJSONPrintUnformatted (fields : CJsonFields) (child : CJson) :
    Outcome PrintBuffer (List UInt8) :=
  print env fields child ⟨[], 0, 0, 0⟩

/-! ### The text of an item -/

/-- What a byte of a string is written as. -/
def escapeText (c : UInt8) : List UInt8 :=
  if 31 < c ∧ c ≠ Ascii.quote ∧ c ≠ Ascii.backslash then [c]
  else
    match shortEscape c with
    | some e => [Ascii.backslash, e]
    | none => Ascii.backslash :: unicodeDigits c

/-- The text of a string. -/
def quotedText : Option (List UInt8) → List UInt8
  | none => [Ascii.quote, Ascii.quote]
  | some input => Ascii.quote :: ((untilNul input).flatMap escapeText ++ [Ascii.quote])

/-- One text behind another, if there are both. -/
def catText (s t : Option (List UInt8)) : Option (List UInt8) := s.bind fun s => t.map (s ++ ·)

/-- The text of an item, from those of its children; `none` if it has none. -/
def valueText (fields : CJsonFields) (elements members : Option (List UInt8)) :
    Option (List UInt8) :=
  match fields.type with
  | .null => some Ascii.null
  | .false => some Ascii.false
  | .true => some Ascii.true
  | .number => if 25 < (numberText env fields).length then none else some (numberText env fields)
  | .string => some (quotedText fields.valuestring)
  | .array => catText (some [Ascii.lbracket]) (catText elements (some [Ascii.rbracket]))
  | .object => catText (some [Ascii.lbrace]) (catText members (some [Ascii.rbrace]))
  | .invalid => none

/-- The text of the items behind one. -/
def nextText (next : CJson) (more : Option (List UInt8)) : Option (List UInt8) :=
  match next with
  | .null => some []
  | .item .. => catText (some [Ascii.comma]) more

mutual

/-- The text of the items of an array. -/
def elementsText : CJson → Option (List UInt8)
  | .null => some []
  | .item _ fields child next =>
    catText (valueText env fields (elementsText child) (membersText child))
      (nextText next (elementsText next))

/-- The text of the items of an object. -/
def membersText : CJson → Option (List UInt8)
  | .null => some []
  | .item string fields child next =>
    catText (catText (some (quotedText string)) (some [Ascii.colon]))
      (catText (valueText env fields (elementsText child) (membersText child))
        (nextText next (membersText next)))

end

end Print

/-! ### The buffer, at its text -/

open Checked

variable {env : PrintEnv} {p : PrintBuffer} {text : List UInt8}

/-- The allocation is as long as the buffer takes it for, and the offset in it. -/
structure PrintBuffer.Sound (p : PrintBuffer) : Prop where
  length_content : p.content.length = p.length
  offset_lt : p.offset < p.length
  length_le : p.length ≤ intMax

/-- The text in front of the offset. -/
def PrintBuffer.written (p : PrintBuffer) : List UInt8 := p.content.take p.offset

theorem PrintBuffer.Sound.length_written (h : p.Sound) : p.written.length = p.offset := by
  rw [PrintBuffer.written, List.length_take, h.length_content]
  exact min_eq_left h.offset_lt.le

theorem PrintBuffer.Sound.written_prefix (_ : p.Sound) : p.written <+: p.content :=
  List.take_prefix _ _

/-- The text is stored, with its terminator, and the offset is somewhere on the way. -/
structure Printed (p : PrintBuffer) (s : List UInt8) (p' : PrintBuffer) : Prop where
  sound : p'.Sound
  le_offset : p.offset ≤ p'.offset
  offset_le : p'.offset ≤ p.offset + s.length
  stored : p.written ++ (s ++ [0]) <+: p'.content

/-- The text is stored, and the offset is behind it. -/
structure Wrote (p : PrintBuffer) (s : List UInt8) (p' : PrintBuffer) : Prop where
  sound : p'.Sound
  written : p'.written = p.written ++ s

/-- Why a call on the buffer fails that stores the text, and leaves `q`: the allocation it asked
for last fails, or the text is too long.  Without a text it always fails. -/
def Refused (env : PrintEnv) (p : PrintBuffer) (text : Option (List UInt8)) (q : PrintBuffer) :
    Prop :=
  ∀ s ∈ text, env.realloc q.calls = none ∨ intMax < p.offset + s.length + 2

/-- Cells stored behind what is there. -/
theorem prefix_writeAt {s buf cells : List UInt8} (hs : s <+: buf)
    (hroom : s.length + cells.length ≤ buf.length) :
    s ++ cells <+: writeAt buf s.length cells := by
  obtain ⟨t, rfl⟩ := hs
  rw [writeAt, List.take_left, ← List.append_assoc]
  exact List.prefix_append _ _

theorem putBytes_ok {s : List UInt8} (address : ℕ) (bytes : List UInt8) (hs : s <+: p.content)
    (haddress : address = s.length) (hroom : s.length + bytes.length ≤ p.content.length) :
    ∃ content, putBytes address bytes p = .ok ⟨⟩ { p with content := content } ∧
      s ++ bytes <+: content ∧ content.length = p.content.length := by
  subst haddress
  refine ⟨writeAt p.content s.length bytes, ?_, prefix_writeAt hs hroom, length_writeAt hroom⟩
  rw [putBytes, if_pos hroom]

/-- The buffer moves. -/
theorem grow_ends (hsound : p.Sound) {newsize needed : ℕ} (hle : p.length ≤ newsize)
    (hmax : newsize ≤ intMax)
    (hneeded : p.offset + needed < newsize) (R : PrintBuffer → Prop)
    (hR : env.realloc p.calls = none → R p) :
    Ends (grow env newsize) p (fun address p' => address = p.offset ∧ p'.Sound ∧
      p'.offset = p.offset ∧ p'.written = p.written ∧ p.offset + needed < p'.length) R := by
  cases hfresh : env.realloc p.calls with
  | none =>
    refine .of_fail (t := p) ?_ (hR hfresh)
    rw [grow]
    show andThen _ _ _ = _
    rw [andThen, reallocate, hfresh]
  | some fresh =>
    have hcalls : reallocate env newsize p = .ok ⟨⟩ { p with
        content := p.content.take newsize ++ load fresh p.content.length (newsize - p.content.length)
        calls := p.calls + 1 } := by
      rw [reallocate, hfresh]
    have hlen := hsound.length_content
    have hlt := hsound.offset_lt
    refine .bind_ok hcalls (.of_ok rfl ⟨rfl, ⟨?_, ?_, hmax⟩, rfl, ?_, hneeded⟩)
    · show (p.content.take newsize ++ _).length = newsize
      rw [List.length_append, List.length_take, length_load]
      omega
    · show p.offset < newsize
      omega
    · show (p.content.take newsize ++ _).take p.offset = p.content.take p.offset
      rw [List.take_append_of_le_length (by rw [List.length_take]; omega), List.take_take,
        min_eq_left (by omega)]

/-- **`ensure`**: room for `needed` bytes and one more behind the text. -/
theorem ensure_ends (hsound : p.Sound) {needed bound : ℕ} (hbound : p.offset + needed + 1 ≤ bound) :
    Ends (ensure env needed) p (fun address p' => address = p.offset ∧ p'.Sound ∧
      p'.offset = p.offset ∧ p'.written = p.written ∧ p.offset + needed < p'.length)
      (fun q => env.realloc q.calls = none ∨ intMax < bound) := by
  have hlt := hsound.offset_lt
  have hmax : intMax = 2147483647 := rfl
  rw [ensure]
  refine .bind_ok rfl ?_
  rw [if_neg (by omega)]
  by_cases hlarge : intMax < needed
  · rw [if_pos hlarge]
    exact .of_fail rfl (.inr (by omega))
  rw [if_neg hlarge]
  dsimp only
  split_ifs with hroom hhalf hfits
  · exact .of_ok rfl ⟨rfl, hsound, rfl, rfl, by omega⟩
  · exact grow_ends hsound (by omega) (by omega) (by omega) _ .inl
  · exact .of_fail rfl (.inr (by omega))
  · exact grow_ends hsound (by omega) (by omega) (by omega) _ .inl

/-- A part of a text fails for the reasons of the text. -/
theorem Refused.of_bound {bound : ℕ} {r : PrintBuffer}
    (h : env.realloc r.calls = none ∨ intMax < bound) {text : Option (List UInt8)}
    (hle : ∀ s ∈ text, bound ≤ p.offset + s.length + 2) : Refused env p text r := by
  intro s hs
  exact h.imp_right fun hlt => hlt.trans_le (hle s hs)

/-- A text at the offset, with its terminator. -/
theorem Printed.of_stored {p' q : PrintBuffer} (hsound : q.Sound) (hoffset : q.offset = p.offset)
    (hwritten : q.written = p.written) {content : List UInt8} (hlen : content.length = q.content.length)
    (hstored : q.written ++ (text ++ [0]) <+: content) (hp' : p' = { q with content := content }) :
    Printed p text p' := by
  subst hp'
  refine ⟨⟨hlen.trans hsound.length_content, hsound.offset_lt, hsound.length_le⟩, le_of_eq hoffset.symm, ?_, ?_⟩
  · show q.offset ≤ _
    rw [hoffset]
    exact Nat.le_add_right _ _
  · rwa [← hwritten]

theorem putString_ends (hsound : p.Sound) {bound : ℕ} (hbound : p.offset + text.length + 2 ≤ bound) :
    Ends (putString env text) p (fun _ p' => Printed p text p' ∧ p'.offset = p.offset)
      (fun q => env.realloc q.calls = none ∨ intMax < bound) := by
  rw [putString]
  refine .bind (ensure_ends hsound (by omega)) ?_
  rintro _ q ⟨rfl, hsound', hoffset, hwritten, hroom⟩
  have hlength := hsound'.length_content
  obtain ⟨content, hput, hstored, hlen⟩ := putBytes_ok _ (text ++ [0])
    hsound'.written_prefix (hsound'.length_written.trans hoffset).symm (by
      rw [hsound'.length_written, List.length_append, List.length_singleton]
      omega)
  exact .of_ok hput ⟨.of_stored hsound' hoffset hwritten hlen hstored rfl, hoffset⟩

theorem untilNul_append {s rest : List UInt8} (h : 0 ∉ s) : untilNul (s ++ 0 :: rest) = s := by
  rw [untilNul, List.takeWhile_append_of_pos]
  · rw [List.takeWhile_cons_of_neg (by simp), List.append_nil]
  · intro c hc
    exact decide_eq_true fun hzero => h (hzero ▸ hc)

/-- The buffer with the offset behind the text. -/
def PrintBuffer.behind (p' p : PrintBuffer) (text : List UInt8) : PrintBuffer :=
  { p' with offset := p.offset + text.length }

theorem Printed.behind {p' : PrintBuffer} (h : Printed p text p') (hp : p.Sound) :
    Wrote p text (p'.behind p text) ∧ Printed p text (p'.behind p text) := by
  obtain ⟨rest, hrest⟩ := h.stored
  have hcontent : p'.content = p.written ++ text ++ 0 :: rest := by
    rw [← hrest]
    simp only [List.append_assoc, List.singleton_append]
  have hlength := h.sound.length_content
  have hroom : p.offset + text.length < p'.length := by
    rw [← hlength, hcontent]
    simp only [List.length_append, List.length_cons, hp.length_written]
    omega
  refine ⟨⟨⟨hlength, hroom, h.sound.length_le⟩, ?_⟩, ⟨hlength, hroom, h.sound.length_le⟩,
    Nat.le_add_right _ _, le_rfl, h.stored⟩
  show p'.content.take (p.offset + text.length) = _
  rw [hcontent, ← hp.length_written, ← List.length_append, List.take_left]

/-- **`update_offset`** goes behind the text. -/
theorem updateOffset_of_printed {p' : PrintBuffer} (h : Printed p text p') (hp : p.Sound)
    (htext : 0 ∉ text) : updateOffset p' = .ok ⟨⟩ (p'.behind p text) := by
  obtain ⟨rest, hrest⟩ := h.stored
  obtain ⟨k, hk⟩ := Nat.exists_eq_add_of_le h.le_offset
  have hle : k ≤ text.length := by
    have hoffset := h.offset_le
    omega
  have hdrop : p'.content.drop p'.offset = text.drop k ++ 0 :: rest := by
    rw [← hrest, hk, List.append_assoc, ← hp.length_written, ← List.drop_drop, List.drop_left,
      List.append_assoc, List.drop_append_of_le_length hle]
    rfl
  have hzero : 0 ∉ text.drop k := fun hmem => htext (List.mem_of_mem_drop hmem)
  have hend : p'.offset + (text.drop k).length = p.offset + text.length := by
    rw [List.length_drop]
    omega
  rw [updateOffset, hdrop, untilNul_append hzero, hend, if_pos (by simp)]
  rfl

/-- The length added behind a text at the offset. -/
theorem addOffset_of_printed {p' : PrintBuffer} (hoffset : p'.offset = p.offset) :
    addOffset text.length p' = .ok ⟨⟩ (p'.behind p text) := by
  rw [PrintBuffer.behind, ← hoffset]
  rfl

/-! ### Strings -/

theorem shortEscape_of_plain {c : UInt8} (h : 31 < c ∧ c ≠ Ascii.quote ∧ c ≠ Ascii.backslash) :
    shortEscape c = none := by
  obtain ⟨hlt, hquote, hbackslash⟩ := h
  have hne : ∀ d : UInt8, d ≤ 31 → c ≠ d := by
    rintro d hd rfl
    exact absurd hlt (UInt8.not_lt.mpr hd)
  rw [shortEscape, if_neg (by simp [hquote, hbackslash]), if_neg (hne _ (by decide)),
    if_neg (hne _ (by decide)), if_neg (hne _ (by decide)), if_neg (hne _ (by decide)),
    if_neg (hne _ (by decide))]

theorem lt_of_not_plain {c : UInt8}
    (h : ¬ (31 < c ∧ c ≠ Ascii.quote ∧ c ≠ Ascii.backslash)) (hshort : shortEscape c = none) :
    c < 32 := by
  by_contra hle
  refine h ⟨?_, ?_, ?_⟩
  · exact UInt8.lt_of_lt_of_le (by decide) (UInt8.not_lt.mp hle)
  · rintro rfl
    cases hshort
  · rintro rfl
    cases hshort

/-- The bytes counted are the bytes written. -/
theorem length_escapeText (c : UInt8) : (escapeText c).length = 1 + escapeCharacters c := by
  rw [escapeText, escapeCharacters]
  split_ifs with hplain hshort hlow hshort hlow
  · rw [shortEscape_of_plain hplain] at hshort
    cases hshort
  · exact absurd hplain.1 (UInt8.not_lt.mpr (by
      rw [UInt8.lt_iff_toNat_lt] at hlow
      rw [UInt8.le_iff_toNat_le]
      exact Nat.le_of_lt_succ hlow))
  · rfl
  · obtain ⟨e, he⟩ := Option.isSome_iff_exists.mp hshort
    rw [he]
    rfl
  · rw [Option.not_isSome_iff_eq_none.mp hshort]
    rfl
  · exact absurd (lt_of_not_plain hplain (Option.not_isSome_iff_eq_none.mp hshort)) hlow

theorem escapeText_of_plain {c : UInt8} (h : escapeCharacters c = 0) : escapeText c = [c] := by
  by_cases hplain : 31 < c ∧ c ≠ Ascii.quote ∧ c ≠ Ascii.backslash
  · rw [escapeText, if_pos hplain]
  · rw [escapeCharacters] at h
    split_ifs at h with hshort hlow
    exact absurd (lt_of_not_plain hplain (Option.not_isSome_iff_eq_none.mp hshort)) hlow

theorem length_flatMap_escapeText (s : List UInt8) :
    (s.flatMap escapeText).length = s.length + (s.map escapeCharacters).sum := by
  induction s with
  | nil => rfl
  | cons c s ih =>
    rw [List.flatMap_cons, List.length_append, length_escapeText, ih, List.length_cons,
      List.map_cons, List.sum_cons]
    omega

/-- Without escapes the string is its own text. -/
theorem flatMap_escapeText_of_plain {s : List UInt8} (h : (s.map escapeCharacters).sum = 0) :
    s.flatMap escapeText = s := by
  induction s with
  | nil => rfl
  | cons c s ih =>
    rw [List.map_cons, List.sum_cons] at h
    rw [List.flatMap_cons, escapeText_of_plain (by omega), ih (by omega)]
    rfl

theorem hexByte_ne {n : ℕ} (h : n < 16) : hexByte n ≠ 0 := by
  interval_cases n <;> decide

theorem escapeText_ne {c : UInt8} (h : c ≠ 0) : 0 ∉ escapeText c := by
  rw [escapeText]
  have hlt := c.toNat_lt
  split_ifs with hplain
  · simpa using h.symm
  · cases hshort : shortEscape c with
    | none =>
      have hhigh := (hexByte_ne (n := c.toNat / 16) (by omega)).symm
      have hlow := (hexByte_ne (n := c.toNat % 16) (by omega)).symm
      simp [unicodeDigits, hhigh, hlow, Ascii.backslash]
    | some e =>
      have hne : e ≠ 0 := by
        rintro rfl
        rw [shortEscape] at hshort
        split_ifs at hshort
        · exact h (Option.some_inj.mp hshort)
        all_goals exact absurd (Option.some_inj.mp hshort) (by decide)
      simp [hne.symm, Ascii.backslash]

/-- **The copying loop** writes the escaped string behind what is there. -/
theorem copyEscaped_ok : ∀ {s : List UInt8} {p : PrintBuffer} {front : List UInt8},
    front <+: p.content → front.length + (s.flatMap escapeText).length < p.content.length →
    ∃ content, copyEscaped s front.length p = .ok ⟨⟩ { p with content := content } ∧
      front ++ s.flatMap escapeText <+: content ∧ content.length = p.content.length := by
  intro s
  induction s with
  | nil =>
    intro p front hfront _
    exact ⟨p.content, rfl, by rwa [List.flatMap_nil, List.append_nil], rfl⟩
  | cons c s ih =>
    intro p front hfront hroom
    rw [List.flatMap_cons, List.length_append] at hroom
    -- the rest, behind what this round has written
    have hrest : ∀ {text content : List UInt8} {n : ℕ}, escapeText c = text →
        front ++ text <+: content → content.length = p.content.length →
        n = front.length + text.length → ∃ content',
          copyEscaped s n { p with content := content } = .ok ⟨⟩ { p with content := content' } ∧
            front ++ (text ++ s.flatMap escapeText) <+: content' ∧
            content'.length = p.content.length := by
      rintro _ content _ rfl hfront' hlen rfl
      obtain ⟨content', hcopy, hfront'', hlen'⟩ := ih (p := { p with content := content }) hfront' (by
        rw [List.length_append]
        show _ < content.length
        omega)
      rw [List.length_append] at hcopy
      refine ⟨content', hcopy, ?_, hlen'.trans hlen⟩
      rwa [List.append_assoc] at hfront''
    rw [copyEscaped, List.flatMap_cons]
    split_ifs with hplain
    · have htext : escapeText c = [c] := if_pos hplain
      rw [htext, List.length_singleton] at hroom
      obtain ⟨content, hput, hstored, hlen⟩ := putBytes_ok _ [c] hfront rfl (by
        rw [List.length_singleton]
        omega)
      rw [bind_of_ok hput, htext]
      exact hrest htext hstored hlen rfl
    · have hslash : 1 ≤ (escapeText c).length := by
        rw [length_escapeText]
        omega
      obtain ⟨content, hput, hstored, hlen⟩ := putBytes_ok _ [Ascii.backslash] hfront rfl
        (by rw [List.length_singleton]; omega)
      rw [bind_of_ok hput]
      cases hshort : shortEscape c with
      | some e =>
        have htext : escapeText c = [Ascii.backslash, e] := by rw [escapeText, if_neg hplain, hshort]
        rw [htext] at hroom ⊢
        obtain ⟨content', hput', hstored', hlen'⟩ := putBytes_ok
          (p := { p with content := content }) (front.length + 1) [e] hstored
          (by rw [List.length_append]; rfl) (by
            rw [List.length_append]
            show front.length + 1 + 1 ≤ content.length
            simp only [List.length_cons, List.length_nil] at hroom
            omega)
        simp only []
        rw [bind_of_ok hput']
        rw [List.append_assoc] at hstored'
        exact hrest htext hstored' (hlen'.trans hlen) rfl
      | none =>
        have htext : escapeText c = Ascii.backslash :: unicodeDigits c := by
          rw [escapeText, if_neg hplain, hshort]
        rw [htext] at hroom ⊢
        have hdigits : (unicodeDigits c).length = 5 := rfl
        rw [List.length_cons, hdigits] at hroom
        obtain ⟨content', hput', hstored', hlen'⟩ := putBytes_ok
          (p := { p with content := content }) (front.length + 1)
          (unicodeDigits c ++ [0]) hstored (by rw [List.length_append]; rfl) (by
            rw [List.length_append, List.length_append, hdigits]
            show front.length + 1 + (5 + 1) ≤ content.length
            omega)
        simp only []
        rw [bind_of_ok hput']
        rw [← List.append_assoc, List.append_assoc front] at hstored'
        exact hrest htext ((List.prefix_append _ _).trans hstored') (hlen'.trans hlen) rfl

theorem length_quotedText (input : List UInt8) :
    (quotedText (some input)).length =
      (untilNul input).length + ((untilNul input).map escapeCharacters).sum + 2 := by
  rw [quotedText, List.length_cons, List.length_append, length_flatMap_escapeText,
    List.length_singleton]

/-- **`print_string_ptr`** writes the string between quotes. -/
theorem printStringPtr_ends (hp : p.Sound) (input : Option (List UInt8)) {bound : ℕ}
    (hbound : p.offset + (quotedText input).length + 2 ≤ bound) :
    Ends (printStringPtr env input) p (fun _ p' => Printed p (quotedText input) p')
      (fun q => env.realloc q.calls = none ∨ intMax < bound) := by
  cases input with
  | none => exact (putString_ends hp hbound).imp (fun _ _ h => h.1) fun _ h => h
  | some input =>
    rw [length_quotedText] at hbound
    rw [printStringPtr]
    refine .bind (ensure_ends hp (by omega)) ?_
    rintro _ q ⟨rfl, hsound, hoffset, hwritten, hroom⟩
    set s := untilNul input with hs
    have hlength := hsound.length_content
    have hfront := hsound.length_written
    have htext := length_flatMap_escapeText s
    obtain ⟨content, hopen, hstored, hlen⟩ := putBytes_ok _ [Ascii.quote]
      hsound.written_prefix (hfront.trans hoffset).symm (by
        rw [hfront, List.length_singleton]
        omega)
    -- the string, either way
    have hcopy : ∃ content', putEscaped s (s.map escapeCharacters).sum (p.offset + 1)
          { q with content := content } = .ok ⟨⟩ { q with content := content' } ∧
        q.written ++ [Ascii.quote] ++ s.flatMap escapeText <+: content' ∧
        content'.length = q.content.length := by
      have haddress : p.offset + 1 = (q.written ++ [Ascii.quote]).length := by
        rw [List.length_append, hfront, hoffset, List.length_singleton]
      rw [putEscaped]
      split_ifs with hplain
      · obtain ⟨content', hput, hstored', hlen'⟩ := putBytes_ok (p := { q with content := content })
          _ s hstored haddress (by
            rw [← haddress]
            show p.offset + 1 + s.length ≤ content.length
            omega)
        rw [flatMap_escapeText_of_plain hplain]
        exact ⟨content', hput, hstored', hlen'.trans hlen⟩
      · obtain ⟨content', hput, hstored', hlen'⟩ :=
          copyEscaped_ok (s := s) (p := { q with content := content }) hstored (by
            rw [← haddress, htext]
            show p.offset + 1 + _ < content.length
            omega)
        rw [← haddress] at hput
        exact ⟨content', hput, hstored', hlen'.trans hlen⟩
    obtain ⟨content', hcopied, hstored', hlen'⟩ := hcopy
    have hsize : (q.written ++ [Ascii.quote] ++ s.flatMap escapeText).length =
        p.offset + (s.length + (s.map escapeCharacters).sum) + 1 := by
      rw [List.length_append, List.length_append, hfront, htext, List.length_singleton]
      omega
    obtain ⟨content'', hclose, hstored'', hlen''⟩ := putBytes_ok
      (p := { q with content := content' }) _ [Ascii.quote] hstored' hsize.symm (by
        rw [hsize, List.length_singleton]
        show _ ≤ content'.length
        omega)
    have hlen₂ : content''.length = q.content.length := hlen''.trans hlen'
    obtain ⟨content₃, hend, hstored₃, hlen₃⟩ := putBytes_ok
      (p := { q with content := content'' })
      (p.offset + (s.length + (s.map escapeCharacters).sum) + 2) [0] hstored'' (by
        rw [List.length_append, hsize, List.length_singleton]) (by
        rw [List.length_append, hsize, List.length_singleton, List.length_singleton]
        show _ ≤ content''.length
        omega)
    refine .bind_ok hopen (.bind_ok hcopied (.bind_ok hclose (.of_ok hend ?_)))
    refine .of_stored hsound hoffset hwritten (hlen₃.trans hlen₂) ?_ rfl
    rw [quotedText, ← hs]
    simpa only [List.append_assoc, List.cons_append, List.nil_append] using hstored₃

/-! ### Calls that write a text -/

/-- The call stores the text and moves behind it, or fails for one of two reasons. -/
def Writes (env : PrintEnv) (m : Print PUnit) (text : Option (List UInt8)) : Prop :=
  ∀ p : PrintBuffer, p.Sound →
    Ends m p (fun _ p' => ∃ s ∈ text, Wrote p s p') (Refused env p text)

/-- The call stores the text with its terminator, or fails for one of two reasons. -/
def Prints (env : PrintEnv) (m : Print PUnit) (text : Option (List UInt8)) : Prop :=
  ∀ p : PrintBuffer, p.Sound →
    Ends m p (fun _ p' => ∃ s ∈ text, Printed p s p') (Refused env p text)

theorem mem_catText {s t : Option (List UInt8)} {w : List UInt8} :
    w ∈ catText s t ↔ ∃ u ∈ s, ∃ v ∈ t, w = u ++ v := by
  constructor
  · intro h
    obtain ⟨u, hu, h⟩ := Option.bind_eq_some_iff.mp h
    obtain ⟨v, hv, rfl⟩ := Option.map_eq_some_iff.mp h
    exact ⟨u, hu, v, hv, rfl⟩
  · rintro ⟨u, hu, v, hv, rfl⟩
    exact Option.bind_eq_some_iff.mpr ⟨u, hu, Option.map_eq_some_iff.mpr ⟨v, hv, rfl⟩⟩

theorem Wrote.offset_eq {q : PrintBuffer} (h : Wrote p text q) (hp : p.Sound) :
    q.offset = p.offset + text.length := by
  rw [← h.sound.length_written, h.written, List.length_append, hp.length_written]

theorem Wrote.trans {q r : PrintBuffer} {t : List UInt8} (h : Wrote p text q) (ht : Wrote q t r) :
    Wrote p (text ++ t) r :=
  ⟨ht.sound, by rw [ht.written, h.written, List.append_assoc]⟩

theorem Wrote.printed {q r : PrintBuffer} {t : List UInt8} (h : Wrote p text q) (hp : p.Sound)
    (ht : Printed q t r) : Printed p (text ++ t) r := by
  have hoffset := h.offset_eq hp
  have hge := ht.le_offset
  have hle := ht.offset_le
  refine ⟨ht.sound, by omega, by rw [List.length_append]; omega, ?_⟩
  have hstored := ht.stored
  rw [h.written] at hstored
  simpa only [List.append_assoc] using hstored

/-- The first of two parts fails for the reasons of the whole. -/
theorem Refused.first {s t : Option (List UInt8)} {r : PrintBuffer} (h : Refused env p s r) :
    Refused env p (catText s t) r := by
  intro w hw
  obtain ⟨u, hu, v, -, rfl⟩ := mem_catText.mp hw
  refine (h u hu).imp_right fun hlt => ?_
  rw [List.length_append]
  omega

/-- So does the second. -/
theorem Refused.second {s t : Option (List UInt8)} {q r : PrintBuffer} {u : List UInt8}
    (h : Refused env q t r) (hp : p.Sound) (hs : s = some u) (hq : Wrote p u q) :
    Refused env p (catText s t) r := by
  intro w hw
  obtain ⟨u', hu', v, hv, rfl⟩ := mem_catText.mp hw
  obtain rfl : u' = u := Option.some_inj.mp ((Option.mem_def.mp hu').symm.trans hs)
  have hoffset := hq.offset_eq hp
  refine (h v hv).imp_right fun hlt => ?_
  rw [List.length_append]
  omega

section Rules

variable {m m' : Print PUnit} {s t : Option (List UInt8)}

/-- One text behind another. -/
theorem Writes.seq (h : Writes env m s) (h' : Writes env m' t) :
    Writes env (m >>= fun _ => m') (catText s t) := by
  intro p hp
  refine .bind ((h p hp).imp (fun _ _ h => h) fun _ hr => hr.first) ?_
  rintro _ q ⟨u, hu, hq⟩
  refine (h' q hq.sound).imp ?_ fun _ hr => hr.second hp hu hq
  rintro _ r ⟨v, hv, hr⟩
  exact ⟨u ++ v, mem_catText.mpr ⟨u, hu, v, hv, rfl⟩, hq.trans hr⟩

theorem Writes.seq_prints (h : Writes env m s) (h' : Prints env m' t) :
    Prints env (m >>= fun _ => m') (catText s t) := by
  intro p hp
  refine .bind ((h p hp).imp (fun _ _ h => h) fun _ hr => hr.first) ?_
  rintro _ q ⟨u, hu, hq⟩
  refine (h' q hq.sound).imp ?_ fun _ hr => hr.second hp hu hq
  rintro _ r ⟨v, hv, hr⟩
  exact ⟨u ++ v, mem_catText.mpr ⟨u, hu, v, hv, rfl⟩, hq.printed hp hr⟩

/-- `update_offset` behind a text. -/
theorem Prints.update (h : Prints env m s) (hs : ∀ u ∈ s, 0 ∉ u) :
    Writes env (m >>= fun _ => updateOffset) s := by
  intro p hp
  refine .bind (h p hp) ?_
  rintro _ q ⟨u, hu, hq⟩
  exact .of_ok (updateOffset_of_printed hq hp (hs u hu)) ⟨u, hu, (hq.behind hp).1⟩

theorem writes_nil : Writes env (pure ⟨⟩) (some []) := by
  intro p hp
  exact .of_ok rfl ⟨[], rfl, hp, (List.append_nil _).symm⟩

theorem prints_putString (text : List UInt8) : Prints env (putString env text) (some text) := by
  intro p hp
  refine (putString_ends hp le_rfl).imp (fun _ _ h => ⟨text, rfl, h.1⟩) ?_
  intro _ h
  refine .of_bound h ?_
  rintro _ ⟨⟩
  exact le_rfl

/-- Text and terminator at the offset, which is moved behind the text. -/
theorem putString_addOffset (text : List UInt8) (p : PrintBuffer) (hp : p.Sound) :
    Ends (putString env text >>= fun _ => addOffset text.length) p
      (fun _ p' => Wrote p text p' ∧ Printed p text p') (Refused env p (some text)) := by
  refine .bind ((putString_ends hp le_rfl).imp (fun _ _ h => h) ?_) ?_
  · intro _ h
    refine .of_bound h ?_
    rintro _ ⟨⟩
    exact le_rfl
  · rintro _ q ⟨hq, hoffset⟩
    exact .of_ok (addOffset_of_printed hoffset) (hq.behind hp)

theorem writes_putComma : Writes env (putComma env) (some [Ascii.comma]) := by
  intro p hp
  exact (putString_addOffset [Ascii.comma] p hp).imp (fun _ _ h => ⟨_, rfl, h.1⟩) fun _ h => h

/-- The terminator alone. -/
theorem writes_putString_nil : Writes env (putString env []) (some []) := by
  intro p hp
  refine (putString_ends hp le_rfl).imp ?_ ?_
  · rintro _ q ⟨hq, hoffset⟩
    have hwrote := (hq.behind hp).1
    rw [show q.behind p [] = q by rw [PrintBuffer.behind, List.length_nil, Nat.add_zero, ← hoffset]]
      at hwrote
    exact ⟨[], rfl, hwrote⟩
  · intro _ h
    refine .of_bound h ?_
    rintro _ ⟨⟩
    exact le_rfl

/-- A byte, where there is room for one or two. -/
theorem writes_putByte {needed : ℕ} (hpos : 1 ≤ needed) (hle : needed ≤ 2) (c : UInt8) :
    Writes env (putByte env needed c) (some [c]) := by
  intro p hp
  rw [putByte]
  refine .bind ((ensure_ends hp (le_refl (p.offset + needed + 1))).imp (fun _ _ h => h) ?_) ?_
  · intro _ h
    refine .of_bound h ?_
    rintro _ ⟨⟩
    rw [List.length_singleton]
    omega
  rintro _ q ⟨rfl, hsound, hoffset, hwritten, hroom⟩
  have hlength := hsound.length_content
  obtain ⟨content, hput, hstored, hlen⟩ := putBytes_ok _ [c] hsound.written_prefix
    (hsound.length_written.trans hoffset).symm (by
      rw [hsound.length_written, List.length_singleton]
      omega)
  refine .bind_ok hput (.of_ok rfl ⟨[c], rfl, ⟨hlen.trans hlength, ?_, hsound.length_le⟩, ?_⟩)
  · show q.offset + 1 < q.length
    omega
  · obtain ⟨rest, rfl⟩ := hstored
    show (q.written ++ [c] ++ rest).take (q.offset + 1) = _
    rw [← hwritten, ← hsound.length_written, ← List.length_singleton (a := c), ← List.length_append,
      List.take_left]

end Rules

/-! ### No text has a zero byte -/

/-- A text without a zero byte, if there is one. -/
def NulFree (text : Option (List UInt8)) : Prop := ∀ s ∈ text, 0 ∉ s

theorem NulFree.cat {s t : Option (List UInt8)} (hs : NulFree s) (ht : NulFree t) :
    NulFree (catText s t) := by
  intro w hw
  obtain ⟨u, hu, v, hv, rfl⟩ := mem_catText.mp hw
  rw [List.mem_append]
  rintro (h | h)
  · exact hs u hu h
  · exact ht v hv h

theorem nulFree_some (h : 0 ∉ text) : NulFree (some text) := by
  rintro _ ⟨⟩
  exact h

theorem ne_of_mem_untilNul {s : List UInt8} {c : UInt8} (h : c ∈ untilNul s) : c ≠ 0 := by
  rw [untilNul] at h
  exact of_decide_eq_true (List.mem_takeWhile_imp (p := fun c => decide (c ≠ 0)) h)

theorem quotedText_ne (input : Option (List UInt8)) : 0 ∉ quotedText input := by
  cases input with
  | none => decide
  | some input =>
    rw [quotedText, List.mem_cons, List.mem_append, List.mem_flatMap]
    rintro (h | ⟨c, hc, h⟩ | h)
    · exact absurd h (by decide)
    · exact escapeText_ne (ne_of_mem_untilNul hc) h
    · exact absurd (List.mem_singleton.mp h) (by decide)

theorem numberText_ne (fields : CJsonFields) : 0 ∉ numberText env fields := by
  rw [numberText]
  split
  · decide
  · split_ifs
    · intro h
      exact absurd (isNumberByte_of_mem h) (by decide)
    · exact env.sprintf_ne _

theorem valueText_nulFree (fields : CJsonFields) {elements members : Option (List UInt8)}
    (helements : NulFree elements) (hmembers : NulFree members) :
    NulFree (valueText env fields elements members) := by
  rw [valueText]
  split
  · exact nulFree_some (by decide)
  · exact nulFree_some (by decide)
  · exact nulFree_some (by decide)
  · split_ifs
    · rintro _ ⟨⟩
    · exact nulFree_some (numberText_ne fields)
  · exact nulFree_some (quotedText_ne _)
  · exact (nulFree_some (by decide)).cat (helements.cat (nulFree_some (by decide)))
  · exact (nulFree_some (by decide)).cat (hmembers.cat (nulFree_some (by decide)))
  · rintro _ ⟨⟩

theorem nextText_nulFree (next : CJson) {more : Option (List UInt8)} (h : NulFree more) :
    NulFree (nextText next more) := by
  cases next with
  | null => exact nulFree_some (by decide)
  | item _ _ _ _ => exact (nulFree_some (by decide)).cat h

mutual

theorem elementsText_nulFree : ∀ item : CJson, NulFree (elementsText env item)
  | .null => by
    rw [elementsText]
    exact nulFree_some (by decide)
  | .item _ fields child next => by
    rw [elementsText]
    exact (valueText_nulFree fields (elementsText_nulFree child) (membersText_nulFree child)).cat
      (nextText_nulFree next (elementsText_nulFree next))

theorem membersText_nulFree : ∀ item : CJson, NulFree (membersText env item)
  | .null => by
    rw [membersText]
    exact nulFree_some (by decide)
  | .item string fields child next => by
    rw [membersText]
    exact ((nulFree_some (quotedText_ne string)).cat (nulFree_some (by decide))).cat
      ((valueText_nulFree fields (elementsText_nulFree child) (membersText_nulFree child)).cat
        (nextText_nulFree next (membersText_nulFree next)))

end

/-! ### The recursion writes the text -/

theorem prints_printNumber (fields : CJsonFields) :
    Prints env (printNumber env fields)
      (if 25 < (numberText env fields).length then none else some (numberText env fields)) := by
  intro p hp
  rw [printNumber]
  split_ifs with hlong
  · refine .of_fail rfl ?_
    rintro _ ⟨⟩
  · exact (putString_addOffset (numberText env fields) p hp).imp (fun _ _ h => ⟨_, rfl, h.2⟩)
      fun _ h => h

theorem prints_printStringPtr (input : Option (List UInt8)) :
    Prints env (printStringPtr env input) (some (quotedText input)) := by
  intro p hp
  refine (printStringPtr_ends hp input le_rfl).imp (fun _ _ h => ⟨_, rfl, h⟩) ?_
  intro _ h
  refine .of_bound h ?_
  rintro _ ⟨⟩
  exact le_rfl

/-- **`print_value`**, from the loops over the children. -/
theorem prints_printValue (fields : CJsonFields) {elements members : Print PUnit}
    {e m : Option (List UInt8)} (helements : Writes env elements e)
    (hmembers : Writes env members m) :
    Prints env (printValue env fields elements members) (valueText env fields e m) := by
  rw [printValue, valueText]
  split
  · exact prints_putString _
  · exact prints_putString _
  · exact prints_putString _
  · exact prints_printNumber fields
  · exact prints_printStringPtr _
  · exact (writes_putByte le_rfl (by decide) _).seq_prints (helements.seq_prints (prints_putString _))
  · exact (writes_putByte (by decide) le_rfl _).seq_prints (hmembers.seq_prints (prints_putString _))
  · intro p _
    refine .of_fail rfl ?_
    rintro _ ⟨⟩

theorem writes_printName (string : Option (List UInt8)) :
    Writes env (printName env string) (catText (some (quotedText string)) (some [Ascii.colon])) := by
  rw [printName, ← andThen_assoc]
  exact ((prints_printStringPtr string).update (nulFree_some (quotedText_ne string))).seq
    (writes_putByte le_rfl (by decide) _)

theorem writes_printNext (next : CJson) {last more : Print PUnit} {t : Option (List UInt8)}
    (hlast : Writes env last (some [])) (hmore : Writes env more t) :
    Writes env (printNext env next last more) (nextText next t) := by
  cases next with
  | null => exact hlast
  | item string fields child next => exact writes_putComma.seq hmore

mutual

/-- The loop of `print_array`. -/
theorem writes_printElements : ∀ item : CJson,
    Writes env (printElements env item) (elementsText env item)
  | .null => by
    rw [printElements, elementsText]
    exact writes_nil
  | .item _ fields child next => by
    have hvalue := (prints_printValue fields (writes_printElements child)
      (writes_printMembers child)).update
      (valueText_nulFree fields (elementsText_nulFree child) (membersText_nulFree child))
    rw [printElements, elementsText, ← andThen_assoc]
    exact hvalue.seq (writes_printNext next writes_nil (writes_printElements next))

/-- The loop of `print_object`. -/
theorem writes_printMembers : ∀ item : CJson,
    Writes env (printMembers env item) (membersText env item)
  | .null => by
    rw [printMembers, membersText]
    exact writes_nil
  | .item string fields child next => by
    have hvalue := (prints_printValue fields (writes_printElements child)
      (writes_printMembers child)).update
      (valueText_nulFree fields (elementsText_nulFree child) (membersText_nulFree child))
    rw [printMembers, membersText]
    refine (writes_printName string).seq ?_
    rw [← andThen_assoc]
    exact hvalue.seq (writes_printNext next writes_putString_nil (writes_printMembers next))

end

/-- The text of an item with these children. -/
def itemText (env : PrintEnv) (fields : CJsonFields) (child : CJson) : Option (List UInt8) :=
  valueText env fields (elementsText env child) (membersText env child)

theorem itemText_nulFree (fields : CJsonFields) (child : CJson) :
    NulFree (itemText env fields child) :=
  valueText_nulFree fields (elementsText_nulFree child) (membersText_nulFree child)

/-- `print`, once it has a buffer. -/
theorem printBuffer_ends (hp : p.Sound) (hstart : p.written = []) (fields : CJsonFields) (child : CJson) :
    Ends (do
        printValue env fields (printElements env child) (printMembers env child)
        updateOffset
        reallocate env ((← Checked.get).offset + 1)
        return (← Checked.get).content) p
      (fun text _ => ∃ s, itemText env fields child = some s ∧ s.length < intMax ∧ text = s ++ [0])
      (Refused env p (itemText env fields child)) := by
  refine .bind (prints_printValue fields (writes_printElements child) (writes_printMembers child)
    p hp) ?_
  rintro _ q ⟨s, hs, hq⟩
  refine .bind_ok (updateOffset_of_printed hq hp (itemText_nulFree fields child s hs))
    (.bind_ok rfl ?_)
  have hoffset : p.offset = 0 := by rw [← hp.length_written, hstart, List.length_nil]
  have hstored := hq.stored
  rw [hstart, List.nil_append] at hstored
  have htake : q.content.take (p.offset + s.length + 1) = s ++ [0] := by
    have htake := List.prefix_iff_eq_take.mp hstored
    rw [List.length_append, List.length_singleton] at htake
    rw [hoffset, Nat.zero_add, ← htake]
  have hroom : s.length + 1 ≤ q.content.length := by
    have hle := hstored.length_le
    rwa [List.length_append, List.length_singleton] at hle
  have hshort : s.length < intMax := by
    have hmax := hq.sound.length_le
    rw [← hq.sound.length_content] at hmax
    omega
  cases hfresh : env.realloc (q.behind p s).calls with
  | none =>
    refine .of_fail (t := q.behind p s) ?_ fun _ _ => .inl hfresh
    show andThen _ _ _ = _
    rw [andThen, reallocate, hfresh]
  | some fresh =>
    refine .bind_ok (a := ⟨⟩) (t := { q.behind p s with
      content := s ++ [0], calls := (q.behind p s).calls + 1 }) ?_ (.of_ok rfl ⟨s, hs, hshort, rfl⟩)
    rw [reallocate, hfresh]
    show Outcome.ok _ _ = Outcome.ok _ _
    congr 2
    show q.content.take (p.offset + s.length + 1) ++
      load fresh q.content.length (p.offset + s.length + 1 - q.content.length) = _
    rw [htake, show p.offset + s.length + 1 - q.content.length = 0 by omega]
    exact List.append_nil _

/-- **`print`** returns the text of the item, or fails. -/
theorem print_ends (env : PrintEnv) (fields : CJsonFields) (child : CJson) :
    Ends (print env fields child) ⟨[], 0, 0, 0⟩
      (fun text _ => ∃ s, itemText env fields child = some s ∧ s.length < intMax ∧ text = s ++ [0])
      (fun q => env.realloc q.calls = none ∨
        ∀ s, itemText env fields child = some s → intMax < s.length + 2) := by
  rw [print]
  cases hfresh : env.realloc 0 with
  | none =>
    refine .of_fail (t := ⟨[], 0, 0, 0⟩) ?_ (.inl hfresh)
    show andThen (andThen _ _) _ _ = _
    rw [andThen, andThen, reallocate, hfresh]
  | some fresh =>
    have hgrow : grow env 256 ⟨[], 0, 0, 0⟩ = .ok 0 ⟨load fresh 0 256, 256, 0, 1⟩ := by
      rw [grow]
      show andThen _ _ _ = _
      rw [andThen, reallocate, hfresh]
      rfl
    have hsound : PrintBuffer.Sound ⟨load fresh 0 256, 256, 0, 1⟩ :=
      ⟨length_load _ _ _, Nat.zero_lt_succ 255, (by decide : 256 ≤ intMax)⟩
    refine .bind_ok hgrow ((printBuffer_ends hsound rfl fields child).imp (fun _ _ h => h) ?_)
    intro q h
    by_cases halloc : env.realloc q.calls = none
    · exact .inl halloc
    · refine .inr fun s hs => ?_
      have hlong := (h s hs).resolve_left halloc
      rwa [Nat.zero_add] at hlong

/-- **`cJSON_PrintUnformatted`**, for every item, every state of the heap: the call ends and stays
in its memory.  It returns the text of the item with one terminator, at its end, unless the item
has no text, the last allocation it asked for fails, or the text is too long. -/
theorem cJSONPrintUnformatted_ends (env : PrintEnv) (fields : CJsonFields) (child : CJson) :
    (∃ s p, itemText env fields child = some s ∧ 0 ∉ s ∧ s.length < intMax ∧
        cJSONPrintUnformatted env fields child = .ok (s ++ [0]) p) ∨
      ∃ p, cJSONPrintUnformatted env fields child = .fail p ∧
        (env.realloc p.calls = none ∨
          ∀ s, itemText env fields child = some s → intMax < s.length + 2) := by
  rcases (print_ends env fields child).cases with
    ⟨text, p, hok, s, hs, hshort, rfl⟩ | ⟨p, hfail, h⟩
  · exact .inl ⟨s, p, hs, itemText_nulFree fields child s hs, hshort, hok⟩
  · exact .inr ⟨p, hfail, h⟩

end Sentry
