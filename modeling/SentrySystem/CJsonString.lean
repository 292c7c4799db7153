/-
Strings in the parser of the device (`parse_string` in `src/json/cJSON.c`).

The first loop counts the bytes up to the closing quote, less one for each escape; the second
one writes what they stand for.  Behind a `\u` without four digits the two read the text
differently, and the second may take the closing quote for an escaped byte.

* `ParseBuffer.Fits`, `ParseBuffer.forward` — a buffer in its memory, and further on;
* `escapesBefore` — the escapes as the first loop sees them, which pay for the second;
* `DeviceSequence`, `DeviceChars` — what the second loop takes the bytes for;
* `encodeUtf8_eq` — codepoints;
* `unescape_ends` — the second loop stays in the allocation, and writes that;
* `parseString_ends` — a string is read with its value, or refused.
-/
import SentrySystem.CJson

namespace Sentry

open Checked

/-! ### Buffers -/

namespace ParseBuffer

/-- The memory is what may be accessed. -/
def Fits (b : ParseBuffer) : Prop := b.content.length = b.length

/-- The buffer further on. -/
def forward (b : ParseBuffer) (n : ℕ) : ParseBuffer := { b with offset := b.offset + n }

variable {b : ParseBuffer}

theorem Fits.forward (h : b.Fits) (n : ℕ) : (b.forward n).Fits := h

theorem eq_forward {n offset : ℕ} (h : offset = b.offset + n) :
    { b with offset := offset } = b.forward n := by
  rw [h]
  rfl

theorem forward_forward (m n : ℕ) : (b.forward m).forward n = b.forward (m + n) := by
  simp only [ParseBuffer.forward, Nat.add_assoc]

theorem Fits.take (h : b.Fits) : b.content.take b.length = b.content :=
  List.take_of_length_le (le_of_eq h)

theorem Fits.ahead (h : b.Fits) : b.ahead = b.content.drop b.offset := by
  rw [ParseBuffer.ahead, h.take]

theorem Fits.ahead_forward (h : b.Fits) (n : ℕ) : (b.forward n).ahead = b.ahead.drop n := by
  rw [(h.forward n).ahead, h.ahead, List.drop_drop]
  rfl

theorem Fits.length_ahead (h : b.Fits) : b.ahead.length = b.length - b.offset := by
  have hlen : b.content.length = b.length := h
  rw [h.ahead, List.length_drop, hlen]

/-- The bytes that lie ahead can be accessed. -/
theorem Fits.length_le_of_prefix (h : b.Fits) {s : List UInt8} (hs : s <+: b.ahead) :
    s.length ≤ b.length - b.offset := by
  rw [← h.length_ahead]
  exact hs.length_le

end ParseBuffer

theorem byteAt_ok {b : ParseBuffer} {address : ℕ} {c : UInt8} (h : b.content[address]? = some c) :
    byteAt address b = .ok c b := by
  rw [byteAt, h]

/-- A byte of the memory is read. -/
theorem exists_byteAt {b : ParseBuffer} (address : ℕ) (h : address < b.content.length) :
    ∃ c, b.content[address]? = some c ∧ byteAt address b = .ok c b :=
  ⟨b.content[address], List.getElem?_eq_getElem h, byteAt_ok (List.getElem?_eq_getElem h)⟩

/-! ### The first loop -/

/-- The inside of a string in which each backslash hides the byte behind it. -/
inductive IsEscaped : List UInt8 → Prop
  | nil : IsEscaped []
  | byte {c s} (hquote : c ≠ Ascii.quote) (hbackslash : c ≠ Ascii.backslash) (h : IsEscaped s) :
    IsEscaped (c :: s)
  | escape {c s} (h : IsEscaped s) : IsEscaped (Ascii.backslash :: c :: s)

/-- The escapes that start among the first `k` bytes, as the first loop sees them. -/
def escapesBefore : List UInt8 → ℕ → ℕ
  | _, 0 => 0
  | [], _ + 1 => 0
  | c :: rest, k + 1 =>
    if c = Ascii.backslash then
      match rest with
      | [] => 1
      | _ :: rest => escapesBefore rest (k - 1) + 1
    else escapesBefore rest k

theorem escapesBefore_zero (s : List UInt8) : escapesBefore s 0 = 0 := by
  cases s <;> rfl

theorem escapesBefore_nil (k : ℕ) : escapesBefore [] k = 0 := by
  cases k <;> rfl

theorem escapesBefore_byte {c : UInt8} (h : c ≠ Ascii.backslash) (s : List UInt8) (k : ℕ) :
    escapesBefore (c :: s) (k + 1) = escapesBefore s k := by
  rw [escapesBefore.eq_def]
  exact if_neg h

theorem escapesBefore_last (k : ℕ) : escapesBefore [Ascii.backslash] (k + 1) = 1 := by
  rw [escapesBefore.eq_def]
  exact if_pos rfl

theorem escapesBefore_escape (c : UInt8) (s : List UInt8) (k : ℕ) :
    escapesBefore (Ascii.backslash :: c :: s) (k + 1) = escapesBefore s (k - 1) + 1 := by
  rw [escapesBefore.eq_def]
  exact if_pos rfl

theorem scanString_sound {s : List UInt8} {n skipped : ℕ} (h : scanString s = some (n, skipped)) :
    (∃ body rest, s = body ++ Ascii.quote :: rest ∧ body.length = n ∧ IsEscaped body) ∧
      escapesBefore s n = skipped := by
  fun_induction scanString s generalizing n skipped with
  | case1 => cases h
  | case2 rest =>
    obtain ⟨rfl, rfl⟩ := Prod.mk.inj (Option.some_inj.mp h)
    exact ⟨⟨[], rest, rfl, rfl, .nil⟩, rfl⟩
  | case3 => cases h
  | case4 d rest _ ih =>
    obtain ⟨⟨m, k⟩, hm, heq⟩ := Option.map_eq_some_iff.mp h
    obtain ⟨rfl, rfl⟩ := Prod.mk.inj heq
    obtain ⟨⟨body, tail, rfl, rfl, hbody⟩, hk⟩ := ih hm
    exact ⟨⟨_ :: d :: body, tail, rfl, rfl, .escape hbody⟩,
      (escapesBefore_escape _ _ _).trans (congrArg (· + 1) hk)⟩
  | case5 c rest hquote hbackslash ih =>
    obtain ⟨⟨m, k⟩, hm, heq⟩ := Option.map_eq_some_iff.mp h
    obtain ⟨rfl, rfl⟩ := Prod.mk.inj heq
    obtain ⟨⟨body, tail, rfl, rfl, hbody⟩, hk⟩ := ih hm
    exact ⟨⟨c :: body, tail, rfl, rfl, .byte hquote hbackslash hbody⟩,
      (escapesBefore_byte hbackslash _ _).trans hk⟩

/-- A string is nothing, a byte, a last backslash, or an escape in front of a string. -/
theorem escapes_induction {P : List UInt8 → Prop} (nil : P []) (last : P [Ascii.backslash])
    (byte : ∀ c s, c ≠ Ascii.backslash → P s → P (c :: s))
    (escape : ∀ c s, P s → P (Ascii.backslash :: c :: s)) : ∀ s, P s
  | [] => nil
  | [c] => if h : c = Ascii.backslash then h ▸ last else byte c [] h nil
  | c :: d :: s =>
    if h : c = Ascii.backslash then h ▸ escape d s (escapes_induction nil last byte escape s)
    else byte c (d :: s) h (escapes_induction nil last byte escape (d :: s))

/-- One step adds no escape, unless it starts at a backslash. -/
theorem escapesBefore_succ {s : List UInt8} : ∀ {k : ℕ}, s[k]? ≠ some Ascii.backslash →
    escapesBefore s (k + 1) = escapesBefore s k := by
  induction s using escapes_induction with
  | nil =>
    intro k _
    rw [escapesBefore_nil, escapesBefore_nil]
  | last =>
    intro k h
    cases k with
    | zero => exact absurd rfl h
    | succ k => rw [escapesBefore_last, escapesBefore_last]
  | byte c s hc ih =>
    intro k h
    rw [escapesBefore_byte hc]
    cases k with
    | zero => rw [escapesBefore_zero, escapesBefore_zero]
    | succ k => rw [escapesBefore_byte hc, ih h]
  | escape c s ih =>
    intro k h
    match k, h with
    | 0, h => exact absurd rfl h
    | 1, _ => rfl
    | k + 2, h =>
      rw [escapesBefore_escape, escapesBefore_escape]
      exact congrArg (· + 1) (ih h)

/-- More bytes have more escapes, but one for two of them at most. -/
theorem escapesBefore_add (s : List UInt8) : ∀ k m : ℕ,
    escapesBefore s k ≤ escapesBefore s (k + m) ∧
      escapesBefore s (k + m) ≤ escapesBefore s k + (m + 1) / 2 := by
  induction s using escapes_induction with
  | nil =>
    intro k m
    rw [escapesBefore_nil, escapesBefore_nil]
    exact ⟨le_rfl, Nat.zero_le _⟩
  | last =>
    intro k m
    match k, m with
    | 0, 0 => exact ⟨le_rfl, le_rfl⟩
    | 0, m + 1 =>
      rw [Nat.zero_add, escapesBefore_last, escapesBefore_zero]
      omega
    | k + 1, m =>
      rw [Nat.add_right_comm, escapesBefore_last, escapesBefore_last]
      omega
  | byte c s hc ih =>
    intro k m
    match k, m with
    | 0, 0 => exact ⟨le_rfl, Nat.le_add_right _ _⟩
    | 0, m + 1 =>
      have hs := ih 0 m
      rw [escapesBefore_zero] at hs
      rw [Nat.zero_add, escapesBefore_byte hc, escapesBefore_zero]
      rw [Nat.zero_add] at hs
      omega
    | k + 1, m =>
      rw [Nat.add_right_comm, escapesBefore_byte hc, escapesBefore_byte hc]
      exact ih k m
  | escape c s ih =>
    intro k m
    match k, m with
    | 0, 0 => exact ⟨le_rfl, Nat.le_add_right _ _⟩
    | 0, m + 1 =>
      have hs := ih 0 (m - 1)
      rw [escapesBefore_zero, Nat.zero_add] at hs
      rw [Nat.zero_add, escapesBefore_escape, escapesBefore_zero]
      omega
    | 1, 0 => exact ⟨le_rfl, Nat.le_add_right _ _⟩
    | 1, m + 1 =>
      have hs := ih 0 m
      rw [escapesBefore_zero, Nat.zero_add] at hs
      rw [show 1 + (m + 1) = m + 1 + 1 from by omega, escapesBefore_escape,
        show (1 : ℕ) = 0 + 1 from rfl, escapesBefore_escape, escapesBefore_zero]
      show _ ≤ escapesBefore s m + 1 ∧ escapesBefore s m + 1 ≤ _
      omega
    | k + 2, m =>
      have hs := ih k m
      rw [show k + 2 + m = k + m + 1 + 1 from by omega, escapesBefore_escape,
        escapesBefore_escape]
      show escapesBefore s k + 1 ≤ escapesBefore s (k + m) + 1 ∧
        escapesBefore s (k + m) + 1 ≤ escapesBefore s k + 1 + (m + 1) / 2
      omega

/-! ### Escapes of four digits -/

theorem getElem?_of_drop {s rest : List UInt8} {i : ℕ} {c : UInt8} (h : s.drop i = c :: rest) :
    s[i]? = some c := by
  rw [← Nat.add_zero i, ← List.getElem?_drop, h]
  rfl

theorem drop_succ_of_drop {s rest : List UInt8} {i : ℕ} {c : UInt8} (h : s.drop i = c :: rest) :
    s.drop (i + 1) = rest := by
  rw [← List.drop_drop, h]
  rfl

theorem drop_of_getElem? {s : List UInt8} {i : ℕ} {c : UInt8} (h : s[i]? = some c) :
    s.drop i = c :: s.drop (i + 1) := by
  obtain ⟨hlt, rfl⟩ := List.getElem?_eq_some_iff.mp h
  exact List.drop_eq_getElem_cons hlt

theorem hexDigit_lt {c : UInt8} {d : ℕ} (h : hexDigit c = some d) : d < 16 := by
  rw [hexDigit] at h
  split_ifs at h with h0 h1 h2
  · obtain rfl := Option.some_inj.mp h
    omega
  · obtain rfl := Option.some_inj.mp h
    omega
  · obtain rfl := Option.some_inj.mp h
    omega

theorem hexValue_lt {ds : List UInt8} : ∀ {p v : ℕ}, hexValue p ds = some v →
    v < (p + 1) * 16 ^ ds.length := by
  induction ds with
  | nil =>
    intro p v h
    obtain rfl := Option.some_inj.mp h
    simp
  | cons c ds ih =>
    intro p v h
    obtain ⟨d, hd, hv⟩ := Option.bind_eq_some_iff.mp h
    have hlt := hexDigit_lt hd
    calc v < (16 * p + d + 1) * 16 ^ ds.length := ih hv
      _ ≤ ((p + 1) * 16) * 16 ^ ds.length := Nat.mul_le_mul_right _ (by omega)
      _ = (p + 1) * 16 ^ (c :: ds).length := by rw [List.length_cons, pow_succ]; ring

/-- `parse_hex4` reads the digits that are there, up to the first that is none. -/
theorem parseHex4_eq {b : ParseBuffer} : ∀ {ds : List UInt8} {input p : ℕ}, ds ≠ [] →
    ds <+: b.content.drop input →
    parseHex4 ds.length input (16 * p) b = .ok ((hexValue p ds).getD 0) b
  | [], _, _, hne, _ => absurd rfl hne
  | c :: ds, input, p, _, ⟨rest, hrest⟩ => by
    have hc := byteAt_ok (getElem?_of_drop hrest.symm)
    have hds : ds <+: b.content.drop (input + 1) := ⟨rest, (drop_succ_of_drop hrest.symm).symm⟩
    rw [List.length_cons, parseHex4, bind_of_ok hc, hexValue]
    cases hd : hexDigit c with
    | none => rfl
    | some d =>
      cases ds with
      | nil => rfl
      | cons c' ds =>
        have hshift : (16 * p + d) <<< 4 = 16 * (16 * p + d) := by
          rw [Nat.shiftLeft_eq]
          ring
        simp only [List.length_cons, Nat.succ_ne_zero, if_false, hshift, Option.bind_some]
        exact parseHex4_eq (List.cons_ne_nil c' ds) hds

/-- Four digits at an address of the memory. -/
theorem exists_parseHex4 {b : ParseBuffer} (input : ℕ) (h : input + 4 ≤ b.content.length) :
    ∃ ds, ds <+: b.content.drop input ∧ ds.length = 4 ∧
      parseHex4 4 input 0 b = .ok ((hexValue 0 ds).getD 0) b := by
  have hlen : ((b.content.drop input).take 4).length = 4 := by
    rw [List.length_take, List.length_drop]
    omega
  refine ⟨_, List.take_prefix 4 _, hlen, ?_⟩
  have hne : (b.content.drop input).take 4 ≠ [] := List.ne_nil_of_length_pos (by omega)
  have heq := parseHex4_eq (p := 0) hne (List.take_prefix 4 (b.content.drop input))
  rwa [hlen, Nat.mul_zero] at heq

theorem getD_hexValue_lt {ds : List UInt8} (h : ds.length = 4) :
    (hexValue 0 ds).getD 0 < 0x10000 := by
  cases hv : hexValue 0 ds with
  | none => exact Nat.zero_lt_succ _
  | some v =>
    have hlt := hexValue_lt hv
    rw [h] at hlt
    exact hlt

/-! ### Codepoints -/

/-- A byte behind the first: the six bits below, marked. -/
theorem encode_byte (n : ℕ) :
    UInt8.ofNat ((n ||| 0x80) &&& 0xBF) = UInt8.ofNat (n % 0x40 + 0x80) := by
  have hbyte : ∀ m < 256, (m ||| 0x80) &&& 0xBF = m % 0x40 + 0x80 := by decide +kernel
  have hmod : ((n ||| 0x80) &&& 0xBF) % 2 ^ 8 = (n % 256 ||| 0x80) &&& 0xBF := by
    rw [Nat.and_mod_two_pow, Nat.or_mod_two_pow]
  rw [← UInt8.ofNat_mod_size, hmod, hbyte _ (Nat.mod_lt n (by norm_num)),
    Nat.mod_mod_of_dvd n (by norm_num)]

/-- The first of several bytes. -/
theorem encode_first {n mark width : ℕ} (hn : n < width) (h : (width, mark) ∈
    [(0x20, 0xC0), (0x10, 0xE0), (0x08, 0xF0)]) :
    UInt8.ofNat ((n ||| mark) &&& 0xFF) = UInt8.ofNat (n % width + mark) := by
  have hfirst : ∀ p ∈ [(0x20, 0xC0), (0x10, 0xE0), (0x08, 0xF0)], ∀ n < p.1,
      (n ||| p.2) &&& 0xFF = n % p.1 + p.2 := by decide +kernel
  exact congrArg UInt8.ofNat (hfirst _ h n hn)

/-- A codepoint that is no half of a pair. -/
structure IsScalar (code : ℕ) : Prop where
  high : ¬ IsHighSurrogate code
  low : ¬ IsLowSurrogate code
  le : code ≤ 0x10FFFF

theorem toNat_ofNat {code : ℕ} (h : IsScalar code) : (Char.ofNat code).val.toNat = code := by
  have hvalid : code.isValidChar := by
    have hhigh := h.high
    have hlow := h.low
    have hle := h.le
    rw [IsHighSurrogate] at hhigh
    rw [IsLowSurrogate] at hlow
    rw [Nat.isValidChar]
    omega
  rw [Char.ofNat, dif_pos hvalid]
  rfl

/-- **The encoding of a codepoint** is UTF-8. -/
theorem encodeUtf8_eq {code : ℕ} (h : IsScalar code) :
    encodeUtf8 code = some (String.utf8EncodeChar (Char.ofNat code)) := by
  have hle := h.le
  rw [encodeUtf8, String.utf8EncodeChar]
  simp only [toNat_ofNat h, encodeRest, encode_byte, Nat.shiftRight_eq_div_pow, Nat.div_div_eq_div_mul]
  rcases Nat.lt_or_ge code 0x80 with h1 | h1
  · have hseven : code &&& 0x7F = code := by
      rw [Nat.and_two_pow_sub_one_eq_mod code 7, Nat.mod_eq_of_lt h1]
    rw [if_pos h1, if_pos (by omega), hseven]
  rw [if_neg (by omega), if_neg (by omega : ¬ code ≤ 0x7f)]
  rcases Nat.lt_or_ge code 0x800 with h2 | h2
  · have hfirst : UInt8.ofNat ((code / 2 ^ 6 ||| 0xC0) &&& 0xFF) =
        UInt8.ofNat (code / 2 ^ 6 % 0x20 + 0xC0) := encode_first (by omega) (by simp)
    rw [if_pos h2, if_pos (by omega), hfirst]
    rfl
  rw [if_neg (by omega), if_neg (by omega : ¬ code ≤ 0x7ff)]
  rcases Nat.lt_or_ge code 0x10000 with h3 | h3
  · have hfirst : UInt8.ofNat ((code / (2 ^ 6 * 2 ^ 6) ||| 0xE0) &&& 0xFF) =
        UInt8.ofNat (code / (2 ^ 6 * 2 ^ 6) % 0x10 + 0xE0) := encode_first (by omega) (by simp)
    rw [if_pos h3, if_pos (by omega), hfirst]
    rfl
  · have hfirst : UInt8.ofNat ((code / (2 ^ 6 * 2 ^ 6 * 2 ^ 6) ||| 0xF0) &&& 0xFF) =
        UInt8.ofNat (code / (2 ^ 6 * 2 ^ 6 * 2 ^ 6) % 0x08 + 0xF0) :=
      encode_first (by omega) (by simp)
    rw [if_neg (by omega), if_pos hle, if_neg (by omega), hfirst]
    rfl

theorem and_mask (n : ℕ) : n &&& 0x3FF = n % 0x400 :=
  Nat.and_two_pow_sub_one_eq_mod n 10

theorem pairCode_eq {high low : ℕ} (hhigh : IsHighSurrogate high) (hlow : IsLowSurrogate low) :
    0x10000 + (((high &&& 0x3FF) <<< 10) ||| (low &&& 0x3FF)) = pairCode high low := by
  have hhigh1 := hhigh.1
  have hhigh2 := hhigh.2
  have hlow1 := hlow.1
  have hlow2 := hlow.2
  have hmod : high % 0x400 = high - 0xD800 := by omega
  have hmod' : low % 0x400 = low - 0xDC00 := by omega
  have hlt : low - 0xDC00 < 2 ^ 10 := by
    norm_num
    omega
  rw [and_mask, and_mask, hmod, hmod', ← Nat.shiftLeft_add_eq_or_of_lt hlt, Nat.shiftLeft_eq,
    ← Nat.add_assoc]
  rfl

theorem isScalar_pairCode {high low : ℕ} (hhigh : IsHighSurrogate high)
    (hlow : IsLowSurrogate low) : IsScalar (pairCode high low) := by
  have hhigh1 := hhigh.1
  have hhigh2 := hhigh.2
  have hlow1 := hlow.1
  have hlow2 := hlow.2
  have hcode : pairCode high low = 0x10000 + (high - 0xD800) * 0x400 + (low - 0xDC00) := rfl
  refine ⟨?_, ?_, ?_⟩
  · intro h
    have hle := h.2
    omega
  · intro h
    have hle := h.2
    omega
  · omega

/-! ### Sequences -/

theorem length_encodeRest (n : ℕ) : ∀ (codepoint : ℕ) (rest : List UInt8),
    (encodeRest n codepoint rest).2.length = n + rest.length := by
  induction n with
  | zero =>
    intro codepoint rest
    exact (Nat.zero_add _).symm
  | succ n ih =>
    intro codepoint rest
    rw [encodeRest, ih, List.length_cons]
    omega

/-- Three bytes for a codepoint of 16 bits, four at most. -/
theorem length_encodeUtf8 {codepoint : ℕ} {bytes : List UInt8}
    (h : encodeUtf8 codepoint = some bytes) :
    bytes.length ≤ 4 ∧ (codepoint < 0x10000 → bytes.length ≤ 3) := by
  simp only [encodeUtf8] at h
  split_ifs at h with h1 h2 h3 h4
  · obtain rfl := Option.some_inj.mp h
    exact ⟨by simp, by simp⟩
  · obtain rfl := Option.some_inj.mp h
    simp [length_encodeRest]
  · obtain rfl := Option.some_inj.mp h
    simp [length_encodeRest]
  · obtain rfl := Option.some_inj.mp h
    simp only [List.length_cons, length_encodeRest, List.length_nil]
    omega

/-- A sequence of UTF-16 and the bytes it stands for: as in JSON, but `\u` in front of four bytes
that are not all digits is no error and stands for a zero. -/
inductive DeviceSequence : List UInt8 → List UInt8 → Prop
  | unicode {u code} (hu : IsUnicodeEscape u code) (hhigh : ¬ IsHighSurrogate code)
    (hlow : ¬ IsLowSurrogate code) :
    DeviceSequence u (String.utf8EncodeChar (Char.ofNat code))
  | malformed {ds} (hlen : ds.length = 4) (hds : hexValue 0 ds = none) :
    DeviceSequence (Ascii.backslash :: 0x75 :: ds) [0]
  | pair {u u' high low} (hu : IsUnicodeEscape u high) (hu' : IsUnicodeEscape u' low)
    (hhigh : IsHighSurrogate high) (hlow : IsLowSurrogate low) :
    DeviceSequence (u ++ u') (String.utf8EncodeChar (Char.ofNat (pairCode high low)))

/-- What is left of a string with its closing quote, and the bytes it stands for.  A sequence ends
in front of the quote; an escape of two bytes may take it. -/
inductive DeviceChars : List UInt8 → List UInt8 → Prop
  | closed : DeviceChars [Ascii.quote] []
  | passed : DeviceChars [] []
  | byte {c s v} (hbackslash : c ≠ Ascii.backslash) (hs : s ≠ []) (h : DeviceChars s v) :
    DeviceChars (c :: s) (c :: v)
  | escape {c e s v} (hc : escapedByte c = some e) (h : DeviceChars s v) :
    DeviceChars (Ascii.backslash :: c :: s) (e :: v)
  | sequence {u bytes s v} (hu : DeviceSequence u bytes) (hs : s ≠ []) (h : DeviceChars s v) :
    DeviceChars (u ++ s) (bytes ++ v)

/-- A sequence in front of the end: 6 bytes which make three at most, or 12 which make four. -/
structure IsSequence (input inputEnd : ℕ) (u bytes : List UInt8) : Prop where
  sequence : DeviceSequence u bytes
  end_le : input + u.length ≤ inputEnd
  length : u.length = 6 ∧ bytes.length ≤ 3 ∨ u.length = 12 ∧ bytes.length ≤ 4

/-- Four bytes behind `\u`, digits or not. -/
theorem escape_cases {ds : List UInt8} (hlen : ds.length = 4) :
    IsUnicodeEscape (Ascii.backslash :: 0x75 :: ds) ((hexValue 0 ds).getD 0) ∨
      hexValue 0 ds = none := by
  cases hvalue : hexValue 0 ds with
  | none => exact .inr rfl
  | some code => exact .inl ⟨ds, rfl, hlen, hvalue⟩

/-- A code that is not zero has its digits. -/
theorem isUnicodeEscape_of_ne {ds : List UInt8} (hlen : ds.length = 4)
    (hne : (hexValue 0 ds).getD 0 ≠ 0) :
    IsUnicodeEscape (Ascii.backslash :: 0x75 :: ds) ((hexValue 0 ds).getD 0) := by
  refine (escape_cases hlen).resolve_right ?_
  intro hnone
  rw [hnone] at hne
  exact hne rfl

theorem prefix_append {s t l : List UInt8} (hs : s <+: l) (ht : t <+: l.drop s.length) :
    s ++ t <+: l := by
  obtain ⟨rest, rfl⟩ := hs
  rw [List.drop_left] at ht
  exact (List.prefix_append_right_inj s).mpr ht

theorem cons_prefix_drop {s u : List UInt8} {i : ℕ} {c : UInt8} (hc : s[i]? = some c)
    (hu : u <+: s.drop (i + 1)) : c :: u <+: s.drop i := by
  rw [drop_of_getElem? hc]
  exact (List.prefix_cons_inj c).mpr hu

/-- `utf16_literal_to_utf8` does not read behind the end. -/
theorem utf16LiteralToUtf8_ok {b : ParseBuffer} (input inputEnd : ℕ)
    (h : inputEnd ≤ b.content.length) (hslash : b.content[input]? = some Ascii.backslash)
    (hletter : b.content[input + 1]? = some 0x75) :
    ∃ r, utf16LiteralToUtf8 input inputEnd b = .ok r b ∧ ∀ n bytes, r = some (n, bytes) →
      ∃ u, u.length = n ∧ u <+: b.content.drop input ∧ IsSequence input inputEnd u bytes := by
  rw [utf16LiteralToUtf8]
  by_cases hsix : inputEnd < input + 6
  · rw [if_pos hsix]
    exact ⟨none, rfl, fun n bytes hr => by cases hr⟩
  rw [if_neg hsix]
  obtain ⟨ds, hds, hlen, hfirst⟩ := exists_parseHex4 (b := b) (input + 2) (by omega)
  have hu := cons_prefix_drop hslash (cons_prefix_drop hletter hds)
  have hulen : (Ascii.backslash :: 0x75 :: ds).length = 6 := by
    rw [List.length_cons, List.length_cons, hlen]
  rw [bind_of_ok hfirst]
  split_ifs with hlow hhigh htwelve
  · exact ⟨none, rfl, fun n bytes hr => by cases hr⟩
  · exact ⟨none, rfl, fun n bytes hr => by cases hr⟩
  · obtain ⟨c, hc, hread⟩ := exists_byteAt (b := b) (input + 6) (by omega)
    rw [bind_of_ok hread]
    split_ifs with hslash'
    · exact ⟨none, rfl, fun n bytes hr => by cases hr⟩
    obtain ⟨c', hc', hread'⟩ := exists_byteAt (b := b) (input + 7) (by omega)
    rw [bind_of_ok hread']
    split_ifs with hletter'
    · exact ⟨none, rfl, fun n bytes hr => by cases hr⟩
    rw [not_not] at hslash' hletter'
    obtain ⟨ds', hds', hlen', hsecond⟩ := exists_parseHex4 (b := b) (input + 8) (by omega)
    rw [bind_of_ok hsecond]
    split_ifs with hrange
    · exact ⟨none, rfl, fun n bytes hr => by cases hr⟩
    -- both halves have their digits
    have hfirst := isUnicodeEscape_of_ne hlen (by omega)
    have hsecond := isUnicodeEscape_of_ne hlen' (by omega)
    have hhigh' : IsHighSurrogate ((hexValue 0 ds).getD 0) := hhigh
    have hlow' : IsLowSurrogate ((hexValue 0 ds').getD 0) := by
      rw [IsLowSurrogate]
      omega
    have hu' := cons_prefix_drop (hslash' ▸ hc) (cons_prefix_drop (hletter' ▸ hc') hds')
    rw [pairCode_eq hhigh' hlow']
    refine ⟨_, rfl, ?_⟩
    intro n bytes hr
    obtain ⟨bytes', hbytes, heq⟩ := Option.map_eq_some_iff.mp hr
    obtain ⟨rfl, rfl⟩ := Prod.mk.inj heq
    have hfour := (length_encodeUtf8 hbytes).1
    rw [encodeUtf8_eq (isScalar_pairCode hhigh' hlow')] at hbytes
    obtain rfl := Option.some_inj.mp hbytes
    have hulen' : (Ascii.backslash :: 0x75 :: ds').length = 6 := by
      rw [List.length_cons, List.length_cons, hlen']
    have hboth : ((Ascii.backslash :: 0x75 :: ds) ++ (Ascii.backslash :: 0x75 :: ds')).length =
        12 := by
      rw [List.length_append, hulen, hulen']
    refine ⟨_, hboth, ?_, .pair hfirst hsecond hhigh' hlow', ?_, .inr ⟨hboth, hfour⟩⟩
    · refine prefix_append hu ?_
      rwa [hulen, List.drop_drop]
    · rw [hboth]
      omega
  · refine ⟨_, rfl, ?_⟩
    intro n bytes hr
    obtain ⟨bytes', hbytes, heq⟩ := Option.map_eq_some_iff.mp hr
    obtain ⟨rfl, rfl⟩ := Prod.mk.inj heq
    have hthree := (length_encodeUtf8 hbytes).2 (getD_hexValue_lt hlen)
    refine ⟨_, hulen, hu, ?_, by rw [hulen]; omega, .inl ⟨hulen, hthree⟩⟩
    rcases escape_cases hlen with hescape | hnone
    · have hcode := getD_hexValue_lt hlen
      rw [encodeUtf8_eq ⟨hhigh, hlow, by omega⟩] at hbytes
      obtain rfl := Option.some_inj.mp hbytes
      exact .unicode hescape hhigh hlow
    · rw [hnone] at hbytes
      obtain rfl := Option.some_inj.mp hbytes
      exact .malformed hlen hnone

/-! ### The second loop -/

/-- What is written and the escapes behind it do not exceed what is read. -/
theorem length_add_escapesBefore_le {s : List UInt8} {n k length : ℕ} (hk : k ≤ n + 1)
    (h : length + escapesBefore s k ≤ k) : length + escapesBefore s n ≤ n + 1 := by
  rcases Nat.lt_or_ge n k with hlt | hle
  · obtain rfl : k = n + 1 := Nat.le_antisymm hk hlt
    have hmono := (escapesBefore_add s n 1).1
    omega
  · have hadd := (escapesBefore_add s k (n - k)).2
    rw [Nat.add_sub_cancel' hle] at hadd
    omega

theorem store_ok {b : ParseBuffer} {size : ℕ} {output bytes : List UInt8}
    (h : (output ++ bytes).length ≤ size) : store size output bytes b = .ok (output ++ bytes) b := by
  rw [List.length_append] at h
  rw [store, if_pos h]
  rfl

section Unescape

variable {b : ParseBuffer} {start : ℕ} {body : List UInt8}

/-- What is left of the string behind its first `k` bytes. -/
theorem drop_quoted_ne_nil {k : ℕ} (h : k ≤ body.length) :
    (body ++ [Ascii.quote]).drop k ≠ [] := by
  rw [List.drop_append_of_le_length h]
  exact List.append_ne_nil_of_right_ne_nil _ (List.cons_ne_nil _ _)

theorem drop_quoted (k : ℕ) (h : body.length ≤ k) (hk : k ≤ body.length + 1) :
    DeviceChars ((body ++ [Ascii.quote]).drop k) [] := by
  rcases Nat.eq_or_lt_of_le h with rfl | hlt
  · rw [List.drop_left]
    exact .closed
  · rw [List.drop_eq_nil_of_le (by rw [List.length_append, List.length_singleton]; omega)]
    exact .passed

/-- A prefix of what lies ahead is one of what is left. -/
theorem drop_quoted_eq {s u : List UInt8} {k : ℕ} (htext : body ++ [Ascii.quote] <+: s)
    (hu : u <+: s.drop k) (h : k + u.length ≤ body.length + 1) :
    (body ++ [Ascii.quote]).drop k = u ++ (body ++ [Ascii.quote]).drop (k + u.length) := by
  obtain ⟨rest, hrest⟩ := List.prefix_of_prefix_length_le hu (htext.drop k)
    (by rw [List.length_drop, List.length_append, List.length_singleton]; omega)
  rw [← List.drop_drop, ← hrest, List.drop_left]

/-- **The second loop** writes into its allocation, also where it has lost the step of the first
one: what it writes for an escape of `m` bytes pays for the escapes the first loop counted there. -/
theorem unescape_ends (htext : body ++ [Ascii.quote] <+: b.content.drop start) :
    ∀ (fuel k : ℕ) (output : List UInt8), k ≤ body.length + 1 → body.length < k + fuel →
    0 < fuel → output.length + escapesBefore (b.content.drop start) k ≤ k →
    Ends (unescape (start + body.length)
        (body.length + 2 - escapesBefore (b.content.drop start) body.length) fuel (start + k)
        output) b
      (fun out b' => b' = b ∧
        out.length + escapesBefore (b.content.drop start) body.length ≤ body.length + 1 ∧
        ∃ v, out = output ++ v ∧ DeviceChars ((body ++ [Ascii.quote]).drop k) v)
      (fun _ => True) := by
  have hend : start + body.length < b.content.length := by
    have hle := htext.length_le
    rw [List.length_append, List.length_singleton, List.length_drop] at hle
    omega
  intro fuel
  induction fuel with
  | zero =>
    intro k output _ _ hfuel
    exact absurd hfuel (lt_irrefl 0)
  | succ fuel ih =>
    intro k output hk hfuel _ houtput
    -- a step over `u` that writes `bytes`
    have hstep : ∀ u bytes : List UInt8, u <+: b.content.drop (start + k) → 1 ≤ u.length →
        k + u.length ≤ body.length + 1 →
        (∀ v, DeviceChars ((body ++ [Ascii.quote]).drop (k + u.length)) v →
          DeviceChars (u ++ (body ++ [Ascii.quote]).drop (k + u.length)) (bytes ++ v)) →
        bytes.length + escapesBefore (b.content.drop start) (k + u.length) ≤
          u.length + escapesBefore (b.content.drop start) k → k < body.length →
        Ends ((store (body.length + 2 - escapesBefore (b.content.drop start) body.length) output
            bytes) >>= fun output =>
          unescape (start + body.length)
            (body.length + 2 - escapesBefore (b.content.drop start) body.length) fuel
            (start + k + u.length) output) b
          (fun out b' => b' = b ∧
            out.length + escapesBefore (b.content.drop start) body.length ≤ body.length + 1 ∧
            ∃ v, out = output ++ v ∧ DeviceChars ((body ++ [Ascii.quote]).drop k) v)
          (fun _ => True) := by
      intro u bytes hu hpos hkm hchars hbytes hkn
      have hlen : (output ++ bytes).length +
          escapesBefore (b.content.drop start) (k + u.length) ≤ k + u.length := by
        rw [List.length_append]
        omega
      have hroom := length_add_escapesBefore_le hkm hlen
      have hnext := ih (k + u.length) (output ++ bytes) hkm (by omega) (by omega) hlen
      rw [← Nat.add_assoc] at hnext
      refine .bind_ok (store_ok (by omega)) (hnext.imp ?_ fun _ _ => trivial)
      rintro out b' ⟨rfl, hout, v, rfl, hv⟩
      refine ⟨rfl, hout, bytes ++ v, List.append_assoc _ _ _, ?_⟩
      rw [drop_quoted_eq htext (by rwa [List.drop_drop]) hkm]
      exact hchars v hv
    rw [unescape]
    by_cases hdone : start + body.length ≤ start + k
    · rw [if_pos hdone]
      exact .of_ok rfl ⟨rfl, length_add_escapesBefore_le hk houtput, [],
        (List.append_nil _).symm, drop_quoted k (by omega) hk⟩
    have hkn : k < body.length := by omega
    rw [if_neg hdone]
    obtain ⟨c, hc, hread⟩ := exists_byteAt (b := b) (start + k) (by omega)
    have hprefix : [c] <+: b.content.drop (start + k) :=
      cons_prefix_drop hc List.nil_prefix
    refine .bind_ok hread ?_
    by_cases hplain : c ≠ Ascii.backslash
    · have hnone : (b.content.drop start)[k]? ≠ some Ascii.backslash := by
        rw [List.getElem?_drop, hc]
        exact fun h => hplain (Option.some_inj.mp h)
      rw [if_pos hplain]
      refine hstep [c] [c] hprefix le_rfl (Nat.succ_le_succ hkn.le) ?_ ?_ hkn
      · exact fun v hv => .byte hplain (drop_quoted_ne_nil hkn) hv
      · rw [List.length_singleton, escapesBefore_succ hnone]
    rw [if_neg hplain]
    rw [not_not] at hplain
    obtain ⟨e, he, hread⟩ := exists_byteAt (b := b) (start + k + 1) (by omega)
    refine .bind_ok hread ?_
    split_ifs with hu
    · obtain ⟨r, hr, hsequence⟩ := utf16LiteralToUtf8_ok (b := b) (start + k)
        (start + body.length) (by omega) (hplain ▸ hc) (hu ▸ he)
      refine .bind_ok hr ?_
      match r, hsequence with
      | none, _ => exact .of_fail rfl trivial
      | some (_, bytes), hsequence =>
        obtain ⟨u, rfl, hahead, hdevice, hle, hlen⟩ := hsequence _ bytes rfl
        have hadd := (escapesBefore_add (b.content.drop start) k u.length).2
        refine hstep u bytes hahead (by omega) (by omega) ?_ (by omega) hkn
        exact fun v hv => .sequence hdevice (drop_quoted_ne_nil (by omega)) hv
    · cases hescaped : escapedByte e with
      | none => exact .of_fail rfl trivial
      | some c' =>
        have hadd := (escapesBefore_add (b.content.drop start) k 2).2
        refine hstep [c, e] [c'] (cons_prefix_drop hc (cons_prefix_drop he
          List.nil_prefix)) (by simp) (Nat.succ_le_succ hkn) ?_ ?_ hkn
        · rw [hplain]
          exact fun v hv => .escape hescaped hv
        · show 1 + escapesBefore (b.content.drop start) (k + 2) ≤
            2 + escapesBefore (b.content.drop start) k
          omega

end Unescape

/-- A string of the device's parser: between the quotes as the first loop finds them, the bytes
that the second one takes for `v`. -/
def IsQuoted (s v : List UInt8) : Prop :=
  ∃ body, s = Ascii.quote :: (body ++ [Ascii.quote]) ∧ IsEscaped body ∧
    DeviceChars (body ++ [Ascii.quote]) v

/-- What a call reads: `s` lies ahead, and is passed. -/
def Reads {α : Type} (b : ParseBuffer) (P : List UInt8 → α → Prop) (a : α) (b' : ParseBuffer) :
    Prop :=
  ∃ s, s <+: b.ahead ∧ b' = b.forward s.length ∧ P s a

/-- **A string** is read from quote to quote, or refused. -/
theorem parseString_ends {b : ParseBuffer} (hfits : b.Fits) (hoffset : b.offset < b.length) :
    Ends parseString b (Reads b IsQuoted) (fun _ => True) := by
  have hlen : b.content.length = b.length := hfits
  obtain ⟨c, hc, hread⟩ := exists_byteAt (b := b) b.offset (by omega)
  rw [parseString]
  refine .bind_ok rfl (.bind_ok hread ?_)
  by_cases hquote : c ≠ Ascii.quote
  · rw [if_pos hquote]
    exact .of_fail rfl trivial
  rw [if_neg hquote, hfits.take]
  rw [not_not] at hquote
  cases hscan : scanString (b.content.drop (b.offset + 1)) with
  | none => exact .of_fail rfl trivial
  | some r =>
    obtain ⟨n, skipped⟩ := r
    obtain ⟨⟨body, rest, hbody, rfl, hescaped⟩, rfl⟩ := scanString_sound hscan
    have hdrop := congrArg List.length hbody
    simp only [List.length_drop, List.length_append, List.length_cons] at hdrop
    have hroom := (escapesBefore_add (b.content.drop (b.offset + 1)) 0 body.length).2
    rw [escapesBefore_zero, Nat.zero_add, Nat.zero_add] at hroom
    have hsize : b.offset + 1 + body.length - b.offset -
          escapesBefore (b.content.drop (b.offset + 1)) body.length + 1 =
        body.length + 2 - escapesBefore (b.content.drop (b.offset + 1)) body.length := by
      omega
    simp only [hsize]
    have htext : body ++ [Ascii.quote] <+: b.content.drop (b.offset + 1) :=
      ⟨rest, by rw [hbody, List.append_assoc]; rfl⟩
    refine .bind (unescape_ends htext (body.length + 1) 0 [] (Nat.zero_le _) (by omega)
      (Nat.succ_pos _) ((Nat.zero_add _).trans_le (le_of_eq (escapesBefore_zero _)))) ?_
    rintro output b' ⟨rfl, houtput, v, rfl, hchars⟩
    -- the terminator has its place
    refine .bind_ok (store_ok ?_) (.of_ok rfl ?_)
    · rw [List.length_append, List.length_singleton]
      omega
    refine ⟨Ascii.quote :: (body ++ [Ascii.quote]), ?_, ?_, body, rfl, hescaped, hchars⟩
    · have hahead : b'.ahead = Ascii.quote :: (body ++ Ascii.quote :: rest) := by
        rw [hfits.ahead, drop_of_getElem? hc, hquote]
        exact congrArg (Ascii.quote :: ·) hbody
      exact ⟨rest, by rw [hahead, List.cons_append, List.append_assoc]; rfl⟩
    · refine ParseBuffer.eq_forward ?_
      simp only [List.length_cons, List.length_append, List.length_nil]
      omega

end Sentry
