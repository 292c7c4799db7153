/-
Decimal literals in ASCII, as `strtod` reads them.

A literal is a sign, digits, a point with further digits, and an exponent; all but the digits may
be missing.

* `DecimalLit.text`, `DecimalLit.value` — what is written, and the number it stands for;
* `scanDecimal` — the longest literal a text starts with, and the rest;
* `scanDecimal_sound`, `scanDecimal_text` — it is read exactly;
* `DecimalLit.ofInt` — the integers.
-/
import Mathlib.Tactic

/-! ### Digits -/

/-- The byte of a digit. -/
def digitByte (d : Fin 10) : UInt8 := UInt8.ofNat (0x30 + d.val)

/-- The digit of a byte. -/
def byteDigit (c : UInt8) : Option (Fin 10) :=
  if 0x30 ≤ c.toNat then
    if h : c.toNat - 0x30 < 10 then some ⟨c.toNat - 0x30, h⟩ else none
  else none

/-- The number with these digits, the most significant one first. -/
def natOfDigits (ds : List (Fin 10)) : ℕ := ds.foldl (fun n d => 10 * n + d.val) 0

theorem byteDigit_digitByte : ∀ d : Fin 10, byteDigit (digitByte d) = some d := by decide

theorem digitByte_of_byteDigit {c : UInt8} {d : Fin 10} (h : byteDigit c = some d) :
    digitByte d = c := by
  rw [byteDigit] at h
  split_ifs at h with hlow hhigh
  obtain rfl := Option.some_inj.mp h
  rw [digitByte]
  show UInt8.ofNat (0x30 + (c.toNat - 0x30)) = c
  rw [Nat.add_sub_cancel' hlow, UInt8.ofNat_toNat]

/-- The digits a text starts with, and the rest. -/
def spanDigits : List UInt8 → List (Fin 10) × List UInt8
  | [] => ([], [])
  | c :: rest =>
    match byteDigit c with
    | none => ([], c :: rest)
    | some d => (d :: (spanDigits rest).1, (spanDigits rest).2)

theorem spanDigits_sound (s : List UInt8) :
    s = (spanDigits s).1.map digitByte ++ (spanDigits s).2 := by
  induction s with
  | nil => rfl
  | cons c rest ih =>
    rw [spanDigits]
    split
    · rfl
    · next d hd =>
      rw [List.map_cons, List.cons_append, ← ih, digitByte_of_byteDigit hd]

theorem spanDigits_digits (ds : List (Fin 10)) {rest : List UInt8}
    (h : ∀ c ∈ rest.head?, byteDigit c = none) :
    spanDigits (ds.map digitByte ++ rest) = (ds, rest) := by
  induction ds with
  | nil =>
    cases rest with
    | nil => rfl
    | cons c rest =>
      have hc : byteDigit c = none := h c rfl
      rw [List.map_nil, List.nil_append, spanDigits, hc]
  | cons d ds ih =>
    rw [List.map_cons, List.cons_append, spanDigits, byteDigit_digitByte]
    simp only [ih]

/-! ### Literals -/

/-- `+`. -/
def plusByte : UInt8 := 0x2b

/-- `-`. -/
def minusByte : UInt8 := 0x2d

/-- `.`. -/
def pointByte : UInt8 := 0x2e

/-- The byte of a sign. -/
def signByte (negative : Bool) : UInt8 := if negative then minusByte else plusByte

/-- A sign that may be missing. -/
def signText (sign : Option Bool) : List UInt8 := (sign.map signByte).toList

/-- An exponent: `E` or `e`, a sign, digits. -/
structure DecimalExp where
  upper : Bool
  sign : Option Bool
  digits : List (Fin 10)
  digits_ne : digits ≠ []

/-- A literal; the fraction is the digits behind a point. -/
structure DecimalLit where
  sign : Option Bool
  int : List (Fin 10)
  frac : Option (List (Fin 10))
  exp : Option DecimalExp
  digits_ne : int ++ frac.getD [] ≠ []

/-- `E` or `e`. -/
def expByte (upper : Bool) : UInt8 := if upper then 0x45 else 0x65

/-- The text of an exponent. -/
def DecimalExp.text (e : DecimalExp) : List UInt8 :=
  expByte e.upper :: (signText e.sign ++ e.digits.map digitByte)

/-- The text of a fraction. -/
def fracText : Option (List (Fin 10)) → List UInt8
  | none => []
  | some ds => pointByte :: ds.map digitByte

/-- The text of an exponent that may be missing. -/
def expText : Option DecimalExp → List UInt8
  | none => []
  | some e => e.text

namespace DecimalLit

/-- What is written. -/
def text (lit : DecimalLit) : List UInt8 :=
  signText lit.sign ++ (lit.int.map digitByte ++ (fracText lit.frac ++ expText lit.exp))

/-- The power of ten of an exponent. -/
def scale (lit : DecimalLit) : ℤ :=
  match lit.exp with
  | none => 0
  | some e => if e.sign = some true then - (natOfDigits e.digits : ℤ) else natOfDigits e.digits

/-- The number written. -/
def value (lit : DecimalLit) : ℚ :=
  (if lit.sign = some true then -1 else 1) * natOfDigits (lit.int ++ lit.frac.getD []) *
    10 ^ (lit.scale - (lit.frac.getD []).length)

end DecimalLit

/-! ### Reading -/

/-- The bytes of literals. -/
def isNumberByte (c : UInt8) : Bool :=
  (byteDigit c).isSome || c = plusByte || c = minusByte || c = expByte true || c = expByte false ||
    c = pointByte

/-- The sign a text starts with, and the rest. -/
def scanSign : List UInt8 → Option Bool × List UInt8
  | [] => (none, [])
  | c :: rest =>
    if c = minusByte then (some true, rest)
    else if c = plusByte then (some false, rest)
    else (none, c :: rest)

/-- The fraction a text starts with, and the rest. -/
def scanFrac : List UInt8 → Option (List (Fin 10)) × List UInt8
  | [] => (none, [])
  | c :: rest =>
    if c = pointByte then (some (spanDigits rest).1, (spanDigits rest).2) else (none, c :: rest)

/-- The exponent a text starts with, and the rest; without digits it is none. -/
def scanExp : List UInt8 → Option DecimalExp × List UInt8
  | [] => (none, [])
  | c :: rest =>
    if c = expByte true ∨ c = expByte false then
      if h : (spanDigits (scanSign rest).2).1 ≠ [] then
        (some
          { upper := decide (c = expByte true)
            sign := (scanSign rest).1
            digits := (spanDigits (scanSign rest).2).1
            digits_ne := h },
          (spanDigits (scanSign rest).2).2)
      else (none, c :: rest)
    else (none, c :: rest)

/-- The literal a text starts with, and the rest. -/
def scanDecimal (s : List UInt8) : Option (DecimalLit × List UInt8) :=
  let int := spanDigits (scanSign s).2
  let frac := scanFrac int.2
  if h : int.1 ++ frac.1.getD [] ≠ [] then
    some
      ({ sign := (scanSign s).1
         int := int.1
         frac := frac.1
         exp := (scanExp frac.2).1
         digits_ne := h },
        (scanExp frac.2).2)
  else none

theorem scanSign_sound (s : List UInt8) : s = signText (scanSign s).1 ++ (scanSign s).2 := by
  cases s with
  | nil => rfl
  | cons c rest =>
    rw [scanSign]
    split_ifs with hminus hplus
    · rw [hminus]
      rfl
    · rw [hplus]
      rfl
    · rfl

theorem scanFrac_sound (s : List UInt8) : s = fracText (scanFrac s).1 ++ (scanFrac s).2 := by
  cases s with
  | nil => rfl
  | cons c rest =>
    rw [scanFrac]
    split_ifs with hpoint
    · rw [hpoint]
      exact congrArg (pointByte :: ·) (spanDigits_sound rest)
    · rfl

theorem scanExp_sound (s : List UInt8) : s = expText (scanExp s).1 ++ (scanExp s).2 := by
  cases s with
  | nil => rfl
  | cons c rest =>
    rw [scanExp]
    split_ifs with hexp hdigits
    · have hbyte : expByte (decide (c = expByte true)) = c := by
        rcases hexp with rfl | rfl
        · rfl
        · rfl
      show c :: rest = (expByte _ :: (signText _ ++ _)) ++ _
      rw [hbyte, List.cons_append, List.append_assoc, ← spanDigits_sound, ← scanSign_sound]
    · rfl
    · rfl

/-- What is read is the text of the literal. -/
theorem scanDecimal_sound {s rest : List UInt8} {lit : DecimalLit}
    (h : scanDecimal s = some (lit, rest)) : s = lit.text ++ rest := by
  rw [scanDecimal] at h
  split_ifs at h with hdigits
  obtain ⟨rfl, rfl⟩ := Prod.mk.inj (Option.some_inj.mp h)
  simp only [DecimalLit.text, List.append_assoc]
  rw [← scanExp_sound, ← scanFrac_sound, ← spanDigits_sound, ← scanSign_sound]

section Complete

variable {rest : List UInt8}

theorem scanSign_text (sign : Option Bool) (h : ∀ c ∈ rest.head?, c ≠ minusByte ∧ c ≠ plusByte) :
    scanSign (signText sign ++ rest) = (sign, rest) := by
  match sign with
  | some true => rfl
  | some false => rfl
  | none =>
    cases rest with
    | nil => rfl
    | cons c rest =>
      obtain ⟨hminus, hplus⟩ := h c rfl
      show scanSign (c :: rest) = _
      rw [scanSign, if_neg hminus, if_neg hplus]

theorem scanFrac_text (frac : Option (List (Fin 10)))
    (h : ∀ c ∈ rest.head?, byteDigit c = none ∧ c ≠ pointByte) :
    scanFrac (fracText frac ++ rest) = (frac, rest) := by
  cases frac with
  | some ds =>
    show scanFrac (pointByte :: (ds.map digitByte ++ rest)) = _
    rw [scanFrac, if_pos rfl, spanDigits_digits ds fun c hc => (h c hc).1]
  | none =>
    cases rest with
    | nil => rfl
    | cons c rest =>
      show scanFrac (c :: rest) = _
      rw [scanFrac, if_neg (h c rfl).2]

theorem expByte_or (upper : Bool) : expByte upper = expByte true ∨ expByte upper = expByte false := by
  cases upper
  · exact .inr rfl
  · exact .inl rfl

/-- A digit is no sign. -/
theorem digitByte_ne : ∀ d : Fin 10, digitByte d ≠ minusByte ∧ digitByte d ≠ plusByte := by decide

theorem scanExp_text (exp : Option DecimalExp)
    (h : ∀ c ∈ rest.head?, byteDigit c = none ∧ c ≠ expByte true ∧ c ≠ expByte false) :
    scanExp (expText exp ++ rest) = (exp, rest) := by
  cases exp with
  | some e =>
    obtain ⟨upper, sign, digits, hne⟩ := e
    show scanExp (expByte upper :: ((signText sign ++ digits.map digitByte) ++ rest)) = _
    have hsign : scanSign (signText sign ++ (digits.map digitByte ++ rest)) =
        (sign, digits.map digitByte ++ rest) := by
      refine scanSign_text sign ?_
      intro c hc
      cases digits with
      | nil => exact absurd rfl hne
      | cons d ds =>
        obtain rfl : digitByte d = c := Option.some_inj.mp hc
        exact digitByte_ne d
    have hdigits : spanDigits (digits.map digitByte ++ rest) = (digits, rest) :=
      spanDigits_digits digits fun c hc => (h c hc).1
    have hupper : decide (expByte upper = expByte true) = upper := by cases upper <;> rfl
    rw [List.append_assoc, scanExp, if_pos (expByte_or upper)]
    simp only [hsign, hdigits, hupper]
    rw [dif_pos hne]
  | none =>
    cases rest with
    | nil => rfl
    | cons c rest =>
      obtain ⟨-, hupper, hlower⟩ := h c rfl
      show scanExp (c :: rest) = _
      rw [scanExp, if_neg (not_or.mpr ⟨hupper, hlower⟩)]

end Complete

/-- A property of the first byte of either part. -/
theorem forall_head_append {P : UInt8 → Prop} {s t : List UInt8} (hs : ∀ c ∈ s.head?, P c)
    (ht : ∀ c ∈ t.head?, P c) : ∀ c ∈ (s ++ t).head?, P c := by
  cases s with
  | nil => exact ht
  | cons c s => exact hs

theorem forall_head_digits {P : UInt8 → Prop} (h : ∀ d, P (digitByte d)) (ds : List (Fin 10)) :
    ∀ c ∈ (ds.map digitByte).head?, P c := by
  cases ds with
  | nil =>
    intro c hc
    cases hc
  | cons d ds =>
    intro c hc
    obtain rfl : digitByte d = c := Option.some_inj.mp hc
    exact h d

theorem forall_head_fracText {P : UInt8 → Prop} (h : P pointByte) (frac : Option (List (Fin 10))) :
    ∀ c ∈ (fracText frac).head?, P c := by
  cases frac with
  | none =>
    intro c hc
    cases hc
  | some ds =>
    intro c hc
    obtain rfl : pointByte = c := Option.some_inj.mp hc
    exact h

theorem forall_head_expText {P : UInt8 → Prop} (h : ∀ upper, P (expByte upper))
    (exp : Option DecimalExp) : ∀ c ∈ (expText exp).head?, P c := by
  cases exp with
  | none =>
    intro c hc
    cases hc
  | some e =>
    intro c hc
    obtain rfl : expByte e.upper = c := Option.some_inj.mp hc
    exact h e.upper

/-- What a byte that ends a literal is not. -/
structure EndsLit (c : UInt8) : Prop where
  digit : byteDigit c = none
  minus : c ≠ minusByte
  plus : c ≠ plusByte
  upper : c ≠ expByte true
  lower : c ≠ expByte false
  point : c ≠ pointByte

theorem endsLit_of_isNumberByte {c : UInt8} (h : isNumberByte c = false) : EndsLit c := by
  simp only [isNumberByte, Bool.or_eq_false_iff, decide_eq_false_iff_not] at h
  obtain ⟨⟨⟨⟨⟨hdigit, hplus⟩, hminus⟩, hupper⟩, hlower⟩, hpoint⟩ := h
  refine ⟨?_, hminus, hplus, hupper, hlower, hpoint⟩
  cases hb : byteDigit c with
  | none => rfl
  | some d => simp [hb] at hdigit

/-- A literal is read to its end, which the next byte must mark. -/
theorem scanDecimal_text (lit : DecimalLit) {rest : List UInt8}
    (h : ∀ c ∈ rest.head?, isNumberByte c = false) :
    scanDecimal (lit.text ++ rest) = some (lit, rest) := by
  have hends : ∀ c ∈ rest.head?, EndsLit c := fun c hc => endsLit_of_isNumberByte (h c hc)
  have hexp := scanExp_text lit.exp fun c hc =>
    ⟨(hends c hc).digit, (hends c hc).upper, (hends c hc).lower⟩
  have hfrac : scanFrac (fracText lit.frac ++ (expText lit.exp ++ rest)) =
      (lit.frac, expText lit.exp ++ rest) := by
    refine scanFrac_text lit.frac (forall_head_append (forall_head_expText ?_ _) ?_)
    · decide
    · exact fun c hc => ⟨(hends c hc).digit, (hends c hc).point⟩
  have hint : spanDigits (lit.int.map digitByte ++
      (fracText lit.frac ++ (expText lit.exp ++ rest))) =
      (lit.int, fracText lit.frac ++ (expText lit.exp ++ rest)) := by
    refine spanDigits_digits lit.int (forall_head_append (forall_head_fracText ?_ _)
      (forall_head_append (forall_head_expText ?_ _) fun c hc => (hends c hc).digit))
    · decide
    · decide
  have hsign : scanSign (signText lit.sign ++ (lit.int.map digitByte ++
      (fracText lit.frac ++ (expText lit.exp ++ rest)))) =
      (lit.sign, lit.int.map digitByte ++ (fracText lit.frac ++ (expText lit.exp ++ rest))) := by
    refine scanSign_text lit.sign (forall_head_append (forall_head_digits digitByte_ne _)
      (forall_head_append (forall_head_fracText ?_ _)
        (forall_head_append (forall_head_expText ?_ _) ?_)))
    · decide
    · decide
    · exact fun c hc => ⟨(hends c hc).minus, (hends c hc).plus⟩
  have htext : lit.text ++ rest = signText lit.sign ++ (lit.int.map digitByte ++
      (fracText lit.frac ++ (expText lit.exp ++ rest))) := by
    simp only [DecimalLit.text, List.append_assoc]
  rw [htext, scanDecimal]
  simp only [hsign, hint, hfrac, hexp]
  rw [dif_pos lit.digits_ne]

/-- A literal is made of its bytes. -/
theorem isNumberByte_of_mem {lit : DecimalLit} {c : UInt8} (h : c ∈ lit.text) :
    isNumberByte c = true := by
  have hdigit : ∀ d, isNumberByte (digitByte d) = true := by decide
  have hsign : ∀ {sign : Option Bool}, c ∈ signText sign → isNumberByte c = true := by
    intro sign hc
    match sign, hc with
    | some true, hc =>
      obtain rfl := List.mem_singleton.mp hc
      decide
    | some false, hc =>
      obtain rfl := List.mem_singleton.mp hc
      decide
  have hdigits : ∀ {ds : List (Fin 10)}, c ∈ ds.map digitByte → isNumberByte c = true := by
    intro ds hc
    obtain ⟨d, -, rfl⟩ := List.mem_map.mp hc
    exact hdigit d
  rw [DecimalLit.text, List.mem_append, List.mem_append, List.mem_append] at h
  rcases h with h | h | h | h
  · exact hsign h
  · exact hdigits h
  · match hfrac : lit.frac, h with
    | some ds, h =>
      rcases List.mem_cons.mp h with rfl | h
      · decide
      · exact hdigits h
  · match hexp : lit.exp, h with
    | some e, h =>
      rcases List.mem_cons.mp h with rfl | h
      · cases e.upper
        · decide
        · decide
      · rcases List.mem_append.mp h with h | h
        · exact hsign h
        · exact hdigits h

/-! ### Integers -/

/-- The digits of a number, the most significant one first. -/
def digitsOfNat (n : ℕ) : List (Fin 10) :=
  if h : n < 10 then [⟨n, h⟩] else digitsOfNat (n / 10) ++ [⟨n % 10, Nat.mod_lt n (by norm_num)⟩]

theorem digitsOfNat_ne (n : ℕ) : digitsOfNat n ≠ [] := by
  rw [digitsOfNat]
  split_ifs
  · exact List.cons_ne_nil _ _
  · exact List.append_ne_nil_of_right_ne_nil _ (List.cons_ne_nil _ _)

theorem natOfDigits_append_singleton (ds : List (Fin 10)) (d : Fin 10) :
    natOfDigits (ds ++ [d]) = 10 * natOfDigits ds + d.val := by
  rw [natOfDigits, List.foldl_append]
  rfl

theorem natOfDigits_digitsOfNat (n : ℕ) : natOfDigits (digitsOfNat n) = n := by
  induction n using Nat.strong_induction_on with
  | _ n ih =>
    rw [digitsOfNat]
    split_ifs with h
    · exact (Nat.zero_add n : 10 * 0 + n = n)
    · rw [natOfDigits_append_singleton, ih (n / 10) (by omega)]
      exact Nat.div_add_mod n 10

/-- No zero leads, but that of zero itself. -/
theorem digitsOfNat_lead (n : ℕ) : (digitsOfNat n).head? = some 0 → digitsOfNat n = [0] := by
  induction n using Nat.strong_induction_on with
  | _ n ih =>
    intro hlead
    rw [digitsOfNat] at hlead ⊢
    split_ifs at hlead ⊢ with h
    · exact congrArg ([·]) (Option.some_inj.mp hlead)
    · -- the digits in front are those of `n / 10`, which is not zero
      have hhead : (digitsOfNat (n / 10)).head? = some 0 := by
        rwa [List.head?_append_of_ne_nil _ (digitsOfNat_ne _)] at hlead
      have hzero := natOfDigits_digitsOfNat (n / 10)
      rw [ih (n / 10) (by omega) hhead] at hzero
      have : (0 : ℕ) = n / 10 := hzero
      omega

theorem length_digitsOfNat_le {k n : ℕ} (h : n < 10 ^ (k + 1)) :
    (digitsOfNat n).length ≤ k + 1 := by
  induction k generalizing n with
  | zero =>
    rw [digitsOfNat, dif_pos (by omega)]
    exact le_rfl
  | succ k ih =>
    rw [digitsOfNat]
    split_ifs with hlt
    · exact Nat.le_add_left 1 _
    · have hdiv : n / 10 < 10 ^ (k + 1) := by
        rw [pow_succ] at h
        exact Nat.div_lt_of_lt_mul (by omega)
      rw [List.length_append, List.length_singleton]
      exact Nat.succ_le_succ (ih hdiv)

/-- The literal of an integer, which has neither fraction nor exponent. -/
def DecimalLit.ofInt (z : ℤ) : DecimalLit where
  sign := if z < 0 then some true else none
  int := digitsOfNat z.natAbs
  frac := none
  exp := none
  digits_ne := List.append_ne_nil_of_left_ne_nil (digitsOfNat_ne _) _

theorem DecimalLit.value_ofInt (z : ℤ) : (DecimalLit.ofInt z).value = z := by
  have hdigits : natOfDigits ((ofInt z).int ++ (ofInt z).frac.getD []) = z.natAbs := by
    show natOfDigits (digitsOfNat z.natAbs ++ []) = _
    rw [List.append_nil, natOfDigits_digitsOfNat]
  have hpow : (ofInt z).scale - ((ofInt z).frac.getD []).length = 0 := rfl
  rw [DecimalLit.value, hdigits, hpow, zpow_zero, mul_one]
  rcases lt_or_ge z 0 with hneg | hpos
  · have hsign : (ofInt z).sign = some true := if_pos hneg
    rw [if_pos hsign, ← Int.cast_natCast, Int.natCast_natAbs, abs_of_neg hneg]
    push_cast
    ring
  · have hsign : (ofInt z).sign ≠ some true := by
      rw [show (ofInt z).sign = none from if_neg (not_lt.mpr hpos)]
      simp
    rw [if_neg hsign, one_mul, ← Int.cast_natCast, Int.natCast_natAbs, abs_of_nonneg hpos]

/-- A sign and at most as many digits. -/
theorem DecimalLit.length_text_ofInt {k : ℕ} {z : ℤ} (h : z.natAbs < 10 ^ (k + 1)) :
    (ofInt z).text.length ≤ k + 2 := by
  have hsign : (signText (ofInt z).sign).length ≤ 1 := by
    rcases (ofInt z).sign with _ | _
    · exact Nat.zero_le 1
    · exact le_rfl
  have hdigits : (digitsOfNat z.natAbs).length ≤ k + 1 := length_digitsOfNat_le h
  have htext : (ofInt z).text =
      signText (ofInt z).sign ++ ((digitsOfNat z.natAbs).map digitByte ++ ([] ++ [])) := rfl
  rw [htext, List.length_append, List.length_append, List.length_map]
  simp only [List.append_nil, List.length_nil]
  omega
