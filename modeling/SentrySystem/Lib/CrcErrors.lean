/-
The errors a most-significant-bit-first cyclic redundancy check detects, over a
register of any width.

A changed bit changes the remainder by a power of `x` that depends on its place only
(`crcFold_modify`), so an error goes unnoticed exactly when the powers of its bits cancel.

* `power p n` — the remainder of `x ^ n`;
* `crcFold_modify` — changing one byte of the data;
* `power_inj` — powers below the order of `x` are distinct, so two errors never cancel;
* `parity_power` — where `x + 1` divides the polynomial, an odd number of errors never
  cancels;
* `xorSum_window`, `shifts_eq_zero` — errors inside one register width never cancel;
* `unshifts_shifts` — the register clocked backwards.
-/
import SentrySystem.Lib.MsbCrc

namespace MsbCrc

variable {w : ℕ}

/-! ### The register over a byte string -/

/-- The register after the bytes of `data`, from `x` on. -/
def crcFold (p x : BitVec w) (data : List UInt8) : BitVec w :=
  data.foldl (fun x b => shifts p 8 (x ^^^ topByte w b.toBitVec)) x

theorem shifts_zero_right (p : BitVec w) (n : ℕ) : shifts p n 0#w = 0#w := by
  have h := shifts_xor p n 0#w 0#w
  rw [BitVec.xor_self, BitVec.xor_self] at h
  exact h

theorem shifts_add (p : BitVec w) (m n : ℕ) (x : BitVec w) :
    shifts p (m + n) x = shifts p m (shifts p n x) := by
  induction m with
  | zero => rw [Nat.zero_add, shifts]
  | succ m ih => rw [Nat.succ_add, shifts, shifts, ih]

/-- A difference in the register is clocked along with the data. -/
theorem crcFold_xor (p : BitVec w) : ∀ (data : List UInt8) (x y : BitVec w),
    crcFold p (x ^^^ y) data = crcFold p x data ^^^ shifts p (8 * data.length) y := by
  intro data
  induction data with
  | nil =>
    intro x y
    rfl
  | cons b data ih =>
    intro x y
    have hstep : x ^^^ y ^^^ topByte w b.toBitVec = (x ^^^ topByte w b.toBitVec) ^^^ y := by
      ac_rfl
    show crcFold p (shifts p 8 (x ^^^ y ^^^ topByte w b.toBitVec)) data =
      crcFold p (shifts p 8 (x ^^^ topByte w b.toBitVec)) data ^^^ _
    rw [hstep, shifts_xor, ih, ← shifts_add, List.length_cons, Nat.mul_succ]

/-- **Changing a byte of the data** changes the remainder by what its place makes of the
change. -/
theorem crcFold_modify (p : BitVec w) (m : UInt8) : ∀ (data : List UInt8) (k : ℕ) (x : BitVec w),
    k < data.length → crcFold p x (data.modify k (· ^^^ m)) =
      crcFold p x data ^^^ shifts p (8 * (data.length - k)) (topByte w m.toBitVec) := by
  intro data
  induction data with
  | nil =>
    intro k x hk
    simp at hk
  | cons b data ih =>
    intro k x hk
    cases k with
    | zero =>
      have hstep : x ^^^ topByte w (b ^^^ m).toBitVec =
          (x ^^^ topByte w b.toBitVec) ^^^ topByte w m.toBitVec := by
        rw [UInt8.toBitVec_xor, topByte_xor, BitVec.xor_assoc]
      show crcFold p (shifts p 8 (x ^^^ topByte w (b ^^^ m).toBitVec)) data =
        crcFold p (shifts p 8 (x ^^^ topByte w b.toBitVec)) data ^^^ _
      rw [hstep, shifts_xor, crcFold_xor, ← shifts_add, Nat.sub_zero, List.length_cons,
        Nat.mul_succ]
    | succ k =>
      show crcFold p (shifts p 8 (x ^^^ topByte w b.toBitVec)) (data.modify k (· ^^^ m)) =
        crcFold p (shifts p 8 (x ^^^ topByte w b.toBitVec)) data ^^^ _
      rw [ih k _ (by simpa using hk), List.length_cons, Nat.succ_sub_succ]

/-! ### Powers of `x` -/

/-- The remainder of `x ^ n`. -/
def power (p : BitVec w) (n : ℕ) : BitVec w := shifts p n 1#w

theorem shifts_power (p : BitVec w) (m n : ℕ) : shifts p m (power p n) = power p (m + n) :=
  (shifts_add p m n 1#w).symm

/-- Below the width of the register a power is a single bit. -/
theorem power_of_lt (p : BitVec w) {n : ℕ} (hn : n < w) : power p n = 1#w <<< n := by
  apply shifts_of_clear p n 1#w hn.le
  intro i hi
  rw [BitVec.getLsbD_one]
  have hpos : i ≠ 0 := by omega
  simp [hpos]

/-- Where the polynomial has a constant term, a clock loses nothing. -/
theorem eq_zero_of_shift1 {p : BitVec w} (hp : p.getLsbD 0 = true) {x : BitVec w}
    (h : shift1 p x = 0#w) : x = 0#w := by
  rw [shift1] at h
  cases hx : x.msb with
  | true =>
    -- the feedback sets the lowest bit
    rw [hx, if_pos rfl] at h
    have hbit := congrArg (fun y : BitVec w => y.getLsbD 0) h
    simp [hp] at hbit
  | false =>
    rw [hx, if_neg (by simp)] at h
    apply BitVec.eq_of_getLsbD_eq
    intro i hi
    by_cases htop : i + 1 < w
    · have hbit := congrArg (fun y : BitVec w => y.getLsbD (i + 1)) h
      simpa [htop, hi] using hbit
    · have hlast : i = w - 1 := by omega
      rw [hlast, ← BitVec.msb_eq_getLsbD_last, hx, BitVec.getLsbD_zero]

theorem shifts_eq_zero {p : BitVec w} (hp : p.getLsbD 0 = true) {n : ℕ} {x : BitVec w} :
    shifts p n x = 0#w ↔ x = 0#w := by
  constructor
  · induction n with
    | zero => exact id
    | succ n ih =>
      intro h
      exact ih (eq_zero_of_shift1 hp h)
  · intro h
    rw [h, shifts_zero_right]

theorem shifts_inj {p : BitVec w} (hp : p.getLsbD 0 = true) {n : ℕ} {x y : BitVec w}
    (h : shifts p n x = shifts p n y) : x = y := by
  rw [← BitVec.xor_eq_zero_iff] at h ⊢
  rwa [← shifts_xor, shifts_eq_zero hp] at h

/-- One clock backwards. -/
def unshift1 (p x : BitVec w) : BitVec w :=
  if x.getLsbD 0 then ((x ^^^ p) >>> 1) ^^^ BitVec.twoPow w (w - 1) else x >>> 1

/-- `n` clocks backwards. -/
def unshifts (p : BitVec w) : ℕ → BitVec w → BitVec w
  | 0, x => x
  | n + 1, x => unshifts p n (unshift1 p x)

theorem unshift1_shift1 {p : BitVec w} (hp : p.getLsbD 0 = true) (x : BitVec w) :
    unshift1 p (shift1 p x) = x := by
  rw [shift1]
  cases hx : x.msb with
  | true =>
    -- the lowest bit tells that a bit fell out
    have hlow : ((x <<< 1) ^^^ p).getLsbD 0 = true := by simp [hp]
    have hback : (x <<< 1) ^^^ p ^^^ p = x <<< 1 := by
      rw [BitVec.xor_assoc, BitVec.xor_self, BitVec.xor_zero]
    rw [if_pos rfl, unshift1, if_pos hlow, hback]
    apply BitVec.eq_of_getLsbD_eq
    intro i hi
    rw [BitVec.msb_eq_getLsbD_last] at hx
    rw [BitVec.getLsbD_xor, BitVec.getLsbD_ushiftRight, BitVec.getLsbD_shiftLeft,
      BitVec.getLsbD_twoPow]
    by_cases htop : i = w - 1
    · rw [htop, hx]
      simp [show ¬ 1 + (w - 1) < w by omega, show w - 1 < w by omega]
    · simp [show 1 + i < w by omega, show w - 1 ≠ i by omega]
  | false =>
    have hlow : ¬ (x <<< 1).getLsbD 0 = true := by simp
    rw [if_neg (by simp), unshift1, if_neg hlow]
    apply BitVec.eq_of_getLsbD_eq
    intro i hi
    rw [BitVec.msb_eq_getLsbD_last] at hx
    rw [BitVec.getLsbD_ushiftRight, BitVec.getLsbD_shiftLeft]
    by_cases htop : i = w - 1
    · rw [htop, hx]
      simp [show ¬ 1 + (w - 1) < w by omega]
    · simp [show 1 + i < w by omega]

theorem unshifts_shifts {p : BitVec w} (hp : p.getLsbD 0 = true) (n : ℕ) (x : BitVec w) :
    unshifts p n (shifts p n x) = x := by
  induction n with
  | zero => rfl
  | succ n ih => rw [shifts, unshifts, unshift1_shift1 hp, ih]

/-- Powers below the order of `x` are distinct. -/
theorem power_inj {p : BitVec w} (hp : p.getLsbD 0 = true) {N : ℕ}
    (horder : ∀ d < N, 0 < d → power p d ≠ 1#w) :
    ∀ {a b : ℕ}, a < N → b < N → power p a = power p b → a = b := by
  -- the smaller of two equal powers is divided out
  have hle : ∀ a b : ℕ, a ≤ b → b < N → power p a = power p b → a = b := by
    intro a b hab hb heq
    obtain ⟨d, rfl⟩ := Nat.exists_eq_add_of_le hab
    have hone : power p d = 1#w := by
      rw [← shifts_power] at heq
      exact (shifts_inj hp heq).symm
    by_contra hne
    exact horder d (by omega) (by omega) hone
  intro a b ha hb heq
  rcases Nat.le_total a b with hab | hab
  · exact hle a b hab hb heq
  · exact (hle b a hab ha heq.symm).symm

/-! ### Parity -/

/-- Whether an odd number of the lowest `n` bits is set. -/
def parityBelow (x : BitVec w) : ℕ → Bool
  | 0 => false
  | n + 1 => parityBelow x n ^^ x.getLsbD n

/-- Whether an odd number of bits is set. -/
def parity (x : BitVec w) : Bool := parityBelow x w

theorem parityBelow_xor (x y : BitVec w) (n : ℕ) :
    parityBelow (x ^^^ y) n = (parityBelow x n ^^ parityBelow y n) := by
  induction n with
  | zero => rfl
  | succ n ih =>
    rw [parityBelow, parityBelow, parityBelow, ih, BitVec.getLsbD_xor]
    cases parityBelow x n <;> cases parityBelow y n <;> simp

theorem parity_xor (x y : BitVec w) : parity (x ^^^ y) = (parity x ^^ parity y) :=
  parityBelow_xor x y w

theorem parityBelow_zero (n : ℕ) : parityBelow 0#w n = false := by
  induction n with
  | zero => rfl
  | succ n ih => rw [parityBelow, ih, BitVec.getLsbD_zero, Bool.false_xor]

theorem parity_zero : parity 0#w = false := parityBelow_zero w

theorem parityBelow_shiftLeft (x : BitVec w) {n : ℕ} (hn : n < w) :
    parityBelow (x <<< 1) (n + 1) = parityBelow x n := by
  induction n with
  | zero => simp [parityBelow]
  | succ n ih =>
    have hlt : n < w := by omega
    have hbit : (x <<< 1).getLsbD (n + 1) = x.getLsbD n := by simp [hn, hlt]
    rw [parityBelow, ih (by omega), hbit, parityBelow]

/-- Shifting loses the top bit. -/
theorem parity_shiftLeft (hw : 0 < w) (x : BitVec w) :
    parity (x <<< 1) = (parity x ^^ x.msb) := by
  obtain ⟨n, rfl⟩ := Nat.exists_eq_succ_of_ne_zero hw.ne'
  rw [parity, parityBelow_shiftLeft x (Nat.lt_succ_self n), parity, parityBelow,
    BitVec.msb_eq_getLsbD_last, Nat.succ_sub_one, Bool.xor_assoc, Bool.xor_self, Bool.xor_false]

/-- Where `x + 1` divides the polynomial, clocking keeps the parity. -/
theorem parity_shift1 {p : BitVec w} (hw : 0 < w) (hp : parity p = true) (x : BitVec w) :
    parity (shift1 p x) = parity x := by
  rw [shift1]
  cases hx : x.msb with
  | true => rw [if_pos rfl, parity_xor, parity_shiftLeft hw, hp, hx, Bool.xor_assoc,
      Bool.xor_self, Bool.xor_false]
  | false => rw [if_neg (by simp), parity_shiftLeft hw, hx, Bool.xor_false]

theorem parityBelow_one {n : ℕ} (hw : 0 < w) (hn : 0 < n) : parityBelow 1#w n = true := by
  induction n with
  | zero => exact absurd hn (Nat.lt_irrefl 0)
  | succ n ih =>
    rcases Nat.eq_zero_or_pos n with hzero | hpos
    · rw [hzero, parityBelow, parityBelow, BitVec.getLsbD_one]
      simp [hw]
    · rw [parityBelow, ih hpos, BitVec.getLsbD_one]
      simp [hpos.ne']

/-- Every power of `x` is odd where `x + 1` divides the polynomial. -/
theorem parity_power {p : BitVec w} (hw : 0 < w) (hp : parity p = true) (n : ℕ) :
    parity (power p n) = true := by
  induction n with
  | zero => exact parityBelow_one hw hw
  | succ n ih =>
    show parity (shift1 p (power p n)) = true
    rw [parity_shift1 hw hp, ih]

/-! ### Sums -/

/-- The exclusive or of a list of vectors. -/
def xorSum (l : List (BitVec w)) : BitVec w := l.foldr (· ^^^ ·) 0#w

@[simp] theorem xorSum_nil : xorSum ([] : List (BitVec w)) = 0#w := rfl

@[simp] theorem xorSum_cons (x : BitVec w) (l : List (BitVec w)) :
    xorSum (x :: l) = x ^^^ xorSum l := rfl

theorem xorSum_append (l l' : List (BitVec w)) :
    xorSum (l ++ l') = xorSum l ^^^ xorSum l' := by
  induction l with
  | nil => rw [List.nil_append, xorSum_nil, BitVec.zero_xor]
  | cons x l ih => rw [List.cons_append, xorSum_cons, xorSum_cons, ih, BitVec.xor_assoc]

/-- A linear map is applied to the summands. -/
theorem map_xorSum {v : ℕ} {f : BitVec w → BitVec v}
    (hadd : ∀ x y, f (x ^^^ y) = f x ^^^ f y) (l : List (BitVec w)) :
    xorSum (l.map f) = f (xorSum l) := by
  induction l with
  | nil =>
    have h := hadd 0#w 0#w
    rw [BitVec.xor_self, BitVec.xor_self] at h
    exact h.symm
  | cons x l ih => rw [List.map_cons, xorSum_cons, xorSum_cons, ih, hadd]

/-- The places of the set bits of `x`, from the most significant one on. -/
def setBits (x : BitVec w) : List ℕ := (List.range w).filter x.getMsbD

theorem xorSum_top (x : BitVec w) {k : ℕ} (hk : k ≤ w) :
    xorSum (((List.range k).filter x.getMsbD).map fun j => 1#w <<< (w - 1 - j)) =
      (x >>> (w - k)) <<< (w - k) := by
  induction k with
  | zero => simp
  | succ k ih =>
    rw [List.range_succ, List.filter_append, List.map_append, xorSum_append, ih (by omega)]
    have hbit : xorSum (([k].filter x.getMsbD).map fun j => 1#w <<< (w - 1 - j)) =
        if x.getMsbD k then 1#w <<< (w - 1 - k) else 0#w := by
      cases hx : x.getMsbD k <;> simp [hx]
    rw [hbit]
    apply BitVec.eq_of_getLsbD_eq
    intro i hi
    have hmsb : x.getMsbD k = x.getLsbD (w - 1 - k) := by
      rw [BitVec.getMsbD_eq_getLsbD]
      simp [show k < w by omega]
    rw [hmsb, BitVec.getLsbD_xor]
    rcases Nat.lt_trichotomy i (w - 1 - k) with hlt | heq | hgt
    · have h1 : i < w - k := by omega
      have h2 : i < w - (k + 1) := by omega
      cases x.getLsbD (w - 1 - k) <;> simp [h1, h2, hlt]
    · have h1 : i < w - k := by omega
      have h2 : ¬ i < w - (k + 1) := by omega
      have h3 : w - (k + 1) + (i - (w - (k + 1))) = i := by omega
      rw [← heq]
      cases hx : x.getLsbD i <;> simpa [h1, h2, h3, hi] using hx
    · have h1 : ¬ i < w - k := by omega
      have h2 : ¬ i < w - (k + 1) := by omega
      have h3 : w - k + (i - (w - k)) = i := by omega
      have h4 : w - (k + 1) + (i - (w - (k + 1))) = i := by omega
      have h5 : ¬ i < w - 1 - k := by omega
      have h6 : i - (w - 1 - k) ≠ 0 := by omega
      cases x.getLsbD (w - 1 - k) <;> simp [h1, h2, h3, h4, h5, h6, hi]

/-- A vector is the sum of its bits. -/
theorem xorSum_setBits (x : BitVec w) :
    xorSum ((setBits x).map fun j => 1#w <<< (w - 1 - j)) = x := by
  have h := xorSum_top x (Nat.le_refl w)
  rwa [Nat.sub_self, BitVec.ushiftRight_zero, BitVec.shiftLeft_zero] at h

theorem lt_of_mem_setBits {x : BitVec w} {j : ℕ} (h : j ∈ setBits x) : j < w :=
  List.mem_range.mp (List.mem_filter.mp h).1

/-- **A window of one register width**: its powers add up to the window, clocked. -/
theorem xorSum_window (p x : BitVec w) (n : ℕ) :
    xorSum ((setBits x).map fun j => power p (n + (w - 1 - j))) = shifts p n x := by
  have hmap : (setBits x).map (fun j => power p (n + (w - 1 - j))) =
      ((setBits x).map fun j => 1#w <<< (w - 1 - j)).map (shifts p n) := by
    rw [List.map_map]
    apply List.map_congr_left
    intro j hj
    have hlt := lt_of_mem_setBits hj
    rw [← shifts_power, power_of_lt p (by omega), Function.comp_apply]
  rw [hmap, map_xorSum (shifts_xor p n), xorSum_setBits]

end MsbCrc
