/-
Which errors in a header the receivers notice.

The bits of a header are numbered as they lie on the wire, bytes in order and the most
significant bit of a byte first.  A flipped bit adds a power of `x` to the remainder, and
the place of the `crc` field decides which: the field is stored with its low byte first,
the register was clocked with its high byte first.

* `crc16_agree` — the CRC of the device, of the Qt host and of the Python tools;
* `headerResidue_flipBits` — what a set of flipped bits adds to the remainder;
* `validateFrameHeader_flipBits` — one, two or three flipped bits are noticed;
* `validateFrameHeader_burst` — a burst of sixteen bits is noticed unless it is one of
  twelve that reach into the `crc` field.
-/
import SentrySystem.PyReceiver
import SentrySystem.Lib.CrcErrors

open MsbCrc

namespace Sentry

open FrameHeader

/-- **The three CRC implementations are the same function.** -/
theorem crc16_agree (data : List UInt8) :
    crc16Ccitt data = crc16Xmodem data ∧ pyCrc16 data = (crc16Ccitt data).toNat := by
  have hhost := crc16Ccitt_eq_crc16Xmodem data
  constructor
  · exact hhost
  · rw [pyCrc16_eq, hhost]

/-- A header with bit `i` flipped. -/
def flipBit (raw : List UInt8) (i : ℕ) : List UInt8 :=
  raw.modify (i / 8) (· ^^^ (0x80 >>> UInt8.ofNat (i % 8)))

/-- A header with the bits of `ps` flipped. -/
def flipBits (raw : List UInt8) (ps : List ℕ) : List UInt8 := ps.foldl flipBit raw

/-- The set bits of a pattern of sixteen consecutive bits, the first of them at `start`. -/
def burst (start : ℕ) (pattern : BitVec 16) : List ℕ := (setBits pattern).map (start + ·)

@[simp] theorem length_flipBit (raw : List UInt8) (i : ℕ) :
    (flipBit raw i).length = raw.length := by
  rw [flipBit, List.length_modify]

/-! ### The remainder of a header -/

/-- The CRC of the first 30 bytes, with the stored one taken off. -/
def headerResidue (raw : List UInt8) : BitVec 16 :=
  (crc16Xmodem (raw.take 30)).toBitVec ^^^ (ofBytes raw).crc.toBitVec

theorem validateFrameHeader_eq_true (raw : List UInt8) :
    validateFrameHeader raw = true ↔
      (ofBytes raw).magic = frameMagic ∧ headerResidue raw = 0#16 := by
  rw [validateFrameHeader, headerResidue, BitVec.xor_eq_zero_iff, UInt16.toBitVec_inj]
  by_cases hmagic : (ofBytes raw).magic = frameMagic
  · rw [if_neg (by simp [hmagic]), beq_iff_eq]
    exact (and_iff_right hmagic).symm
  · rw [if_pos (by simp [hmagic])]
    simp [hmagic]

theorem crc16Xmodem_toBitVec (data : List UInt8) :
    (crc16Xmodem data).toBitVec = crcFold 0x1021#16 0#16 data := by
  have hfold : ∀ crc : UInt16, (data.foldl crc16XmodemByte crc).toBitVec =
      crcFold 0x1021#16 crc.toBitVec data := by
    induction data with
    | nil =>
      intro crc
      rfl
    | cons b data ih =>
      intro crc
      have hbyte : (crc16XmodemByte crc b).toBitVec =
          shifts 0x1021#16 8 (crc.toBitVec ^^^ topByte 16 b.toBitVec) := by
        rw [crc16XmodemByte, repeat_crc16XmodemBit, UInt16.toBitVec_xor,
          toUInt16_shiftLeft_toBitVec]
      rw [List.foldl_cons, ih, hbyte]
      rfl
  exact hfold 0

/-- The bytes of the `crc` field, the first of them the low one. -/
theorem crc_toBitVec {raw : List UInt8} {lo hi : UInt8} (hraw : raw.drop 30 = [lo, hi]) :
    (ofBytes raw).crc.toBitVec = hi.toBitVec ++ lo.toBitVec := by
  have hlo : lo.toNat < 2 ^ 8 := lo.toNat_lt
  have hhi : hi.toNat < 2 ^ 8 := hi.toNat_lt
  apply BitVec.eq_of_toNat_eq
  show (UInt16.ofNat (leNat ((raw.drop 30).take 2))).toNat = _
  rw [hraw, BitVec.toNat_append, UInt8.toNat_toBitVec, UInt8.toNat_toBitVec,
    ← Nat.shiftLeft_add_eq_or_of_lt hlo, Nat.shiftLeft_eq]
  show (lo.toNat + 256 * (hi.toNat + 256 * 0)) % 2 ^ 16 = _
  rw [Nat.mod_eq_of_lt (by omega)]
  omega

/-- The power of `x` that an error in bit `i` adds to the remainder. -/
def errorExponent (i : ℕ) : ℕ :=
  if i < 240 then 255 - i
  -- the low byte of the field comes first
  else if i < 248 then 247 - i
  else 263 - i

/-- What an error in bit `i` adds to the remainder. -/
def syndrome (i : ℕ) : BitVec 16 := power 0x1021#16 (errorExponent i)

theorem topByte_flip {j : ℕ} (hj : j < 8) :
    topByte 16 ((0x80 : UInt8) >>> UInt8.ofNat j).toBitVec = power 0x1021#16 (15 - j) := by
  have h : ∀ j : Fin 8, topByte 16 ((0x80 : UInt8) >>> UInt8.ofNat j).toBitVec =
      power 0x1021#16 (15 - j) := by
    decide +kernel
  exact h ⟨j, hj⟩

theorem lowByte_flip {j : ℕ} (hj : j < 8) :
    0#8 ++ ((0x80 : UInt8) >>> UInt8.ofNat j).toBitVec = power 0x1021#16 (7 - j) := by
  have h : ∀ j : Fin 8, 0#8 ++ ((0x80 : UInt8) >>> UInt8.ofNat j).toBitVec =
      power 0x1021#16 (7 - j) := by
    decide +kernel
  exact h ⟨j, hj⟩

theorem append_xor_append (a b c d : BitVec 8) :
    (a ^^^ b) ++ (c ^^^ d) = (a ++ c) ^^^ (b ++ d) := by
  apply BitVec.eq_of_getLsbD_eq
  intro i _
  simp only [BitVec.getLsbD_append, BitVec.getLsbD_xor]
  by_cases h : i < 8 <;> simp [h]

theorem headerResidue_flipBit {raw : List UInt8} (hlen : raw.length = frameHeaderSize) {i : ℕ}
    (hi : i < 256) : headerResidue (flipBit raw i) = headerResidue raw ^^^ syndrome i := by
  have hmod : i % 8 < 8 := Nat.mod_lt i (by norm_num)
  have hbit : i / 8 * 8 + i % 8 = i := Nat.div_add_mod' i 8
  have hbody : (raw.take 30).length = 30 := by
    rw [List.length_take, hlen]
    rfl
  rw [headerResidue, headerResidue, flipBit, List.take_modify]
  by_cases hcovered : i < 240
  · -- a bit the CRC covers
    have hcrc : (ofBytes (raw.modify (i / 8) (· ^^^ (0x80 >>> UInt8.ofNat (i % 8))))).crc =
        (ofBytes raw).crc := by
      show UInt16.ofNat (field _ 30 2) = UInt16.ofNat (field _ 30 2)
      rw [field, field, List.drop_modify_of_lt _ _ _ _ (by omega)]
    have hexp : 8 * (30 - i / 8) + (15 - i % 8) = errorExponent i := by
      rw [errorExponent, if_pos hcovered]
      omega
    rw [hcrc, crc16Xmodem_toBitVec, crc16Xmodem_toBitVec,
      crcFold_modify _ _ _ _ _ (by omega), hbody, topByte_flip hmod, shifts_power, hexp]
    rw [← syndrome]
    ac_rfl
  · -- a bit of the stored CRC
    obtain ⟨lo, hi', hpair⟩ : ∃ lo hi', raw.drop 30 = [lo, hi'] := by
      have htwo : (raw.drop 30).length = 2 := by
        rw [List.length_drop, hlen]
        rfl
      exact List.length_eq_two.mp htwo
    rw [List.modify_eq_self (by omega), BitVec.xor_assoc, crc_toBitVec hpair]
    congr 1
    set m : UInt8 := 0x80 >>> UInt8.ofNat (i % 8) with hm
    have hdrop := List.drop_modify_of_ge (· ^^^ m) (i / 8) 30 raw (by omega)
    rw [hpair] at hdrop
    by_cases hlow : i < 248
    · have hk : i / 8 - 30 = 0 := by omega
      have hexp : 7 - i % 8 = errorExponent i := by
        rw [errorExponent, if_neg hcovered, if_pos hlow]
        omega
      rw [hk, List.modify_zero_cons] at hdrop
      have hsplit := append_xor_append hi'.toBitVec 0#8 lo.toBitVec m.toBitVec
      rw [BitVec.xor_zero] at hsplit
      rw [crc_toBitVec hdrop, UInt8.toBitVec_xor, hsplit, hm, lowByte_flip hmod, hexp, syndrome]
    · have hk : i / 8 - 30 = 1 := by omega
      have hexp : 15 - i % 8 = errorExponent i := by
        rw [errorExponent, if_neg hcovered, if_neg hlow]
        omega
      rw [hk, List.modify_succ_cons, List.modify_zero_cons] at hdrop
      have hsplit := append_xor_append hi'.toBitVec m.toBitVec lo.toBitVec 0#8
      rw [BitVec.xor_zero] at hsplit
      have htop : m.toBitVec ++ 0#8 = topByte 16 m.toBitVec := by
        rw [topByte, BitVec.append_def, BitVec.shiftLeftZeroExtend_eq]
        simp
      rw [crc_toBitVec hdrop, UInt8.toBitVec_xor, hsplit, htop, hm, topByte_flip hmod, hexp,
        syndrome]

/-- **What flipped bits add to the remainder.** -/
theorem headerResidue_flipBits : ∀ {raw : List UInt8} {ps : List ℕ},
    raw.length = frameHeaderSize → (∀ i ∈ ps, i < 256) →
    headerResidue (flipBits raw ps) = headerResidue raw ^^^ xorSum (ps.map syndrome) := by
  intro raw ps
  induction ps generalizing raw with
  | nil =>
    intro _ _
    rw [List.map_nil, xorSum_nil, BitVec.xor_zero]
    rfl
  | cons i ps ih =>
    intro hlen hps
    show headerResidue (flipBits (flipBit raw i) ps) = _
    rw [ih (by rw [length_flipBit, hlen]) (fun j hj => hps j (List.mem_cons_of_mem _ hj)),
      headerResidue_flipBit hlen (hps i List.mem_cons_self), List.map_cons, xorSum_cons,
      BitVec.xor_assoc]

/-- Flipped bits that do not cancel are noticed. -/
theorem flipBits_rejected {raw : List UInt8} (hlen : raw.length = frameHeaderSize)
    (hok : validateFrameHeader raw = true) {ps : List ℕ} (hps : ∀ i ∈ ps, i < 256)
    (hne : xorSum (ps.map syndrome) ≠ 0#16) : validateFrameHeader (flipBits raw ps) = false := by
  by_contra h
  rw [Bool.not_eq_false, validateFrameHeader_eq_true, headerResidue_flipBits hlen hps,
    ((validateFrameHeader_eq_true raw).mp hok).2, BitVec.zero_xor] at h
  exact hne h.2

/-! ### A few errors -/

theorem errorExponent_lt {i : ℕ} (hi : i < 256) : errorExponent i < 256 := by
  rw [errorExponent]
  split_ifs <;> omega

theorem errorExponent_inj {i j : ℕ} (hi : i < 256) (hj : j < 256)
    (h : errorExponent i = errorExponent j) : i = j := by
  rw [errorExponent, errorExponent] at h
  split_ifs at h <;> omega

/-- `x` does not return to 1 within the length of a header. -/
theorem power_ne_one {d : ℕ} (hd : d < 256) (hpos : 0 < d) : power 0x1021#16 d ≠ 1#16 := by
  have h : ∀ d : Fin 256, 0 < d.val → power 0x1021#16 d ≠ 1#16 := by
    decide +kernel
  exact h ⟨d, hd⟩ hpos

theorem syndrome_inj {i j : ℕ} (hi : i < 256) (hj : j < 256) (h : syndrome i = syndrome j) :
    i = j := by
  have hexp : errorExponent i = errorExponent j :=
    power_inj (by decide) (fun d hd hpos => power_ne_one hd hpos) (errorExponent_lt hi)
      (errorExponent_lt hj) h
  exact errorExponent_inj hi hj hexp

theorem parity_syndrome (i : ℕ) : parity (syndrome i) = true :=
  parity_power (by norm_num) (by decide) _

/-- An odd number of errors never cancels. -/
theorem parity_xorSum_syndrome (ps : List ℕ) :
    parity (xorSum (ps.map syndrome)) = decide (ps.length % 2 = 1) := by
  induction ps with
  | nil => exact parity_zero
  | cons i ps ih =>
    rw [List.map_cons, xorSum_cons, parity_xor, ih, parity_syndrome, List.length_cons]
    rcases Nat.mod_two_eq_zero_or_one ps.length with h | h
    · simp [h, Nat.add_mod]
    · simp [h, Nat.add_mod]

/-- **One, two or three flipped bits of a header are noticed**, those of the `crc` field
among them, by the test of the host and by that of the device. -/
theorem validateFrameHeader_flipBits (raw : List UInt8) (ps : List ℕ)
    (hlen : raw.length = frameHeaderSize) (hok : validateFrameHeader raw = true)
    (hps : ∀ i ∈ ps, i < 256) (hnodup : ps.Nodup) (hpos : 0 < ps.length) (hle : ps.length ≤ 3) :
    validateFrameHeader (flipBits raw ps) = false ∧ headerOk (flipBits raw ps) = false := by
  rw [← validateFrameHeader_eq_headerOk, and_self]
  apply flipBits_rejected hlen hok hps
  intro hzero
  by_cases hodd : ps.length % 2 = 1
  · -- one or three errors
    have hparity := parity_xorSum_syndrome ps
    rw [hzero, parity_zero, decide_eq_true hodd] at hparity
    exact Bool.false_ne_true hparity
  · -- two errors
    obtain ⟨i, j, rfl⟩ := List.length_eq_two.mp (by omega : ps.length = 2)
    have heq : syndrome i = syndrome j := by
      rw [List.map_cons, List.map_cons, List.map_nil, xorSum_cons, xorSum_cons, xorSum_nil,
        BitVec.xor_zero, BitVec.xor_eq_zero_iff] at hzero
      exact hzero
    have hij := syndrome_inj (hps i (by simp)) (hps j (by simp)) heq
    rw [hij] at hnodup
    simp at hnodup

/-- A header of no particular content. -/
def sampleHeader : List UInt8 := [0xCD, 0xAB] ++ List.replicate 28 0 ++ [0x61, 0x58]

theorem sampleHeader_ok : validateFrameHeader sampleHeader = true := by
  decide +kernel

theorem validateFrameHeader_flipBits_sample :
    validateFrameHeader (flipBits sampleHeader [3, 77, 241]) = false ∧
      headerOk (flipBits sampleHeader [3, 77, 241]) = false :=
  validateFrameHeader_flipBits sampleHeader [3, 77, 241] rfl sampleHeader_ok (by simp) (by simp)
    (by simp) (by simp)

/-! ### Bursts -/

theorem lt_of_mem_burst {start : ℕ} {pattern : BitVec 16} (hstart : start ≤ 240) :
    ∀ i ∈ burst start pattern, i < 256 := by
  intro i hi
  obtain ⟨j, hj, rfl⟩ := List.mem_map.mp hi
  have hlt := lt_of_mem_setBits hj
  show start + j < 256
  omega

/-- A burst the CRC covers whole is the pattern, clocked. -/
theorem xorSum_burst_body {start : ℕ} (pattern : BitVec 16) (hstart : start ≤ 224) :
    xorSum ((burst start pattern).map syndrome) = shifts 0x1021#16 (240 - start) pattern := by
  have hmap : (burst start pattern).map syndrome =
      (setBits pattern).map fun j => power 0x1021#16 (240 - start + (16 - 1 - j)) := by
    rw [burst, List.map_map]
    apply List.map_congr_left
    intro j hj
    have hlt := lt_of_mem_setBits hj
    have hexp : errorExponent (start + j) = 240 - start + (16 - 1 - j) := by
      rw [errorExponent, if_pos (by omega)]
      omega
    rw [Function.comp_apply, syndrome, hexp]
  rw [hmap, xorSum_window]

/-- The two bytes of a register, exchanged. -/
def swapBytes (x : BitVec 16) : BitVec 16 := (x <<< 8) ^^^ (x >>> 8)

theorem swapBytes_xor (x y : BitVec 16) : swapBytes (x ^^^ y) = swapBytes x ^^^ swapBytes y := by
  rw [swapBytes, swapBytes, swapBytes, BitVec.shiftLeft_xor_distrib,
    BitVec.ushiftRight_xor_distrib]
  ac_rfl

theorem swapBytes_swapBytes (x : BitVec 16) : swapBytes (swapBytes x) = x := by
  apply BitVec.eq_of_getLsbD_eq
  intro i hi
  have hover : x.getLsbD (8 + (8 + i)) = false := BitVec.getLsbD_of_ge x _ (by omega)
  by_cases hlow : i < 8
  · have h1 : ¬ 8 + i < 8 := by omega
    have h2 : 8 + i < 16 := by omega
    simp [swapBytes, hlow, h1, h2, hi, hover]
  · have h1 : i - 8 < 8 := by omega
    have h3 : 8 + (i - 8) = i := by omega
    have h4 : ¬ 8 + i < 16 := by omega
    simp [swapBytes, hlow, h1, h3, h4, hi, hover]

/-- What a burst that begins `c` bits into the last sixteen covered ones adds to the
remainder: the covered part is clocked, the rest is the stored field. -/
def tailSyndrome (c : ℕ) (pattern : BitVec 16) : BitVec 16 :=
  shifts 0x1021#16 16 (pattern >>> c) ^^^ swapBytes (pattern <<< (16 - c))

theorem tailSyndrome_xor (c : ℕ) (x y : BitVec 16) :
    tailSyndrome c (x ^^^ y) = tailSyndrome c x ^^^ tailSyndrome c y := by
  rw [tailSyndrome, tailSyndrome, tailSyndrome, BitVec.ushiftRight_xor_distrib,
    BitVec.shiftLeft_xor_distrib, shifts_xor, swapBytes_xor]
  ac_rfl

theorem tailSyndrome_bit {c j : ℕ} (hc : c ≤ 16) (hj : j < 16) :
    tailSyndrome c (1#16 <<< (16 - 1 - j)) = syndrome (224 + c + j) := by
  have h : ∀ c : Fin 17, ∀ j : Fin 16,
      tailSyndrome c (1#16 <<< (16 - 1 - j.val)) = syndrome (224 + c + j) := by
    decide +kernel
  exact h ⟨c, by omega⟩ ⟨j, hj⟩

theorem xorSum_burst_tail {c : ℕ} (pattern : BitVec 16) (hc : c ≤ 16) :
    xorSum ((burst (224 + c) pattern).map syndrome) = tailSyndrome c pattern := by
  have hmap : (burst (224 + c) pattern).map syndrome =
      ((setBits pattern).map fun j => 1#16 <<< (16 - 1 - j)).map (tailSyndrome c) := by
    rw [burst, List.map_map, List.map_map]
    apply List.map_congr_left
    intro j hj
    rw [Function.comp_apply, Function.comp_apply, tailSyndrome_bit hc (lt_of_mem_setBits hj)]
  rw [hmap, map_xorSum (tailSyndrome_xor c), xorSum_setBits]

/-- The bursts of at most sixteen bits that leave the remainder alone: the bits they flip. -/
def undetectedBursts : List (List ℕ) := [
  [227, 231, 232, 236, 238, 240],
  [228, 232, 233, 237, 239, 241],
  [227, 228, 231, 233, 236, 237, 238, 239, 240, 241],
  [230, 234, 235, 237, 239, 240, 243, 245],
  [232, 236, 239, 240, 242, 247],
  [237, 240, 245, 249],
  [238, 241, 246, 250],
  [239, 242, 247, 251],
  [237, 238, 240, 241, 245, 246, 249, 250],
  [238, 239, 241, 242, 246, 247, 250, 251],
  [237, 239, 240, 242, 245, 247, 249, 251],
  [237, 238, 239, 240, 241, 242, 245, 246, 247, 249, 250, 251]]

/-- A pattern is put together from the two parts it is cut into. -/
theorem join_parts {c : ℕ} (hc : c ≤ 16) (pattern : BitVec 16) :
    ((pattern >>> c) <<< c) ^^^ ((pattern <<< (16 - c)) >>> (16 - c)) = pattern := by
  apply BitVec.eq_of_getLsbD_eq
  intro i hi
  simp only [BitVec.getLsbD_xor, BitVec.getLsbD_shiftLeft, BitVec.getLsbD_ushiftRight]
  by_cases hlow : i < c
  · have h1 : 16 - c + i < 16 := by omega
    have h2 : ¬ 16 - c + i < 16 - c := by omega
    have h3 : 16 - c + i - (16 - c) = i := by omega
    simp [hlow, h1, h3]
  · have h1 : ¬ 16 - c + i < 16 := by omega
    have h2 : c + (i - c) = i := by omega
    simp [hlow, h1, h2, hi]

/-- Where the covered part `u` of a burst and the change `r` of the stored CRC belong to one
pattern, the pattern is listed. -/
def PartsListed (c : ℕ) (u r : BitVec 16) : Prop :=
  let pattern := (u <<< c) ^^^ (swapBytes r >>> (16 - c))
  pattern = 0#16 ∨ pattern >>> c ≠ u ∨ pattern <<< (16 - c) ≠ swapBytes r ∨
    burst (224 + c) pattern ∈ undetectedBursts

instance (c : ℕ) (u r : BitVec 16) : Decidable (PartsListed c u r) :=
  inferInstanceAs (Decidable (_ ∨ _ ∨ _ ∨ _))

/-- At most eight bits of the field: its change gives the covered part. -/
theorem partsListed_field : ∀ b : Fin 256, ∀ c : Fin 9,
    PartsListed c (unshifts 0x1021#16 16 (BitVec.ofNat 16 b)) (BitVec.ofNat 16 b) := by
  decide +kernel

/-- At most eight covered bits: they give the change of the field. -/
theorem partsListed_body : ∀ b : Fin 256, ∀ c : Fin 9,
    PartsListed (8 + c) (BitVec.ofNat 16 b) (shifts 0x1021#16 16 (BitVec.ofNat 16 b)) := by
  decide +kernel

/-- A register value with its high byte clear. -/
theorem eq_ofNat_of_lt {r : BitVec 16} (hr : r.toNat < 256) :
    ∃ b : Fin 256, r = BitVec.ofNat 16 b := by
  refine ⟨⟨r.toNat, hr⟩, ?_⟩
  rw [BitVec.ofNat_toNat, BitVec.setWidth_eq]

theorem toNat_swapBytes_lt {c : ℕ} (hc : c ≤ 8) (pattern : BitVec 16) :
    (swapBytes (pattern <<< (16 - c))).toNat < 256 := by
  rw [show 256 = 2 ^ 8 by norm_num, BitVec.toNat_lt_iff_getLsbD_eq_false 8 (by norm_num)]
  intro k
  have h1 : ¬ 8 + (8 + k) < 16 := by omega
  by_cases hk : k < 8
  · have h2 : k < 16 - c := by omega
    simp [swapBytes, h1, h2]
  · have h2 : ¬ 8 + k < 16 := by omega
    simp [swapBytes, h1, h2]

/-- **The bursts that reach into the `crc` field and leave the remainder alone.** -/
theorem tailSyndrome_eq_zero {c : ℕ} (hc : c ≤ 16) {pattern : BitVec 16} (hne : pattern ≠ 0#16)
    (h : tailSyndrome c pattern = 0#16) : burst (224 + c) pattern ∈ undetectedBursts := by
  rw [tailSyndrome, BitVec.xor_eq_zero_iff] at h
  have hparts : PartsListed c (pattern >>> c) (swapBytes (pattern <<< (16 - c))) := by
    rcases Nat.le_total c 8 with hle | hge
    · obtain ⟨b, hb⟩ := eq_ofNat_of_lt (toNat_swapBytes_lt hle pattern)
      have hu : pattern >>> c = unshifts 0x1021#16 16 (BitVec.ofNat 16 b) := by
        rw [← hb, ← h, unshifts_shifts (by decide)]
      rw [hu, hb]
      exact partsListed_field b ⟨c, by omega⟩
    · have hlt : (pattern >>> c).toNat < 256 := by
        rw [BitVec.toNat_ushiftRight, Nat.shiftRight_eq_div_pow]
        have hpow : 2 ^ 8 ≤ 2 ^ c := Nat.pow_le_pow_right (by norm_num) hge
        have hlt := pattern.isLt
        apply Nat.div_lt_of_lt_mul
        omega
      obtain ⟨b, hb⟩ := eq_ofNat_of_lt hlt
      have hlisted := partsListed_body b ⟨c - 8, by omega⟩
      rw [← h, hb]
      rwa [show 8 + (c - 8) = c by omega] at hlisted
  rw [PartsListed, swapBytes_swapBytes, join_parts hc] at hparts
  rcases hparts with hzero | hu | hq | hmem
  · exact absurd hzero hne
  · exact absurd rfl hu
  · exact absurd rfl hq
  · exact hmem

theorem magic_flipBits : ∀ {raw : List UInt8} {ps : List ℕ}, (∀ i ∈ ps, 16 ≤ i) →
    (ofBytes (flipBits raw ps)).magic = (ofBytes raw).magic := by
  intro raw ps
  induction ps generalizing raw with
  | nil =>
    intro _
    rfl
  | cons i ps ih =>
    intro hps
    have hi : 16 ≤ i := hps i List.mem_cons_self
    have hfield : field (flipBit raw i) 0 2 = field raw 0 2 := by
      rw [field, field, List.drop_zero, List.drop_zero, flipBit, List.take_modify,
        List.modify_eq_self]
      rw [List.length_take]
      omega
    show (ofBytes (flipBits (flipBit raw i) ps)).magic = _
    rw [ih (fun j hj => hps j (List.mem_cons_of_mem _ hj))]
    show UInt16.ofNat (field (flipBit raw i) 0 2) = UInt16.ofNat (field raw 0 2)
    rw [hfield]

theorem undetectedBursts_spec : ∀ ps ∈ undetectedBursts,
    (∀ i ∈ ps, 16 ≤ i ∧ i < 256) ∧ xorSum (ps.map syndrome) = 0#16 := by
  decide +kernel

/-- **A burst of at most sixteen bits is noticed unless it is one of the twelve listed
ones**, which all reach into the `crc` field. -/
theorem validateFrameHeader_burst (raw : List UInt8) (start : ℕ) (pattern : BitVec 16)
    (hlen : raw.length = frameHeaderSize) (hok : validateFrameHeader raw = true)
    (hstart : start ≤ 240) (hne : pattern ≠ 0#16) :
    validateFrameHeader (flipBits raw (burst start pattern)) = true ↔
      burst start pattern ∈ undetectedBursts := by
  have hlt : ∀ i ∈ burst start pattern, i < 256 := lt_of_mem_burst hstart
  obtain ⟨hmagic, hresidue⟩ := (validateFrameHeader_eq_true raw).mp hok
  rw [validateFrameHeader_eq_true, headerResidue_flipBits hlen hlt, hresidue, BitVec.zero_xor]
  constructor
  · rintro ⟨-, hzero⟩
    rcases Nat.le_total start 224 with hle | hge
    · -- the CRC covers the whole burst
      rw [xorSum_burst_body pattern hle, shifts_eq_zero (by decide)] at hzero
      exact absurd hzero hne
    · obtain ⟨c, rfl⟩ := Nat.exists_eq_add_of_le hge
      rw [xorSum_burst_tail pattern (by omega)] at hzero
      exact tailSyndrome_eq_zero (by omega) hne hzero
  · intro hmem
    obtain ⟨hbits, hzero⟩ := undetectedBursts_spec _ hmem
    exact ⟨(magic_flipBits fun i hi => (hbits i hi).1).trans hmagic, hzero⟩

/-- The burst that flips bits 237, 240, 245 and 249 of a header is not noticed. -/
theorem sampleHeader_burst : sampleHeader.length = frameHeaderSize ∧
    validateFrameHeader sampleHeader = true ∧ (0x9088#16 : BitVec 16) ≠ 0#16 ∧
    validateFrameHeader (flipBits sampleHeader (burst 237 0x9088#16)) = true := by
  decide +kernel

theorem validateFrameHeader_burst_sample :
    validateFrameHeader (flipBits sampleHeader (burst 100 0x8001#16)) = true ↔
      burst 100 0x8001#16 ∈ undetectedBursts :=
  validateFrameHeader_burst sampleHeader 100 0x8001#16 rfl sampleHeader_ok (by norm_num)
    (by simp)

end Sentry
