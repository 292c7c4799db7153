/-
The TCP receiver in Python (`py_for_pc/net_recv/tcp_video_receiver.py`).

`handle_client` looks for the magic bytes, tests the 32 bytes behind them, and puts the
packets of a frame together.  Where a header fails a test it deletes all but the first
two bytes of its buffer.

* `pyReader` — one round of the inner loop of `handle_client` is a round of a reader;
* `handleClient` — the frames it puts together;
* `PyDue`, `due_pyDue` — bytes to come that hold whole packets, and no magic bytes
  elsewhere, are read however they are cut;
* `exists_lost` — behind a header that fails, the whole rest of the stream can get lost.
-/
import Mathlib
import SentrySystem.FrameHeader
import SentrySystem.Lib.StreamReader

namespace Sentry

open FrameHeader

/-! ### The code -/

/-- The body of the inner loop of `crc16_ccitt_xmodem`. -/
def pyCrcBit (crc : ℕ) : ℕ :=
  if crc &&& 0x8000 ≠ 0 then ((crc <<< 1) ^^^ 0x1021) &&& 0xFFFF else (crc <<< 1) &&& 0xFFFF

/-- `crc16_ccitt_xmodem`. -/
def pyCrc16 (data : List UInt8) : ℕ :=
  data.foldl (fun crc byte => Nat.repeat pyCrcBit 8 (crc ^^^ (byte.toNat <<< 8))) 0x0000

/-- `MAGIC_BYTES`. -/
def magicBytes : List UInt8 := [0xCD, 0xAB]

/-- `stream_buffer.find(MAGIC_BYTES)`, `none` for -1. -/
def findMagic : List UInt8 → Option ℕ
  | [] => none
  | b :: rest =>
    if (b :: rest).take 2 = magicBytes then some 0 else (findMagic rest).map (· + 1)

/-- An entry of `frame_buffer`. -/
structure PyFrameEntry where
  type : UInt32
  pkgs : List (Option (List UInt8))

/-- The variables of `handle_client` besides `stream_buffer`, and whether an exception left
it. -/
structure PyState where
  frameBuffer : Std.ExtTreeMap ℤ PyFrameEntry
  maxFId : ℤ
  hasFoundFirstPacket : Bool
  raised : Bool

/-- The variables at the start. -/
def PyState.init : PyState where
  frameBuffer := ∅
  maxFId := -1
  hasFoundFirstPacket := false
  raised := false

/-- A frame put together: `file_type` and `full_data`. -/
structure PyFrame where
  fileType : UInt32
  fullData : List UInt8
  deriving DecidableEq, Repr

/-- `frame_buffer[f_id]['pkgs'][p_id] = payload`, where the entry exists; a list assignment
behind the end of the list raises. -/
def PyState.store (s : PyState) (fId : ℤ) (hdr : FrameHeader) (payload : List UInt8) : PyState :=
  match s.frameBuffer[fId]? with
  | none => s
  | some entry =>
    if hdr.pkgId < hdr.pkgCnt then
      if hdr.pkgId.toNat < entry.pkgs.length then
        { s with
          frameBuffer := s.frameBuffer.insert fId
            { entry with pkgs := entry.pkgs.set hdr.pkgId.toNat (some payload) } }
      else { s with raised := true }
    else s

/-- The frame of `max_f_id` is taken out when all its packets are there. -/
def PyState.takeFrame (s : PyState) : PyState × List PyFrame :=
  match s.frameBuffer[s.maxFId]? with
  | none => (s, [])
  | some currentFrame =>
    if currentFrame.pkgs.all Option.isSome then
      ({ s with frameBuffer := s.frameBuffer.erase s.maxFId },
        [⟨currentFrame.type, currentFrame.pkgs.flatMap (·.getD [])⟩])
    else (s, [])

/-- What `handle_client` does with a packet cut off its buffer, from the cold-start test on. -/
def pyPacket (s : PyState) (hdr : FrameHeader) (payload : List UInt8) : PyState × List PyFrame :=
  if s.hasFoundFirstPacket = false ∧ hdr.pkgId ≠ 0 then (s, [])
  else
    let s := { s with hasFoundFirstPacket := true }
    let fId : ℤ := hdr.frameId.toNat
    -- a frame older than the newest one is ignored
    if fId < s.maxFId then (s, [])
    else
      let s :=
        if s.maxFId < fId then
          { s with
            maxFId := fId
            frameBuffer := s.frameBuffer.insert fId
              ⟨hdr.type, List.replicate hdr.pkgCnt.toNat none⟩ }
        else s
      let s := s.store fId hdr payload
      if s.raised then (s, []) else s.takeFrame

/-- The tests of a header fail. -/
def pyRejects (raw : List UInt8) : Bool :=
  let headerData := raw.take frameHeaderSize
  let hdr := ofBytes headerData
  if pyCrc16 (headerData.take 30) ≠ hdr.crc.toNat then true
  else hdr.dataLen = 0 ∨ 65535 < hdr.dataLen.toNat ∨ hdr.pkgCnt = 0 ∨ 1000 < hdr.pkgCnt.toNat ∨
    hdr.pkgCnt ≤ hdr.pkgId

/-- A round from the header at the front of the buffer on; `none` leaves the loop. -/
def pyHeader (s : PyState) (buf : List UInt8) : Option (PyState × List PyFrame × List UInt8) :=
  if pyRejects buf = true then some (s, [], buf.take 2)
  else
    let hdr := ofBytes (buf.take frameHeaderSize)
    let dLen := hdr.dataLen.toNat
    if buf.length < frameHeaderSize + dLen then none
    else
      let accepted := pyPacket s hdr ((buf.drop frameHeaderSize).take dLen)
      some (accepted.1, accepted.2, buf.drop (frameHeaderSize + dLen))

/-- One round of the inner loop; `none` leaves it.  A round that leaves the loop with a shorter
buffer is followed by one that finds nothing to do. -/
def pyRound (s : PyState) (buf : List UInt8) : Option (PyState × List PyFrame × List UInt8) :=
  if s.raised = true then none
  else if buf.length < frameHeaderSize then none
  else if buf.take 2 = magicBytes then pyHeader s buf
  else
    match findMagic buf with
    | none => some (s, [], buf.drop (buf.length - 1))
    | some idx =>
      if (buf.drop idx).length < frameHeaderSize then some (s, [], buf.drop idx)
      else some ((pyHeader s (buf.drop idx)).getD (s, [], buf.drop idx))

/-! ### The magic bytes -/

/-- The buffer starts with the magic bytes. -/
def StartsMagic (buf : List UInt8) : Prop := buf.take 2 = magicBytes

instance (buf : List UInt8) : Decidable (StartsMagic buf) :=
  inferInstanceAs (Decidable (buf.take 2 = magicBytes))

theorem StartsMagic.length {buf : List UInt8} (h : StartsMagic buf) : 2 ≤ buf.length := by
  have hlen := congrArg List.length h
  rw [List.length_take] at hlen
  have htwo : magicBytes.length = 2 := rfl
  omega

/-- More bytes do not change what a buffer of two bytes or more starts with. -/
theorem startsMagic_append {buf : List UInt8} (h : 2 ≤ buf.length) (more : List UInt8) :
    StartsMagic (buf ++ more) ↔ StartsMagic buf := by
  rw [StartsMagic, StartsMagic, List.take_append_of_le_length h]

theorem StartsMagic.append {buf : List UInt8} (h : StartsMagic buf) (more : List UInt8) :
    StartsMagic (buf ++ more) :=
  (startsMagic_append h.length more).mpr h

theorem startsMagic_toBytes_append {hdr : FrameHeader} (hmagic : hdr.magic = frameMagic)
    (rest : List UInt8) : StartsMagic (hdr.toBytes ++ rest) := by
  refine StartsMagic.append ?_ rest
  rw [toBytes, body, hmagic]
  rfl

theorem findMagic_of_startsMagic {buf : List UInt8} (h : StartsMagic buf) :
    findMagic buf = some 0 := by
  cases buf with
  | nil => cases h
  | cons b rest => exact if_pos h

/-- `find` returns the first place where the magic bytes start. -/
theorem findMagic_eq_some {buf : List UInt8} : ∀ {idx : ℕ}, findMagic buf = some idx →
    StartsMagic (buf.drop idx) ∧ ∀ k < idx, ¬ StartsMagic (buf.drop k) := by
  induction buf with
  | nil =>
    intro idx h
    cases h
  | cons b rest ih =>
    intro idx h
    rw [findMagic] at h
    split_ifs at h with hmagic
    · rw [Option.some_inj] at h
      subst h
      exact ⟨hmagic, by simp⟩
    · obtain ⟨idx', hidx, rfl⟩ := Option.map_eq_some_iff.mp h
      obtain ⟨hstart, hbefore⟩ := ih hidx
      refine ⟨hstart, ?_⟩
      intro k hk
      cases k with
      | zero => exact hmagic
      | succ k => exact hbefore k (Nat.lt_of_succ_lt_succ hk)

theorem findMagic_eq_none {buf : List UInt8} : findMagic buf = none →
    ∀ k, ¬ StartsMagic (buf.drop k) := by
  induction buf with
  | nil =>
    intro _ k hstart
    rw [List.drop_nil] at hstart
    cases hstart
  | cons b rest ih =>
    intro h k
    rw [findMagic] at h
    split_ifs at h with hmagic
    cases k with
    | zero => exact hmagic
    | succ k => exact ih (Option.map_eq_none_iff.mp h) k

/-- Where the magic bytes start first, `find` finds them. -/
theorem findMagic_of_first {buf : List UInt8} : ∀ {idx : ℕ}, StartsMagic (buf.drop idx) →
    (∀ k < idx, ¬ StartsMagic (buf.drop k)) → findMagic buf = some idx := by
  intro idx hstart hbefore
  cases hfind : findMagic buf with
  | none => exact absurd hstart (findMagic_eq_none hfind idx)
  | some idx' =>
    obtain ⟨hstart', hbefore'⟩ := findMagic_eq_some hfind
    rcases Nat.lt_trichotomy idx idx' with hlt | rfl | hgt
    · exact absurd hstart (hbefore' idx hlt)
    · rfl
    · exact absurd hstart' (hbefore idx' hgt)

/-! ### The loop is a reader -/

theorem pyHeader_progress {s s' : PyState} {buf rest : List UInt8} {os : List PyFrame}
    (hlen : frameHeaderSize ≤ buf.length) (h : pyHeader s buf = some (s', os, rest)) :
    rest.length < buf.length := by
  simp only [pyHeader] at h
  have hsize : frameHeaderSize = 32 := rfl
  split_ifs at h with hbad hhalf
  · simp only [Option.some.injEq, Prod.mk.injEq] at h
    rw [← h.2.2, List.length_take]
    omega
  · simp only [Option.some.injEq, Prod.mk.injEq] at h
    rw [← h.2.2, List.length_drop]
    omega

/-- What a round can do: skip bytes in front of the first magic bytes, and go on from the header
there. -/
theorem pyRound_cases {s s' : PyState} {buf rest : List UInt8} {os : List PyFrame}
    (h : pyRound s buf = some (s', os, rest)) :
    ∃ n, n + 1 ≤ buf.length ∧ (∀ k < n, ¬ StartsMagic (buf.drop k)) ∧
      (0 < n ∧ s' = s ∧ os = [] ∧ rest = buf.drop n ∨
        StartsMagic (buf.drop n) ∧ frameHeaderSize ≤ (buf.drop n).length ∧
          pyHeader s (buf.drop n) = some (s', os, rest)) := by
  rw [pyRound] at h
  have hsize : frameHeaderSize = 32 := rfl
  split_ifs at h with hraised hlen hmagic
  · refine ⟨0, by omega, by simp, .inr ⟨hmagic, ?_, h⟩⟩
    exact Nat.not_lt.mp hlen
  · split at h
    · -- no magic bytes: the last byte stays
      rename_i hnone
      rw [Option.some_inj, Prod.mk.injEq, Prod.mk.injEq] at h
      exact ⟨buf.length - 1, by omega, fun k _ => findMagic_eq_none hnone k,
        .inl ⟨by omega, h.1.symm, h.2.1.symm, h.2.2.symm⟩⟩
    · rename_i idx hidx
      obtain ⟨hstart, hbefore⟩ := findMagic_eq_some hidx
      have hin := hstart.length
      rw [List.length_drop] at hin
      -- the magic bytes are not at the front
      have hpos : 0 < idx := by
        refine Nat.pos_of_ne_zero ?_
        rintro rfl
        exact hmagic hstart
      refine ⟨idx, by omega, hbefore, ?_⟩
      split_ifs at h with hshort
      · rw [Option.some_inj, Prod.mk.injEq, Prod.mk.injEq] at h
        exact .inl ⟨hpos, h.1.symm, h.2.1.symm, h.2.2.symm⟩
      · cases hheader : pyHeader s (buf.drop idx) with
        | none =>
          rw [hheader, Option.getD_none, Option.some_inj, Prod.mk.injEq, Prod.mk.injEq] at h
          exact .inl ⟨hpos, h.1.symm, h.2.1.symm, h.2.2.symm⟩
        | some r =>
          rw [hheader, Option.getD_some] at h
          exact .inr ⟨hstart, Nat.not_lt.mp hshort, h⟩

theorem pyRound_progress {s s' : PyState} {buf rest : List UInt8} {os : List PyFrame}
    (h : pyRound s buf = some (s', os, rest)) : rest.length < buf.length := by
  obtain ⟨n, hn, -, ⟨hpos, -, -, rfl⟩ | ⟨-, hlen, hheader⟩⟩ := pyRound_cases h
  · rw [List.length_drop]
    omega
  · have hrest := pyHeader_progress hlen hheader
    rw [List.length_drop] at hrest
    omega

/-- The inner loop of `handle_client`, round by round. -/
def pyReader : StreamReader PyState UInt8 PyFrame where
  step := pyRound
  progress := pyRound_progress

theorem step_of_short_py {s : PyState} {buf : List UInt8} (hlen : buf.length < frameHeaderSize) :
    pyReader.step s buf = none := by
  show pyRound s buf = none
  rw [pyRound]
  split_ifs <;> rfl

/-- `handle_client` on the results of `recv`, of which an empty one ends it: the frames it puts
together. -/
def handleClient (chunks : List (List UInt8)) : List PyFrame :=
  (pyReader.receive .init [] (chunks.takeWhile (· ≠ []))).2.1

/-- The ways `recv(65536)` can cut a stream. -/
def Chunking (stream : List UInt8) (chunks : List (List UInt8)) : Prop :=
  chunks.flatten = stream ∧ ∀ chunk ∈ chunks, chunk ≠ [] ∧ chunk.length ≤ 65536

/-- `handle_client` puts these frames together, however the stream is cut. -/
def Reassembles (stream : List UInt8) (frames : List PyFrame) : Prop :=
  ∀ chunks, Chunking stream chunks → handleClient chunks = frames

theorem handleClient_of_chunking {stream : List UInt8} {chunks : List (List UInt8)}
    (h : Chunking stream chunks) : handleClient chunks = (pyReader.receive .init [] chunks).2.1 := by
  have hall : chunks.takeWhile (· ≠ []) = chunks := by
    rw [List.takeWhile_eq_self_iff]
    intro chunk hchunk
    simpa using (h.2 chunk hchunk).1
  rw [handleClient, hall]

/-! ### The tests of a header -/

theorem pyCrcBit_toNat (crc : UInt16) : pyCrcBit crc.toNat = (crc16XmodemBit crc).toNat := by
  have hand : (crc.toNat &&& 0x8000 ≠ 0) ↔ (crc &&& 0x8000 != 0) = true := by
    rw [bne_iff_ne, Ne, Ne, ← UInt16.toNat_inj, UInt16.toNat_and]
    rfl
  have hshift : (crc <<< 1).toNat = (crc.toNat <<< 1) % 2 ^ 16 := UInt16.toNat_shiftLeft crc 1
  have hmask : ∀ n : ℕ, n &&& 0xFFFF = n % 2 ^ 16 := fun n => Nat.and_two_pow_sub_one_eq_mod n 16
  rw [pyCrcBit, crc16XmodemBit]
  simp only [hand, hmask]
  split_ifs with hbit
  · rw [UInt16.toNat_xor, hshift, Nat.xor_mod_two_pow]
    rfl
  · exact hshift.symm

theorem repeat_pyCrcBit (n : ℕ) (crc : UInt16) :
    Nat.repeat pyCrcBit n crc.toNat = (Nat.repeat crc16XmodemBit n crc).toNat := by
  induction n with
  | zero => rfl
  | succ n ih => rw [Nat.repeat, Nat.repeat, ih, pyCrcBit_toNat]

/-- The CRC of the Python host is that of the Qt host. -/
theorem pyCrc16_eq (data : List UInt8) : pyCrc16 data = (crc16Xmodem data).toNat := by
  have hfold : ∀ crc : UInt16,
      data.foldl (fun crc byte => Nat.repeat pyCrcBit 8 (crc ^^^ (byte.toNat <<< 8))) crc.toNat =
        (data.foldl crc16XmodemByte crc).toNat := by
    induction data with
    | nil =>
      intro crc
      rfl
    | cons b data ih =>
      intro crc
      have hbyte : crc.toNat ^^^ (b.toNat <<< 8) = (crc ^^^ (b.toUInt16 <<< 8)).toNat := by
        have hb := b.toNat_lt
        have hsmall : b.toNat <<< 8 < 2 ^ 16 := by
          rw [Nat.shiftLeft_eq]
          omega
        rw [UInt16.toNat_xor, UInt16.toNat_shiftLeft]
        show _ = crc.toNat ^^^ (b.toNat <<< 8 % 2 ^ 16)
        rw [Nat.mod_eq_of_lt hsmall]
      rw [List.foldl_cons, List.foldl_cons, hbyte, repeat_pyCrcBit, ih]
      rfl
  exact hfold 0

theorem pyRejects_take (raw : List UInt8) :
    pyRejects (raw.take frameHeaderSize) = pyRejects raw := by
  have htake : (raw.take frameHeaderSize).take frameHeaderSize = raw.take frameHeaderSize := by
    rw [List.take_take, Nat.min_self]
  rw [pyRejects, pyRejects, htake]

/-- Only the first 32 bytes are tested. -/
theorem pyRejects_append {raw : List UInt8} (h : frameHeaderSize ≤ raw.length)
    (more : List UInt8) : pyRejects (raw ++ more) = pyRejects raw := by
  rw [← pyRejects_take, List.take_append_of_le_length h, pyRejects_take]

/-- A header behind the magic bytes that the Qt host would not accept fails. -/
theorem pyRejects_of_not_valid {raw : List UInt8} (hmagic : StartsMagic raw)
    (h : validateFrameHeader raw = false) : pyRejects raw = true := by
  have hfield : (ofBytes raw).magic = frameMagic := by
    have htake : (raw.drop 0).take 2 = magicBytes := hmagic
    show UInt16.ofNat (field raw 0 2) = frameMagic
    rw [field, htake]
    rfl
  rw [validateFrameHeader, hfield, if_neg (by simp)] at h
  simp only [pyRejects, List.take_take]
  rw [if_pos]
  intro hcrc
  rw [pyCrc16_eq, UInt16.toNat_inj, ofBytes_take] at hcrc
  have htake : raw.take (min 30 frameHeaderSize) = raw.take 30 := rfl
  rw [← htake, hcrc, beq_self_eq_true] at h
  exact absurd h.symm Bool.false_ne_true

/-- The limits `handle_client` sets to a header. -/
structure Plausible (hdr : FrameHeader) : Prop where
  dataLen : hdr.dataLen ≠ 0
  pkgCnt_le : hdr.pkgCnt.toNat ≤ 1000
  pkgId_lt : hdr.pkgId < hdr.pkgCnt

/-- The checksum of a header the device sealed. -/
theorem pyCrc16_body {hdr : FrameHeader} (hs : hdr.Sealed) : pyCrc16 hdr.body = hdr.crc.toNat := by
  rw [pyCrc16_eq, ← crc16Ccitt_eq_crc16Xmodem, hs.2]

/-- What the device seals passes the tests if it keeps to the limits. -/
theorem pyRejects_toBytes {hdr : FrameHeader} (hs : hdr.Sealed) (rest : List UInt8) :
    pyRejects (hdr.toBytes ++ rest) = false ↔ Plausible hdr := by
  have htake : (hdr.toBytes ++ rest).take frameHeaderSize = hdr.toBytes :=
    List.take_left' (length_toBytes hdr)
  have hread : ofBytes hdr.toBytes = hdr := by
    have happend := ofBytes_toBytes_append hdr []
    rwa [List.append_nil] at happend
  have hbody : hdr.toBytes.take 30 = hdr.body := by
    have happend := take_toBytes_append hdr []
    rwa [List.append_nil] at happend
  have hcrc : ¬ pyCrc16 hdr.body ≠ hdr.crc.toNat := not_not.mpr (pyCrc16_body hs)
  have hsmall := hdr.dataLen.toNat_lt
  simp only [pyRejects, htake, hread, hbody, if_neg hcrc, decide_eq_false_iff_not, not_or]
  constructor
  · rintro ⟨hdata, -, -, hcnt, hid⟩
    exact ⟨hdata, Nat.not_lt.mp hcnt, UInt16.not_le.mp hid⟩
  · intro h
    refine ⟨h.dataLen, by omega, ?_, Nat.not_lt.mpr h.pkgCnt_le, UInt16.not_le.mpr h.pkgId_lt⟩
    intro hzero
    have hlt := UInt16.lt_iff_toNat_lt.mp h.pkgId_lt
    rw [hzero, UInt16.toNat_zero] at hlt
    omega

/-! ### Bytes that are read however they are cut -/

/-- From a state, bytes to come that are whole plausible packets, with bytes between them where
no magic bytes start, and the frames they complete. -/
inductive PyDue : PyState → List UInt8 → List PyFrame → Prop
  | nil {s : PyState} : s.raised = false → PyDue s [] []
  | skip {s : PyState} {b : UInt8} {u : List UInt8} {os : List PyFrame} :
      ¬ StartsMagic (b :: u) → PyDue s u os → PyDue s (b :: u) os
  | packet {s s' : PyState} {hdr : FrameHeader} {payload u : List UInt8}
      {os os' : List PyFrame} :
      s.raised = false → hdr.Sealed → Plausible hdr → payload.length = hdr.dataLen.toNat →
      pyPacket s hdr payload = (s', os) → PyDue s' u os' →
      PyDue s (hdr.toBytes ++ (payload ++ u)) (os ++ os')

namespace PyDue

variable {s : PyState} {buf rest u : List UInt8} {os : List PyFrame}

theorem not_raised (h : PyDue s u os) : s.raised = false := by
  induction h with
  | nil h => exact h
  | skip _ _ ih => exact ih
  | packet h => exact h

/-- A byte where no magic bytes start is skipped. -/
theorem tail {b : UInt8} (h : PyDue s (b :: u) os) (hmagic : ¬ StartsMagic (b :: u)) :
    PyDue s u os := by
  generalize hv : b :: u = v at h hmagic
  cases h with
  | nil => cases hv
  | skip _ h =>
    obtain ⟨rfl, rfl⟩ := List.cons.inj hv
    exact h
  | packet _ hs => exact absurd (startsMagic_toBytes_append hs.1 _) hmagic

theorem drop (h : PyDue s u os) {n : ℕ} (hn : n ≤ u.length)
    (hmagic : ∀ k < n, ¬ StartsMagic (u.drop k)) : PyDue s (u.drop n) os := by
  induction n generalizing u with
  | zero => exact h
  | succ n ih =>
    cases u with
    | nil => exact absurd hn (Nat.not_succ_le_zero n)
    | cons b u =>
      refine ih (h.tail (hmagic 0 (Nat.succ_pos n))) (Nat.le_of_succ_le_succ hn) ?_
      intro k hk
      exact hmagic (k + 1) (Nat.succ_lt_succ hk)

/-- Less than a header completes nothing. -/
theorem of_short (h : PyDue s u os) (hlen : u.length < frameHeaderSize) : os = [] := by
  induction h with
  | nil => rfl
  | skip _ _ ih => exact ih (lt_trans (Nat.lt_succ_self _) hlen)
  | packet =>
    rw [List.length_append, length_toBytes] at hlen
    omega

/-- At the magic bytes lies a packet, and a round from its header on takes it off the buffer as
soon as it is there. -/
theorem header (h : PyDue s (buf ++ rest) os) (hmagic : StartsMagic buf)
    (hlen : frameHeaderSize ≤ buf.length) :
    ∃ n s₁ os₁ os₂, n ≤ (buf ++ rest).length ∧ os = os₁ ++ os₂ ∧
      PyDue s₁ ((buf ++ rest).drop n) os₂ ∧
      pyHeader s buf = if buf.length < n then none else some (s₁, os₁, buf.drop n) := by
  generalize hv : buf ++ rest = v at h
  cases h with
  | nil =>
    have hnil := (List.append_eq_nil_iff.mp hv).1
    rw [hnil] at hmagic
    cases hmagic
  | skip hno =>
    rw [← hv] at hno
    exact absurd (hmagic.append rest) hno
  | @packet _ s' hdr payload u os₁ os₂ _ hs hlimits hpayload hpacket hu =>
    have hreject : pyRejects buf = false := by
      rw [← pyRejects_append hlen rest, hv]
      exact (pyRejects_toBytes hs _).mpr hlimits
    have hread : ofBytes (buf.take frameHeaderSize) = hdr := by
      have htake : (buf ++ rest).take frameHeaderSize = buf.take frameHeaderSize :=
        List.take_append_of_le_length hlen
      rw [← htake, hv, ofBytes_take, ofBytes_toBytes_append]
    have hsize : (hdr.toBytes ++ payload).length = frameHeaderSize + hdr.dataLen.toNat := by
      rw [List.length_append, length_toBytes, hpayload]
    have hassoc : hdr.toBytes ++ (payload ++ u) = hdr.toBytes ++ payload ++ u :=
      (List.append_assoc _ _ _).symm
    refine ⟨frameHeaderSize + hdr.dataLen.toNat, s', os₁, os₂, ?_, rfl, ?_, ?_⟩
    · rw [hassoc, List.length_append, hsize]
      exact Nat.le_add_right _ _
    · rw [hassoc, List.drop_left' hsize]
      exact hu
    · simp only [pyHeader, hreject, hread]
      rw [if_neg Bool.false_ne_true]
      split_ifs with hhalf
      · rfl
      · -- the payload lies whole in the buffer
        have hbytes : (buf.drop frameHeaderSize).take hdr.dataLen.toNat = payload := by
          have htake : ((buf ++ rest).drop frameHeaderSize).take hdr.dataLen.toNat = payload := by
            rw [hv, List.drop_left' (length_toBytes hdr), List.take_left' hpayload]
          rw [List.drop_append_of_le_length hlen, List.take_append_of_le_length (by
            rw [List.length_drop]
            omega)] at htake
          exact htake
        rw [hbytes, hpacket]

/-- A round from the header on keeps what is due. -/
theorem pyHeader_step (h : PyDue s (buf ++ rest) os) (hmagic : StartsMagic buf)
    (hlen : frameHeaderSize ≤ buf.length) {s' : PyState} {os' : List PyFrame} {buf' : List UInt8}
    (hround : pyHeader s buf = some (s', os', buf')) :
    ∃ os'', os = os' ++ os'' ∧ PyDue s' (buf' ++ rest) os'' := by
  obtain ⟨n, s₁, os₁, os₂, -, hos, hdue, hheader⟩ := h.header hmagic hlen
  rw [hround] at hheader
  split_ifs at hheader with hhalf
  rw [Option.some_inj, Prod.mk.injEq, Prod.mk.injEq] at hheader
  obtain ⟨rfl, rfl, rfl⟩ := hheader
  refine ⟨os₂, hos, ?_⟩
  rwa [List.drop_append_of_le_length (Nat.not_lt.mp hhalf)] at hdue

end PyDue

/-- The start of a buffer where the magic bytes do not start before `n`. -/
theorem PyDue.drop_append {s : PyState} {buf rest : List UInt8} {os : List PyFrame}
    (h : PyDue s (buf ++ rest) os) {n : ℕ} (hn : n + 1 ≤ buf.length)
    (hmagic : ∀ k < n, ¬ StartsMagic (buf.drop k)) : PyDue s (buf.drop n ++ rest) os := by
  rw [← List.drop_append_of_le_length (Nat.le_of_succ_le hn)]
  refine h.drop ?_ ?_
  · rw [List.length_append]
    omega
  · intro k hk hstart
    rw [List.drop_append_of_le_length (by omega)] at hstart
    refine hmagic k hk ((startsMagic_append ?_ rest).mp hstart)
    rw [List.length_drop]
    omega

/-- **Every round keeps what is due.** -/
theorem due_pyDue : pyReader.Due PyDue := by
  constructor
  · intro s s' buf buf' rest os os' h hround
    obtain ⟨n, hn, hbefore, hround⟩ := pyRound_cases hround
    have hskip := h.drop_append hn hbefore
    rcases hround with ⟨-, rfl, rfl, rfl⟩ | ⟨hmagic, hlen, hheader⟩
    · exact ⟨os, rfl, hskip⟩
    · exact hskip.pyHeader_step hmagic hlen hheader
  · intro s buf os h hround
    have hround : pyRound s buf = none := hround
    rw [pyRound, if_neg (by rw [h.not_raised]; exact Bool.false_ne_true)] at hround
    split_ifs at hround with hlen hmagic
    · exact h.of_short hlen
    · -- the packet at the front is there
      rw [← List.append_nil buf] at h
      obtain ⟨n, s₁, os₁, os₂, hn, -, -, hheader⟩ := h.header hmagic (Nat.not_lt.mp hlen)
      rw [List.append_nil] at hn
      rw [hround, if_neg (Nat.not_lt.mpr hn)] at hheader
      cases hheader
    · split at hround
      · cases hround
      · split_ifs at hround

/-- **What is due is put together**, however the stream is cut. -/
theorem PyDue.reassembles {stream : List UInt8} {frames : List PyFrame}
    (h : PyDue .init stream frames) : Reassembles stream frames := by
  intro chunks hchunks
  rw [handleClient_of_chunking hchunks]
  refine due_pyDue.receive_eq chunks ?_ ?_
  · rw [List.nil_append, hchunks.1]
    exact h
  · exact step_of_short_py (by decide)

/-! ### A stream that gets lost -/

/-- Without magic bytes nothing but the end of the buffer stays. -/
theorem drain_of_garbage {s : PyState} (hraised : s.raised = false) {buf : List UInt8}
    (h : findMagic buf = none) :
    ∃ skipped left, buf = skipped ++ left ∧ pyReader.drain s buf = (s, [], left) := by
  have hsize : frameHeaderSize = 32 := rfl
  by_cases hlen : buf.length < frameHeaderSize
  · exact ⟨[], buf, rfl, StreamReader.drain_of_none (step_of_short_py hlen)⟩
  · have hno : ¬ buf.take 2 = magicBytes := fun hmagic => by
      rw [findMagic_of_startsMagic hmagic] at h
      cases h
    have hround : pyReader.step s buf = some (s, [], buf.drop (buf.length - 1)) := by
      show pyRound s buf = _
      rw [pyRound, if_neg (by rw [hraised]; exact Bool.false_ne_true), if_neg hlen, if_neg hno, h]
    refine ⟨buf.take (buf.length - 1), buf.drop (buf.length - 1),
      (List.take_append_drop _ _).symm, StreamReader.drain_of_last hround ?_⟩
    refine step_of_short_py ?_
    rw [List.length_drop]
    omega

/-- However bytes without magic bytes are cut, nothing but their end stays. -/
theorem receive_garbage {s : PyState} (hraised : s.raised = false) (chunks : List (List UInt8)) :
    ∀ buf : List UInt8, (∀ k, ¬ StartsMagic ((buf ++ chunks.flatten).drop k)) →
      ∃ skipped left, buf ++ chunks.flatten = skipped ++ left ∧
        pyReader.receive s buf chunks = (s, [], left) := by
  induction chunks with
  | nil =>
    intro buf _
    exact ⟨[], buf, by simp, rfl⟩
  | cons chunk chunks ih =>
    intro buf h
    rw [List.flatten_cons, ← List.append_assoc] at h ⊢
    have hnone : findMagic (buf ++ chunk) = none := by
      cases hfind : findMagic (buf ++ chunk) with
      | none => rfl
      | some idx =>
        have hstart := (findMagic_eq_some hfind).1
        have hin := hstart.length
        rw [List.length_drop] at hin
        refine absurd ?_ (h idx)
        rw [List.drop_append_of_le_length (by omega)]
        exact hstart.append _
    obtain ⟨skipped, left, hsplit, hdrain⟩ := drain_of_garbage hraised hnone
    have hrest : ∀ k, ¬ StartsMagic ((left ++ chunks.flatten).drop k) := by
      intro k hstart
      refine h (skipped.length + k) ?_
      rw [hsplit, List.append_assoc, List.drop_length_add_append]
      exact hstart
    obtain ⟨skipped', left', hsplit', hreceive⟩ := ih left hrest
    refine ⟨skipped ++ skipped', left', ?_, ?_⟩
    · rw [hsplit, List.append_assoc, hsplit', List.append_assoc]
    · rw [StreamReader.receive, hdrain]
      simp only [hreceive, List.nil_append]

/-- Of a buffer in which the first magic bytes start a header that fails, they alone stay. -/
theorem drain_of_rejected {s : PyState} (hraised : s.raised = false) (pre v : List UInt8)
    (hmagic : StartsMagic v) (hbefore : ∀ k < pre.length, ¬ StartsMagic ((pre ++ v).drop k))
    (hlen : frameHeaderSize ≤ v.length) (hreject : pyRejects v = true) :
    pyReader.drain s (pre ++ v) = (s, [], magicBytes) := by
  have hsize : frameHeaderSize = 32 := rfl
  have htake : v.take 2 = magicBytes := hmagic
  have hheader : pyHeader s v = some (s, [], magicBytes) := by
    rw [pyHeader, if_pos hreject, htake]
  have hround : pyReader.step s (pre ++ v) = some (s, [], magicBytes) := by
    show pyRound s (pre ++ v) = _
    rw [pyRound, if_neg (by rw [hraised]; exact Bool.false_ne_true),
      if_neg (by rw [List.length_append]; omega)]
    cases pre with
    | nil =>
      rw [List.nil_append, if_pos htake]
      exact hheader
    | cons b pre =>
      have hfind : findMagic (b :: pre ++ v) = some (b :: pre).length := by
        refine findMagic_of_first ?_ hbefore
        rw [List.drop_left]
        exact hmagic
      have hno : ¬ (b :: pre ++ v).take 2 = magicBytes := hbefore 0 (Nat.succ_pos _)
      rw [if_neg hno, hfind]
      simp only [List.drop_left]
      rw [if_neg (Nat.not_lt.mpr hlen), hheader, Option.getD_some]
  exact StreamReader.drain_of_last hround (step_of_short_py (by decide))

/-- The packet id of a header is the packet count of the one read two bytes further. -/
theorem pkgId_eq_pkgCnt (u : List UInt8) (m : ℕ) :
    (ofBytes (magicBytes ++ u.drop m)).pkgId = (ofBytes (magicBytes ++ u.drop (m + 2))).pkgCnt := by
  show UInt16.ofNat (field _ 10 2) = UInt16.ofNat (field _ 8 2)
  have hskip : ∀ j k, (magicBytes ++ u.drop j).drop (magicBytes.length + k) = u.drop (j + k) := by
    intro j k
    rw [List.drop_length_add_append, List.drop_drop]
  have hid : (magicBytes ++ u.drop m).drop 10 = u.drop (m + 8) := hskip m 8
  have hcnt : (magicBytes ++ u.drop (m + 2)).drop 8 = u.drop (m + 8) := hskip (m + 2) 6
  rw [field, field, hid, hcnt]

theorem plausible_of_not_rejects {raw : List UInt8} (h : pyRejects raw = false) :
    (ofBytes raw).pkgCnt.toNat ≤ 1000 ∧ (ofBytes raw).pkgId.toNat < (ofBytes raw).pkgCnt.toNat := by
  simp only [pyRejects, ofBytes_take] at h
  split_ifs at h with hcrc
  rw [decide_eq_false_iff_not] at h
  simp only [not_or] at h
  obtain ⟨-, -, -, hcnt, hid⟩ := h
  exact ⟨Nat.not_lt.mp hcnt, UInt16.lt_iff_toNat_lt.mp (UInt16.not_le.mp hid)⟩

/-- The magic bytes followed by what lies at some place of a long stream fail the tests: two
bytes further on the packet count would be smaller each time. -/
theorem exists_rejected {u : List UInt8} : ∃ m, 60000 ≤ m ∧ m ≤ 62000 ∧
    pyRejects (magicBytes ++ u.drop m) = true := by
  by_contra hno
  have hall : ∀ m, 60000 ≤ m → m ≤ 62000 → pyRejects (magicBytes ++ u.drop m) = false := by
    intro m hlow hhigh
    refine Bool.eq_false_iff.mpr ?_
    intro hreject
    exact hno ⟨m, hlow, hhigh, hreject⟩
  have hcnt : ∀ i ≤ 1000,
      (ofBytes (magicBytes ++ u.drop (60000 + 2 * i))).pkgCnt.toNat + i ≤ 1000 := by
    intro i
    induction i with
    | zero =>
      intro _
      exact (plausible_of_not_rejects (hall 60000 le_rfl (by omega))).1
    | succ i ih =>
      intro hi
      have hlt := (plausible_of_not_rejects (hall (60000 + 2 * i) (by omega) (by omega))).2
      rw [pkgId_eq_pkgCnt] at hlt
      have hle := ih (by omega)
      have hnext : 60000 + 2 * (i + 1) = 60000 + 2 * i + 2 := by omega
      rw [hnext]
      omega
  have hlast := (plausible_of_not_rejects (hall (60000 + 2 * 1000) (by omega) (by omega))).2
  have hzero := hcnt 1000 le_rfl
  omega

/-- A first part of a stream, of one `recv`, behind which the magic bytes and the rest fail the
tests. -/
theorem exists_cut (u : List UInt8) : ∃ m ≤ u.length, m ≤ 62000 ∧ (m = u.length ∨ 60000 ≤ m) ∧
    (frameHeaderSize ≤ (magicBytes ++ u.drop m).length →
      pyRejects (magicBytes ++ u.drop m) = true) := by
  by_cases hlen : u.length ≤ 62000
  · refine ⟨u.length, le_rfl, hlen, .inl rfl, ?_⟩
    intro hshort
    rw [List.drop_length, List.append_nil] at hshort
    exact absurd hshort (by decide)
  · obtain ⟨m, hlow, hhigh, hreject⟩ := @exists_rejected u
    exact ⟨m, by omega, hhigh, .inr hlow, fun _ => hreject⟩

/-- An empty stream is not received at all. -/
theorem Chunking.eq_nil {chunks : List (List UInt8)} (h : Chunking [] chunks) : chunks = [] := by
  refine List.eq_nil_iff_forall_not_mem.mpr ?_
  intro chunk hin
  exact (h.2 chunk hin).1 (List.flatten_eq_nil_iff.mp h.1 chunk hin)

/-- **Behind the magic bytes of a header that fails a whole stream can get lost.** -/
theorem exists_lost {s : PyState} (hraised : s.raised = false) : ∀ {u : List UInt8},
    (frameHeaderSize ≤ (magicBytes ++ u).length → pyRejects (magicBytes ++ u) = true) →
    ∃ chunks, Chunking u chunks ∧ (pyReader.receive s magicBytes chunks).2.1 = [] := by
  intro u
  induction hn : u.length using Nat.strong_induction_on generalizing u with
  | _ n ih =>
    intro hreject
    subst hn
    by_cases hempty : u = []
    · subst hempty
      exact ⟨[], ⟨rfl, by simp⟩, rfl⟩
    obtain ⟨m, hm, hmax, hlong, hnext⟩ := exists_cut u
    have hpos := List.length_pos_iff.mpr hempty
    have hchunk : (u.take m).length = m := List.length_take_of_le hm
    obtain ⟨chunks, hchunks, hlost⟩ :=
      ih (u.drop m).length (by rw [List.length_drop]; omega) rfl hnext
    have hdrain : ∃ buf, pyReader.drain s (magicBytes ++ u.take m) = (s, [], buf) ∧
        (buf = magicBytes ∨ u.drop m = []) := by
      by_cases hshort : (magicBytes ++ u.take m).length < frameHeaderSize
      · refine ⟨_, StreamReader.drain_of_none (step_of_short_py hshort), .inr ?_⟩
        rw [List.length_append, hchunk] at hshort
        have hsize : frameHeaderSize = 32 := rfl
        exact List.drop_of_length_le (by omega)
      · have hall : magicBytes ++ u = magicBytes ++ u.take m ++ u.drop m := by
          rw [List.append_assoc, List.take_append_drop]
        have hbad : pyRejects (magicBytes ++ u.take m) = true := by
          rw [← pyRejects_append (Nat.not_lt.mp hshort) (u.drop m), ← hall]
          refine hreject ?_
          rw [hall, List.length_append]
          omega
        have hstart : StartsMagic (magicBytes ++ u.take m) :=
          StartsMagic.append (show StartsMagic magicBytes from rfl) _
        exact ⟨_, drain_of_rejected hraised [] _ hstart (by simp) (Nat.not_lt.mp hshort) hbad,
          .inl rfl⟩
    obtain ⟨buf, hdrain, hbuf⟩ := hdrain
    refine ⟨u.take m :: chunks, ⟨?_, ?_⟩, ?_⟩
    · rw [List.flatten_cons, hchunks.1, List.take_append_drop]
    · intro chunk hin
      rcases List.mem_cons.mp hin with rfl | hin
      · exact ⟨List.ne_nil_of_length_pos (by omega), by omega⟩
      · exact hchunks.2 chunk hin
    · rw [StreamReader.receive, hdrain]
      rcases hbuf with rfl | hend
      · exact hlost
      · rw [hend] at hchunks
        rw [hchunks.eq_nil]
        rfl

/-- Each byte on its own is a way to cut a stream. -/
theorem chunking_bytes (stream : List UInt8) : Chunking stream (stream.map fun b => [b]) := by
  refine ⟨by rw [← List.flatMap_def, List.flatMap_singleton'], ?_⟩
  intro chunk hchunk
  obtain ⟨b, -, rfl⟩ := List.mem_map.mp hchunk
  exact ⟨by simp, by simp⟩

theorem Chunking.append {stream stream' : List UInt8} {chunks chunks' : List (List UInt8)}
    (h : Chunking stream chunks) (h' : Chunking stream' chunks') :
    Chunking (stream ++ stream') (chunks ++ chunks') := by
  refine ⟨by rw [List.flatten_append, h.1, h'.1], ?_⟩
  intro chunk hchunk
  rcases List.mem_append.mp hchunk with hchunk | hchunk
  · exact h.2 chunk hchunk
  · exact h'.2 chunk hchunk

theorem Chunking.singleton {stream : List UInt8} (hpos : 0 < stream.length)
    (hmax : stream.length ≤ 65536) : Chunking stream [stream] := by
  refine ⟨List.flatten_singleton, ?_⟩
  intro chunk hchunk
  rw [List.mem_singleton.mp hchunk]
  exact ⟨List.ne_nil_of_length_pos hpos, hmax⟩

/-- If the first magic bytes of a stream start a header that fails, all of it can get lost. -/
theorem exists_lost_header {s : PyState} (hraised : s.raised = false) (pre v : List UInt8)
    (hmagic : StartsMagic v) (hbefore : ∀ k < pre.length, ¬ StartsMagic ((pre ++ v).drop k))
    (hlen : frameHeaderSize ≤ v.length) (hreject : pyRejects v = true) :
    ∃ chunks, Chunking (pre ++ v) chunks ∧ (pyReader.receive s [] chunks).2.1 = [] := by
  have hsize : frameHeaderSize = 32 := rfl
  -- the bytes in front of them, one by one
  have hnone : ∀ k, ¬ StartsMagic (([] ++ (pre.map fun b => [b]).flatten).drop k) := by
    intro k hstart
    rw [List.nil_append, (chunking_bytes pre).1] at hstart
    have hin := hstart.length
    rw [List.length_drop] at hin
    refine hbefore k (by omega) ?_
    rw [List.drop_append_of_le_length (by omega)]
    exact hstart.append v
  obtain ⟨skipped, left, hsplit, hreceive⟩ := receive_garbage hraised _ [] hnone
  rw [List.nil_append, (chunking_bytes pre).1] at hsplit
  -- the header, with as much as may get lost behind it
  obtain ⟨m, hm, hmax, hlong, hnext⟩ := exists_cut (v.drop 2)
  rw [List.length_drop] at hm hlong
  have hv : v = magicBytes ++ v.drop 2 := by
    have htake : v.take 2 = magicBytes := hmagic
    rw [← htake, List.take_append_drop]
  have hchunk : (v.take (m + 2)).length = m + 2 := List.length_take_of_le (by omega)
  have hdrop : (v.drop 2).drop m = v.drop (m + 2) := by
    rw [List.drop_drop, Nat.add_comm]
  have hfirst : StartsMagic (v.take (m + 2)) := by
    rw [StartsMagic, List.take_take, Nat.min_eq_left (by omega)]
    exact hmagic
  have hhead : frameHeaderSize ≤ (v.take (m + 2)).length := by omega
  have hbad : pyRejects (v.take (m + 2)) = true := by
    rw [← pyRejects_append hhead (v.drop (m + 2)), List.take_append_drop]
    exact hreject
  have hdrain : pyReader.drain s (left ++ v.take (m + 2)) = (s, [], magicBytes) := by
    refine drain_of_rejected hraised _ _ hfirst ?_ hhead hbad
    intro k hk hstart
    refine hbefore (skipped.length + k) ?_ ?_
    · rw [hsplit, List.length_append]
      omega
    · rw [hsplit, List.append_assoc, List.drop_length_add_append]
      have happend := hstart.append (v.drop (m + 2))
      rwa [← List.drop_append_of_le_length (by
        rw [List.length_append]
        omega), List.append_assoc, List.take_append_drop] at happend
  rw [hdrop] at hnext
  obtain ⟨chunks, hchunks, hlost⟩ := exists_lost hraised hnext
  have hcut : Chunking (v.take (m + 2)) [v.take (m + 2)] := .singleton (by omega) (by omega)
  have hall := (chunking_bytes pre).append (hcut.append hchunks)
  rw [List.take_append_drop] at hall
  refine ⟨_, hall, ?_⟩
  rw [StreamReader.receive_append, hreceive]
  show [] ++ (pyReader.receive s left (v.take (m + 2) :: chunks)).2.1 = []
  rw [List.nil_append, StreamReader.receive, hdrain]
  exact hlost

end Sentry
