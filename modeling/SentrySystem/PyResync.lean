/-
Frames of the device at the Python receiver, behind garbage
(`src/net/tcp_send.c`, `py_for_pc/net_recv/tcp_video_receiver.py`).

* `Holding`, `pyPacket_next` — a frame being collected, and one packet more of it;
* `Packets`, `packets_frame` — the packets of a frame put it together;
* `pyResync_iff` — behind garbage the frames are put together however the stream is cut,
  exactly if the magic bytes do not start in the garbage.
-/
import SentrySystem.PyReceiver
import SentrySystem.TcpUpload

namespace Sentry

open FrameHeader

/-! ### What the device sends -/

/-- Calls of `Tcp_Send_Frame` over one connection, with any frame ids; `none` when one fails. -/
def sendFrames (sock : Socket) : List (UInt32 × UploadItem) → Option Socket
  | [] => some sock
  | frame :: frames =>
    let r := tcpSendFrame (frame.2.call frame.1) sock
    if r.1 = true then sendFrames r.2 frames else none

/-- The bytes of frames in a row. -/
def framesBytes (frames : List (UInt32 × UploadItem)) : List UInt8 :=
  frames.flatMap fun frame => frame.2.frame frame.1

/-- A frame of at least one packet and at most 1000. -/
def UploadItem.Fits (item : UploadItem) : Prop := item.data ≠ [] ∧ item.pkgs ≤ 1000

/-- An item as `handle_client` puts it together. -/
def UploadItem.pyFrame (item : UploadItem) : PyFrame := ⟨item.type.code, item.data⟩

theorem UploadItem.Fits.length_le {item : UploadItem} (h : item.Fits) :
    item.data.length ≤ 65535 * 1400 := by
  have hpkgs := h.2
  rw [UploadItem.pkgs] at hpkgs
  omega

theorem sendFrames_out {frames : List (UInt32 × UploadItem)}
    (hframes : ∀ frame ∈ frames, frame.2.Fits) : ∀ {sock sock' : Socket},
      sendFrames sock frames = some sock' → sock'.out = sock.out ++ framesBytes frames := by
  induction frames with
  | nil =>
    intro sock sock' h
    rw [sendFrames, Option.some_inj] at h
    rw [← h, framesBytes, List.flatMap_nil, List.append_nil]
  | cons frame frames ih =>
    intro sock sock' h
    have hframe := hframes frame List.mem_cons_self
    rw [sendFrames] at h
    rcases hr : tcpSendFrame (frame.2.call frame.1) sock with ⟨ok, mid⟩
    rw [hr] at h
    split_ifs at h with hok
    have hok : ok = true := hok
    rw [ih (fun f hf => hframes f (List.mem_cons_of_mem _ hf)) h,
      UploadItem.sendFrame_out hframe.1 hframe.length_le (hok ▸ hr), framesBytes, framesBytes,
      List.flatMap_cons, List.append_assoc]

/-! ### A frame being collected -/

/-- The list of a frame's packets when the first `k` of them are there. -/
def chunksBelow (data : List UInt8) (n k : ℕ) : List (Option (List UInt8)) :=
  (List.range n).map fun i => if i < k then some (chunk data i) else none

theorem length_chunksBelow (data : List UInt8) (n k : ℕ) : (chunksBelow data n k).length = n := by
  rw [chunksBelow, List.length_map, List.length_range]

theorem chunksBelow_zero (data : List UInt8) (n : ℕ) :
    chunksBelow data n 0 = List.replicate n none := by
  rw [chunksBelow]
  simp

theorem set_chunksBelow (data : List UInt8) (n k : ℕ) :
    (chunksBelow data n k).set k (some (chunk data k)) = chunksBelow data n (k + 1) := by
  refine List.ext_getElem ?_ ?_
  · rw [List.length_set, length_chunksBelow, length_chunksBelow]
  · intro i hi hi'
    simp only [chunksBelow, List.getElem_set, List.getElem_map, List.getElem_range]
    by_cases hki : k = i
    · rw [if_pos hki, if_pos (by omega), hki]
    · rw [if_neg hki]
      by_cases hbelow : i < k
      · rw [if_pos hbelow, if_pos (by omega)]
      · rw [if_neg hbelow, if_neg (by omega)]

/-- The frame is whole when the last packet is there. -/
theorem all_chunksBelow (data : List UInt8) {n k : ℕ} (hk : k ≤ n) :
    (chunksBelow data n k).all Option.isSome = true ↔ k = n := by
  rw [List.all_eq_true]
  constructor
  · intro hall
    by_contra hne
    have hin : (none : Option (List UInt8)) ∈ chunksBelow data n k :=
      List.mem_map.mpr ⟨k, List.mem_range.mpr (by omega), if_neg (lt_irrefl k)⟩
    exact absurd (hall none hin) (by simp)
  · rintro rfl p hp
    obtain ⟨i, hi, rfl⟩ := List.mem_map.mp hp
    rw [if_pos (List.mem_range.mp hi)]
    rfl

theorem flatMap_chunksBelow {data : List UInt8} {n : ℕ} (h : data.length ≤ n * 1400) :
    (chunksBelow data n n).flatMap (·.getD []) = data := by
  have hchunk : ∀ i ∈ List.range n,
      (if i < n then some (chunk data i) else none).getD [] = chunk data i := by
    intro i hi
    rw [if_pos (List.mem_range.mp hi), Option.getD_some]
  rw [chunksBelow, List.flatMap_map, List.flatMap_congr hchunk, flatMap_chunk h]

/-- No frame is being collected, and no frame from `fId` on was seen. -/
structure Before (fId : ℤ) (s : PyState) : Prop where
  raised : s.raised = false
  max : s.maxFId < fId

/-- The newest frame is `fId`, collected as far as `pkgs`. -/
structure Holding (fId : ℤ) (type : UInt32) (pkgs : List (Option (List UInt8))) (s : PyState) :
    Prop where
  raised : s.raised = false
  found : s.hasFoundFirstPacket = true
  max : s.maxFId = fId
  entry : s.frameBuffer[fId]? = some ⟨type, pkgs⟩

/-- The newest frame is `fId`, and it was put together. -/
structure Taken (fId : ℤ) (s : PyState) : Prop where
  raised : s.raised = false
  max : s.maxFId = fId
  entry : s.frameBuffer[fId]? = none

/-- What the packet `k` of a frame finds: the packets below it, and for the first one no frame
as new as its own. -/
def Awaits (item : UploadItem) (frameId : UInt32) (k : ℕ) (s : PyState) : Prop :=
  k = 0 ∧ Before frameId.toNat s ∨
    Holding frameId.toNat item.type.code (chunksBelow item.data item.pkgs k) s

/-- What the packet `k` of a frame leaves: the frame put together with the last one. -/
def Collected (item : UploadItem) (frameId : UInt32) (k : ℕ) (r : PyState × List PyFrame) : Prop :=
  if k + 1 = item.pkgs then Taken frameId.toNat r.1 ∧ r.2 = [item.pyFrame]
  else Awaits item frameId (k + 1) r.1 ∧ r.2 = []

section

variable {item : UploadItem} {frameId : UInt32} {s : PyState} {k : ℕ}

theorem UploadItem.Fits.toNat_pkgId (hitem : item.Fits) (frameId : UInt32) (hk : k < item.pkgs) :
    (item.hdr frameId k).pkgId.toNat = k := by
  have hmax := hitem.2
  have hsmall : k < UInt16.size := by
    have hsize : UInt16.size = 65536 := rfl
    omega
  exact UInt16.toNat_ofNat_of_lt' hsmall

theorem UploadItem.Fits.pkgId_lt (hitem : item.Fits) (frameId : UInt32) (hk : k < item.pkgs) :
    (item.hdr frameId k).pkgId < (item.hdr frameId k).pkgCnt := by
  rw [UInt16.lt_iff_toNat_lt, hitem.toNat_pkgId frameId hk, toNat_pkgCnt hitem.length_le]
  exact hk

/-- A packet is stored in the frame being collected. -/
theorem store_holding (hitem : item.Fits) (hk : k < item.pkgs)
    (h : Holding frameId.toNat item.type.code (chunksBelow item.data item.pkgs k) s) :
    Holding frameId.toNat item.type.code (chunksBelow item.data item.pkgs (k + 1))
      (s.store frameId.toNat (item.hdr frameId k) (chunk item.data k)) := by
  rw [PyState.store, h.entry]
  simp only [hitem.toNat_pkgId frameId hk, length_chunksBelow, set_chunksBelow]
  rw [if_pos (hitem.pkgId_lt frameId hk), if_pos hk]
  exact ⟨h.raised, h.found, h.max, Std.ExtTreeMap.getElem?_insert_self⟩

/-- The frame being collected is taken out when its last packet is there. -/
theorem takeFrame_holding (hk : k < item.pkgs)
    (h : Holding frameId.toNat item.type.code (chunksBelow item.data item.pkgs (k + 1)) s) :
    Collected item frameId k s.takeFrame := by
  rw [PyState.takeFrame, h.max, h.entry, Collected]
  by_cases hend : k + 1 = item.pkgs
  · have hall := (all_chunksBelow item.data (by omega : k + 1 ≤ item.pkgs)).mpr hend
    simp only [hall, if_true, if_pos hend]
    rw [hend, flatMap_chunksBelow item.length_le]
    exact ⟨⟨h.raised, rfl, Std.ExtTreeMap.getElem?_erase_self⟩, rfl⟩
  · have hall : ¬ (chunksBelow item.data item.pkgs (k + 1)).all Option.isSome = true :=
      fun hall => hend ((all_chunksBelow item.data (by omega)).mp hall)
    simp only [if_neg hall, if_neg hend]
    exact ⟨.inr h, trivial⟩

/-- **One packet of a frame**: the last one puts it together. -/
theorem pyPacket_next (hitem : item.Fits) (hk : k < item.pkgs) (h : Awaits item frameId k s) :
    Collected item frameId k (pyPacket s (item.hdr frameId k) (chunk item.data k)) := by
  -- a packet of the frame being collected
  have hnext : ∀ s₁, Holding frameId.toNat item.type.code (chunksBelow item.data item.pkgs k) s₁ →
      Collected item frameId k
        (if (s₁.store frameId.toNat (item.hdr frameId k) (chunk item.data k)).raised = true then
          (s₁.store frameId.toNat (item.hdr frameId k) (chunk item.data k), [])
        else (s₁.store frameId.toNat (item.hdr frameId k) (chunk item.data k)).takeFrame) := by
    intro s₁ hs₁
    have hstored := store_holding hitem hk hs₁
    rw [hstored.raised, if_neg Bool.false_ne_true]
    exact takeFrame_holding hk hstored
  rcases h with ⟨rfl, hbefore⟩ | hholding
  · -- the first one starts the frame
    have hfirst : ¬ (s.hasFoundFirstPacket = false ∧ (item.hdr frameId 0).pkgId ≠ 0) :=
      fun h => h.2 rfl
    have hnew : s.maxFId < ((item.hdr frameId 0).frameId.toNat : ℤ) := hbefore.max
    rw [pyPacket, if_neg hfirst]
    simp only [if_neg (not_lt.mpr hnew.le), if_pos hnew]
    refine hnext _ ⟨hbefore.raised, rfl, rfl, ?_⟩
    show (s.frameBuffer.insert (frameId.toNat : ℤ) _)[(frameId.toNat : ℤ)]? = _
    rw [Std.ExtTreeMap.getElem?_insert_self, chunksBelow_zero, toNat_pkgCnt hitem.length_le]
    rfl
  · have hfirst : ¬ (s.hasFoundFirstPacket = false ∧ (item.hdr frameId k).pkgId ≠ 0) := by
      rintro ⟨hfound, -⟩
      rw [hholding.found] at hfound
      cases hfound
    have hsame : ((item.hdr frameId k).frameId.toNat : ℤ) = s.maxFId := hholding.max.symm
    rw [pyPacket, if_neg hfirst]
    simp only [if_neg (not_lt.mpr hsame.ge), if_neg (not_lt.mpr hsame.le)]
    exact hnext _ ⟨hholding.raised, rfl, hholding.max, hholding.entry⟩

end

/-! ### Packets in a row -/

/-- Whole packets in a row, each short enough for one `recv`: the state they leave, and the
frames they complete. -/
inductive Packets : PyState → List UInt8 → PyState → List PyFrame → Prop
  | nil {s : PyState} : Packets s [] s []
  | cons {s s' s'' : PyState} {hdr : FrameHeader} {payload u : List UInt8} {os os' : List PyFrame} :
      s.raised = false → hdr.Sealed → Plausible hdr → payload.length = hdr.dataLen.toNat →
      payload.length ≤ 1400 → pyPacket s hdr payload = (s', os) → Packets s' u s'' os' →
      Packets s (hdr.toBytes ++ (payload ++ u)) s'' (os ++ os')

namespace Packets

variable {s s' s'' : PyState} {u v : List UInt8} {os os' : List PyFrame}

theorem append (h : Packets s u s' os) (h' : Packets s' v s'' os') :
    Packets s (u ++ v) s'' (os ++ os') := by
  induction h with
  | nil => exact h'
  | cons hraised hs hlimits hlen hmax hpacket _ ih =>
    rw [List.append_assoc, List.append_assoc, List.append_assoc]
    exact .cons hraised hs hlimits hlen hmax hpacket (ih h')

/-- Packets in front of bytes that are read however they are cut. -/
theorem due (h : Packets s u s' os) (h' : PyDue s' v os') : PyDue s (u ++ v) (os ++ os') := by
  induction h with
  | nil => exact h'
  | cons hraised hs hlimits hlen _ hpacket _ ih =>
    rw [List.append_assoc, List.append_assoc, List.append_assoc]
    exact .packet hraised hs hlimits hlen hpacket (ih h')

end Packets

/-- A packet alone in the buffer is taken off it. -/
theorem drain_packet {s s' : PyState} {hdr : FrameHeader} {payload : List UInt8}
    {os : List PyFrame} (hraised : s.raised = false) (hs : hdr.Sealed) (hlimits : Plausible hdr)
    (hlen : payload.length = hdr.dataLen.toNat) (hpacket : pyPacket s hdr payload = (s', os)) :
    pyReader.drain s (hdr.toBytes ++ payload) = (s', os, []) := by
  have hsize : (hdr.toBytes ++ payload).length = frameHeaderSize + hdr.dataLen.toNat := by
    rw [List.length_append, length_toBytes, hlen]
  have hread : ofBytes ((hdr.toBytes ++ payload).take frameHeaderSize) = hdr := by
    rw [ofBytes_take, ofBytes_toBytes_append]
  have hheader : pyHeader s (hdr.toBytes ++ payload) = some (s', os, []) := by
    rw [pyHeader, (pyRejects_toBytes hs payload).mpr hlimits, if_neg Bool.false_ne_true]
    simp only [hread]
    rw [if_neg (by omega), List.drop_left' (length_toBytes hdr), List.take_of_length_le hlen.le,
      hpacket, List.drop_of_length_le hsize.le]
  refine StreamReader.drain_of_last ?_ (step_of_short_py (by decide))
  have hmagic : (hdr.toBytes ++ payload).take 2 = magicBytes :=
    startsMagic_toBytes_append hs.1 payload
  show pyRound s (hdr.toBytes ++ payload) = _
  rw [pyRound, if_neg (by rw [hraised]; exact Bool.false_ne_true), if_neg (by omega),
    if_pos hmagic]
  exact hheader

/-- When each `recv` returns one packet, nothing stays in the buffer. -/
theorem Packets.receive {s s' : PyState} {u : List UInt8} {os : List PyFrame}
    (h : Packets s u s' os) :
    ∃ chunks, Chunking u chunks ∧ pyReader.receive s [] chunks = (s', os, []) := by
  induction h with
  | nil => exact ⟨[], ⟨rfl, by simp⟩, rfl⟩
  | @cons s s₁ s' hdr payload u os os' hraised hs hlimits hlen hmax hpacket _ ih =>
    obtain ⟨chunks, hchunks, hreceive⟩ := ih
    have hsize : (hdr.toBytes ++ payload).length = 32 + payload.length := by
      rw [List.length_append, length_toBytes, frameHeaderSize]
    have hcut : Chunking (hdr.toBytes ++ payload) [hdr.toBytes ++ payload] :=
      .singleton (by omega) (by omega)
    refine ⟨(hdr.toBytes ++ payload) :: chunks, ?_, ?_⟩
    · rw [← List.append_assoc]
      exact hcut.append hchunks
    · rw [StreamReader.receive, List.nil_append,
        drain_packet hraised hs hlimits hlen hpacket, hreceive]

theorem Awaits.raised {item : UploadItem} {frameId : UInt32} {k : ℕ} {s : PyState}
    (h : Awaits item frameId k s) : s.raised = false := by
  rcases h with ⟨-, h⟩ | h
  · exact h.raised
  · exact h.raised

theorem plausible_hdr {item : UploadItem} (hitem : item.Fits) (frameId : UInt32) {k : ℕ}
    (hk : k < item.pkgs) : Plausible (item.hdr frameId k) := by
  obtain ⟨-, hlen⟩ := packetBytes_item hitem.length_le frameId hk
  refine ⟨?_, ?_, hitem.pkgId_lt frameId hk⟩
  · -- no chunk of a frame is empty
    intro hzero
    rw [hzero, UInt16.toNat_zero, chunk, List.length_take, List.length_drop] at hlen
    rw [UploadItem.pkgs] at hk
    omega
  · rw [toNat_pkgCnt hitem.length_le]
    exact hitem.2

theorem packets_next {item : UploadItem} (hitem : item.Fits) {frameId : UInt32} {k : ℕ}
    (hk : k < item.pkgs) {s : PyState} (h : Awaits item frameId k s) :
    Packets s (packetBytes (item.call frameId) (UInt16.ofNat k))
      (pyPacket s (item.hdr frameId k) (chunk item.data k)).1
      (pyPacket s (item.hdr frameId k) (chunk item.data k)).2 := by
  obtain ⟨hbytes, hlen⟩ := packetBytes_item hitem.length_le frameId hk
  have hsealed : (item.hdr frameId k).Sealed := packetHeader_sealed _ _ _ _ _
  have hchunk : (chunk item.data k).length ≤ 1400 := List.length_take_le 1400 _
  have hpacket := Packets.cons h.raised hsealed (plausible_hdr hitem frameId hk) hlen hchunk rfl .nil
  rwa [List.append_nil, List.append_nil, ← hbytes] at hpacket

/-- The first packets of a frame complete nothing. -/
theorem packets_first {item : UploadItem} (hitem : item.Fits) {frameId : UInt32} {s : PyState}
    (h : Before frameId.toNat s) {k : ℕ} (hk : k < item.pkgs) :
    ∃ s', Awaits item frameId k s' ∧ Packets s
      ((List.range k).flatMap fun i => packetBytes (item.call frameId) (UInt16.ofNat i)) s' [] := by
  induction k with
  | zero => exact ⟨s, .inl ⟨rfl, h⟩, .nil⟩
  | succ k ih =>
    obtain ⟨s', hawaits, hpackets⟩ := ih (by omega)
    have hnext := pyPacket_next hitem (by omega : k < item.pkgs) hawaits
    rw [Collected, if_neg (by omega)] at hnext
    have hpacket := packets_next hitem (by omega : k < item.pkgs) hawaits
    rw [hnext.2] at hpacket
    refine ⟨_, hnext.1, ?_⟩
    rw [List.range_succ, List.flatMap_append, List.flatMap_singleton]
    exact hpackets.append hpacket

/-- **The packets of a frame** put it together. -/
theorem packets_frame {item : UploadItem} (hitem : item.Fits) {frameId : UInt32} {s : PyState}
    (h : Before frameId.toNat s) :
    ∃ s', Taken frameId.toNat s' ∧ Packets s (item.frame frameId) s' [item.pyFrame] := by
  obtain ⟨k, hk⟩ : ∃ k, item.pkgs = k + 1 :=
    Nat.exists_eq_succ_of_ne_zero (UploadItem.pkgs_pos hitem.1).ne'
  obtain ⟨s', hawaits, hpackets⟩ := packets_first hitem h (by omega : k < item.pkgs)
  have hnext := pyPacket_next hitem (by omega : k < item.pkgs) hawaits
  rw [Collected, if_pos hk.symm] at hnext
  have hpacket := packets_next hitem (by omega : k < item.pkgs) hawaits
  rw [hnext.2] at hpacket
  refine ⟨_, hnext.1, ?_⟩
  rw [UploadItem.frame, hk, List.range_succ, List.flatMap_append, List.flatMap_singleton]
  exact hpackets.append hpacket

theorem before_init (frameId : UInt32) : Before frameId.toNat PyState.init := by
  refine ⟨rfl, ?_⟩
  show (-1 : ℤ) < _
  omega

/-- No frame from the next id on was seen. -/
theorem Taken.before {frameId next : UInt32} {s : PyState} (h : Taken frameId.toNat s)
    (hlt : frameId < next) : Before next.toNat s := by
  have hlt : frameId.toNat < next.toNat := UInt32.lt_iff_toNat_lt.mp hlt
  refine ⟨h.raised, ?_⟩
  rw [h.max]
  exact_mod_cast hlt

/-- **Frames with increasing ids** are put together one after the other. -/
theorem pyDue_frames {frames : List (UInt32 × UploadItem)} :
    ∀ {s : PyState}, s.raised = false → (∀ frame ∈ frames, frame.2.Fits) →
      (∀ frame ∈ frames, Before frame.1.toNat s) → frames.Pairwise (·.1 < ·.1) →
      PyDue s (framesBytes frames) (frames.map (·.2.pyFrame)) := by
  induction frames with
  | nil =>
    intro s hraised _ _ _
    exact .nil hraised
  | cons frame frames ih =>
    intro s _ hfits hbefore hids
    obtain ⟨hlt, hids⟩ := List.pairwise_cons.mp hids
    obtain ⟨s', htaken, hpackets⟩ :=
      packets_frame (hfits frame List.mem_cons_self) (hbefore frame List.mem_cons_self)
    have hrest := ih htaken.raised (fun f hf => hfits f (List.mem_cons_of_mem _ hf))
      (fun f hf => htaken.before (hlt f hf)) hids
    exact hpackets.due hrest

/-! ### Garbage in front of the frames -/

/-- The magic bytes start at no offset in `g`. -/
def NoMagicIn (g s : List UInt8) : Prop := ∀ k < g.length, ¬ StartsMagic ((g ++ s).drop k)

instance (g s : List UInt8) : Decidable (NoMagicIn g s) :=
  inferInstanceAs (Decidable (∀ k < g.length, ¬ StartsMagic ((g ++ s).drop k)))

instance (g s : List UInt8) : Decidable (NoHeaderIn g s) :=
  inferInstanceAs (Decidable (∀ k < g.length, k + frameHeaderSize ≤ (g ++ s).length →
    validateFrameHeader (((g ++ s).drop k).take frameHeaderSize) = false))

theorem PyDue.garbage {s : PyState} {u : List UInt8} {os : List PyFrame} (h : PyDue s u os)
    {g : List UInt8} (hg : NoMagicIn g u) : PyDue s (g ++ u) os := by
  induction g with
  | nil => exact h
  | cons b g ih =>
    refine .skip (hg 0 (Nat.succ_pos _)) (ih ?_)
    intro k hk
    exact hg (k + 1) (Nat.succ_lt_succ hk)

/-- A frame starts with the header of its first packet. -/
theorem frame_header {item : UploadItem} (hne : item.data ≠ [])
    (hmax : item.data.length ≤ 65535 * 1400) (frameId : UInt32) :
    ∃ rest, item.frame frameId = (item.hdr frameId 0).toBytes ++ rest := by
  have hpos := UploadItem.pkgs_pos hne
  obtain ⟨k, hk⟩ : ∃ k, item.pkgs = k + 1 := Nat.exists_eq_succ_of_ne_zero hpos.ne'
  obtain ⟨hbytes, -⟩ := packetBytes_item hmax frameId hpos
  rw [UploadItem.frame, hk, List.range_succ_eq_map, List.flatMap_cons, hbytes, List.append_assoc]
  exact ⟨_, rfl⟩

/-- Magic bytes in the garbage can lose the stream behind them. -/
theorem noMagicIn_of_reassembles {g s : List UInt8} (hlen : frameHeaderSize ≤ s.length)
    (hg : NoHeaderIn g s) {frames : List PyFrame} (hne : frames ≠ [])
    (h : Reassembles (g ++ s) frames) : NoMagicIn g s := by
  by_contra hno
  rw [NoMagicIn] at hno
  push Not at hno
  -- the first of them
  have hfirst := Nat.find_spec hno
  have hmin : ∀ k < Nat.find hno, ¬ (k < g.length ∧ StartsMagic ((g ++ s).drop k)) :=
    fun k hk => Nat.find_min hno hk
  generalize Nat.find hno = n at hfirst hmin
  obtain ⟨hn, hmagic⟩ := hfirst
  have hin : n + frameHeaderSize ≤ (g ++ s).length := by
    rw [List.length_append]
    omega
  have hbad := hg n hn hin
  rw [validateFrameHeader_take] at hbad
  have hpre : ((g ++ s).take n).length = n := List.length_take_of_le (by omega)
  obtain ⟨chunks, hchunks, hlost⟩ := @exists_lost_header .init rfl ((g ++ s).take n) _ hmagic
    (by
      intro k hk
      rw [hpre] at hk
      rw [List.take_append_drop]
      exact fun hstart => hmin k hk ⟨by omega, hstart⟩)
    (by
      rw [List.length_drop]
      omega)
    (pyRejects_of_not_valid hmagic hbad)
  rw [List.take_append_drop] at hchunks
  have hall := h chunks hchunks
  rw [handleClient_of_chunking hchunks, hlost] at hall
  exact hne hall.symm

/-- **Resynchronisation of the Python receiver**: behind garbage in which no header with a
matching CRC starts, the frames are put together however the stream is cut, exactly if the
magic bytes do not start in the garbage either. -/
theorem pyResync_iff (g : List UInt8) (frames : List (UInt32 × UploadItem)) (room : ℕ)
    (sock' : Socket) (hframes : ∀ frame ∈ frames, frame.2.Fits)
    (hids : frames.Pairwise (·.1 < ·.1)) (hsend : sendFrames ⟨[], room⟩ frames = some sock')
    (hg : NoHeaderIn g sock'.out) :
    (NoMagicIn g sock'.out → Reassembles (g ++ sock'.out) (frames.map (·.2.pyFrame))) ∧
    (frames ≠ [] →
      (Reassembles (g ++ sock'.out) (frames.map (·.2.pyFrame)) ↔ NoMagicIn g sock'.out)) := by
  have hout : sock'.out = framesBytes frames := sendFrames_out hframes hsend
  have henough : NoMagicIn g sock'.out →
      Reassembles (g ++ sock'.out) (frames.map (·.2.pyFrame)) := by
    intro hmagic
    rw [hout] at hmagic ⊢
    have hdue := pyDue_frames rfl hframes (fun frame _ => before_init frame.1) hids
    exact (hdue.garbage hmagic).reassembles
  refine ⟨henough, fun hne => ⟨fun hall => ?_, henough⟩⟩
  refine noMagicIn_of_reassembles ?_ hg (fun hnil => hne (List.map_eq_nil_iff.mp hnil)) hall
  cases frames with
  | nil => exact absurd rfl hne
  | cons frame frames =>
    have hfits := hframes frame List.mem_cons_self
    obtain ⟨rest, hrest⟩ := frame_header hfits.1 hfits.length_le frame.1
    rw [hout, framesBytes, List.flatMap_cons, hrest, List.append_assoc, List.length_append,
      length_toBytes]
    exact Nat.le_add_right _ _

/-- Three bytes of garbage in front of a reply and a picture. -/
theorem pyResync_iff_three :
    ∃ sock', sendFrames ⟨[], 100⟩ [(3, ⟨.json, [1, 2, 3], 7, fun _ => true⟩),
        (9, ⟨.image, [4], 8, fun _ => true⟩)] = some sock' ∧
      Reassembles ([0xAB, 0x00, 0xCD] ++ sock'.out) [⟨5, [1, 2, 3]⟩, ⟨1, [4]⟩] := by
  have hrun : (sendFrames ⟨[], 100⟩ [(3, ⟨.json, [1, 2, 3], 7, fun _ => true⟩),
      (9, ⟨.image, [4], 8, fun _ => true⟩)]).map (fun sock =>
        decide (NoHeaderIn [0xAB, 0x00, 0xCD] sock.out ∧ NoMagicIn [0xAB, 0x00, 0xCD] sock.out)) =
      some true := by decide +kernel
  obtain ⟨sock', hsend, hgarbage⟩ := Option.map_eq_some_iff.mp hrun
  obtain ⟨hheader, hmagic⟩ := of_decide_eq_true hgarbage
  refine ⟨sock', hsend, (pyResync_iff _ _ _ _ ?_ (by decide) hsend hheader).1 hmagic⟩
  simp [UploadItem.Fits, UploadItem.pkgs]

/-- The magic bytes in front of a frame, read together with it, lose it. -/
theorem pyResync_magic :
    ∃ sock', sendFrames ⟨[], 50⟩ [(0, ⟨.json, [7], 0, fun _ => true⟩)] = some sock' ∧
      UploadItem.Fits ⟨.json, [7], 0, fun _ => true⟩ ∧
      NoHeaderIn magicBytes sock'.out ∧
      ¬ Reassembles (magicBytes ++ sock'.out) [⟨5, [7]⟩] := by
  have hrun : (sendFrames ⟨[], 50⟩ [(0, ⟨.json, [7], 0, fun _ => true⟩)]).map (fun sock =>
      decide (NoHeaderIn magicBytes sock.out ∧ sock.out.length = 33 ∧
        pyRejects (magicBytes ++ sock.out) = true)) = some true := by decide +kernel
  obtain ⟨sock', hsend, hbytes⟩ := Option.map_eq_some_iff.mp hrun
  obtain ⟨hheader, hlen, hreject⟩ := of_decide_eq_true hbytes
  have hsize : (magicBytes ++ sock'.out).length = 35 := by
    rw [List.length_append, hlen]
    rfl
  refine ⟨sock', hsend, ⟨by simp, by decide⟩, hheader, ?_⟩
  intro hall
  have hchunks : Chunking (magicBytes ++ sock'.out) [magicBytes ++ sock'.out] :=
    .singleton (by omega) (by omega)
  have hstart : StartsMagic (magicBytes ++ sock'.out) :=
    StartsMagic.append (show StartsMagic magicBytes from rfl) _
  have hhead : frameHeaderSize ≤ (magicBytes ++ sock'.out).length := by
    rw [hsize]
    decide
  have hlost : pyReader.drain .init (magicBytes ++ sock'.out) = (.init, [], magicBytes) :=
    drain_of_rejected rfl [] _ hstart (by simp) hhead hreject
  have hone := hall _ hchunks
  rw [handleClient_of_chunking hchunks, StreamReader.receive, List.nil_append, hlost] at hone
  cases hone

end Sentry
