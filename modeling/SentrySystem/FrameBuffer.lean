/-
The frame buffers of the two receivers of the Qt host
(`QT/Desktop/src/net/Tcp_ControlWorker.cpp`, `QT/Desktop/src/net/UdpReceiverWorker.cpp`).

`processBuffer` and `onReadyRead` treat a packet with a valid header alike: packets of a
frame below the last complete one are ignored, old frames are dropped from `m_frameBuffer`
when more than three are pending, and a frame is taken for complete when as many packet ids
are held of it as the last packet's `pkg_cnt` says.

* `assemble` — what both of them do with a packet, up to the call of `dispatchFrame`;
* `receive_packets`, `udpOnReadyRead_packets` — both receivers run `assemble`, packet after
  packet;
* `keepsLive_iff` — the frames `cleanExpiredFrames` drops are old ones, unless the frame id is
  below 3;
* `frameBuffer_bounded` — how many frames are pending when no packet lags far behind;
* `onlyComplete` — what is dispatched is a whole frame, if the packet ids counted are those of
  the frame.
-/
import SentrySystem.Lib.Transition
import SentrySystem.UdpReceiver

namespace Sentry

open FrameHeader MapSize

/-! ### One packet -/

/-- The frame is older than the last complete one. -/
def Reassembly.filters (r : Reassembly) (frameId : UInt32) : Prop :=
  0 < r.mLastCompleteFrameId ∧ frameId < r.mLastCompleteFrameId

instance (r : Reassembly) (frameId : UInt32) : Decidable (r.filters frameId) :=
  inferInstanceAs (Decidable (_ ∧ _))

/-- The packets held of a packet's frame when it is stored. -/
def heldPackets (r : Reassembly) (p : SealedPacket) : FramePackets :=
  ((cleanExpiredFrames r.mFrameBuffer p.hdr.frameId).getD p.hdr.frameId ∅).insert p.hdr.pkgId
    p.payload

/-- What both receivers do with a packet, and the data `dispatchFrame` is called with, if it
is. -/
def assemble (r : Reassembly) (p : SealedPacket) : Reassembly × Option (List UInt8) :=
  if r.filters p.hdr.frameId then (r, none)
  else
    let buffer := cleanExpiredFrames r.mFrameBuffer p.hdr.frameId
    if p.hdr.pkgCnt ≤ 1 then (⟨buffer, p.hdr.frameId⟩, some p.payload)
    else
      let buffer := buffer.insert p.hdr.frameId (heldPackets r p)
      if (heldPackets r p).size = p.hdr.pkgCnt.toNat then
        (⟨buffer.erase p.hdr.frameId, p.hdr.frameId⟩,
          some (complete (heldPackets r p) p.hdr.pkgCnt.toNat))
      else (⟨buffer, r.mLastCompleteFrameId⟩, none)

/-- Everything a packet can do. -/
inductive Assembled (r : Reassembly) (p : SealedPacket) : Reassembly × Option (List UInt8) → Prop
  | filtered (hold : r.filters p.hdr.frameId) : Assembled r p (r, none)
  | single (hnew : ¬ r.filters p.hdr.frameId) (hone : p.hdr.pkgCnt ≤ 1) :
      Assembled r p (⟨cleanExpiredFrames r.mFrameBuffer p.hdr.frameId, p.hdr.frameId⟩,
        some p.payload)
  | full (hnew : ¬ r.filters p.hdr.frameId) (hmany : ¬ p.hdr.pkgCnt ≤ 1)
      (hsize : (heldPackets r p).size = p.hdr.pkgCnt.toNat) :
      Assembled r p (⟨((cleanExpiredFrames r.mFrameBuffer p.hdr.frameId).insert p.hdr.frameId
          (heldPackets r p)).erase p.hdr.frameId, p.hdr.frameId⟩,
        some (complete (heldPackets r p) p.hdr.pkgCnt.toNat))
  | stored (hnew : ¬ r.filters p.hdr.frameId) (hmany : ¬ p.hdr.pkgCnt ≤ 1)
      (hsize : (heldPackets r p).size ≠ p.hdr.pkgCnt.toNat) :
      Assembled r p (⟨(cleanExpiredFrames r.mFrameBuffer p.hdr.frameId).insert p.hdr.frameId
          (heldPackets r p), r.mLastCompleteFrameId⟩, none)

theorem assemble_cases (r : Reassembly) (p : SealedPacket) : Assembled r p (assemble r p) := by
  by_cases hold : r.filters p.hdr.frameId
  · rw [assemble, if_pos hold]
    exact .filtered hold
  rw [assemble, if_neg hold]
  by_cases hone : p.hdr.pkgCnt ≤ 1
  · dsimp only
    rw [if_pos hone]
    exact .single hold hone
  dsimp only
  rw [if_neg hone]
  by_cases hsize : (heldPackets r p).size = p.hdr.pkgCnt.toNat
  · rw [if_pos hsize]
    exact .full hold hone hsize
  · rw [if_neg hsize]
    exact .stored hold hone hsize

theorem acceptPacket_eq (r : Reassembly) (p : SealedPacket) :
    acceptPacket r p.hdr p.payload = ((assemble r p).1,
      (assemble r p).2.elim [] fun data => dispatchFrame p.hdr.type data p.hdr.timestamp) := by
  have hcases := assemble_cases r p
  generalize assemble r p = t at hcases
  rw [acceptPacket]
  cases hcases with
  | filtered hold => exact if_pos hold
  | single hnew hone => exact (if_neg hnew).trans (if_pos hone)
  | full hnew hmany hsize =>
    exact (if_neg hnew).trans ((if_neg hmany).trans (if_pos hsize))
  | stored hnew hmany hsize =>
    exact (if_neg hnew).trans ((if_neg hmany).trans (if_neg hsize))

theorem udpAccept_eq (r : Reassembly) (p : SealedPacket) :
    udpAccept r p.hdr p.payload = ((assemble r p).1,
      (assemble r p).2.elim [] fun data => udpDispatchFrame p.hdr.type p.hdr.frameId data) := by
  have hcases := assemble_cases r p
  generalize assemble r p = t at hcases
  rw [udpAccept]
  cases hcases with
  | filtered hold => exact if_pos hold
  | single hnew hone => exact (if_neg hnew).trans (if_pos hone)
  | full hnew hmany hsize =>
    exact (if_neg hnew).trans ((if_neg hmany).trans (if_pos hsize))
  | stored hnew hmany hsize =>
    exact (if_neg hnew).trans ((if_neg hmany).trans (if_neg hsize))

/-! ### Packet after packet -/

/-- A call of `dispatchFrame`: the packets received by then, the header of the last of them,
and the data. -/
structure Dispatch where
  received : List SealedPacket
  hdr : FrameHeader
  data : List UInt8

/-- The members of a receiver, the packets it received, and its calls of `dispatchFrame`. -/
structure FrameState where
  reassembly : Reassembly
  received : List SealedPacket
  dispatched : List Dispatch

/-- A packet is received. -/
def receivePacket (s : FrameState) (p : SealedPacket) : FrameState where
  reassembly := (assemble s.reassembly p).1
  received := s.received ++ [p]
  dispatched := s.dispatched ++
    ((assemble s.reassembly p).2.map fun data => ⟨s.received ++ [p], p.hdr, data⟩).toList

/-- A receiver, packet after packet. -/
def frameSystem : TransitionSystem FrameState SealedPacket :=
  ⟨⟨.fresh, [], []⟩, fun s p => some (receivePacket s p)⟩

/-- What `TcpControlWorker` emits for a call of `dispatchFrame`. -/
def Dispatch.tcpSignals (d : Dispatch) : List Signal :=
  dispatchFrame d.hdr.type d.data d.hdr.timestamp

/-- What `UdpReceiverWorker` emits for it. -/
def Dispatch.udpSignals (d : Dispatch) : List ImageSignal :=
  udpDispatchFrame d.hdr.type d.hdr.frameId d.data

theorem frameSystem_run (ps : List SealedPacket) : ∀ s : FrameState,
    frameSystem.run s ps = some (ps.foldl receivePacket s) := by
  induction ps with
  | nil =>
    intro s
    rfl
  | cons p ps ih =>
    intro s
    exact ih (receivePacket s p)

theorem tcpSignals_receivePacket (s : FrameState) (p : SealedPacket) :
    (receivePacket s p).dispatched.flatMap Dispatch.tcpSignals =
      s.dispatched.flatMap Dispatch.tcpSignals ++
        (acceptPacket s.reassembly p.hdr p.payload).2 := by
  rw [receivePacket, List.flatMap_append, acceptPacket_eq]
  cases (assemble s.reassembly p).2 with
  | none => rfl
  | some data => exact congrArg _ (List.append_nil _)

theorem udpSignals_receivePacket (s : FrameState) (p : SealedPacket) :
    (receivePacket s p).dispatched.flatMap Dispatch.udpSignals =
      s.dispatched.flatMap Dispatch.udpSignals ++
        (udpAccept s.reassembly p.hdr p.payload).2 := by
  rw [receivePacket, List.flatMap_append, udpAccept_eq]
  cases (assemble s.reassembly p).2 with
  | none => rfl
  | some data => exact congrArg _ (List.append_nil _)

/-- The TCP receiver reads packets off the front of the stream. -/
theorem consumes_sealed (ps : List SealedPacket) : ∀ s : FrameState,
    ∃ os, (ps.foldl receivePacket s).dispatched.flatMap Dispatch.tcpSignals =
        s.dispatched.flatMap Dispatch.tcpSignals ++ os ∧
      packetParser.Consumes s.reassembly (ps.flatMap SealedPacket.bytes)
        (ps.foldl receivePacket s).reassembly os := by
  induction ps with
  | nil =>
    intro s
    exact ⟨[], (List.append_nil _).symm, .nil _⟩
  | cons p ps ih =>
    intro s
    obtain ⟨os, hos, hrest⟩ := ih (receivePacket s p)
    have hfirst := consumes_packet s.reassembly p.isSealed p.length_eq
    rw [acceptPacket_eq] at hfirst
    refine ⟨(acceptPacket s.reassembly p.hdr p.payload).2 ++ os, ?_, ?_⟩
    · rw [List.foldl_cons, hos, tcpSignals_receivePacket, List.append_assoc]
    · rw [List.flatMap_cons, acceptPacket_eq]
      exact hfirst.append hrest

theorem drain_sealed (s : FrameState) (ps : List SealedPacket) :
    ∃ os, (ps.foldl receivePacket s).dispatched.flatMap Dispatch.tcpSignals =
        s.dispatched.flatMap Dispatch.tcpSignals ++ os ∧
      packetParser.drain s.reassembly (ps.flatMap SealedPacket.bytes) =
        ((ps.foldl receivePacket s).reassembly, os, []) := by
  obtain ⟨os, hos, hread⟩ := consumes_sealed ps s
  exact ⟨os, hos, hread.drain (step_of_short (by decide))⟩

/-- **The TCP receiver**: however the stream of packets is cut, `dispatchFrame` is called as in
the packet after packet run. -/
theorem receive_packets {ps : List SealedPacket} {s : FrameState} {chunks : List (List UInt8)}
    (h : frameSystem.run frameSystem.init ps = some s)
    (hchunks : chunks.flatten = ps.flatMap SealedPacket.bytes) :
    receive .connected chunks = (⟨s.reassembly, []⟩, s.dispatched.flatMap Dispatch.tcpSignals) := by
  rw [frameSystem_run, Option.some_inj] at h
  obtain ⟨os, hos, hdrain⟩ := drain_sealed frameSystem.init ps
  rw [h] at hos hdrain
  have hread : packetParser.drain TcpControlWorker.connected.toReassembly
      (ps.flatMap SealedPacket.bytes) = (s.reassembly, os, []) := hdrain
  have hbuf : TcpControlWorker.connected.mBuffer ++ ps.flatMap SealedPacket.bytes =
      ps.flatMap SealedPacket.bytes := rfl
  rw [receive_connected, hchunks, hos]
  simp only [onReadyRead, processBuffer, hbuf, hread]
  rfl

/-- Half a packet waits in the buffer. -/
theorem step_half (r : Reassembly) (p : SealedPacket) {buf : List UInt8} (hpre : buf <+: p.bytes)
    (hhalf : buf.length < p.bytes.length) : packetParser.step r buf = none := by
  by_cases hshort : buf.length < frameHeaderSize
  · exact step_of_short hshort
  obtain ⟨rest, hrest⟩ := hpre
  have hsize : p.bytes.length = frameHeaderSize + p.hdr.dataLen.toNat := by
    rw [SealedPacket.bytes, List.length_append, length_toBytes, p.length_eq]
  -- the header is whole
  have hvalid : validateFrameHeader buf = true := by
    rw [← validateFrameHeader_append (by omega) rest, hrest]
    exact validateFrameHeader_toBytes_append p.isSealed p.payload
  have hhdr : ofBytes buf = p.hdr := by
    rw [← ofBytes_append (by omega) rest, hrest]
    exact ofBytes_toBytes_append p.hdr p.payload
  show processRound r buf = none
  rw [processRound, if_neg hshort, if_neg (by simp [hvalid])]
  simp only [hhdr]
  exact if_pos (by omega)

/-- Behind any part of the stream the members are those behind the packets it holds whole. -/
theorem drain_prefix (ps : List SealedPacket) : ∀ (s : FrameState) (buf : List UInt8),
    buf <+: ps.flatMap SealedPacket.bytes →
    ∃ k, (packetParser.drain s.reassembly buf).1 =
      ((ps.take k).foldl receivePacket s).reassembly := by
  induction ps with
  | nil =>
    intro s buf hpre
    obtain rfl : buf = [] := List.prefix_nil.mp hpre
    refine ⟨0, ?_⟩
    rw [drain_of_short (by decide)]
    rfl
  | cons p ps ih =>
    intro s buf hpre
    rw [List.flatMap_cons] at hpre
    by_cases hwhole : p.bytes.length ≤ buf.length
    · obtain ⟨rest, rfl⟩ := List.prefix_of_prefix_length_le (List.prefix_append _ _) hpre hwhole
      obtain ⟨k, hk⟩ := ih (receivePacket s p) rest ((List.prefix_append_right_inj _).mp hpre)
      have hfirst := congrArg (fun t => t.1)
        (consumes_packet s.reassembly p.isSealed p.length_eq rest)
      rw [acceptPacket_eq] at hfirst
      refine ⟨k + 1, ?_⟩
      rw [List.take_succ_cons, List.foldl_cons, ← hk]
      exact hfirst
    · have hin : buf <+: p.bytes :=
        List.prefix_of_prefix_length_le hpre (List.prefix_append _ _) (by omega)
      refine ⟨0, ?_⟩
      rw [StreamParser.drain_of_none (step_half s.reassembly p hin (by omega))]
      rfl

theorem receive_prefix {ps : List SealedPacket} {chunks : List (List UInt8)}
    (hchunks : chunks.flatten <+: ps.flatMap SealedPacket.bytes) :
    ∃ k, (receive .connected chunks).1.mFrameBuffer =
      ((ps.take k).foldl receivePacket frameSystem.init).reassembly.mFrameBuffer := by
  obtain ⟨k, hk⟩ := drain_prefix ps frameSystem.init chunks.flatten hchunks
  rw [receive_connected]
  exact ⟨k, congrArg Reassembly.mFrameBuffer hk⟩

/-- The datagrams that carry the packets; what follows the payload is ignored. -/
def Carries (raws : List (List UInt8)) (ps : List SealedPacket) : Prop :=
  List.Forall₂ (fun raw p => p.bytes <+: raw) raws ps

theorem carries_bytes (ps : List SealedPacket) : Carries (ps.map SealedPacket.bytes) ps :=
  List.forall₂_map_left_iff.mpr (List.forall₂_same.mpr fun _ _ => List.prefix_rfl)

theorem onDatagram_bytes (r : Reassembly) {p : SealedPacket} {raw : List UInt8}
    (hraw : p.bytes <+: raw) : onDatagram r raw = udpAccept r p.hdr p.payload := by
  obtain ⟨more, rfl⟩ := hraw
  have hbytes : p.bytes ++ more = p.hdr.toBytes ++ (p.payload ++ more) := List.append_assoc _ _ _
  have hpayload : (p.hdr.toBytes ++ (p.payload ++ more)).drop frameHeaderSize =
      p.payload ++ more := List.drop_left' (length_toBytes p.hdr)
  have hsize : (p.hdr.toBytes ++ (p.payload ++ more)).length =
      frameHeaderSize + (p.hdr.dataLen.toNat + more.length) := by
    rw [List.length_append, List.length_append, length_toBytes, p.length_eq]
  rw [hbytes, onDatagram, if_neg (by omega), validateFrameHeader_toBytes_append p.isSealed,
    if_neg (by decide)]
  simp only [ofBytes_toBytes_append, hpayload]
  rw [if_neg (by omega), List.take_left' p.length_eq]

theorem udpOnReadyRead_foldl {raws : List (List UInt8)} {ps : List SealedPacket}
    (h : Carries raws ps) : ∀ s : FrameState,
    ∃ os, (ps.foldl receivePacket s).dispatched.flatMap Dispatch.udpSignals =
        s.dispatched.flatMap Dispatch.udpSignals ++ os ∧
      udpOnReadyRead s.reassembly raws = ((ps.foldl receivePacket s).reassembly, os) := by
  induction h with
  | nil =>
    intro s
    exact ⟨[], (List.append_nil _).symm, rfl⟩
  | @cons raw p raws ps hraw _ ih =>
    intro s
    obtain ⟨os, hos, hrest⟩ := ih (receivePacket s p)
    have hfirst := onDatagram_bytes s.reassembly hraw
    refine ⟨(udpAccept s.reassembly p.hdr p.payload).2 ++ os, ?_, ?_⟩
    · rw [List.foldl_cons, hos, udpSignals_receivePacket, List.append_assoc]
    · have hnext : (udpAccept s.reassembly p.hdr p.payload).1 = (receivePacket s p).reassembly :=
        congrArg Prod.fst (udpAccept_eq s.reassembly p)
      simp only [udpOnReadyRead, hfirst, hnext, hrest]
      rfl

/-- **The UDP receiver** on the datagrams of the packets. -/
theorem udpOnReadyRead_packets {ps : List SealedPacket} {s : FrameState} {raws : List (List UInt8)}
    (h : frameSystem.run frameSystem.init ps = some s) (hraws : Carries raws ps) :
    udpOnReadyRead .fresh raws = (s.reassembly, s.dispatched.flatMap Dispatch.udpSignals) := by
  rw [frameSystem_run, Option.some_inj] at h
  obtain ⟨os, hos, hread⟩ := udpOnReadyRead_foldl hraws frameSystem.init
  rw [h] at hos hread
  rw [hos]
  exact hread

/-! ### What the cleanup drops -/

/-- The cleanup before a packet of a frame drops only frames more than three behind it. -/
def CleanupKeepsLive (r : Reassembly) (frameId : UInt32) : Prop :=
  ¬ r.filters frameId → ∀ id ∈ r.mFrameBuffer, id ∉ cleanExpiredFrames r.mFrameBuffer frameId →
    (id.toNat : ℤ) < frameId.toNat - 3

theorem mem_cleanExpiredFrames {buffer : Std.ExtTreeMap UInt32 FramePackets}
    {current id : UInt32} : id ∈ cleanExpiredFrames buffer current ↔
      id ∈ buffer ∧ ¬ (3 < buffer.size ∧ id < current - 3) := by
  rw [Std.ExtTreeMap.mem_iff_isSome_getElem?, getElem?_cleanExpiredFrames,
    Std.ExtTreeMap.mem_iff_isSome_getElem?]
  split_ifs with hold
  · simp [hold]
  · simp [hold]

theorem toNat_sub_three (c : UInt32) :
    (c - 3).toNat = if 3 ≤ c.toNat then c.toNat - 3 else c.toNat + 4294967293 := by
  have hlt := c.toNat_lt
  rw [UInt32.toNat_sub]
  show (4294967296 - 3 + c.toNat) % 4294967296 = _
  split_ifs <;> omega

/-- What a cleanup behind the wrapped id leaves. -/
theorem size_cleanExpiredFrames_low (buffer : Std.ExtTreeMap UInt32 FramePackets) {c : UInt32}
    (hc : c.toNat < 3) : (cleanExpiredFrames buffer c).size ≤ 3 := by
  by_cases hsize : buffer.size ≤ 3
  · rw [cleanExpiredFrames, if_pos hsize]
    exact hsize
  refine size_le_of_keys (l := [4294967293, 4294967294, 4294967295]) ?_
  intro id hid
  have hkept := (mem_cleanExpiredFrames.mp hid).2
  rw [UInt32.lt_iff_toNat_lt, toNat_sub_three, if_neg (by omega)] at hkept
  have hlt := id.toNat_lt
  have htop : id.toNat = 4294967293 ∨ id.toNat = 4294967294 ∨ id.toNat = 4294967295 := by omega
  rcases htop with h | h | h
  · simp [← UInt32.toNat_inj, h]
  · simp [← UInt32.toNat_inj, h]
  · simp [← UInt32.toNat_inj, h]

/-- **The cleanup drops only old frames** exactly when it is not called, has too few frames to
work on, or the difference of the ids does not wrap. -/
theorem keepsLive_iff (r : Reassembly) (frameId : UInt32) :
    CleanupKeepsLive r frameId ↔
      r.filters frameId ∨ r.mFrameBuffer.size ≤ 3 ∨ 3 ≤ frameId.toNat := by
  constructor
  · intro hlive
    by_contra! hlow
    obtain ⟨hnew, hsize, hlow⟩ := hlow
    -- with a wrapped difference, no frame may go
    have hall : ∀ id ∈ r.mFrameBuffer, id ∈ cleanExpiredFrames r.mFrameBuffer frameId := by
      intro id hid
      by_contra hgone
      have := hlive hnew id hid hgone
      omega
    have hkept : r.mFrameBuffer.size ≤ (cleanExpiredFrames r.mFrameBuffer frameId).size := by
      rw [← Std.ExtTreeMap.length_keys]
      refine le_size_of_keys Std.ExtTreeMap.nodup_keys ?_
      intro id hid
      exact hall id (Std.ExtTreeMap.mem_keys.mp hid)
    have hfew := size_cleanExpiredFrames_low r.mFrameBuffer hlow
    omega
  · intro hcond hnew id hid hgone
    have hold : 3 < r.mFrameBuffer.size ∧ id < frameId - 3 := by
      by_contra hkept
      exact hgone (mem_cleanExpiredFrames.mpr ⟨hid, hkept⟩)
    rcases hcond with hold' | hsize | hc
    · exact absurd hold' hnew
    · omega
    · have hlt := hold.2
      rw [UInt32.lt_iff_toNat_lt, toNat_sub_three, if_pos hc] at hlt
      omega

/-- An image packet of one byte. -/
def imagePacket (frameId : UInt32) (pkgCnt pkgId : UInt16) (byte : UInt8) : SealedPacket :=
  .of ⟨0, 1, frameId, pkgCnt, pkgId, FileType.image.code, 0, 0, 0, 0⟩ [byte] rfl

/-- The first halves of frames 1 to 4. -/
def firstHalves : List SealedPacket :=
  [imagePacket 1 2 0 0x10, imagePacket 2 2 0 0x20, imagePacket 3 2 0 0x30, imagePacket 4 2 0 0x40]

/-- Behind them, in either receiver, a packet of frame 1 makes the cleanup drop frame 1 itself. -/
theorem firstHalves_dropped : ∃ s, frameSystem.run frameSystem.init firstHalves = some s ∧
    (receive .connected [firstHalves.flatMap SealedPacket.bytes]).1.toReassembly = s.reassembly ∧
    (udpOnReadyRead .fresh (firstHalves.map SealedPacket.bytes)).1 = s.reassembly ∧
    ¬ CleanupKeepsLive s.reassembly 1 := by
  have hrun := frameSystem_run firstHalves frameSystem.init
  refine ⟨_, hrun, ?_, ?_, ?_⟩
  · rw [receive_packets hrun List.flatten_singleton]
  · rw [udpOnReadyRead_packets hrun (carries_bytes _)]
  · intro hlive
    have hgone := hlive (by decide +kernel) 1 (by decide +kernel)
      (fun hkept => (mem_cleanExpiredFrames.mp hkept).2 (by decide +kernel))
    exact absurd hgone (by decide)

/-! ### How many frames are pending -/

/-- The frame buffer behind the cleanup, with the frame of the packet in it. -/
theorem size_insert_cleaned {buffer : Std.ExtTreeMap UInt32 FramePackets} {c : UInt32} {d : ℕ}
    (hsize : buffer.size ≤ d + 4) (hnear : ∀ id : UInt32, id ∈ buffer → id.toNat ≤ c.toNat + d)
    (pkgs : FramePackets) : ((cleanExpiredFrames buffer c).insert c pkgs).size ≤ d + 4 := by
  have hinsert := @Std.ExtTreeMap.size_insert_le _ _ compare (cleanExpiredFrames buffer c) _ c pkgs
  by_cases hfew : buffer.size ≤ 3
  · have hclean : cleanExpiredFrames buffer c = buffer := if_pos hfew
    rw [hclean] at hinsert ⊢
    omega
  by_cases hc : 3 ≤ c.toNat
  · -- what is left lies between three behind the packet and `d` before it
    have hlength : ((List.range (d + 4)).map fun i => UInt32.ofNat (c.toNat - 3 + i)).length =
        d + 4 := by rw [List.length_map, List.length_range]
    rw [← hlength]
    refine size_le_of_keys ?_
    intro id hid
    have hrange : c.toNat - 3 ≤ id.toNat ∧ id.toNat ≤ c.toNat + d := by
      rcases Std.ExtTreeMap.mem_insert.mp hid with heq | hid
      · rw [Std.LawfulEqCmp.compare_eq_iff_eq] at heq
        rw [← heq]
        omega
      · obtain ⟨hin, hkept⟩ := mem_cleanExpiredFrames.mp hid
        rw [UInt32.lt_iff_toNat_lt, toNat_sub_three, if_pos hc] at hkept
        have := hnear id hin
        omega
    refine List.mem_map.mpr ⟨id.toNat - (c.toNat - 3), List.mem_range.mpr (by omega), ?_⟩
    rw [Nat.add_sub_of_le hrange.1, UInt32.ofNat_toNat]
  · have hlow := size_cleanExpiredFrames_low buffer (by omega : c.toNat < 3)
    omega

/-- The pending frames are frames of received packets, and not too many. -/
structure FewPending (d : ℕ) (s : FrameState) : Prop where
  received : ∀ id ∈ s.reassembly.mFrameBuffer, ∃ p ∈ s.received, p.hdr.frameId = id
  size_le : s.reassembly.mFrameBuffer.size ≤ d + 4

/-- No packet lags more than `d` frames behind one before it. -/
def LagsAtMost (d : ℕ) (ps : List SealedPacket) : Prop :=
  ps.Pairwise fun p q => p.hdr.frameId.toNat ≤ q.hdr.frameId.toNat + d

/-- **One packet.** -/
theorem fewPending_receivePacket {d : ℕ} {s : FrameState} (h : FewPending d s) {p : SealedPacket}
    (hlag : ∀ q ∈ s.received, q.hdr.frameId.toNat ≤ p.hdr.frameId.toNat + d) :
    FewPending d (receivePacket s p) := by
  have hnear : ∀ id ∈ s.reassembly.mFrameBuffer, id.toNat ≤ p.hdr.frameId.toNat + d := by
    intro id hid
    obtain ⟨q, hq, rfl⟩ := h.received id hid
    exact hlag q hq
  have hsub := submap_cleanExpiredFrames s.reassembly.mFrameBuffer p.hdr.frameId
  have hclean : ∀ id ∈ cleanExpiredFrames s.reassembly.mFrameBuffer p.hdr.frameId,
      ∃ q ∈ s.received ++ [p], q.hdr.frameId = id := by
    intro id hid
    obtain ⟨q, hq, hqid⟩ := h.received id (hsub.mem hid)
    exact ⟨q, List.mem_append_left _ hq, hqid⟩
  have hinsert : ∀ id ∈ (cleanExpiredFrames s.reassembly.mFrameBuffer p.hdr.frameId).insert
      p.hdr.frameId (heldPackets s.reassembly p), ∃ q ∈ s.received ++ [p], q.hdr.frameId = id := by
    intro id hid
    rcases Std.ExtTreeMap.mem_insert.mp hid with heq | hid
    · exact ⟨p, by simp, Std.LawfulEqCmp.compare_eq_iff_eq.mp heq⟩
    · exact hclean id hid
  have hsize := size_insert_cleaned h.size_le hnear (heldPackets s.reassembly p)
  have hcases := assemble_cases s.reassembly p
  have hstate : (receivePacket s p).reassembly = (assemble s.reassembly p).1 := rfl
  have hreceived : (receivePacket s p).received = s.received ++ [p] := rfl
  generalize assemble s.reassembly p = t at hcases hstate
  constructor
  · rw [hstate, hreceived]
    cases hcases with
    | filtered hold =>
      intro id hid
      obtain ⟨q, hq, hqid⟩ := h.received id hid
      exact ⟨q, List.mem_append_left _ hq, hqid⟩
    | single hnew hone => exact hclean
    | full hnew hmany hsize =>
      intro id hid
      exact hinsert id ((Submap.erase_left _ _).mem hid)
    | stored hnew hmany hsize => exact hinsert
  · rw [hstate]
    cases hcases with
    | filtered hold => exact h.size_le
    | single hnew hone => exact hsub.size_le.trans h.size_le
    | full hnew hmany hsize' => exact (Submap.erase_left _ _).size_le.trans hsize
    | stored hnew hmany hsize' => exact hsize

/-- Packet after packet. -/
theorem fewPending_foldl {d : ℕ} (ps : List SealedPacket) : ∀ {s : FrameState}, FewPending d s →
    LagsAtMost d (s.received ++ ps) → FewPending d (ps.foldl receivePacket s) := by
  induction ps with
  | nil =>
    intro s h _
    exact h
  | cons p ps ih =>
    intro s h hlag
    have hfirst : ∀ q ∈ s.received, q.hdr.frameId.toNat ≤ p.hdr.frameId.toNat + d :=
      fun q hq => (List.pairwise_append.mp hlag).2.2 q hq p List.mem_cons_self
    refine ih (fewPending_receivePacket h hfirst) ?_
    show LagsAtMost d (s.received ++ [p] ++ ps)
    rw [List.append_assoc]
    exact hlag

theorem fewPending_init (d : ℕ) : FewPending d frameSystem.init := by
  constructor
  · intro id hid
    exact absurd hid Std.ExtTreeMap.not_mem_empty
  · rw [show frameSystem.init.reassembly.mFrameBuffer = ∅ from rfl, Std.ExtTreeMap.size_empty]
    omega

/-- **The frame buffers stay small**: when no packet lags more than `d` frames behind one before
it, neither receiver ever has more than `d + 4` frames pending. -/
theorem frameBuffer_bounded {d : ℕ} {ps : List SealedPacket} (hlag : LagsAtMost d ps) :
    (∀ chunks : List (List UInt8), chunks.flatten <+: ps.flatMap SealedPacket.bytes →
      (receive .connected chunks).1.mFrameBuffer.size ≤ d + 4) ∧
    ∀ raws, Carries raws ps → (udpOnReadyRead .fresh raws).1.mFrameBuffer.size ≤ d + 4 := by
  constructor
  · intro chunks hchunks
    obtain ⟨k, hk⟩ := receive_prefix hchunks
    have htake : LagsAtMost d (frameSystem.init.received ++ ps.take k) :=
      hlag.sublist (List.take_sublist k ps)
    rw [hk]
    exact (fewPending_foldl (ps.take k) (fewPending_init d) htake).size_le
  · intro raws hraws
    rw [udpOnReadyRead_packets (frameSystem_run ps frameSystem.init) hraws]
    exact (fewPending_foldl ps (fewPending_init d) hlag).size_le

/-- Frame 1 overtaken by frame 2. -/
theorem frameBuffer_bounded_overtaken :
    (receive .connected [[imagePacket 2 2 0 0x20, imagePacket 1 2 0 0x10].flatMap
      SealedPacket.bytes]).1.mFrameBuffer.size ≤ 1 + 4 ∧
    (udpOnReadyRead .fresh ([imagePacket 2 2 0 0x20, imagePacket 1 2 0 0x10].map
      SealedPacket.bytes)).1.mFrameBuffer.size ≤ 1 + 4 := by
  have hlag : LagsAtMost 1 [imagePacket 2 2 0 0x20, imagePacket 1 2 0 0x10] := by
    unfold LagsAtMost
    decide
  refine ⟨(frameBuffer_bounded hlag).1 _ ?_, (frameBuffer_bounded hlag).2 _ ?_⟩
  · rw [List.flatten_singleton]
  · exact carries_bytes _

/-! ### What is dispatched -/

/-- A packet of a frame that has more than one. -/
def SealedPacket.isMulti (p : SealedPacket) : Bool := decide (1 < p.hdr.pkgCnt)

/-- The packet of a frame is the one with a packet id. -/
def SealedPacket.isOf (frameId : UInt32) (pkgId : UInt16) (p : SealedPacket) : Bool :=
  decide (p.hdr.frameId = frameId ∧ p.hdr.pkgId = pkgId)

/-- The last packet received of a frame and a packet id. -/
def lastPacket (received : List SealedPacket) (frameId : UInt32) (pkgId : UInt16) :
    Option SealedPacket :=
  (received.filter (SealedPacket.isOf frameId pkgId)).getLast?

/-- What is dispatched of a frame of several packets: a packet was received for each packet id,
and the data are the latest payloads in order. -/
def Dispatch.Whole (d : Dispatch) : Prop :=
  1 < d.hdr.pkgCnt →
    (∀ k < d.hdr.pkgCnt.toNat,
      ∃ p ∈ d.received, p.hdr.frameId = d.hdr.frameId ∧ p.hdr.pkgId.toNat = k) ∧
    d.data = (List.range d.hdr.pkgCnt.toNat).flatMap fun k =>
      ((lastPacket d.received d.hdr.frameId (UInt16.ofNat k)).map SealedPacket.payload).getD []

/-- Only whole frames are dispatched. -/
def OnlyComplete (s : FrameState) : Prop := ∀ d ∈ s.dispatched, d.Whole

/-- If the packet makes up the number of packets, those held are numbered below it, and no
packet of a frame of one took the number of one of them since. -/
def CompletesWhole (s : FrameState) (p : SealedPacket) : Prop :=
  ¬ s.reassembly.filters p.hdr.frameId → 1 < p.hdr.pkgCnt →
    (heldPackets s.reassembly p).size = p.hdr.pkgCnt.toNat →
    ∀ held ∈ (heldPackets s.reassembly p).toList, held.1 < p.hdr.pkgCnt ∧
      (lastPacket (s.received ++ [p]) p.hdr.frameId held.1).all fun q =>
        q.isMulti ∨ q.payload = held.2

instance (s : FrameState) (p : SealedPacket) : Decidable (CompletesWhole s p) :=
  inferInstanceAs (Decidable (_ → _ → _ → ∀ held ∈ _, _))

theorem SealedPacket.isOf_iff {p : SealedPacket} {frameId : UInt32} {pkgId : UInt16} :
    p.isOf frameId pkgId = true ↔ p.hdr.frameId = frameId ∧ p.hdr.pkgId = pkgId :=
  decide_eq_true_iff

theorem lastPacket_append (received : List SealedPacket) (p : SealedPacket) (frameId : UInt32)
    (pkgId : UInt16) : lastPacket (received ++ [p]) frameId pkgId =
      if p.isOf frameId pkgId then some p else lastPacket received frameId pkgId := by
  rw [lastPacket, List.filter_append]
  split_ifs with hof
  · rw [List.filter_cons, List.filter_nil, if_pos hof, List.getLast?_concat]
  · rw [List.filter_cons, List.filter_nil, if_neg hof, List.append_nil]
    rfl

theorem lastPacket_of_ne {received : List SealedPacket} {p : SealedPacket} {frameId : UInt32}
    (hne : p.hdr.frameId ≠ frameId) (pkgId : UInt16) :
    lastPacket (received ++ [p]) frameId pkgId = lastPacket received frameId pkgId := by
  rw [lastPacket_append, if_neg]
  intro hof
  exact hne (SealedPacket.isOf_iff.mp hof).1

theorem mem_of_lastPacket {received : List SealedPacket} {frameId : UInt32} {pkgId : UInt16}
    {q : SealedPacket} (h : lastPacket received frameId pkgId = some q) :
    q ∈ received ∧ q.hdr.frameId = frameId ∧ q.hdr.pkgId = pkgId := by
  have hmem := List.mem_filter.mp (List.mem_of_getLast? h)
  exact ⟨hmem.1, SealedPacket.isOf_iff.mp hmem.2⟩

/-- A last packet of several is the last of those. -/
theorem lastPacket_filter {received : List SealedPacket} {frameId : UInt32} {pkgId : UInt16}
    {q : SealedPacket} (h : lastPacket received frameId pkgId = some q) (hq : q.isMulti = true) :
    lastPacket (received.filter SealedPacket.isMulti) frameId pkgId = some q := by
  induction received using List.reverseRecOn with
  | nil => exact h
  | append_singleton received p ih =>
    rw [lastPacket_append] at h
    split_ifs at h with hof
    · obtain rfl := Option.some_inj.mp h
      rw [List.filter_append, List.filter_cons, List.filter_nil, if_pos hq, lastPacket_append,
        if_pos hof]
    · rw [List.filter_append, List.filter_cons, List.filter_nil]
      split_ifs
      · rw [lastPacket_append, if_neg hof]
        exact ih h
      · rw [List.append_nil]
        exact ih h

theorem lastPacket_isSome {received : List SealedPacket} {frameId : UInt32} {pkgId : UInt16}
    {q : SealedPacket}
    (h : lastPacket (received.filter SealedPacket.isMulti) frameId pkgId = some q) :
    ∃ q', lastPacket received frameId pkgId = some q' := by
  obtain ⟨hmem, hof⟩ := mem_of_lastPacket h
  have hin : q ∈ received.filter (SealedPacket.isOf frameId pkgId) :=
    List.mem_filter.mpr ⟨(List.mem_filter.mp hmem).1, SealedPacket.isOf_iff.mpr hof⟩
  exact Option.isSome_iff_exists.mp (List.getLast?_isSome.mpr (List.ne_nil_of_mem hin))

/-- The packets held of a frame are the latest of it that have more than one. -/
def HoldsLatest (received : List SealedPacket) (frameId : UInt32) (pkgs : FramePackets) : Prop :=
  ∀ (k : UInt16) (payload : List UInt8), pkgs[k]? = some payload →
    ∃ q, lastPacket (received.filter SealedPacket.isMulti) frameId k = some q ∧ q.payload = payload

/-- The frame buffer holds the latest packets of the frames that are not filtered. -/
def Gathering (s : FrameState) : Prop :=
  ∀ (frameId : UInt32) (pkgs : FramePackets), ¬ s.reassembly.filters frameId →
    s.reassembly.mFrameBuffer[frameId]? = some pkgs → HoldsLatest s.received frameId pkgs

/-- A packet of another frame. -/
theorem HoldsLatest.append {received : List SealedPacket} {frameId : UInt32} {pkgs : FramePackets}
    (h : HoldsLatest received frameId pkgs) {p : SealedPacket} (hne : p.hdr.frameId ≠ frameId) :
    HoldsLatest (received ++ [p]) frameId pkgs := by
  intro k payload hk
  obtain ⟨q, hq, hpayload⟩ := h k payload hk
  refine ⟨q, ?_, hpayload⟩
  rw [List.filter_append, List.filter_cons, List.filter_nil]
  split_ifs
  · rw [lastPacket_of_ne hne]
    exact hq
  · rw [List.append_nil]
    exact hq

/-- A packet of a frame of one is not counted. -/
theorem HoldsLatest.append_single {received : List SealedPacket} {frameId : UInt32}
    {pkgs : FramePackets} (h : HoldsLatest received frameId pkgs) {p : SealedPacket}
    (hone : p.hdr.pkgCnt ≤ 1) : HoldsLatest (received ++ [p]) frameId pkgs := by
  have hsingle : ¬ p.isMulti = true := by
    intro hmulti
    exact UInt16.not_lt.mpr hone (of_decide_eq_true hmulti)
  intro k payload hk
  rw [List.filter_append, List.filter_cons, List.filter_nil, if_neg hsingle, List.append_nil]
  exact h k payload hk

/-- The frame of the packet. -/
theorem holdsLatest_heldPackets {s : FrameState} (h : Gathering s) {p : SealedPacket}
    (hnew : ¬ s.reassembly.filters p.hdr.frameId) (hmany : ¬ p.hdr.pkgCnt ≤ 1) :
    HoldsLatest (s.received ++ [p]) p.hdr.frameId (heldPackets s.reassembly p) := by
  have hmulti : p.isMulti = true := decide_eq_true (UInt16.not_le.mp hmany)
  intro k payload hk
  rw [List.filter_append, List.filter_cons, List.filter_nil, if_pos hmulti, lastPacket_append]
  rw [heldPackets, Std.ExtTreeMap.getElem?_insert] at hk
  by_cases hkey : p.hdr.pkgId = k
  · rw [if_pos (Std.LawfulEqCmp.compare_eq_iff_eq.mpr hkey), Option.some_inj] at hk
    rw [if_pos (SealedPacket.isOf_iff.mpr ⟨rfl, hkey⟩)]
    exact ⟨p, rfl, hk⟩
  · rw [if_neg (fun heq => hkey (Std.LawfulEqCmp.compare_eq_iff_eq.mp heq)),
      Std.ExtTreeMap.getD_eq_getD_getElem?] at hk
    rw [if_neg (fun hof => hkey (SealedPacket.isOf_iff.mp hof).2)]
    cases hpkgs : (cleanExpiredFrames s.reassembly.mFrameBuffer p.hdr.frameId)[p.hdr.frameId]? with
    | none =>
      rw [hpkgs, Option.getD_none, Std.ExtTreeMap.getElem?_empty] at hk
      cases hk
    | some pkgs =>
      rw [hpkgs, Option.getD_some] at hk
      exact h p.hdr.frameId pkgs hnew (submap_cleanExpiredFrames _ _ _ _ hpkgs) k payload hk

/-- What is not filtered behind a frame that was not, was not before. -/
theorem not_filters_of_last {r : Reassembly} {c frameId : UInt32} (hnew : ¬ r.filters c)
    {buffer : Std.ExtTreeMap UInt32 FramePackets}
    (h : ¬ Reassembly.filters ⟨buffer, c⟩ frameId) : ¬ r.filters frameId := by
  rintro ⟨hpos, hlt⟩
  have hle := le_of_not_filtered hnew
  have hle' := le_of_not_filtered h
  simp only [UInt32.le_iff_toNat_le] at hle hle'
  rw [UInt32.lt_iff_toNat_lt] at hlt
  omega

/-- **One packet**: what is held is the latest of each frame. -/
theorem gathering_receivePacket {s : FrameState} (h : Gathering s) (p : SealedPacket) :
    Gathering (receivePacket s p) := by
  have hcases := assemble_cases s.reassembly p
  have hstate : (receivePacket s p).reassembly = (assemble s.reassembly p).1 := rfl
  have hreceived : (receivePacket s p).received = s.received ++ [p] := rfl
  generalize assemble s.reassembly p = t at hcases hstate
  have hclean := submap_cleanExpiredFrames s.reassembly.mFrameBuffer p.hdr.frameId
  intro frameId pkgs hfresh hpkgs
  rw [hstate] at hfresh hpkgs
  rw [hreceived]
  cases hcases with
  | filtered hold =>
    refine (h frameId pkgs hfresh hpkgs).append ?_
    rintro rfl
    exact hfresh hold
  | single hnew hone =>
    exact (h frameId pkgs (not_filters_of_last hnew hfresh)
      (hclean frameId pkgs hpkgs)).append_single hone
  | full hnew hmany hsize =>
    rw [Std.ExtTreeMap.getElem?_erase, Std.ExtTreeMap.getElem?_insert] at hpkgs
    split_ifs at hpkgs with hkey
    have hne : p.hdr.frameId ≠ frameId :=
      fun heq => hkey (Std.LawfulEqCmp.compare_eq_iff_eq.mpr heq)
    exact (h frameId pkgs (not_filters_of_last hnew hfresh) (hclean frameId pkgs hpkgs)).append hne
  | stored hnew hmany hsize =>
    rw [Std.ExtTreeMap.getElem?_insert] at hpkgs
    split_ifs at hpkgs with hkey
    · rw [Std.LawfulEqCmp.compare_eq_iff_eq] at hkey
      rw [Option.some_inj] at hpkgs
      rw [← hkey, ← hpkgs]
      exact holdsLatest_heldPackets h hnew hmany
    · have hne : p.hdr.frameId ≠ frameId :=
        fun heq => hkey (Std.LawfulEqCmp.compare_eq_iff_eq.mpr heq)
      exact (h frameId pkgs hfresh (hclean frameId pkgs hpkgs)).append hne

/-- A frame whose packet ids are all there. -/
theorem whole_of_completes {s : FrameState} (h : Gathering s) {p : SealedPacket}
    (hgood : CompletesWhole s p) (hnew : ¬ s.reassembly.filters p.hdr.frameId)
    (hmany : ¬ p.hdr.pkgCnt ≤ 1)
    (hsize : (heldPackets s.reassembly p).size = p.hdr.pkgCnt.toNat) :
    Dispatch.Whole ⟨s.received ++ [p], p.hdr,
      complete (heldPackets s.reassembly p) p.hdr.pkgCnt.toNat⟩ := by
  have hheld : ∀ (k : UInt16) (payload : List UInt8),
      (heldPackets s.reassembly p)[k]? = some payload → k < p.hdr.pkgCnt ∧
        (lastPacket (s.received ++ [p]) p.hdr.frameId k).all fun q =>
          q.isMulti ∨ q.payload = payload :=
    fun k payload hk => hgood hnew (UInt16.not_le.mp hmany) hsize (k, payload)
      (Std.ExtTreeMap.mem_toList_iff_getElem?_eq_some.mpr hk)
  have hlatest := holdsLatest_heldPackets h hnew hmany
  -- as many packet ids below the count are all of them
  have hall : ∀ k < p.hdr.pkgCnt.toNat, ∃ q,
      lastPacket (s.received ++ [p]) p.hdr.frameId (UInt16.ofNat k) = some q ∧
        (heldPackets s.reassembly p)[UInt16.ofNat k]? = some q.payload := by
    intro k hk
    have hinj : Function.Injective UInt16.toNat := fun _ _ => UInt16.toNat_inj.mp
    have hbelow : ∀ i ∈ heldPackets s.reassembly p, i.toNat < p.hdr.pkgCnt.toNat := by
      intro i hi
      obtain ⟨payload, hpayload⟩ := getElem?_of_mem hi
      exact UInt16.lt_iff_toNat_lt.mp (hheld i payload hpayload).1
    obtain ⟨i, hi, rfl⟩ := exists_mem_of_size hinj hbelow hsize hk
    rw [UInt16.ofNat_toNat]
    obtain ⟨payload, hpayload⟩ := getElem?_of_mem hi
    obtain ⟨q, hq, rfl⟩ := hlatest i payload hpayload
    obtain ⟨q', hq'⟩ := lastPacket_isSome hq
    have hlast := (hheld i _ hpayload).2
    rw [hq', Option.all_some, decide_eq_true_eq] at hlast
    refine ⟨q', hq', ?_⟩
    rcases hlast with hmulti | hsame
    · have heq := lastPacket_filter hq' hmulti
      rw [hq, Option.some_inj] at heq
      rw [← heq]
      exact hpayload
    · rw [hsame]
      exact hpayload
  intro _
  constructor
  · intro k hk
    obtain ⟨q, hq, -⟩ := hall k hk
    obtain ⟨hmem, hframe, hpkg⟩ := mem_of_lastPacket hq
    refine ⟨q, hmem, hframe, ?_⟩
    have hcnt := p.hdr.pkgCnt.toNat_lt
    rw [hpkg, UInt16.toNat_ofNat_of_lt' (hk.trans hcnt)]
  · refine List.flatMap_congr ?_
    intro k hk
    obtain ⟨q, hq, hpayload⟩ := hall k (List.mem_range.mp hk)
    rw [Std.ExtTreeMap.getD_eq_getD_getElem?, hpayload]
    show q.payload = Option.getD (Option.map _ (lastPacket _ _ _)) []
    rw [hq]
    rfl

/-- **One packet that completes nothing wrong.** -/
theorem onlyComplete_receivePacket {s : FrameState} (h : OnlyComplete s) (hc : Gathering s)
    {p : SealedPacket} (hgood : CompletesWhole s p) : OnlyComplete (receivePacket s p) := by
  have hcases := assemble_cases s.reassembly p
  have hdispatched : (receivePacket s p).dispatched = s.dispatched ++
      ((assemble s.reassembly p).2.map fun data => ⟨s.received ++ [p], p.hdr, data⟩).toList := rfl
  generalize assemble s.reassembly p = t at hcases hdispatched
  intro d hd
  rw [hdispatched] at hd
  rcases List.mem_append.mp hd with hd | hd
  · exact h d hd
  cases hcases with
  | filtered hold => cases hd
  | single hnew hone =>
    obtain rfl := List.mem_singleton.mp hd
    intro hmany
    exact absurd hone (UInt16.not_le.mpr hmany)
  | full hnew hmany hsize =>
    obtain rfl := List.mem_singleton.mp hd
    exact whole_of_completes hc hgood hnew hmany hsize
  | stored hnew hmany hsize => cases hd

theorem onlyComplete_via {s : FrameState} (hs : frameSystem.Via CompletesWhole s) :
    OnlyComplete s := by
  have hboth : OnlyComplete s ∧ Gathering s := by
    refine hs.invariant (P := fun s => OnlyComplete s ∧ Gathering s) ⟨?_, ?_⟩ ?_
    · intro d hd
      cases hd
    · intro frameId pkgs _ hpkgs
      rw [show frameSystem.init.reassembly.mFrameBuffer = ∅ from rfl,
        Std.ExtTreeMap.getElem?_empty] at hpkgs
      cases hpkgs
    · intro s p t hs hgood hstep
      obtain rfl := Option.some_inj.mp hstep
      exact ⟨onlyComplete_receivePacket hs.1 hs.2 hgood, gathering_receivePacket hs.2 p⟩
  exact hboth.1

/-- **Only whole frames are dispatched** by the two receivers, if the packets counted are
always those of the frame. -/
theorem onlyComplete {ps : List SealedPacket} {s : FrameState}
    (h : frameSystem.runVia CompletesWhole frameSystem.init ps = some s) :
    OnlyComplete s ∧
    (∀ chunks : List (List UInt8), chunks.flatten = ps.flatMap SealedPacket.bytes →
      (receive .connected chunks).2 = s.dispatched.flatMap Dispatch.tcpSignals) ∧
    ∀ raws, Carries raws ps →
      (udpOnReadyRead .fresh raws).2 = s.dispatched.flatMap Dispatch.udpSignals := by
  have hrun := TransitionSystem.run_of_runVia h
  refine ⟨onlyComplete_via (.of_run h), ?_, ?_⟩
  · intro chunks hchunks
    rw [receive_packets hrun hchunks]
  · intro raws hraws
    rw [udpOnReadyRead_packets hrun hraws]

/-- A frame in two packets. -/
theorem onlyComplete_two :
    OnlyComplete (receivePacket (receivePacket frameSystem.init (imagePacket 1 2 0 0x10))
      (imagePacket 1 2 1 0x20)) := by
  have hvia : (frameSystem.runVia CompletesWhole frameSystem.init
      [imagePacket 1 2 0 0x10, imagePacket 1 2 1 0x20]).isSome := by decide +kernel
  obtain ⟨s, hs⟩ := Option.isSome_iff_exists.mp hvia
  have hrun := TransitionSystem.run_of_runVia hs
  obtain rfl := Option.some_inj.mp hrun
  exact (onlyComplete hs).1

/-- A packet of frame 1 and one with a number its two packets do not have. -/
def strayPacket : List SealedPacket := [imagePacket 1 2 0 0x10, imagePacket 1 2 5 0x20]

/-- Both receivers take them for the frame, and the UDP receiver emits its first half as an
image. -/
theorem strayPacket_dispatched :
    ∃ s, frameSystem.run frameSystem.init strayPacket = some s ∧
      (receive .connected [strayPacket.flatMap SealedPacket.bytes]).2 =
        s.dispatched.flatMap Dispatch.tcpSignals ∧
      (udpOnReadyRead .fresh (strayPacket.map SealedPacket.bytes)).2 = [⟨1, [0x10]⟩] ∧
      ¬ OnlyComplete s := by
  have hrun := frameSystem_run strayPacket frameSystem.init
  refine ⟨_, hrun, ?_, ?_, ?_⟩
  · rw [receive_packets hrun List.flatten_singleton]
  · rw [udpOnReadyRead_packets hrun (carries_bytes _)]
    decide +kernel
  · intro hall
    -- no packet 1 was received
    have hmissing : ∃ d ∈ (strayPacket.foldl receivePacket frameSystem.init).dispatched,
        1 < d.hdr.pkgCnt ∧ 1 < d.hdr.pkgCnt.toNat ∧ ∀ p ∈ d.received, p.hdr.pkgId.toNat ≠ 1 := by
      decide +kernel
    obtain ⟨d, hd, hmany, hcnt, hnone⟩ := hmissing
    obtain ⟨p, hp, -, hone⟩ := (hall d hd hmany).1 1 hcnt
    exact hnone p hp hone

end Sentry
