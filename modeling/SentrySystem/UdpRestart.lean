/-
The UDP receiver across restarts of the device
(`QT/Desktop/src/net/UdpReceiverWorker.cpp`).

A restarted sender counts its frame ids from 0 again; the receiver still remembers the
last complete frame and the packets of incomplete ones.

* `udpSystem` — the receiver, its socket opened and closed, and the datagrams of any runs of
  the sender;
* `Restartable` — what the receiver has to have forgotten;
* `Ready.run` — then a new run is received whole;
* `restart_iff` — and otherwise some new run is not.
-/
import SentrySystem.Lib.Transition
import SentrySystem.UdpReceiver

namespace Sentry

open FrameHeader MapSize

/-! ### The code -/

/-- The members of `UdpReceiverWorker`: whether `m_udpsocket` is set, and whether it is bound
and connected to `onReadyRead`. -/
structure UdpReceiverWorker extends Reassembly where
  mUdpsocket : Bool
  bound : Bool

/-- A new worker. -/
def UdpReceiverWorker.new : UdpReceiverWorker where
  toReassembly := .fresh
  mUdpsocket := false
  bound := false

/-- `initSocket`; `ok` is the result of `bind`. -/
def initSocket (w : UdpReceiverWorker) (ok : Bool) : UdpReceiverWorker :=
  { w with mUdpsocket := true, bound := ok }

/-- `closeSocket`. -/
def closeSocket (w : UdpReceiverWorker) : UdpReceiverWorker :=
  if w.mUdpsocket = false then w
  else { w with mUdpsocket := false, bound := false, mFrameBuffer := ∅ }

/-- What can happen: the socket is opened or closed, and the `k`-th datagram of a run of the
sender, of any images from frame id 0 on, arrives. -/
inductive UdpAction
  | initSocket (ok : Bool)
  | closeSocket
  | datagram (images : List UdpImage) (k : ℕ)

/-- One step. -/
def udpStep (w : UdpReceiverWorker) : UdpAction → Option UdpReceiverWorker
  | .initSocket ok => some (initSocket w ok)
  | .closeSocket => some (closeSocket w)
  | .datagram images k =>
    if w.bound = false then none
    else (udpSendAll 0 images)[k]?.map fun raw =>
      { w with toReassembly := (onDatagram w.toReassembly raw).1 }

/-- The receiver. -/
def udpSystem : TransitionSystem UdpReceiverWorker UdpAction := ⟨.new, udpStep⟩

/-! ### What the frame buffer holds -/

/-- The packet ids collected are below the largest packet count. -/
def SmallIds (buffer : Std.ExtTreeMap UInt32 FramePackets) : Prop :=
  ∀ (frameId : UInt32) (pkgs : FramePackets), buffer[frameId]? = some pkgs →
    ∀ i ∈ pkgs, i.toNat < 65535

theorem SmallIds.submap {buffer rest : Std.ExtTreeMap UInt32 FramePackets}
    (h : SmallIds buffer) (hsub : Submap rest buffer) : SmallIds rest :=
  fun frameId pkgs hpkgs => h frameId pkgs (hsub frameId pkgs hpkgs)

theorem SmallIds.empty : SmallIds ∅ := by
  intro frameId pkgs h
  rw [Std.ExtTreeMap.getElem?_empty] at h
  cases h

/-- One more packet of a frame. -/
theorem SmallIds.insert {buffer : Std.ExtTreeMap UInt32 FramePackets} (h : SmallIds buffer)
    (frameId : UInt32) {i : UInt16} (hi : i.toNat < 65535) (payload : List UInt8) :
    SmallIds (buffer.insert frameId ((buffer.getD frameId ∅).insert i payload)) := by
  intro id pkgs hid j hj
  rw [Std.ExtTreeMap.getElem?_insert] at hid
  split_ifs at hid with heq
  · rw [Option.some_inj] at hid
    rw [← hid, Std.ExtTreeMap.mem_insert] at hj
    rcases hj with heq | hj
    · rw [Std.LawfulEqCmp.compare_eq_iff_eq] at heq
      exact heq ▸ hi
    · rw [Std.ExtTreeMap.getD_eq_getD_getElem?] at hj
      cases hold : buffer[frameId]? with
      | none =>
        rw [hold, Option.getD_none] at hj
        exact absurd hj Std.ExtTreeMap.not_mem_empty
      | some old =>
        rw [hold, Option.getD_some] at hj
        exact h frameId old hold j hj
  · exact h id pkgs hid j hj

theorem smallIds_udpAccept {r : Reassembly} (h : SmallIds r.mFrameBuffer) {hdr : FrameHeader}
    (hid : hdr.pkgId.toNat < 65535) (payload : List UInt8) :
    SmallIds (udpAccept r hdr payload).1.mFrameBuffer := by
  have hclean := h.submap (submap_cleanExpiredFrames r.mFrameBuffer hdr.frameId)
  simp only [udpAccept]
  split_ifs
  · exact h
  · exact hclean
  · exact (hclean.insert hdr.frameId hid payload).submap (Submap.erase_left _ _)
  · exact hclean.insert hdr.frameId hid payload

/-- Every datagram of a run is a packet of some image. -/
theorem exists_packet {images : List UdpImage} {raw : List UInt8} : ∀ {n : UInt32},
    raw ∈ udpSendAll n images → ∃ (image : UdpImage) (frameId : UInt32) (k : ℕ),
      k < 65535 ∧ raw = image.packet frameId (UInt16.ofNat k) := by
  induction images with
  | nil =>
    intro n hraw
    cases hraw
  | cons image images ih =>
    intro n hraw
    rcases List.mem_append.mp hraw with hraw | hraw
    · obtain ⟨k, hk, rfl⟩ := mem_udpSendFrame hraw
      have hsize := (totalPkgs (UInt32.ofNat image.data.length)).toNat_lt
      exact ⟨image, n, k, by omega, rfl⟩
    · exact ih hraw

theorem smallIds_onDatagram {r : Reassembly} (h : SmallIds r.mFrameBuffer) (image : UdpImage)
    (frameId : UInt32) {k : ℕ} (hk : k < 65535) :
    SmallIds (onDatagram r (image.packet frameId (UInt16.ofNat k))).1.mFrameBuffer := by
  have hid : (image.hdr frameId (UInt16.ofNat k)).pkgId.toNat < 65535 := by
    rw [UdpImage.hdr_pkgId, UInt16.toNat_ofNat_of_lt' (lt_trans hk (by decide))]
    exact hk
  simp only [onDatagram, UdpImage.packet, ofBytes_toBytes_append]
  split_ifs
  · exact h
  · exact h
  · exact h
  · exact smallIds_udpAccept h hid _

theorem smallIds_of_reachable {w : UdpReceiverWorker} (h : udpSystem.Reachable w) :
    SmallIds w.mFrameBuffer := by
  refine h.invariant (P := fun w => SmallIds w.mFrameBuffer) .empty ?_
  intro w a w' hw _ hstep
  cases a with
  | initSocket ok =>
    cases hstep
    exact hw
  | closeSocket =>
    cases hstep
    show SmallIds (closeSocket w).mFrameBuffer
    rw [closeSocket]
    split_ifs
    · exact hw
    · exact .empty
  | datagram images k =>
    simp only [udpSystem, udpStep] at hstep
    split_ifs at hstep with hbound
    obtain ⟨raw, hraw, rfl⟩ := Option.map_eq_some_iff.mp hstep
    obtain ⟨image, frameId, k, hk, rfl⟩ := exists_packet (List.mem_of_getElem? hraw)
    exact smallIds_onDatagram hw image frameId hk

/-! ### A run that is sent whole -/

theorem not_filtered {last frameId : UInt32} (h : last.toNat ≤ frameId.toNat) :
    ¬ (0 < last ∧ frameId < last) := by
  rintro ⟨-, hlt⟩
  rw [UInt32.lt_iff_toNat_lt] at hlt
  omega

/-- The image is sent whole. -/
def UdpImage.Whole (image : UdpImage) : Prop := image.Sendable ∧ ∀ i, image.running i = true

theorem udpSendLoop_running {image : UdpImage} (hrun : ∀ i, image.running i = true)
    (frameId : UInt32) : ∀ (n : ℕ) (i : UInt16), udpSendLoop image frameId n i =
      (List.range n).map fun k => image.packet frameId (i + UInt16.ofNat k) := by
  intro n
  induction n with
  | zero =>
    intro i
    rfl
  | succ n ih =>
    intro i
    -- packet `k` of the rest is packet `k + 1` from `i` on
    have hnext : ∀ k, i + 1 + UInt16.ofNat k = i + UInt16.ofNat (k + 1) := by
      intro k
      rw [UInt16.ofNat_add, UInt16.add_assoc, UInt16.add_comm (UInt16.ofNat k)]
      rfl
    have hfirst : i + UInt16.ofNat 0 = i := by simp
    rw [udpSendLoop, hrun i, if_neg Bool.true_eq_false_eq_False, ih, List.range_succ_eq_map,
      List.map_cons, List.map_map, hfirst]
    simp only [Function.comp_def, hnext]

theorem UdpImage.Whole.sendFrame {image : UdpImage} (h : image.Whole) (frameId : UInt32) :
    udpSendFrame image frameId =
      (List.range image.pkgs).map fun k => image.packet frameId (UInt16.ofNat k) := by
  rw [udpSendFrame, udpSendLoop_running h.2, h.1.totalPkgs]
  simp

theorem udpOnReadyRead_append (raws raws' : List (List UInt8)) : ∀ r : Reassembly,
    udpOnReadyRead r (raws ++ raws') =
      ((udpOnReadyRead (udpOnReadyRead r raws).1 raws').1,
        (udpOnReadyRead r raws).2 ++ (udpOnReadyRead (udpOnReadyRead r raws).1 raws').2) := by
  induction raws with
  | nil =>
    intro r
    rfl
  | cons raw raws ih =>
    intro r
    rw [List.cons_append, udpOnReadyRead, ih, udpOnReadyRead]
    simp only [List.append_assoc]

theorem udpOnReadyRead_singleton (r : Reassembly) (raw : List UInt8) :
    udpOnReadyRead r [raw] = onDatagram r raw := by
  rw [udpOnReadyRead, udpOnReadyRead]
  simp

/-- Of an image of one packet, one datagram arrives. -/
theorem UdpImage.Whole.single {image : UdpImage} (h : image.Whole) {r : Reassembly} {frameId : UInt32}
    (hlast : r.mLastCompleteFrameId.toNat ≤ frameId.toNat) (hone : image.pkgs = 1) :
    udpOnReadyRead r (udpSendFrame image frameId) =
      (⟨cleanExpiredFrames r.mFrameBuffer frameId, frameId⟩, [⟨frameId, image.data⟩]) := by
  rw [h.sendFrame, hone]
  show udpOnReadyRead r [image.packet frameId 0] = _
  rw [udpOnReadyRead_singleton]
  exact onDatagram_single h.1 (not_filtered hlast) hone

/-! ### A receiver that is ready -/

/-- Of the frames collected at most the first packet is there. -/
def OnlyFirst (buffer : Std.ExtTreeMap UInt32 FramePackets) : Prop :=
  ∀ (frameId : UInt32) (pkgs : FramePackets), buffer[frameId]? = some pkgs → ∀ i ∈ pkgs, i = 0

/-- A frame with one of the ids `k`, .., 2 can be collected beside the others. -/
def Room (k : ℕ) (buffer : Std.ExtTreeMap UInt32 FramePackets) : Prop :=
  buffer.size ≤ 2 ∨ buffer.size ≤ 3 ∧ ∀ j, k ≤ j → j < 3 → UInt32.ofNat j ∈ buffer

/-- The receiver in front of frame `k`. -/
structure Ready (k : ℕ) (r : Reassembly) : Prop where
  last : r.mLastCompleteFrameId.toNat ≤ k
  first : OnlyFirst (cleanExpiredFrames r.mFrameBuffer (UInt32.ofNat k))
  room : k < 3 → Room k (cleanExpiredFrames r.mFrameBuffer (UInt32.ofNat k))

theorem OnlyFirst.submap {buffer rest : Std.ExtTreeMap UInt32 FramePackets}
    (h : OnlyFirst buffer) (hsub : Submap rest buffer) : OnlyFirst rest :=
  fun frameId pkgs hpkgs => h frameId pkgs (hsub frameId pkgs hpkgs)

theorem Room.size_le {k : ℕ} {buffer : Std.ExtTreeMap UInt32 FramePackets} (h : Room k buffer) :
    buffer.size ≤ 3 := by
  rcases h with h | h
  · exact Nat.le_succ_of_le h
  · exact h.1

theorem Room.succ {k : ℕ} {buffer : Std.ExtTreeMap UInt32 FramePackets} (h : Room k buffer) :
    Room (k + 1) buffer := by
  rcases h with h | ⟨h, hin⟩
  · exact .inl h
  · exact .inr ⟨h, fun j hj => hin j (Nat.le_of_succ_le hj)⟩

/-- Beside frame `k` at most two others are collected. -/
theorem Room.size_erase {k : ℕ} {buffer : Std.ExtTreeMap UInt32 FramePackets} (h : Room k buffer)
    (hk : k < 3) : (buffer.erase (UInt32.ofNat k)).size ≤ 2 := by
  rcases h with h | ⟨h, hin⟩
  · exact le_trans (Submap.erase_left _ _).size_le h
  · rw [Std.ExtTreeMap.size_erase, if_pos (Std.ExtTreeMap.contains_iff_mem.mpr (hin k le_rfl hk))]
    omega

theorem cleanExpiredFrames_small {buffer : Std.ExtTreeMap UInt32 FramePackets}
    (h : buffer.size ≤ 3) (current : UInt32) : cleanExpiredFrames buffer current = buffer :=
  if_pos h

/-- The frame being received is not dropped, unless its id is below 3. -/
theorem getElem?_cleanExpiredFrames_self {buffer : Std.ExtTreeMap UInt32 FramePackets}
    {frameId : UInt32} (h : 3 ≤ frameId.toNat ∨ buffer.size ≤ 3) :
    (cleanExpiredFrames buffer frameId)[frameId]? = buffer[frameId]? := by
  have hkept : ¬ (3 < buffer.size ∧ frameId < frameId - 3) := by
    rintro ⟨hsize, hlt⟩
    rcases h with hid | hsmall
    · rw [UInt32.lt_iff_toNat_lt, UInt32.toNat_sub_of_le _ _ (by
        rw [UInt32.le_iff_toNat_le]
        exact hid)] at hlt
      omega
    · omega
  rw [getElem?_cleanExpiredFrames, if_neg hkept]

/-- The receiver after the first `n` packets of a frame: beside them only what was collected
before. -/
structure Collecting (before : Std.ExtTreeMap UInt32 FramePackets) (last frameId : UInt32)
    (data : List UInt8) (n : ℕ) (r : Reassembly) : Prop where
  last : r.mLastCompleteFrameId = last
  entry : r.mFrameBuffer[frameId]? = some (packetsBelow data n)
  rest : Submap (r.mFrameBuffer.erase frameId) (before.erase frameId)

/-- A stale first packet is overwritten by the new one. -/
theorem insert_first {pkgs : FramePackets} (h : ∀ i ∈ pkgs, i = 0) (data : List UInt8) :
    pkgs.insert (UInt16.ofNat 0) (chunk data 0) = packetsBelow data 1 := by
  refine Std.ExtTreeMap.ext_getElem? ?_
  intro i
  rw [packetsBelow, Std.ExtTreeMap.getElem?_insert, Std.ExtTreeMap.getElem?_insert]
  split_ifs with heq
  · rfl
  · have hi : i ∉ pkgs := by
      intro hi
      rw [h i hi] at heq
      exact heq Std.ReflCmp.compare_self
    rw [getElem?_of_not_mem hi]
    exact Std.ExtTreeMap.getElem?_empty.symm

section

variable {image : UdpImage} {r : Reassembly} {k : ℕ}

/-- The first packet of an image that has more. -/
theorem Ready.firstPacket (h : Ready k r) (himage : image.Whole) (hk : k < 2 ^ 32)
    (hmany : image.pkgs ≠ 1) :
    ∃ r', onDatagram r (image.packet (UInt32.ofNat k) (UInt16.ofNat 0)) = (r', []) ∧
      Collecting (cleanExpiredFrames r.mFrameBuffer (UInt32.ofNat k)) r.mLastCompleteFrameId
        (UInt32.ofNat k) image.data 1 r' := by
  have hid : (UInt32.ofNat k).toNat = k := UInt32.toNat_ofNat_of_lt' hk
  have hpos := himage.1.pkgs_pos
  have hpkgs : ((cleanExpiredFrames r.mFrameBuffer (UInt32.ofNat k)).getD (UInt32.ofNat k) ∅).insert
      (UInt16.ofNat 0) (chunk image.data 0) = packetsBelow image.data 1 := by
    refine insert_first ?_ _
    intro i hi
    rw [Std.ExtTreeMap.getD_eq_getD_getElem?] at hi
    cases hold : (cleanExpiredFrames r.mFrameBuffer (UInt32.ofNat k))[UInt32.ofNat k]? with
    | none =>
      rw [hold, Option.getD_none] at hi
      exact absurd hi Std.ExtTreeMap.not_mem_empty
    | some pkgs =>
      rw [hold, Option.getD_some] at hi
      exact h.first _ pkgs hold i hi
  have hstep := onDatagram_multi himage.1 (not_filtered (hid.symm ▸ h.last)) hmany hpos hpkgs
  rw [size_packetsBelow _ (by decide), if_neg (Ne.symm hmany)] at hstep
  exact ⟨_, hstep, rfl, Std.ExtTreeMap.getElem?_insert_self, Submap.erase_insert _ _ _⟩

/-- One more packet of the frame being received. -/
theorem Collecting.step {before : Std.ExtTreeMap UInt32 FramePackets} {last frameId : UInt32}
    {n : ℕ} (h : Collecting before last frameId image.data n r) (himage : image.Whole)
    (hlast : last.toNat ≤ frameId.toNat) (hmany : image.pkgs ≠ 1)
    (hkept : 3 ≤ frameId.toNat ∨ (before.erase frameId).size ≤ 2) (hn : n < image.pkgs) :
    ∃ buffer : Std.ExtTreeMap UInt32 FramePackets,
      Collecting before last frameId image.data (n + 1) ⟨buffer, last⟩ ∧
      onDatagram r (image.packet frameId (UInt16.ofNat n)) =
        if n + 1 = image.pkgs then (⟨buffer.erase frameId, frameId⟩, [⟨frameId, image.data⟩])
        else (⟨buffer, last⟩, []) := by
  have hmax := himage.1.pkgs_le
  have hroom : 3 ≤ frameId.toNat ∨ r.mFrameBuffer.size ≤ 3 := by
    rcases hkept with hid | hsmall
    · exact .inl hid
    · have hrest := h.rest.size_le
      have herase := @Std.ExtTreeMap.size_le_size_erase _ _ compare r.mFrameBuffer _ frameId
      exact .inr (by omega)
  have hpkgs : ((cleanExpiredFrames r.mFrameBuffer frameId).getD frameId ∅).insert (UInt16.ofNat n)
      (chunk image.data n) = packetsBelow image.data (n + 1) := by
    rw [Std.ExtTreeMap.getD_eq_getD_getElem?, getElem?_cleanExpiredFrames_self hroom, h.entry,
      Option.getD_some]
    rfl
  have hclean := (submap_cleanExpiredFrames r.mFrameBuffer frameId).erase frameId
  have hstep := onDatagram_multi himage.1 (not_filtered (h.last ▸ hlast)) hmany hn hpkgs
  rw [size_packetsBelow _ (by omega : n + 1 ≤ 65536), h.last] at hstep
  refine ⟨(cleanExpiredFrames r.mFrameBuffer frameId).insert frameId
    (packetsBelow image.data (n + 1)), ⟨rfl, Std.ExtTreeMap.getElem?_insert_self,
    (Submap.erase_insert _ _ _).trans (hclean.trans h.rest)⟩, hstep.trans ?_⟩
  by_cases hend : n + 1 = image.pkgs
  · rw [if_pos hend, if_pos hend, hend, complete_packetsBelow (by omega) image.length_le]
  · rw [if_neg hend, if_neg hend]

/-- The first packets of an image are collected without a signal. -/
theorem Ready.firstPackets (h : Ready k r) (himage : image.Whole) (hk : k < 2 ^ 32)
    (hmany : image.pkgs ≠ 1)
    (hkept : 3 ≤ k ∨
      ((cleanExpiredFrames r.mFrameBuffer (UInt32.ofNat k)).erase (UInt32.ofNat k)).size ≤ 2)
    {n : ℕ} (hn : n + 1 < image.pkgs) :
    ∃ r', udpOnReadyRead r ((List.range (n + 1)).map fun i =>
        image.packet (UInt32.ofNat k) (UInt16.ofNat i)) = (r', []) ∧
      Collecting (cleanExpiredFrames r.mFrameBuffer (UInt32.ofNat k)) r.mLastCompleteFrameId
        (UInt32.ofNat k) image.data (n + 1) r' := by
  have hid : (UInt32.ofNat k).toNat = k := UInt32.toNat_ofNat_of_lt' hk
  induction n with
  | zero =>
    obtain ⟨r', hfirst, hcollecting⟩ := h.firstPacket himage hk hmany
    exact ⟨r', by rw [← hfirst, ← udpOnReadyRead_singleton]; rfl, hcollecting⟩
  | succ n ih =>
    obtain ⟨r', hread, hcollecting⟩ := ih (by omega)
    obtain ⟨buffer, hnext, hstep⟩ := hcollecting.step himage (hid.symm ▸ h.last) hmany
      (hid.symm ▸ hkept) (by omega : n + 1 < image.pkgs)
    rw [if_neg (by omega)] at hstep
    refine ⟨_, ?_, hnext⟩
    rw [List.range_succ, List.map_append, udpOnReadyRead_append, hread, List.map_singleton,
      udpOnReadyRead_singleton, hstep, List.append_nil]

/-- **A frame** is received, and the receiver is ready for the next one. -/
theorem Ready.frame (h : Ready k r) (himage : image.Whole) (hk : k < 2 ^ 32) :
    ∃ r', udpOnReadyRead r (udpSendFrame image (UInt32.ofNat k)) =
        (r', [⟨UInt32.ofNat k, image.data⟩]) ∧ Ready (k + 1) r' := by
  have hid : (UInt32.ofNat k).toNat = k := UInt32.toNat_ofNat_of_lt' hk
  by_cases hone : image.pkgs = 1
  · refine ⟨_, himage.single (hid.symm ▸ h.last) hone, ?_⟩
    refine ⟨by rw [hid]; exact Nat.le_succ k, h.first.submap (submap_cleanExpiredFrames _ _), ?_⟩
    intro hlow
    have hroom := h.room (by omega)
    rw [cleanExpiredFrames_small hroom.size_le]
    exact hroom.succ
  · have hkept : 3 ≤ k ∨
        ((cleanExpiredFrames r.mFrameBuffer (UInt32.ofNat k)).erase (UInt32.ofNat k)).size ≤ 2 := by
      rcases Nat.lt_or_ge k 3 with hlow | hhigh
      · exact .inr ((h.room hlow).size_erase hlow)
      · exact .inl hhigh
    have hpos := himage.1.pkgs_pos
    obtain ⟨n, hn⟩ : ∃ n, image.pkgs = n + 1 + 1 := ⟨image.pkgs - 2, by omega⟩
    obtain ⟨r', hread, hcollecting⟩ :=
      h.firstPackets himage hk hone hkept (by omega : n + 1 < image.pkgs)
    obtain ⟨buffer, hnext, hstep⟩ := hcollecting.step himage (hid.symm ▸ h.last) hone
      (hid.symm ▸ hkept) (by omega : n + 1 < image.pkgs)
    rw [if_pos hn.symm] at hstep
    refine ⟨⟨buffer.erase (UInt32.ofNat k), UInt32.ofNat k⟩, ?_, ?_⟩
    · rw [himage.sendFrame, hn, List.range_succ, List.map_append, udpOnReadyRead_append, hread,
        List.map_singleton, udpOnReadyRead_singleton, hstep, List.nil_append]
    · have hrest := hnext.rest
      have hclean := (submap_cleanExpiredFrames (buffer.erase (UInt32.ofNat k))
        (UInt32.ofNat (k + 1))).trans hrest
      refine ⟨by rw [hid]; exact Nat.le_succ k,
        h.first.submap (hclean.trans (Submap.erase_left _ _)), ?_⟩
      intro hlow
      exact .inl (le_trans hclean.size_le ((h.room (by omega)).size_erase (by omega)))

end

/-- **A run** in front of which the receiver is ready is received whole. -/
theorem Ready.run {images : List UdpImage} (himages : ∀ image ∈ images, image.Whole) :
    ∀ {k : ℕ} {r : Reassembly}, Ready k r → k + images.length ≤ 2 ^ 32 →
      (udpOnReadyRead r (udpSendAll (UInt32.ofNat k) images)).2.map ImageSignal.jpegData =
        images.map UdpImage.data := by
  induction images with
  | nil =>
    intro k r _ _
    rfl
  | cons image images ih =>
    intro k r h hk
    rw [List.length_cons] at hk
    obtain ⟨r', hframe, hready⟩ := h.frame (himages image List.mem_cons_self) (by omega)
    have hnext : UInt32.ofNat k + 1 = UInt32.ofNat (k + 1) := (UInt32.ofNat_add k 1).symm
    rw [udpSendAll, udpOnReadyRead_append, hframe, hnext, List.map_append,
      ih (fun sent hsent => himages sent (List.mem_cons_of_mem _ hsent)) hready (by omega)]
    rfl

/-! ### Restarts -/

/-- Every new run from frame id 0 is received: its images are emitted, and nothing else. -/
def Recovers (r : Reassembly) : Prop :=
  ∀ images : List UdpImage, (∀ image ∈ images, image.Whole) → images.length ≤ 2 ^ 32 →
    (udpOnReadyRead r (udpSendAll 0 images)).2.map ImageSignal.jpegData = images.map UdpImage.data

/-- No frame with an id above 0 was completed last, and of what `cleanExpiredFrames(0)` leaves of
the frame buffer, each frame is at most its first packet, and there are at most two
frames, or the frames 0, 1 and 2. -/
structure Restartable (r : Reassembly) : Prop where
  last : r.mLastCompleteFrameId = 0
  first : OnlyFirst (cleanExpiredFrames r.mFrameBuffer 0)
  room : (cleanExpiredFrames r.mFrameBuffer 0).size ≤ 2 ∨
    ∀ j < 3, UInt32.ofNat j ∈ cleanExpiredFrames r.mFrameBuffer 0

/-- `cleanExpiredFrames(0)` leaves three frames at most. -/
theorem size_cleanExpiredFrames_zero (buffer : Std.ExtTreeMap UInt32 FramePackets) :
    (cleanExpiredFrames buffer 0).size ≤ 3 := by
  rcases Nat.lt_or_ge 3 buffer.size with hbig | hsmall
  · -- the ids from -3 on, as 32-bit numbers
    have hkeys : ∀ id ∈ cleanExpiredFrames buffer 0,
        id ∈ [(4294967293 : UInt32), 4294967294, 4294967295] := by
      intro id hid
      obtain ⟨pkgs, hpkgs⟩ := getElem?_of_mem hid
      rw [getElem?_cleanExpiredFrames] at hpkgs
      split_ifs at hpkgs with hold
      have hge : ¬ id.toNat < 4294967293 := fun hlt =>
        hold ⟨hbig, UInt32.lt_iff_toNat_lt.mpr hlt⟩
      have hlt := id.toNat_lt
      simp only [List.mem_cons, List.not_mem_nil, or_false, ← UInt32.toNat_inj,
        UInt32.reduceToNat]
      omega
    exact size_le_of_keys hkeys
  · exact le_trans (submap_cleanExpiredFrames buffer 0).size_le hsmall

theorem Restartable.ready {r : Reassembly} (h : Restartable r) : Ready 0 r where
  last := by
    rw [h.last]
    exact le_rfl
  first := h.first
  room := by
    intro _
    rcases h.room with hsmall | hin
    · exact .inl hsmall
    · exact .inr ⟨size_cleanExpiredFrames_zero _, fun j _ hj => hin j hj⟩

theorem udpSendAll_append (images images' : List UdpImage) : ∀ n : UInt32,
    udpSendAll n (images ++ images') =
      udpSendAll n images ++ udpSendAll (n + UInt32.ofNat images.length) images' := by
  induction images with
  | nil =>
    intro n
    simp [udpSendAll]
  | cons image images ih =>
    intro n
    have hnext : n + 1 + UInt32.ofNat images.length = n + UInt32.ofNat (images.length + 1) := by
      rw [UInt32.ofNat_add, UInt32.add_assoc, UInt32.add_comm 1]
      rfl
    rw [List.cons_append, udpSendAll, udpSendAll, ih, hnext, List.append_assoc, List.length_cons]

/-- An image that is sent whole. -/
def UdpImage.of (data : List UInt8) : UdpImage := ⟨data, 0, fun _ => true⟩

theorem UdpImage.whole_of {data : List UInt8} {n : ℕ} (hlen : data.length = n + 1)
    (hmax : n < 65535 * 1400) : (UdpImage.of data).Whole := by
  refine ⟨⟨List.ne_nil_of_length_eq_add_one hlen, ?_⟩, fun _ => rfl⟩
  show data.length ≤ 65535 * 1400
  rw [hlen]
  exact hmax

theorem UdpImage.pkgs_of {data : List UInt8} {n k : ℕ} (hlen : data.length = n * 1400 + k + 1)
    (hk : k < 1400) : (UdpImage.of data).pkgs = n + 1 := by
  show (data.length + 1399) / 1400 = n + 1
  rw [hlen]
  omega

/-- An image of one byte. -/
def smallImage : UdpImage := .of [0]

theorem smallImage_whole : smallImage.Whole := UdpImage.whole_of (n := 0) rfl (by omega)

/-- Small images leave the frames collected as they are. -/
theorem after_small {r : Reassembly} (hlast : r.mLastCompleteFrameId = 0) {k : ℕ}
    (hk : k < 2 ^ 32) :
    ∃ r' os, udpOnReadyRead r (udpSendAll 0 (List.replicate k smallImage)) = (r', os) ∧
      os.map ImageSignal.jpegData = (List.replicate k smallImage).map UdpImage.data ∧
      r'.mLastCompleteFrameId.toNat ≤ k ∧
      cleanExpiredFrames r'.mFrameBuffer (UInt32.ofNat k) =
        cleanExpiredFrames r.mFrameBuffer 0 := by
  induction k with
  | zero => exact ⟨r, [], rfl, rfl, by rw [hlast]; exact le_rfl, rfl⟩
  | succ k ih =>
    obtain ⟨r', os, hread, hos, hlast', hclean⟩ := ih (by omega)
    have hid : (UInt32.ofNat k).toNat = k := UInt32.toNat_ofNat_of_lt' (Nat.lt_of_succ_lt hk)
    have hsingle := smallImage_whole.single (hid.symm ▸ hlast') rfl
    have hsend : udpSendAll 0 (List.replicate k smallImage ++ [smallImage]) =
        udpSendAll 0 (List.replicate k smallImage) ++ udpSendFrame smallImage (UInt32.ofNat k) := by
      rw [udpSendAll_append, List.length_replicate, UInt32.zero_add, udpSendAll, udpSendAll,
        List.append_nil]
    refine ⟨⟨cleanExpiredFrames r.mFrameBuffer 0, UInt32.ofNat k⟩, os ++ [⟨UInt32.ofNat k, [0]⟩],
      ?_, ?_, ?_, ?_⟩
    · rw [List.replicate_succ', hsend, udpOnReadyRead_append, hread, hsingle, hclean]
      rfl
    · rw [List.replicate_succ', List.map_append, List.map_append, hos]
      rfl
    · rw [hid]
      exact Nat.le_succ k
    · exact cleanExpiredFrames_small (size_cleanExpiredFrames_zero _) _

namespace Recovers

variable {r : Reassembly}

theorem last (h : Recovers r) : r.mLastCompleteFrameId = 0 := by
  by_contra hne
  have hpos : 0 < r.mLastCompleteFrameId := by
    rw [UInt32.lt_iff_toNat_lt, UInt32.toNat_zero]
    refine Nat.pos_of_ne_zero ?_
    intro hzero
    exact hne (UInt32.toNat_inj.mp hzero)
  have hsend : udpSendAll 0 [smallImage] = [smallImage.packet 0 (UInt16.ofNat 0)] := rfl
  have hread := h [smallImage] (by simpa using smallImage_whole) (by decide)
  have hold := @onDatagram_old r smallImage 0 smallImage_whole.1 ⟨hpos, hpos⟩ 0
    smallImage_whole.1.pkgs_pos
  rw [hsend, udpOnReadyRead_singleton, hold] at hread
  cases hread

/-- Behind small images the next one is received. -/
theorem frame (h : Recovers r) {image : UdpImage} (himage : image.Whole) {k : ℕ}
    (hk : k < 2 ^ 32) :
    ∃ r', r'.mLastCompleteFrameId.toNat ≤ k ∧
      cleanExpiredFrames r'.mFrameBuffer (UInt32.ofNat k) = cleanExpiredFrames r.mFrameBuffer 0 ∧
      (udpOnReadyRead r' (udpSendFrame image (UInt32.ofNat k))).2.map ImageSignal.jpegData =
        [image.data] := by
  obtain ⟨r', os, hread, hos, hlast, hclean⟩ := after_small h.last hk
  refine ⟨r', hlast, hclean, ?_⟩
  have hall := h (List.replicate k smallImage ++ [image]) ?_ ?_
  · rw [udpSendAll_append, udpOnReadyRead_append, hread, List.map_append, List.map_append, hos,
      List.length_replicate, UInt32.zero_add, udpSendAll, udpSendAll, List.append_nil] at hall
    exact List.append_cancel_left hall
  · intro sent hsent
    rcases List.mem_append.mp hsent with hsent | hsent
    · rw [List.eq_of_mem_replicate hsent]
      exact smallImage_whole
    · rw [List.mem_singleton.mp hsent]
      exact himage
  · rw [List.length_append, List.length_replicate, List.length_singleton]
    omega

/-- A frame of two packets, of which the first is dropped, is not received. -/
theorem room (h : Recovers r) : (cleanExpiredFrames r.mFrameBuffer 0).size ≤ 2 ∨
    ∀ j < 3, UInt32.ofNat j ∈ cleanExpiredFrames r.mFrameBuffer 0 := by
  by_contra hno
  simp only [not_or, not_le, not_forall] at hno
  obtain ⟨hsize, j, hj, hout⟩ := hno
  have hlen : (List.replicate 1401 (0 : UInt8)).length = 1400 + 1 := List.length_replicate
  obtain ⟨image, himage, hpkgs⟩ : ∃ image : UdpImage, image.Whole ∧ image.pkgs = 2 :=
    ⟨_, UdpImage.whole_of hlen (by omega), UdpImage.pkgs_of (n := 1) (k := 0) hlen (by omega)⟩
  have hmany : image.pkgs ≠ 1 := by omega
  obtain ⟨r', hlast, hclean, hread⟩ := h.frame himage (by omega : j < 2 ^ 32)
  have hid : (UInt32.ofNat j).toNat = j := UInt32.toNat_ofNat_of_lt' (lt_trans hj (by decide))
  -- one packet is never the whole frame
  have hone : ∀ (i : UInt16) (payload : List UInt8),
      ((∅ : FramePackets).insert i payload).size ≠ image.pkgs := by
    intro i payload
    rw [hpkgs, Std.ExtTreeMap.size_insert, if_neg (by simp), Std.ExtTreeMap.size_empty]
    decide
  have hfirst := onDatagram_multi himage.1 (not_filtered (hid.symm ▸ hlast)) hmany
    (by omega : 0 < image.pkgs) rfl
  rw [hclean, Std.ExtTreeMap.getD_eq_getD_getElem?, getElem?_of_not_mem hout, Option.getD_none,
    if_neg (hone _ _)] at hfirst
  -- behind it there are four frames, and the one being received counts as expired
  have hexpired : ∀ pkgs : FramePackets, (cleanExpiredFrames
      ((cleanExpiredFrames r.mFrameBuffer 0).insert (UInt32.ofNat j) pkgs)
        (UInt32.ofNat j))[UInt32.ofNat j]? = none := by
    intro pkgs
    rw [getElem?_cleanExpiredFrames, if_pos]
    constructor
    · rw [Std.ExtTreeMap.size_insert, if_neg (by rwa [Std.ExtTreeMap.contains_iff_mem])]
      omega
    · interval_cases j <;> decide
  have hsecond := onDatagram_multi himage.1 (r := ⟨(cleanExpiredFrames r.mFrameBuffer 0).insert
    (UInt32.ofNat j) ((∅ : FramePackets).insert (UInt16.ofNat 0) (chunk image.data 0)),
    r'.mLastCompleteFrameId⟩) (not_filtered (hid.symm ▸ hlast)) hmany
    (by omega : 1 < image.pkgs) rfl
  rw [Std.ExtTreeMap.getD_eq_getD_getElem?, hexpired, Option.getD_none, if_neg (hone _ _)]
    at hsecond
  rw [himage.sendFrame, hpkgs] at hread
  have hrange : (List.range 2).map (fun i => image.packet (UInt32.ofNat j) (UInt16.ofNat i)) =
      [image.packet (UInt32.ofNat j) (UInt16.ofNat 0),
        image.packet (UInt32.ofNat j) (UInt16.ofNat 1)] := rfl
  rw [hrange, udpOnReadyRead, hfirst, udpOnReadyRead_singleton, hsecond] at hread
  cases hread

/-- The payloads behind the first packet are those collected before. -/
theorem complete_insert_first (pkgs : FramePackets) (payload : List UInt8) {n : ℕ}
    (hn : n < 65536) :
    complete (pkgs.insert (UInt16.ofNat 0) payload) (n + 1) =
      payload ++ (List.range n).flatMap fun k => pkgs.getD (UInt16.ofNat (k + 1)) [] := by
  have hrest : ∀ k ∈ List.range n,
      (pkgs.insert (UInt16.ofNat 0) payload).getD (UInt16.ofNat (k + 1)) [] =
        pkgs.getD (UInt16.ofNat (k + 1)) [] := by
    intro k hk
    rw [List.mem_range] at hk
    have hne : UInt16.ofNat 0 ≠ UInt16.ofNat (k + 1) := by
      intro heq
      have hnat := congrArg UInt16.toNat heq
      rw [UInt16.toNat_ofNat_of_lt' (by omega : k + 1 < 65536)] at hnat
      cases hnat
    rw [Std.ExtTreeMap.getD_insert, if_neg (by simpa using hne)]
  rw [complete, List.range_succ_eq_map, List.flatMap_cons, List.flatMap_map,
    Std.ExtTreeMap.getD_insert_self, List.flatMap_congr hrest]

/-- With the first packet there are two at least, and no more than a frame can have. -/
theorem size_insert_first {pkgs : FramePackets} (hids : ∀ i ∈ pkgs, i.toNat < 65535) {i : UInt16}
    (hi : i ∈ pkgs) (hne : i ≠ 0) (payload : List UInt8) :
    ∃ n, (pkgs.insert (UInt16.ofNat 0) payload).size = n + 2 ∧ n < 65534 := by
  have htwo : [(0 : UInt16), i].length ≤ (pkgs.insert (UInt16.ofNat 0) payload).size := by
    refine le_size_of_keys (by simpa using Ne.symm hne) ?_
    intro j hj
    rw [List.mem_cons, List.mem_singleton] at hj
    rcases hj with rfl | rfl
    · exact Std.ExtTreeMap.mem_insert_self
    · exact Std.ExtTreeMap.mem_insert.mpr (.inr hi)
  have hmost : (pkgs.insert (UInt16.ofNat 0) payload).size ≤
      ((List.range 65535).map UInt16.ofNat).length := by
    refine size_le_of_keys ?_
    intro j hj
    refine List.mem_map.mpr ⟨j.toNat, List.mem_range.mpr ?_, UInt16.ofNat_toNat⟩
    rcases Std.ExtTreeMap.mem_insert.mp hj with heq | hj
    · rw [Std.LawfulEqCmp.compare_eq_iff_eq] at heq
      rw [← heq]
      decide
    · exact hids j hj
  rw [List.length_map, List.length_range] at hmost
  simp only [List.length_cons, List.length_nil] at htwo
  exact ⟨(pkgs.insert (UInt16.ofNat 0) payload).size - 2, by omega, by omega⟩

/-- A frame of which more than the first packet was collected before is mixed with it. -/
theorem first (h : Recovers r) (hids : SmallIds r.mFrameBuffer) :
    OnlyFirst (cleanExpiredFrames r.mFrameBuffer 0) := by
  intro frameId pkgs hpkgs i hi
  by_contra hne
  have hsmall := hids.submap (submap_cleanExpiredFrames r.mFrameBuffer 0) frameId pkgs hpkgs
  obtain ⟨n, hsize, hn⟩ := size_insert_first hsmall hi hne (List.replicate 1400 0)
  -- an image that differs in the first byte behind its first packet
  let old := (List.range (n + 1)).flatMap fun k => pkgs.getD (UInt16.ofNat (k + 1)) []
  obtain ⟨b, hb⟩ : ∃ b : UInt8, old.head? ≠ some b := by
    by_cases hzero : old.head? = some 0
    · exact ⟨1, by rw [hzero]; decide⟩
    · exact ⟨0, hzero⟩
  let data := List.replicate 1400 (0 : UInt8) ++ b :: List.replicate (n * 1400) 0
  have hlen : data.length = (n + 1) * 1400 + 0 + 1 := by
    rw [List.length_append, List.length_cons, List.length_replicate, List.length_replicate]
    omega
  have himage : (UdpImage.of data).Whole := UdpImage.whole_of hlen (by omega)
  have hcount : (UdpImage.of data).pkgs = n + 2 := UdpImage.pkgs_of (n := n + 1) (k := 0) hlen (by decide)
  have hchunk : chunk (UdpImage.of data).data 0 = List.replicate 1400 0 :=
    List.take_left' List.length_replicate
  obtain ⟨r', hlast, hclean, hread⟩ := h.frame himage frameId.toNat_lt
  rw [UInt32.ofNat_toNat] at hclean hread
  -- the first packet completes the frame
  have hget : ((cleanExpiredFrames r'.mFrameBuffer frameId).getD frameId ∅).insert
      (UInt16.ofNat 0) (chunk (UdpImage.of data).data 0) =
        pkgs.insert (UInt16.ofNat 0) (List.replicate 1400 0) := by
    rw [hclean, hchunk, Std.ExtTreeMap.getD_eq_getD_getElem?, hpkgs, Option.getD_some]
  have hfirst := onDatagram_multi himage.1 (not_filtered hlast) (by omega) (by omega) hget
  rw [hsize, hcount, if_pos rfl, complete_insert_first _ _ (by omega : n + 1 < 65536)] at hfirst
  rw [himage.sendFrame, hcount, List.range_succ_eq_map, List.map_cons, udpOnReadyRead, hfirst]
    at hread
  have hmixed : List.replicate 1400 0 ++ old = data := (List.cons.inj hread).1
  have hold : old = b :: List.replicate (n * 1400) 0 := List.append_cancel_left hmixed
  rw [hold] at hb
  exact hb rfl

end Recovers

/-- **Restarts**: in every reachable state, every new run is received exactly if the receiver
has forgotten enough of the earlier ones. -/
theorem restart_iff {w : UdpReceiverWorker} (h : udpSystem.Reachable w) :
    Recovers w.toReassembly ↔ Restartable w.toReassembly := by
  constructor
  · intro hrecovers
    exact ⟨hrecovers.last, hrecovers.first (smallIds_of_reachable h), hrecovers.room⟩
  · intro hrestartable images himages hlength
    exact hrestartable.ready.run himages (by rwa [Nat.zero_add])

/-- An image of two packets arrives but for its last one. -/
theorem restart_iff_partial : ∃ w, udpSystem.run .new [.initSocket true,
      .datagram [.of (List.replicate 1401 0)] 0] = some w ∧
    w.mFrameBuffer.keys = [0] ∧ (Recovers w.toReassembly ↔ Restartable w.toReassembly) := by
  have hkeys : (udpSystem.run .new [.initSocket true,
      .datagram [.of (List.replicate 1401 0)] 0]).map (fun w => w.mFrameBuffer.keys) =
        some [0] := by decide +kernel
  obtain ⟨w, hrun, hkeys⟩ := Option.map_eq_some_iff.mp hkeys
  exact ⟨w, hrun, hkeys, restart_iff (.of_run hrun)⟩

/-- Two images are received, the device restarts, and the receiver's socket is opened anew. -/
def restarted : List UdpAction :=
  [.initSocket true, .datagram [smallImage, smallImage] 0, .datagram [smallImage, smallImage] 1,
    .closeSocket, .initSocket true]

/-- `closeSocket` keeps `m_lastCompleteFrameId`, and the first image of the new run is ignored. -/
theorem restart_ignored : ∃ w, udpSystem.Reachable w ∧ w.mLastCompleteFrameId = 1 ∧
    (udpOnReadyRead w.toReassembly (udpSendAll 0 [smallImage])).2 = [] ∧
    ¬ Recovers w.toReassembly := by
  have hread : (udpSystem.run .new restarted).map (fun w => (w.mLastCompleteFrameId,
      (udpOnReadyRead w.toReassembly (udpSendAll 0 [smallImage])).2)) = some (1, []) := by
    decide +kernel
  obtain ⟨w, hrun, hw⟩ := Option.map_eq_some_iff.mp hread
  rw [Prod.mk.injEq] at hw
  refine ⟨w, .of_run hrun, hw.1, hw.2, ?_⟩
  intro hrecovers
  have hall := hrecovers [smallImage] (by simpa using smallImage_whole) (by decide)
  rw [hw.2] at hall
  cases hall

end Sentry
