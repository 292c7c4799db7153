/-
UDP video from end to end (`src/net/udp_send.c`,
`QT/Desktop/src/net/UdpReceiverWorker.cpp`).

`Udp_Send_Frame` fills the headers of its packets as `Tcp_Send_Frame` does, and each
packet is a datagram: it may get lost, come twice or overtake others.

* `udpSendFrame`, `udpSendAll` — the datagrams of one image, and of one after the other;
* `udpOnReadyRead` — the receiver on the datagrams that arrive;
* `frameIds_sorted` — the frame ids of its images never decrease, whatever arrives;
* `Assembling` — what the frame buffer holds of a run of the sender;
* `udp_integrity` — every image the receiver emits is one that was sent.
-/
import SentrySystem.Lib.MapSize
import SentrySystem.TcpUpload

namespace Sentry

open FrameHeader MapSize

/-! ### The code -/

/-- What one call of `Udp_Send_Frame` is given: the memory at `send_data`, the clock, and
`running` as it is read before each packet. -/
structure UdpImage where
  data : List UInt8
  ts : UInt64
  running : UInt16 → Bool

/-- `hdr` of packet `i`. -/
def UdpImage.hdr (image : UdpImage) (frameId : UInt32) (i : UInt16) : FrameHeader :=
  packetHeader frameId (UInt32.ofNat image.data.length) .image image.ts i

/-- What `send_packet_optimized` sends of packet `i`. -/
def UdpImage.packet (image : UdpImage) (frameId : UInt32) (i : UInt16) : List UInt8 :=
  (image.hdr frameId i).toBytes ++
    (image.data.drop (i.toUInt32 * tcpChunkSize).toNat).take (image.hdr frameId i).dataLen.toNat

/-- The last `n` rounds of the loop, from packet `i` on. -/
def udpSendLoop (image : UdpImage) (frameId : UInt32) : ℕ → UInt16 → List (List UInt8)
  | 0, _ => []
  | n + 1, i =>
    if image.running i = false then []
    else image.packet frameId i :: udpSendLoop image frameId n (i + 1)

/-- `Udp_Send_Frame`: the datagrams it sends. -/
def udpSendFrame (image : UdpImage) (frameId : UInt32) : List (List UInt8) :=
  udpSendLoop image frameId (totalPkgs (UInt32.ofNat image.data.length)).toNat 0

/-- One image after the other; each call increments `current_frame_id`. -/
def udpSendAll (frameId : UInt32) : List UdpImage → List (List UInt8)
  | [] => []
  | image :: images => udpSendFrame image frameId ++ udpSendAll (frameId + 1) images

/-- The signal `image_dataReceived`, with the frame id of the datagram that completed it. -/
structure ImageSignal where
  frameId : UInt32
  jpegData : List UInt8
  deriving DecidableEq, Repr

/-- `dispatchFrame` of `UdpReceiverWorker`. -/
def udpDispatchFrame (type frameId : UInt32) (data : List UInt8) : List ImageSignal :=
  if type = FileType.image.code then [⟨frameId, data⟩] else []

/-- What `onReadyRead` does with the header and the payload of a datagram;
`cleanExpiredFrames` is that of `TcpControlWorker`. -/
def udpAccept (r : Reassembly) (hdr : FrameHeader) (payload : List UInt8) :
    Reassembly × List ImageSignal :=
  if 0 < r.mLastCompleteFrameId ∧ hdr.frameId < r.mLastCompleteFrameId then (r, [])
  else
    let buffer := cleanExpiredFrames r.mFrameBuffer hdr.frameId
    if hdr.pkgCnt ≤ 1 then
      (⟨buffer, hdr.frameId⟩, udpDispatchFrame hdr.type hdr.frameId payload)
    else
      let pkgs := (buffer.getD hdr.frameId ∅).insert hdr.pkgId payload
      let buffer := buffer.insert hdr.frameId pkgs
      if pkgs.size = hdr.pkgCnt.toNat then
        (⟨buffer.erase hdr.frameId, hdr.frameId⟩,
          udpDispatchFrame hdr.type hdr.frameId (complete pkgs hdr.pkgCnt.toNat))
      else (⟨buffer, r.mLastCompleteFrameId⟩, [])

/-- One round of the loop of `onReadyRead`. -/
def onDatagram (r : Reassembly) (raw : List UInt8) : Reassembly × List ImageSignal :=
  if raw.length < frameHeaderSize then (r, [])
  else if validateFrameHeader raw = false then (r, [])
  else
    let hdr := ofBytes raw
    if raw.length < frameHeaderSize + hdr.dataLen.toNat then (r, [])
    else udpAccept r hdr ((raw.drop frameHeaderSize).take hdr.dataLen.toNat)

/-- `onReadyRead`, with the signals it emits. -/
def udpOnReadyRead (r : Reassembly) : List (List UInt8) → Reassembly × List ImageSignal
  | [] => (r, [])
  | raw :: raws =>
    let first := onDatagram r raw
    let rest := udpOnReadyRead first.1 raws
    (rest.1, first.2 ++ rest.2)

/-- A new `UdpReceiverWorker`. -/
def Reassembly.fresh : Reassembly := ⟨∅, 0⟩

/-! ### The frame ids -/

/-- A signal carries the frame id the receiver remembers, which is not below the one it
remembered before. -/
structure Advances (r r' : Reassembly) (os : List ImageSignal) : Prop where
  le : r.mLastCompleteFrameId ≤ r'.mLastCompleteFrameId
  frameId : ∀ e ∈ os, e.frameId = r'.mLastCompleteFrameId

/-- The filter stops frames older than the last complete one. -/
theorem le_of_not_filtered {last frameId : UInt32} (h : ¬ (0 < last ∧ frameId < last)) :
    last ≤ frameId := by
  simp only [UInt32.lt_iff_toNat_lt, UInt32.le_iff_toNat_le, UInt32.toNat_zero] at h ⊢
  omega

theorem advances_udpAccept (r : Reassembly) (hdr : FrameHeader) (payload : List UInt8) :
    Advances r (udpAccept r hdr payload).1 (udpAccept r hdr payload).2 := by
  have hdispatch : ∀ data, ∀ e ∈ udpDispatchFrame hdr.type hdr.frameId data,
      e.frameId = hdr.frameId := by
    intro data e he
    rw [udpDispatchFrame] at he
    split_ifs at he
    · rw [List.mem_singleton] at he
      rw [he]
    · cases he
  simp only [udpAccept]
  split_ifs with hold hone hfull
  · exact ⟨UInt32.le_refl _, by simp⟩
  · exact ⟨le_of_not_filtered hold, hdispatch _⟩
  · exact ⟨le_of_not_filtered hold, hdispatch _⟩
  · exact ⟨UInt32.le_refl _, by simp⟩

theorem advances_onDatagram (r : Reassembly) (raw : List UInt8) :
    Advances r (onDatagram r raw).1 (onDatagram r raw).2 := by
  simp only [onDatagram]
  split_ifs
  · exact ⟨UInt32.le_refl _, by simp⟩
  · exact ⟨UInt32.le_refl _, by simp⟩
  · exact ⟨UInt32.le_refl _, by simp⟩
  · exact advances_udpAccept _ _ _

theorem le_of_mem_udpOnReadyRead (raws : List (List UInt8)) : ∀ (r : Reassembly),
    ∀ e ∈ (udpOnReadyRead r raws).2, r.mLastCompleteFrameId ≤ e.frameId := by
  induction raws with
  | nil =>
    intro r e he
    cases he
  | cons raw raws ih =>
    intro r e he
    have hfirst := advances_onDatagram r raw
    rcases List.mem_append.mp he with he | he
    · rw [hfirst.frameId e he]
      exact hfirst.le
    · exact UInt32.le_trans hfirst.le (ih _ e he)

/-- **The frame ids of the emitted images never decrease.** -/
theorem frameIds_sorted (raws : List (List UInt8)) : ∀ (r : Reassembly),
    (udpOnReadyRead r raws).2.Pairwise fun e e' => e.frameId ≤ e'.frameId := by
  induction raws with
  | nil =>
    intro r
    exact .nil
  | cons raw raws ih =>
    intro r
    have hfirst := advances_onDatagram r raw
    refine List.pairwise_append.mpr ⟨?_, ih _, ?_⟩
    -- the signals of one datagram carry the same frame id
    · refine List.pairwise_of_forall_mem_list ?_
      intro e he e' he'
      rw [hfirst.frameId e he, hfirst.frameId e' he']
      exact UInt32.le_refl _
    · intro e he e' he'
      rw [hfirst.frameId e he]
      exact le_of_mem_udpOnReadyRead raws _ e' he'

/-! ### One datagram -/

/-- The number of packets of an image. -/
def UdpImage.pkgs (image : UdpImage) : ℕ := (image.data.length + 1399) / 1400

/-- An image that is not empty, of a length the packet count can express. -/
def UdpImage.Sendable (image : UdpImage) : Prop :=
  image.data ≠ [] ∧ image.data.length ≤ 65535 * 1400

/-- The image as an item of an upload. -/
def UdpImage.item (image : UdpImage) : UploadItem :=
  ⟨.image, image.data, image.ts, image.running⟩

theorem UdpImage.Sendable.item {image : UdpImage} (h : image.Sendable) : image.item.Sendable :=
  ⟨List.mem_cons_self, h⟩

theorem UdpImage.Sendable.pkgs_le {image : UdpImage} (h : image.Sendable) : image.pkgs ≤ 65535 :=
  h.item.pkgs_le

theorem UdpImage.Sendable.pkgs_pos {image : UdpImage} (h : image.Sendable) : 0 < image.pkgs :=
  UploadItem.pkgs_pos h.item.2.1

theorem UdpImage.Sendable.totalPkgs {image : UdpImage} (h : image.Sendable) :
    (totalPkgs (UInt32.ofNat image.data.length)).toNat = image.pkgs :=
  totalPkgs_toNat h.2

/-- The loop sends packets of the image, up to where it stops. -/
theorem mem_udpSendLoop {image : UdpImage} {frameId : UInt32} {d : List UInt8} :
    ∀ {n : ℕ} {i : UInt16}, d ∈ udpSendLoop image frameId n i → i.toNat + n < 65536 →
      ∃ j, i.toNat ≤ j ∧ j < i.toNat + n ∧ d = image.packet frameId (UInt16.ofNat j) := by
  intro n
  induction n with
  | zero =>
    intro i hd
    cases hd
  | succ n ih =>
    intro i hd hn
    rw [udpSendLoop] at hd
    split_ifs at hd with hstop
    · cases hd
    have hnext : (i + 1).toNat = i.toNat + 1 := by
      rw [UInt16.toNat_add, UInt16.toNat_one]
      omega
    rcases List.mem_cons.mp hd with rfl | hd
    · exact ⟨i.toNat, le_rfl, by omega, by rw [UInt16.ofNat_toNat]⟩
    · obtain ⟨j, hle, hlt, rfl⟩ := ih hd (by omega)
      exact ⟨j, by omega, by omega, rfl⟩

theorem mem_udpSendFrame {image : UdpImage} {frameId : UInt32} {d : List UInt8}
    (hd : d ∈ udpSendFrame image frameId) :
    ∃ k < (totalPkgs (UInt32.ofNat image.data.length)).toNat,
      d = image.packet frameId (UInt16.ofNat k) := by
  have hsize := (totalPkgs (UInt32.ofNat image.data.length)).toNat_lt
  obtain ⟨k, -, hk, rfl⟩ := mem_udpSendLoop hd (by simpa using hsize)
  exact ⟨k, by simpa using hk, rfl⟩

/-- The image sent under a frame id, by a run that starts with frame id `n`. -/
def SentUnder (n : UInt32) (images : List UdpImage) (frameId : UInt32) (image : UdpImage) : Prop :=
  ∃ k, images[k]? = some image ∧ frameId.toNat = n.toNat + k

theorem SentUnder.unique {n frameId : UInt32} {images : List UdpImage} {image image' : UdpImage}
    (h : SentUnder n images frameId image) (h' : SentUnder n images frameId image') :
    image = image' := by
  obtain ⟨k, hk, hid⟩ := h
  obtain ⟨k', hk', hid'⟩ := h'
  obtain rfl : k = k' := by omega
  rw [hk, Option.some_inj] at hk'
  exact hk'

theorem mem_udpSendAll {images : List UdpImage} {d : List UInt8} : ∀ {n : UInt32},
    d ∈ udpSendAll n images → n.toNat + images.length ≤ 2 ^ 32 →
    ∃ frameId image, SentUnder n images frameId image ∧ d ∈ udpSendFrame image frameId := by
  induction images with
  | nil =>
    intro n hd
    cases hd
  | cons image images ih =>
    intro n hd hn
    rw [List.length_cons] at hn
    rcases List.mem_append.mp hd with hd | hd
    · exact ⟨n, image, ⟨0, rfl, rfl⟩, hd⟩
    · rcases images with _ | ⟨image', images⟩
      · cases hd
      rw [List.length_cons] at hn
      have hnext : (n + 1).toNat = n.toNat + 1 := by
        rw [UInt32.toNat_add, UInt32.toNat_one]
        omega
      obtain ⟨frameId, sent, ⟨k, hk, hid⟩, hd⟩ := ih hd (by rw [List.length_cons]; omega)
      exact ⟨frameId, sent, ⟨k + 1, hk, by omega⟩, hd⟩

/-- A datagram of the device is accepted, if the memory at `send_data` holds the payload. -/
theorem onDatagram_toBytes (r : Reassembly) {hdr : FrameHeader} {payload : List UInt8}
    (hs : hdr.Sealed) (hlen : payload.length = hdr.dataLen.toNat) :
    onDatagram r (hdr.toBytes ++ payload) = udpAccept r hdr payload := by
  have hsize : (hdr.toBytes ++ payload).length = frameHeaderSize + hdr.dataLen.toNat := by
    rw [List.length_append, length_toBytes, hlen]
  have hpayload : (hdr.toBytes ++ payload).drop frameHeaderSize = payload :=
    List.drop_left' (length_toBytes hdr)
  rw [onDatagram, if_neg (by omega), validateFrameHeader_toBytes_append hs, if_neg (by decide)]
  simp only [ofBytes_toBytes_append, hpayload]
  rw [if_neg (by omega), List.take_of_length_le hlen.le]

theorem onDatagram_packet (r : Reassembly) {image : UdpImage} (himage : image.Sendable)
    (frameId : UInt32) {k : ℕ} (hk : k < image.pkgs) :
    onDatagram r (image.packet frameId (UInt16.ofNat k)) =
      udpAccept r (image.hdr frameId (UInt16.ofNat k)) (chunk image.data k) := by
  obtain ⟨hbytes, hlen⟩ := @packetBytes_item image.item himage.2 frameId _ hk
  have hpacket : image.packet frameId (UInt16.ofNat k) =
      (image.hdr frameId (UInt16.ofNat k)).toBytes ++ chunk image.data k := hbytes
  rw [hpacket]
  exact onDatagram_toBytes r (packetHeader_sealed _ _ _ _ _) hlen

@[simp] theorem UdpImage.hdr_frameId (image : UdpImage) (frameId : UInt32) (i : UInt16) :
    (image.hdr frameId i).frameId = frameId := rfl

@[simp] theorem UdpImage.hdr_pkgId (image : UdpImage) (frameId : UInt32) (i : UInt16) :
    (image.hdr frameId i).pkgId = i := rfl

theorem UdpImage.dispatch_hdr (image : UdpImage) (frameId : UInt32) (i : UInt16)
    (data : List UInt8) :
    udpDispatchFrame (image.hdr frameId i).type frameId data = [⟨frameId, data⟩] :=
  if_pos rfl

theorem UdpImage.Sendable.pkgCnt {image : UdpImage} (h : image.Sendable) (frameId : UInt32)
    (i : UInt16) : (image.hdr frameId i).pkgCnt.toNat = image.pkgs :=
  h.totalPkgs

theorem UdpImage.Sendable.pkgCnt_le_one {image : UdpImage} (h : image.Sendable) (frameId : UInt32)
    (i : UInt16) : (image.hdr frameId i).pkgCnt ≤ 1 ↔ image.pkgs = 1 := by
  have hpos := h.pkgs_pos
  rw [UInt16.le_iff_toNat_le, h.pkgCnt, UInt16.toNat_one]
  omega

/-- The chunks of an image fit its packets. -/
theorem UdpImage.length_le (image : UdpImage) : image.data.length ≤ image.pkgs * 1400 :=
  image.item.length_le

section

variable {r : Reassembly} {image : UdpImage} {frameId : UInt32}

/-- A datagram of an old frame. -/
theorem onDatagram_old (himage : image.Sendable)
    (hold : 0 < r.mLastCompleteFrameId ∧ frameId < r.mLastCompleteFrameId) {k : ℕ}
    (hk : k < image.pkgs) : onDatagram r (image.packet frameId (UInt16.ofNat k)) = (r, []) := by
  rw [onDatagram_packet r himage frameId hk, udpAccept]
  exact if_pos hold

/-- The only packet of an image. -/
theorem onDatagram_single (himage : image.Sendable)
    (hnew : ¬ (0 < r.mLastCompleteFrameId ∧ frameId < r.mLastCompleteFrameId))
    (hone : image.pkgs = 1) :
    onDatagram r (image.packet frameId 0) =
      (⟨cleanExpiredFrames r.mFrameBuffer frameId, frameId⟩, [⟨frameId, image.data⟩]) := by
  have hshort : image.data.length ≤ 1 * 1400 := hone ▸ image.length_le
  have hdata : chunk image.data 0 = image.data := by
    simpa using flatMap_chunk hshort
  have hpacket := onDatagram_packet r himage frameId (hone ▸ Nat.one_pos : 0 < image.pkgs)
  have hcnt := (himage.pkgCnt_le_one frameId (UInt16.ofNat 0)).mpr hone
  simp only [hdata, udpAccept, UdpImage.hdr_frameId, if_neg hnew, if_pos hcnt,
    UdpImage.dispatch_hdr] at hpacket
  exact hpacket

/-- A packet of an image that has more. -/
theorem onDatagram_multi (himage : image.Sendable)
    (hnew : ¬ (0 < r.mLastCompleteFrameId ∧ frameId < r.mLastCompleteFrameId))
    (hmany : image.pkgs ≠ 1) {k : ℕ} (hk : k < image.pkgs) {pkgs : FramePackets}
    (hpkgs : ((cleanExpiredFrames r.mFrameBuffer frameId).getD frameId ∅).insert (UInt16.ofNat k)
      (chunk image.data k) = pkgs) :
    onDatagram r (image.packet frameId (UInt16.ofNat k)) =
      if pkgs.size = image.pkgs then
        (⟨((cleanExpiredFrames r.mFrameBuffer frameId).insert frameId pkgs).erase frameId, frameId⟩,
          [⟨frameId, complete pkgs image.pkgs⟩])
      else
        (⟨(cleanExpiredFrames r.mFrameBuffer frameId).insert frameId pkgs,
          r.mLastCompleteFrameId⟩, []) := by
  have hpacket := onDatagram_packet r himage frameId hk
  have hcnt : ¬ (image.hdr frameId (UInt16.ofNat k)).pkgCnt ≤ 1 :=
    fun h => hmany ((himage.pkgCnt_le_one frameId _).mp h)
  simp only [udpAccept, UdpImage.hdr_frameId, UdpImage.hdr_pkgId, if_neg hnew, if_neg hcnt,
    himage.pkgCnt, UdpImage.dispatch_hdr, hpkgs] at hpacket
  exact hpacket

end

/-! ### What the frame buffer holds -/

/-- The packets collected are chunks of the data, numbered below `n`. -/
def HoldsChunks (pkgs : FramePackets) (data : List UInt8) (n : ℕ) : Prop :=
  ∀ (i : UInt16) (payload : List UInt8), pkgs[i]? = some payload →
    i.toNat < n ∧ payload = chunk data i.toNat

theorem HoldsChunks.empty (data : List UInt8) (n : ℕ) : HoldsChunks ∅ data n := by
  intro i payload h
  rw [Std.ExtTreeMap.getElem?_empty] at h
  cases h

theorem HoldsChunks.insert {pkgs : FramePackets} {data : List UInt8} {n k : ℕ}
    (h : HoldsChunks pkgs data n) (hk : k < n) (hn : n ≤ 65536) :
    HoldsChunks (pkgs.insert (UInt16.ofNat k) (chunk data k)) data n := by
  intro i payload hi
  rw [Std.ExtTreeMap.getElem?_insert] at hi
  split_ifs at hi with heq
  · rw [Std.LawfulEqCmp.compare_eq_iff_eq] at heq
    rw [Option.some_inj] at hi
    rw [← heq, ← hi, UInt16.toNat_ofNat_of_lt' (lt_of_lt_of_le hk hn)]
    exact ⟨hk, rfl⟩
  · exact h i payload hi

/-- As many packets as the data has are the data. -/
theorem HoldsChunks.complete {pkgs : FramePackets} {data : List UInt8} {n : ℕ}
    (h : HoldsChunks pkgs data n) (hsize : pkgs.size = n)
    (hlen : data.length ≤ n * 1400) : complete pkgs n = data := by
  have hpkg : ∀ k ∈ List.range n, pkgs.getD (UInt16.ofNat k) [] = chunk data k := by
    intro k hk
    rw [List.mem_range] at hk
    have hinj : Function.Injective UInt16.toNat := fun _ _ => UInt16.toNat_inj.mp
    have hbelow : ∀ i ∈ pkgs, i.toNat < n := by
      intro i hi
      obtain ⟨payload, hpayload⟩ := getElem?_of_mem hi
      exact (h i payload hpayload).1
    obtain ⟨i, hi, hik⟩ := exists_mem_of_size hinj hbelow hsize hk
    obtain ⟨payload, hpayload⟩ := getElem?_of_mem hi
    have hkey : UInt16.ofNat k = i := by rw [← hik, UInt16.ofNat_toNat]
    rw [hkey, Std.ExtTreeMap.getD_eq_getD_getElem?, hpayload, Option.getD_some,
      (h i payload hpayload).2, hik]
  rw [Sentry.complete, List.flatMap_congr hpkg, flatMap_chunk hlen]

/-- The frame buffer holds packets of images that were sent, each under its frame id. -/
def Assembling (n : UInt32) (images : List UdpImage)
    (buffer : Std.ExtTreeMap UInt32 FramePackets) : Prop :=
  ∀ (frameId : UInt32) (pkgs : FramePackets), buffer[frameId]? = some pkgs →
    ∃ image, SentUnder n images frameId image ∧ HoldsChunks pkgs image.data image.pkgs

namespace Assembling

variable {n : UInt32} {images : List UdpImage} {buffer : Std.ExtTreeMap UInt32 FramePackets}

theorem submap (h : Assembling n images buffer) {rest : Std.ExtTreeMap UInt32 FramePackets}
    (hsub : Submap rest buffer) : Assembling n images rest :=
  fun frameId pkgs hpkgs => h frameId pkgs (hsub frameId pkgs hpkgs)

theorem insert (h : Assembling n images buffer) {frameId : UInt32} {image : UdpImage}
    (hsent : SentUnder n images frameId image) {pkgs : FramePackets}
    (hpkgs : HoldsChunks pkgs image.data image.pkgs) :
    Assembling n images (buffer.insert frameId pkgs) := by
  intro id pkgs' hid
  rw [Std.ExtTreeMap.getElem?_insert] at hid
  split_ifs at hid with heq
  · rw [Std.LawfulEqCmp.compare_eq_iff_eq] at heq
    rw [Option.some_inj] at hid
    subst heq hid
    exact ⟨image, hsent, hpkgs⟩
  · exact h id pkgs' hid

/-- What is collected of an image that was sent. -/
theorem getD (h : Assembling n images buffer) {frameId : UInt32} {image : UdpImage}
    (hsent : SentUnder n images frameId image) :
    HoldsChunks (buffer.getD frameId ∅) image.data image.pkgs := by
  rw [Std.ExtTreeMap.getD_eq_getD_getElem?]
  cases hpkgs : buffer[frameId]? with
  | none => exact .empty _ _
  | some pkgs =>
    obtain ⟨image', hsent', hholds⟩ := h frameId pkgs hpkgs
    rw [hsent.unique hsent']
    exact hholds

end Assembling

theorem getElem?_cleanExpiredFrames (buffer : Std.ExtTreeMap UInt32 FramePackets)
    (current id : UInt32) : (cleanExpiredFrames buffer current)[id]? =
      if 3 < buffer.size ∧ id < current - 3 then none else buffer[id]? := by
  rw [cleanExpiredFrames]
  split_ifs with hsmall hold hold
  · omega
  · rfl
  · rw [getElem?_foldl_erase, if_pos hold.2]
  · rw [getElem?_foldl_erase, if_neg fun h => hold ⟨by omega, h⟩]

theorem submap_cleanExpiredFrames (buffer : Std.ExtTreeMap UInt32 FramePackets)
    (current : UInt32) : Submap (cleanExpiredFrames buffer current) buffer := by
  intro id pkgs h
  rw [getElem?_cleanExpiredFrames] at h
  split_ifs at h
  exact h

/-- **One datagram of the run**: what it completes was sent, and the rest stays collected. -/
theorem assembling_packet {n : UInt32} {images : List UdpImage} {r : Reassembly}
    (h : Assembling n images r.mFrameBuffer) {frameId : UInt32} {image : UdpImage}
    (himage : image.Sendable) (hsent : SentUnder n images frameId image) {k : ℕ}
    (hk : k < image.pkgs) :
    let d := onDatagram r (image.packet frameId (UInt16.ofNat k))
    Assembling n images d.1.mFrameBuffer ∧ ∀ e ∈ d.2, e = ⟨frameId, image.data⟩ := by
  have hmax := himage.pkgs_le
  have hclean := h.submap (submap_cleanExpiredFrames r.mFrameBuffer frameId)
  have hpkgs : HoldsChunks
      (((cleanExpiredFrames r.mFrameBuffer frameId).getD frameId ∅).insert (UInt16.ofNat k)
        (chunk image.data k)) image.data image.pkgs :=
    (hclean.getD hsent).insert hk (by omega)
  intro d
  by_cases hold : 0 < r.mLastCompleteFrameId ∧ frameId < r.mLastCompleteFrameId
  · have hd : d = (r, []) := onDatagram_old himage hold hk
    rw [hd]
    exact ⟨h, by simp⟩
  by_cases hone : image.pkgs = 1
  · obtain rfl : k = 0 := by omega
    have hd : d = _ := onDatagram_single himage hold hone
    rw [hd]
    exact ⟨hclean, by simp⟩
  · have hd : d = _ := onDatagram_multi himage hold hone hk rfl
    rw [hd]
    split_ifs with hfull
    · -- the last packet that was missing
      refine ⟨(hclean.insert hsent hpkgs).submap (Submap.erase_left _ _), ?_⟩
      intro e he
      rw [List.mem_singleton] at he
      rw [he, hpkgs.complete hfull image.length_le]
    · exact ⟨hclean.insert hsent hpkgs, by simp⟩

/-- **UDP integrity**: of a run of the sender any datagrams may arrive, in any order and any
number of times; every image emitted is one that was sent, and the frame ids of the
emitted images never decrease. -/
theorem udp_integrity (n : UInt32) (images : List UdpImage) (raws : List (List UInt8))
    (himages : ∀ image ∈ images, image.Sendable) (hn : n.toNat + images.length ≤ 2 ^ 32)
    (hraws : ∀ raw ∈ raws, raw ∈ udpSendAll n images) :
    (∀ e ∈ (udpOnReadyRead .fresh raws).2,
      ∃ image, SentUnder n images e.frameId image ∧ e.jpegData = image.data) ∧
    (udpOnReadyRead .fresh raws).2.Pairwise fun e e' => e.frameId ≤ e'.frameId := by
  refine ⟨?_, frameIds_sorted raws _⟩
  have hrun : ∀ (r : Reassembly), Assembling n images r.mFrameBuffer →
      ∀ e ∈ (udpOnReadyRead r raws).2,
        ∃ image, SentUnder n images e.frameId image ∧ e.jpegData = image.data := by
    induction raws with
    | nil =>
      intro r _ e he
      cases he
    | cons raw raws ih =>
      intro r hr e he
      obtain ⟨frameId, image, hsent, hin⟩ := mem_udpSendAll (hraws raw List.mem_cons_self) hn
      have himage : image.Sendable := himages image (List.mem_of_getElem? hsent.choose_spec.1)
      obtain ⟨k, hk, rfl⟩ := mem_udpSendFrame hin
      rw [himage.totalPkgs] at hk
      obtain ⟨hnext, hemitted⟩ := assembling_packet hr himage hsent hk
      rcases List.mem_append.mp he with he | he
      · rw [hemitted e he]
        exact ⟨image, hsent, rfl⟩
      · exact ih (fun raw hraw => hraws raw (List.mem_cons_of_mem _ hraw)) _ hnext e he
  refine hrun .fresh ?_
  intro frameId pkgs hpkgs
  rw [Reassembly.fresh, Std.ExtTreeMap.getElem?_empty] at hpkgs
  cases hpkgs

/-- Two images, of which the second arrives twice and the first too late. -/
theorem udp_integrity_reordered :
    let images : List UdpImage := [⟨[1, 2], 0, fun _ => true⟩, ⟨[3], 0, fun _ => true⟩]
    let raws := (udpSendAll 7 images).reverse ++ (udpSendAll 7 images).drop 1
    (udpOnReadyRead .fresh raws).2 = [⟨8, [3]⟩, ⟨8, [3]⟩] ∧
    (∀ e ∈ (udpOnReadyRead .fresh raws).2,
      ∃ image, SentUnder 7 images e.frameId image ∧ e.jpegData = image.data) ∧
    (udpOnReadyRead .fresh raws).2.Pairwise fun e e' => e.frameId ≤ e'.frameId := by
  intro images raws
  refine ⟨by decide +kernel, udp_integrity 7 images raws ?_ (by decide) ?_⟩
  · simp [images, UdpImage.Sendable]
  · intro raw hraw
    rcases List.mem_append.mp hraw with hraw | hraw
    · exact List.mem_reverse.mp hraw
    · exact List.mem_of_mem_drop hraw

/-- An image of one byte more than 65536 packets: `total_pkgs` wraps to 1, and one packet is
sent. -/
theorem udpSendAll_oversized {image : UdpImage} (hlen : image.data.length = 65536 * 1400 + 1)
    (hrun : image.running 0 = true) :
    (image.hdr 0 0).pkgCnt = 1 ∧ (image.hdr 0 0).dataLen = 1400 ∧
      udpSendAll 0 [image] = [(image.hdr 0 0).toBytes ++ image.data.take 1400] := by
  have hpkgs : totalPkgs (UInt32.ofNat image.data.length) = 1 := by
    rw [hlen]
    decide
  have hdataLen : (image.hdr 0 0).dataLen = 1400 := by
    show currentChunk (UInt32.ofNat image.data.length) 0 = 1400
    rw [hlen]
    decide
  refine ⟨hpkgs, hdataLen, ?_⟩
  have hpacket : image.packet 0 0 = (image.hdr 0 0).toBytes ++ image.data.take 1400 := by
    rw [UdpImage.packet, hdataLen]
    rfl
  have hloop : udpSendFrame image 0 = [image.packet 0 0] := by
    rw [udpSendFrame, hpkgs]
    show (if image.running 0 = false then [] else [image.packet 0 0]) = [image.packet 0 0]
    rw [hrun, if_neg Bool.true_eq_false_eq_False]
  rw [udpSendAll, udpSendAll, List.append_nil, hloop, hpacket]

/-- The receiver takes this packet for the whole image. -/
theorem oversized_truncated {image : UdpImage} (hlen : image.data.length = 65536 * 1400 + 1)
    (hrun : image.running 0 = true) :
    (udpOnReadyRead .fresh (udpSendAll 0 [image])).2 = [⟨0, image.data.take 1400⟩] := by
  obtain ⟨hpkgs, hdataLen, hsend⟩ := udpSendAll_oversized hlen hrun
  have haccept : (udpAccept .fresh (image.hdr 0 0) (image.data.take 1400)).2 =
      [⟨0, image.data.take 1400⟩] := by
    have hone : (image.hdr 0 0).pkgCnt ≤ 1 := by
      rw [hpkgs]
      decide
    have hpass : ¬ (0 < Reassembly.fresh.mLastCompleteFrameId ∧
        (image.hdr 0 0).frameId < Reassembly.fresh.mLastCompleteFrameId) := by
      rintro ⟨hpos, -⟩
      exact absurd hpos (by decide)
    simp only [udpAccept]
    rw [if_neg hpass, if_pos hone]
    show udpDispatchFrame FileType.image.code 0 (image.data.take 1400) = _
    exact if_pos rfl
  have hread : onDatagram .fresh ((image.hdr 0 0).toBytes ++ image.data.take 1400) =
      udpAccept .fresh (image.hdr 0 0) (image.data.take 1400) := by
    refine onDatagram_toBytes _ (packetHeader_sealed _ _ _ _ _) ?_
    rw [hdataLen, List.length_take, hlen]
    rfl
  rw [hsend, udpOnReadyRead, udpOnReadyRead, hread, List.append_nil, haccept]

theorem udp_integrity_oversized :
    let image : UdpImage := ⟨List.replicate (65536 * 1400 + 1) 0, 0, fun _ => true⟩
    image.data ≠ [] ∧
    ¬ ∀ e ∈ (udpOnReadyRead .fresh (udpSendAll 0 [image])).2,
      ∃ sent, SentUnder 0 [image] e.frameId sent ∧ e.jpegData = sent.data := by
  intro image
  have hlen : image.data.length = 65536 * 1400 + 1 := List.length_replicate
  constructor
  · intro hnil
    rw [hnil] at hlen
    cases hlen
  · intro h
    obtain ⟨sent, ⟨k, hk, -⟩, hdata⟩ :=
      h ⟨0, image.data.take 1400⟩ (oversized_truncated hlen rfl ▸ List.mem_singleton_self _)
    have hsent : sent = image := List.mem_singleton.mp (List.mem_of_getElem? hk)
    have hlengths := congrArg List.length hdata
    rw [hsent, List.length_take, hlen] at hlengths
    omega

end Sentry
