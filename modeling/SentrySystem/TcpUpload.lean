/-
The TCP upload from end to end: `Tcp_Send_Frame` on the device, the Qt host's
receiver on the other side.

* `consumes_packets`, `consumes_frame`, `consumes_upload` — what the receiver makes
  of the packets of one frame, of a frame, and of frame after frame;
* `upload_received` — however the stream is segmented, the receiver emits one
  signal per uploaded item, with the item's bytes, and keeps nothing.
-/
import SentrySystem.TcpControlWorker
import SentrySystem.TcpSendFrame

namespace Sentry

open FrameHeader

/-! ### A series of uploads -/

/-- What one upload sends: the item's type and bytes, the time of its
`Tcp_Send_Frame` call and `running` as this call reads it. -/
structure UploadItem where
  type : FileType
  data : List UInt8
  ts : UInt64
  running : UInt16 → Bool

/-- The call of `Tcp_Send_Frame` for an item under a frame id. -/
def UploadItem.call (item : UploadItem) (frameId : UInt32) : SendCall where
  currentFrameId := frameId
  sendData := item.data
  sendLen := UInt32.ofNat item.data.length
  type := item.type
  ts := item.ts
  running := item.running

/-- One upload after the other over one connection, `none` when one of them fails;
a successful one increments `current_frame_id`. -/
def uploadAll (frameId : UInt32) (sock : Socket) : List UploadItem → Option Socket
  | [] => some sock
  | item :: items =>
    let r := tcpSendFrame (item.call frameId) sock
    if r.1 = true then uploadAll (frameId + 1) r.2 items else none

/-- An item of a type the receiver knows, of a length the packet count can express. -/
def UploadItem.Sendable (item : UploadItem) : Prop :=
  item.type ∈ [FileType.image, .db, .video, .json] ∧ item.data ≠ [] ∧
  item.data.length ≤ 65535 * 1400

/-- The signal that delivers an item. -/
def UploadItem.signal (item : UploadItem) : Signal :=
  if item.type = .json then .jsonResponseReceived item.data
  else .fileReceived item.type.code item.data item.ts

/-- The number of packets of an item. -/
def UploadItem.pkgs (item : UploadItem) : ℕ := (item.data.length + 1399) / 1400

/-- The bytes of an item's frame. -/
def UploadItem.frame (item : UploadItem) (frameId : UInt32) : List UInt8 :=
  (List.range item.pkgs).flatMap fun k => packetBytes (item.call frameId) (UInt16.ofNat k)

/-- The bytes of all items. -/
def uploadBytes (frameId : UInt32) : List UploadItem → List UInt8
  | [] => []
  | item :: items => item.frame frameId ++ uploadBytes (frameId + 1) items

theorem UploadItem.Sendable.pkgs_le {item : UploadItem} (h : item.Sendable) :
    item.pkgs ≤ 65535 := by
  have := h.2.2
  rw [UploadItem.pkgs]
  omega

theorem UploadItem.pkgs_pos {item : UploadItem} (hne : item.data ≠ []) : 0 < item.pkgs := by
  have := List.length_pos_iff.mpr hne
  rw [UploadItem.pkgs]
  omega

theorem UploadItem.length_le (item : UploadItem) : item.data.length ≤ item.pkgs * 1400 := by
  rw [UploadItem.pkgs]
  omega

/-- What a successful upload writes is the bytes of the item's frame. -/
theorem UploadItem.sendFrame_out {item : UploadItem} (hne : item.data ≠ [])
    (hmax : item.data.length ≤ 65535 * 1400) {frameId : UInt32} {sock sock' : Socket}
    (h : tcpSendFrame (item.call frameId) sock = (true, sock')) :
    sock'.out = sock.out ++ item.frame frameId := by
  -- a length that does not wrap is not 0
  have hlen : (item.call frameId).sendLen ≠ 0 := by
    intro hzero
    have hnat := congrArg UInt32.toNat hzero
    have hpos := List.length_pos_iff.mpr hne
    have hsmall : item.data.length < UInt32.size := lt_of_le_of_lt hmax (by decide)
    simp only [UploadItem.call] at hnat
    rw [UInt32.toNat_ofNat_of_lt' hsmall, UInt32.toNat_zero] at hnat
    omega
  have hpkgs : (totalPkgs (item.call frameId).sendLen).toNat = item.pkgs := totalPkgs_toNat hmax
  have hout := tcpSendFrame_out hlen h
  rw [hpkgs] at hout
  exact hout

/-- **What successful uploads write** is the bytes of the items. -/
theorem uploadAll_out {items : List UploadItem} (hitems : ∀ item ∈ items, item.Sendable) :
    ∀ {frameId : UInt32} {sock sock' : Socket}, uploadAll frameId sock items = some sock' →
      sock'.out = sock.out ++ uploadBytes frameId items := by
  induction items with
  | nil =>
    intro frameId sock sock' h
    rw [uploadAll, Option.some_inj] at h
    rw [← h, uploadBytes, List.append_nil]
  | cons item items ih =>
    intro frameId sock sock' h
    have hitem := hitems item List.mem_cons_self
    rw [uploadAll] at h
    rcases hr : tcpSendFrame (item.call frameId) sock with ⟨ok, mid⟩
    rw [hr] at h
    split_ifs at h with hok
    have hok : ok = true := hok
    have hout := UploadItem.sendFrame_out hitem.2.1 hitem.2.2 (hok ▸ hr)
    rw [ih (fun it hit => hitems it (List.mem_cons_of_mem _ hit)) h, hout, List.append_assoc,
      uploadBytes]

/-! ### One packet -/

/-- The header of packet `k` of an item. -/
def UploadItem.hdr (item : UploadItem) (frameId : UInt32) (k : ℕ) : FrameHeader :=
  packetHeader frameId (UInt32.ofNat item.data.length) item.type item.ts (UInt16.ofNat k)

theorem toNat_pkgCnt {item : UploadItem} (hmax : item.data.length ≤ 65535 * 1400)
    (frameId : UInt32) (k : ℕ) : (item.hdr frameId k).pkgCnt.toNat = item.pkgs :=
  totalPkgs_toNat hmax

theorem packetBytes_item {item : UploadItem} (hmax : item.data.length ≤ 65535 * 1400)
    (frameId : UInt32) {k : ℕ} (hk : k < item.pkgs) :
    packetBytes (item.call frameId) (UInt16.ofNat k) =
      (item.hdr frameId k).toBytes ++ chunk item.data k ∧
    (chunk item.data k).length = (item.hdr frameId k).dataLen.toNat := by
  have hin : k * 1400 ≤ item.data.length := by
    rw [UploadItem.pkgs] at hk
    omega
  have hlen := currentChunk_toNat hmax hin
  refine ⟨?_, hlen.symm⟩
  have hdata : (item.hdr frameId k).dataLen.toNat = (chunk item.data k).length := hlen
  have hchunk : (item.data.drop (k * 1400)).take (chunk item.data k).length =
      chunk item.data k := by
    rw [chunk, List.length_take, ← List.take_take, List.take_length]
  show (item.hdr frameId k).toBytes ++
    (item.data.drop ((UInt16.ofNat k).toUInt32 * tcpChunkSize).toNat).take
      (item.hdr frameId k).dataLen.toNat = _
  rw [offset_toNat (by omega), hdata, hchunk]

/-! ### The packets of a frame -/

/-- The packets `0 .. n - 1` of some data. -/
def packetsBelow (data : List UInt8) : ℕ → FramePackets
  | 0 => ∅
  | n + 1 => (packetsBelow data n).insert (UInt16.ofNat n) (chunk data n)

theorem getElem?_packetsBelow (data : List UInt8) {n : ℕ} (hn : n ≤ 65536) (i : UInt16) :
    (packetsBelow data n)[i]? = if i.toNat < n then some (chunk data i.toNat) else none := by
  induction n with
  | zero => simp [packetsBelow]
  | succ n ih =>
    have hlt : n < UInt16.size := hn
    rw [packetsBelow, Std.ExtTreeMap.getElem?_insert, ih (by omega)]
    by_cases hi : i.toNat = n
    · have hin : UInt16.ofNat n = i := by rw [← hi, UInt16.ofNat_toNat]
      rw [if_pos (by rw [hin]; exact Std.ReflCmp.compare_self), if_pos (by omega), hi]
    · have hin : UInt16.ofNat n ≠ i := by
        intro h
        rw [← h, UInt16.toNat_ofNat_of_lt' hlt] at hi
        exact hi rfl
      rw [if_neg (by simpa using hin)]
      split_ifs <;> first | rfl | omega

theorem size_packetsBelow (data : List UInt8) {n : ℕ} (hn : n ≤ 65536) :
    (packetsBelow data n).size = n := by
  induction n with
  | zero => rfl
  | succ n ih =>
    have hlt : n < UInt16.size := hn
    have hnew : UInt16.ofNat n ∉ packetsBelow data n := by
      rw [Std.ExtTreeMap.mem_iff_isSome_getElem?, getElem?_packetsBelow data (by omega),
        UInt16.toNat_ofNat_of_lt' hlt, if_neg (lt_irrefl n)]
      simp
    rw [Std.ExtTreeMap.mem_iff_contains] at hnew
    rw [packetsBelow, Std.ExtTreeMap.size_insert, if_neg hnew, ih (by omega)]

/-- All packets of a frame are its data. -/
theorem complete_packetsBelow {data : List UInt8} {n : ℕ} (hn : n ≤ 65536)
    (hlen : data.length ≤ n * 1400) : complete (packetsBelow data n) n = data := by
  have hpkg : ∀ i ∈ List.range n, (packetsBelow data n).getD (UInt16.ofNat i) [] = chunk data i := by
    intro i hi
    rw [List.mem_range] at hi
    have hsize : i < UInt16.size := lt_of_lt_of_le hi hn
    rw [Std.ExtTreeMap.getD_eq_getD_getElem?, getElem?_packetsBelow data hn,
      UInt16.toNat_ofNat_of_lt' hsize, if_pos hi, Option.getD_some]
  rw [complete, List.flatMap_congr hpkg, flatMap_chunk hlen]

/-- The frame buffer after the first `n` packets of a frame. -/
def collecting (frameId : UInt32) (data : List UInt8) (n : ℕ) :
    Std.ExtTreeMap UInt32 FramePackets :=
  if n = 0 then ∅ else (∅ : Std.ExtTreeMap UInt32 FramePackets).insert frameId (packetsBelow data n)

theorem cleanExpiredFrames_collecting (frameId : UInt32) (data : List UInt8) (n : ℕ)
    (current : UInt32) :
    cleanExpiredFrames (collecting frameId data n) current = collecting frameId data n := by
  have hsize : (collecting frameId data n).size ≤ 3 := by
    rw [collecting]
    split_ifs
    · simp
    · exact le_trans Std.ExtTreeMap.size_insert_le (by simp)
  rw [cleanExpiredFrames, if_pos hsize]

theorem getD_collecting (frameId : UInt32) (data : List UInt8) (n : ℕ) :
    (collecting frameId data n).getD frameId ∅ = packetsBelow data n := by
  rw [collecting]
  split_ifs with hn
  · rw [Std.ExtTreeMap.getD_empty, hn, packetsBelow]
  · rw [Std.ExtTreeMap.getD_insert_self]

theorem insert_collecting (frameId : UInt32) (data : List UInt8) (n : ℕ) :
    (collecting frameId data n).insert frameId (packetsBelow data (n + 1)) =
      collecting frameId data (n + 1) := by
  refine Std.ExtTreeMap.ext_getElem? ?_
  intro id
  rw [collecting, collecting, if_neg (by omega : n + 1 ≠ 0)]
  split_ifs with hn
  · rfl
  · simp only [Std.ExtTreeMap.getElem?_insert]
    split_ifs <;> rfl

theorem erase_collecting (frameId : UInt32) (data : List UInt8) (n : ℕ) :
    (collecting frameId data n).erase frameId = ∅ := by
  rw [Std.ExtTreeMap.eq_empty_iff_forall_not_mem]
  intro id hid
  rw [Std.ExtTreeMap.mem_erase, collecting] at hid
  obtain ⟨hne, hid⟩ := hid
  split_ifs at hid
  · simp at hid
  · rw [Std.ExtTreeMap.mem_insert] at hid
    simp_all

/-- A frame that is not older than the last complete one is not filtered out. -/
theorem acceptPacket_collecting {item : UploadItem} (hitem : item.Sendable)
    {frameId last : UInt32} (hlast : last.toNat ≤ frameId.toNat) {k : ℕ} (hk : k < item.pkgs) :
    acceptPacket ⟨collecting frameId item.data k, last⟩ (item.hdr frameId k)
        (chunk item.data k) =
      if k + 1 = item.pkgs then (⟨∅, frameId⟩, [item.signal])
      else (⟨collecting frameId item.data (k + 1), last⟩, []) := by
  -- the filter lets the frame through
  have hfresh : ¬ (0 < last ∧ (item.hdr frameId k).frameId < last) := by
    rintro ⟨-, hlt⟩
    have hlt : frameId.toNat < last.toNat := UInt32.lt_iff_toNat_lt.mp hlt
    omega
  have hcnt := toNat_pkgCnt hitem.2.2 frameId k
  have hdispatch : dispatchFrame (item.hdr frameId k).type item.data (item.hdr frameId k).timestamp =
      [item.signal] := by
    have htype := hitem.1
    show dispatchFrame item.type.code item.data item.ts = [item.signal]
    rw [UploadItem.signal]
    revert htype
    cases item.type <;> simp [dispatchFrame, FileType.code]
  have hpkgs := hitem.pkgs_le
  rw [acceptPacket, if_neg hfresh]
  simp only [cleanExpiredFrames_collecting]
  by_cases hone : (item.hdr frameId k).pkgCnt ≤ 1
  · -- the only packet of its frame
    have hone' : item.pkgs ≤ 1 := by
      have := UInt16.le_iff_toNat_le.mp hone
      rw [hcnt] at this
      exact this
    have hk0 : k = 0 := by omega
    have hdata : chunk item.data 0 = item.data := by
      have hfits : item.data.length ≤ 1 * 1400 := by
        rw [UploadItem.pkgs] at hone'
        omega
      simpa using flatMap_chunk hfits
    subst hk0
    rw [if_pos hone, if_pos (by omega), hdata, hdispatch]
    rfl
  · -- the packet is the next one of the frame being collected
    have hadd : ((collecting frameId item.data k).getD frameId ∅).insert
        (item.hdr frameId k).pkgId (chunk item.data k) = packetsBelow item.data (k + 1) := by
      rw [getD_collecting]
      rfl
    have hframe : (item.hdr frameId k).frameId = frameId := rfl
    rw [if_neg hone]
    simp only [hadd, hframe, hcnt, insert_collecting, erase_collecting,
      size_packetsBelow item.data (by omega : k + 1 ≤ 65536)]
    by_cases hend : k + 1 = item.pkgs
    · -- with its last packet the frame is complete
      rw [if_pos hend, if_pos hend, hend, complete_packetsBelow (by omega) item.length_le,
        hdispatch]
    · rw [if_neg hend, if_neg hend]

theorem consumes_next {item : UploadItem} (hitem : item.Sendable) {frameId last : UInt32}
    (hlast : last.toNat ≤ frameId.toNat) {k : ℕ} (hk : k < item.pkgs) :
    packetParser.Consumes ⟨collecting frameId item.data k, last⟩
      (packetBytes (item.call frameId) (UInt16.ofNat k))
      (if k + 1 = item.pkgs then ⟨∅, frameId⟩ else ⟨collecting frameId item.data (k + 1), last⟩)
      (if k + 1 = item.pkgs then [item.signal] else []) := by
  obtain ⟨hbytes, hlen⟩ := packetBytes_item hitem.2.2 frameId hk
  have hsealed : (item.hdr frameId k).Sealed := packetHeader_sealed _ _ _ _ _
  have hpacket := consumes_packet ⟨collecting frameId item.data k, last⟩ hsealed hlen
  rw [acceptPacket_collecting hitem hlast hk, ← hbytes] at hpacket
  split_ifs at hpacket ⊢ <;> exact hpacket

/-- **The first packets of a frame** are collected without a signal. -/
theorem consumes_packets {item : UploadItem} (hitem : item.Sendable) {frameId last : UInt32}
    (hlast : last.toNat ≤ frameId.toNat) {k : ℕ} (hk : k < item.pkgs) :
    packetParser.Consumes ⟨∅, last⟩
      ((List.range k).flatMap fun i => packetBytes (item.call frameId) (UInt16.ofNat i))
      ⟨collecting frameId item.data k, last⟩ [] := by
  induction k with
  | zero => exact .nil _
  | succ k ih =>
    have hpacket := consumes_next hitem hlast (by omega : k < item.pkgs)
    rw [if_neg (by omega), if_neg (by omega)] at hpacket
    rw [List.range_succ, List.flatMap_append, List.flatMap_singleton]
    exact (ih (by omega)).append hpacket

/-- **A frame** is delivered by its last packet. -/
theorem consumes_frame {item : UploadItem} (hitem : item.Sendable) {frameId last : UInt32}
    (hlast : last.toNat ≤ frameId.toNat) :
    packetParser.Consumes ⟨∅, last⟩ (item.frame frameId) ⟨∅, frameId⟩ [item.signal] := by
  obtain ⟨k, hk⟩ : ∃ k, item.pkgs = k + 1 :=
    Nat.exists_eq_succ_of_ne_zero (UploadItem.pkgs_pos hitem.2.1).ne'
  have hpacket := consumes_next hitem hlast (by omega : k < item.pkgs)
  rw [if_pos hk.symm, if_pos hk.symm] at hpacket
  rw [UploadItem.frame, hk, List.range_succ, List.flatMap_append, List.flatMap_singleton]
  exact (consumes_packets hitem hlast (by omega)).append hpacket

/-- **Frame after frame**: as long as the id does not wrap, no frame is older than
the one before it. -/
theorem consumes_upload {items : List UploadItem} (hitems : ∀ item ∈ items, item.Sendable) :
    ∀ {frameId last : UInt32}, last.toNat ≤ frameId.toNat →
      frameId.toNat + items.length ≤ 2 ^ 32 →
      ∃ last', packetParser.Consumes ⟨∅, last⟩ (uploadBytes frameId items) ⟨∅, last'⟩
        (items.map UploadItem.signal) := by
  induction items with
  | nil =>
    intro frameId last _ _
    exact ⟨last, .nil _⟩
  | cons item items ih =>
    intro frameId last hlast hwrap
    have hframe := consumes_frame (hitems item List.mem_cons_self) hlast
    rw [List.length_cons] at hwrap
    rcases items with _ | ⟨next, items⟩
    · refine ⟨frameId, ?_⟩
      simpa [uploadBytes] using hframe
    · have hnext : (frameId + 1).toNat = frameId.toNat + 1 := by
        rw [List.length_cons] at hwrap
        rw [UInt32.toNat_add, UInt32.toNat_one]
        omega
      have hle : frameId.toNat ≤ (frameId + 1).toNat := by omega
      obtain ⟨last', hrest⟩ :=
        ih (fun it hit => hitems it (List.mem_cons_of_mem _ hit)) hle (by omega)
      exact ⟨last', hframe.append hrest⟩

/-! ### The upload -/

/-- **Uploads arrive**: items of the four types, each of at most 65535 full packets,
sent one after the other over one connection by calls that return 0, reach a
freshly connected receiver as one signal each, in order and with their bytes,
however the stream is cut; nothing is left behind in the receiver. -/
theorem upload_received {items : List UploadItem} {frameId : UInt32} {room : ℕ}
    {sock' : Socket} {chunks : List (List UInt8)}
    (hitems : ∀ item ∈ items, item.Sendable)
    (hwrap : frameId.toNat + items.length ≤ 2 ^ 32)
    (hsend : uploadAll frameId ⟨[], room⟩ items = some sock')
    (hchunks : chunks.flatten = sock'.out) :
    (receive .connected chunks).2 = items.map UploadItem.signal ∧
    (receive .connected chunks).1.mBuffer = [] ∧
    (receive .connected chunks).1.mFrameBuffer = ∅ := by
  have hfirst : (0 : UInt32).toNat ≤ frameId.toNat := Nat.zero_le _
  obtain ⟨last', hread⟩ := consumes_upload hitems hfirst hwrap
  have hout := uploadAll_out hitems hsend
  have hall := hread.drain (step_of_short (by decide))
  rw [receive_connected, hchunks, hout, List.nil_append]
  show (packetParser.drain ⟨∅, 0⟩ (uploadBytes frameId items)).2.1 = _ ∧
    (packetParser.drain ⟨∅, 0⟩ (uploadBytes frameId items)).2.2 = _ ∧
    (packetParser.drain ⟨∅, 0⟩ (uploadBytes frameId items)).1.mFrameBuffer = _
  rw [hall]
  exact ⟨rfl, rfl, rfl⟩

/-- A reply and a picture, the stream cut behind its first byte. -/
theorem upload_received_two :
    ∃ sock', uploadAll 0 ⟨[], 100⟩ [⟨.json, [1, 2, 3], 7, fun _ => true⟩,
        ⟨.image, [4], 8, fun _ => true⟩] = some sock' ∧
      (receive .connected [sock'.out.take 1, sock'.out.drop 1]).2 =
        [.jsonResponseReceived [1, 2, 3], .fileReceived 1 [4] 8] := by
  have hsend : (uploadAll 0 ⟨[], 100⟩ [⟨.json, [1, 2, 3], 7, fun _ => true⟩,
      ⟨.image, [4], 8, fun _ => true⟩]).isSome = true := by decide +kernel
  obtain ⟨sock', hsend⟩ := Option.isSome_iff_exists.mp hsend
  have hcut : [sock'.out.take 1, sock'.out.drop 1].flatten = sock'.out := by
    rw [List.flatten_cons, List.flatten_singleton, List.take_append_drop]
  refine ⟨sock', hsend, (upload_received ?_ (by decide) hsend hcut).1⟩
  simp [UploadItem.Sendable]

end Sentry
