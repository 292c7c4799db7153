/-
The ways of a captured frame (`src/v4l2/v4l2_dev.c`, and the handlers of `src/net/udp_send.c`,
`src/alarm/alarm.cpp`, `src/storage/storage_video.cpp` and `src/net/tcp_send.c`).

`camera_capture_thread` copies a frame to a buffer of `FRAME_WIDTH * FRAME_HIGH * 2` bytes, and
each handler copies it on to a buffer of its own size.  Only `tcp_send_msg_handler` looks at
the length, and the `frame_buffer` of the detector is smaller than the camera's buffer.  A copy
that leaves its buffer has no result here.

* `captureFrame` — the copy of the camera thread;
* `udpMsgHandler`, `alarmMsgHandler`, `storageImageHandler`, `tcpImageHandler` — those of the
  handlers;
* `ChunksExact` — what `Udp_Send_Frame` makes of a length;
* `frameFits_iff` — the frames that fit all of them.
-/
import SentrySystem.AlarmDecode
import SentrySystem.Lib.Tiles
import SentrySystem.StorageBlocks
import SentrySystem.TcpSendThread
import SentrySystem.UdpSendThread

namespace Sentry

/-! ### The code -/

/-- The size of a camera buffer, `FRAME_WIDTH * FRAME_HIGH * 2`. -/
def cameraBufSize : ℕ := 320 * 240 * 2

/-- An `Image_Data` of `camera_data`, its `data` pointing to a buffer of the camera. -/
structure CameraBuffer where
  timestamps : UInt64
  len : UInt32
  data : FixedBuffer UInt8 cameraBufSize
  index : UInt8

/-- The `Image_Data` as the handlers see it. -/
def CameraBuffer.image (b : CameraBuffer) : CameraData := ⟨b.timestamps, b.len, b.data.cells, b.index⟩

/-- `camera_capture_thread` on a dequeued buffer, up to `gettime_us`. -/
def captureFrame (b : CameraBuffer) (buf : V4l2Buffer) (now : UInt64) : Option CameraBuffer :=
  (b.data.memcpy buf.bytes buf.bytesused.toNat).map fun data =>
    { b with data := data, len := buf.bytesused, timestamps := now }

/-- The fields of `UDP_Send_Buffer` that `udp_msg_handler` uses. -/
structure UdpImageSlot where
  isSending : Bool
  sendBuf : FixedBuffer UInt8 udpSendBufSize
  sendBufLen : UInt32

/-- `udp_msg_handler`, for an image. -/
def udpMsgHandler (s : UdpImageSlot) (img : CameraData) : Option UdpImageSlot :=
  if s.isSending then some s
  else (s.sendBuf.memcpy img.data img.len.toNat).map fun sendBuf => ⟨true, sendBuf, img.len⟩

/-- The fields of `Process_Data` that `alarm_msg_handler` uses. -/
structure ProcessFrame where
  frameBuffer : FixedBuffer UInt8 frameBufferSize
  frameLen : UInt32
  isUpdated : Bool

/-- `alarm_msg_handler`, for an image. -/
def alarmMsgHandler (s : ProcessFrame) (img : CameraData) : Option ProcessFrame :=
  (s.frameBuffer.memcpy img.data img.len.toNat).map fun frameBuffer => ⟨frameBuffer, img.len, true⟩

/-- `storage_msg_handler`, for an image; `assign` makes the vector as long as it has to be. -/
def storageImageHandler (s : StorageState) (img : CameraData) : Option StorageState :=
  if img.len.toNat ≤ img.data.length then
    some (storageMsgHandler s
      ⟨⟨img.data.take img.len.toNat, (List.length_take_le _ _).trans_lt img.len.toNat_lt⟩,
        img.timestamps⟩)
  else none

/-- The fields of `Tcp_Data_Buffer` that `tcp_send_msg_handler` uses for an image. -/
structure TcpImageSlot where
  isSending : Bool
  dataType : TcpDataType
  type : FileType
  sendBuf : FixedBuffer UInt8 sendBufCapacity.toNat
  sendBufLen : UInt32

/-- `tcp_send_msg_handler`, for an image whose `data` is not null. -/
def tcpImageHandler (s : TcpImageSlot) (img : CameraData) : Option TcpImageSlot :=
  if img.len = 0 then some s
  else if s.isSending then some s
  else if tcpEnsureSendBuffer img.len then
    (s.sendBuf.memcpy img.data img.len.toNat).map fun sendBuf =>
      ⟨true, .normal, .normal, sendBuf, img.len⟩
  else some s

/-- The buffers of the four consumers. -/
structure FrameConsumers where
  udp : UdpImageSlot
  alarm : ProcessFrame
  storage : StorageState
  tcp : TcpImageSlot

/-- The packets of `Udp_Send_Frame`: the offset and the length of each. -/
def udpChunks (sendLen : UInt32) : List (ℕ × ℕ) :=
  (List.range (totalPkgs sendLen).toNat).map fun i =>
    (((UInt16.ofNat i).toUInt32 * tcpChunkSize).toNat,
      (currentChunk sendLen (UInt16.ofNat i)).toNat)

/-! ### The packets -/

/-- The packet count is not cut off; the packets have 1 to 1400 bytes and lie one behind the
other; each byte is in exactly one of them, and together they are the data. -/
structure ChunksExact (sendLen : UInt32) : Prop where
  count : (totalPkgs sendLen).toNat = (sendLen.toNat + 1399) / 1400
  size : ∀ p ∈ udpChunks sendLen, 1 ≤ p.2 ∧ p.2 ≤ 1400
  tiles : Tiles 0 (udpChunks sendLen) sendLen.toNat
  once : ∀ x < sendLen.toNat, (udpChunks sendLen).countP (Tiles.inPiece x) = 1
  payloads : ∀ mem : List UInt8,
    (udpChunks sendLen).flatMap (fun p => (mem.drop p.1).take p.2) = mem.take sendLen.toNat

/-- The packets are blocks of 1400 bytes. -/
theorem udpChunks_eq {sendLen : UInt32} (h : sendLen.toNat ≤ 65535 * 1400) :
    udpChunks sendLen = Tiles.blocks 1400 sendLen.toNat ((sendLen.toNat + 1399) / 1400) := by
  obtain ⟨data, hdata⟩ : ∃ data : List UInt8, data.length = sendLen.toNat :=
    ⟨List.replicate sendLen.toNat 0, List.length_replicate⟩
  have hlen : UInt32.ofNat data.length = sendLen := by rw [hdata, UInt32.ofNat_toNat]
  have hcount : (totalPkgs sendLen).toNat = (sendLen.toNat + 1399) / 1400 := by
    have hpkgs := totalPkgs_toNat h
    rwa [UInt32.ofNat_toNat] at hpkgs
  rw [udpChunks, Tiles.blocks, hcount]
  refine List.map_congr_left ?_
  intro i hi
  rw [List.mem_range] at hi
  have hin : i * 1400 ≤ data.length := by omega
  have hchunk := currentChunk_toNat (hdata ▸ h) hin
  rw [hlen, chunk, List.length_take, List.length_drop, hdata] at hchunk
  rw [offset_toNat (by omega), hchunk]

/-- As many blocks as the packet count says. -/
theorem tiles_chunks (len : ℕ) : Tiles 0 (Tiles.blocks 1400 len ((len + 1399) / 1400)) len := by
  refine Tiles.of_blocks (by omega) ?_
  intro i hi
  omega

theorem chunksExact {sendLen : UInt32} (h : sendLen.toNat ≤ 65535 * 1400) :
    ChunksExact sendLen := by
  have htiles : Tiles 0 (udpChunks sendLen) sendLen.toNat := by
    rw [udpChunks_eq h]
    exact tiles_chunks sendLen.toNat
  refine ⟨?_, ?_, htiles, fun x hx => htiles.countP (Nat.zero_le x) hx, htiles.flatMap_slices⟩
  · have hpkgs := totalPkgs_toNat h
    rwa [UInt32.ofNat_toNat] at hpkgs
  · rw [udpChunks_eq h]
    intro p hp
    obtain ⟨i, hi, rfl⟩ := List.mem_map.mp hp
    rw [List.mem_range] at hi
    dsimp only
    omega

/-! ### The copies -/

/-- All copies of an image stay in their buffers, and its packets are exact. -/
structure FrameFits (c : FrameConsumers) (img : CameraData) : Prop where
  udp : (udpMsgHandler c.udp img).isSome
  alarm : (alarmMsgHandler c.alarm img).isSome
  storage : (storageImageHandler c.storage img).isSome
  tcp : (tcpImageHandler c.tcp img).isSome
  chunks : ChunksExact img.len

/-- A frame that fits the camera's buffer is captured. -/
theorem captureFrame_eq (b : CameraBuffer) {buf : V4l2Buffer}
    (h : buf.bytes.length ≤ cameraBufSize) (now : UInt64) :
    ∃ b', captureFrame b buf now = some b' ∧ b'.image.len.toNat = buf.bytes.length ∧
      b'.image.data.length = cameraBufSize ∧
      b'.image.data.take buf.bytes.length = buf.bytes := by
  have hlen : buf.bytesused.toNat = buf.bytes.length :=
    UInt32.toNat_ofNat_of_lt' buf.size_lt
  have hsome : (b.data.memcpy buf.bytes buf.bytesused.toNat).isSome :=
    (b.data.isSome_memcpy _ _).mpr ⟨hlen ▸ h, hlen.le⟩
  obtain ⟨data, hdata⟩ := Option.isSome_iff_exists.mp hsome
  have hcopied := FixedBuffer.take_memcpy hdata
  rw [hlen, List.take_length] at hcopied
  refine ⟨{ b with data := data, len := buf.bytesused, timestamps := now }, ?_, hlen,
    data.length_eq, hcopied⟩
  rw [captureFrame, hdata]
  rfl

section
variable {c : FrameConsumers} {img : CameraData}

theorem isSome_alarmMsgHandler (hdata : img.len.toNat ≤ img.data.length) :
    (alarmMsgHandler c.alarm img).isSome ↔ img.len.toNat ≤ frameBufferSize := by
  rw [alarmMsgHandler, Option.isSome_map, FixedBuffer.isSome_memcpy]
  exact and_iff_left hdata

theorem isSome_udpMsgHandler (hdata : img.len.toNat ≤ img.data.length)
    (hroom : img.len.toNat ≤ udpSendBufSize) : (udpMsgHandler c.udp img).isSome := by
  rw [udpMsgHandler]
  split_ifs
  · rfl
  · rw [Option.isSome_map, FixedBuffer.isSome_memcpy]
    exact ⟨hroom, hdata⟩

theorem isSome_storageImageHandler (hdata : img.len.toNat ≤ img.data.length) :
    (storageImageHandler c.storage img).isSome := by
  rw [storageImageHandler, if_pos hdata]
  rfl

/-- The length is tested in front of the copy. -/
theorem isSome_tcpImageHandler (hdata : img.len.toNat ≤ img.data.length) :
    (tcpImageHandler c.tcp img).isSome := by
  rw [tcpImageHandler]
  split_ifs with hzero hbusy hroom
  · rfl
  · rfl
  · rw [tcpEnsureSendBuffer, decide_eq_true_eq, UInt32.le_iff_toNat_le] at hroom
    rw [Option.isSome_map, FixedBuffer.isSome_memcpy]
    exact ⟨hroom, hdata⟩
  · rfl

/-- An image in a buffer of the camera fits exactly if the detector has room for it. -/
theorem frameFits_image (hdata : img.len.toNat ≤ img.data.length)
    (hsize : img.len.toNat ≤ cameraBufSize) :
    FrameFits c img ↔ img.len.toNat ≤ frameBufferSize := by
  have hcamera : cameraBufSize = 153600 := rfl
  constructor
  · intro h
    exact (isSome_alarmMsgHandler hdata).mp h.alarm
  · intro h
    have hudp : img.len.toNat ≤ udpSendBufSize :=
      hsize.trans (by decide)
    exact ⟨isSome_udpMsgHandler hdata hudp, (isSome_alarmMsgHandler hdata).mpr h,
      isSome_storageImageHandler hdata, isSome_tcpImageHandler hdata, chunksExact (by omega)⟩

end

/-! ### The handlers of the other models -/

/-- What `udp_msg_handler` uses of the sender. -/
def UdpSender.slot (s : UdpSender) : UdpImageSlot :=
  ⟨s.isSending, ⟨s.sendBuf.bytes, s.sendBuf.size_eq⟩, s.sendBufLen⟩

/-- `udp_msg_handler` in three steps. -/
theorem udpMsgHandler_run {s : UdpSender} {image : SlotImage} {img : CameraData}
    (hidle : s.handler = .idle) (hfree : s.isSending = false)
    (hlen : img.len.toNat = image.content.length)
    (hdata : img.data.take image.content.length = image.content) (mem : SendBuf) :
    ∃ t, (udpSlotSystem mem).run s [.image image, .copy, .store] = some t ∧
      udpMsgHandler s.slot img = some t.slot := by
  have hroom : img.len.toNat ≤ udpSendBufSize ∧ img.len.toNat ≤ img.data.length := by
    have hsource : image.content.length ≤ img.data.length := by
      conv_lhs => rw [← hdata]
      exact List.length_take_le' _ _
    rw [hlen]
    exact ⟨image.length_le, hsource⟩
  have hofNat : img.len = UInt32.ofNat image.content.length := by
    rw [← hlen, UInt32.ofNat_toNat]
  refine ⟨{ s with
    isSending := true
    sendBuf := s.sendBuf.copy image
    sendBufLen := img.len
    handler := .idle
    accepted := s.accepted ++ [image.content] }, ?_, ?_⟩
  · simp [udpSlotSystem, udpSlotStep, hidle, hfree, hofNat]
  · have hcopied : img.data.take img.len.toNat = image.content := by rw [hlen, hdata]
    rw [udpMsgHandler, FixedBuffer.memcpy, dif_pos hroom]
    simp only [UdpSender.slot, hfree, Bool.false_eq_true, if_false, Option.map_some, hcopied,
      SendBuf.copy]

/-- The copy of `alarm_msg_handler`, byte by byte. -/
theorem copyByte_run {image : List UInt8} : ∀ {n j : ℕ} {s : DecodeState},
    s.handler = .copying image j → j + n ≤ image.length →
    s.overflowed = decide (frameBufferSize < j) →
    ∃ t, decodeSystem.run s (List.replicate n .copyByte) = some t ∧
      t.handler = .copying image (j + n) ∧ t.overflowed = decide (frameBufferSize < j + n) := by
  intro n
  induction n with
  | zero =>
    intro j s hhandler _ hover
    exact ⟨s, rfl, hhandler, hover⟩
  | succ n ih =>
    intro j s hhandler hle hover
    have hbyte : image[j]? = some image[j] := List.getElem?_eq_getElem (by omega)
    have hstep : decodeSystem.step s .copyByte =
        some { storeByte s j image[j] with handler := .copying image (j + 1) } := by
      simp only [decodeSystem, decodeStep, hhandler, hbyte]
    have hnext : (storeByte s j image[j]).overflowed = decide (frameBufferSize < j + 1) := by
      rw [storeByte]
      split_ifs with hin
      · rw [show s.overflowed = _ from hover, decide_eq_false (by omega), decide_eq_false (by omega)]
      · rw [decide_eq_true (by omega)]
    obtain ⟨t, hrun, hcopying, hlast⟩ := ih (s := { storeByte s j image[j] with
      handler := .copying image (j + 1) }) rfl (by omega) hnext
    refine ⟨t, ?_, ?_, ?_⟩
    · rw [List.replicate_succ, TransitionSystem.run_cons_of_step hstep, hrun]
    · rw [hcopying, Nat.add_right_comm]
      rfl
    · rw [hlast, Nat.add_right_comm]
      rfl

/-- `alarm_msg_handler`, byte by byte, goes past `frame_buffer` exactly where the copy has no
result. -/
theorem alarmMsgHandler_run {s : DecodeState} {c : FrameConsumers} {img : CameraData}
    (hidle : s.handler = .idle) (hover : s.overflowed = false)
    (hdata : img.len.toNat ≤ img.data.length) :
    ∃ t, decodeSystem.run s (.image (img.data.take img.len.toNat) ::
        (List.replicate img.len.toNat .copyByte ++ [.update])) = some t ∧
      t.frameLen = img.len.toNat ∧
      (t.overflowed = false ↔ (alarmMsgHandler c.alarm img).isSome) := by
  have hlen : (img.data.take img.len.toNat).length = img.len.toNat := by
    rw [List.length_take, min_eq_left hdata]
  generalize img.data.take img.len.toNat = image at hlen
  have hstart : decodeSystem.step s (.image image) =
      some { s with handler := .copying image 0, delivered := s.delivered ++ [image] } := by
    simp only [decodeSystem, decodeStep, hidle]
  obtain ⟨t, hrun, hcopying, hlast⟩ := copyByte_run (n := img.len.toNat)
    (s := { s with handler := .copying image 0, delivered := s.delivered ++ [image] }) rfl
    (by omega) (by rw [hover]; rfl)
  rw [Nat.zero_add] at hcopying hlast
  have hend : decodeSystem.step t .update =
      some { t with frameLen := image.length, isUpdated := true, handler := .idle } := by
    simp only [decodeSystem, decodeStep, hcopying, hlen, if_true]
  refine ⟨{ t with frameLen := image.length, isUpdated := true, handler := .idle }, ?_, hlen, ?_⟩
  · rw [TransitionSystem.run_cons_of_step hstart, TransitionSystem.run_append, hrun,
      Option.bind_some, TransitionSystem.run_cons_of_step hend]
    rfl
  · rw [isSome_alarmMsgHandler hdata]
    show t.overflowed = false ↔ _
    rw [hlast, decide_eq_false_iff_not, Nat.not_lt]

/-- `tcp_send_msg_handler` takes the same images as on the slot, with the same length. -/
theorem tcpImageHandler_handleImage {b : TcpDataBuffer} {s s' : TcpImageSlot} {img : CameraData}
    (hfree : s.isSending = b.isSending) (hlen : s.sendBufLen = b.sendBufLen)
    (hdata : ∀ bytes ∈ some img.data, img.len.toNat ≤ bytes.length)
    (h : tcpImageHandler s img = some s') :
    s'.isSending = (handleImage b (some ⟨some img.data, img.len, hdata⟩)).1.isSending ∧
      s'.sendBufLen = (handleImage b (some ⟨some img.data, img.len, hdata⟩)).1.sendBufLen := by
  rw [tcpImageHandler] at h
  simp only [handleImage]
  by_cases hzero : img.len = 0
  · rw [if_pos hzero] at h ⊢
    rw [← Option.some_inj.mp h]
    exact ⟨hfree, hlen⟩
  rw [if_neg hzero] at h ⊢
  by_cases hbusy : b.isSending = true
  · rw [if_pos (hfree.trans hbusy)] at h
    rw [if_pos hbusy, ← Option.some_inj.mp h]
    exact ⟨hfree, hlen⟩
  rw [if_neg (hfree ▸ hbusy)] at h
  rw [if_neg hbusy]
  by_cases hroom : tcpEnsureSendBuffer img.len = true
  · rw [if_pos hroom, Option.map_eq_some_iff] at h
    obtain ⟨sendBuf, -, rfl⟩ := h
    rw [if_pos hroom]
    exact ⟨rfl, rfl⟩
  · rw [if_neg hroom] at h
    rw [if_neg hroom, ← Option.some_inj.mp h]
    exact ⟨hfree, hlen⟩

/-- **The frames that fit**: of those that fit the camera's buffer, exactly the ones of at most
128 KiB are copied by every consumer inside its buffer and sent in exact packets. -/
theorem frameFits_iff (b : CameraBuffer) (buf : V4l2Buffer) (now : UInt64) (c : FrameConsumers)
    (h : buf.bytes.length ≤ cameraBufSize) : ∃ b', captureFrame b buf now = some b' ∧
      (FrameFits c b'.image ↔ buf.bytes.length ≤ frameBufferSize) := by
  obtain ⟨b', hcapture, hlen, hsize, -⟩ := captureFrame_eq b h now
  refine ⟨b', hcapture, ?_⟩
  rw [frameFits_image (by rw [hlen, hsize]; exact h) (hlen ▸ h), hlen]

/-- A zeroed buffer. -/
def zeroed (n : ℕ) : FixedBuffer UInt8 n := ⟨List.replicate n 0, List.length_replicate⟩

/-- A camera buffer behind `v4l2_data_buffer_init`. -/
def freshCamera : CameraBuffer := ⟨0, 0, zeroed cameraBufSize, 0⟩

/-- The consumers before the first image. -/
def freshConsumers : FrameConsumers where
  udp := ⟨false, zeroed udpSendBufSize, 0⟩
  alarm := ⟨zeroed frameBufferSize, 0, false⟩
  storage := .init
  tcp := ⟨false, .normal, .normal, zeroed sendBufCapacity.toNat, 0⟩

/-- A frame of `n` zeros. -/
def zeroFrame (n : ℕ) (h : n < 2 ^ 32) : V4l2Buffer where
  bytes := List.replicate n 0
  size_lt := List.length_replicate.trans_lt h

theorem frameFits_iff_short : ∃ b', captureFrame freshCamera (zeroFrame 2 (by decide)) 7 = some b' ∧
    (FrameFits freshConsumers b'.image ↔
      (zeroFrame 2 (by decide)).bytes.length ≤ frameBufferSize) :=
  frameFits_iff freshCamera (zeroFrame 2 (by decide)) 7 freshConsumers (by decide)

/-- A frame of 128 KiB and one byte is captured, and leaves the buffer of the detector. -/
theorem frameFits_overrun :
    (zeroFrame 131073 (by decide)).bytes.length ≤ cameraBufSize ∧
    ∃ b', captureFrame freshCamera (zeroFrame 131073 (by decide)) 7 = some b' ∧
      ¬ FrameFits freshConsumers b'.image := by
  have hlength : (zeroFrame 131073 (by decide)).bytes.length = 131073 := List.length_replicate
  have hfits : (zeroFrame 131073 (by decide)).bytes.length ≤ cameraBufSize := by
    rw [hlength]
    decide
  refine ⟨hfits, ?_⟩
  obtain ⟨b', hcapture, hlen, hsize, -⟩ := captureFrame_eq freshCamera hfits 7
  refine ⟨b', hcapture, ?_⟩
  intro h
  have hroom := (isSome_alarmMsgHandler (by rw [hlen, hsize]; exact hfits)).mp h.alarm
  rw [hlen, hlength] at hroom
  exact absurd hroom (by decide)

end Sentry
