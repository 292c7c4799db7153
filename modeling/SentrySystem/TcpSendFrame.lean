/-
The packetiser of the TCP upload (`Tcp_Send_Frame` in `src/net/tcp_send.c`).

A frame is cut into packets of at most 1400 bytes, each behind a header that
repeats the frame's id, type, timestamp and packet count.

* `tcpSendFrame` — the function, on a socket that may fail at any byte and with
  `running` read before each packet;
* `tcpSendFrame_out` — a successful call has written the packets
  `0 .. totalPkgs - 1` of the frame, in order;
* `flatMap_chunk` — the chunks of the packets are the data.
-/
import SentrySystem.Common
import SentrySystem.FrameHeader

namespace Sentry

open FrameHeader

/-! ### The code -/

/-- A connected socket: what was written to it, and how many bytes it accepts
before a `send` on it fails. -/
structure Socket where
  out : List UInt8
  room : ℕ

/-- `Tcp_Send_All`: whether it returned 0, and the socket it leaves. -/
def tcpSendAll (sock : Socket) (buf : List UInt8) : Bool × Socket :=
  if buf.length ≤ sock.room then (true, ⟨sock.out ++ buf, sock.room - buf.length⟩)
  else (false, ⟨sock.out ++ buf.take sock.room, 0⟩)

/-- `Tcp_Send_Packet`, `data` being the memory at its pointer. -/
def tcpSendPacket (sock : Socket) (header : FrameHeader) (data : List UInt8) : Bool × Socket :=
  let r := tcpSendAll sock header.toBytes
  if r.1 = false then (false, r.2)
  else if header.dataLen = 0 then (true, r.2)
  else tcpSendAll r.2 (data.take header.dataLen.toNat)

/-- `TCP_CHUNK_SIZE`. -/
def tcpChunkSize : UInt32 := 1400

/-- `total_pkgs`. -/
def totalPkgs (sendLen : UInt32) : UInt16 :=
  ((sendLen + tcpChunkSize - 1) / tcpChunkSize).toUInt16

/-- `current_chunk` of packet `i`. -/
def currentChunk (sendLen : UInt32) (i : UInt16) : UInt16 :=
  let offset := i.toUInt32 * tcpChunkSize
  (if sendLen - offset > tcpChunkSize then tcpChunkSize else sendLen - offset).toUInt16

/-- `hdr` of packet `i`, its `crc` field computed over the others. -/
def packetHeader (frameId sendLen : UInt32) (type : FileType) (ts : UInt64) (i : UInt16) :
    FrameHeader :=
  let hdr : FrameHeader :=
    { magic := 0xABCD
      frameId := frameId
      pkgCnt := totalPkgs sendLen
      pkgId := i
      type := type.code
      dataLen := currentChunk sendLen i
      timestamp := ts
      reserved1 := 0
      reserved2 := 0
      crc := 0 }
  { hdr with crc := crc16Ccitt hdr.body }

/-- What one call of `Tcp_Send_Frame` is given: `tcp->current_frame_id`, its other
arguments with the memory at `send_data`, the clock, and `running` as it is
read before each packet. -/
structure SendCall where
  currentFrameId : UInt32
  sendData : List UInt8
  sendLen : UInt32
  type : FileType
  ts : UInt64
  running : UInt16 → Bool

/-- The last `n` rounds of the loop, from packet `i` on. -/
def sendLoop (c : SendCall) : ℕ → UInt16 → Socket → Bool × Socket
  | 0, _, sock => (true, sock)
  | n + 1, i, sock =>
    if c.running i = false then (false, sock)
    else
      let offset := i.toUInt32 * tcpChunkSize
      let hdr := packetHeader c.currentFrameId c.sendLen c.type c.ts i
      let r := tcpSendPacket sock hdr (c.sendData.drop offset.toNat)
      if r.1 = false then (false, r.2) else sendLoop c n (i + 1) r.2

/-- `Tcp_Send_Frame`: whether it returned 0, and the socket it leaves. -/
def tcpSendFrame (c : SendCall) (sock : Socket) : Bool × Socket :=
  if c.sendLen = 0 then (true, sock)
  else sendLoop c (totalPkgs c.sendLen).toNat 0 sock

/-! ### What a successful call writes -/

/-- Packet `i` as it is written: the header and its chunk of the data. -/
def packetBytes (c : SendCall) (i : UInt16) : List UInt8 :=
  let hdr := packetHeader c.currentFrameId c.sendLen c.type c.ts i
  hdr.toBytes ++ (c.sendData.drop (i.toUInt32 * tcpChunkSize).toNat).take hdr.dataLen.toNat

theorem tcpSendAll_out {sock sock' : Socket} {buf : List UInt8}
    (h : tcpSendAll sock buf = (true, sock')) : sock'.out = sock.out ++ buf := by
  rw [tcpSendAll] at h
  split_ifs at h
  · simp only [Prod.mk.injEq, true_and] at h
    rw [← h]
  · simp at h

theorem tcpSendPacket_out {sock sock' : Socket} {header : FrameHeader} {data : List UInt8}
    (h : tcpSendPacket sock header data = (true, sock')) :
    sock'.out = sock.out ++ (header.toBytes ++ data.take header.dataLen.toNat) := by
  simp only [tcpSendPacket] at h
  rcases hr : tcpSendAll sock header.toBytes with ⟨ok, mid⟩
  rw [hr] at h
  split_ifs at h with hfail hempty
  · simp at h
  · simp only [Bool.not_eq_false] at hfail
    simp only [Prod.mk.injEq, true_and] at h
    rw [← h, tcpSendAll_out (hfail ▸ hr), hempty]
    simp
  · simp only [Bool.not_eq_false] at hfail
    rw [tcpSendAll_out h, tcpSendAll_out (hfail ▸ hr), List.append_assoc]

/-- A successful rest of the loop has written the packets from `i` on. -/
theorem sendLoop_out {c : SendCall} : ∀ {n : ℕ} {i : UInt16} {sock sock' : Socket},
    sendLoop c n i sock = (true, sock') →
    sock'.out = sock.out ++ (List.range n).flatMap fun k => packetBytes c (i + UInt16.ofNat k) := by
  intro n
  induction n with
  | zero =>
    intro i sock sock' h
    simp only [sendLoop, Prod.mk.injEq, true_and] at h
    simp [h]
  | succ n ih =>
    intro i sock sock' h
    simp only [sendLoop] at h
    rcases hr : tcpSendPacket sock (packetHeader c.currentFrameId c.sendLen c.type c.ts i)
      (c.sendData.drop (i.toUInt32 * tcpChunkSize).toNat) with ⟨ok, mid⟩
    rw [hr] at h
    split_ifs at h with hstop hfail
    · simp at h
    · simp at h
    · simp only [Bool.not_eq_false] at hfail
      have hpacket : mid.out = sock.out ++ packetBytes c i := tcpSendPacket_out (hfail ▸ hr)
      -- packet `k` of the rest is packet `k + 1` from `i` on
      have hnext : ∀ k, i + 1 + UInt16.ofNat k = i + UInt16.ofNat (k + 1) := by
        intro k
        rw [UInt16.ofNat_add, UInt16.add_assoc, UInt16.add_comm (UInt16.ofNat k)]
        rfl
      have hfirst : i + UInt16.ofNat 0 = i := by simp
      rw [ih h, hpacket, List.range_succ_eq_map, List.flatMap_cons, List.flatMap_map,
        List.append_assoc, hfirst]
      simp only [hnext]

/-- **A successful call has written the packets of the frame**, in order. -/
theorem tcpSendFrame_out {c : SendCall} {sock sock' : Socket} (hlen : c.sendLen ≠ 0)
    (h : tcpSendFrame c sock = (true, sock')) :
    sock'.out = sock.out ++
      (List.range (totalPkgs c.sendLen).toNat).flatMap fun k => packetBytes c (UInt16.ofNat k) := by
  rw [tcpSendFrame, if_neg hlen] at h
  rw [sendLoop_out h]
  simp

/-! ### When a call is successful -/

theorem tcpSendAll_of_room {sock : Socket} {buf : List UInt8} (h : buf.length ≤ sock.room) :
    tcpSendAll sock buf = (true, ⟨sock.out ++ buf, sock.room - buf.length⟩) := if_pos h

/-- The longest packet fits. -/
theorem tcpSendPacket_of_room {sock : Socket} {header : FrameHeader} {data : List UInt8}
    (h : 65567 ≤ sock.room) :
    ∃ sock', tcpSendPacket sock header data = (true, sock') ∧ sock.room ≤ sock'.room + 65567 := by
  have hheader : header.toBytes.length = 32 := length_toBytes header
  have hdata : (data.take header.dataLen.toNat).length ≤ 65535 :=
    le_trans (List.length_take_le _ _) (Nat.le_of_lt_succ header.dataLen.toNat_lt)
  have hfirst : tcpSendAll sock header.toBytes =
      (true, ⟨sock.out ++ header.toBytes, sock.room - header.toBytes.length⟩) :=
    tcpSendAll_of_room (by omega)
  simp only [tcpSendPacket, hfirst]
  rw [if_neg (by simp)]
  by_cases hempty : header.dataLen = 0
  · rw [if_pos hempty]
    refine ⟨_, rfl, ?_⟩
    show sock.room ≤ sock.room - header.toBytes.length + 65567
    omega
  · rw [if_neg hempty, tcpSendAll_of_room (by
      show _ ≤ sock.room - header.toBytes.length
      omega)]
    refine ⟨_, rfl, ?_⟩
    show sock.room ≤ sock.room - header.toBytes.length - _ + 65567
    omega

theorem sendLoop_of_room {c : SendCall} (hrun : ∀ i, c.running i = true) {n : ℕ} :
    ∀ {i : UInt16} {sock : Socket}, n * 65567 ≤ sock.room →
      ∃ sock', sendLoop c n i sock = (true, sock') := by
  induction n with
  | zero =>
    intro i sock _
    exact ⟨sock, rfl⟩
  | succ n ih =>
    intro i sock h
    rw [Nat.succ_mul] at h
    obtain ⟨mid, hpacket, hroom⟩ := @tcpSendPacket_of_room sock
      (packetHeader c.currentFrameId c.sendLen c.type c.ts i)
      (c.sendData.drop (i.toUInt32 * tcpChunkSize).toNat) (le_trans (Nat.le_add_left _ _) h)
    have hmid : n * 65567 ≤ mid.room := Nat.le_of_add_le_add_right (le_trans h hroom)
    obtain ⟨sock', hrest⟩ := @ih (i + 1) mid hmid
    refine ⟨sock', ?_⟩
    rw [sendLoop, hrun]
    simp only [hpacket, hrest]
    rfl

/-- **A call is successful** while `running` is set and the socket takes the packets. -/
theorem tcpSendFrame_of_room {c : SendCall} (hrun : ∀ i, c.running i = true) {sock : Socket}
    (h : (totalPkgs c.sendLen).toNat * 65567 ≤ sock.room) :
    ∃ sock', tcpSendFrame c sock = (true, sock') := by
  rw [tcpSendFrame]
  split_ifs
  · exact ⟨sock, rfl⟩
  · exact sendLoop_of_room hrun h

theorem packetHeader_sealed (frameId sendLen : UInt32) (type : FileType) (ts : UInt64)
    (i : UInt16) : (packetHeader frameId sendLen type ts i).Sealed :=
  ⟨rfl, rfl⟩

/-! ### The chunks -/

/-- Chunk `i` of some data. -/
def chunk (data : List UInt8) (i : ℕ) : List UInt8 := (data.drop (i * 1400)).take 1400

theorem flatMap_chunk_take (data : List UInt8) (n : ℕ) :
    (List.range n).flatMap (chunk data) = data.take (n * 1400) := by
  induction n with
  | zero => simp
  | succ n ih =>
    rw [List.range_succ, List.flatMap_append, ih, Nat.succ_mul, List.take_add]
    simp [chunk]

/-- Enough chunks are the whole data. -/
theorem flatMap_chunk {data : List UInt8} {n : ℕ} (h : data.length ≤ n * 1400) :
    (List.range n).flatMap (chunk data) = data := by
  rw [flatMap_chunk_take, List.take_of_length_le h]

/-- The packet count of data that fits a `uint16_t` of packets is the length in
chunks, rounded up. -/
theorem totalPkgs_toNat {len : ℕ} (h : len ≤ 65535 * 1400) :
    (totalPkgs (UInt32.ofNat len)).toNat = (len + 1399) / 1400 := by
  have hsmall : len < 2 ^ 32 := by omega
  have hsum : (UInt32.ofNat len + tcpChunkSize - 1).toNat = len + 1399 := by
    rw [UInt32.toNat_sub, UInt32.toNat_add, UInt32.toNat_ofNat_of_lt' hsmall]
    simp only [tcpChunkSize, UInt32.reduceToNat]
    omega
  rw [totalPkgs, UInt32.toNat_toUInt16, UInt32.toNat_div, hsum]
  simp only [tcpChunkSize, UInt32.reduceToNat]
  omega

/-- The offset of packet `i` does not wrap. -/
theorem offset_toNat {i : ℕ} (h : i ≤ 65535) :
    ((UInt16.ofNat i).toUInt32 * tcpChunkSize).toNat = i * 1400 := by
  have hi : i < UInt16.size := Nat.lt_succ_of_le h
  rw [UInt32.toNat_mul, UInt16.toNat_toUInt32, UInt16.toNat_ofNat_of_lt' hi]
  simp only [tcpChunkSize, UInt32.reduceToNat]
  omega

/-- `current_chunk` is the length of the chunk. -/
theorem currentChunk_toNat {data : List UInt8} {i : ℕ} (h : data.length ≤ 65535 * 1400)
    (hi : i * 1400 ≤ data.length) :
    (currentChunk (UInt32.ofNat data.length) (UInt16.ofNat i)).toNat = (chunk data i).length := by
  have hoff := offset_toNat (show i ≤ 65535 by omega)
  have hsmall : data.length < UInt32.size := lt_of_le_of_lt h (by decide)
  -- what is left of the data behind the offset
  have hleft : (UInt32.ofNat data.length - (UInt16.ofNat i).toUInt32 * tcpChunkSize).toNat =
      data.length - i * 1400 := by
    rw [UInt32.toNat_sub, hoff, UInt32.toNat_ofNat_of_lt' hsmall]
    omega
  have hlen : (chunk data i).length = min 1400 (data.length - i * 1400) := by simp [chunk]
  rw [currentChunk, UInt32.toNat_toUInt16, hlen]
  simp only [gt_iff_lt, UInt32.lt_iff_toNat_lt]
  have hsize : tcpChunkSize.toNat = 1400 := rfl
  split_ifs with hlt
  · rw [hsize, hleft] at *
    omega
  · rw [hsize, hleft] at *
    omega

end Sentry
