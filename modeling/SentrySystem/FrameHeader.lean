/-
The 32-byte frame header shared by the device and its hosts.

`Frame_Header` (`inc/common.h`, `QT/Desktop/inc/net_shared.h`) is a packed
record that both ends read and write in place, so its layout on the wire is
its little-endian memory layout.

* `FrameHeader.toBytes`, `FrameHeader.ofBytes` — the record as memory;
* `ofBytes_toBytes_append` — a header written at the front of a stream is read back;
* `headerOk`, `validateFrameHeader` — the test of `tcp_recv_thread` and the one
  of the Qt host; `validateFrameHeader_eq_headerOk` says they are the same test;
* `validateFrameHeader_toBytes_append` — a header whose `crc` field was filled
  by the device passes the host's test.
-/
import SentrySystem.Crc16
import SentrySystem.Lib.LittleEndian

namespace Sentry

/-- `Frame_Header`. -/
structure FrameHeader where
  magic : UInt16
  dataLen : UInt16
  frameId : UInt32
  pkgCnt : UInt16
  pkgId : UInt16
  type : UInt32
  timestamp : UInt64
  reserved1 : UInt32
  reserved2 : UInt16
  crc : UInt16
  deriving DecidableEq, Repr

/-- `FRAME_MAGIC`. -/
def frameMagic : UInt16 := 0xABCD

/-- `FRAME_HEADER_SIZE`, which is also `sizeof(Frame_Header)`. -/
def frameHeaderSize : ℕ := 32

namespace FrameHeader

/-- The bytes the CRC covers: everything but the `crc` field. -/
def body (h : FrameHeader) : List UInt8 :=
  leBytes 2 h.magic.toNat ++ (leBytes 2 h.dataLen.toNat ++ (leBytes 4 h.frameId.toNat ++
    (leBytes 2 h.pkgCnt.toNat ++ (leBytes 2 h.pkgId.toNat ++ (leBytes 4 h.type.toNat ++
      (leBytes 8 h.timestamp.toNat ++ (leBytes 4 h.reserved1.toNat ++
        leBytes 2 h.reserved2.toNat)))))))

/-- The header as it lies in memory. -/
def toBytes (h : FrameHeader) : List UInt8 := h.body ++ leBytes 2 h.crc.toNat

/-- The field of `w` bytes at offset `off`. -/
def field (raw : List UInt8) (off w : ℕ) : ℕ := leNat ((raw.drop off).take w)

/-- Reading a buffer through a `Frame_Header *`. -/
def ofBytes (raw : List UInt8) : FrameHeader where
  magic := UInt16.ofNat (field raw 0 2)
  dataLen := UInt16.ofNat (field raw 2 2)
  frameId := UInt32.ofNat (field raw 4 4)
  pkgCnt := UInt16.ofNat (field raw 8 2)
  pkgId := UInt16.ofNat (field raw 10 2)
  type := UInt32.ofNat (field raw 12 4)
  timestamp := UInt64.ofNat (field raw 16 8)
  reserved1 := UInt32.ofNat (field raw 24 4)
  reserved2 := UInt16.ofNat (field raw 28 2)
  crc := UInt16.ofNat (field raw 30 2)

@[simp] theorem length_body (h : FrameHeader) : h.body.length = 30 := by
  simp [body]

@[simp] theorem length_toBytes (h : FrameHeader) : h.toBytes.length = frameHeaderSize := by
  simp [toBytes, frameHeaderSize]

theorem field_leBytes {w n : ℕ} (h : n < 256 ^ w) (rest : List UInt8) :
    field (leBytes w n ++ rest) 0 w = n :=
  leNat_leBytes_append h rest

theorem field_skip (w n k w' : ℕ) (rest : List UInt8) :
    field (leBytes w n ++ rest) (w + k) w' = field rest k w' := by
  rw [field, field, drop_leBytes_append]

/-- A header written at the front of a buffer is read back from it. -/
theorem ofBytes_toBytes_append (h : FrameHeader) (rest : List UInt8) :
    ofBytes (h.toBytes ++ rest) = h := by
  have hraw : h.toBytes ++ rest =
      leBytes 2 h.magic.toNat ++ (leBytes 2 h.dataLen.toNat ++ (leBytes 4 h.frameId.toNat ++
        (leBytes 2 h.pkgCnt.toNat ++ (leBytes 2 h.pkgId.toNat ++ (leBytes 4 h.type.toNat ++
          (leBytes 8 h.timestamp.toNat ++ (leBytes 4 h.reserved1.toNat ++
            (leBytes 2 h.reserved2.toNat ++ (leBytes 2 h.crc.toNat ++ rest))))))))) := by
    simp [toBytes, body, List.append_assoc]
  set raw := h.toBytes ++ rest
  -- each field is reached by skipping the ones before it
  have hmagic : field raw 0 2 = h.magic.toNat := hraw ▸ field_leBytes h.magic.toNat_lt _
  have hdataLen : field raw 2 2 = h.dataLen.toNat := by
    rw [hraw, field_skip 2 _ 0, field_leBytes h.dataLen.toNat_lt]
  have hframeId : field raw 4 4 = h.frameId.toNat := by
    rw [hraw, field_skip 2 _ 2, field_skip 2 _ 0, field_leBytes h.frameId.toNat_lt]
  have hpkgCnt : field raw 8 2 = h.pkgCnt.toNat := by
    rw [hraw, field_skip 2 _ 6, field_skip 2 _ 4, field_skip 4 _ 0,
      field_leBytes h.pkgCnt.toNat_lt]
  have hpkgId : field raw 10 2 = h.pkgId.toNat := by
    rw [hraw, field_skip 2 _ 8, field_skip 2 _ 6, field_skip 4 _ 2, field_skip 2 _ 0,
      field_leBytes h.pkgId.toNat_lt]
  have htype : field raw 12 4 = h.type.toNat := by
    rw [hraw, field_skip 2 _ 10, field_skip 2 _ 8, field_skip 4 _ 4, field_skip 2 _ 2,
      field_skip 2 _ 0, field_leBytes h.type.toNat_lt]
  have htimestamp : field raw 16 8 = h.timestamp.toNat := by
    rw [hraw, field_skip 2 _ 14, field_skip 2 _ 12, field_skip 4 _ 8, field_skip 2 _ 6,
      field_skip 2 _ 4, field_skip 4 _ 0, field_leBytes h.timestamp.toNat_lt]
  have hreserved1 : field raw 24 4 = h.reserved1.toNat := by
    rw [hraw, field_skip 2 _ 22, field_skip 2 _ 20, field_skip 4 _ 16, field_skip 2 _ 14,
      field_skip 2 _ 12, field_skip 4 _ 8, field_skip 8 _ 0, field_leBytes h.reserved1.toNat_lt]
  have hreserved2 : field raw 28 2 = h.reserved2.toNat := by
    rw [hraw, field_skip 2 _ 26, field_skip 2 _ 24, field_skip 4 _ 20, field_skip 2 _ 18,
      field_skip 2 _ 16, field_skip 4 _ 12, field_skip 8 _ 4, field_skip 4 _ 0,
      field_leBytes h.reserved2.toNat_lt]
  have hcrc : field raw 30 2 = h.crc.toNat := by
    rw [hraw, field_skip 2 _ 28, field_skip 2 _ 26, field_skip 4 _ 22, field_skip 2 _ 20,
      field_skip 2 _ 18, field_skip 4 _ 14, field_skip 8 _ 6, field_skip 4 _ 2,
      field_skip 2 _ 0, field_leBytes h.crc.toNat_lt]
  simp [ofBytes, hmagic, hdataLen, hframeId, hpkgCnt, hpkgId, htype, htimestamp, hreserved1,
    hreserved2, hcrc]

/-- Only the first 32 bytes of a buffer are read through a header pointer. -/
theorem ofBytes_take (raw : List UInt8) : ofBytes (raw.take frameHeaderSize) = ofBytes raw := by
  have hfield : ∀ off w, off + w ≤ 32 → field (raw.take frameHeaderSize) off w = field raw off w := by
    intro off w hw
    rw [field, field, List.drop_take, List.take_take, Nat.min_eq_left (by
      rw [frameHeaderSize]; omega)]
  simp only [ofBytes, FrameHeader.mk.injEq]
  refine ⟨?_, ?_, ?_, ?_, ?_, ?_, ?_, ?_, ?_, ?_⟩ <;> rw [hfield _ _ (by omega)]

theorem take_toBytes_append (h : FrameHeader) (rest : List UInt8) :
    (h.toBytes ++ rest).take 30 = h.body := by
  rw [toBytes, List.append_assoc, List.take_append_of_le_length (by simp),
    List.take_of_length_le (by simp)]

end FrameHeader

open FrameHeader

/-- The test `tcp_recv_thread` makes on the 32 bytes it has read: magic and CRC. -/
def headerOk (raw : List UInt8) : Bool :=
  (ofBytes raw).magic == frameMagic && crc16Ccitt (raw.take 30) == (ofBytes raw).crc

/-- `validateFrameHeader` of the Qt host. -/
def validateFrameHeader (raw : List UInt8) : Bool :=
  if (ofBytes raw).magic != frameMagic then false
  else crc16Xmodem (raw.take 30) == (ofBytes raw).crc

theorem validateFrameHeader_eq_headerOk (raw : List UInt8) :
    validateFrameHeader raw = headerOk raw := by
  rw [validateFrameHeader, headerOk, crc16Ccitt_eq_crc16Xmodem]
  cases hm : (ofBytes raw).magic == frameMagic <;> simp [bne, hm]

/-- A buffer and its first 32 bytes pass the test alike. -/
theorem validateFrameHeader_take (raw : List UInt8) :
    validateFrameHeader (raw.take frameHeaderSize) = validateFrameHeader raw := by
  rw [validateFrameHeader, validateFrameHeader, ofBytes_take, List.take_take]
  rfl

/-- A header carrying the magic and the device's CRC of its body. -/
def FrameHeader.Sealed (h : FrameHeader) : Prop :=
  h.magic = frameMagic ∧ h.crc = crc16Ccitt h.body

/-- **A header the device sealed passes the host's test**, wherever it lies in
the host's buffer. -/
theorem validateFrameHeader_toBytes_append {h : FrameHeader} (hs : h.Sealed)
    (rest : List UInt8) : validateFrameHeader (h.toBytes ++ rest) = true := by
  rw [validateFrameHeader_eq_headerOk, headerOk, ofBytes_toBytes_append, take_toBytes_append,
    hs.1, hs.2]
  simp

/-- A packet with a valid header and any fields, followed by `data_len` bytes. -/
structure SealedPacket where
  hdr : FrameHeader
  payload : List UInt8
  isSealed : hdr.Sealed
  length_eq : payload.length = hdr.dataLen.toNat

/-- The bytes of a packet. -/
def SealedPacket.bytes (p : SealedPacket) : List UInt8 := p.hdr.toBytes ++ p.payload

/-- A packet with the other fields of a header. -/
def SealedPacket.of (hdr : FrameHeader) (payload : List UInt8)
    (h : payload.length = hdr.dataLen.toNat) : SealedPacket where
  hdr := { hdr with magic := frameMagic, crc := crc16Ccitt { hdr with magic := frameMagic }.body }
  payload := payload
  isSealed := ⟨rfl, rfl⟩
  length_eq := h

end Sentry
