/-
The TCP receiver of the Qt host (`QT/Desktop/src/net/Tcp_ControlWorker.cpp`).

`processBuffer` reads packets off the front of a growing buffer, drops a byte
wherever no header lies, and reassembles the packets of a frame in a map.

* `packetParser` — one round of the loop of `processBuffer` is a round of an
  incremental parser;
* `receive_eq_onReadyRead` — how the stream is cut into chunks does not matter;
* `consumes_packet` — a packet in front of the stream;
* `signals_of_garbage` — a prefix without a header does not matter.
-/
import Mathlib
import SentrySystem.Common
import SentrySystem.FrameHeader
import SentrySystem.Lib.StreamParser

namespace Sentry

open FrameHeader

/-- The signals the worker emits. -/
inductive Signal
  | jsonResponseReceived (data : List UInt8)
  | fileReceived (type : UInt32) (data : List UInt8) (tsUs : UInt64)
  deriving DecidableEq, Repr

/-- `FramePackets`: the payloads received of one frame, by packet id. -/
abbrev FramePackets := Std.ExtTreeMap UInt16 (List UInt8)

/-- `m_frameBuffer` and `m_lastCompleteFrameId`. -/
structure Reassembly where
  mFrameBuffer : Std.ExtTreeMap UInt32 FramePackets
  mLastCompleteFrameId : UInt32

/-- The members of `TcpControlWorker` the receiver uses. -/
structure TcpControlWorker extends Reassembly where
  mBuffer : List UInt8

/-- The members after `onNewConnection`. -/
def TcpControlWorker.connected : TcpControlWorker where
  mFrameBuffer := ∅
  mLastCompleteFrameId := 0
  mBuffer := []

/-! ### The code -/

/-- `dispatchFrame`. -/
def dispatchFrame (type : UInt32) (data : List UInt8) (tsUs : UInt64) : List Signal :=
  if type = FileType.json.code then [.jsonResponseReceived data]
  else if type = FileType.db.code ∨ type = FileType.video.code ∨ type = FileType.image.code then
    [.fileReceived type data tsUs]
  else []

/-- `cleanExpiredFrames`. -/
def cleanExpiredFrames (frameBuffer : Std.ExtTreeMap UInt32 FramePackets)
    (currentFrameId : UInt32) : Std.ExtTreeMap UInt32 FramePackets :=
  if frameBuffer.size ≤ 3 then frameBuffer
  else frameBuffer.keys.foldl
    (fun buffer id => if id < currentFrameId - 3 then buffer.erase id else buffer) frameBuffer

/-- The payloads of packets `0 .. pkgCnt - 1`, a missing one being empty. -/
def complete (pkgs : FramePackets) (pkgCnt : ℕ) : List UInt8 :=
  (List.range pkgCnt).flatMap fun i => pkgs.getD (UInt16.ofNat i) []

/-- What `processBuffer` does with a packet taken off the buffer. -/
def acceptPacket (r : Reassembly) (hdr : FrameHeader) (payload : List UInt8) :
    Reassembly × List Signal :=
  -- a frame older than the last complete one is ignored
  if 0 < r.mLastCompleteFrameId ∧ hdr.frameId < r.mLastCompleteFrameId then (r, [])
  else
    let buffer := cleanExpiredFrames r.mFrameBuffer hdr.frameId
    if hdr.pkgCnt ≤ 1 then
      (⟨buffer, hdr.frameId⟩, dispatchFrame hdr.type payload hdr.timestamp)
    else
      let pkgs := (buffer.getD hdr.frameId ∅).insert hdr.pkgId payload
      let buffer := buffer.insert hdr.frameId pkgs
      if pkgs.size = hdr.pkgCnt.toNat then
        (⟨buffer.erase hdr.frameId, hdr.frameId⟩,
          dispatchFrame hdr.type (complete pkgs hdr.pkgCnt.toNat) hdr.timestamp)
      else (⟨buffer, r.mLastCompleteFrameId⟩, [])

/-- One round of the loop of `processBuffer`; `none` leaves the loop. -/
def processRound (r : Reassembly) (buf : List UInt8) :
    Option (Reassembly × List Signal × List UInt8) :=
  if buf.length < frameHeaderSize then none
  else if validateFrameHeader buf = false then some (r, [], buf.drop 1)
  else
    let hdr := ofBytes buf
    let dataLen := hdr.dataLen.toNat
    -- half a packet stays in the buffer
    if buf.length < frameHeaderSize + dataLen then none
    else
      let payload := (buf.drop frameHeaderSize).take dataLen
      let accepted := acceptPacket r hdr payload
      some (accepted.1, accepted.2, buf.drop (frameHeaderSize + dataLen))

/-! ### The loop is an incremental parser -/

theorem ofBytes_append {buf : List UInt8} (h : frameHeaderSize ≤ buf.length)
    (more : List UInt8) : ofBytes (buf ++ more) = ofBytes buf := by
  rw [← ofBytes_take, List.take_append_of_le_length h, ofBytes_take]

theorem validateFrameHeader_append {buf : List UInt8} (h : frameHeaderSize ≤ buf.length)
    (more : List UInt8) : validateFrameHeader (buf ++ more) = validateFrameHeader buf := by
  rw [← validateFrameHeader_take, List.take_append_of_le_length h, validateFrameHeader_take]

theorem processRound_progress {r r' : Reassembly} {buf rest : List UInt8} {os : List Signal}
    (h : processRound r buf = some (r', os, rest)) : rest.length < buf.length := by
  simp only [processRound] at h
  have hpos : 0 < frameHeaderSize := by decide
  split_ifs at h with hlen hbad hhalf
  all_goals
    simp only [Option.some.injEq, Prod.mk.injEq] at h
    rw [← h.2.2, List.length_drop]
    omega

theorem processRound_stable {r r' : Reassembly} {buf rest : List UInt8} {os : List Signal}
    (h : processRound r buf = some (r', os, rest)) (more : List UInt8) :
    processRound r (buf ++ more) = some (r', os, rest ++ more) := by
  simp only [processRound] at h ⊢
  have hpos : 1 ≤ frameHeaderSize := by decide
  split_ifs at h with hlen hbad hhalf
  · -- a byte is dropped whatever follows the 32 bytes in the buffer
    simp only [Option.some.injEq, Prod.mk.injEq] at h
    obtain ⟨rfl, rfl, rfl⟩ := h
    rw [if_neg (by rw [List.length_append]; omega),
      if_pos (by rw [validateFrameHeader_append (by omega), hbad]),
      List.drop_append_of_le_length (by omega)]
  · -- the packet lies whole in the buffer
    simp only [Option.some.injEq, Prod.mk.injEq] at h
    obtain ⟨rfl, rfl, rfl⟩ := h
    rw [if_neg (by rw [List.length_append]; omega),
      if_neg (by rw [validateFrameHeader_append (by omega)]; exact hbad),
      ofBytes_append (by omega), if_neg (by rw [List.length_append]; omega),
      List.drop_append_of_le_length (by omega), List.drop_append_of_le_length (by omega),
      List.take_append_of_le_length (by rw [List.length_drop]; omega)]

/-- The loop of `processBuffer`, round by round. -/
def packetParser : StreamParser Reassembly UInt8 Signal where
  step := processRound
  progress := processRound_progress
  stable := processRound_stable

/-- `processBuffer`, with the signals it emits. -/
def processBuffer (w : TcpControlWorker) : TcpControlWorker × List Signal :=
  let r := packetParser.drain w.toReassembly w.mBuffer
  (⟨r.1, r.2.2⟩, r.2.1)

/-- `onReadyRead` with the bytes the socket holds. -/
def onReadyRead (w : TcpControlWorker) (chunk : List UInt8) : TcpControlWorker × List Signal :=
  processBuffer { w with mBuffer := w.mBuffer ++ chunk }

/-- One `onReadyRead` after the other, with all signals they emit. -/
def receive (w : TcpControlWorker) (chunks : List (List UInt8)) :
    TcpControlWorker × List Signal :=
  chunks.foldl (fun c chunk =>
    let r := onReadyRead c.1 chunk
    (r.1, c.2 ++ r.2)) (w, [])

/-- A run of `onReadyRead` is a run of the parser. -/
theorem foldl_onReadyRead (chunks : List (List UInt8)) (w : TcpControlWorker)
    (os : List Signal) :
    chunks.foldl (fun c chunk =>
      let r := onReadyRead c.1 chunk
      (r.1, c.2 ++ r.2)) (w, os) =
    (fun r => (⟨r.1, r.2.2⟩, r.2.1))
      (chunks.foldl packetParser.feed (w.toReassembly, os, w.mBuffer)) := by
  induction chunks generalizing w os with
  | nil => rfl
  | cons chunk chunks ih =>
    rw [List.foldl_cons, List.foldl_cons, ih]
    rfl

/-- **Segmentation**: one or more chunks have the effect of their concatenation. -/
theorem receive_eq_onReadyRead (w : TcpControlWorker) (chunk : List UInt8)
    (chunks : List (List UInt8)) :
    receive w (chunk :: chunks) = onReadyRead w (chunk :: chunks).flatten := by
  rw [receive, foldl_onReadyRead, StreamParser.feeds_eq_feed]
  rfl

theorem step_of_short {r : Reassembly} {buf : List UInt8} (hlen : buf.length < frameHeaderSize) :
    packetParser.step r buf = none :=
  if_pos hlen

theorem drain_of_short {r : Reassembly} {buf : List UInt8} (hlen : buf.length < frameHeaderSize) :
    packetParser.drain r buf = (r, [], buf) :=
  StreamParser.drain_of_none (step_of_short hlen)

/-- From a fresh connection this includes the stream without any chunk. -/
theorem receive_connected (chunks : List (List UInt8)) :
    receive .connected chunks = onReadyRead .connected chunks.flatten := by
  rcases chunks with _ | ⟨chunk, chunks⟩
  · have hwait : packetParser.drain TcpControlWorker.connected.toReassembly [] =
        (TcpControlWorker.connected.toReassembly, [], []) := drain_of_short (by decide)
    have hbuf : TcpControlWorker.connected.mBuffer ++ [] = [] := rfl
    simp only [receive, List.foldl_nil, List.flatten_nil, onReadyRead, processBuffer, hbuf, hwait]
    rfl
  · exact receive_eq_onReadyRead _ _ _

/-! ### One packet -/

/-- A packet in front of the stream is taken off it and accepted. -/
theorem consumes_packet (r : Reassembly) {hdr : FrameHeader} {payload : List UInt8}
    (hs : hdr.Sealed) (hlen : payload.length = hdr.dataLen.toNat) :
    packetParser.Consumes r (hdr.toBytes ++ payload) (acceptPacket r hdr payload).1
      (acceptPacket r hdr payload).2 := by
  have hsize : (hdr.toBytes ++ payload).length = frameHeaderSize + hdr.dataLen.toNat := by
    rw [List.length_append, length_toBytes, hlen]
  have hpayload : (hdr.toBytes ++ payload).drop frameHeaderSize = payload :=
    List.drop_left' (length_toBytes hdr)
  have hend : (hdr.toBytes ++ payload).drop (frameHeaderSize + hdr.dataLen.toNat) = [] :=
    List.drop_of_length_le hsize.le
  refine .of_step ?_
  show processRound r (hdr.toBytes ++ payload) = _
  rw [processRound, if_neg (by omega), validateFrameHeader_toBytes_append hs, if_neg (by decide)]
  simp only [ofBytes_toBytes_append, hpayload, hend]
  rw [if_neg (by omega), List.take_of_length_le hlen.le]

/-! ### Garbage in front of the stream -/

/-- No offset in `g` starts a header in `g ++ s`. -/
def NoHeaderIn (g s : List UInt8) : Prop :=
  ∀ k < g.length, k + frameHeaderSize ≤ (g ++ s).length →
    validateFrameHeader (((g ++ s).drop k).take frameHeaderSize) = false

theorem processRound_drop {r : Reassembly} {buf : List UInt8} (hlen : frameHeaderSize ≤ buf.length)
    (hbad : validateFrameHeader (buf.take frameHeaderSize) = false) :
    processRound r buf = some (r, [], buf.drop 1) := by
  rw [validateFrameHeader_take] at hbad
  rw [processRound, if_neg (by omega), if_pos hbad]

/-- Rounds in the garbage emit nothing. -/
theorem drain_garbage (r : Reassembly) {g s : List UInt8} (h : NoHeaderIn g s) :
    (packetParser.drain r (g ++ s)).2.1 = (packetParser.drain r s).2.1 := by
  by_cases hs : frameHeaderSize ≤ s.length
  · -- the parser reaches the first byte of `s`
    rw [StreamParser.drain_skip]
    intro k hk
    have hin : k + frameHeaderSize ≤ (g ++ s).length := by
      rw [List.length_append]
      omega
    have hround := @processRound_drop r ((g ++ s).drop k) (by rw [List.length_drop]; omega) (h k hk hin)
    rw [List.drop_drop] at hround
    exact hround
  · -- the parser waits somewhere in the garbage, and would wait in `s`
    rw [drain_of_short (r := r) (by omega : s.length < frameHeaderSize)]
    induction g with
    | nil =>
      rw [List.nil_append, drain_of_short (by omega)]
    | cons b g ih =>
      by_cases hlen : (b :: g ++ s).length < frameHeaderSize
      · rw [drain_of_short hlen]
      · have hround : packetParser.step r (b :: g ++ s) = some (r, [], g ++ s) :=
          processRound_drop (by omega) (h 0 (by simp) (by omega))
        rw [StreamParser.drain_of_some hround, List.nil_append]
        refine ih ?_
        intro k hk hin
        have hbad := h (k + 1) (by simpa using hk) (by
          simp only [List.cons_append, List.length_cons]
          omega)
        simpa using hbad

/-- **Resynchronisation**: garbage in front of a stream does not change the signals. -/
theorem signals_of_garbage (w : TcpControlWorker) (hw : w.mBuffer = []) {g s : List UInt8}
    (h : NoHeaderIn g s) : (onReadyRead w (g ++ s)).2 = (onReadyRead w s).2 := by
  simp only [onReadyRead, processBuffer, hw, List.nil_append]
  exact drain_garbage w.toReassembly h

/-- **The receiver sees the stream, not its segments**: from every state, one or more
chunks emit the signals and leave the state that their concatenation does; and
behind an empty buffer a prefix without a header changes no signal. -/
theorem onReadyRead_stream_law :
    (∀ (w : TcpControlWorker) (chunk : List UInt8) (chunks : List (List UInt8)),
      receive w (chunk :: chunks) = onReadyRead w (chunk :: chunks).flatten) ∧
    ∀ (w : TcpControlWorker) (g s : List UInt8), w.mBuffer = [] → NoHeaderIn g s →
      (onReadyRead w (g ++ s)).2 = (onReadyRead w s).2 :=
  ⟨receive_eq_onReadyRead, fun w _ _ hw h => signals_of_garbage w hw h⟩

/-- A response of two bytes in one packet. -/
def emptyResponse : SealedPacket :=
  .of ⟨frameMagic, 2, 7, 1, 0, FileType.json.code, 5, 0, 0, 0⟩ [0x7b, 0x7d] rfl

theorem signals_emptyResponse : (onReadyRead .connected emptyResponse.bytes).2 =
    [.jsonResponseReceived [0x7b, 0x7d]] := by
  have hpacket := consumes_packet TcpControlWorker.connected.toReassembly emptyResponse.isSealed
    emptyResponse.length_eq
  have hdrain := hpacket.drain (step_of_short (by decide))
  show (packetParser.drain _ ([] ++ emptyResponse.bytes)).2.1 = _
  rw [List.nil_append]
  exact congrArg (fun r => r.2.1) hdrain

/-- It comes behind three bytes of a header that broke off, and in two chunks. -/
theorem onReadyRead_response :
    receive .connected [[0xcd, 0xab, 2] ++ emptyResponse.bytes.take 20, emptyResponse.bytes.drop 20] =
      onReadyRead .connected ([0xcd, 0xab, 2] ++ emptyResponse.bytes) ∧
    (onReadyRead .connected ([0xcd, 0xab, 2] ++ emptyResponse.bytes)).2 =
      [.jsonResponseReceived [0x7b, 0x7d]] := by
  constructor
  · exact onReadyRead_stream_law.1 .connected _ _
  · refine (onReadyRead_stream_law.2 .connected _ _ rfl ?_).trans signals_emptyResponse
    have hwindows : ∀ k < 3, validateFrameHeader
        ((([0xcd, 0xab, 2] ++ emptyResponse.bytes).drop k).take frameHeaderSize) = false := by
      decide +kernel
    exact fun k hk _ => hwindows k hk

end Sentry
