/-
The send slot of the UDP sender (`src/net/udp_send.c`).

`udp_msg_handler` copies an image to `send_buf` under the lock, `udp_send_thread` reads the
buffer without it, packet by packet, while `is_sending` keeps the handler away.  The handler
is interrupted in front of its `memcpy` and behind it, the thread between any two packets;
the thread's own critical sections are single steps.  `running` stays set.

* `SendBuf`, `SlotImage` — the buffer, and the images that fit it;
* `udpSlotSystem` — the handler and the thread;
* `SlotPhase` — where the image in the slot is;
* `udpSlotLaw` — every accepted image is sent by one `Udp_Send_Frame`, in order, under
  consecutive frame ids, and never overwritten while it is read;
* `SlotPhase.drains` — what was accepted can always be sent.
-/
import SentrySystem.Lib.Buffer
import SentrySystem.Lib.Transition
import SentrySystem.UdpReceiver

namespace Sentry

open FrameHeader

/-! ### The code -/

/-- The size of `send_buf`. -/
def udpSendBufSize : ℕ := 1024 * 256

/-- The memory at `send_buf`. -/
structure SendBuf where
  bytes : List UInt8
  size_eq : bytes.length = udpSendBufSize

/-- The bytes of an image that is not empty and fits `send_buf`. -/
structure SlotImage where
  content : List UInt8
  ne_nil : content ≠ []
  length_le : content.length ≤ udpSendBufSize

/-- `memcpy` to `send_buf`. -/
def SendBuf.copy (buf : SendBuf) (image : SlotImage) : SendBuf where
  bytes := writeAt buf.bytes 0 image.content
  size_eq := by
    rw [length_writeAt, buf.size_eq]
    rw [Nat.zero_add, buf.size_eq]
    exact image.length_le

/-- Packet `i` of `Udp_Send_Frame`, its payload read from the memory at `send_data`. -/
def slotPacket (mem : List UInt8) (frameId sendLen : UInt32) (ts : UInt64) (i : UInt16) :
    List UInt8 :=
  let hdr := packetHeader frameId sendLen .image ts i
  hdr.toBytes ++ (mem.drop (i.toUInt32 * tcpChunkSize).toNat).take hdr.dataLen.toNat

/-- A call of `Udp_Send_Frame`: the frame id, the `send_len` bytes at `send_data` when it is
called, the clock, and the datagrams sent so far. -/
structure UdpCall where
  frameId : UInt32
  sendData : List UInt8
  sendLen : UInt32
  ts : UInt64
  datagrams : List (List UInt8)

/-- Where `udp_msg_handler` is: outside; in `memcpy`; behind it, both with the lock. -/
inductive UdpHandlerPc
  | idle
  | copying (image : SlotImage)
  | storing

/-- Where `udp_send_thread` is: in its wait; in front of `Udp_Send_Frame`; in it, in front of
packet `i`; behind it. -/
inductive UdpThreadPc
  | waiting
  | calling (frameLen : UInt32)
  | sending (c : UdpCall) (i : UInt16)
  | clearing

/-- The fields of `UDP_Send_Buffer`, the two parties, the images accepted, and the calls of
`Udp_Send_Frame` that returned. -/
structure UdpSender where
  currentFrameId : UInt32
  isSending : Bool
  sendBuf : SendBuf
  sendBufLen : UInt32
  handler : UdpHandlerPc
  thread : UdpThreadPc
  accepted : List (List UInt8)
  calls : List UdpCall

/-- What can happen: an image message is handled, in three steps; the steps of the thread, with
the clock of a call; a wake-up without an image. -/
inductive UdpSlotAction
  | image (image : SlotImage)
  | copy
  | store
  | wakeUp
  | take
  | call (ts : UInt64)
  | packet
  | finish
  | clear

/-- One step. -/
def udpSlotStep (s : UdpSender) : UdpSlotAction → Option UdpSender
  | .image image =>
    match s.handler with
    | .idle =>
      -- an image that finds the slot busy is dropped
      if s.isSending = true then some s
      else
        some { s with
          sendBufLen := UInt32.ofNat image.content.length
          handler := .copying image
          accepted := s.accepted ++ [image.content] }
    | _ => none
  | .copy =>
    match s.handler with
    | .copying image => some { s with sendBuf := s.sendBuf.copy image, handler := .storing }
    | _ => none
  | .store =>
    match s.handler with
    | .storing => some { s with isSending := true, handler := .idle }
    | _ => none
  | .wakeUp =>
    match s.handler, s.thread with
    | .idle, .waiting => if s.isSending = true then none else some s
    | _, _ => none
  | .take =>
    match s.handler, s.thread with
    | .idle, .waiting =>
      if s.isSending = true then
        some { s with isSending := true, thread := .calling s.sendBufLen }
      else none
    | _, _ => none
  | .call ts =>
    match s.thread with
    | .calling frameLen =>
      let c := ⟨s.currentFrameId, s.sendBuf.bytes.take frameLen.toNat, frameLen, ts, []⟩
      some { s with thread := .sending c 0 }
    | _ => none
  | .packet =>
    match s.thread with
    | .sending c i =>
      if i < totalPkgs c.sendLen then
        let datagram := slotPacket s.sendBuf.bytes s.currentFrameId c.sendLen c.ts i
        some { s with thread := .sending { c with datagrams := c.datagrams ++ [datagram] } (i + 1) }
      else none
    | _ => none
  | .finish =>
    match s.thread with
    | .sending c i =>
      if i < totalPkgs c.sendLen then none
      else
        some { s with
          currentFrameId := s.currentFrameId + 1
          thread := .clearing
          calls := s.calls ++ [c] }
    | _ => none
  | .clear =>
    match s.handler, s.thread with
    | .idle, .clearing => some { s with isSending := false, thread := .waiting }
    | _, _ => none

/-- The slot after `Udp_Init`, with whatever is at `send_buf`. -/
def UdpSender.init (sendBuf : SendBuf) : UdpSender where
  currentFrameId := 0
  isSending := false
  sendBuf := sendBuf
  sendBufLen := 0
  handler := .idle
  thread := .waiting
  accepted := []
  calls := []

/-- The slot with its two parties. -/
def udpSlotSystem (sendBuf : SendBuf) : TransitionSystem UdpSender UdpSlotAction :=
  ⟨.init sendBuf, udpSlotStep⟩

/-! ### A packet of the image in the buffer -/

/-- The image in the slot, as the image of a call. -/
def sentImage (content : List UInt8) (ts : UInt64) : UdpImage := ⟨content, ts, fun _ => true⟩

theorem SlotImage.sendable (image : SlotImage) (ts : UInt64) :
    (sentImage image.content ts).Sendable := by
  refine ⟨image.ne_nil, image.length_le.trans ?_⟩
  rw [udpSendBufSize]
  norm_num

theorem SlotImage.toNat_length (image : SlotImage) :
    (UInt32.ofNat image.content.length).toNat = image.content.length := by
  refine UInt32.toNat_ofNat_of_lt' (lt_of_le_of_lt image.length_le ?_)
  rw [udpSendBufSize]
  norm_num

/-- As long as the image is in the buffer, its packets are read from there. -/
theorem slotPacket_eq {mem : List UInt8} {image : SlotImage}
    (hmem : mem.take image.content.length = image.content) (frameId : UInt32) (ts : UInt64)
    {i : UInt16} (hi : i < totalPkgs (UInt32.ofNat image.content.length)) :
    slotPacket mem frameId (UInt32.ofNat image.content.length) ts i =
      (sentImage image.content ts).packet frameId i := by
  have himage := image.sendable ts
  have hk : i.toNat < (sentImage image.content ts).pkgs := by
    rw [← himage.totalPkgs]
    exact UInt16.lt_iff_toNat_lt.mp hi
  obtain ⟨hbytes, hlen⟩ := @packetBytes_item (sentImage image.content ts).item himage.item.2.2
    frameId _ hk
  have hpacket : (sentImage image.content ts).packet frameId (UInt16.ofNat i.toNat) =
      ((sentImage image.content ts).hdr frameId (UInt16.ofNat i.toNat)).toBytes ++
        chunk image.content i.toNat := hbytes
  have hdata : (chunk image.content i.toNat).length =
      (packetHeader frameId (UInt32.ofNat image.content.length) .image ts
        (UInt16.ofNat i.toNat)).dataLen.toNat := hlen
  have hoff := @offset_toNat i.toNat (Nat.le_of_lt_succ i.toNat_lt)
  -- the chunk is a prefix of what stands there in the buffer
  have hchunk : chunk image.content i.toNat =
      (mem.drop (i.toNat * 1400)).take (min 1400 (image.content.length - i.toNat * 1400)) := by
    rw [chunk, ← hmem, List.drop_take, List.take_take, hmem]
  have hprefix : (mem.drop (i.toNat * 1400)).take (chunk image.content i.toNat).length =
      chunk image.content i.toNat := by
    rw [hchunk]
    exact (List.prefix_iff_eq_take.mp (List.take_prefix _ _)).symm
  rw [UInt16.ofNat_toNat] at hpacket hdata hoff
  rw [slotPacket, hpacket, ← hdata, hoff, hprefix]
  rfl

/-- A call that runs to its end sends the packets of `Udp_Send_Frame` from `i` on. -/
def restOf (content : List UInt8) (ts : UInt64) (frameId : UInt32) (i : UInt16) :
    List (List UInt8) :=
  udpSendLoop (sentImage content ts) frameId
    ((totalPkgs (UInt32.ofNat content.length)).toNat - i.toNat) i

theorem restOf_zero (content : List UInt8) (ts : UInt64) (frameId : UInt32) :
    restOf content ts frameId 0 = udpSendFrame (sentImage content ts) frameId := rfl

theorem restOf_next {content : List UInt8} {i : UInt16}
    (hi : i < totalPkgs (UInt32.ofNat content.length)) (ts : UInt64) (frameId : UInt32) :
    restOf content ts frameId i =
      (sentImage content ts).packet frameId i :: restOf content ts frameId (i + 1) := by
  have hlt := UInt16.lt_iff_toNat_lt.mp hi
  have hmax := (totalPkgs (UInt32.ofNat content.length)).toNat_lt
  have hnext : (i + 1).toNat = i.toNat + 1 := by
    rw [UInt16.toNat_add, UInt16.toNat_one]
    omega
  obtain ⟨n, hn⟩ : ∃ n, (totalPkgs (UInt32.ofNat content.length)).toNat - i.toNat = n + 1 :=
    ⟨(totalPkgs (UInt32.ofNat content.length)).toNat - i.toNat - 1, by omega⟩
  have hn' : (totalPkgs (UInt32.ofNat content.length)).toNat - (i + 1).toNat = n := by omega
  rw [restOf, restOf, hn, hn', udpSendLoop, if_neg (by simp [sentImage])]

theorem restOf_end {content : List UInt8} {i : UInt16}
    (hi : ¬ i < totalPkgs (UInt32.ofNat content.length)) (ts : UInt64) (frameId : UInt32) :
    restOf content ts frameId i = [] := by
  have hle : (totalPkgs (UInt32.ofNat content.length)).toNat ≤ i.toNat :=
    UInt16.le_iff_toNat_le.mp (UInt16.not_lt.mp hi)
  rw [restOf, Nat.sub_eq_zero_of_le hle]
  rfl

/-! ### Where the image in the slot is -/

/-- The bytes of the calls that returned. -/
def UdpSender.sentData (s : UdpSender) : List (List UInt8) := s.calls.map UdpCall.sendData

/-- The image is in the buffer, with its length. -/
def UdpSender.Holds (s : UdpSender) (image : SlotImage) : Prop :=
  s.sendBufLen = UInt32.ofNat image.content.length ∧
    s.sendBuf.bytes.take image.content.length = image.content

/-- What `Udp_Send_Frame` has sent of the image, in front of packet `i`. -/
structure InCall (s : UdpSender) (image : SlotImage) (c : UdpCall) (i : UInt16) : Prop where
  frameId : c.frameId = s.currentFrameId
  data : c.sendData = image.content
  len : c.sendLen = UInt32.ofNat image.content.length
  datagrams : c.datagrams ++ restOf image.content c.ts c.frameId i =
    udpSendFrame (sentImage image.content c.ts) c.frameId

/-- The places an accepted image goes through; no party is where it could meet the other. -/
inductive SlotPhase (s : UdpSender) : Prop
  | empty (hhandler : s.handler = .idle) (hthread : s.thread = .waiting)
      (hflag : s.isSending = false) (hall : s.accepted = s.sentData)
  | copying (image : SlotImage) (hhandler : s.handler = .copying image)
      (hthread : s.thread = .waiting) (hflag : s.isSending = false)
      (hlen : s.sendBufLen = UInt32.ofNat image.content.length)
      (hall : s.accepted = s.sentData ++ [image.content])
  | storing (image : SlotImage) (hhandler : s.handler = .storing) (hthread : s.thread = .waiting)
      (hflag : s.isSending = false) (hbuf : s.Holds image)
      (hall : s.accepted = s.sentData ++ [image.content])
  | pending (image : SlotImage) (hhandler : s.handler = .idle) (hthread : s.thread = .waiting)
      (hflag : s.isSending = true) (hbuf : s.Holds image)
      (hall : s.accepted = s.sentData ++ [image.content])
  | calling (image : SlotImage) (hhandler : s.handler = .idle)
      (hthread : s.thread = .calling (UInt32.ofNat image.content.length))
      (hflag : s.isSending = true) (hbuf : s.Holds image)
      (hall : s.accepted = s.sentData ++ [image.content])
  | sending (image : SlotImage) (c : UdpCall) (i : UInt16) (hhandler : s.handler = .idle)
      (hthread : s.thread = .sending c i) (hflag : s.isSending = true) (hbuf : s.Holds image)
      (hcall : InCall s image c i) (hall : s.accepted = s.sentData ++ [image.content])
  | clearing (hhandler : s.handler = .idle) (hthread : s.thread = .clearing)
      (hflag : s.isSending = true) (hall : s.accepted = s.sentData)

/-- The call in progress sends the image accepted last. -/
theorem SlotPhase.inCall {s : UdpSender} {c : UdpCall} {i : UInt16} (h : SlotPhase s)
    (hthread : s.thread = .sending c i) :
    ∃ image, InCall s image c i ∧ s.accepted = s.sentData ++ [image.content] := by
  cases h with
  | sending image c' i' _ hthread' _ _ hcall hall =>
    rw [hthread, UdpThreadPc.sending.injEq] at hthread'
    obtain ⟨rfl, rfl⟩ := hthread'
    exact ⟨image, hcall, hall⟩
  | empty _ hthread' _ _ => rw [hthread] at hthread'; cases hthread'
  | copying _ _ hthread' _ _ _ => rw [hthread] at hthread'; cases hthread'
  | storing _ _ hthread' _ _ _ => rw [hthread] at hthread'; cases hthread'
  | pending _ _ hthread' _ _ _ => rw [hthread] at hthread'; cases hthread'
  | calling _ _ hthread' _ _ _ => rw [hthread] at hthread'; cases hthread'
  | clearing _ hthread' _ _ => rw [hthread] at hthread'; cases hthread'

/-- The calls that returned: consecutive frame ids, and each sent its data. -/
structure CallsDone (s : UdpSender) : Prop where
  current : s.currentFrameId = UInt32.ofNat s.calls.length
  frameIds : s.calls.map UdpCall.frameId = (List.range s.calls.length).map UInt32.ofNat
  sent : ∀ c ∈ s.calls, c.sendLen.toNat = c.sendData.length ∧
    c.datagrams = udpSendFrame (sentImage c.sendData c.ts) c.frameId

/-- The image accepted last lies in the buffer. -/
theorem holds_copy (s : UdpSender) {image : SlotImage}
    (hlen : s.sendBufLen = UInt32.ofNat image.content.length) :
    UdpSender.Holds { s with sendBuf := s.sendBuf.copy image, handler := .storing } image := by
  refine ⟨hlen, ?_⟩
  show (writeAt s.sendBuf.bytes 0 image.content).take image.content.length = image.content
  rw [writeAt, List.take_zero, List.nil_append, List.take_left]

/-- **One step** moves the image to its next place, or drops one that finds the slot busy. -/
theorem SlotPhase.step {s t : UdpSender} {a : UdpSlotAction} (h : SlotPhase s)
    (ht : udpSlotStep s a = some t) : SlotPhase t := by
  cases h with
  | empty hhandler hthread hflag hall =>
    cases a with
    | image image =>
      simp only [udpSlotStep, hhandler, hflag, Bool.false_eq_true, if_false, Option.some_inj] at ht
      subst ht
      exact .copying image rfl hthread rfl rfl (congrArg (· ++ [image.content]) hall)
    | wakeUp =>
      simp only [udpSlotStep, hhandler, hthread, hflag, Bool.false_eq_true, if_false,
        Option.some_inj] at ht
      subst ht
      exact .empty hhandler hthread hflag hall
    | _ => simp [udpSlotStep, hhandler, hthread, hflag] at ht
  | copying image hhandler hthread hflag hlen hall =>
    cases a with
    | copy =>
      simp only [udpSlotStep, hhandler, Option.some_inj] at ht
      subst ht
      exact .storing image rfl hthread hflag (holds_copy s hlen) hall
    | _ => simp [udpSlotStep, hhandler, hthread] at ht
  | storing image hhandler hthread hflag hbuf hall =>
    cases a with
    | store =>
      simp only [udpSlotStep, hhandler, Option.some_inj] at ht
      subst ht
      exact .pending image rfl hthread rfl hbuf hall
    | _ => simp [udpSlotStep, hhandler, hthread] at ht
  | pending image hhandler hthread hflag hbuf hall =>
    cases a with
    | image image' =>
      simp only [udpSlotStep, hhandler, hflag, if_true, Option.some_inj] at ht
      subst ht
      exact .pending image hhandler hthread hflag hbuf hall
    | take =>
      simp only [udpSlotStep, hhandler, hthread, hflag, if_true, Option.some_inj] at ht
      subst ht
      exact .calling image rfl (congrArg _ hbuf.1) rfl hbuf hall
    | _ => simp [udpSlotStep, hhandler, hthread, hflag] at ht
  | calling image hhandler hthread hflag hbuf hall =>
    cases a with
    | image image' =>
      simp only [udpSlotStep, hhandler, hflag, if_true, Option.some_inj] at ht
      subst ht
      exact .calling image hhandler hthread hflag hbuf hall
    | call ts =>
      simp only [udpSlotStep, hthread, Option.some_inj] at ht
      subst ht
      have hdata : s.sendBuf.bytes.take (UInt32.ofNat image.content.length).toNat =
          image.content := by
        rw [image.toNat_length]
        exact hbuf.2
      refine .sending image _ 0 hhandler rfl hflag hbuf ⟨rfl, hdata, rfl, ?_⟩ hall
      exact (List.nil_append _).trans (restOf_zero _ _ _)
    | _ => simp [udpSlotStep, hhandler, hthread] at ht
  | sending image c i hhandler hthread hflag hbuf hcall hall =>
    cases a with
    | image image' =>
      simp only [udpSlotStep, hhandler, hflag, if_true, Option.some_inj] at ht
      subst ht
      exact .sending image c i hhandler hthread hflag hbuf
        ⟨hcall.frameId, hcall.data, hcall.len, hcall.datagrams⟩ hall
    | packet =>
      simp only [udpSlotStep, hthread] at ht
      split_ifs at ht with hi
      obtain rfl := Option.some_inj.mp ht
      rw [hcall.len] at hi
      refine .sending image _ (i + 1) hhandler rfl hflag hbuf
        ⟨hcall.frameId, hcall.data, hcall.len, ?_⟩ hall
      -- the packet read from the buffer is the next one of the image
      show c.datagrams ++ [slotPacket s.sendBuf.bytes s.currentFrameId c.sendLen c.ts i] ++
        restOf image.content c.ts c.frameId (i + 1) = _
      rw [hcall.len, slotPacket_eq hbuf.2 s.currentFrameId c.ts hi, ← hcall.frameId,
        List.append_assoc, List.singleton_append, ← restOf_next hi, hcall.datagrams]
    | finish =>
      simp only [udpSlotStep, hthread] at ht
      split_ifs at ht with hi
      obtain rfl := Option.some_inj.mp ht
      refine .clearing hhandler rfl hflag ?_
      show s.accepted = (s.calls ++ [c]).map UdpCall.sendData
      rw [List.map_append, hall, ← hcall.data]
      rfl
    | _ => simp [udpSlotStep, hhandler, hthread] at ht
  | clearing hhandler hthread hflag hall =>
    cases a with
    | image image' =>
      simp only [udpSlotStep, hhandler, hflag, if_true, Option.some_inj] at ht
      subst ht
      exact .clearing hhandler hthread hflag hall
    | clear =>
      simp only [udpSlotStep, hhandler, hthread, Option.some_inj] at ht
      subst ht
      exact .empty rfl rfl rfl hall
    | _ => simp [udpSlotStep, hhandler, hthread] at ht

/-! ### The calls that returned -/

/-- Only the end of a call adds one. -/
theorem calls_step {s t : UdpSender} {a : UdpSlotAction} (ht : udpSlotStep s a = some t) :
    (t.calls = s.calls ∧ t.currentFrameId = s.currentFrameId) ∨
    ∃ c i, s.thread = .sending c i ∧ ¬ i < totalPkgs c.sendLen ∧ t.calls = s.calls ++ [c] ∧
      t.currentFrameId = s.currentFrameId + 1 := by
  cases a with
  | finish =>
    simp only [udpSlotStep] at ht
    split at ht
    · next c i hthread =>
      split_ifs at ht with hi
      obtain rfl := Option.some_inj.mp ht
      exact .inr ⟨c, i, hthread, hi, rfl, rfl⟩
    · cases ht
  | _ =>
    refine .inl ?_
    simp only [udpSlotStep] at ht
    repeat' split at ht
    all_goals cases ht <;> exact ⟨rfl, rfl⟩

theorem CallsDone.step {s t : UdpSender} {a : UdpSlotAction} (h : CallsDone s)
    (hphase : SlotPhase s) (ht : udpSlotStep s a = some t) : CallsDone t := by
  rcases calls_step ht with ⟨hcalls, hid⟩ | ⟨c, i, hthread, hi, hcalls, hid⟩
  · exact ⟨by rw [hid, hcalls, h.current], by rw [hcalls, h.frameIds], by rw [hcalls]; exact h.sent⟩
  have hlength : t.calls.length = s.calls.length + 1 := by
    rw [hcalls, List.length_append, List.length_singleton]
  -- the call that returns has sent all packets of the image
  obtain ⟨image, hcall, -⟩ := hphase.inCall hthread
  rw [hcall.len] at hi
  refine ⟨?_, ?_, ?_⟩
  · rw [hid, hlength, h.current, UInt32.ofNat_add]
    rfl
  · rw [hlength, List.range_succ, List.map_append, ← h.frameIds, hcalls, List.map_append]
    simp [hcall.frameId, h.current]
  · intro d hd
    rw [hcalls] at hd
    rcases List.mem_append.mp hd with hd | hd
    · exact h.sent d hd
    · obtain rfl := List.mem_singleton.mp hd
      have hall := hcall.datagrams
      rw [restOf_end hi, List.append_nil] at hall
      constructor
      · rw [hcall.len, image.toNat_length, hcall.data]
      · rw [hall, hcall.data]

/-! ### Every run -/

/-- The handler writes to the buffer. -/
def UdpHandlerPc.writes : UdpHandlerPc → Bool
  | copying _ => true
  | _ => false

/-- `Udp_Send_Frame` reads the buffer, or is about to be called with its address. -/
def UdpThreadPc.reads : UdpThreadPc → Bool
  | calling _ => true
  | sending _ _ => true
  | _ => false

/-- The law of the slot: the buffer is not written while it is read; what was accepted is what
the calls sent, in order, and at most one image that is still in the slot; the calls have
consecutive frame ids, and each sent exactly its bytes. -/
structure UdpSlotLaw (s : UdpSender) : Prop where
  exclusive : ¬ (s.handler.writes = true ∧ s.thread.reads = true)
  order : ∃ inSlot, s.accepted = s.sentData ++ inSlot ∧ inSlot.length ≤ 1
  current : ∀ c i, s.thread = .sending c i → s.accepted = s.sentData ++ [c.sendData] ∧
    c.frameId = UInt32.ofNat s.calls.length
  frameIds : s.calls.map UdpCall.frameId = (List.range s.calls.length).map UInt32.ofNat
  sent : ∀ c ∈ s.calls, c.sendLen.toNat = c.sendData.length ∧
    c.datagrams = udpSendFrame (sentImage c.sendData c.ts) c.frameId

theorem UdpSlotLaw.of_phase {s : UdpSender} (h : SlotPhase s) (hc : CallsDone s) :
    UdpSlotLaw s := by
  refine ⟨?_, ?_, ?_, hc.frameIds, hc.sent⟩
  · rintro ⟨hwrites, hreads⟩
    cases h with
    | copying _ _ hthread _ _ _ => simp [hthread, UdpThreadPc.reads] at hreads
    | empty hhandler _ _ _ => simp [hhandler, UdpHandlerPc.writes] at hwrites
    | storing _ hhandler _ _ _ _ => simp [hhandler, UdpHandlerPc.writes] at hwrites
    | pending _ hhandler _ _ _ _ => simp [hhandler, UdpHandlerPc.writes] at hwrites
    | calling _ hhandler _ _ _ _ => simp [hhandler, UdpHandlerPc.writes] at hwrites
    | sending _ _ _ hhandler _ _ _ _ _ => simp [hhandler, UdpHandlerPc.writes] at hwrites
    | clearing hhandler _ _ _ => simp [hhandler, UdpHandlerPc.writes] at hwrites
  · cases h with
    | empty _ _ _ hall => exact ⟨[], by rw [hall, List.append_nil], by simp⟩
    | clearing _ _ _ hall => exact ⟨[], by rw [hall, List.append_nil], by simp⟩
    | copying image _ _ _ _ hall => exact ⟨[image.content], hall, le_rfl⟩
    | storing image _ _ _ _ hall => exact ⟨[image.content], hall, le_rfl⟩
    | pending image _ _ _ _ hall => exact ⟨[image.content], hall, le_rfl⟩
    | calling image _ _ _ _ hall => exact ⟨[image.content], hall, le_rfl⟩
    | sending image _ _ _ _ _ _ _ hall => exact ⟨[image.content], hall, le_rfl⟩
  · intro c i hthread
    obtain ⟨image, hcall, hall⟩ := h.inCall hthread
    rw [hcall.data, hcall.frameId, hc.current]
    exact ⟨hall, rfl⟩

/-- The two parties can go on, without another image, until all that was accepted is sent. -/
def Drains (s : UdpSender) : Prop :=
  ∀ mem, ∃ as t, (udpSlotSystem mem).run s as = some t ∧ t.accepted = s.accepted ∧
    t.sentData = s.accepted

theorem Drains.of_step {s t : UdpSender} {a : UdpSlotAction} (ht : udpSlotStep s a = some t)
    (hall : t.accepted = s.accepted) (h : Drains t) : Drains s := by
  intro mem
  obtain ⟨as, u, hrun, haccepted, hsent⟩ := h mem
  refine ⟨a :: as, u, ?_, haccepted.trans hall, hsent.trans hall⟩
  rw [TransitionSystem.run_cons_of_step (S := udpSlotSystem mem) ht]
  exact hrun

theorem Drains.of_sent {s : UdpSender} (hall : s.accepted = s.sentData) : Drains s :=
  fun _ => ⟨[], s, rfl, rfl, hall.symm⟩

/-- The rest of the packets. -/
theorem drains_sending {n : ℕ} : ∀ {s : UdpSender} {c : UdpCall} {i : UInt16},
    s.thread = .sending c i → (totalPkgs c.sendLen).toNat - i.toNat = n →
    s.accepted = s.sentData ++ [c.sendData] → Drains s := by
  induction n with
  | zero =>
    intro s c i hthread hn hall
    have hend : ¬ i < totalPkgs c.sendLen := by
      rw [UInt16.lt_iff_toNat_lt]
      omega
    have hfinish : udpSlotStep s .finish = some { s with
        currentFrameId := s.currentFrameId + 1
        thread := .clearing
        calls := s.calls ++ [c] } := by
      simp only [udpSlotStep, hthread, if_neg hend]
    refine .of_step hfinish rfl (.of_sent ?_)
    show s.accepted = (s.calls ++ [c]).map UdpCall.sendData
    rw [List.map_append, hall]
    rfl
  | succ n ih =>
    intro s c i hthread hn hall
    have hmax := (totalPkgs c.sendLen).toNat_lt
    have hlt : i < totalPkgs c.sendLen := by
      rw [UInt16.lt_iff_toNat_lt]
      omega
    have hnext : (i + 1).toNat = i.toNat + 1 := by
      rw [UInt16.toNat_add, UInt16.toNat_one]
      omega
    have hpacket : ∃ datagram, udpSlotStep s .packet = some { s with
        thread := .sending { c with datagrams := c.datagrams ++ [datagram] } (i + 1) } := by
      simp only [udpSlotStep, hthread, if_pos hlt]
      exact ⟨_, rfl⟩
    obtain ⟨datagram, hpacket⟩ := hpacket
    exact .of_step hpacket rfl (ih rfl (by dsimp only; omega) hall)

section Drains

variable {s : UdpSender} {image : SlotImage}

theorem drains_calling (hthread : s.thread = .calling (UInt32.ofNat image.content.length))
    (hbuf : s.Holds image) (hall : s.accepted = s.sentData ++ [image.content]) : Drains s := by
  have hcall : ∃ c, udpSlotStep s (.call 0) = some { s with thread := .sending c 0 } ∧
      c.sendData = image.content := by
    simp only [udpSlotStep, hthread]
    refine ⟨_, rfl, ?_⟩
    rw [image.toNat_length]
    exact hbuf.2
  obtain ⟨c, hcall, hdata⟩ := hcall
  refine .of_step hcall rfl (drains_sending rfl rfl ?_)
  rw [hdata]
  exact hall

theorem drains_pending (hhandler : s.handler = .idle) (hthread : s.thread = .waiting)
    (hflag : s.isSending = true) (hbuf : s.Holds image)
    (hall : s.accepted = s.sentData ++ [image.content]) : Drains s := by
  have htake : udpSlotStep s .take = some { s with
      isSending := true
      thread := .calling s.sendBufLen } := by
    simp only [udpSlotStep, hhandler, hthread, hflag, if_true]
  exact .of_step htake rfl (drains_calling (congrArg _ hbuf.1) hbuf hall)

theorem drains_storing (hhandler : s.handler = .storing) (hthread : s.thread = .waiting)
    (hbuf : s.Holds image) (hall : s.accepted = s.sentData ++ [image.content]) : Drains s := by
  have hstore : udpSlotStep s .store = some { s with isSending := true, handler := .idle } := by
    simp only [udpSlotStep, hhandler]
  exact .of_step hstore rfl (drains_pending rfl hthread rfl hbuf hall)

/-- From every place an accepted image goes through. -/
theorem SlotPhase.drains (h : SlotPhase s) : Drains s := by
  cases h with
  | empty _ _ _ hall => exact .of_sent hall
  | copying image hhandler hthread _ hlen hall =>
    have hcopy : udpSlotStep s .copy = some { s with
        sendBuf := s.sendBuf.copy image
        handler := .storing } := by
      simp only [udpSlotStep, hhandler]
    exact .of_step hcopy rfl (drains_storing rfl hthread (holds_copy s hlen) hall)
  | storing image hhandler hthread _ hbuf hall => exact drains_storing hhandler hthread hbuf hall
  | pending image hhandler hthread hflag hbuf hall =>
    exact drains_pending hhandler hthread hflag hbuf hall
  | calling image _ hthread _ hbuf hall => exact drains_calling hthread hbuf hall
  | sending image c i _ hthread _ _ hcall hall =>
    exact drains_sending hthread rfl (hcall.data ▸ hall)
  | clearing _ _ _ hall => exact .of_sent hall

end Drains

/-- **The UDP send slot**: however the handler and the thread interleave, the law holds, and
what was accepted can be sent. -/
theorem udpSlotLaw {mem : SendBuf} {s : UdpSender} (hs : (udpSlotSystem mem).Reachable s) :
    UdpSlotLaw s ∧ Drains s := by
  have hboth : SlotPhase s ∧ CallsDone s := by
    refine hs.invariant (P := fun s => SlotPhase s ∧ CallsDone s) ?_ ?_
    · refine ⟨.empty rfl rfl rfl rfl, rfl, rfl, ?_⟩
      intro c hc
      cases hc
    · intro s a t h _ ht
      exact ⟨h.1.step ht, h.2.step h.1 ht⟩
  exact ⟨.of_phase hboth.1 hboth.2, hboth.1.drains⟩

/-- A zeroed buffer. -/
def zeroBuf : SendBuf := ⟨List.replicate udpSendBufSize 0, List.length_replicate⟩

/-- An image of two bytes is handled and sent. -/
def twoBytesRun : List UdpSlotAction :=
  [.image ⟨[0xFF, 0xD8], by simp, by decide⟩, .copy, .store, .take, .call 1000, .packet, .finish,
    .clear]

theorem udpSlotLaw_two : ∃ s, (udpSlotSystem zeroBuf).run (.init zeroBuf) twoBytesRun = some s ∧
    s.sentData = [[0xFF, 0xD8]] ∧ UdpSlotLaw s := by
  obtain ⟨s, hrun, hsent⟩ : ∃ s,
      (udpSlotSystem zeroBuf).run (.init zeroBuf) twoBytesRun = some s ∧
        s.sentData = [[0xFF, 0xD8]] := ⟨_, rfl, rfl⟩
  exact ⟨s, hrun, hsent, (udpSlotLaw (.of_run hrun)).1⟩

end Sentry
