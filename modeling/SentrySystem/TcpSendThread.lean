/-
The upload slot of the TCP sender (`src/net/tcp_send.c`).

`tcp_send_msg_handler` puts a request into the slot `tcp_data_buffer`,
`tcp_send_thread` takes a snapshot of it under `link.lock`, gives the lock back,
may reconnect, reads `is_sending` again and sends what the snapshot says.  The
handler, the link losses and the steps of the thread interleave at the
boundaries of the lock; `running` stays set.

* `senderSystem` — the slot, the thread's program counter and the trace of what
  happened;
* `SendStep` — everything one step can do;
* `Slot`, `Fits`, `Progress` — the request in the slot, a snapshot of it, and what
  has been done for it;
* `FreshRecheck` — the step condition: no request that came in behind an idle
  snapshot is answered with that snapshot, unless the snapshot fits it;
* `uploadLaw` — in every run that keeps to it, each accepted request gets
  exactly one `Tcp_Send_Frame` call and, if a BIGDATA, exactly one completion.
-/
import SentrySystem.Common
import SentrySystem.Lib.Buffer
import SentrySystem.Lib.Segments
import SentrySystem.Lib.Transition

namespace Sentry

/-! ### The code -/

/-- `TCP_DATA_TYPE`. -/
inductive TcpDataType
  | normal
  | big
  deriving DecidableEq, Repr

/-- The fields of `Tcp_Data_Buffer` behind the lock; `sendBuf` is what was copied to
`send_buf`. -/
structure TcpDataBuffer where
  currentFrameId : UInt32
  isSending : Bool
  type : FileType
  dataType : TcpDataType
  sendBuf : List UInt8
  sendBufLen : UInt32
  pBigdataMsg : Option BigDataMsg
  srcModule : ModuleId
  connected : Bool

/-- The slot after `Tcp_Init`. -/
def TcpDataBuffer.init (connected : Bool) : TcpDataBuffer :=
  ⟨0, false, .normal, .normal, [], 0, none, .max, connected⟩

/-- `send_buf_capacity`. -/
def sendBufCapacity : UInt32 := 256 * 1024

/-- `Tcp_Ensure_Send_Buffer` returning 0. -/
def tcpEnsureSendBuffer (requiredLen : UInt32) : Bool := requiredLen ≤ sendBufCapacity

/-- `Image_Data` with the memory at its `data`, at least `len` bytes of it. -/
structure ImageData where
  data : Option (List UInt8)
  len : UInt32
  enough : ∀ bytes ∈ data, len.toNat ≤ bytes.length

/-- A request that sets `is_sending`. -/
inductive Request
  | image (content : List UInt8) (len : UInt32)
  | bigdata (msg : BigDataMsg) (src : ModuleId)

/-- What `Tcp_Send_Frame` is given to send: the send buffer with its content, or the data
pointer of a big message. -/
inductive FrameData
  | sendBuf (content : List UInt8)
  | dataPtr (p : Option ℕ)

/-- A call of `Tcp_Send_Frame`. -/
structure FrameCall where
  data : FrameData
  len : UInt32
  type : FileType

/-- The call a request asks for. -/
def Request.frame : Request → FrameCall
  | image content len => ⟨.sendBuf content, len, .normal⟩
  | bigdata msg _ => ⟨.dataPtr msg.dataPtr, msg.totalLen, msg.type⟩

/-- What happens at the slot. -/
inductive SendEvent
  | accept (r : Request)
  | resend (msg : BigDataMsg) (dst : ModuleId)
  | sendFrame (c : FrameCall)
  | dispatch (msg : BigDataMsg) (status : Status) (dst : ModuleId)
  | clear

/-- `tcp_send_msg_handler` on a MSG_TYPE_IMAGE. -/
def handleImage (b : TcpDataBuffer) (img : Option ImageData) : TcpDataBuffer × List SendEvent :=
  match img with
  | none => (b, [])
  | some ⟨none, _, _⟩ => (b, [])
  | some ⟨some data, len, _⟩ =>
    if len = 0 then (b, [])
    -- a picture that finds the slot busy is dropped
    else if b.isSending = true then (b, [])
    else if tcpEnsureSendBuffer len = true then
      let content := data.take len.toNat
      ({ b with
          dataType := .normal
          sendBufLen := len
          sendBuf := writeAt b.sendBuf 0 content
          type := .normal
          isSending := true }, [.accept (.image content len)])
    else (b, [])

/-- `tcp_send_msg_handler` on a MSG_TYPE_BIGDATA. -/
def handleBigdata (b : TcpDataBuffer) (bigMsg : Option BigDataMsg) (src : ModuleId) :
    TcpDataBuffer × List SendEvent :=
  match bigMsg with
  | none => (b, [])
  | some m =>
    if m.dataPtr = none ∨ m.totalLen = 0 then (b, [])
    -- a big message that finds the slot busy goes back to its source
    else if b.isSending = true then (b, [.resend m src])
    else
      ({ b with
          dataType := .big
          pBigdataMsg := some m
          isSending := true
          srcModule := src
          type := m.type }, [.accept (.bigdata m src)])

/-- Where `data_to_send` points. -/
inductive DataToSend
  | sendBuf
  | dataPtr (p : Option ℕ)

/-- The locals of one round of `tcp_send_thread`; `idle` records that `is_sending` was
false when they were read. -/
structure Snapshot where
  dataType : TcpDataType
  fileType : FileType
  targetModule : ModuleId
  frameLen : UInt32
  dataToSend : DataToSend
  idle : Bool

/-- The locals read under the lock; `none` when `p_bigdata_msg` is dereferenced and null. -/
def takeSnapshot (b : TcpDataBuffer) : Option Snapshot :=
  match b.dataType with
  | .normal => some ⟨.normal, b.type, b.srcModule, b.sendBufLen, .sendBuf, !b.isSending⟩
  | .big => b.pBigdataMsg.map fun m =>
      ⟨.big, b.type, b.srcModule, m.totalLen, .dataPtr m.dataPtr, !b.isSending⟩

/-- The `Tcp_Send_Frame` call made with the locals. -/
def frameCall (b : TcpDataBuffer) (snap : Snapshot) : FrameCall :=
  ⟨match snap.dataToSend with
    | .sendBuf => .sendBuf (b.sendBuf.take snap.frameLen.toNat)
    | .dataPtr p => .dataPtr p, snap.frameLen, snap.fileType⟩

/-- Where `tcp_send_thread` is: in the timed wait; behind it with the link down; connected
again; before it reads `is_sending`; before `Tcp_Send_Frame`; behind a failed one;
behind it; between the completion and the end of the critical section; stopped
by a null pointer. -/
inductive SendPc
  | waiting
  | reconnecting (snap : Snapshot)
  | publishing (snap : Snapshot)
  | rechecking (snap : Snapshot)
  | sending (snap : Snapshot)
  | dropping (snap : Snapshot)
  | completing (snap : Snapshot) (sendSuccess : Bool)
  | clearing (snap : Snapshot)
  | crashed

/-- Whether the thread holds `link.lock` between two steps. -/
def SendPc.locked : SendPc → Bool
  | clearing _ => true
  | _ => false

/-- The slot, the thread and the trace. -/
structure Sender where
  buf : TcpDataBuffer
  pc : SendPc
  trace : List SendEvent

/-- What can happen: handler calls, a link loss, and the steps of the thread with the
outcomes of the timed wait, the connect and the send. -/
inductive SendAction
  | image (img : Option ImageData)
  | bigdata (bigMsg : Option BigDataMsg) (src : ModuleId)
  | linkLost
  | leaveWait (timedOut : Bool)
  | connect (ok : Bool)
  | publish
  | recheck
  | sendFrame (ok : Bool)
  | dropLink
  | complete
  | clear

/-- The end of the inner loop: `is_sending` is set, or the wait timed out with the link
down. -/
def wakes (b : TcpDataBuffer) (timedOut : Bool) : Bool :=
  b.isSending || (timedOut && !b.connected)

/-- One step. -/
def sendStep (s : Sender) : SendAction → Option Sender
  | .image img =>
    if s.pc.locked = true then none
    else
      let r := handleImage s.buf img
      some { s with buf := r.1, trace := s.trace ++ r.2 }
  | .bigdata bigMsg src =>
    if s.pc.locked = true then none
    else
      let r := handleBigdata s.buf bigMsg src
      some { s with buf := r.1, trace := s.trace ++ r.2 }
  | .linkLost =>
    if s.pc.locked = true then none else some { s with buf := { s.buf with connected := false } }
  | .leaveWait timedOut =>
    match s.pc with
    | .waiting =>
      if wakes s.buf timedOut = true then
        -- the locals are read before the lock is given back
        match takeSnapshot s.buf with
        | none => some { s with pc := .crashed }
        | some snap =>
          some { s with pc := if s.buf.connected = true then .rechecking snap else .reconnecting snap }
      else none
    | _ => none
  | .connect ok =>
    match s.pc with
    | .reconnecting snap => some { s with pc := if ok = true then .publishing snap else .waiting }
    | _ => none
  | .publish =>
    match s.pc with
    | .publishing snap =>
      some { s with buf := { s.buf with connected := true }, pc := .rechecking snap }
    | _ => none
  | .recheck =>
    match s.pc with
    | .rechecking snap =>
      -- `is_sending` is read without the lock, and the locals are not read again
      some { s with pc := if s.buf.isSending = true then .sending snap else .waiting }
    | _ => none
  | .sendFrame ok =>
    match s.pc with
    | .sending snap =>
      some { s with
        pc := if ok = true then .completing snap true else .dropping snap
        trace := s.trace ++ [.sendFrame (frameCall s.buf snap)] }
    | _ => none
  | .dropLink =>
    match s.pc with
    | .dropping snap =>
      some { s with buf := { s.buf with connected := false }, pc := .completing snap false }
    | _ => none
  | .complete =>
    match s.pc with
    | .completing snap sendSuccess =>
      let buf := if sendSuccess = true then
        { s.buf with currentFrameId := s.buf.currentFrameId + 1 } else s.buf
      match snap.dataType with
      | .normal => some { s with buf := buf, pc := .clearing snap }
      | .big =>
        -- the pointer is followed in the slot, not in the locals
        match s.buf.pBigdataMsg with
        | none => some { s with buf := buf, pc := .crashed }
        | some m =>
          let status : Status := if sendSuccess = true then .done else .fileDeliverError
          some { s with
            buf := buf
            pc := .clearing snap
            trace := s.trace ++ [.dispatch m status snap.targetModule] }
    | _ => none
  | .clear =>
    match s.pc with
    | .clearing snap =>
      let pBigdataMsg := match snap.dataType with
        | .normal => s.buf.pBigdataMsg
        | .big => none
      some { s with
        buf := { s.buf with pBigdataMsg := pBigdataMsg, isSending := false }
        pc := .waiting
        trace := s.trace ++ [.clear] }
    | _ => none

/-- The upload slot, `connected` being the outcome of the connect in `Tcp_Init`. -/
def senderSystem (connected : Bool) : TransitionSystem Sender SendAction :=
  ⟨⟨.init connected, .waiting, []⟩, sendStep⟩

/-! ### What a step can do -/

/-- The slot after an accepted image. -/
def acceptImage (b : TcpDataBuffer) (content : List UInt8) (len : UInt32) : TcpDataBuffer :=
  { b with
    dataType := .normal
    sendBufLen := len
    sendBuf := writeAt b.sendBuf 0 content
    type := .normal
    isSending := true }

/-- The slot after an accepted big message. -/
def acceptBigdata (b : TcpDataBuffer) (m : BigDataMsg) (src : ModuleId) : TcpDataBuffer :=
  { b with
    dataType := .big
    pBigdataMsg := some m
    isSending := true
    srcModule := src
    type := m.type }

/-- Everything a step can do: the action, the slot, the place of the thread and the events
it adds. -/
inductive SendStep (b : TcpDataBuffer) (pc : SendPc) :
    SendAction → TcpDataBuffer → SendPc → List SendEvent → Prop
  | ignored (a : SendAction) (h : pc.locked = false) : SendStep b pc a b pc []
  | acceptImage (img : Option ImageData) (content : List UInt8) (len : UInt32)
      (h : pc.locked = false) (hidle : b.isSending = false) (hlen : content.length = len.toNat) :
      SendStep b pc (.image img) (acceptImage b content len) pc [.accept (.image content len)]
  | acceptBigdata (m : BigDataMsg) (src : ModuleId) (h : pc.locked = false)
      (hidle : b.isSending = false) (hptr : ¬ (m.dataPtr = none ∨ m.totalLen = 0)) :
      SendStep b pc (.bigdata (some m) src) (acceptBigdata b m src) pc [.accept (.bigdata m src)]
  | busy (m : BigDataMsg) (src : ModuleId) (h : pc.locked = false) (hbusy : b.isSending = true)
      (hptr : ¬ (m.dataPtr = none ∨ m.totalLen = 0)) :
      SendStep b pc (.bigdata (some m) src) b pc [.resend m src]
  | linkLost (h : pc.locked = false) :
      SendStep b pc .linkLost { b with connected := false } pc []
  | leaveWait (timedOut : Bool) (snap : Snapshot) (hpc : pc = .waiting)
      (hwake : wakes b timedOut = true) (hsnap : takeSnapshot b = some snap) :
      SendStep b pc (.leaveWait timedOut) b
        (if b.connected = true then .rechecking snap else .reconnecting snap) []
  | nullSnapshot (timedOut : Bool) (hpc : pc = .waiting) (hwake : wakes b timedOut = true)
      (hsnap : takeSnapshot b = none) : SendStep b pc (.leaveWait timedOut) b .crashed []
  | connect (ok : Bool) (snap : Snapshot) (hpc : pc = .reconnecting snap) :
      SendStep b pc (.connect ok) b (if ok = true then .publishing snap else .waiting) []
  | publish (snap : Snapshot) (hpc : pc = .publishing snap) :
      SendStep b pc .publish { b with connected := true } (.rechecking snap) []
  | recheck (snap : Snapshot) (hpc : pc = .rechecking snap) :
      SendStep b pc .recheck b (if b.isSending = true then .sending snap else .waiting) []
  | sendFrame (ok : Bool) (snap : Snapshot) (hpc : pc = .sending snap) :
      SendStep b pc (.sendFrame ok) b (if ok = true then .completing snap true else .dropping snap)
        [.sendFrame (frameCall b snap)]
  | dropLink (snap : Snapshot) (hpc : pc = .dropping snap) :
      SendStep b pc .dropLink { b with connected := false } (.completing snap false) []
  | completeNormal (snap : Snapshot) (ok : Bool) (n : UInt32) (hpc : pc = .completing snap ok)
      (htype : snap.dataType = .normal) :
      SendStep b pc .complete { b with currentFrameId := n } (.clearing snap) []
  | completeBig (snap : Snapshot) (ok : Bool) (n : UInt32) (m : BigDataMsg)
      (hpc : pc = .completing snap ok) (htype : snap.dataType = .big)
      (hm : b.pBigdataMsg = some m) :
      SendStep b pc .complete { b with currentFrameId := n } (.clearing snap)
        [.dispatch m (if ok = true then .done else .fileDeliverError) snap.targetModule]
  | nullComplete (snap : Snapshot) (ok : Bool) (n : UInt32) (hpc : pc = .completing snap ok)
      (htype : snap.dataType = .big) (hm : b.pBigdataMsg = none) :
      SendStep b pc .complete { b with currentFrameId := n } .crashed []
  | clearNormal (snap : Snapshot) (hpc : pc = .clearing snap) (htype : snap.dataType = .normal) :
      SendStep b pc .clear { b with isSending := false } .waiting [.clear]
  | clearBig (snap : Snapshot) (hpc : pc = .clearing snap) (htype : snap.dataType = .big) :
      SendStep b pc .clear { b with pBigdataMsg := none, isSending := false } .waiting [.clear]

theorem handleImage_cases {b b' : TcpDataBuffer} {img : Option ImageData} {es : List SendEvent}
    (h : handleImage b img = (b', es)) :
    (b' = b ∧ es = []) ∨ ∃ content len, b.isSending = false ∧ content.length = len.toNat ∧
      b' = acceptImage b content len ∧ es = [.accept (.image content len)] := by
  unfold handleImage at h
  split at h
  · exact .inl ⟨(Prod.mk.inj h).1.symm, (Prod.mk.inj h).2.symm⟩
  · exact .inl ⟨(Prod.mk.inj h).1.symm, (Prod.mk.inj h).2.symm⟩
  · next data len henough =>
    split_ifs at h with hzero hbusy hroom
    · exact .inl ⟨(Prod.mk.inj h).1.symm, (Prod.mk.inj h).2.symm⟩
    · exact .inl ⟨(Prod.mk.inj h).1.symm, (Prod.mk.inj h).2.symm⟩
    · have hlen : (data.take len.toNat).length = len.toNat := by
        rw [List.length_take, min_eq_left (henough data rfl)]
      exact .inr ⟨_, _, by simpa using hbusy, hlen, (Prod.mk.inj h).1.symm, (Prod.mk.inj h).2.symm⟩
    · exact .inl ⟨(Prod.mk.inj h).1.symm, (Prod.mk.inj h).2.symm⟩

theorem handleBigdata_cases {b b' : TcpDataBuffer} {bigMsg : Option BigDataMsg} {src : ModuleId}
    {es : List SendEvent} (h : handleBigdata b bigMsg src = (b', es)) :
    ((∀ m, bigMsg = some m → m.dataPtr = none ∨ m.totalLen = 0) ∧ b' = b ∧ es = []) ∨
    ∃ m, bigMsg = some m ∧ ¬ (m.dataPtr = none ∨ m.totalLen = 0) ∧
      ((b.isSending = true ∧ b' = b ∧ es = [.resend m src]) ∨
        (b.isSending = false ∧ b' = acceptBigdata b m src ∧ es = [.accept (.bigdata m src)])) := by
  unfold handleBigdata at h
  split at h
  · exact .inl ⟨by simp, (Prod.mk.inj h).1.symm, (Prod.mk.inj h).2.symm⟩
  · next m =>
    split_ifs at h with hnull hbusy
    · refine .inl ⟨?_, (Prod.mk.inj h).1.symm, (Prod.mk.inj h).2.symm⟩
      rintro _ ⟨⟩
      exact hnull
    · exact .inr ⟨m, rfl, hnull, .inl ⟨hbusy, (Prod.mk.inj h).1.symm, (Prod.mk.inj h).2.symm⟩⟩
    · exact .inr ⟨m, rfl, hnull, .inr ⟨by simpa using hbusy, (Prod.mk.inj h).1.symm,
        (Prod.mk.inj h).2.symm⟩⟩

/-- One lemma for every invariant: a step is one of those above, and the trace grows by
its events. -/
theorem sendStep_cases {s t : Sender} {a : SendAction} (h : sendStep s a = some t) :
    ∃ es, SendStep s.buf s.pc a t.buf t.pc es ∧ t.trace = s.trace ++ es := by
  obtain ⟨b, pc, tr⟩ := s
  cases a with
  | image img =>
    simp only [sendStep] at h
    split_ifs at h with hlock
    rw [Option.some_inj] at h
    subst h
    have hfree : pc.locked = false := by simpa using hlock
    rcases hi : handleImage b img with ⟨b', es⟩
    refine ⟨es, ?_, rfl⟩
    obtain ⟨rfl, rfl⟩ | ⟨content, len, hidle, hlen, rfl, rfl⟩ := handleImage_cases hi
    · exact .ignored _ hfree
    · exact .acceptImage img content len hfree hidle hlen
  | bigdata bigMsg src =>
    simp only [sendStep] at h
    split_ifs at h with hlock
    rw [Option.some_inj] at h
    subst h
    have hfree : pc.locked = false := by simpa using hlock
    rcases hi : handleBigdata b bigMsg src with ⟨b', es⟩
    refine ⟨es, ?_, rfl⟩
    obtain ⟨-, rfl, rfl⟩ | ⟨m, rfl, hptr, ⟨hbusy, rfl, rfl⟩ | ⟨hidle, rfl, rfl⟩⟩ :=
      handleBigdata_cases hi
    · exact .ignored _ hfree
    · exact .busy m src hfree hbusy hptr
    · exact .acceptBigdata m src hfree hidle hptr
  | linkLost =>
    simp only [sendStep] at h
    split_ifs at h with hlock
    rw [Option.some_inj] at h
    subst h
    exact ⟨[], .linkLost (by simpa using hlock), (List.append_nil _).symm⟩
  | leaveWait timedOut =>
    simp only [sendStep] at h
    split at h
    · by_cases hwake : wakes b timedOut = true
      · rw [if_pos hwake] at h
        split at h
        · next hsnap =>
          rw [Option.some_inj] at h
          subst h
          exact ⟨[], .nullSnapshot timedOut rfl hwake hsnap, (List.append_nil _).symm⟩
        · next snap hsnap =>
          rw [Option.some_inj] at h
          subst h
          exact ⟨[], .leaveWait timedOut snap rfl hwake hsnap, (List.append_nil _).symm⟩
      · rw [if_neg hwake] at h
        simp at h
    · simp at h
  | connect ok =>
    simp only [sendStep] at h
    split at h
    · next snap =>
      rw [Option.some_inj] at h
      subst h
      exact ⟨[], .connect ok snap rfl, (List.append_nil _).symm⟩
    · simp at h
  | publish =>
    simp only [sendStep] at h
    split at h
    · next snap =>
      rw [Option.some_inj] at h
      subst h
      exact ⟨[], .publish snap rfl, (List.append_nil _).symm⟩
    · simp at h
  | recheck =>
    simp only [sendStep] at h
    split at h
    · next snap =>
      rw [Option.some_inj] at h
      subst h
      exact ⟨[], .recheck snap rfl, (List.append_nil _).symm⟩
    · simp at h
  | sendFrame ok =>
    simp only [sendStep] at h
    split at h
    · next snap =>
      rw [Option.some_inj] at h
      subst h
      exact ⟨_, .sendFrame ok snap rfl, rfl⟩
    · simp at h
  | dropLink =>
    simp only [sendStep] at h
    split at h
    · next snap =>
      rw [Option.some_inj] at h
      subst h
      exact ⟨[], .dropLink snap rfl, (List.append_nil _).symm⟩
    · simp at h
  | complete =>
    simp only [sendStep] at h
    split at h
    · next snap ok =>
      have hid : ∃ n, (if ok = true then { b with currentFrameId := b.currentFrameId + 1 } else b) =
          { b with currentFrameId := n } := by
        split_ifs
        · exact ⟨_, rfl⟩
        · exact ⟨b.currentFrameId, rfl⟩
      obtain ⟨n, hid⟩ := hid
      simp only [hid] at h
      split at h
      · next htype =>
        rw [Option.some_inj] at h
        subst h
        exact ⟨[], .completeNormal snap ok n rfl htype, (List.append_nil _).symm⟩
      · next htype =>
        split at h
        · next hm =>
          rw [Option.some_inj] at h
          subst h
          exact ⟨[], .nullComplete snap ok n rfl htype hm, (List.append_nil _).symm⟩
        · next m hm =>
          rw [Option.some_inj] at h
          subst h
          exact ⟨_, .completeBig snap ok n m rfl htype hm, rfl⟩
    · simp at h
  | clear =>
    simp only [sendStep] at h
    split at h
    · next snap =>
      rw [Option.some_inj] at h
      subst h
      rcases htype : snap.dataType with _ | _
      · exact ⟨_, .clearNormal snap rfl htype, rfl⟩
      · exact ⟨_, .clearBig snap rfl htype, rfl⟩
    · simp at h

/-! ### Snapshots and the request in the slot -/

/-- The locals the thread works with. -/
def SendPc.snapshot? : SendPc → Option Snapshot
  | reconnecting snap => some snap
  | publishing snap => some snap
  | rechecking snap => some snap
  | sending snap => some snap
  | dropping snap => some snap
  | completing snap _ => some snap
  | clearing snap => some snap
  | waiting => none
  | crashed => none

/-- The thread has found `is_sending` set and will answer with its locals. -/
def SendPc.committed : SendPc → Bool
  | sending _ => true
  | dropping _ => true
  | completing _ _ => true
  | clearing _ => true
  | _ => false

/-- What a step means for the slot and the locals: they stay as they are, apart from the
link, the frame counter and locals that are used up; a request comes in; locals are
read; locals are found good for use; the slot is cleared. -/
inductive SlotStep (b : TcpDataBuffer) (pc : SendPc) :
    SendAction → TcpDataBuffer → SendPc → Prop
  | move (a : SendAction) (b' : TcpDataBuffer) (pc' : SendPc)
      (hbuf : b' = { b with connected := b'.connected, currentFrameId := b'.currentFrameId })
      (hsnap : ∀ snap, pc'.snapshot? = some snap → pc.snapshot? = some snap)
      (hcommit : pc'.committed = true → pc.committed = true) : SlotStep b pc a b' pc'
  | image (a : SendAction) (content : List UInt8) (len : UInt32) (hidle : b.isSending = false) :
      SlotStep b pc a (acceptImage b content len) pc
  | bigdata (a : SendAction) (m : BigDataMsg) (src : ModuleId) (hidle : b.isSending = false) :
      SlotStep b pc a (acceptBigdata b m src) pc
  | snapshot (a : SendAction) (snap : Snapshot) (pc' : SendPc) (hsnap : takeSnapshot b = some snap)
      (hpc' : pc'.snapshot? = some snap) (hcommit : pc'.committed = false) : SlotStep b pc a b pc'
  | commit (snap : Snapshot) (hpc : pc = .rechecking snap) (hsend : b.isSending = true) :
      SlotStep b pc .recheck b (.sending snap)
  | clear (a : SendAction) (snap : Snapshot) (m : Option BigDataMsg) (hpc : pc = .clearing snap)
      (hm : m = none ∨ (snap.dataType = .normal ∧ m = b.pBigdataMsg)) :
      SlotStep b pc a { b with pBigdataMsg := m, isSending := false } .waiting

theorem SlotStep.stop {b b' : TcpDataBuffer} {pc pc' : SendPc} (a : SendAction)
    (hbuf : b' = { b with connected := b'.connected, currentFrameId := b'.currentFrameId })
    (hpc' : pc'.snapshot? = none) (hcommit : pc'.committed = false) : SlotStep b pc a b' pc' := by
  refine .move a b' pc' hbuf ?_ ?_
  · intro snap hs
    rw [hpc'] at hs
    simp at hs
  · intro hc
    rw [hcommit] at hc
    simp at hc

theorem SendStep.slotStep {b b' : TcpDataBuffer} {pc pc' : SendPc} {a : SendAction}
    {es : List SendEvent} (ht : SendStep b pc a b' pc' es) : SlotStep b pc a b' pc' := by
  cases ht with
  | ignored _ _ => exact .move _ _ _ rfl (fun _ hs => hs) id
  | acceptImage img content len _ hidle _ => exact .image _ content len hidle
  | acceptBigdata m src _ hidle _ => exact .bigdata _ m src hidle
  | busy m src _ _ _ => exact .move _ _ _ rfl (fun _ hs => hs) id
  | linkLost _ => exact .move _ _ _ rfl (fun _ hs => hs) id
  | leaveWait timedOut snap hpc hwake hsnap =>
    exact .snapshot _ snap _ hsnap (by split_ifs <;> rfl) (by split_ifs <;> rfl)
  | nullSnapshot timedOut hpc hwake hsnap => exact .stop _ rfl rfl rfl
  | connect ok snap hpc =>
    subst hpc
    split_ifs
    · exact .move _ _ _ rfl (fun _ hs => hs) id
    · exact .stop _ rfl rfl rfl
  | publish snap hpc =>
    subst hpc
    exact .move _ _ _ rfl (fun _ hs => hs) id
  | recheck snap hpc =>
    split_ifs with hsend
    · exact .commit snap hpc hsend
    · exact .stop _ rfl rfl rfl
  | sendFrame ok snap hpc =>
    subst hpc
    split_ifs <;> exact .move _ _ _ rfl (fun _ hs => hs) fun _ => rfl
  | dropLink snap hpc =>
    subst hpc
    exact .move _ _ _ rfl (fun _ hs => hs) id
  | completeNormal snap ok n hpc htype =>
    subst hpc
    exact .move _ _ _ rfl (fun _ hs => hs) id
  | completeBig snap ok n m hpc htype hm =>
    subst hpc
    exact .move _ _ _ rfl (fun _ hs => hs) id
  | nullComplete snap ok n hpc htype hm => exact .stop _ rfl rfl rfl
  | clearNormal snap hpc htype => exact .clear _ snap b.pBigdataMsg hpc (.inr ⟨htype, rfl⟩)
  | clearBig snap hpc htype => exact .clear _ snap none hpc (.inl rfl)

/-- The locals are those of the request in the slot. -/
structure Fits (snap : Snapshot) (b : TcpDataBuffer) : Prop where
  dataType_eq : snap.dataType = b.dataType
  fileType_eq : snap.fileType = b.type
  normal : b.dataType = .normal → snap.frameLen = b.sendBufLen ∧ snap.dataToSend = .sendBuf
  big : b.dataType = .big → ∃ m, b.pBigdataMsg = some m ∧ snap.frameLen = m.totalLen ∧
    snap.dataToSend = .dataPtr m.dataPtr ∧ snap.targetModule = b.srcModule

/-- The request `r` is the one in the slot. -/
def Slot (b : TcpDataBuffer) : Request → Prop
  | .image content len => b.dataType = .normal ∧ b.type = .normal ∧ b.sendBufLen = len ∧
      b.sendBuf.take len.toNat = content
  | .bigdata m src => b.dataType = .big ∧ b.type = m.type ∧ b.pBigdataMsg = some m ∧
      b.srcModule = src

/-- Fresh locals fit. -/
theorem fits_takeSnapshot {b : TcpDataBuffer} {snap : Snapshot} (h : takeSnapshot b = some snap) :
    Fits snap b ∧ snap.idle = !b.isSending := by
  unfold takeSnapshot at h
  split at h
  · next htype =>
    rw [Option.some_inj] at h
    subst h
    exact ⟨⟨htype.symm, rfl, fun _ => ⟨rfl, rfl⟩, fun hb => absurd (htype.symm.trans hb) (by simp)⟩,
      rfl⟩
  · next htype =>
    rw [Option.map_eq_some_iff] at h
    obtain ⟨m, hm, rfl⟩ := h
    exact ⟨⟨htype.symm, rfl, fun hn => absurd (htype.symm.trans hn) (by simp),
      fun _ => ⟨m, hm, rfl, rfl, rfl⟩⟩, rfl⟩

/-- Locals that fit the slot make the call its request asks for. -/
theorem frameCall_eq {b : TcpDataBuffer} {snap : Snapshot} {r : Request} (hfit : Fits snap b)
    (hslot : Slot b r) : frameCall b snap = r.frame := by
  cases r with
  | image content len =>
    obtain ⟨htype, hfile, hlen, hcontent⟩ := hslot
    obtain ⟨hframe, hdata⟩ := hfit.normal htype
    rw [frameCall, hdata, hframe, hlen, hfit.fileType_eq, hfile, Request.frame, ← hcontent]
  | bigdata m src =>
    obtain ⟨htype, hfile, hm, hsrc⟩ := hslot
    obtain ⟨m', hm', hframe, hdata, -⟩ := hfit.big htype
    obtain rfl : m = m' := Option.some_inj.mp (hm.symm.trans hm')
    rw [frameCall, hdata, hframe, hfit.fileType_eq, hfile, Request.frame]

/-- What holds of the slot and the thread's locals. -/
structure SlotInv (b : TcpDataBuffer) (pc : SendPc) : Prop where
  fits : ∀ snap, pc.snapshot? = some snap → snap.idle = false ∨ pc.committed = true →
    b.isSending = true ∧ Fits snap b
  type_normal : b.dataType = .normal → b.type = .normal
  snap_normal : ∀ snap, pc.snapshot? = some snap → snap.dataType = .normal →
    snap.fileType = .normal ∧ snap.dataToSend = .sendBuf

/-- The condition on the steps: when the thread finds `is_sending` set although its
locals were read while it was not, the request that came in since is an image of
the length those locals say. -/
def FreshRecheck (s : Sender) : SendAction → Prop
  | .recheck => ∀ snap, s.pc = .rechecking snap → s.buf.isSending = true → snap.idle = true →
      snap.dataType = .normal ∧ s.buf.dataType = .normal ∧ snap.frameLen = s.buf.sendBufLen
  | _ => True

/-- The condition in front of a recheck with these locals. -/
theorem freshRecheck_rechecking {s : Sender} {snap : Snapshot} (hpc : s.pc = .rechecking snap) :
    FreshRecheck s .recheck ↔ (s.buf.isSending = true → snap.idle = true →
      snap.dataType = .normal ∧ s.buf.dataType = .normal ∧ snap.frameLen = s.buf.sendBufLen) := by
  simp [FreshRecheck, hpc]

theorem freshRecheck_of_snapshot {s : Sender} {a : SendAction}
    (h : ∀ snap, s.pc ≠ .rechecking snap) : FreshRecheck s a := by
  cases a with
  | recheck => exact fun snap hpc => absurd hpc (h snap)
  | _ => trivial

instance (s : Sender) : ∀ a, Decidable (FreshRecheck s a)
  | .recheck =>
    match hpc : s.pc with
    | .rechecking _ => decidable_of_iff _ (freshRecheck_rechecking hpc).symm
    | .waiting | .reconnecting _ | .publishing _ | .sending _ | .dropping _ | .completing _ _
    | .clearing _ | .crashed => isTrue (freshRecheck_of_snapshot (by simp [hpc]))
  | .image _ | .bigdata _ _ | .linkLost | .leaveWait _ | .connect _ | .publish | .sendFrame _
  | .dropLink | .complete | .clear => isTrue trivial

/-- Locals of use belong to a slot that is busy. -/
theorem SlotInv.isSending {b : TcpDataBuffer} {pc : SendPc} {snap : Snapshot} (h : SlotInv b pc)
    (hs : pc.snapshot? = some snap) (huse : snap.idle = false ∨ pc.committed = true) :
    b.isSending = true :=
  (h.fits snap hs huse).1

/-- A request is accepted while no locals are of use. -/
theorem SlotInv.accept {b b' : TcpDataBuffer} {pc : SendPc} (h : SlotInv b pc)
    (hidle : b.isSending = false) (htype : b'.dataType = .normal → b'.type = .normal) :
    SlotInv b' pc := by
  refine ⟨?_, htype, h.snap_normal⟩
  intro snap hs huse
  have hsend := h.isSending hs huse
  rw [hidle] at hsend
  simp at hsend

theorem SlotInv.step {s : Sender} {a : SendAction} {b' : TcpDataBuffer} {pc' : SendPc}
    (h : SlotInv s.buf s.pc) (hgood : FreshRecheck s a) (ht : SlotStep s.buf s.pc a b' pc') :
    SlotInv b' pc' := by
  cases ht with
  | move _ _ _ hbuf hsnap hcommit =>
    obtain ⟨hfits, htype, hnormal⟩ := h
    rw [hbuf]
    refine ⟨?_, htype, fun snap hs => hnormal snap (hsnap snap hs)⟩
    intro snap hs huse
    obtain ⟨hsend, hfit⟩ := hfits snap (hsnap snap hs) (huse.imp_right hcommit)
    exact ⟨hsend, hfit.dataType_eq, hfit.fileType_eq, hfit.normal, hfit.big⟩
  | image _ content len hidle => exact h.accept hidle fun _ => rfl
  | bigdata _ m src hidle =>
    refine h.accept hidle ?_
    intro hb
    simp [acceptBigdata] at hb
  | snapshot _ snap _ hsnap hpc' hcommit =>
    obtain ⟨hfit, hidle⟩ := fits_takeSnapshot hsnap
    refine ⟨?_, h.type_normal, ?_⟩
    · -- fresh locals are of use only if the slot was busy when they were read
      intro snap' hs huse
      obtain rfl : snap = snap' := Option.some_inj.mp (hpc'.symm.trans hs)
      rw [hcommit, hidle] at huse
      exact ⟨by simpa using huse, hfit⟩
    · intro snap' hs htype
      obtain rfl : snap = snap' := Option.some_inj.mp (hpc'.symm.trans hs)
      have hb : s.buf.dataType = .normal := hfit.dataType_eq ▸ htype
      exact ⟨hfit.fileType_eq.trans (h.type_normal hb), (hfit.normal hb).2⟩
  | commit snap hpc hsend =>
    have hfresh := hgood snap hpc
    rw [hpc] at h
    refine ⟨?_, h.type_normal, h.snap_normal⟩
    intro snap' hs _
    obtain rfl : snap = snap' := Option.some_inj.mp hs
    refine ⟨hsend, ?_⟩
    by_cases hidle : snap.idle = true
    · -- locals of an idle slot: by the condition they fit what came in since
      obtain ⟨htype, hb, hlen⟩ := hfresh hsend hidle
      obtain ⟨hfile, hdata⟩ := h.snap_normal snap rfl htype
      exact ⟨htype.trans hb.symm, hfile.trans (h.type_normal hb).symm, fun _ => ⟨hlen, hdata⟩,
        fun hbig => absurd (hb.symm.trans hbig) (by simp)⟩
    · -- locals of a busy slot fit, since nothing comes into a busy slot
      exact (h.fits snap rfl (.inl (by simpa using hidle))).2
  | clear _ snap m hpc hm =>
    exact ⟨fun _ hs => by simp [SendPc.snapshot?] at hs, h.type_normal,
      fun _ hs => by simp [SendPc.snapshot?] at hs⟩

/-! ### What was done for a request -/

/-- The event that ends a request. -/
def SendEvent.clears : SendEvent → Prop
  | clear => True
  | _ => False

/-- The `Tcp_Send_Frame` calls among some events. -/
def frames (es : List SendEvent) : List FrameCall :=
  es.filterMap fun
    | .sendFrame c => some c
    | _ => none

/-- The messages dispatched among some events. -/
def dispatches (es : List SendEvent) : List (BigDataMsg × Status × ModuleId) :=
  es.filterMap fun
    | .dispatch m status dst => some (m, status, dst)
    | _ => none

/-- A big message was completed, once, to the module it came from. -/
def Completed (r : Request) (mid : List SendEvent) : Prop :=
  ∀ m src, r = .bigdata m src → ∃ status, (status = .done ∨ status = .fileDeliverError) ∧
    dispatches mid = [(m, status, src)]

/-- A request was answered: one `Tcp_Send_Frame` call, of what it asks for, and its
completion. -/
def Answered (r : Request) (mid : List SendEvent) : Prop :=
  frames mid = [r.frame] ∧ Completed r mid

/-- What has been done for a request that is not cleared yet. -/
def Progress (pc : SendPc) (r : Request) (mid : List SendEvent) : Prop :=
  match pc with
  | .dropping _ => frames mid = [r.frame] ∧ dispatches mid = []
  | .completing _ _ => frames mid = [r.frame] ∧ dispatches mid = []
  | .clearing _ => Answered r mid
  | .crashed => True
  | _ => frames mid = [] ∧ dispatches mid = []

/-- The law of the upload slot: between the event that accepts a request and the one
that clears `is_sending`, the request was answered. -/
def UploadLaw (s : Sender) : Prop :=
  ∀ r mid y, ClosedSegment SendEvent.clears s.trace (.accept r) mid y → Answered r mid

/-- What holds of the requests not cleared yet. -/
def OpenRequests (s : Sender) : Prop :=
  ∀ r mid, OpenSegment SendEvent.clears s.trace (.accept r) mid →
    s.buf.isSending = true ∧ Slot s.buf r ∧ Progress s.pc r mid

theorem dispatches_append (es es' : List SendEvent) :
    dispatches (es ++ es') = dispatches es ++ dispatches es' :=
  List.filterMap_append

theorem frames_append (es es' : List SendEvent) : frames (es ++ es') = frames es ++ frames es' :=
  List.filterMap_append

/-- A step that adds no event. -/
theorem OpenRequests.silent {s t : Sender} (h : OpenRequests s) (htrace : t.trace = s.trace)
    (hmove : ∀ r mid, s.buf.isSending = true → Slot s.buf r → Progress s.pc r mid →
      t.buf.isSending = true ∧ Slot t.buf r ∧ Progress t.pc r mid) : OpenRequests t := by
  intro r mid hopen
  rw [htrace] at hopen
  obtain ⟨hsend, hslot, hprogress⟩ := h r mid hopen
  exact hmove r mid hsend hslot hprogress

/-- A step that adds an event other than the acceptance of a request. -/
theorem OpenRequests.event {s t : Sender} {e : SendEvent} (h : OpenRequests s)
    (htrace : t.trace = s.trace ++ [e]) (he : ∀ r, e ≠ .accept r)
    (hmove : ∀ r mid, ¬ e.clears → s.buf.isSending = true → Slot s.buf r → Progress s.pc r mid →
      t.buf.isSending = true ∧ Slot t.buf r ∧ Progress t.pc r (mid ++ [e])) : OpenRequests t := by
  intro r mid hopen
  rw [htrace] at hopen
  rcases openSegment_snoc hopen with ⟨-, hacc⟩ | ⟨mid', rfl, hclear, hopen⟩
  · exact absurd hacc (he r)
  · obtain ⟨hsend, hslot, hprogress⟩ := h r mid' hopen
    exact hmove r mid' hclear hsend hslot hprogress

/-- A step that accepts a request: there was none. -/
theorem OpenRequests.accept {s t : Sender} {r : Request} (h : OpenRequests s)
    (hidle : s.buf.isSending = false) (htrace : t.trace = s.trace ++ [.accept r])
    (hsend : t.buf.isSending = true) (hslot : Slot t.buf r) (hprogress : Progress t.pc r []) :
    OpenRequests t := by
  intro r' mid hopen
  rw [htrace] at hopen
  rcases openSegment_snoc hopen with ⟨rfl, hacc⟩ | ⟨mid', -, -, hopen⟩
  · rw [SendEvent.accept.injEq] at hacc
    exact hacc ▸ ⟨hsend, hslot, hprogress⟩
  · have hbusy := (h r' mid' hopen).1
    rw [hidle] at hbusy
    simp at hbusy

/-- While the thread is not committed nothing has been done for a request. -/
theorem progress_nil {pc : SendPc} (h : pc.committed = false) (r : Request) :
    Progress pc r [] := by
  cases pc <;> first | exact ⟨rfl, rfl⟩ | trivial

theorem OpenRequests.step {s t : Sender} {a : SendAction} {es : List SendEvent}
    (h : OpenRequests s) (hslots : SlotInv s.buf s.pc)
    (ht : SendStep s.buf s.pc a t.buf t.pc es) (htrace : t.trace = s.trace ++ es) :
    OpenRequests t := by
  obtain ⟨b, pc, tr⟩ := s
  obtain ⟨b', pc', tr'⟩ := t
  dsimp only at ht htrace hslots
  -- a request is accepted only while the thread is not at work on one
  have huncommitted : b.isSending = false → pc.committed = false := by
    intro hidle
    by_contra hc
    rw [Bool.not_eq_false] at hc
    obtain ⟨snap, hs⟩ : ∃ snap, pc.snapshot? = some snap := by
      cases pc <;> first | exact ⟨_, rfl⟩ | simp [SendPc.committed] at hc
    have hsend := (hslots.fits snap hs (.inr hc)).1
    rw [hidle] at hsend
    simp at hsend
  cases ht with
  | ignored _ _ => exact h.silent (by simpa using htrace) fun _ _ hs hr hp => ⟨hs, hr, hp⟩
  | acceptImage img content len _ hidle hlen =>
    refine h.accept hidle htrace rfl ⟨rfl, rfl, rfl, ?_⟩ (progress_nil (huncommitted hidle) _)
    show (writeAt b.sendBuf 0 content).take len.toNat = content
    rw [writeAt, List.take_zero, List.nil_append, ← hlen, List.take_left]
  | acceptBigdata m src _ hidle hptr =>
    exact h.accept hidle htrace rfl ⟨rfl, rfl, rfl, rfl⟩ (progress_nil (huncommitted hidle) _)
  | busy m src _ hbusy hptr =>
    refine h.event htrace (by simp) fun r mid _ hs hr hp => ⟨hs, hr, ?_⟩
    have hf : frames (mid ++ [.resend m src]) = frames mid := by simp [frames]
    have hd : dispatches (mid ++ [.resend m src]) = dispatches mid := by simp [dispatches]
    cases pc <;> simp only [Progress, Answered, Completed, hf, hd] at hp ⊢ <;> exact hp
  | linkLost _ => exact h.silent (by simpa using htrace) fun r _ hs hr hp => ⟨hs, by cases r <;> exact hr, hp⟩
  | leaveWait timedOut snap hpc hwake hsnap =>
    subst hpc
    refine h.silent (by simpa using htrace) fun _ _ hs hr hp => ⟨hs, hr, ?_⟩
    split_ifs <;> exact hp
  | nullSnapshot timedOut hpc hwake hsnap =>
    exact h.silent (by simpa using htrace) fun _ _ hs hr hp => ⟨hs, hr, trivial⟩
  | connect ok snap hpc =>
    subst hpc
    refine h.silent (by simpa using htrace) fun _ _ hs hr hp => ⟨hs, hr, ?_⟩
    split_ifs <;> exact hp
  | publish snap hpc =>
    subst hpc
    exact h.silent (by simpa using htrace) fun r _ hs hr hp => ⟨hs, by cases r <;> exact hr, hp⟩
  | recheck snap hpc =>
    subst hpc
    refine h.silent (by simpa using htrace) fun _ _ hs hr hp => ⟨hs, hr, ?_⟩
    split_ifs <;> exact hp
  | sendFrame ok snap hpc =>
    subst hpc
    refine h.event htrace (by simp) fun r mid _ hs hr hp => ⟨hs, hr, ?_⟩
    -- a committed thread works with locals that fit the request
    have hcall := frameCall_eq (hslots.fits snap rfl (.inr rfl)).2 hr
    have hone : frames (mid ++ [.sendFrame (frameCall b snap)]) = [r.frame] := by
      rw [frames_append, hp.1, hcall]
      rfl
    have hnone : dispatches (mid ++ [.sendFrame (frameCall b snap)]) = [] := by
      rw [dispatches_append, hp.2]
      rfl
    split_ifs <;> exact ⟨hone, hnone⟩
  | dropLink snap hpc =>
    subst hpc
    exact h.silent (by simpa using htrace) fun r _ hs hr hp => ⟨hs, by cases r <;> exact hr, hp⟩
  | completeNormal snap ok n hpc htype =>
    subst hpc
    refine h.silent (by simpa using htrace) fun r mid hs hr hp =>
      ⟨hs, by cases r <;> exact hr, hp.1, ?_⟩
    -- the request is an image
    rintro m src rfl
    have hfit := (hslots.fits snap rfl (.inr rfl)).2
    have hbig := hfit.dataType_eq.trans hr.1
    rw [htype] at hbig
    simp at hbig
  | completeBig snap ok n m hpc htype hm =>
    subst hpc
    refine h.event htrace (by simp) fun r mid _ hs hr hp => ⟨hs, by cases r <;> exact hr, ?_, ?_⟩
    · rw [frames_append, hp.1]
      rfl
    · -- the message in the slot is that of the request, and so is its source
      rintro m' src rfl
      obtain ⟨hbig, -, hm', hsrc⟩ := hr
      have hfit := (hslots.fits snap rfl (.inr rfl)).2
      obtain ⟨-, -, -, -, htarget⟩ := hfit.big hbig
      obtain rfl : m = m' := Option.some_inj.mp (hm.symm.trans hm')
      refine ⟨if ok = true then .done else .fileDeliverError, by split_ifs <;> simp, ?_⟩
      rw [dispatches_append, hp.2, htarget, hsrc]
      rfl
  | nullComplete snap ok n hpc htype hm =>
    exact h.silent (by simpa using htrace) fun r _ hs hr hp => ⟨hs, by cases r <;> exact hr, trivial⟩
  | clearNormal snap hpc htype =>
    -- no segment is open behind the event that clears
    exact h.event htrace (by simp) fun _ _ hclear => absurd trivial hclear
  | clearBig snap hpc htype =>
    exact h.event htrace (by simp) fun _ _ hclear => absurd trivial hclear

/-- An event that clears is added in `clearing` only. -/
theorem SendStep.event_cases {b b' : TcpDataBuffer} {pc pc' : SendPc} {a : SendAction}
    {es : List SendEvent} (ht : SendStep b pc a b' pc' es) :
    es = [] ∨ ∃ e, es = [e] ∧ (e.clears → ∃ snap, pc = .clearing snap) := by
  cases ht <;> first
    | exact .inl rfl
    | exact .inr ⟨_, rfl, fun hc => hc.elim⟩
    | exact .inr ⟨_, rfl, fun _ => ⟨_, ‹_›⟩⟩

/-- A step closes a request only behind its answer. -/
theorem UploadLaw.step {s t : Sender} {a : SendAction} {es : List SendEvent}
    (h : UploadLaw s) (hopen : OpenRequests s)
    (ht : SendStep s.buf s.pc a t.buf t.pc es) (htrace : t.trace = s.trace ++ es) :
    UploadLaw t := by
  intro r mid y hclosed
  rw [htrace] at hclosed
  rcases ht.event_cases with rfl | ⟨e, rfl, he⟩
  · rw [List.append_nil] at hclosed
    exact h r mid y hclosed
  · rcases closedSegment_snoc hclosed with hclosed | ⟨-, hclear, hseg⟩
    · exact h r mid y hclosed
    · obtain ⟨snap, hpc⟩ := he hclear
      have hprogress := (hopen r mid hseg).2.2
      rw [hpc] at hprogress
      exact hprogress

/-- **Each accepted request is answered exactly once** before `is_sending` is cleared, in
every run in which no request is answered with locals read before it came in,
unless they fit it. -/
theorem uploadLaw {connected : Bool} {s : Sender}
    (hs : (senderSystem connected).Via FreshRecheck s) : UploadLaw s := by
  have hall : SlotInv s.buf s.pc ∧ OpenRequests s ∧ UploadLaw s := by
    refine hs.invariant (P := fun s => SlotInv s.buf s.pc ∧ OpenRequests s ∧ UploadLaw s) ?_ ?_
    · refine ⟨⟨fun _ h => ?_, fun _ => rfl, fun _ h => ?_⟩, ?_, ?_⟩
      · simp [senderSystem, SendPc.snapshot?] at h
      · simp [senderSystem, SendPc.snapshot?] at h
      · intro r mid h
        exact absurd h not_openSegment_nil
      · intro r mid y h
        exact absurd h not_closedSegment_nil
    · rintro s a t ⟨hslots, hopen, hlaw⟩ hgood ht
      obtain ⟨es, hstep, htrace⟩ := sendStep_cases ht
      exact ⟨hslots.step hgood hstep.slotStep, hopen.step hslots hstep htrace,
        hlaw.step hopen hstep htrace⟩
  exact hall.2.2

/-- A reply of the command module, to be uploaded. -/
def reply : BigDataMsg := ⟨1, some 2, 3, .json⟩

/-- An image of three bytes. -/
def picture (a b c : UInt8) : ImageData where
  data := some [a, b, c]
  len := 3
  enough := by
    intro bytes h
    obtain rfl := Option.some_inj.mp h
    exact le_rfl

/-- An image is not sent and the link is lost; while the thread reconnects for the idle
heartbeat another image of this length is accepted.  Then a reply is uploaded. -/
def reconnectedRun : List SendAction :=
  [.image (some (picture 1 2 3)), .leaveWait false, .recheck, .sendFrame false, .dropLink, .complete,
    .clear, .leaveWait true, .image (some (picture 4 5 6)), .connect true, .publish, .recheck,
    .sendFrame true, .complete, .clear, .bigdata (some reply) .command, .leaveWait false, .recheck,
    .sendFrame true, .complete, .clear]

/-- The locals of the idle slot fit the second image. -/
theorem uploadLaw_reconnected : ∃ s, (senderSystem true).run (senderSystem true).init
    reconnectedRun = some s ∧ s.trace.length = 10 ∧ UploadLaw s := by
  have hvia : ∃ s, (senderSystem true).runVia FreshRecheck (senderSystem true).init
      reconnectedRun = some s ∧ s.trace.length = 10 := ⟨_, rfl, rfl⟩
  obtain ⟨s, hvia, hlen⟩ := hvia
  exact ⟨s, TransitionSystem.run_of_runVia hvia, hlen, uploadLaw (.of_run hvia)⟩

/-- The link is down; the thread leaves its wait for the idle heartbeat, and while it
reconnects a reply is accepted. -/
def staleRun : List SendAction :=
  [.leaveWait true, .bigdata (some reply) .command, .connect true, .publish, .recheck,
    .sendFrame true, .complete, .clear]

/-- The reply is then answered with the empty image of the idle slot: nothing of it is
sent, and it is not completed. -/
theorem not_uploadLaw_staleRun : ∃ s, (senderSystem false).run (senderSystem false).init staleRun =
    some s ∧ ¬ UploadLaw s := by
  refine ⟨_, rfl, ?_⟩
  intro hlaw
  have hseg := hlaw (.bigdata reply .command)
    [.sendFrame ⟨.sendBuf [], 0, .normal⟩] .clear ⟨[], [], rfl, by simp [SendEvent.clears], trivial⟩
  obtain ⟨status, -, hdispatch⟩ := hseg.2 reply .command rfl
  simp [dispatches] at hdispatch

end Sentry
