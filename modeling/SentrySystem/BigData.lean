/-
Big messages on their way through the device (`src/json/json_about.c`, `src/log/log.c`,
`src/command/command_get.c`, `src/net/tcp_send.c`).

`json_send_response` and `export_logs_on_demand` allocate a `BigData_Msg_t` and send its
address to the TCP sender; `tcp_send_msg_handler` puts it into the upload slot or
sends it back for a retry, `tcp_send_thread` sends it back when it is done, and the
module it came from frees it or sends it out again.  Every hop goes through the
queue of 32 messages, which all other modules fill as well.

* `bigSystem` — the producers, the queue, the deliver thread and the upload slot;
* `BigStep` — everything one step can do;
* `tcpSendBigdata_cases`, `ownerBigdata_cases` — the outcomes of the handlers.
-/
import SentrySystem.Lib.BoundedServer
import SentrySystem.MsgQueue
import SentrySystem.TcpSendThread

namespace Sentry

/-! ### The code -/

/-- The functions that allocate big messages. -/
inductive Producer
  | jsonSendResponse
  | exportLogsOnDemand
  deriving DecidableEq, Repr

/-- A call of a producer that has allocated its message: `src` is the module it sends
for, `refused` that `msg_dispatch` has returned -1. -/
structure ProducerCall where
  producer : Producer
  src : ModuleId
  msg : BigDataMsg
  refused : Bool

/-- Where the deliver thread is: in `msg_receive`; in front of the handler; in a handler
that is about to send the same pointer on to `dst`; behind the handler. -/
inductive DeliverPc
  | receiving
  | handling (msg : CommonMsg)
  | dispatching (msg : CommonMsg) (dst : ModuleId)
  | releasing (msg : CommonMsg)

/-- The state: the upload slot with its thread, the queue, the deliver thread, the big
messages allocated so far (the address is the position) with their status, the
running calls of the producers, and what was dispatched by them and freed. -/
structure BigState where
  sender : Sender
  queue : BoundedFifo CommonMsg maxMsgQueueSize
  deliver : DeliverPc
  heap : List BigDataMsg
  status : ℕ → Status
  calls : List ProducerCall
  sent : List ℕ
  freed : List ℕ

/-- `msg_make` for a big message. -/
def msgMakeBig (src dst : ModuleId) (m : BigDataMsg) : CommonMsg :=
  ⟨src, dst, m.totalLen, .bigdata, .normal, .address m.addr⟩

/-- `msg_dispatch` by a caller that ignores what it returns. -/
def BigState.msgDispatch (s : BigState) (msg : CommonMsg) : BigState :=
  match s.queue.enqueue msg with
  | some q => { s with queue := q }
  | none => s

/-- The memory at the `data` of a message. -/
def BigState.bigMsg (s : BigState) (msg : CommonMsg) : Option BigDataMsg :=
  match msg.data with
  | .address a => s.heap[a]?
  | _ => none

/-- A producer allocates a message and fills it in. -/
def BigState.alloc (s : BigState) (c : ProducerCall) : BigState :=
  { s with
    heap := s.heap ++ [c.msg]
    status := Function.update s.status s.heap.length .send
    calls := s.calls ++ [c] }

/-- `json_send_response` up to its `msg_dispatch`, for a string of `len` bytes. -/
def jsonSendResponse (s : BigState) (src : ModuleId) (jsonStr len : ℕ) : BigState :=
  s.alloc ⟨.jsonSendResponse, src, ⟨s.heap.length, some jsonStr, UInt32.ofNat len, .json⟩, false⟩

/-- `export_logs_on_demand` up to its `msg_dispatch`, for a file mapped at `addr`. -/
def exportLogsOnDemand (s : BigState) (addr fileSize : ℕ) : BigState :=
  s.alloc
    ⟨.exportLogsOnDemand, .logger, ⟨s.heap.length, some addr, UInt32.ofNat fileSize, .db⟩, false⟩

/-- The `msg_dispatch` of a producer, and its return where nothing else follows. -/
def producerDispatch (s : BigState) (i : ℕ) (c : ProducerCall) : BigState :=
  let s' := { s with sent := s.sent ++ [c.msg.addr] }
  match s.queue.enqueue (msgMakeBig c.src .tcpSend c.msg) with
  | some q => { s' with queue := q, calls := s.calls.eraseIdx i }
  | none =>
    match c.producer with
    -- it looks at what `msg_dispatch` returns, and frees the message in a later step
    | .jsonSendResponse => { s' with calls := s.calls.set i { c with refused := true } }
    | .exportLogsOnDemand => { s' with calls := s.calls.eraseIdx i }

/-- What one step of the upload slot adds to its trace. -/
def newEvents (s t : Sender) : List SendEvent := t.trace.drop s.trace.length

/-- `tcp_send_msg_handler` on a MSG_TYPE_BIGDATA, `t` being the slot behind it: with a
request in the slot already the message goes back to its source. -/
def tcpSendBigdata (s : BigState) (msg : CommonMsg) (t : Sender) : BigState :=
  match newEvents s.sender t with
  | [.resend m dst] =>
    { s with
      sender := t
      status := Function.update s.status m.addr .resend
      deliver := .dispatching msg dst }
  | _ => { s with sender := t, deliver := .releasing msg }

/-- What the modules that submit big messages do with one that comes back: it is freed when
it is through, and sent again for a RESEND. -/
def ownerBigdata (s : BigState) (msg : CommonMsg) (m : BigDataMsg) : BigState :=
  match s.status m.addr with
  | .done => { s with freed := s.freed ++ [m.addr], deliver := .releasing { msg with data := .null } }
  | .fileDeliverError =>
    { s with freed := s.freed ++ [m.addr], deliver := .releasing { msg with data := .null } }
  | .resend => { s with deliver := .dispatching msg .tcpSend }
  -- for any other status there is no branch
  | _ => { s with deliver := .releasing msg }

/-- `logger_msg_handler` on a MSG_TYPE_BIGDATA: `none` where it follows a null pointer. -/
def loggerMsgHandler (s : BigState) (msg : CommonMsg) : Option BigState :=
  (s.bigMsg msg).map (ownerBigdata s msg)

/-- `command_msg_handler` on a MSG_TYPE_BIGDATA, which looks for a null pointer first. -/
def commandMsgHandler (s : BigState) (msg : CommonMsg) : Option BigState :=
  match s.bigMsg msg with
  | none => some { s with deliver := .releasing msg }
  | some m => some (ownerBigdata s msg m)

/-- The handler of the destination; `img` is what a MSG_TYPE_IMAGE points to. -/
def handle (s : BigState) (msg : CommonMsg) (img : Option ImageData) : Option BigState :=
  match msg.msgType, msg.dstModule with
  | .image, .tcpSend =>
    (sendStep s.sender (.image img)).map fun t =>
      { s with sender := t, deliver := .releasing msg }
  | .bigdata, .tcpSend =>
    (sendStep s.sender (.bigdata (s.bigMsg msg) msg.srcModule)).map (tcpSendBigdata s msg)
  | .bigdata, .logger => loggerMsgHandler s msg
  | .bigdata, .command => commandMsgHandler s msg
  | _, _ => some { s with deliver := .releasing msg }

/-- A step of `tcp_send_thread`, `t` being the slot behind it: the completion writes the
status and sends the message back to its source. -/
def threadStep (s : BigState) (t : Sender) : BigState :=
  match newEvents s.sender t with
  | [.dispatch m status dst] =>
    { s with sender := t, status := Function.update s.status m.addr status }.msgDispatch
      (msgMakeBig .tcpSend dst m)
  | _ => { s with sender := t }

/-- What can happen: calls of the producers, other messages into the queue, the deliver
thread, link losses and the steps of `tcp_send_thread`. -/
inductive BigAction
  | jsonSendResponse (src : ModuleId) (jsonStr len : ℕ)
  | exportLogsOnDemand (addr fileSize : ℕ)
  | producerDispatch (i : ℕ)
  | producerFree (i : ℕ)
  | otherDispatch (msg : CommonMsg)
  | receive
  | handle (img : Option ImageData)
  | handlerDispatch
  | release
  | sender (a : SendAction)

/-- The steps of the upload slot that are not calls of its handler. -/
def SendAction.isThread : SendAction → Bool
  | image _ => false
  | bigdata _ _ => false
  | _ => true

/-- One step. -/
def bigStep (s : BigState) : BigAction → Option BigState
  | .jsonSendResponse src jsonStr len => some (jsonSendResponse s src jsonStr len)
  | .exportLogsOnDemand addr fileSize => some (exportLogsOnDemand s addr fileSize)
  | .producerDispatch i =>
    match s.calls[i]? with
    | some c => if c.refused = true then none else some (producerDispatch s i c)
    | none => none
  | .producerFree i =>
    match s.calls[i]? with
    | some c =>
      if c.refused = true then
        some { s with calls := s.calls.eraseIdx i, freed := s.freed ++ [c.msg.addr] }
      else none
    | none => none
  | .otherDispatch msg => if msg.msgType = .bigdata then none else some (s.msgDispatch msg)
  | .receive =>
    match s.deliver with
    | .receiving => s.queue.dequeue.map fun r => { s with queue := r.2, deliver := .handling r.1 }
    | _ => none
  | .handle img =>
    match s.deliver with
    | .handling msg => handle s msg img
    | _ => none
  | .handlerDispatch =>
    match s.deliver with
    | .dispatching msg dst =>
      (s.bigMsg msg).map fun m =>
        { s with deliver := .releasing msg }.msgDispatch (msgMakeBig msg.dstModule dst m)
    | _ => none
  | .release =>
    match s.deliver with
    | .releasing _ => some { s with deliver := .receiving }
    | _ => none
  -- the handler of the slot is called by the deliver thread only
  | .sender a => if a.isThread = true then (sendStep s.sender a).map (threadStep s) else none

/-- The state at the start. -/
def BigState.init (connected : Bool) : BigState where
  sender := (senderSystem connected).init
  queue := .empty
  deliver := .receiving
  heap := []
  status := fun _ => .idle
  calls := []
  sent := []
  freed := []

/-- The big messages of the device, `connected` being the outcome of the first connect. -/
def bigSystem (connected : Bool) : TransitionSystem BigState BigAction :=
  ⟨.init connected, bigStep⟩

/-! ### What a step can do -/

/-- Everything a step can do to a state. -/
inductive BigStep (s : BigState) : BigAction → BigState → Prop
  | jsonSendResponse (src : ModuleId) (jsonStr len : ℕ) :
      BigStep s (.jsonSendResponse src jsonStr len) (jsonSendResponse s src jsonStr len)
  | exportLogsOnDemand (addr fileSize : ℕ) :
      BigStep s (.exportLogsOnDemand addr fileSize) (exportLogsOnDemand s addr fileSize)
  | producerSent (i : ℕ) (c : ProducerCall) (q : BoundedFifo CommonMsg maxMsgQueueSize)
      (hc : s.calls[i]? = some c)
      (hroom : s.queue.enqueue (msgMakeBig c.src .tcpSend c.msg) = some q) :
      BigStep s (.producerDispatch i)
        { s with sent := s.sent ++ [c.msg.addr], queue := q, calls := s.calls.eraseIdx i }
  | jsonRefused (i : ℕ) (c : ProducerCall) (hc : s.calls[i]? = some c)
      (hfull : s.queue.enqueue (msgMakeBig c.src .tcpSend c.msg) = none) :
      BigStep s (.producerDispatch i)
        { s with sent := s.sent ++ [c.msg.addr], calls := s.calls.set i { c with refused := true } }
  | exportRefused (i : ℕ) (c : ProducerCall) (hc : s.calls[i]? = some c)
      (hp : c.producer = .exportLogsOnDemand)
      (hfull : s.queue.enqueue (msgMakeBig c.src .tcpSend c.msg) = none) :
      BigStep s (.producerDispatch i)
        { s with sent := s.sent ++ [c.msg.addr], calls := s.calls.eraseIdx i }
  | producerFree (i : ℕ) (c : ProducerCall) (hc : s.calls[i]? = some c) :
      BigStep s (.producerFree i)
        { s with calls := s.calls.eraseIdx i, freed := s.freed ++ [c.msg.addr] }
  | otherDispatch (msg : CommonMsg) (h : msg.msgType ≠ .bigdata) :
      BigStep s (.otherDispatch msg) (s.msgDispatch msg)
  | receive (msg : CommonMsg) (q : BoundedFifo CommonMsg maxMsgQueueSize)
      (hd : s.deliver = .receiving) (hq : s.queue.dequeue = some (msg, q)) :
      BigStep s .receive { s with queue := q, deliver := .handling msg }
  | image (img : Option ImageData) (msg : CommonMsg) (t : Sender) (hd : s.deliver = .handling msg)
      (hmsg : msg.msgType ≠ .bigdata) (ht : sendStep s.sender (.image img) = some t) :
      BigStep s (.handle img) { s with sender := t, deliver := .releasing msg }
  | ignored (img : Option ImageData) (msg : CommonMsg) (hd : s.deliver = .handling msg)
      (hmsg : msg.msgType = .bigdata → msg.dstModule ≠ .tcpSend ∧
        msg.dstModule ≠ .logger ∧ msg.dstModule ≠ .command) :
      BigStep s (.handle img) { s with deliver := .releasing msg }
  | tcpSend (img : Option ImageData) (msg : CommonMsg) (t : Sender)
      (hd : s.deliver = .handling msg) (hmsg : msg.msgType = .bigdata)
      (hdst : msg.dstModule = .tcpSend)
      (ht : sendStep s.sender (.bigdata (s.bigMsg msg) msg.srcModule) = some t) :
      BigStep s (.handle img) (tcpSendBigdata s msg t)
  | owner (img : Option ImageData) (msg : CommonMsg) (m : BigDataMsg)
      (hd : s.deliver = .handling msg) (hmsg : msg.msgType = .bigdata)
      (hdst : msg.dstModule = .logger ∨ msg.dstModule = .command) (hm : s.bigMsg msg = some m) :
      BigStep s (.handle img) (ownerBigdata s msg m)
  | commandNull (img : Option ImageData) (msg : CommonMsg) (hd : s.deliver = .handling msg)
      (hdst : msg.dstModule = .command) (hm : s.bigMsg msg = none) :
      BigStep s (.handle img) { s with deliver := .releasing msg }
  | handlerDispatch (msg : CommonMsg) (dst : ModuleId) (m : BigDataMsg)
      (hd : s.deliver = .dispatching msg dst) (hm : s.bigMsg msg = some m) :
      BigStep s .handlerDispatch
        ({ s with deliver := .releasing msg }.msgDispatch (msgMakeBig msg.dstModule dst m))
  | release (msg : CommonMsg) (hd : s.deliver = .releasing msg) :
      BigStep s .release { s with deliver := .receiving }
  | sender (a : SendAction) (t : Sender) (ha : a.isThread = true)
      (ht : sendStep s.sender a = some t) : BigStep s (.sender a) (threadStep s t)

theorem handle_cases {s t : BigState} {msg : CommonMsg} {img : Option ImageData}
    (hd : s.deliver = .handling msg) (h : handle s msg img = some t) :
    BigStep s (.handle img) t := by
  unfold handle at h
  split at h
  · next himage hdst =>
    rw [Option.map_eq_some_iff] at h
    obtain ⟨u, hu, rfl⟩ := h
    exact .image img msg u hd (by simp [himage]) hu
  · next hbig hdst =>
    rw [Option.map_eq_some_iff] at h
    obtain ⟨u, hu, rfl⟩ := h
    exact .tcpSend img msg u hd hbig hdst hu
  · next hbig hdst =>
    rw [loggerMsgHandler, Option.map_eq_some_iff] at h
    obtain ⟨m, hm, rfl⟩ := h
    exact .owner img msg m hd hbig (.inl hdst) hm
  · next hbig hdst =>
    rw [commandMsgHandler] at h
    split at h
    · next hm =>
      rw [Option.some_inj] at h
      exact h ▸ .commandNull img msg hd hdst hm
    · next m hm =>
      rw [Option.some_inj] at h
      exact h ▸ .owner img msg m hd hbig (.inr hdst) hm
  · next hsend hlogger hcommand =>
    rw [Option.some_inj] at h
    exact h ▸ .ignored img msg hd fun hbig => ⟨hsend hbig, hlogger hbig, hcommand hbig⟩

theorem bigStep_cases {s t : BigState} {a : BigAction} (h : bigStep s a = some t) :
    BigStep s a t := by
  cases a with
  | jsonSendResponse src jsonStr len =>
    simp only [bigStep, Option.some_inj] at h
    exact h ▸ .jsonSendResponse src jsonStr len
  | exportLogsOnDemand addr fileSize =>
    simp only [bigStep, Option.some_inj] at h
    exact h ▸ .exportLogsOnDemand addr fileSize
  | producerDispatch i =>
    simp only [bigStep] at h
    split at h
    · next c hc =>
      split_ifs at h with href
      rw [Option.some_inj, producerDispatch] at h
      split at h
      · next q hq => exact h ▸ .producerSent i c q hc hq
      · next hfull =>
        split at h
        · exact h ▸ .jsonRefused i c hc hfull
        · next hp => exact h ▸ .exportRefused i c hc hp hfull
    · simp at h
  | producerFree i =>
    simp only [bigStep] at h
    split at h
    · next c hc =>
      split_ifs at h with href
      rw [Option.some_inj] at h
      exact h ▸ .producerFree i c hc
    · simp at h
  | otherDispatch msg =>
    simp only [bigStep] at h
    split_ifs at h with hbig
    rw [Option.some_inj] at h
    exact h ▸ .otherDispatch msg hbig
  | receive =>
    simp only [bigStep] at h
    split at h
    · next hd =>
      rw [Option.map_eq_some_iff] at h
      obtain ⟨⟨msg, q⟩, hq, rfl⟩ := h
      exact .receive msg q hd hq
    · simp at h
  | handle img =>
    simp only [bigStep] at h
    split at h
    · next msg hd => exact handle_cases hd h
    · simp at h
  | handlerDispatch =>
    simp only [bigStep] at h
    split at h
    · next msg dst hd =>
      rw [Option.map_eq_some_iff] at h
      obtain ⟨m, hm, rfl⟩ := h
      exact .handlerDispatch msg dst m hd hm
    · simp at h
  | release =>
    simp only [bigStep] at h
    split at h
    · next msg hd =>
      rw [Option.some_inj] at h
      exact h ▸ .release msg hd
    · simp at h
  | sender a =>
    simp only [bigStep] at h
    split_ifs at h with ha
    rw [Option.map_eq_some_iff] at h
    obtain ⟨u, hu, rfl⟩ := h
    exact .sender a u ha hu

/-! ### What the pieces leave alone -/

theorem newEvents_eq {s t : Sender} {es : List SendEvent} (h : t.trace = s.trace ++ es) :
    newEvents s t = es := by
  rw [newEvents, h, List.drop_left]

theorem msgDispatch_cases (s : BigState) (msg : CommonMsg) :
    (∃ q, s.queue.enqueue msg = some q ∧ s.msgDispatch msg = { s with queue := q }) ∨
      (s.queue.enqueue msg = none ∧ s.msgDispatch msg = s) := by
  rcases hq : s.queue.enqueue msg with _ | q
  · exact .inr ⟨rfl, by rw [BigState.msgDispatch, hq]⟩
  · exact .inl ⟨q, rfl, by rw [BigState.msgDispatch, hq]⟩

section MsgDispatch

variable (s : BigState) (msg : CommonMsg)

@[simp] theorem sender_msgDispatch : (s.msgDispatch msg).sender = s.sender := by
  rw [BigState.msgDispatch]
  split <;> rfl

@[simp] theorem deliver_msgDispatch : (s.msgDispatch msg).deliver = s.deliver := by
  rw [BigState.msgDispatch]
  split <;> rfl

@[simp] theorem heap_msgDispatch : (s.msgDispatch msg).heap = s.heap := by
  rw [BigState.msgDispatch]
  split <;> rfl

@[simp] theorem status_msgDispatch : (s.msgDispatch msg).status = s.status := by
  rw [BigState.msgDispatch]
  split <;> rfl

@[simp] theorem calls_msgDispatch : (s.msgDispatch msg).calls = s.calls := by
  rw [BigState.msgDispatch]
  split <;> rfl

@[simp] theorem sent_msgDispatch : (s.msgDispatch msg).sent = s.sent := by
  rw [BigState.msgDispatch]
  split <;> rfl

@[simp] theorem freed_msgDispatch : (s.msgDispatch msg).freed = s.freed := by
  rw [BigState.msgDispatch]
  split <;> rfl

end MsgDispatch

/-- The three outcomes of `tcp_send_msg_handler`. -/
theorem tcpSendBigdata_cases {s : BigState} {msg : CommonMsg} {t : Sender}
    (ht : sendStep s.sender (.bigdata (s.bigMsg msg) msg.srcModule) = some t) :
    ((∀ m, s.bigMsg msg = some m → m.dataPtr = none ∨ m.totalLen = 0) ∧
      t.buf = s.sender.buf ∧ t.pc = s.sender.pc ∧
      tcpSendBigdata s msg t = { s with sender := t, deliver := .releasing msg }) ∨
    ∃ m, s.bigMsg msg = some m ∧ s.sender.pc.locked = false ∧ t.pc = s.sender.pc ∧
      ((t.buf = s.sender.buf ∧ tcpSendBigdata s msg t =
          { s with
            sender := t
            status := Function.update s.status m.addr .resend
            deliver := .dispatching msg msg.srcModule }) ∨
        (s.sender.buf.isSending = false ∧ t.buf = acceptBigdata s.sender.buf m msg.srcModule ∧
          tcpSendBigdata s msg t = { s with sender := t, deliver := .releasing msg })) := by
  simp only [sendStep] at ht
  split_ifs at ht with hlock
  rw [Option.some_inj] at ht
  rcases hr : handleBigdata s.sender.buf (s.bigMsg msg) msg.srcModule with ⟨b', es⟩
  rw [hr] at ht
  have hnew : newEvents s.sender t = es := newEvents_eq (by rw [← ht])
  rw [tcpSendBigdata, hnew]
  obtain ⟨hnull, rfl, rfl⟩ | ⟨m, hm, -, ⟨-, rfl, rfl⟩ | ⟨hidle, rfl, rfl⟩⟩ := handleBigdata_cases hr
  · exact .inl ⟨hnull, by rw [← ht], by rw [← ht], rfl⟩
  · exact .inr ⟨m, hm, by simpa using hlock, by rw [← ht], .inl ⟨by rw [← ht], rfl⟩⟩
  · exact .inr ⟨m, hm, by simpa using hlock, by rw [← ht], .inr ⟨hidle, by rw [← ht], rfl⟩⟩

/-- A message that is through, in one way or the other. -/
def Status.isFinal : Status → Bool
  | done => true
  | fileDeliverError => true
  | _ => false

/-- The three outcomes of the handlers of the modules that submit big messages. -/
theorem ownerBigdata_cases (s : BigState) (msg : CommonMsg) (m : BigDataMsg) :
    ((s.status m.addr).isFinal = true ∧ ownerBigdata s msg m =
      { s with freed := s.freed ++ [m.addr], deliver := .releasing { msg with data := .null } }) ∨
    (s.status m.addr = .resend ∧
      ownerBigdata s msg m = { s with deliver := .dispatching msg .tcpSend }) ∨
    ((s.status m.addr).isFinal = false ∧ s.status m.addr ≠ .resend ∧
      ownerBigdata s msg m = { s with deliver := .releasing msg }) := by
  rw [ownerBigdata]
  rcases s.status m.addr with _ | _ | _ | _ | _
  · exact .inr (.inr ⟨rfl, by simp, rfl⟩)
  · exact .inr (.inr ⟨rfl, by simp, rfl⟩)
  · exact .inr (.inl ⟨rfl, rfl⟩)
  · exact .inl ⟨rfl, rfl⟩
  · exact .inl ⟨rfl, rfl⟩

end Sentry
