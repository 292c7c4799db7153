/-
The promises made to a big message.

The upload slot is a part of the device, so what is known of its pointer along the runs
of `senderSystem` holds in the device too; the ledger says the rest.

* `sender_via` — the upload slot of the device runs as `senderSystem`;
* `dereferences_valid_iff` — the pointer in the slot is good where it is followed;
* `BigInv` — a big message goes to the TCP sender or comes back from it;
* `ownedBig` — as long as no step leaks, a message not freed yet is held by someone.
-/
import SentrySystem.BigDataLedger
import SentrySystem.TcpSendSlot

namespace Sentry

/-! ### The upload slot within the device -/

/-- A condition on the steps of the thread. -/
def OnSender (good : Sender → SendAction → Prop) (s : BigState) : BigAction → Prop
  | .sender a => good s.sender a
  | _ => True

instance {good : Sender → SendAction → Prop} [∀ s a, Decidable (good s a)] (s : BigState) :
    ∀ a, Decidable (OnSender good s a)
  | .sender a => inferInstanceAs (Decidable (good s.sender a))
  | .jsonSendResponse _ _ _ | .exportLogsOnDemand _ _ | .producerDispatch _ | .producerFree _
  | .otherDispatch _ | .receive | .handle _ | .handlerDispatch | .release => isTrue trivial

theorem BigStep.sender_cases {s t : BigState} {a : BigAction} (ht : BigStep s a t) :
    t.sender = s.sender ∨
      ∃ b, sendStep s.sender b = some t.sender ∧ (b.isThread = true → a = .sender b) := by
  cases ht with
  | image img msg u hd hmsg hu => exact .inr ⟨_, hu, by simp [SendAction.isThread]⟩
  | tcpSend img msg u hd hmsg hdst hu =>
    have hsender : (tcpSendBigdata s msg u).sender = u := by
      rw [tcpSendBigdata]
      split <;> rfl
    exact .inr ⟨_, hsender ▸ hu, by simp [SendAction.isThread]⟩
  | owner img msg m hd hmsg hdst hm =>
    refine .inl ?_
    obtain ⟨-, hs⟩ | ⟨-, hs⟩ | ⟨-, -, hs⟩ := ownerBigdata_cases s msg m <;> rw [hs]
  | sender b u hb hu =>
    have hsender : (threadStep s u).sender = u := by
      rw [threadStep]
      split <;> simp
    exact .inr ⟨b, by rw [hsender]; exact hu, fun _ => rfl⟩
  | otherDispatch => exact .inl (by simp)
  | handlerDispatch => exact .inl (by simp)
  | _ => exact .inl rfl

/-- The upload slot of the device runs as `senderSystem`. -/
theorem sender_via {connected : Bool} {good : Sender → SendAction → Prop}
    (hhandler : ∀ s a, SendAction.isThread a = false → good s a) {s : BigState}
    (hs : (bigSystem connected).Via (OnSender good) s) :
    (senderSystem connected).Via good s.sender := by
  refine TransitionSystem.Via.map BigState.sender rfl ?_ hs
  intro s a t _ ha ht
  rcases (bigStep_cases ht).sender_cases with hstay | ⟨b, hb, hthread⟩
  · exact .inl hstay
  · refine .inr ⟨b, ?_, hb⟩
    rcases hkind : b.isThread with _ | _
    · exact hhandler _ _ hkind
    · have hab := hthread hkind
      subst hab
      exact ha

/-- **The pointer in the slot is a message that is allocated and not freed** where
`tcp_send_thread` follows it, if and only if the step is not an idle heartbeat behind a
completed BIGDATA, in every run without one so far. -/
theorem dereferences_valid_iff {connected : Bool} {s : BigState} {a : SendAction}
    (hs : (bigSystem connected).Via (OnSender NoIdleHeartbeat) s)
    (hderef : Dereferences s.sender a) :
    (∃ m, s.sender.buf.pBigdataMsg = some m ∧ m.addr < s.heap.length ∧ m.addr ∉ s.freed) ↔
      NoIdleHeartbeat s.sender a := by
  have hsender : (senderSystem connected).Via NoIdleHeartbeat s.sender :=
    sender_via (fun s b hb => by cases b <;> trivial) hs
  have hback : s.sender.pc.sentBack = false := by
    cases a with
    | leaveWait timedOut => rw [hderef.1]; rfl
    | complete =>
      obtain ⟨snap, ok, hpc, -⟩ := hderef
      rw [hpc]
      rfl
    | _ => exact hderef.elim
  rw [← (pointerInv hsender).dereferences_iff hderef]
  refine exists_congr fun m => ⟨fun h => h.1, fun hm => ⟨hm, ?_⟩⟩
  -- the slot holds the message
  have hheld : m.addr ∈ (ledger s).held := by
    refine Multiset.mem_add.mpr (.inr ?_)
    rw [slotRefs, hback, hm]
    exact Multiset.mem_singleton_self m.addr
  have hlaw := ledger_law hs.reachable
  exact ⟨Multiset.mem_range.mp (hlaw.issued_of_held hheld),
    fun hfreed => hlaw.not_released hheld (Multiset.mem_coe.mpr hfreed)⟩

/-- A reply on its way through the queue into the slot and out over the link. -/
def replyRun : List BigAction :=
  [.jsonSendResponse .command 0 2, .producerDispatch 0, .receive, .handle none, .release,
    .sender (.leaveWait false), .sender .recheck, .sender (.sendFrame true)]

/-- A reply is completed and freed, an image is not sent, and the thread reconnects for the idle
heartbeat; then another reply goes out. -/
def reconnectedReplyRun : List BigAction :=
  replyRun ++ [.sender .complete, .sender .clear, .receive, .handle none, .release,
    .otherDispatch ⟨.max, .tcpSend, 3, .image, .normal, .null⟩, .receive,
    .handle (some (picture 1 2 3)), .release, .sender (.leaveWait false), .sender .recheck,
    .sender (.sendFrame false), .sender .dropLink, .sender .complete, .sender .clear,
    .sender (.leaveWait true), .sender (.connect true), .sender .publish, .sender .recheck,
    .jsonSendResponse .command 5 2, .producerDispatch 0, .receive, .handle none, .release,
    .sender (.leaveWait false), .sender .recheck, .sender (.sendFrame true)]

/-- The completion of the second reply. -/
theorem dereferences_valid_reconnected : ∃ s,
    (bigSystem true).run (.init true) reconnectedReplyRun = some s ∧ s.freed = [0] ∧
    ∃ m, s.sender.buf.pBigdataMsg = some m ∧ m.addr < s.heap.length ∧ m.addr ∉ s.freed := by
  have hvia : ∃ s, (bigSystem true).runVia (OnSender NoIdleHeartbeat) (.init true)
      reconnectedReplyRun = some s ∧ s.freed = [0] ∧ Dereferences s.sender .complete :=
    ⟨_, rfl, rfl, _, _, rfl, rfl⟩
  obtain ⟨s, hvia, hfreed, hderef⟩ := hvia
  exact ⟨s, TransitionSystem.run_of_runVia hvia, hfreed,
    (dereferences_valid_iff (.of_run hvia) hderef).mpr trivial⟩

/-- Behind the completion of the reply the link is lost, and the wait times out. -/
def heartbeatRun : List BigAction :=
  replyRun ++ [.sender .complete, .sender .clear, .sender .linkLost]

/-- Now the thread reads the locals of a BIGDATA off a null pointer. -/
theorem not_dereferences_valid_heartbeat : ∃ s, (bigSystem true).run (.init true) heartbeatRun = some s ∧
    Dereferences s.sender (.leaveWait true) ∧ s.sender.buf.pBigdataMsg = none :=
  ⟨_, rfl, ⟨rfl, rfl, rfl⟩, rfl⟩

/-! ### Messages on their way -/

/-- The messages that some handler will see: those in the queue, the one in front of its
handler, and the one a handler is about to send on. -/
def inFlight (s : BigState) : List CommonMsg :=
  s.queue.items ++
    match s.deliver with
    | .handling msg => [msg]
    | .dispatching msg dst => [{ msg with dstModule := dst }]
    | _ => []

/-- Sent back to the module it came from, to be freed or sent again. -/
def Status.isReturned : Status → Bool
  | resend => true
  | done => true
  | fileDeliverError => true
  | _ => false

/-- A MSG_TYPE_BIGDATA carries the address of a big message, on its way to the TCP sender or
back from it. -/
def Settled (status : ℕ → Status) (msg : CommonMsg) : Prop :=
  msg.msgType = .bigdata →
    ∃ a, bigAddr msg = some a ∧ (msg.dstModule = .tcpSend ∨ (status a).isReturned = true)

/-- What holds of the device in every state. -/
structure BigInv (s : BigState) : Prop where
  heap : HeapInv s
  law : (ledger s).Law
  settled : ∀ msg ∈ inFlight s, Settled s.status msg
  sent : ∀ a ∈ s.sent, a < s.heap.length

theorem isReturned_of_isFinal {status : Status} (h : status.isFinal = true) :
    status.isReturned = true := by
  cases status <;> first | rfl | simp [Status.isFinal] at h

theorem Settled.update {status : ℕ → Status} {msg : CommonMsg} {x : ℕ} {st : Status}
    (h : Settled status msg) (hst : st.isReturned = true) :
    Settled (Function.update status x st) msg := by
  intro hbig
  obtain ⟨a, ha, hor⟩ := h hbig
  refine ⟨a, ha, hor.imp_right ?_⟩
  intro hret
  by_cases hax : a = x
  · subst hax
    rwa [Function.update_self]
  · rwa [Function.update_of_ne hax]

theorem settled_of_tcpSend {status : ℕ → Status} {msg : CommonMsg} {a : ℕ}
    (ha : bigAddr msg = some a) (h : msg.dstModule = .tcpSend) : Settled status msg :=
  fun _ => ⟨a, ha, .inl h⟩

theorem settled_of_returned {status : ℕ → Status} {msg : CommonMsg} {a : ℕ}
    (ha : bigAddr msg = some a) (h : (status a).isReturned = true) : Settled status msg :=
  fun _ => ⟨a, ha, .inr h⟩

theorem mem_inFlight_msgDispatch {s : BigState} {msg msg' : CommonMsg}
    (h : msg' ∈ inFlight (s.msgDispatch msg)) : msg' = msg ∨ msg' ∈ inFlight s := by
  rcases msgDispatch_cases s msg with ⟨q, hq, hs⟩ | ⟨-, hs⟩
  · rw [BoundedFifo.enqueue_eq_some] at hq
    rw [hs, inFlight] at h
    simp only [hq.2, List.mem_append, List.mem_singleton] at h
    rw [inFlight, List.mem_append]
    tauto
  · exact .inr (hs ▸ h)

theorem mem_queueRefs {q : BoundedFifo CommonMsg maxMsgQueueSize} {a : ℕ} :
    a ∈ queueRefs q ↔ ∃ msg ∈ q.items, bigAddr msg = some a := by
  rw [queueRefs, Multiset.mem_coe, List.mem_filterMap]

theorem mem_held_of_inFlight {s : BigState} {msg : CommonMsg} {a : ℕ} (h : msg ∈ inFlight s)
    (ha : bigAddr msg = some a) : a ∈ held s := by
  rw [inFlight, List.mem_append] at h
  rcases h with h | h
  · have hqueue : a ∈ queueRefs s.queue := mem_queueRefs.mpr ⟨msg, h, ha⟩
    simp only [held, Multiset.mem_add]
    exact .inl (.inl (.inl hqueue))
  · have hdeliver : a ∈ deliverRefs s.deliver := by
      split at h
      · next msg' hd =>
        rw [List.mem_singleton] at h
        rw [hd, deliverRefs, ← h, ha]
        exact Multiset.mem_singleton_self a
      · next msg' dst hd =>
        rw [List.mem_singleton] at h
        have haddr : bigAddr msg' = some a := by
          rw [h] at ha
          exact ha
        rw [hd, deliverRefs, haddr]
        exact Multiset.mem_singleton_self a
      · simp at h
    simp only [held, Multiset.mem_add]
    exact .inl (.inl (.inr hdeliver))

theorem settled_step {s t : BigState} {a : BigAction} (h : BigInv s) (ht : BigStep s a t) :
    ∀ msg ∈ inFlight t, Settled t.status msg := by
  have hsettled := h.settled
  -- behind most steps no handler holds a message, and the queue is as before
  have hqueue : ∀ msg ∈ s.queue.items ++ [], Settled s.status msg := by
    intro msg hmsg
    rw [List.append_nil] at hmsg
    exact hsettled msg (List.mem_append_left _ hmsg)
  -- a message is allocated under an address that no message has
  have halloc : ∀ c : ProducerCall, ∀ msg ∈ inFlight (s.alloc c),
      Settled (s.alloc c).status msg := by
    intro c msg hmsg hbig
    obtain ⟨a, ha, hor⟩ := hsettled msg hmsg hbig
    refine ⟨a, ha, hor.imp_right ?_⟩
    intro hret
    have hlt : a < s.heap.length :=
      Multiset.mem_range.mp (h.law.issued_of_held (mem_held_of_inFlight hmsg ha))
    show (Function.update s.status s.heap.length .send a).isReturned = true
    rwa [Function.update_of_ne hlt.ne]
  cases ht with
  | jsonSendResponse src jsonStr len => exact halloc _
  | exportLogsOnDemand addr fileSize => exact halloc _
  | producerSent i c q hc hroom =>
    intro msg hmsg
    rw [BoundedFifo.enqueue_eq_some] at hroom
    simp only [inFlight, hroom.2, List.mem_append, List.mem_singleton] at hmsg
    obtain (hmsg | rfl) | hmsg := hmsg
    · exact hsettled msg (List.mem_append_left _ hmsg)
    · exact settled_of_tcpSend (bigAddr_msgMakeBig _ _ _) rfl
    · exact hsettled msg (List.mem_append_right _ hmsg)
  | jsonRefused => exact hsettled
  | exportRefused => exact hsettled
  | producerFree => exact hsettled
  | otherDispatch msg hne =>
    intro msg' hmsg'
    rw [status_msgDispatch]
    rcases mem_inFlight_msgDispatch hmsg' with rfl | hmsg'
    · intro hbig
      exact absurd hbig hne
    · exact hsettled msg' hmsg'
  | receive msg q hd hq =>
    rw [BoundedFifo.dequeue_eq_some] at hq
    intro msg' hmsg'
    refine hsettled msg' ?_
    rw [inFlight, hd, hq]
    simp only [inFlight, List.mem_append, List.mem_singleton] at hmsg'
    simp only [List.append_nil, List.mem_cons]
    exact hmsg'.symm
  | image img msg u hd hmsg hu => exact hqueue
  | ignored img msg hd hmsg => exact hqueue
  | tcpSend img msg u hd hmsg hdst hu =>
    obtain ⟨-, -, -, hs⟩ | ⟨m, hm, -, -, ⟨-, hs⟩ | ⟨-, -, hs⟩⟩ := tcpSendBigdata_cases hu
    · rw [hs]
      exact hqueue
    · rw [hs]
      intro msg' hmsg'
      simp only [inFlight, List.mem_append, List.mem_singleton] at hmsg'
      rcases hmsg' with hmsg' | rfl
      · exact (hsettled msg' (List.mem_append_left _ hmsg')).update rfl
      · have haddr : bigAddr { msg with dstModule := msg.srcModule } = some m.addr :=
          h.heap.bigAddr_eq hmsg hm
        exact settled_of_returned haddr (by simp [Status.isReturned])
    · rw [hs]
      exact hqueue
  | commandNull => exact hqueue
  | owner img msg m hd hmsg hdst hm =>
    obtain ⟨-, hs⟩ | ⟨-, hs⟩ | ⟨-, -, hs⟩ := ownerBigdata_cases s msg m
    · rw [hs]
      exact hqueue
    · rw [hs]
      intro msg' hmsg'
      simp only [inFlight, List.mem_append, List.mem_singleton] at hmsg'
      rcases hmsg' with hmsg' | rfl
      · exact hsettled msg' (List.mem_append_left _ hmsg')
      · have haddr : bigAddr { msg with dstModule := .tcpSend } = some m.addr :=
          h.heap.bigAddr_eq hmsg hm
        exact settled_of_tcpSend haddr rfl
    · rw [hs]
      exact hqueue
  | handlerDispatch msg dst m hd hm =>
    intro msg' hmsg'
    rw [status_msgDispatch]
    rcases mem_inFlight_msgDispatch hmsg' with rfl | hmsg'
    · -- what is posted is what the handler was about to send
      have hin : { msg with dstModule := dst } ∈ inFlight s := by simp [inFlight, hd]
      have hbig := h.heap.dispatching msg dst hd
      obtain ⟨a, ha, hor⟩ := hsettled _ hin hbig
      have haddr : bigAddr { msg with dstModule := dst } = some m.addr :=
        h.heap.bigAddr_eq hbig hm
      obtain rfl : a = m.addr := Option.some_inj.mp (ha.symm.trans haddr)
      intro _
      exact ⟨m.addr, bigAddr_msgMakeBig _ _ _, hor⟩
    · exact hqueue msg' hmsg'
  | release msg hd => exact hqueue
  | sender a u ha hu =>
    obtain ⟨-, hs⟩ | ⟨snap, ok, m, status, -, -, -, -, hst, -, hs⟩ := threadStep_cases ha hu
    · rw [hs]
      exact hsettled
    · rw [hs]
      intro msg' hmsg'
      rw [status_msgDispatch]
      rcases mem_inFlight_msgDispatch hmsg' with rfl | hmsg'
      · exact settled_of_returned (bigAddr_msgMakeBig _ _ _)
          (by simpa using isReturned_of_isFinal hst)
      · exact (hsettled msg' hmsg').update (isReturned_of_isFinal hst)

theorem sent_step {s t : BigState} {a : BigAction} (h : BigInv s) (ht : BigStep s a t) :
    ∀ x ∈ t.sent, x < t.heap.length := by
  have hsent := h.sent
  -- what a producer sends it has allocated
  have hcall : ∀ (i : ℕ) (c : ProducerCall), s.calls[i]? = some c →
      ∀ x ∈ s.sent ++ [c.msg.addr], x < s.heap.length := by
    intro i c hc x hx
    rw [List.mem_append, List.mem_singleton] at hx
    rcases hx with hx | rfl
    · exact hsent x hx
    · refine Multiset.mem_range.mp (h.law.issued_of_held (?_ : c.msg.addr ∈ held s))
      simp only [held, Multiset.mem_add, callRefs_eraseIdx hc]
      exact .inl (.inr (.inl (Multiset.mem_singleton_self _)))
  have hgrow : ∀ c : ProducerCall, ∀ x ∈ (s.alloc c).sent, x < (s.alloc c).heap.length := by
    intro c x hx
    have hlen : (s.alloc c).heap.length = s.heap.length + 1 := List.length_append
    have hlt := hsent x hx
    omega
  cases ht with
  | jsonSendResponse src jsonStr len => exact hgrow _
  | exportLogsOnDemand addr fileSize => exact hgrow _
  | producerSent i c q hc hroom => exact hcall i c hc
  | jsonRefused i c hc hfull => exact hcall i c hc
  | exportRefused i c hc hp hfull => exact hcall i c hc
  | otherDispatch => simpa using hsent
  | tcpSend img msg u hd hmsg hdst hu =>
    obtain ⟨-, -, -, hs⟩ | ⟨m, -, -, -, ⟨-, hs⟩ | ⟨-, -, hs⟩⟩ := tcpSendBigdata_cases hu <;>
      exact hs ▸ hsent
  | owner img msg m hd hmsg hdst hm =>
    obtain ⟨-, hs⟩ | ⟨-, hs⟩ | ⟨-, -, hs⟩ := ownerBigdata_cases s msg m <;> exact hs ▸ hsent
  | handlerDispatch => simpa using hsent
  | sender a u ha hu =>
    obtain ⟨-, hs⟩ | ⟨snap, ok, m, status, -, -, -, -, -, -, hs⟩ := threadStep_cases ha hu
    · exact hs ▸ hsent
    · rw [hs]
      simpa using hsent
  | _ => exact hsent

theorem bigInv {connected : Bool} {s : BigState} (hs : (bigSystem connected).Reachable s) :
    BigInv s := by
  have hlaw : ∀ {s : BigState}, (bigSystem connected).Reachable s → (ledger s).Law := ledger_law
  induction hs with
  | init =>
    refine ⟨heapInv .init, hlaw .init, ?_, ?_⟩
    · simp [bigSystem, BigState.init, inFlight, BoundedFifo.empty]
    · simp [bigSystem, BigState.init]
  | step hs hgood ht ih =>
    have hstep := bigStep_cases ht
    exact ⟨ih.heap.step hstep, hlaw (.step hs hgood ht), settled_step ih hstep, sent_step ih hstep⟩

/-- The message a handler is given is there: `logger_msg_handler`, which does not look for a
null pointer, never follows one. -/
theorem BigInv.bigMsg_of_handling {s : BigState} {msg : CommonMsg} (h : BigInv s)
    (hd : s.deliver = .handling msg) (hbig : msg.msgType = .bigdata) :
    ∃ m, s.bigMsg msg = some m ∧ bigAddr msg = some m.addr ∧ m.dataPtr ≠ none ∧
      (msg.dstModule = .tcpSend ∨ (s.status m.addr).isReturned = true) := by
  have hin : msg ∈ inFlight s := by simp [inFlight, hd]
  obtain ⟨a, ha, hor⟩ := h.settled msg hin hbig
  have hlt : a < s.heap.length :=
    Multiset.mem_range.mp (h.law.issued_of_held (mem_held_of_inFlight hin ha))
  obtain ⟨m, hm⟩ : ∃ m, s.heap[a]? = some m := ⟨_, List.getElem?_eq_getElem hlt⟩
  obtain ⟨rfl, hptr⟩ := h.heap.cell a m hm
  exact ⟨m, (bigMsg_eq s ha).trans hm, ha, hptr, hor⟩

/-! ### The law of ownership -/

/-- The message whose handler is running. -/
def DeliverPc.handled : DeliverPc → Option CommonMsg
  | handling msg => some msg
  | dispatching msg _ => some msg
  | _ => none

/-- The law of ownership: a big message that was dispatched and not freed is in the
queue, with the handler that is running, with its producer, or in the upload slot
while a send is pending; and none is freed twice. -/
structure OwnedBig (s : BigState) : Prop where
  referenced : ∀ a ∈ s.sent, a ∉ s.freed →
    (∃ msg ∈ s.queue.items, bigAddr msg = some a) ∨
    (∃ msg, s.deliver.handled = some msg ∧ bigAddr msg = some a) ∨
    (∃ c ∈ s.calls, c.msg.addr = a) ∨
    (s.sender.buf.isSending = true ∧ ∃ m, s.sender.buf.pBigdataMsg = some m ∧ m.addr = a)
  freed_once : s.freed.Nodup

/-- The condition on the steps: a `msg_dispatch` whose result is ignored finds room in
the queue, a big message is not empty and is handed to a module that takes big
messages, and no BIGDATA is answered with locals read before it came in. -/
def Keeps (s : BigState) : BigAction → Prop
  | .producerDispatch i => ∀ c, s.calls[i]? = some c → c.producer = .exportLogsOnDemand → ¬ Full s
  | .handle _ => ∀ msg m, s.deliver = .handling msg → msg.msgType = .bigdata →
      s.bigMsg msg = some m → (msg.dstModule = .tcpSend ∧ m.totalLen ≠ 0) ∨
        msg.dstModule = .logger ∨ msg.dstModule = .command
  | .handlerDispatch => ¬ Full s
  | .sender .complete => ∀ snap ok, s.sender.pc = .completing snap ok → snap.dataType = .big →
      ¬ Full s
  | .sender a => NoStaleBigdata s.sender a
  | _ => True

theorem Keeps.onSender {s : BigState} {a : BigAction} (h : Keeps s a) :
    OnSender NoStaleBigdata s a := by
  cases a with
  | sender b => cases b <;> first | exact h | trivial
  | _ => trivial

/-- Such a step does not leak. -/
theorem Keeps.not_leaks {s : BigState} {a : BigAction} (h : Keeps s a) (hinv : BigInv s)
    (hpending : PendingInv s.sender.buf s.sender.pc) : ¬ Leaks s a := by
  intro hleak
  cases a with
  | producerDispatch i =>
    obtain ⟨hfull, c, hc, hp⟩ := hleak
    exact h c hc hp hfull
  | handlerDispatch => exact h hleak
  | sender b =>
    cases b with
    | complete =>
      obtain ⟨hfull, snap, ok, hpc, hbig⟩ := hleak
      exact h snap ok hpc hbig hfull
    | _ => exact hleak
  | handle img =>
    obtain ⟨msg, a, hd, ha, hlose⟩ := hleak
    have hbig := msgType_of_bigAddr ha
    obtain ⟨m, hm, -, hptr, hor⟩ := hinv.bigMsg_of_handling hd hbig
    have hreturned : msg.dstModule ≠ .tcpSend → (s.status m.addr).isReturned = true :=
      hor.resolve_left
    have howner : (s.status m.addr).isReturned = true →
        ¬ ((s.status m.addr).isFinal = false ∧ s.status m.addr ≠ .resend) := by
      rcases s.status m.addr with _ | _ | _ | _ | _ <;> simp [Status.isReturned, Status.isFinal]
    rw [HandlerLoses] at hlose
    rcases h msg m hd hbig hm with ⟨hdst, hlen⟩ | hdst | hdst
    · rw [hdst] at hlose
      rcases hlose with hnull | ⟨hidle, hold⟩
      · exact (hnull m hm).elim hptr hlen
      · exact hold (hpending.null_of_idle hidle)
    · rw [hdst] at hlose
      exact howner (hreturned (by simp [hdst])) (hlose m hm)
    · rw [hdst] at hlose
      exact howner (hreturned (by simp [hdst])) (hlose m hm)
  | _ => exact hleak

/-- **Every big message dispatched and not freed has an owner, and none is freed twice**,
in every run that keeps to the condition. -/
theorem ownedBig {connected : Bool} {s : BigState} (hs : (bigSystem connected).Via Keeps s) :
    OwnedBig s := by
  have hpending : ∀ {s : BigState}, (bigSystem connected).Via Keeps s →
      PendingInv s.sender.buf s.sender.pc := by
    intro s hs
    exact pendingInv (sender_via (fun s b hb => by cases b <;> trivial)
      (hs.mono fun _ _ h => h.onSender))
  have hinv := bigInv hs.reachable
  -- nothing is dropped, so what was not freed is held
  have hfull := ledger_full (fun s a hs h => h.not_leaks (bigInv hs.reachable) (hpending hs)) hs
  refine ⟨fun a hsent hfreed => ?_, Multiset.coe_nodup.mp hinv.law.released_nodup⟩
  have hissued : a ∈ (ledger s).issued := Multiset.mem_range.mpr (hinv.sent a hsent)
  rw [← hfull, Multiset.mem_add] at hissued
  have hheld : a ∈ held s := hissued.resolve_right fun h => hfreed (Multiset.mem_coe.mp h)
  simp only [held, Multiset.mem_add] at hheld
  obtain ((hqueue | hdeliver) | hcall) | hslot := hheld
  · exact .inl (mem_queueRefs.mp hqueue)
  · refine .inr (.inl ?_)
    rcases hd : s.deliver with _ | msg | ⟨msg, dst⟩ | msg <;> rw [hd] at hdeliver
    · simp [deliverRefs] at hdeliver
    · exact ⟨msg, rfl, mem_refsOf.mp hdeliver⟩
    · exact ⟨msg, rfl, mem_refsOf.mp hdeliver⟩
    · simp [deliverRefs] at hdeliver
  · rw [callRefs, Multiset.mem_coe, List.mem_map] at hcall
    exact .inr (.inr (.inl hcall))
  · rw [slotRefs] at hslot
    split_ifs at hslot
    · simp at hslot
    · obtain ⟨m, hm, haddr⟩ := Option.map_eq_some_iff.mp (mem_refsOf.mp hslot)
      exact .inr (.inr (.inr ⟨((hpending hs).pending (by simp [hm])).1, m, hm, haddr⟩))

/-- An exported log file reaches the upload slot. -/
theorem ownedBig_export : ∃ s, (bigSystem true).run (.init true)
      [.exportLogsOnDemand 0 4096, .producerDispatch 0, .receive, .handle none] = some s ∧
    s.sent = [0] ∧ OwnedBig s := by
  refine ⟨_, rfl, rfl, @ownedBig true _ ?_⟩
  refine .step (a := .handle none) (.step (a := .receive) (.step (a := .producerDispatch 0)
    (.step (a := .exportLogsOnDemand 0 4096) .init trivial rfl) ?_ rfl) trivial rfl) ?_ rfl
  · intro _ _ _ hfull
    exact hfull (by decide)
  · rintro msg m hd _ hm
    cases hd
    cases hm
    exact .inl ⟨rfl, by decide⟩

/-- The other modules fill the queue, then a log file is exported. -/
def fullQueueRun : List BigAction :=
  List.replicate maxMsgQueueSize (.otherDispatch ⟨.alarm, .storage, 0, .alarm, .normal, .null⟩) ++
    [.exportLogsOnDemand 0 4096, .producerDispatch 0]

set_option maxRecDepth 4000 in
/-- `export_logs_on_demand` has returned, and nobody knows its message any more. -/
theorem not_ownedBig_fullQueue : ∃ s, (bigSystem true).run (.init true) fullQueueRun = some s ∧
    ¬ OwnedBig s := by
  refine ⟨_, rfl, ?_⟩
  intro h
  rcases h.referenced 0 (by decide) (by decide) with
    ⟨msg, hmsg, haddr⟩ | ⟨msg, hmsg, -⟩ | ⟨c, hc, -⟩ | ⟨hsend, -⟩
  · revert msg
    decide
  · exact absurd (show none = some msg from hmsg) (by simp)
  · exact absurd (show c ∈ [] from hc) (by simp)
  · exact absurd (show false = true from hsend) (by simp)

end Sentry
