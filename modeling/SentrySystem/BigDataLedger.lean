/-
Who owns a big message.

A big message is held through pointers: in the queue, in the message a handler has not
finished with, in a running producer, and in the upload slot.  The pointers make up
the ledger of the big messages, with the messages that were freed.

* `ledger_step` — one step of the device is a move of the ledger or leaves it alone;
* `Leaks` — the steps that drop a pointer;
* `ledger_reachable` — the device refines the ledger, so no message is held twice,
  freed twice, or held and freed;
* `ledger_full` — as long as no step leaks, what was not freed is held.
-/
import SentrySystem.BigData
import SentrySystem.Lib.Ledger

namespace Sentry

/-! ### Who holds a big message -/

/-- One pointer or none. -/
def refsOf (a : Option ℕ) : Multiset ℕ := (a.toList : Multiset ℕ)

@[simp] theorem refsOf_none : refsOf none = 0 := rfl

@[simp] theorem refsOf_some (a : ℕ) : refsOf (some a) = {a} := rfl

theorem mem_refsOf {o : Option ℕ} {a : ℕ} : a ∈ refsOf o ↔ o = some a := by
  rw [refsOf, Multiset.mem_coe, Option.mem_toList]

/-- The big message a message points to. -/
def bigAddr (msg : CommonMsg) : Option ℕ :=
  if msg.msgType = .bigdata then
    match msg.data with
    | .address a => some a
    | _ => none
  else none

@[simp] theorem bigAddr_msgMakeBig (src dst : ModuleId) (m : BigDataMsg) :
    bigAddr (msgMakeBig src dst m) = some m.addr := rfl

theorem bigAddr_of_ne {msg : CommonMsg} (h : msg.msgType ≠ .bigdata) : bigAddr msg = none :=
  if_neg h

/-- The pointers in the queue. -/
def queueRefs (q : BoundedFifo CommonMsg maxMsgQueueSize) : Multiset ℕ :=
  (q.items.filterMap bigAddr : List ℕ)

/-- The pointer of the message being handled, until its handler is through with it. -/
def deliverRefs : DeliverPc → Multiset ℕ
  | .handling msg => refsOf (bigAddr msg)
  | .dispatching msg _ => refsOf (bigAddr msg)
  | _ => 0

/-- The pointers of the running producers. -/
def callRefs (calls : List ProducerCall) : Multiset ℕ :=
  (calls.map fun c => c.msg.addr : List ℕ)

/-- Whether the message in the slot was sent back, though the slot is not cleared yet. -/
def SendPc.sentBack : SendPc → Bool
  | clearing snap => decide (snap.dataType = .big)
  | _ => false

/-- The pointer in the slot, unless it was sent back already. -/
def slotRefs (b : TcpDataBuffer) (pc : SendPc) : Multiset ℕ :=
  if pc.sentBack = true then 0 else refsOf (b.pBigdataMsg.map BigDataMsg.addr)

/-- All pointers. -/
def held (s : BigState) : Multiset ℕ :=
  queueRefs s.queue + deliverRefs s.deliver + callRefs s.calls +
    slotRefs s.sender.buf s.sender.pc

/-- The ledger of the big messages. -/
def ledger (s : BigState) : Ledger ℕ := ⟨Multiset.range s.heap.length, held s, s.freed⟩

theorem queueRefs_enqueue {q q' : BoundedFifo CommonMsg maxMsgQueueSize} {msg : CommonMsg}
    (h : q.enqueue msg = some q') : queueRefs q' = queueRefs q + refsOf (bigAddr msg) := by
  rw [BoundedFifo.enqueue_eq_some] at h
  rw [queueRefs, queueRefs, h.2, List.filterMap_append, ← Multiset.coe_add]
  rcases hb : bigAddr msg with _ | a <;> simp [hb]

theorem queueRefs_dequeue {q q' : BoundedFifo CommonMsg maxMsgQueueSize} {msg : CommonMsg}
    (h : q.dequeue = some (msg, q')) : queueRefs q = refsOf (bigAddr msg) + queueRefs q' := by
  rw [BoundedFifo.dequeue_eq_some] at h
  rw [queueRefs, queueRefs, h]
  rcases hb : bigAddr msg with _ | a
  · rw [List.filterMap_cons_none hb, refsOf_none, zero_add]
  · rw [List.filterMap_cons_some hb, refsOf_some, Multiset.singleton_add, Multiset.cons_coe]

theorem callRefs_append (calls : List ProducerCall) (c : ProducerCall) :
    callRefs (calls ++ [c]) = callRefs calls + {c.msg.addr} := by
  rw [callRefs, List.map_append, ← Multiset.coe_add]
  rfl

theorem callRefs_eraseIdx {calls : List ProducerCall} {i : ℕ} {c : ProducerCall}
    (h : calls[i]? = some c) : callRefs calls = {c.msg.addr} + callRefs (calls.eraseIdx i) := by
  obtain ⟨hi, rfl⟩ := List.getElem?_eq_some_iff.mp h
  have hperm := (List.getElem_cons_eraseIdx_perm hi).map fun c => c.msg.addr
  rw [callRefs, ← Multiset.coe_eq_coe.mpr hperm, List.map_cons, ← Multiset.cons_coe]
  rfl

theorem callRefs_refused {calls : List ProducerCall} {i : ℕ} {c : ProducerCall}
    (h : calls[i]? = some c) :
    callRefs (calls.set i { c with refused := true }) = callRefs calls := by
  rw [callRefs, callRefs, List.map_set]
  refine congrArg _ (List.ext_getElem? fun j => ?_)
  rw [List.getElem?_set]
  split_ifs with hij hlt
  · subst hij
    rw [List.getElem?_map, h]
    rfl
  · subst hij
    exact absurd (List.getElem?_eq_some_iff.mp h).1 (by simpa using hlt)
  · rfl

/-- The queue grows by what is dispatched, if it has room. -/
theorem held_msgDispatch (s : BigState) (msg : CommonMsg) :
    (s.queue.items.length < maxMsgQueueSize ∧
      held (s.msgDispatch msg) = held s + refsOf (bigAddr msg)) ∨
    (¬ s.queue.items.length < maxMsgQueueSize ∧ held (s.msgDispatch msg) = held s) := by
  rcases msgDispatch_cases s msg with ⟨q, hq, hs⟩ | ⟨hq, hs⟩
  · refine .inl ⟨(BoundedFifo.enqueue_eq_some.mp hq).1, ?_⟩
    rw [hs, held, held, queueRefs_enqueue hq]
    abel
  · refine .inr ⟨fun hroom => ?_, by rw [hs]⟩
    rw [BoundedFifo.enqueue, dif_pos hroom] at hq
    simp at hq

theorem slotRefs_congr {b b' : TcpDataBuffer} {pc pc' : SendPc}
    (hm : b'.pBigdataMsg = b.pBigdataMsg) (hpc : pc'.sentBack = pc.sentBack) :
    slotRefs b' pc' = slotRefs b pc := by
  rw [slotRefs, slotRefs, hm, hpc]

/-- The pointer along a step of the thread: it stays in the slot, or goes back with the
completion. -/
theorem SendStep.slotRefs_cases {b b' : TcpDataBuffer} {pc pc' : SendPc} {a : SendAction}
    {es : List SendEvent} (ht : SendStep b pc a b' pc' es) (ha : a.isThread = true) :
    (slotRefs b' pc' = slotRefs b pc ∧ ∀ m status dst, es ≠ [.dispatch m status dst]) ∨
    ∃ snap ok m status, a = .complete ∧ pc = .completing snap ok ∧ snap.dataType = .big ∧
      b.pBigdataMsg = some m ∧ status.isFinal = true ∧ pc' = .clearing snap ∧
      es = [.dispatch m status snap.targetModule] := by
  cases ht with
  | ignored => exact .inl ⟨rfl, by simp⟩
  | acceptImage => simp [SendAction.isThread] at ha
  | acceptBigdata => simp [SendAction.isThread] at ha
  | busy => simp [SendAction.isThread] at ha
  | linkLost => exact .inl ⟨slotRefs_congr rfl rfl, by simp⟩
  | leaveWait timedOut snap hpc =>
    subst hpc
    exact .inl ⟨slotRefs_congr rfl (by split_ifs <;> rfl), by simp⟩
  | nullSnapshot timedOut hpc =>
    subst hpc
    exact .inl ⟨slotRefs_congr rfl rfl, by simp⟩
  | connect ok snap hpc =>
    subst hpc
    exact .inl ⟨slotRefs_congr rfl (by split_ifs <;> rfl), by simp⟩
  | publish snap hpc =>
    subst hpc
    exact .inl ⟨slotRefs_congr rfl rfl, by simp⟩
  | recheck snap hpc =>
    subst hpc
    exact .inl ⟨slotRefs_congr rfl (by split_ifs <;> rfl), by simp⟩
  | sendFrame ok snap hpc =>
    subst hpc
    exact .inl ⟨slotRefs_congr rfl (by split_ifs <;> rfl), by simp⟩
  | dropLink snap hpc =>
    subst hpc
    exact .inl ⟨slotRefs_congr rfl rfl, by simp⟩
  | completeNormal snap ok n hpc htype =>
    subst hpc
    exact .inl ⟨slotRefs_congr rfl (by simp [SendPc.sentBack, htype]), by simp⟩
  | completeBig snap ok n m hpc htype hm =>
    exact .inr ⟨snap, ok, m, _, rfl, hpc, htype, hm, by split_ifs <;> rfl, rfl, rfl⟩
  | nullComplete snap ok n hpc =>
    subst hpc
    exact .inl ⟨slotRefs_congr rfl rfl, by simp⟩
  | clearNormal snap hpc htype =>
    subst hpc
    exact .inl ⟨slotRefs_congr rfl (by simp [SendPc.sentBack, htype]), by simp⟩
  | clearBig snap hpc htype =>
    subst hpc
    -- the pointer cleared was sent back already
    refine .inl ⟨?_, by simp⟩
    rw [slotRefs, slotRefs, if_neg (by simp [SendPc.sentBack]), if_pos (by simp [SendPc.sentBack, htype])]
    rfl

/-- A step of the thread completes a big message or leaves the pointer where it is. -/
theorem threadStep_cases {s : BigState} {a : SendAction} {t : Sender} (ha : a.isThread = true)
    (ht : sendStep s.sender a = some t) :
    (slotRefs t.buf t.pc = slotRefs s.sender.buf s.sender.pc ∧
      threadStep s t = { s with sender := t }) ∨
    ∃ snap ok m status, a = .complete ∧ s.sender.pc = .completing snap ok ∧
      snap.dataType = .big ∧ s.sender.buf.pBigdataMsg = some m ∧ status.isFinal = true ∧
      t.pc = .clearing snap ∧
      threadStep s t =
        { s with sender := t, status := Function.update s.status m.addr status }.msgDispatch
          (msgMakeBig .tcpSend snap.targetModule m) := by
  obtain ⟨es, hstep, htrace⟩ := sendStep_cases ht
  rw [threadStep, newEvents_eq htrace]
  obtain ⟨hslot, hes⟩ | ⟨snap, ok, m, status, ha, hpc, hbig, hm, hst, hpc', rfl⟩ :=
    hstep.slotRefs_cases ha
  · refine .inl ⟨hslot, ?_⟩
    split
    · next m status dst => exact absurd rfl (hes m status dst)
    · rfl
  · exact .inr ⟨snap, ok, m, status, ha, hpc, hbig, hm, hst, hpc', rfl⟩

/-! ### Addresses -/

/-- A big message lies at its address, and a handler passes on big messages only. -/
structure HeapInv (s : BigState) : Prop where
  cell : ∀ (a : ℕ) (m : BigDataMsg), s.heap[a]? = some m → m.addr = a ∧ m.dataPtr ≠ none
  dispatching : ∀ msg dst, s.deliver = .dispatching msg dst → msg.msgType = .bigdata

theorem bigMsg_eq {msg : CommonMsg} {a : ℕ} (s : BigState) (h : bigAddr msg = some a) :
    s.bigMsg msg = s.heap[a]? := by
  rw [bigAddr] at h
  split_ifs at h
  split at h
  · next a' ha' =>
    rw [Option.some_inj] at h
    rw [BigState.bigMsg, ha', h]
  · simp at h

theorem HeapInv.bigAddr_eq {s : BigState} {msg : CommonMsg} {m : BigDataMsg} (h : HeapInv s)
    (hbig : msg.msgType = .bigdata) (hm : s.bigMsg msg = some m) : bigAddr msg = some m.addr := by
  rw [BigState.bigMsg] at hm
  split at hm
  · next a ha =>
    rw [bigAddr, if_pos hbig, ha, (h.cell a m hm).1]
  · simp at hm

theorem HeapInv.keep {s t : BigState} (h : HeapInv s) (hheap : t.heap = s.heap)
    (hd : ∀ msg dst, t.deliver = .dispatching msg dst → msg.msgType = .bigdata) : HeapInv t :=
  ⟨hheap ▸ h.cell, hd⟩

theorem HeapInv.alloc {s : BigState} {c : ProducerCall} (h : HeapInv s)
    (haddr : c.msg.addr = s.heap.length) (hptr : c.msg.dataPtr ≠ none) : HeapInv (s.alloc c) := by
  refine ⟨fun a m hm => ?_, h.dispatching⟩
  have hm : (s.heap ++ [c.msg])[a]? = some m := hm
  rcases lt_trichotomy a s.heap.length with hlt | heq | hgt
  · rw [List.getElem?_append_left hlt] at hm
    exact h.cell a m hm
  · subst heq
    rw [List.getElem?_concat_length, Option.some_inj] at hm
    exact hm ▸ ⟨haddr, hptr⟩
  · rw [List.getElem?_eq_none (by simpa using hgt)] at hm
    simp at hm

theorem HeapInv.step {s t : BigState} {a : BigAction} (h : HeapInv s) (ht : BigStep s a t) :
    HeapInv t := by
  cases ht with
  | jsonSendResponse src jsonStr len => exact h.alloc rfl (by simp)
  | exportLogsOnDemand addr fileSize => exact h.alloc rfl (by simp)
  | producerSent => exact h.keep rfl h.dispatching
  | jsonRefused => exact h.keep rfl h.dispatching
  | exportRefused => exact h.keep rfl h.dispatching
  | producerFree => exact h.keep rfl h.dispatching
  | otherDispatch msg hmsg => exact h.keep (by simp) (by simpa using h.dispatching)
  | receive => exact h.keep rfl (by simp)
  | image => exact h.keep rfl (by simp)
  | ignored => exact h.keep rfl (by simp)
  | tcpSend img msg u hd hmsg hdst hu =>
    obtain ⟨-, -, -, hs⟩ | ⟨m, -, -, -, ⟨-, hs⟩ | ⟨-, -, hs⟩⟩ := tcpSendBigdata_cases hu
    · exact hs ▸ h.keep rfl (by simp)
    · refine hs ▸ h.keep rfl ?_
      rintro _ _ ⟨⟩
      exact hmsg
    · exact hs ▸ h.keep rfl (by simp)
  | commandNull => exact h.keep rfl (by simp)
  | owner img msg m hd hmsg hdst hm =>
    obtain ⟨-, hs⟩ | ⟨-, hs⟩ | ⟨-, -, hs⟩ := ownerBigdata_cases s msg m
    · exact hs ▸ h.keep rfl (by simp)
    · refine hs ▸ h.keep rfl ?_
      rintro _ _ ⟨⟩
      exact hmsg
    · exact hs ▸ h.keep rfl (by simp)
  | handlerDispatch => exact h.keep (by simp) (by simp)
  | release => exact h.keep rfl (by simp)
  | sender a u ha hu =>
    obtain ⟨-, hs⟩ | ⟨snap, ok, m, status, -, -, -, -, -, -, hs⟩ := threadStep_cases ha hu
    · exact hs ▸ h.keep rfl h.dispatching
    · exact hs ▸ h.keep (by simp) (by simpa using h.dispatching)

theorem heapInv {connected : Bool} {s : BigState} (hs : (bigSystem connected).Reachable s) :
    HeapInv s :=
  hs.invariant ⟨fun a m h => by simp [bigSystem, BigState.init] at h,
    fun msg dst h => by simp [bigSystem, BigState.init] at h⟩
    fun _ _ _ h _ ht => h.step (bigStep_cases ht)

/-! ### The device refines the ledger -/

/-- The queue has no room. -/
def Full (s : BigState) : Prop := ¬ s.queue.items.length < maxMsgQueueSize

/-- A handler forgets the big message it is given, or the one it replaces. -/
def HandlerLoses (s : BigState) (msg : CommonMsg) : Prop :=
  match msg.dstModule with
  | .tcpSend => (∀ m, s.bigMsg msg = some m → m.dataPtr = none ∨ m.totalLen = 0) ∨
      (s.sender.buf.isSending = false ∧ s.sender.buf.pBigdataMsg ≠ none)
  | .logger => ∀ m, s.bigMsg msg = some m →
      (s.status m.addr).isFinal = false ∧ s.status m.addr ≠ .resend
  | .command => ∀ m, s.bigMsg msg = some m →
      (s.status m.addr).isFinal = false ∧ s.status m.addr ≠ .resend
  | _ => True

/-- The steps that drop the pointer to a big message. -/
def Leaks (s : BigState) : BigAction → Prop
  | .producerDispatch i => Full s ∧ ∃ c, s.calls[i]? = some c ∧ c.producer = .exportLogsOnDemand
  | .handle _ => ∃ msg a, s.deliver = .handling msg ∧ bigAddr msg = some a ∧ HandlerLoses s msg
  | .handlerDispatch => Full s
  | .sender .complete => Full s ∧ ∃ snap ok, s.sender.pc = .completing snap ok ∧
      snap.dataType = .big
  | _ => False

theorem ledger_stay {s t : BigState} (hheap : t.heap = s.heap) (hheld : held t = held s)
    (hfreed : t.freed = s.freed) : ledger t = ledger s := by
  rw [ledger, ledger, hheap, hheld, hfreed]

theorem ledger_release {s t : BigState} {x : ℕ} (hheap : t.heap = s.heap)
    (hheld : held s = {x} + held t) (hfreed : t.freed = s.freed ++ [x]) :
    (ledger s).step (.release x) = some (ledger t) := by
  have hcons : (ledger s).held = x ::ₘ held t := hheld
  rw [Ledger.step_release hcons, ledger, ledger, hheap, hfreed, ← Multiset.coe_add, add_comm]
  rfl

theorem ledger_drop {s t : BigState} {x : ℕ} (hheap : t.heap = s.heap)
    (hheld : held s = {x} + held t) (hfreed : t.freed = s.freed) :
    (ledger s).step (.drop x) = some (ledger t) := by
  have hcons : (ledger s).held = x ::ₘ held t := hheld
  rw [Ledger.step_drop hcons, ledger, ledger, hheap, hfreed]

theorem held_alloc (s : BigState) (c : ProducerCall) :
    held (s.alloc c) = {c.msg.addr} + held s := by
  have hcalls : held (s.alloc c) = queueRefs s.queue + deliverRefs s.deliver +
      callRefs (s.calls ++ [c]) + slotRefs s.sender.buf s.sender.pc := rfl
  rw [hcalls, callRefs_append, held]
  abel

theorem ledger_alloc {s : BigState} {c : ProducerCall} (haddr : c.msg.addr = s.heap.length) :
    (ledger s).step (.issue s.heap.length) = some (ledger (s.alloc c)) := by
  have hheld : held (s.alloc c) = s.heap.length ::ₘ (ledger s).held := by
    rw [held_alloc, haddr, Multiset.singleton_add]
    rfl
  have hissued : (ledger (s.alloc c)).issued = s.heap.length ::ₘ (ledger s).issued := by
    show Multiset.range (s.heap ++ [c.msg]).length = s.heap.length ::ₘ Multiset.range s.heap.length
    rw [List.length_append, List.length_singleton, Multiset.range_succ]
  rw [Ledger.step_issue (by simp [ledger]) hheld, ← hissued]
  rfl

/-- A pointer is dispatched: it goes into the queue, or is dropped because that is full. -/
theorem ledger_dispatch {s u : BigState} {msg : CommonMsg} {x : ℕ}
    (hheld : held s = {x} + held u) (hmsg : bigAddr msg = some x) (hheap : u.heap = s.heap)
    (hfreed : u.freed = s.freed) (hqueue : u.queue = s.queue) :
    ledger (u.msgDispatch msg) = ledger s ∨
      (Full s ∧ (ledger s).step (.drop x) = some (ledger (u.msgDispatch msg))) := by
  rcases held_msgDispatch u msg with ⟨-, hu⟩ | ⟨hfull, hu⟩
  · refine .inl (ledger_stay (by simpa using hheap) ?_ (by simpa using hfreed))
    rw [hu, hheld, hmsg, refsOf_some, add_comm]
  · rw [hqueue] at hfull
    refine .inr ⟨hfull, ledger_drop (by simpa using hheap) ?_ (by simpa using hfreed)⟩
    rw [hheld, hu]

/-- The handler is through with the message and has kept nothing of it. -/
theorem ledger_handled {s t : BigState} {msg : CommonMsg} {img : Option ImageData}
    (hd : s.deliver = .handling msg) (hheap : t.heap = s.heap) (hfreed : t.freed = s.freed)
    (hheld : held s = refsOf (bigAddr msg) + held t)
    (hlose : ∀ a, bigAddr msg = some a → HandlerLoses s msg) :
    ledger t = ledger s ∨
      ∃ b, (ledger s).step b = some (ledger t) ∧ (b.isDrop = true → Leaks s (.handle img)) := by
  rcases ha : bigAddr msg with _ | a
  · rw [ha, refsOf_none, zero_add] at hheld
    exact .inl (ledger_stay hheap hheld.symm hfreed)
  · rw [ha, refsOf_some] at hheld
    exact .inr ⟨.drop a, ledger_drop hheap hheld hfreed, fun _ => ⟨msg, a, hd, ha, hlose a ha⟩⟩

theorem held_releasing {s : BigState} {msg : CommonMsg} (hd : s.deliver = .handling msg) :
    held s = refsOf (bigAddr msg) + held { s with deliver := .releasing msg } := by
  simp only [held, hd, deliverRefs]
  abel

theorem msgType_of_bigAddr {msg : CommonMsg} {a : ℕ} (h : bigAddr msg = some a) :
    msg.msgType = .bigdata := by
  by_contra hne
  rw [bigAddr_of_ne hne] at h
  simp at h

theorem not_sentBack_of_unlocked {pc : SendPc} (h : pc.locked = false) : pc.sentBack = false := by
  cases pc <;> first | rfl | simp [SendPc.locked] at h

/-- An image leaves the pointer in the slot alone. -/
theorem slotRefs_image {s t : Sender} {img : Option ImageData}
    (h : sendStep s (.image img) = some t) : slotRefs t.buf t.pc = slotRefs s.buf s.pc := by
  obtain ⟨es, hstep, -⟩ := sendStep_cases h
  generalize t.buf = b', t.pc = pc' at hstep
  cases hstep with
  | ignored => rfl
  | acceptImage => exact slotRefs_congr rfl rfl

/-- **One step of the device** leaves the ledger alone or is a move of the ledger, and it
drops nothing unless it leaks. -/
theorem ledger_step {s t : BigState} {a : BigAction} (h : HeapInv s) (ht : BigStep s a t) :
    ledger t = ledger s ∨
      ∃ b, (ledger s).step b = some (ledger t) ∧ (b.isDrop = true → Leaks s a) := by
  cases ht with
  | jsonSendResponse src jsonStr len => exact .inr ⟨_, ledger_alloc rfl, by simp [Ledger.Action.isDrop]⟩
  | exportLogsOnDemand addr fileSize => exact .inr ⟨_, ledger_alloc rfl, by simp [Ledger.Action.isDrop]⟩
  | producerSent i c q hc hroom =>
    refine .inl (ledger_stay rfl ?_ rfl)
    simp only [held]
    rw [queueRefs_enqueue hroom, callRefs_eraseIdx hc, bigAddr_msgMakeBig, refsOf_some]
    abel
  | jsonRefused i c hc hfull =>
    refine .inl (ledger_stay rfl ?_ rfl)
    simp only [held]
    rw [callRefs_refused hc]
  | exportRefused i c hc hp hfull =>
    refine .inr ⟨.drop c.msg.addr, ledger_drop rfl ?_ rfl, fun _ => ⟨?_, c, hc, hp⟩⟩
    · simp only [held]
      rw [callRefs_eraseIdx hc]
      abel
    · intro hroom
      rw [BoundedFifo.enqueue, dif_pos hroom] at hfull
      simp at hfull
  | producerFree i c hc =>
    refine .inr ⟨.release c.msg.addr, ledger_release rfl ?_ rfl, by simp [Ledger.Action.isDrop]⟩
    simp only [held]
    rw [callRefs_eraseIdx hc]
    abel
  | otherDispatch msg hmsg =>
    refine .inl (ledger_stay (by simp) ?_ (by simp))
    rcases held_msgDispatch s msg with ⟨-, hheld⟩ | ⟨-, hheld⟩
    · rw [hheld, bigAddr_of_ne hmsg, refsOf_none, add_zero]
    · exact hheld
  | receive msg q hd hq =>
    refine .inl (ledger_stay rfl ?_ rfl)
    simp only [held, hd, deliverRefs]
    rw [queueRefs_dequeue hq]
    abel
  | image img msg u hd hmsg hu =>
    refine .inl (ledger_stay rfl ?_ rfl)
    simp only [held, hd, deliverRefs]
    rw [bigAddr_of_ne hmsg, refsOf_none, slotRefs_image hu]
  | ignored img msg hd hmsg =>
    refine ledger_handled hd rfl rfl (held_releasing hd) ?_
    intro a ha
    obtain ⟨hsend, hlogger, hcommand⟩ := hmsg (msgType_of_bigAddr ha)
    rw [HandlerLoses]
    split <;> trivial
  | tcpSend img msg u hd hmsg hdst hu =>
    obtain ⟨hnull, hbuf, hpc, hs⟩ | ⟨m, hm, hfree, hpc, ⟨hbuf, hs⟩ | ⟨hidle, hbuf, hs⟩⟩ :=
      tcpSendBigdata_cases hu
    · rw [hs]
      refine ledger_handled hd rfl rfl ?_ fun _ _ => ?_
      · rw [held_releasing hd]
        simp only [held]
        rw [hbuf, hpc]
      · rw [HandlerLoses, hdst]
        exact .inl hnull
    · rw [hs]
      refine .inl (ledger_stay rfl ?_ rfl)
      simp only [held, hd, deliverRefs]
      rw [hbuf, hpc]
    · -- the pointer moves into the slot, over the one there
      have haddr := h.bigAddr_eq hmsg hm
      have hback := not_sentBack_of_unlocked hfree
      have hslot : slotRefs u.buf u.pc = {m.addr} := by
        rw [hbuf, hpc, slotRefs, hback]
        rfl
      rw [hs]
      rcases hold : s.sender.buf.pBigdataMsg with _ | old
      · refine .inl (ledger_stay rfl ?_ rfl)
        simp only [held, hd, deliverRefs]
        rw [hslot, haddr, refsOf_some, slotRefs, hback, hold]
        simp only [Bool.false_eq_true, if_false, Option.map_none, refsOf_none]
        abel
      · refine .inr ⟨.drop old.addr, ledger_drop rfl ?_ rfl,
          fun _ => ⟨msg, m.addr, hd, haddr, ?_⟩⟩
        · simp only [held, hd, deliverRefs]
          rw [hslot, haddr, refsOf_some, slotRefs, hback, hold]
          simp only [Bool.false_eq_true, if_false, Option.map_some, refsOf_some]
          abel
        · rw [HandlerLoses, hdst]
          exact .inr ⟨hidle, by simp [hold]⟩
  | commandNull img msg hd hdst hm =>
    refine ledger_handled hd rfl rfl (held_releasing hd) ?_
    intro _ _
    rw [HandlerLoses, hdst]
    intro m hm'
    exact absurd (hm.symm.trans hm') (by simp)
  | owner img msg m hd hmsg hdst hm =>
    obtain ⟨-, hs⟩ | ⟨-, hs⟩ | ⟨hfinal, hresend, hs⟩ := ownerBigdata_cases s msg m
    · rw [hs]
      refine .inr ⟨.release m.addr, ledger_release rfl ?_ rfl, by simp [Ledger.Action.isDrop]⟩
      simp only [held, hd, deliverRefs]
      rw [h.bigAddr_eq hmsg hm, refsOf_some]
      abel
    · rw [hs]
      refine .inl (ledger_stay rfl ?_ rfl)
      simp only [held, hd, deliverRefs]
    · rw [hs]
      refine ledger_handled hd rfl rfl (held_releasing hd) ?_
      intro _ _
      have hlost : ∀ m', s.bigMsg msg = some m' →
          (s.status m'.addr).isFinal = false ∧ s.status m'.addr ≠ .resend := by
        intro m' hm'
        obtain rfl : m = m' := Option.some_inj.mp (hm.symm.trans hm')
        exact ⟨hfinal, hresend⟩
      rw [HandlerLoses]
      rcases hdst with hdst | hdst <;> rw [hdst] <;> exact hlost
  | handlerDispatch msg dst m hd hm =>
    have haddr := h.bigAddr_eq (h.dispatching msg dst hd) hm
    have hheld : held s = {m.addr} + held { s with deliver := .releasing msg } := by
      simp only [held, hd, deliverRefs]
      rw [haddr, refsOf_some]
      abel
    rcases ledger_dispatch hheld (bigAddr_msgMakeBig msg.dstModule dst m) rfl rfl rfl with
      hstay | ⟨hfull, hdrop⟩
    · exact .inl hstay
    · exact .inr ⟨_, hdrop, fun _ => hfull⟩
  | release msg hd =>
    refine .inl (ledger_stay rfl ?_ rfl)
    simp only [held, hd, deliverRefs]
  | sender a u ha hu =>
    obtain ⟨hslot, hs⟩ | ⟨snap, ok, m, status, rfl, hpc, hbig, hm, -, hpc', hs⟩ :=
      threadStep_cases ha hu
    · rw [hs]
      refine .inl (ledger_stay rfl ?_ rfl)
      simp only [held]
      rw [hslot]
    · rw [hs]
      have hheld : held s = {m.addr} + held { s with
          sender := u, status := Function.update s.status m.addr status } := by
        simp only [held]
        rw [slotRefs, hpc, if_neg (by simp [SendPc.sentBack]), hm, slotRefs, hpc',
          if_pos (by simp [SendPc.sentBack, hbig]), Option.map_some, refsOf_some]
        abel
      rcases ledger_dispatch hheld (bigAddr_msgMakeBig .tcpSend snap.targetModule m) rfl rfl rfl
        with hstay | ⟨hfull, hdrop⟩
      · exact .inl hstay
      · exact .inr ⟨_, hdrop, fun _ => ⟨hfull, snap, ok, hpc, hbig⟩⟩

/-- **Refinement**: the pointers of the device make up a run of the ledger. -/
theorem ledger_reachable {connected : Bool} {s : BigState}
    (hs : (bigSystem connected).Reachable s) : (Ledger.system ℕ).Reachable (ledger s) := by
  refine TransitionSystem.Via.map ledger rfl ?_ hs
  intro s a t hs _ ht
  rcases ledger_step (heapInv hs) (bigStep_cases ht) with hstay | ⟨b, hb, -⟩
  · exact .inl hstay
  · exact .inr ⟨b, trivial, hb⟩

theorem ledger_law {connected : Bool} {s : BigState} (hs : (bigSystem connected).Reachable s) :
    (ledger s).Law :=
  Ledger.law (ledger_reachable hs)

/-- Without a leak every message that was allocated is held or freed. -/
theorem ledger_full {connected : Bool} {good : BigState → BigAction → Prop}
    (hgood : ∀ s a, (bigSystem connected).Via good s → good s a → ¬ Leaks s a) {s : BigState}
    (hs : (bigSystem connected).Via good s) :
    (ledger s).held + (ledger s).released = (ledger s).issued := by
  refine Ledger.law_of_not_drop (TransitionSystem.Via.map ledger rfl ?_ hs)
  intro s a t hs ha ht
  rcases ledger_step (heapInv hs.reachable) (bigStep_cases ht) with hstay | ⟨b, hb, hdrop⟩
  · exact .inl hstay
  · refine .inr ⟨b, ?_, hb⟩
    rw [← Bool.not_eq_true]
    intro hb
    exact hgood s a hs ha (hdrop hb)

end Sentry
