/-
The message system of the device (`src/msg/msg_deliver.c`, `src/msg/msg_about.c`).

Any number of callers put messages into one queue with `msg_send`; the deliver
thread takes them out one by one, calls the handler of the destination and then
the release handler of the source.  Steps end where the queue's lock is taken or
given back or another module is called, so a run is an interleaving of the calls
of all threads, those made by handlers included.

* `msgPrepareForQueue`, `msgSend`, `msgReceive` — the functions;
* `msgSystem` — the callers and the deliver thread, with the history of calls;
* `server_reachable` — the default build refines the bounded server;
* `Numbering`, `Releases` — where each call is, and which were released;
* `queueLaw` — first in, first out, and exactly one release for each call.
-/
import SentrySystem.Common
import SentrySystem.MsgQueue

namespace Sentry

open MsgQueue

/-! ### The code -/

/-- `MAX_LOG_MSG_SIZE`. -/
def maxLogMsgSize : ℕ := 64

/-- `sizeof(Log_Msg_t)`. -/
def sizeofLogMsg : ℕ := 88

/-- `log_msg_buffer`, each slot with its bytes, and `log_idx`. -/
structure LogRing where
  logMsgBuffer : List (List UInt8)
  logIdx : ℕ

/-- The zeroed ring. -/
def LogRing.init : LogRing := ⟨List.replicate maxLogMsgSize (List.replicate sizeofLogMsg 0), 0⟩

/-- What `memset` and `memcpy` leave in a slot: `copyLen` of the bytes at the sender's
pointer, then zeros. -/
def logSlotContent (bytes : List UInt8) (copyLen : ℕ) : List UInt8 :=
  writeAt (List.replicate sizeofLogMsg 0) 0 (bytes.take copyLen)

/-- `copy_len`. -/
def copyLen (msg : CommonMsg) : UInt32 :=
  if UInt32.ofNat sizeofLogMsg < msg.dataLen then UInt32.ofNat sizeofLogMsg else msg.dataLen

/-- `msg_prepare_for_queue`, `bytes` being the memory at `msg->data`. -/
def msgPrepareForQueue (ring : LogRing) (msg : CommonMsg) (bytes : List UInt8) :
    CommonMsg × LogRing :=
  if msg.msgType = .log ∧ msg.data ≠ .null then
    ({ msg with data := .logSlot ring.logIdx, dataLen := copyLen msg },
      { logMsgBuffer := ring.logMsgBuffer.set ring.logIdx
          (logSlotContent bytes (copyLen msg).toNat)
        logIdx := (ring.logIdx + 1) % maxLogMsgSize })
  else (msg, ring)

/-- A call of `msg_send` with a message: its number, the message and the memory at the
message's pointer, and the copy that goes into the queue. -/
structure Entry where
  call : ℕ
  arg : CommonMsg
  bytes : List UInt8
  queued : CommonMsg

/-- The two builds of the queue. -/
inductive Build
  | default
  | msgEnablePriority
  deriving DecidableEq

/-- The order `msg_queue_push` keeps. -/
def Build.priority : Build → Option (Entry → ℕ)
  | default => none
  | msgEnablePriority => some fun e => e.queued.priority.code

/-- The state: `msg_queue`, the registered modules, the message the deliver thread
holds, the calls that found the queue full and have yet to release their
message; and the history: the calls accepted (0 was returned), the handlers
called, the release handlers called, the calls refused (-1 was returned), and
the messages the deliver thread is done with. -/
structure MsgState where
  queue : MsgQueue Entry
  ring : LogRing
  routes : List ModuleId
  current : Option (Phase × Entry)
  refusing : List Entry
  nextCall : ℕ
  accepted : List Entry
  handlerCalls : List Entry
  releases : List ℕ
  refused : List ℕ
  finished : List Entry

/-- A zeroed message. -/
def Entry.zero : Entry := ⟨0, ⟨.v4l2, .v4l2, 0, .image, .low, .null⟩, [],
  ⟨.v4l2, .v4l2, 0, .image, .low, .null⟩⟩

/-- The state after `msg_queue_init_once`. -/
def MsgState.init : MsgState where
  queue := .init .zero
  ring := .init
  routes := [.v4l2, .udp, .alarm, .logger, .storage, .tcpSend, .command]
  current := none
  refusing := []
  nextCall := 0
  accepted := []
  handlerCalls := []
  releases := []
  refused := []
  finished := []

/-- `msg_send` up to where it gives back the lock. -/
def msgSend (build : Build) (s : MsgState) (msg : CommonMsg) (bytes : List UInt8) : MsgState :=
  if h : s.queue.count < maxMsgQueueSize then
    let r := msgPrepareForQueue s.ring msg bytes
    let e : Entry := ⟨s.nextCall, msg, bytes, r.1⟩
    { s with
      queue := msgQueuePush build.priority s.queue e h
      ring := r.2
      nextCall := s.nextCall + 1
      accepted := s.accepted ++ [e] }
  else
    -- the message is released behind the lock, in a later step
    { s with
      refusing := s.refusing ++ [⟨s.nextCall, msg, bytes, msg⟩]
      nextCall := s.nextCall + 1 }

/-- `msg_receive`, blocked while the queue is empty. -/
def msgReceive (s : MsgState) : Option MsgState :=
  (msgQueuePop s.queue).map fun r => { s with queue := r.2, current := some (.fetched, r.1) }

/-- `msg_module_handler`: the handler is called when the destination is registered. -/
def msgModuleHandler (s : MsgState) (e : Entry) : MsgState :=
  if e.queued.dstModule ∈ s.routes then { s with handlerCalls := s.handlerCalls ++ [e] } else s

/-- What can happen while `running` is set.  A message is sent to a module that is
registered by then, as every caller does. -/
inductive MsgAction
  | register (m : ModuleId)
  | sendNull
  | send (msg : CommonMsg) (bytes : List UInt8)
  | releaseRefused (i : ℕ)
  | receive
  | handle
  | handlerReturn
  | release

/-- One step.  A message is sent to a registered module only, as every caller in the source does. -/
def msgStep (build : Build) (s : MsgState) : MsgAction → Option MsgState
  | .register m => if m = .max then some s else some { s with routes := m :: s.routes }
  | .sendNull => some s
  | .send msg bytes =>
    if msg.dstModule ∈ s.routes then some (msgSend build s msg bytes) else none
  | .releaseRefused i =>
    s.refusing[i]?.map fun e =>
      { s with
        refusing := s.refusing.eraseIdx i
        releases := s.releases ++ [e.call]
        refused := s.refused ++ [e.call] }
  | .receive =>
    match s.current with
    | none => msgReceive s
    | some _ => none
  -- a handler's own calls of `msg_send` are `send` steps before its return
  | .handle =>
    match s.current with
    | some (.fetched, e) => some { msgModuleHandler s e with current := some (.serving, e) }
    | _ => none
  | .handlerReturn =>
    match s.current with
    | some (.serving, e) => some { s with current := some (.leaving, e) }
    | _ => none
  | .release =>
    match s.current with
    | some (.leaving, e) =>
      some { s with
        current := none
        releases := s.releases ++ [e.call]
        finished := s.finished ++ [e] }
    | _ => none

/-- The message system. -/
def msgSystem (build : Build) : TransitionSystem MsgState MsgAction :=
  ⟨.init, msgStep build⟩

/-- The messages accepted and not yet released: the one the deliver thread holds and
those in the queue. -/
def MsgState.live (s : MsgState) : List Entry := s.current.toList.map Prod.snd ++ s.queue.items

/-! ### What a step can do -/

/-- The entry of an accepted call. -/
def acceptedEntry (s : MsgState) (msg : CommonMsg) (bytes : List UInt8) : Entry :=
  ⟨s.nextCall, msg, bytes, (msgPrepareForQueue s.ring msg bytes).1⟩

/-- Everything a step can do to a state. -/
inductive MsgStep (build : Build) (s : MsgState) : MsgAction → MsgState → Prop
  | register (m : ModuleId) (h : m ≠ .max) :
      MsgStep build s (.register m) { s with routes := m :: s.routes }
  | registerMax : MsgStep build s (.register .max) s
  | sendNull : MsgStep build s .sendNull s
  | accept (msg : CommonMsg) (bytes : List UInt8) (h : s.queue.count < maxMsgQueueSize)
      (hdst : msg.dstModule ∈ s.routes) : MsgStep build s (.send msg bytes)
        { s with
          queue := msgQueuePush build.priority s.queue (acceptedEntry s msg bytes) h
          ring := (msgPrepareForQueue s.ring msg bytes).2
          nextCall := s.nextCall + 1
          accepted := s.accepted ++ [acceptedEntry s msg bytes] }
  | refuse (msg : CommonMsg) (bytes : List UInt8) (h : ¬ s.queue.count < maxMsgQueueSize) :
      MsgStep build s (.send msg bytes)
        { s with
          refusing := s.refusing ++ [⟨s.nextCall, msg, bytes, msg⟩]
          nextCall := s.nextCall + 1 }
  | releaseRefused (i : ℕ) (e : Entry) (h : s.refusing[i]? = some e) :
      MsgStep build s (.releaseRefused i)
      { s with
        refusing := s.refusing.eraseIdx i
        releases := s.releases ++ [e.call]
        refused := s.refused ++ [e.call] }
  | receive (e : Entry) (q : MsgQueue Entry) (hc : s.current = none)
      (h : msgQueuePop s.queue = some (e, q)) :
      MsgStep build s .receive { s with queue := q, current := some (.fetched, e) }
  | handle (e : Entry) (hc : s.current = some (.fetched, e)) :
      MsgStep build s .handle { msgModuleHandler s e with current := some (.serving, e) }
  | handlerReturn (e : Entry) (hc : s.current = some (.serving, e)) :
      MsgStep build s .handlerReturn { s with current := some (.leaving, e) }
  | release (e : Entry) (hc : s.current = some (.leaving, e)) : MsgStep build s .release
      { s with
        current := none
        releases := s.releases ++ [e.call]
        finished := s.finished ++ [e] }

theorem msgStep_cases {build : Build} {s t : MsgState} {a : MsgAction}
    (h : msgStep build s a = some t) : MsgStep build s a t := by
  cases a with
  | register m =>
    simp only [msgStep] at h
    split_ifs at h with hmax
    · rw [Option.some_inj] at h
      exact h ▸ hmax ▸ .registerMax
    · rw [Option.some_inj] at h
      exact h ▸ .register m hmax
  | sendNull =>
    simp only [msgStep, Option.some_inj] at h
    exact h ▸ .sendNull
  | send msg bytes =>
    simp only [msgStep] at h
    split_ifs at h with hdst
    rw [Option.some_inj, msgSend] at h
    split_ifs at h with hroom
    · exact h ▸ .accept msg bytes hroom hdst
    · exact h ▸ .refuse msg bytes hroom
  | releaseRefused i =>
    simp only [msgStep, Option.map_eq_some_iff] at h
    obtain ⟨e, he, rfl⟩ := h
    exact .releaseRefused i e he
  | receive =>
    simp only [msgStep] at h
    split at h
    · next hc =>
      simp only [msgReceive, Option.map_eq_some_iff] at h
      obtain ⟨⟨e, q⟩, hq, rfl⟩ := h
      exact .receive e q hc hq
    · simp at h
  | handle =>
    simp only [msgStep] at h
    split at h
    · next e hc =>
      rw [Option.some_inj] at h
      exact h ▸ .handle e hc
    · simp at h
  | handlerReturn =>
    simp only [msgStep] at h
    split at h
    · next e hc =>
      rw [Option.some_inj] at h
      exact h ▸ .handlerReturn e hc
    · simp at h
  | release =>
    simp only [msgStep] at h
    split at h
    · next e hc =>
      rw [Option.some_inj] at h
      exact h ▸ .release e hc
    · simp at h

/-- Calling the handler changes nothing but the history. -/
theorem msgModuleHandler_eq (s : MsgState) (e : Entry) :
    ∃ handlerCalls, msgModuleHandler s e = { s with handlerCalls := handlerCalls } := by
  rw [msgModuleHandler]
  split_ifs
  · exact ⟨_, rfl⟩
  · exact ⟨s.handlerCalls, rfl⟩

/-! ### Every destination is registered -/

theorem dstModule_prepare (ring : LogRing) (msg : CommonMsg) (bytes : List UInt8) :
    (msgPrepareForQueue ring msg bytes).1.dstModule = msg.dstModule := by
  rw [msgPrepareForQueue]
  split_ifs <;> rfl

theorem msgType_prepare (ring : LogRing) (msg : CommonMsg) (bytes : List UInt8) :
    (msgPrepareForQueue ring msg bytes).1.msgType = msg.msgType := by
  rw [msgPrepareForQueue]
  split_ifs <;> rfl

/-- What is in the queue after a push was pushed or was there. -/
theorem mem_items_push {build : Build} {q : MsgQueue Entry} {e x : Entry}
    {h : q.count < maxMsgQueueSize} (hx : x ∈ (msgQueuePush build.priority q e h).items) :
    x = e ∨ x ∈ q.items :=
  List.mem_cons.mp ((perm_items_push build.priority q e h).mem_iff.mp hx)

/-- The destinations of live messages are registered. -/
def Routed (s : MsgState) : Prop := ∀ e ∈ s.live, e.queued.dstModule ∈ s.routes

theorem live_of_current {s : MsgState} {p : Phase} {e : Entry} (h : s.current = some (p, e)) :
    s.live = e :: s.queue.items := by
  rw [MsgState.live, h]
  rfl

theorem live_of_idle {s : MsgState} (h : s.current = none) : s.live = s.queue.items := by
  rw [MsgState.live, h]
  rfl

/-- A live message was live before the step, or is sent by it. -/
theorem mem_live_msgStep {build : Build} {s t : MsgState} {a : MsgAction}
    (ht : MsgStep build s a t) {x : Entry} (hx : x ∈ t.live) :
    x ∈ s.live ∨ ∃ msg bytes, a = .send msg bytes ∧ msg.dstModule ∈ s.routes ∧
      x = acceptedEntry s msg bytes := by
  cases ht with
  | register m _ => exact .inl hx
  | registerMax => exact .inl hx
  | sendNull => exact .inl hx
  | accept msg bytes hroom hdst =>
    rw [MsgState.live, List.mem_append] at hx
    rcases hx with hx | hx
    · exact .inl (List.mem_append_left _ hx)
    · rcases mem_items_push hx with rfl | hx
      · exact .inr ⟨msg, bytes, rfl, hdst, rfl⟩
      · exact .inl (List.mem_append_right _ hx)
  | refuse => exact .inl hx
  | releaseRefused => exact .inl hx
  | receive e q hc hq =>
    have hx : x ∈ e :: q.items := hx
    -- the message fetched was the first in the queue
    rw [← items_pop hq, ← live_of_idle hc] at hx
    exact .inl hx
  | handle e hc =>
    obtain ⟨handlerCalls, hmod⟩ := msgModuleHandler_eq s e
    rw [hmod] at hx
    exact .inl ((live_of_current hc).symm ▸ hx)
  | handlerReturn e hc => exact .inl ((live_of_current hc).symm ▸ hx)
  | release e hc => exact .inl ((live_of_current hc).symm ▸ List.mem_cons_of_mem _ hx)

/-- Modules are only registered. -/
theorem routes_msgStep {build : Build} {s t : MsgState} {a : MsgAction}
    (ht : MsgStep build s a t) : s.routes ⊆ t.routes := by
  cases ht with
  | register m _ => exact List.subset_cons_self m s.routes
  | handle e hc =>
    obtain ⟨handlerCalls, hmod⟩ := msgModuleHandler_eq s e
    rw [hmod]
    exact List.Subset.refl _
  | _ => exact List.Subset.refl _

theorem Routed.step {build : Build} {s t : MsgState} {a : MsgAction} (h : Routed s)
    (ht : MsgStep build s a t) : Routed t := by
  intro x hx
  refine routes_msgStep ht ?_
  rcases mem_live_msgStep ht hx with hx | ⟨msg, bytes, -, hdst, rfl⟩
  · exact h x hx
  · exact (dstModule_prepare s.ring msg bytes) ▸ hdst

theorem routed {build : Build} {s : MsgState} (hs : (msgSystem build).Reachable s) : Routed s :=
  hs.invariant (fun e he => absurd he (by simp [MsgState.live, msgSystem, MsgState.init]))
    fun _ _ _ h _ ht => h.step (msgStep_cases ht)

/-! ### The default build is the bounded server -/

/-- The message system without its array, its callers and its ring. -/
def toServer (s : MsgState) : Server Entry maxMsgQueueSize :=
  ⟨s.queue.toFifo, s.current, s.accepted, s.handlerCalls, s.finished⟩

/-- **Refinement**: an accepted call is an arrival, the steps of the deliver thread are
those of the server, and all else leaves the server as it is. -/
theorem server_reachable {s : MsgState} (hs : (msgSystem .default).Reachable s) :
    (Server.system Entry maxMsgQueueSize).Reachable (toServer s) := by
  refine TransitionSystem.Via.map toServer ?_ ?_ hs
  · exact congrArg (fun q => (⟨q, none, [], [], []⟩ : Server Entry maxMsgQueueSize))
      (BoundedFifo.ext (items_init Entry.zero))
  · intro s a t hs _ ht
    cases msgStep_cases ht with
    | register m _ => exact .inl rfl
    | registerMax => exact .inl rfl
    | sendNull => exact .inl rfl
    | accept msg bytes hroom hdst =>
      refine .inr ⟨.arrive (acceptedEntry s msg bytes), trivial, ?_⟩
      have hpush := toFifo_push s.queue (acceptedEntry s msg bytes) hroom
      simp only [Server.system, Server.step, toServer, hpush, Option.map_some]
      rfl
    | refuse => exact .inl rfl
    | releaseRefused => exact .inl rfl
    | receive e q hc hq =>
      refine .inr ⟨.fetch, trivial, ?_⟩
      simp only [Server.system, Server.step, toServer, hc, toFifo_pop hq, Option.map_some]
    | handle e hc =>
      have hdst : e.queued.dstModule ∈ s.routes :=
        routed hs e ((live_of_current hc).symm ▸ List.mem_cons_self)
      refine .inr ⟨.serve, trivial, ?_⟩
      simp only [Server.system, Server.step, toServer, hc, msgModuleHandler, if_pos hdst]
    | handlerReturn e hc =>
      refine .inr ⟨.finish, trivial, ?_⟩
      simp only [Server.system, Server.step, toServer, hc]
    | release e hc =>
      refine .inr ⟨.leave, trivial, ?_⟩
      simp only [Server.system, Server.step, toServer, hc]

/-- What a step does to the live messages, up to their order, and to the calls that have yet to
release theirs. -/
theorem perm_live_msgStep {build : Build} {s t : MsgState} {a : MsgAction} : MsgStep build s a t →
    match a with
    | .send msg bytes =>
      if s.queue.count < maxMsgQueueSize then
        t.live.Perm (acceptedEntry s msg bytes :: s.live) ∧ t.refusing = s.refusing
      else t.live = s.live ∧ t.refusing = s.refusing ++ [⟨s.nextCall, msg, bytes, msg⟩]
    | .releaseRefused i => t.live = s.live ∧ t.refusing = s.refusing.eraseIdx i
    | .release => ∃ e, s.current = some (.leaving, e) ∧ s.live = e :: t.live ∧
        t.refusing = s.refusing
    | _ => t.live = s.live ∧ t.refusing = s.refusing := by
  intro h
  cases h with
  | register m _ => exact ⟨rfl, rfl⟩
  | registerMax => exact ⟨rfl, rfl⟩
  | sendNull => exact ⟨rfl, rfl⟩
  | accept msg bytes hroom hdst =>
    have hpush := perm_items_push build.priority s.queue (acceptedEntry s msg bytes) hroom
    simp only [if_pos hroom, MsgState.live, and_true]
    exact (hpush.append_left _).trans List.perm_middle
  | refuse msg bytes hfull =>
    simp only [if_neg hfull, MsgState.live, and_self]
  | releaseRefused i e hi => exact ⟨rfl, rfl⟩
  | receive e q hc hq =>
    refine ⟨?_, rfl⟩
    rw [live_of_idle hc, items_pop hq]
    rfl
  | handle e hc =>
    obtain ⟨handlerCalls, hmod⟩ := msgModuleHandler_eq s e
    rw [hmod]
    exact ⟨(live_of_current hc).symm, rfl⟩
  | handlerReturn e hc => exact ⟨(live_of_current hc).symm, rfl⟩
  | release e hc => exact ⟨e, hc, live_of_current hc, rfl⟩

/-- In the default build a new message is the last one. -/
theorem live_msgStep {s t : MsgState} {a : MsgAction} : MsgStep .default s a t →
    match a with
    | .send msg bytes =>
      if s.queue.count < maxMsgQueueSize then
        t.live = s.live ++ [acceptedEntry s msg bytes] ∧ t.refusing = s.refusing
      else t.live = s.live ∧ t.refusing = s.refusing ++ [⟨s.nextCall, msg, bytes, msg⟩]
    | .releaseRefused i => t.live = s.live ∧ t.refusing = s.refusing.eraseIdx i
    | .release => ∃ e, s.current = some (.leaving, e) ∧ s.live = e :: t.live ∧
        t.refusing = s.refusing
    | _ => t.live = s.live ∧ t.refusing = s.refusing := by
  intro h
  have hperm := perm_live_msgStep h
  cases h with
  | accept msg bytes hroom hdst =>
    have hpush := items_push_default s.queue (acceptedEntry s msg bytes) hroom
    simp only [if_pos hroom, MsgState.live, List.append_assoc, and_true]
    exact congrArg (s.current.toList.map Prod.snd ++ ·) hpush
  | refuse msg bytes hfull =>
    simp only [if_neg hfull] at hperm ⊢
    exact hperm
  | _ => exact hperm

/-- Calls are only made, not taken back. -/
theorem nextCall_le {build : Build} {s t : MsgState} {a : MsgAction} (h : MsgStep build s a t) :
    s.nextCall ≤ t.nextCall := by
  cases h with
  | accept => exact Nat.le_succ _
  | refuse => exact Nat.le_succ _
  | handle e hc =>
    obtain ⟨handlerCalls, hmod⟩ := msgModuleHandler_eq s e
    rw [hmod]
  | _ => exact le_rfl

theorem nextCall_send {build : Build} {s t : MsgState} {msg : CommonMsg} {bytes : List UInt8}
    (h : MsgStep build s (.send msg bytes) t) : t.nextCall = s.nextCall + 1 := by
  cases h <;> rfl

/-! ### Every call is in one place and is released once -/

/-- The numbers of calls. -/
def calls (es : List Entry) : List ℕ := es.map Entry.call

/-- Every call made so far is accepted, refused, or about to be refused. -/
def Numbering (s : MsgState) : Prop :=
  ∀ c, (calls s.refusing).count c + s.refused.count c + (calls s.accepted).count c =
    if c < s.nextCall then 1 else 0

/-- The release handler was called for the calls refused and for the messages the
deliver thread is done with. -/
def Releases (s : MsgState) : Prop :=
  ∀ c, s.releases.count c = s.refused.count c + (calls s.finished).count c

theorem count_calls_append (es : List Entry) (e : Entry) (c : ℕ) :
    (calls (es ++ [e])).count c = (calls es).count c + if e.call = c then 1 else 0 := by
  simp [calls, List.count_append, List.count_singleton]

theorem count_append_one (cs : List ℕ) (d c : ℕ) :
    (cs ++ [d]).count c = cs.count c + if d = c then 1 else 0 := by
  simp [List.count_append, List.count_singleton]

theorem count_calls_eraseIdx {es : List Entry} {i : ℕ} {e : Entry} (h : es[i]? = some e) (c : ℕ) :
    (calls es).count c = (calls (es.eraseIdx i)).count c + if e.call = c then 1 else 0 := by
  obtain ⟨hi, rfl⟩ := List.getElem?_eq_some_iff.mp h
  have hperm := (List.getElem_cons_eraseIdx_perm hi).map Entry.call
  rw [calls, ← hperm.count_eq, List.map_cons, List.count_cons]
  simp [calls]

theorem Numbering.step {build : Build} {s t : MsgState} {a : MsgAction} (h : Numbering s)
    (ht : MsgStep build s a t) : Numbering t := by
  have hnext : ∀ c, (if c < s.nextCall + 1 then 1 else 0) =
      (if c < s.nextCall then 1 else 0) + if s.nextCall = c then 1 else 0 := by
    intro c
    split_ifs <;> omega
  cases ht with
  | register m _ => exact h
  | registerMax => exact h
  | sendNull => exact h
  | accept msg bytes hroom hdst =>
    intro c
    have hc := h c
    have hcall : (acceptedEntry s msg bytes).call = s.nextCall := rfl
    rw [count_calls_append, hnext, ← hc, hcall]
    dsimp only
    omega
  | refuse msg bytes hfull =>
    intro c
    have hc := h c
    rw [count_calls_append, hnext, ← hc]
    dsimp only
    omega
  | releaseRefused i e hi =>
    intro c
    have hc := h c
    rw [count_calls_eraseIdx hi] at hc
    rw [count_append_one, ← hc]
    dsimp only
    omega
  | receive => exact h
  | handle e hc =>
    obtain ⟨handlerCalls, hmod⟩ := msgModuleHandler_eq s e
    rw [hmod]
    exact h
  | handlerReturn => exact h
  | release => exact h

theorem Releases.step {build : Build} {s t : MsgState} {a : MsgAction} (h : Releases s)
    (ht : MsgStep build s a t) : Releases t := by
  cases ht with
  | register m _ => exact h
  | registerMax => exact h
  | sendNull => exact h
  | accept => exact h
  | refuse => exact h
  | releaseRefused i e hi =>
    intro c
    rw [count_append_one, count_append_one, h c]
    dsimp only
    omega
  | receive => exact h
  | handle e hc =>
    obtain ⟨handlerCalls, hmod⟩ := msgModuleHandler_eq s e
    rw [hmod]
    exact h
  | handlerReturn => exact h
  | release e hc =>
    intro c
    rw [count_append_one, count_calls_append, h c]
    dsimp only
    omega

/-- What becomes of a call of `msg_send`: it was refused and its message released; it
found the queue full and its release is next; it was accepted, and its message
was handled and released; it was accepted, and its message is still queued or
held by the deliver thread. -/
def CallOnce (s : MsgState) (c : ℕ) : Prop :=
  (c ∈ s.refused ∧ s.releases.count c = 1) ∨
  (c ∈ calls s.refusing ∧ s.releases.count c = 0) ∨
  (c ∈ calls s.finished ∧ s.releases.count c = 1) ∨
  (c ∈ calls s.live ∧ s.releases.count c = 0)

/-- The law of the message queue. -/
structure QueueLaw (s : MsgState) : Prop where
  count_le : s.queue.count ≤ maxMsgQueueSize
  /-- the handlers were called for the accepted messages, in order, up to those
  fetched or still in the queue -/
  fifo : s.accepted = s.handlerCalls ++ ((toServer s).fetchedItem ++ s.queue.items)
  /-- of these handlers all but the one running have returned, and its message
  released -/
  handled : s.handlerCalls = s.finished ++ (toServer s).inService
  distinct : (calls s.accepted).Nodup
  once : ∀ c < s.nextCall, CallOnce s c

theorem numbering_of_reachable {s : MsgState} (hs : (msgSystem .default).Reachable s) :
    Numbering s :=
  hs.invariant (fun _ => rfl) fun _ _ _ h _ ht => h.step (msgStep_cases ht)

theorem releases_of_reachable {s : MsgState} (hs : (msgSystem .default).Reachable s) :
    Releases s :=
  hs.invariant (fun _ => rfl) fun _ _ _ h _ ht => h.step (msgStep_cases ht)

/-- An accepted message is finished, or queued or being handled. -/
theorem count_calls_accepted {s : MsgState} (hs : (msgSystem .default).Reachable s) (c : ℕ) :
    (calls s.accepted).count c = (calls s.finished).count c + (calls s.live).count c := by
  have hlaw : (toServer s).Law := Server.law (server_reachable hs)
  have hplace : s.accepted = s.finished ++ s.live := hlaw.arrived_eq
  rw [hplace, calls, List.map_append, List.count_append]
  rfl

/-- **The default queue is a bounded FIFO with exactly one release for each call**, in
every state the deliver thread and callers that send to registered modules can reach. -/
theorem queueLaw {s : MsgState} (hs : (msgSystem .default).Reachable s) : QueueLaw s := by
  have hlaw : (toServer s).Law := Server.law (server_reachable hs)
  have hnum := numbering_of_reachable hs
  have hrel := releases_of_reachable hs
  refine ⟨s.queue.count_le, hlaw.order, hlaw.served_eq, ?_, ?_⟩
  · -- a call that was accepted was made once
    refine List.nodup_iff_count_le_one.mpr ?_
    intro c
    have hc := hnum c
    split_ifs at hc <;> omega
  · intro c hlt
    have hc := hnum c
    have hr := hrel c
    have hsplit := count_calls_accepted hs c
    rw [if_pos hlt] at hc
    -- exactly one of the four counts is 1
    by_cases hrefused : c ∈ s.refused
    · have hpos := List.count_pos_iff.mpr hrefused
      exact .inl ⟨hrefused, by omega⟩
    by_cases hrefusing : c ∈ calls s.refusing
    · have hpos := List.count_pos_iff.mpr hrefusing
      exact .inr (.inl ⟨hrefusing, by omega⟩)
    rw [List.count_eq_zero.mpr hrefused, List.count_eq_zero.mpr hrefusing] at hc
    rw [List.count_eq_zero.mpr hrefused] at hr
    by_cases hfinished : c ∈ calls s.finished
    · have hpos := List.count_pos_iff.mpr hfinished
      exact .inr (.inr (.inl ⟨hfinished, by omega⟩))
    · have hzero := List.count_eq_zero.mpr hfinished
      have hlive : c ∈ calls s.live := List.count_pos_iff.mp (by omega)
      exact .inr (.inr (.inr ⟨hlive, by omega⟩))

/-- A message queued or being handled is not released. -/
theorem not_released_of_live {s : MsgState} (hs : (msgSystem .default).Reachable s) {e : Entry}
    (he : e ∈ s.live) : e.call ∉ s.releases := by
  have hc := numbering_of_reachable hs e.call
  have hr := releases_of_reachable hs e.call
  have hlive : 0 < (calls s.live).count e.call :=
    List.count_pos_iff.mpr (List.mem_map_of_mem he)
  have hsplit := count_calls_accepted hs e.call
  -- the call is accepted, so it is neither refused nor finished
  rw [← List.count_eq_zero, hr]
  split_ifs at hc <;> omega

/-- A picture is sent, handled and released while an alarm waits behind it. -/
def twoMessages : List MsgAction :=
  [.send ⟨.v4l2, .udp, 24, .image, .low, .address 1⟩ [],
    .send ⟨.alarm, .storage, 4, .alarm, .low, .address 2⟩ [],
    .receive, .handle, .handlerReturn, .release]

theorem queueLaw_twoMessages : ∃ s, (msgSystem .default).run .init twoMessages = some s ∧
    calls s.finished = [0] ∧ calls s.live = [1] ∧ QueueLaw s := by
  refine ⟨_, rfl, rfl, rfl, ?_⟩
  have hrun : (msgSystem .default).run MsgState.init twoMessages = some _ := rfl
  exact queueLaw (.of_run hrun)

end Sentry
