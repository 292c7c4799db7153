/-
Queued log messages keep their content (`msg_prepare_for_queue`).

A log message is copied into the next of 64 slots, the queue holds 32 messages and
the deliver thread one more.  The live log messages always lie in the slots before
`log_idx`, in the order in which they were accepted, so that the slot written next
is free.

* `logs` — the live log messages;
* `Window` — their slots are the last ones before `log_idx`, and hold what the
  senders passed;
* `filter_push_of_log` — a push puts a log message behind the live ones, in either build;
* `log_content_kept` — the content of every live log message is what was sent.
-/
import SentrySystem.MsgDeliver

namespace Sentry

open MsgQueue

/-- A log message with data. -/
def isLog (e : Entry) : Bool := e.arg.msgType = .log ∧ e.arg.data ≠ .null

/-- The live log messages, in the order of the queue. -/
def logs (s : MsgState) : List Entry := s.live.filter isLog

/-- The number of messages that can be live at once. -/
theorem length_logs_le (s : MsgState) : (logs s).length ≤ s.queue.count + 1 := by
  have hlive : s.live.length ≤ s.queue.count + 1 := by
    rw [MsgState.live, List.length_append, length_items]
    rcases s.current with _ | c <;> simp
    omega
  exact le_trans (List.length_filter_le _ _) hlive

/-- The bytes a sender passed, as they are kept. -/
def sentContent (e : Entry) : List UInt8 := logSlotContent e.bytes (copyLen e.arg).toNat

/-- Senders give every log message the priority `p`; without priorities there is nothing
to keep to. -/
def OneLogPriority (build : Build) (p : MsgPriority) (_ : MsgState) : MsgAction → Prop
  | .send msg _ => build = .msgEnablePriority → msg.msgType = .log → msg.priority = p
  | _ => True

instance (build : Build) (p : MsgPriority) (s : MsgState) :
    DecidablePred (OneLogPriority build p s)
  | .send msg _ => inferInstanceAs
      (Decidable (build = .msgEnablePriority → msg.msgType = .log → msg.priority = p))
  | .register _ => isTrue trivial
  | .sendNull => isTrue trivial
  | .releaseRefused _ => isTrue trivial
  | .receive => isTrue trivial
  | .handle => isTrue trivial
  | .handlerReturn => isTrue trivial
  | .release => isTrue trivial

/-- The live log messages occupy the slots before `log_idx`, the newest last, and their
slots hold what was sent. -/
structure Window (build : Build) (p : MsgPriority) (s : MsgState) : Prop where
  size_eq : s.ring.logMsgBuffer.length = maxLogMsgSize
  logIdx_lt : s.ring.logIdx < maxLogMsgSize
  slot : ∀ (j : ℕ) (e : Entry), (logs s)[j]? = some e → e.queued.data =
    .logSlot ((s.ring.logIdx + (maxLogMsgSize - (logs s).length) + j) % maxLogMsgSize)
  content : ∀ e ∈ logs s, ∀ i, e.queued.data = .logSlot i →
    s.ring.logMsgBuffer[i]? = some (sentContent e)
  priority_eq : build = .msgEnablePriority → ∀ e ∈ logs s, e.queued.priority = p

/-! ### The push -/

theorem filter_rtakeWhile_eq_nil {α : Type} {P outranks : α → Bool} {l : List α}
    (h : ∀ x ∈ l, P x = true → outranks x = false) : (l.rtakeWhile outranks).filter P = [] := by
  rw [List.filter_eq_nil_iff]
  intro x hx hP
  have hlow := List.mem_rtakeWhile_imp hx
  rw [h x ((List.rtakeWhile_suffix _ _).subset hx) hP] at hlow
  simp at hlow

theorem filter_rdropWhile_append {α : Type} (P outranks : α → Bool) (l : List α) :
    (l.rdropWhile outranks).filter P ++ (l.rtakeWhile outranks).filter P = l.filter P := by
  rw [← List.filter_append, List.rdropWhile_append_rtakeWhile]

/-- A pushed message that is no log leaves the logs of the queue alone. -/
theorem filter_push_of_not_log (build : Build) {q : MsgQueue Entry} {e : Entry}
    (h : q.count < maxMsgQueueSize) (he : isLog e = false) :
    (msgQueuePush build.priority q e h).items.filter isLog = q.items.filter isLog := by
  rcases build with _ | _
  · rw [show Build.default.priority = none from rfl, items_push_default, List.filter_append]
    simp [he]
  · rw [show Build.msgEnablePriority.priority = some fun e => e.queued.priority.code from rfl,
      items_push_priority, List.filter_append, List.filter_cons_of_neg (by simp [he]),
      filter_rdropWhile_append]

/-- A pushed log goes behind the logs of the queue, as none of them is of lower
priority. -/
theorem filter_push_of_log (build : Build) {q : MsgQueue Entry} {e : Entry}
    (h : q.count < maxMsgQueueSize) (he : isLog e = true)
    (hp : build = .msgEnablePriority →
      ∀ x ∈ q.items, isLog x = true → x.queued.priority = e.queued.priority) :
    (msgQueuePush build.priority q e h).items.filter isLog = q.items.filter isLog ++ [e] := by
  rcases build with _ | _
  · rw [show Build.default.priority = none from rfl, items_push_default, List.filter_append]
    simp [he]
  · rw [show Build.msgEnablePriority.priority = some fun e => e.queued.priority.code from rfl,
      items_push_priority, List.filter_append, List.filter_cons_of_pos he]
    -- the messages it overtakes are no logs
    have hnone : (q.items.rtakeWhile fun x =>
        decide (x.queued.priority.code < e.queued.priority.code)).filter isLog = [] := by
      refine filter_rtakeWhile_eq_nil ?_
      intro x hx hlog
      rw [hp rfl x hx hlog]
      simp
    have hall := filter_rdropWhile_append isLog
      (fun x => decide (x.queued.priority.code < e.queued.priority.code)) q.items
    rw [hnone, List.append_nil] at hall
    rw [hnone, hall]

/-! ### The window moves with the queue -/

/-- A log message taken into the queue. -/
theorem prepare_of_log (ring : LogRing) {msg : CommonMsg} (bytes : List UInt8)
    (h : msg.msgType = .log ∧ msg.data ≠ .null) : msgPrepareForQueue ring msg bytes =
      ({ msg with data := .logSlot ring.logIdx, dataLen := copyLen msg },
        { logMsgBuffer := ring.logMsgBuffer.set ring.logIdx
            (logSlotContent bytes (copyLen msg).toNat)
          logIdx := (ring.logIdx + 1) % maxLogMsgSize }) :=
  if_pos h

theorem prepare_of_not_log (ring : LogRing) {msg : CommonMsg} (bytes : List UInt8)
    (h : ¬ (msg.msgType = .log ∧ msg.data ≠ .null)) :
    msgPrepareForQueue ring msg bytes = (msg, ring) :=
  if_neg h

/-- Nothing but the order and the liveness of the log messages matters. -/
theorem Window.congr {build : Build} {p : MsgPriority} {s t : MsgState}
    (h : Window build p s) (hring : t.ring = s.ring) (hlogs : logs t = logs s) :
    Window build p t := by
  obtain ⟨hsize, hidx, hslot, hcontent, hprio⟩ := h
  exact ⟨hring ▸ hsize, hring ▸ hidx, hring ▸ hlogs ▸ hslot, hring ▸ hlogs ▸ hcontent,
    hlogs ▸ hprio⟩

/-- The oldest live message is released. -/
theorem Window.drop {build : Build} {p : MsgPriority} {s t : MsgState} {e : Entry}
    (h : Window build p s) (hring : t.ring = s.ring) (hlogs : logs s = e :: logs t)
    (hfew : (logs s).length ≤ maxLogMsgSize) : Window build p t := by
  obtain ⟨hsize, hidx, hslot, hcontent, hprio⟩ := h
  have hlen : (logs s).length = (logs t).length + 1 := by rw [hlogs, List.length_cons]
  -- the window starts one slot later
  refine ⟨hring ▸ hsize, hring ▸ hidx, ?_, ?_, ?_⟩
  · intro j x hx
    have hx' : (logs s)[j + 1]? = some x := by rw [hlogs, List.getElem?_cons_succ, hx]
    rw [hslot (j + 1) x hx', hring, hlen]
    congr 2
    omega
  · intro x hx
    rw [hring]
    exact hcontent x (hlogs ▸ List.mem_cons_of_mem _ hx)
  · intro hb x hx
    exact hprio hb x (hlogs ▸ List.mem_cons_of_mem _ hx)

/-- A log message is copied into the slot at `log_idx`: no live one occupies it. -/
theorem Window.push {build : Build} {p : MsgPriority} {s t : MsgState} {e : Entry}
    (h : Window build p s) (hfew : (logs s).length < maxLogMsgSize)
    (hbuf : t.ring.logMsgBuffer = s.ring.logMsgBuffer.set s.ring.logIdx (sentContent e))
    (hidx' : t.ring.logIdx = (s.ring.logIdx + 1) % maxLogMsgSize)
    (hlogs : logs t = logs s ++ [e]) (hdata : e.queued.data = .logSlot s.ring.logIdx)
    (hp : build = .msgEnablePriority → e.queued.priority = p) : Window build p t := by
  obtain ⟨hsize, hidx, hslot, hcontent, hprio⟩ := h
  have hlen : (logs t).length = (logs s).length + 1 := by rw [hlogs, List.length_append]; rfl
  simp only [maxLogMsgSize] at hfew hidx' hsize hidx hslot
  refine ⟨by rw [hbuf, List.length_set, hsize]; rfl, by rw [hidx']; exact Nat.mod_lt _ (by decide),
    ?_, ?_, ?_⟩
  · intro j x hx
    rw [hlogs] at hx
    rw [hidx', hlen, maxLogMsgSize]
    by_cases hj : j < (logs s).length
    · -- the window is longer by one and ends one slot further, so it starts where it did
      rw [List.getElem?_append_left hj] at hx
      rw [hslot j x hx]
      congr 1
      omega
    · -- the new message is in the last slot of the window
      rw [List.getElem?_append_right (by omega)] at hx
      have hj' : j = (logs s).length := by
        have := (List.getElem?_eq_some_iff.mp hx).1
        simp at this
        omega
      subst hj'
      simp only [Nat.sub_self, List.getElem?_cons_zero, Option.some_inj] at hx
      rw [← hx, hdata]
      congr 1
      omega
  · intro x hx i hi
    rw [hlogs, List.mem_append, List.mem_singleton] at hx
    rw [hbuf]
    rcases hx with hx | rfl
    · -- the slot of a live message is not the one written
      obtain ⟨j, hj⟩ := List.getElem?_of_mem hx
      have hj' := (List.getElem?_eq_some_iff.mp hj).1
      have hne : s.ring.logIdx ≠ i := by
        rw [hslot j x hj, DataPtr.logSlot.injEq] at hi
        omega
      rw [List.getElem?_set_ne hne]
      exact hcontent x hx i hi
    · rw [hdata, DataPtr.logSlot.injEq] at hi
      subst hi
      exact List.getElem?_set_self (by omega)
  · intro hb x hx
    rw [hlogs, List.mem_append, List.mem_singleton] at hx
    rcases hx with hx | rfl
    · exact hprio hb x hx
    · exact hp hb

theorem Window.step {build : Build} {p : MsgPriority} {s t : MsgState} {a : MsgAction}
    (h : Window build p s) (hgood : OneLogPriority build p s a) (ht : MsgStep build s a t) :
    Window build p t := by
  have hfew : (logs s).length ≤ 33 := le_trans (length_logs_le s) (Nat.succ_le_succ s.queue.count_le)
  cases ht with
  | register m _ => exact h.congr rfl rfl
  | registerMax => exact h
  | sendNull => exact h
  | accept msg bytes hroom hdst =>
    -- at most 33 of the 64 slots are in use
    have hcount : (logs s).length < maxLogMsgSize := by
      rw [maxLogMsgSize]
      omega
    by_cases hlog : msg.msgType = .log ∧ msg.data ≠ .null
    · have hprep := prepare_of_log s.ring bytes hlog
      have hp : build = .msgEnablePriority →
          (acceptedEntry s msg bytes).queued.priority = p := by
        intro hb
        rw [acceptedEntry, hprep]
        exact hgood hb hlog.1
      refine h.push (e := acceptedEntry s msg bytes) hcount ?_ ?_ ?_ ?_ hp
      · dsimp only
        rw [hprep]
        rfl
      · dsimp only
        rw [hprep]
      · have hqueued : build = .msgEnablePriority → ∀ x ∈ s.queue.items, isLog x = true →
            x.queued.priority = (acceptedEntry s msg bytes).queued.priority := by
          intro hb x hx hlx
          rw [hp hb]
          exact h.priority_eq hb x (List.mem_filter.mpr ⟨List.mem_append_right _ hx, hlx⟩)
        have hislog : isLog (acceptedEntry s msg bytes) = true := decide_eq_true hlog
        have hpush := filter_push_of_log build hroom hislog hqueued
        simp only [logs, MsgState.live, List.filter_append, hpush, List.append_assoc]
      · rw [acceptedEntry, hprep]
    · have hprep := prepare_of_not_log s.ring bytes hlog
      refine h.congr ?_ ?_
      · dsimp only
        rw [hprep]
      · have hislog : isLog (acceptedEntry s msg bytes) = false := decide_eq_false hlog
        have hpush := filter_push_of_not_log build hroom hislog
        simp only [logs, MsgState.live, List.filter_append, hpush]
  | refuse => exact h.congr rfl rfl
  | releaseRefused => exact h.congr rfl rfl
  | receive e q hc hq =>
    refine h.congr rfl ?_
    rw [logs, logs, live_of_idle hc, items_pop hq]
    rfl
  | handle e hc =>
    obtain ⟨handlerCalls, hmod⟩ := msgModuleHandler_eq s e
    rw [hmod]
    refine h.congr rfl ?_
    rw [logs, logs, live_of_current hc]
    rfl
  | handlerReturn e hc =>
    refine h.congr rfl ?_
    rw [logs, logs, live_of_current hc]
    rfl
  | release e hc =>
    have hlive : s.live = e :: s.queue.items := live_of_current hc
    by_cases hlog : isLog e = true
    · refine h.drop (e := e) rfl ?_ (by rw [maxLogMsgSize]; omega)
      rw [logs, hlive, List.filter_cons_of_pos hlog]
      rfl
    · refine h.congr rfl ?_
      rw [logs, logs, hlive, List.filter_cons_of_neg hlog]
      rfl

theorem window_init (build : Build) (p : MsgPriority) : Window build p MsgState.init where
  size_eq := rfl
  logIdx_lt := by decide
  slot := fun j e h => absurd h (by simp [logs, MsgState.live, MsgState.init])
  content := fun e h => absurd h (by simp [logs, MsgState.live, MsgState.init])
  priority_eq := fun _ e h => absurd h (by simp [logs, MsgState.live, MsgState.init])

/-- The window, along every run that keeps to one priority of log messages. -/
theorem window {build : Build} {p : MsgPriority} {s : MsgState}
    (hs : (msgSystem build).Via (OneLogPriority build p) s) : Window build p s :=
  hs.invariant (window_init build p) fun _ _ _ h hg ht => h.step hg (msgStep_cases ht)

/-! ### The content -/

theorem copyLen_toNat (msg : CommonMsg) :
    (copyLen msg).toNat = min msg.dataLen.toNat sizeofLogMsg := by
  have hsize : (UInt32.ofNat sizeofLogMsg).toNat = sizeofLogMsg := rfl
  rw [copyLen]
  split_ifs with h <;> rw [UInt32.lt_iff_toNat_lt, hsize] at h
  · rw [hsize, min_eq_right h.le]
  · rw [min_eq_left (by omega)]

theorem logSlotContent_eq (bytes : List UInt8) (n : ℕ) :
    logSlotContent bytes n =
      bytes.take n ++ List.replicate (sizeofLogMsg - (bytes.take n).length) 0 := by
  rw [logSlotContent, writeAt, List.take_zero, List.nil_append, Nat.zero_add,
    List.drop_replicate]

/-- **Queued log messages keep their content**: as long as a log message with data is
queued or held by the deliver thread, its handler included, its data pointer is a
slot that holds the first `min data_len 88` bytes its sender passed, then zeros. -/
theorem log_content_kept {build : Build} {p : MsgPriority} {s : MsgState}
    (hs : (msgSystem build).Via (OneLogPriority build p) s) :
    ∀ e ∈ s.live, e.arg.msgType = .log → e.arg.data ≠ .null →
      ∃ i, e.queued.data = .logSlot i ∧
        let sent := e.bytes.take (min e.arg.dataLen.toNat sizeofLogMsg)
        s.ring.logMsgBuffer[i]? =
          some (sent ++ List.replicate (sizeofLogMsg - sent.length) 0) := by
  intro e he hlog hdata
  have hwin := window hs
  have hmem : e ∈ logs s := List.mem_filter.mpr ⟨he, decide_eq_true ⟨hlog, hdata⟩⟩
  obtain ⟨j, hj⟩ := List.getElem?_of_mem hmem
  refine ⟨_, hwin.slot j e hj, ?_⟩
  rw [hwin.content e hmem _ (hwin.slot j e hj), sentContent, copyLen_toNat,
    logSlotContent_eq]

/-- A log message of three bytes, being handled behind nothing and before another. -/
def twoLogs : List MsgAction :=
  [.send ⟨.alarm, .logger, 3, .log, .normal, .address 1⟩ [7, 8, 9],
    .send ⟨.storage, .logger, 2, .log, .normal, .address 2⟩ [5, 6], .receive, .handle]

theorem log_content_kept_twoLogs : ∃ s,
    (msgSystem .msgEnablePriority).run .init twoLogs = some s ∧ s.live.length = 2 ∧
    ∀ e ∈ s.live, e.arg.msgType = .log → e.arg.data ≠ .null →
      ∃ i, e.queued.data = .logSlot i ∧
        let sent := e.bytes.take (min e.arg.dataLen.toNat sizeofLogMsg)
        s.ring.logMsgBuffer[i]? =
          some (sent ++ List.replicate (sizeofLogMsg - sent.length) 0) := by
  refine ⟨_, rfl, rfl, ?_⟩
  have hrun : (msgSystem .msgEnablePriority).runVia
      (OneLogPriority .msgEnablePriority .normal) MsgState.init twoLogs = some _ := rfl
  exact log_content_kept (.of_run hrun)

end Sentry
