/-
The alarm statuses on their way to the storage (`src/alarm/alarm.cpp`,
`src/alarm/image_process.cpp`, `src/storage/storage_video.cpp`).

`process_image_thread` keeps what `Move_Detect` returns in its one local `alarm_data` and
dispatches the address of it.  Only log messages are copied into the queue, so
`storage_msg_handler` reads `alarm_data` as it is when the deliver thread calls it.

* `processImage`, `storageAlarmHandler` — the functions;
* `alarmSystem` — the thread, the storage and the message queue, in both builds;
* `AlarmStep` — everything one step can do;
* `pending_eq` — an ALARM message is queued for each status dispatched and not yet applied;
* `statusesUnchanged` — the statuses arrive unchanged if none is overwritten by another one
  while messages wait.
-/
import SentrySystem.MsgDeliver
import SentrySystem.StorageBlocks

namespace Sentry

open MsgQueue

/-! ### The code -/

/-- `Alarm_Level`, the status of an `Alarm_Data`. -/
inductive AlarmLevel
  | safe
  | moved
  deriving DecidableEq, Repr

/-- The four bytes of an `Alarm_Data`. -/
def AlarmLevel.bytes : AlarmLevel → List UInt8
  | safe => [0, 0, 0, 0]
  | moved => [1, 0, 0, 0]

/-- The address of `alarm_data`. -/
def alarmDataAddr : ℕ := 1

/-- The address of `process_data.log_msg`. -/
def processLogAddr : ℕ := 2

/-- The message dispatched to the storage; its priority counts in the
`MSG_ENABLE_PRIORITY` build only. -/
def alarmMsg : CommonMsg := ⟨.alarm, .storage, 4, .alarm, .high, .address alarmDataAddr⟩

/-- The message dispatched to the logger. -/
def statusLogMsg : CommonMsg :=
  ⟨.alarm, .logger, UInt32.ofNat sizeofLogMsg, .log, .normal, .address processLogAddr⟩

/-- Where `process_image_thread` is: in its wait; in front of `imdecode`; behind
`Move_Detect`; in front of the dispatch to the logger; in front of that to the storage. -/
inductive ImagePc
  | waiting
  | decoding
  | detected
  | logging
  | alarming
  deriving DecidableEq, Repr

/-- The state: the message system, the storage, the thread with `is_updated`, its local
`alarm_data` and the static of `alarm_data_diff`; and the history: the statuses returned at
the accepted dispatches, and those applied by `storage_msg_handler`. -/
structure AlarmState where
  msgs : MsgState
  storage : StorageState
  pc : ImagePc
  isUpdated : Bool
  alarmData : AlarmLevel
  diffData : AlarmLevel
  returned : List AlarmLevel
  applied : List AlarmLevel

/-- The state at the start; `alarm_data` is uninitialised. -/
def AlarmState.init (alarmData : AlarmLevel) : AlarmState where
  msgs := .init
  storage := .init
  pc := .waiting
  isUpdated := false
  alarmData := alarmData
  diffData := .safe
  returned := []
  applied := []

/-- The choices in a step of `process_image_thread`: the image cannot be decoded;
`Move_Detect` returns a status; the bytes of the log message. -/
inductive ImageChoice
  | take
  | decodeFailed
  | moveDetect (status : AlarmLevel)
  | alarmDataDiff
  | dispatchLog (bytes : List UInt8)
  | dispatchAlarm
  deriving DecidableEq

/-- `alarm_data_diff` and the test of what it returns. -/
def alarmDataDiff (s : AlarmState) : AlarmState :=
  if s.diffData ≠ s.alarmData then { s with diffData := s.alarmData, pc := .logging }
  else { s with pc := .alarming }

/-- The dispatch of `alarm_data`; its status is returned at an accepted dispatch if there is
room in the queue. -/
def dispatchAlarm (build : Build) (s : AlarmState) : Option AlarmState :=
  (msgStep build s.msgs (.send alarmMsg s.alarmData.bytes)).map fun m =>
    { s with
      msgs := m
      pc := .waiting
      returned :=
        if s.msgs.queue.count < maxMsgQueueSize then s.returned ++ [s.alarmData]
        else s.returned }

/-- A step of `process_image_thread`. -/
def processImage (build : Build) (s : AlarmState) (choice : ImageChoice) : Option AlarmState :=
  match s.pc, choice with
  | .waiting, .take =>
    if s.isUpdated then some { s with isUpdated := false, pc := .decoding } else none
  | .decoding, .decodeFailed => some { s with pc := .waiting }
  | .decoding, .moveDetect status => some { s with alarmData := status, pc := .detected }
  | .detected, .alarmDataDiff => some (alarmDataDiff s)
  | .logging, .dispatchLog bytes =>
    (msgStep build s.msgs (.send statusLogMsg bytes)).map fun m =>
      { s with msgs := m, pc := .alarming }
  | .alarming, .dispatchAlarm => dispatchAlarm build s
  | _, _ => none

/-- `alarm_data->status`, at the pointer of an ALARM message. -/
def statusAt (s : AlarmState) (data : DataPtr) : Option AlarmLevel :=
  if data = .address alarmDataAddr then some s.alarmData else none

/-- The branch `MSG_TYPE_ALARM` of `storage_msg_handler`. -/
def storageAlarmHandler (s : AlarmState) (status : AlarmLevel) : Option AlarmState :=
  (storageStep s.storage (.alarm (decide (status = .moved)))).map fun st =>
    { s with storage := st, applied := s.applied ++ [status] }

/-- What the handler of a message does to the two modules, `img` being the image an IMAGE
message points to. -/
def alarmHandlers (s : AlarmState) (e : Entry) (img : Frame) : Option AlarmState :=
  match e.queued.dstModule, e.queued.msgType with
  | .storage, .alarm => (statusAt s e.queued.data).bind (storageAlarmHandler s)
  | .storage, .image => (storageStep s.storage (.image img)).map fun st => { s with storage := st }
  | .alarm, .image => some { s with isUpdated := true }
  | _, _ => some s

/-- Steps of the message system that are no send of an ALARM message, which only
`process_image_thread` dispatches, and no return of a handler. -/
def MsgAction.isOther : MsgAction → Bool
  | send msg _ => msg.msgType ≠ .alarm
  | handlerReturn => false
  | _ => true

/-- What can happen: `process_image_thread` makes a step, a step of the message system, a
handler returns, `storage_video_thread` makes a step. -/
inductive AlarmAction
  | image (choice : ImageChoice)
  | msg (a : MsgAction)
  | handlerReturn (img : Frame)
  | storageThread (ok : Bool)

/-- One step. -/
def alarmStep (build : Build) (s : AlarmState) : AlarmAction → Option AlarmState
  | .image choice => processImage build s choice
  | .msg a =>
    if a.isOther then (msgStep build s.msgs a).map fun m => { s with msgs := m } else none
  | .handlerReturn img =>
    match s.msgs.current with
    | some (_, e) =>
      (msgStep build s.msgs .handlerReturn).bind fun m =>
        alarmHandlers { s with msgs := m } e img
    | none => none
  | .storageThread ok =>
    (storageStep s.storage (.thread ok)).map fun st => { s with storage := st }

/-- The thread, the storage and the message queue. -/
def alarmSystem (build : Build) (alarmData : AlarmLevel) :
    TransitionSystem AlarmState AlarmAction :=
  ⟨.init alarmData, alarmStep build⟩

/-! ### What a step can do -/

/-- The messages whose handler has yet to do its work: the one the deliver thread holds, and
those in the queue. -/
def MsgState.toServe (s : MsgState) : List Entry :=
  match s.current with
  | some (.leaving, _) => s.queue.items
  | some (_, e) => e :: s.queue.items
  | none => s.queue.items

/-- An ALARM message. -/
def Entry.isAlarm (e : Entry) : Bool := e.queued.msgType = .alarm

/-- The number of ALARM messages that wait. -/
def MsgState.pending (s : MsgState) : ℕ := s.toServe.countP Entry.isAlarm

theorem pending_accept {build : Build} {s t : MsgState} {msg : CommonMsg} {bytes : List UInt8}
    (h : MsgStep build s (.send msg bytes) t) : t.pending = s.pending +
      if msg.msgType = .alarm ∧ s.queue.count < maxMsgQueueSize then 1 else 0 := by
  cases h with
  | accept msg bytes hroom hdst =>
    have hperm := perm_items_push build.priority s.queue (acceptedEntry s msg bytes) hroom
    have hitems := hperm.countP_eq Entry.isAlarm
    have htype : (acceptedEntry s msg bytes).isAlarm = decide (msg.msgType = .alarm) :=
      congrArg (fun t => decide (t = MsgType.alarm)) (msgType_prepare s.ring msg bytes)
    rw [List.countP_cons, htype] at hitems
    simp only [decide_eq_true_eq] at hitems
    simp only [hroom, and_true]
    rw [MsgState.pending, MsgState.pending, MsgState.toServe, MsgState.toServe]
    dsimp only
    split
    · exact hitems
    · rw [List.countP_cons, List.countP_cons, hitems]
      omega
    · exact hitems
  | refuse msg bytes hfull =>
    simp only [hfull, and_false, if_false, Nat.add_zero]
    rfl

theorem toServe_handlerReturn {build : Build} {s t : MsgState}
    (h : MsgStep build s .handlerReturn t) :
    ∃ e, s.current = some (.serving, e) ∧ s.toServe = e :: t.toServe := by
  cases h with
  | handlerReturn e hc =>
    refine ⟨e, hc, ?_⟩
    rw [MsgState.toServe, hc]
    rfl

theorem pending_other {build : Build} {s t : MsgState} {a : MsgAction}
    (h : MsgStep build s a t) (hother : a.isOther = true) : t.pending = s.pending := by
  cases h with
  | accept msg bytes hroom hdst =>
    have haccept : MsgStep build s (.send msg bytes) _ := .accept msg bytes hroom hdst
    have hsend := pending_accept haccept
    simp only [MsgAction.isOther, ne_eq, decide_not, Bool.not_eq_true',
      decide_eq_false_iff_not] at hother
    simpa [hother] using hsend
  | receive e q hc hq =>
    rw [MsgState.pending, MsgState.pending, MsgState.toServe, MsgState.toServe, hc]
    dsimp only
    rw [items_pop hq]
  | handle e hc =>
    obtain ⟨handlerCalls, hmod⟩ := msgModuleHandler_eq s e
    rw [hmod, MsgState.pending, MsgState.pending, MsgState.toServe, MsgState.toServe, hc]
  | handlerReturn e hc => exact absurd hother Bool.false_ne_true
  | release e hc =>
    rw [MsgState.pending, MsgState.pending, MsgState.toServe, MsgState.toServe, hc]
  | _ => rfl

/-- Live ALARM messages go to the storage and point to `alarm_data`. -/
def AlarmEntries (m : MsgState) : Prop :=
  ∀ e ∈ m.live, e.isAlarm = true →
    e.queued.dstModule = .storage ∧ e.queued.data = .address alarmDataAddr

theorem AlarmEntries.step {build : Build} {m n : MsgState} {a : MsgAction} (h : AlarmEntries m)
    (hstep : MsgStep build m a n)
    (hsend : ∀ msg bytes, a = .send msg bytes → msg.msgType = .alarm → msg = alarmMsg) :
    AlarmEntries n := by
  intro e he halarm
  rcases mem_live_msgStep hstep he with he | ⟨msg, bytes, ha, -, rfl⟩
  · exact h e he halarm
  · have htype : msg.msgType = .alarm :=
      (msgType_prepare m.ring msg bytes).symm.trans (of_decide_eq_true halarm)
    rw [hsend msg bytes ha htype]
    exact ⟨rfl, rfl⟩

/-- The handlers leave the message system alone. -/
theorem msgs_alarmHandlers {s t : AlarmState} {e : Entry} {img : Frame}
    (h : alarmHandlers s e img = some t) : t.msgs = s.msgs := by
  rw [alarmHandlers] at h
  split at h
  · rw [Option.bind_eq_some_iff] at h
    obtain ⟨status, -, h⟩ := h
    rw [storageAlarmHandler, Option.map_eq_some_iff] at h
    obtain ⟨st, -, rfl⟩ := h
    rfl
  · rw [Option.map_eq_some_iff] at h
    obtain ⟨st, -, rfl⟩ := h
    rfl
  · exact Option.some_inj.mp h ▸ rfl
  · exact Option.some_inj.mp h ▸ rfl

/-- Every step leaves the message system alone or is a step of it, and the only ALARM message
sent is the one of `process_image_thread`. -/
theorem msgs_alarmStep {build : Build} {s t : AlarmState} {a : AlarmAction}
    (h : alarmStep build s a = some t) : t.msgs = s.msgs ∨
      ∃ b, msgStep build s.msgs b = some t.msgs ∧
        ∀ msg bytes, b = .send msg bytes → msg.msgType = .alarm → msg = alarmMsg := by
  cases a with
  | image choice =>
    simp only [alarmStep, processImage] at h
    split at h
    · split_ifs at h
      exact .inl (Option.some_inj.mp h ▸ rfl)
    · exact .inl (Option.some_inj.mp h ▸ rfl)
    · exact .inl (Option.some_inj.mp h ▸ rfl)
    · refine .inl ?_
      rw [Option.some_inj] at h
      rw [← h, alarmDataDiff]
      split_ifs <;> rfl
    · obtain ⟨m, hm, rfl⟩ := Option.map_eq_some_iff.mp h
      refine .inr ⟨_, hm, ?_⟩
      intro msg bytes hmsg htype
      injection hmsg with hmsg
      exact absurd (hmsg ▸ htype) (by simp [statusLogMsg])
    · rw [dispatchAlarm] at h
      obtain ⟨m, hm, rfl⟩ := Option.map_eq_some_iff.mp h
      refine .inr ⟨_, hm, ?_⟩
      intro msg bytes hmsg htype
      injection hmsg with hmsg
      exact hmsg.symm
    · simp at h
  | msg a =>
    simp only [alarmStep] at h
    split_ifs at h with hother
    obtain ⟨m, hm, rfl⟩ := Option.map_eq_some_iff.mp h
    refine .inr ⟨a, hm, ?_⟩
    rintro msg bytes rfl htype
    simp [MsgAction.isOther, htype] at hother
  | handlerReturn img =>
    simp only [alarmStep] at h
    split at h
    · obtain ⟨m, hm, h⟩ := Option.bind_eq_some_iff.mp h
      have hmsgs : t.msgs = m := msgs_alarmHandlers h
      refine .inr ⟨.handlerReturn, hmsgs ▸ hm, ?_⟩
      intro msg bytes hmsg
      cases hmsg
    · simp at h
  | storageThread ok =>
    obtain ⟨st, hst, rfl⟩ := Option.map_eq_some_iff.mp h
    exact .inl rfl

/-- The message queue of the alarm system is the message system. -/
theorem msgs_reachable {build : Build} {alarmData : AlarmLevel} {s : AlarmState}
    (hs : (alarmSystem build alarmData).Reachable s) : (msgSystem build).Reachable s.msgs := by
  refine TransitionSystem.Via.map (T := msgSystem build) AlarmState.msgs rfl ?_ hs
  intro s a t _ _ ht
  exact (msgs_alarmStep ht).imp_right fun ⟨b, hb, _⟩ => ⟨b, trivial, hb⟩

theorem alarmEntries_init : AlarmEntries .init := by
  intro e he
  simp [MsgState.live, MsgState.init] at he

/-- Everything a step can do to the statuses. -/
inductive AlarmStep (s : AlarmState) : AlarmAction → AlarmState → Prop
  | quiet (a : AlarmAction) (msgs : MsgState) (storage : StorageState) (pc : ImagePc)
      (isUpdated : Bool) (diffData : AlarmLevel) (hpending : msgs.pending = s.msgs.pending)
      (hmoved : storage.moveDetected = s.storage.moveDetected) :
      AlarmStep s a { s with
        msgs := msgs
        storage := storage
        pc := pc
        isUpdated := isUpdated
        diffData := diffData }
  | moveDetect (status : AlarmLevel) : AlarmStep s (.image (.moveDetect status))
      { s with alarmData := status, pc := .detected }
  | accepted (msgs : MsgState) (hpending : msgs.pending = s.msgs.pending + 1) :
      AlarmStep s (.image .dispatchAlarm)
        { s with msgs := msgs, pc := .waiting, returned := s.returned ++ [s.alarmData] }
  | applied (img : Frame) (msgs : MsgState) (storage : StorageState)
      (hpending : s.msgs.pending = msgs.pending + 1)
      (hmoved : storage.moveDetected = decide (s.alarmData = .moved)) :
      AlarmStep s (.handlerReturn img)
        { s with msgs := msgs, storage := storage, applied := s.applied ++ [s.alarmData] }

/-- Images and the storage's thread leave the flag alone. -/
theorem moveDetected_storageStep {s t : StorageState} {a : StorageAction}
    (h : storageStep s a = some t) (ha : ∀ moved, a ≠ .alarm moved) :
    t.moveDetected = s.moveDetected := by
  cases storageStep_cases h with
  | alarm moved _ => exact absurd rfl (ha moved)
  | _ => rfl

/-- What the deliver thread serves in a reachable state. -/
theorem alarmHandlers_cases {build : Build} {s t : AlarmState} {m : MsgState} {e : Entry}
    {img : Frame} (hentries : AlarmEntries s.msgs) (hc : s.msgs.current = some (.serving, e))
    (hm : MsgStep build s.msgs .handlerReturn m)
    (h : alarmHandlers { s with msgs := m } e img = some t) :
    AlarmStep s (.handlerReturn img) t := by
  obtain ⟨e', hc', hserve⟩ := toServe_handlerReturn hm
  obtain rfl : e = e' := by
    rw [hc, Option.some_inj, Prod.mk.injEq] at hc'
    exact hc'.2
  have hcount : s.msgs.pending = m.pending + if e.isAlarm = true then 1 else 0 := by
    rw [MsgState.pending, hserve, List.countP_cons]
    rfl
  have hquiet : e.isAlarm = false → m.pending = s.msgs.pending := by
    intro hno
    rw [hcount, hno]
    rfl
  by_cases halarm : e.isAlarm = true
  · -- an ALARM message: the storage reads `alarm_data`
    have hlive : e ∈ s.msgs.live := (live_of_current hc).symm ▸ List.mem_cons_self
    obtain ⟨hdst, hdata⟩ := hentries e hlive halarm
    have htype : e.queued.msgType = .alarm := of_decide_eq_true halarm
    rw [alarmHandlers, hdst, htype] at h
    simp only [statusAt, hdata, if_true, Option.bind_some, storageAlarmHandler] at h
    obtain ⟨st, hst, rfl⟩ := Option.map_eq_some_iff.mp h
    refine .applied img m st (by rw [hcount, if_pos halarm]) ?_
    cases storageStep_cases hst
    rfl
  · have hno : e.isAlarm = false := Bool.eq_false_iff.mpr halarm
    rw [alarmHandlers] at h
    split at h
    · next hdst htype => exact absurd (decide_eq_true htype) halarm
    · obtain ⟨st, hst, rfl⟩ := Option.map_eq_some_iff.mp h
      exact .quiet _ m st _ _ _ (hquiet hno) (moveDetected_storageStep hst nofun)
    · rw [Option.some_inj] at h
      exact h ▸ .quiet _ m _ _ true _ (hquiet hno) rfl
    · rw [Option.some_inj] at h
      exact h ▸ .quiet _ m _ _ _ _ (hquiet hno) rfl

theorem processImage_cases {build : Build} {s t : AlarmState} {choice : ImageChoice}
    (h : processImage build s choice = some t) : AlarmStep s (.image choice) t := by
  unfold processImage at h
  split at h
  · split_ifs at h
    rw [Option.some_inj] at h
    exact h ▸ .quiet _ _ _ .decoding false _ rfl rfl
  · rw [Option.some_inj] at h
    exact h ▸ .quiet _ _ _ .waiting _ _ rfl rfl
  · rw [Option.some_inj] at h
    exact h ▸ .moveDetect _
  · rw [Option.some_inj, alarmDataDiff] at h
    split_ifs at h
    · exact h ▸ .quiet _ _ _ .logging _ s.alarmData rfl rfl
    · exact h ▸ .quiet _ _ _ .alarming _ _ rfl rfl
  · obtain ⟨m, hm, rfl⟩ := Option.map_eq_some_iff.mp h
    exact .quiet _ m _ .alarming _ _ (pending_other (msgStep_cases hm) rfl) rfl
  · rw [dispatchAlarm] at h
    obtain ⟨m, hm, rfl⟩ := Option.map_eq_some_iff.mp h
    have hcount := pending_accept (msgStep_cases hm)
    by_cases hroom : s.msgs.queue.count < maxMsgQueueSize
    · rw [if_pos hroom]
      rw [if_pos ⟨rfl, hroom⟩] at hcount
      exact .accepted m hcount
    · rw [if_neg hroom]
      rw [if_neg fun hboth => hroom hboth.2] at hcount
      exact .quiet _ m _ .waiting _ _ hcount rfl
  · simp at h

theorem alarmStep_cases {build : Build} {s t : AlarmState} {a : AlarmAction}
    (hentries : AlarmEntries s.msgs) (h : alarmStep build s a = some t) : AlarmStep s a t := by
  cases a with
  | image choice => exact processImage_cases h
  | msg a =>
    simp only [alarmStep] at h
    split_ifs at h with hother
    obtain ⟨m, hm, rfl⟩ := Option.map_eq_some_iff.mp h
    exact .quiet _ m _ _ _ _ (pending_other (msgStep_cases hm) hother) rfl
  | handlerReturn img =>
    simp only [alarmStep] at h
    split at h
    · next p e hc =>
      obtain ⟨m, hm, h⟩ := Option.bind_eq_some_iff.mp h
      have hstep := msgStep_cases hm
      obtain ⟨e', hc', -⟩ := toServe_handlerReturn hstep
      have hp : p = .serving := by
        rw [hc, Option.some_inj, Prod.mk.injEq] at hc'
        exact hc'.1
      exact alarmHandlers_cases hentries (hp ▸ hc) hstep h
    · simp at h
  | storageThread ok =>
    obtain ⟨st, hst, rfl⟩ := Option.map_eq_some_iff.mp h
    exact .quiet _ _ st _ _ _ rfl (moveDetected_storageStep hst nofun)

/-! ### The statuses applied -/

/-- The rule for the statuses: what holds at the start and is kept by every step that meets
the condition holds in every state such steps lead to. -/
theorem alarm_invariant {build : Build} {alarmData : AlarmLevel}
    {good : AlarmState → AlarmAction → Prop} {P : AlarmState → Prop} (h0 : P (.init alarmData))
    (hstep : ∀ s a t, P s → good s a → AlarmStep s a t → P t) {s : AlarmState}
    (hs : (alarmSystem build alarmData).Via good s) : P s := by
  have hboth : P s ∧ AlarmEntries s.msgs := by
    refine hs.invariant (P := fun s => P s ∧ AlarmEntries s.msgs)
      ⟨h0, alarmEntries_init⟩ ?_
    intro s a t ih hgood ht
    refine ⟨hstep s a t ih.1 hgood (alarmStep_cases ih.2 ht), ?_⟩
    rcases msgs_alarmStep ht with heq | ⟨b, hb, hsend⟩
    · exact heq ▸ ih.2
    · exact ih.2.step (msgStep_cases hb) hsend
  exact hboth.1

/-- **An ALARM message is queued for each status dispatched and not yet applied.** -/
theorem pending_eq {build : Build} {alarmData : AlarmLevel} {s : AlarmState}
    (hs : (alarmSystem build alarmData).Reachable s) :
    s.returned.length = s.applied.length + s.msgs.pending := by
  refine alarm_invariant (P := fun s =>
    s.returned.length = s.applied.length + s.msgs.pending) rfl ?_ hs
  intro s a t ih _ ht
  cases ht with
  | quiet a msgs storage pc isUpdated diffData hpending _ => exact hpending ▸ ih
  | moveDetect status => exact ih
  | accepted msgs hpending =>
    rw [List.length_append, hpending, ih]
    rfl
  | applied img msgs storage hpending _ =>
    rw [ih, List.length_append, hpending, List.length_singleton]
    dsimp only
    omega

/-- The storage's flag is that of the last status applied. -/
theorem moveDetected_eq {build : Build} {alarmData : AlarmLevel} {s : AlarmState}
    (hs : (alarmSystem build alarmData).Reachable s) :
    s.storage.moveDetected = decide (s.applied.getLast? = some .moved) := by
  refine alarm_invariant (P := fun s =>
    s.storage.moveDetected = decide (s.applied.getLast? = some .moved)) rfl ?_ hs
  intro s a t ih _ ht
  cases ht with
  | quiet a msgs storage pc isUpdated diffData _ hmoved => exact hmoved.trans ih
  | moveDetect status => exact ih
  | accepted msgs hpending => exact ih
  | applied img msgs storage _ hmoved =>
    rw [List.getLast?_concat, hmoved]
    simp

/-- The statuses applied by the storage are those returned at the accepted dispatches, in
order; for each of the others an ALARM message waits. -/
structure StatusesUnchanged (s : AlarmState) : Prop where
  applied : s.applied <+: s.returned
  pending : s.returned.length = s.applied.length + s.msgs.pending

/-- The statuses dispatched and not yet applied. -/
def AlarmState.outstanding (s : AlarmState) : List AlarmLevel := s.returned.drop s.applied.length

/-- `Move_Detect` returns no other status than those that are outstanding. -/
def KeepsStatus (s : AlarmState) : AlarmAction → Prop
  | .image (.moveDetect status) => ∀ x ∈ s.outstanding, x = status
  | _ => True

instance : ∀ (s : AlarmState) (a : AlarmAction), Decidable (KeepsStatus s a)
  | s, .image (.moveDetect status) =>
    inferInstanceAs (Decidable (∀ x ∈ s.outstanding, x = status))
  | _, .image .take | _, .image .decodeFailed | _, .image .alarmDataDiff
  | _, .image (.dispatchLog _) | _, .image .dispatchAlarm | _, .msg _ | _, .handlerReturn _
  | _, .storageThread _ => .isTrue trivial

/-- The statuses applied come first, and those outstanding are in `alarm_data`. -/
structure InCell (s : AlarmState) : Prop where
  returned_eq : s.returned = s.applied ++ s.outstanding
  same : ∀ x ∈ s.outstanding, x = s.alarmData
  pending : s.outstanding.length = s.msgs.pending

/-- The statuses outstanding are those behind the ones applied. -/
theorem outstanding_of_returned {s : AlarmState} {rest : List AlarmLevel}
    (h : s.returned = s.applied ++ rest) : s.outstanding = rest := by
  rw [AlarmState.outstanding, h, List.drop_left]

theorem InCell.mk' {s : AlarmState} (rest : List AlarmLevel)
    (h : s.returned = s.applied ++ rest) (hsame : ∀ x ∈ rest, x = s.alarmData)
    (hpending : rest.length = s.msgs.pending) : InCell s := by
  have hrest := outstanding_of_returned h
  exact ⟨hrest.symm ▸ h, hrest.symm ▸ hsame, hrest.symm ▸ hpending⟩

theorem InCell.step {s t : AlarmState} {a : AlarmAction} (h : InCell s) (hgood : KeepsStatus s a)
    (ht : AlarmStep s a t) : InCell t := by
  cases ht with
  | quiet a msgs storage pc isUpdated diffData hpending _ =>
    exact .mk' _ h.returned_eq h.same (h.pending.trans hpending.symm)
  | moveDetect status => exact .mk' _ h.returned_eq hgood h.pending
  | accepted msgs hpending =>
    refine .mk' (s.outstanding ++ [s.alarmData]) ?_ ?_ ?_
    · show s.returned ++ [s.alarmData] = _
      rw [← List.append_assoc, ← h.returned_eq]
    · intro x hx
      rcases List.mem_append.mp hx with hx | hx
      · exact h.same x hx
      · exact List.mem_singleton.mp hx
    · rw [List.length_append, h.pending, hpending]
      rfl
  | applied img msgs storage hpending _ =>
    -- the first of the statuses outstanding is in the cell
    obtain ⟨x, rest, hrest⟩ : ∃ x rest, s.outstanding = x :: rest :=
      List.exists_cons_of_length_pos (by rw [h.pending, hpending]; exact Nat.succ_pos _)
    have hx : x = s.alarmData := h.same x (hrest ▸ List.mem_cons_self)
    refine .mk' rest ?_ ?_ ?_
    · show s.returned = s.applied ++ [s.alarmData] ++ rest
      rw [List.append_assoc, ← hx, List.singleton_append, ← hrest]
      exact h.returned_eq
    · intro y hy
      exact h.same y (hrest ▸ List.mem_cons_of_mem _ hy)
    · have hlength := h.pending
      rw [hrest, List.length_cons, hpending] at hlength
      exact Nat.succ.inj hlength

/-- **The statuses arrive unchanged**, in every run in which `Move_Detect` never returns
another status than those outstanding. -/
theorem statusesUnchanged (build : Build) (alarmData : AlarmLevel) {s : AlarmState}
    (hs : (alarmSystem build alarmData).Via KeepsStatus s) : StatusesUnchanged s := by
  have hcell : InCell s := by
    refine alarm_invariant (P := InCell) ?_ (fun _ _ _ h hgood ht => h.step hgood ht) hs
    exact .mk' [] rfl nofun rfl
  exact ⟨⟨s.outstanding, hcell.returned_eq.symm⟩, pending_eq hs.reachable⟩

/-- A captured image. -/
def smallFrame : Frame := ⟨⟨[255, 216], by simp⟩, 40⟩

/-- A buffer of the camera. -/
def firstBuffer : Fin v4l2BufCount := ⟨0, Nat.succ_pos _⟩

/-- Two images are sent, and the first is delivered. -/
def twoImages : List AlarmAction :=
  [.msg (.send (imageMsg .alarm firstBuffer) []), .msg (.send (imageMsg .alarm firstBuffer) []),
    .msg .receive, .msg .handle, .handlerReturn smallFrame, .msg .release, .image .take]

/-- `Move_Detect` finds a movement, and its status is dispatched. -/
def movementFound : List AlarmAction :=
  [.image (.moveDetect .moved), .image .alarmDataDiff, .image (.dispatchLog []),
    .image .dispatchAlarm]

/-- The deliver thread does its work for one message. -/
def deliverOne : List AlarmAction :=
  [.msg .receive, .msg .handle, .handlerReturn smallFrame, .msg .release]

/-- `Move_Detect` looks at the next image while the alarm waits, and finds a movement again: both
alarms arrive. -/
def movementAgain : List AlarmAction :=
  twoImages ++ movementFound ++ deliverOne ++
    [.image .take, .image (.moveDetect .moved), .image .alarmDataDiff] ++ deliverOne ++
    [.image .dispatchAlarm] ++ deliverOne ++ deliverOne

theorem statusesUnchanged_movement : ∃ s,
    (alarmSystem .default .safe).runVia KeepsStatus (.init .safe) movementAgain = some s ∧
    s.returned = [.moved, .moved] ∧ s.applied = [.moved, .moved] ∧ StatusesUnchanged s := by
  have hrun : (alarmSystem .default .safe).runVia KeepsStatus (.init .safe) movementAgain =
    some _ := rfl
  exact ⟨_, hrun, rfl, rfl, statusesUnchanged .default .safe (.of_run hrun)⟩

/-- `Move_Detect` looks at the next image while the alarm waits: the storage is told that
nothing moved. -/
theorem statusesUnchanged_lostMovement : ∃ s, (alarmSystem .default .safe).run (.init .safe)
      (twoImages ++ movementFound ++ deliverOne ++ [.image .take, .image (.moveDetect .safe)] ++
        deliverOne ++ deliverOne) = some s ∧
    s.returned = [.moved] ∧ s.applied = [.safe] ∧ s.storage.moveDetected = false ∧
    ¬ StatusesUnchanged s := by
  have hrun : (alarmSystem .default .safe).run (.init .safe)
    (twoImages ++ movementFound ++ deliverOne ++ [.image .take, .image (.moveDetect .safe)] ++
      deliverOne ++ deliverOne) = some _ := rfl
  refine ⟨_, hrun, ?_, ?_, ?_, ?_⟩
  · rfl
  · rfl
  · rfl
  · intro h
    have happlied : [AlarmLevel.safe] <+: [AlarmLevel.moved] := h.applied
    simp at happlied

end Sentry
