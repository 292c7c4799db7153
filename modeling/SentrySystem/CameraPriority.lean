/-
The camera's buffers in the `MSG_ENABLE_PRIORITY` build (`src/v4l2/v4l2_dev.c`).

This build sends every frame to three modules, the alarm module with priority HIGH, but
increments the counter of the buffer twice.  The counter is one short, and the last of
the three messages may be handled while the counter is 0.

* `prioritySystem` — the camera thread of this build on top of its message system;
* `Account` — the references to a buffer beside its counter;
* `account_step` — every step of the system is one of each buffer's account;
* `countedInUse_iff` — the runs in which the counter of every buffer in use stays above 0.
-/
import SentrySystem.CameraCapture

namespace Sentry

/-! ### The code -/

/-- The priority `msg_dispatch` and `msg_dispatch_with_priority` give to an image. -/
def Consumer.priority : Consumer → MsgPriority
  | alarm => .high
  | _ => .normal

/-- The message to a consumer. -/
def priorityMsg (c : Consumer) (latestIndex : Fin v4l2BufCount) : CommonMsg :=
  { imageMsg c latestIndex with priority := c.priority }

/-- Where the dispatch to a consumer leads: the clock is not asked in this build. -/
def Consumer.nextPriority : Consumer → CameraPc
  | udp => .dispatch .storage
  | storage => .dispatch .alarm
  | alarm => .qbuf

/-- A dispatch, up to where `msg_send` gives back the lock. -/
def priorityDispatch (s : CameraState) (c : Consumer) (latestIndex : Fin v4l2BufCount) :
    Option CameraState :=
  (msgStep .msgEnablePriority s.msg (.send (priorityMsg c latestIndex) [])).map fun msg =>
    { s with
      msg := msg
      sentFor := Function.update s.sentFor s.msg.nextCall (some ⟨s.buf, s.stamp⟩)
      pc := if s.msg.queue.count < maxMsgQueueSize then c.nextPriority else .refused c }

/-- A step of the message system alone. -/
def CameraState.priorityOnly (s : CameraState) (a : MsgAction) : Option CameraState :=
  (msgStep .msgEnablePriority s.msg a).map fun msg => { s with msg := msg }

/-- One step; what touches neither the queue nor the `#ifdef` is as in the default build. -/
def priorityStep (s : CameraState) : CameraAction → Option CameraState
  | .frame buf => cameraStep s (.frame buf)
  | .gettimeUs now => cameraStep s (.gettimeUs now)
  | .clockGettime _ => none
  | .next =>
    match s.pc with
    | .dispatch c => s.latestIndex.bind fun i => priorityDispatch s c i
    | .changeAlarm => none
    | _ => cameraNext s
  | .register m => s.priorityOnly (.register m)
  -- no other thread sends in the camera's name
  | .send msg bytes => if msg.srcModule = .v4l2 then none else s.priorityOnly (.send msg bytes)
  | .releaseRefused i =>
    s.msg.refusing[i]?.bind fun e =>
      (s.priorityOnly (.releaseRefused i)).bind fun t =>
        if e.arg.srcModule = .v4l2 then
          match s.pc with
          | .refused c => some { v4l2MsgReleaseHandler t e.arg with pc := c.nextPriority }
          | _ => none
        else some t
  | .receive => s.priorityOnly .receive
  | .handle isSending =>
    match s.msg.current with
    | some (.fetched, e) =>
      (s.priorityOnly .handle).map fun t =>
        { t with
          reads := if e.queued.srcModule = .v4l2 then handlerReads e.queued isSending else [] }
    | _ => none
  | .read => cameraStep s .read
  | .handlerReturn => if s.reads = [] then s.priorityOnly .handlerReturn else none
  | .release =>
    match s.msg.current with
    | some (.leaving, e) => (s.priorityOnly .release).map fun t => cameraRelease t e.queued
    | _ => none

/-- The camera with the message system, in this build. -/
def prioritySystem (ts : Timespec) : TransitionSystem CameraState CameraAction :=
  ⟨.init ts, priorityStep⟩

/-- The law: the counter of a buffer in use is above 0. -/
def CountedInUse (s : CameraState) : Prop := ∀ i, s.images i ≠ [] → 0 < (s.takenFlag i).counter

/-! ### The account of a buffer -/

/-- The messages for a buffer that are queued or being handled, those the camera thread has yet
to send or to release, and the counter. -/
@[ext] structure Account where
  live : ℕ
  unsent : ℕ
  counter : ℕ

namespace Account

/-- What can happen to a buffer: it is published, the counter is incremented, a message is
sent, a message that found the queue full is released, one that was handled is released. -/
inductive Move
  | keep
  | publish
  | change
  | send
  | refused
  | release

/-- What a move does. -/
def step (x : Account) : Move → Account
  | .keep => x
  | .publish => { x with unsent := 1 }
  | .change => { x with unsent := x.unsent + 1, counter := x.counter + 1 }
  | .send => { x with live := x.live + 1, unsent := x.unsent - 1 }
  | .refused => { x with unsent := x.unsent - 1, counter := x.counter - 1 }
  | .release => { x with live := x.live - 1, counter := x.counter - 1 }

/-- When it can happen. -/
def Enabled (x : Account) : Move → Prop
  | .keep => True
  | .publish => x.counter = 0 ∧ x.unsent = 0
  | .change => 0 < x.unsent
  | .send => 0 < x.unsent
  | .refused => 0 < x.unsent
  | .release => 0 < x.live

/-- The move leaves one message of the frame, queued or being handled. -/
def leavesOne (x : Account) : Move → Bool
  | .send => x.live = 0 ∧ x.unsent = 1
  | .refused => x.live = 1 ∧ x.unsent = 1
  | .release => x.live = 2 ∧ x.unsent = 0
  | _ => false

/-- The counter is one short, but not below 0. -/
def Short (x : Account) : Prop := x.counter = x.live + x.unsent - 1

/-- A buffer in use is counted. -/
def Counted (x : Account) : Prop := x.live ≠ 0 → 0 < x.counter

theorem Short.step {x : Account} {m : Move} (h : x.Short) (hc : x.Counted) (he : x.Enabled m) :
    (x.step m).Short := by
  rw [Short] at h ⊢
  rw [Counted] at hc
  cases m with
  | keep => exact h
  | publish =>
    -- with the counter at 0 there is no message
    have hnone : x.live = 0 := by
      by_contra hlive
      exact absurd he.1 (hc hlive).ne'
    simp [Account.step, he.1, hnone]
  | change | send | refused | release =>
    simp only [Enabled] at he
    simp only [Account.step]
    omega

/-- **A move keeps the buffer counted** unless it leaves one message. -/
theorem counted_step_iff {x : Account} {m : Move} (h : x.Short) (hc : x.Counted)
    (he : x.Enabled m) : (x.step m).Counted ↔ x.leavesOne m = false := by
  rw [Short] at h
  rw [Counted] at hc
  cases m with
  | keep => simpa [Counted, Account.step, leavesOne] using hc
  | publish => simpa [Counted, Account.step, leavesOne] using hc
  | change => simp [Counted, Account.step, leavesOne]
  | send | refused | release =>
    simp only [Enabled] at he
    simp only [Counted, Account.step, leavesOne, decide_eq_false_iff_not]
    omega

end Account

/-! ### The account of a buffer of the camera -/

/-- The messages of the frame published last that the camera thread has yet to send or to
release; before the second increment, one more than the increments made. -/
def CameraPc.unsent : CameraPc → ℕ
  | changeFirst => 1
  | changeSecond => 2
  | dispatch .udp => 3
  | dispatch .storage => 2
  | dispatch .alarm => 1
  | refused .udp => 3
  | refused .storage => 2
  | refused .alarm => 1
  | _ => 0

/-- The account of buffer `i`. -/
def CameraState.account (s : CameraState) (i : Fin v4l2BufCount) : Account where
  live := (s.images i).length
  unsent := if s.latestIndex = some i then s.pc.unsent else 0
  counter := (s.takenFlag i).counter

/-- What an action is for buffer `i`. -/
def CameraState.move (s : CameraState) (a : CameraAction) (i : Fin v4l2BufCount) : Account.Move :=
  match a with
  | .next =>
    match s.pc with
    | .test =>
      if (s.takenFlag s.writeIndex).counter = 0 ∧ i = s.writeIndex then .publish else .keep
    | .changeFirst | .changeSecond => if s.latestIndex = some i then .change else .keep
    | .dispatch _ =>
      if s.latestIndex = some i ∧ s.msg.queue.count < maxMsgQueueSize then .send else .keep
    | _ => .keep
  | .releaseRefused k =>
    match s.msg.refusing[k]? with
    | some e =>
      if e.arg.srcModule = .v4l2 ∧ s.latestIndex = some i then .refused else .keep
    | none => .keep
  | .release =>
    match s.msg.current with
    | some (.leaving, e) => if imageFor i e.queued then .release else .keep
    | _ => .keep
  | _ => .keep

/-- The condition on the steps: none leaves one message of a frame, queued or being handled. -/
def KeepsTwo (s : CameraState) (a : CameraAction) : Prop :=
  ∀ i, (s.account i).leavesOne (s.move a i) = false

instance (s : CameraState) (a : CameraAction) : Decidable (KeepsTwo s a) :=
  inferInstanceAs (Decidable (∀ i, (s.account i).leavesOne (s.move a i) = false))

/-- The message the camera thread has yet to release, inside `msg_send`. -/
def CameraState.priorityRefused (s : CameraState) : List CommonMsg :=
  match s.pc, s.latestIndex with
  | .refused c, some i => [priorityMsg c i]
  | _, _ => []

/-- The messages of the camera are those of its dispatches. -/
structure PriorityInv (s : CameraState) : Prop where
  index_eq : ∀ i, (s.cameraData i).index = UInt8.ofNat i
  live_eq : ∀ e ∈ cameraLive s.msg, ∃ c i, e.queued = priorityMsg c i
  refusing_eq : (cameraRefusing s.msg).map Entry.arg = s.priorityRefused

/-! ### What a step can do -/

/-- Everything a step can do to the messages, the counters and the place of the camera thread. -/
inductive PriorityStep (s : CameraState) : CameraAction → CameraState → Prop
  | quiet (a : CameraAction) (t : CameraState) (hmove : ∀ i, s.move a i = .keep)
      (hindex : ∀ i, (t.cameraData i).index = (s.cameraData i).index)
      (hlive : (cameraLive t.msg).Perm (cameraLive s.msg))
      (hrefusing : cameraRefusing t.msg = cameraRefusing s.msg)
      (hflag : t.takenFlag = s.takenFlag) (hlatest : t.latestIndex = s.latestIndex)
      (hpc : t.pc.unsent = s.pc.unsent) (hown : t.priorityRefused = s.priorityRefused) :
      PriorityStep s a t
  | publish (hpc : s.pc = .test) (hfree : (s.takenFlag s.writeIndex).counter = 0) :
      PriorityStep s .next
        { s with
          latestIndex := some s.writeIndex
          writeIndex := nextIndex s.writeIndex
          pc := .changeFirst
          published := s.published ++ [(s.writeIndex, (s.images s.writeIndex).length)] }
  | change (j : Fin v4l2BufCount) (pc : CameraPc) (hj : s.latestIndex = some j)
      (hpc : (s.pc = .changeFirst ∧ pc = .changeSecond) ∨
        (s.pc = .changeSecond ∧ pc = .dispatch .udp)) :
      PriorityStep s .next { changeImageTakenFlag s j with pc := pc }
  | accept (c : Consumer) (j : Fin v4l2BufCount) (m : MsgState) (sentFor : ℕ → Option Frame)
      (hpc : s.pc = .dispatch c) (hj : s.latestIndex = some j)
      (hroom : s.msg.queue.count < maxMsgQueueSize)
      (hm : msgStep .msgEnablePriority s.msg (.send (priorityMsg c j) []) = some m) :
      PriorityStep s .next { s with msg := m, sentFor := sentFor, pc := c.nextPriority }
  | refuse (c : Consumer) (j : Fin v4l2BufCount) (m : MsgState) (sentFor : ℕ → Option Frame)
      (hpc : s.pc = .dispatch c) (hj : s.latestIndex = some j)
      (hfull : ¬ s.msg.queue.count < maxMsgQueueSize)
      (hm : msgStep .msgEnablePriority s.msg (.send (priorityMsg c j) []) = some m) :
      PriorityStep s .next { s with msg := m, sentFor := sentFor, pc := .refused c }
  | releaseOwn (k : ℕ) (e : Entry) (c : Consumer) (m : MsgState)
      (he : s.msg.refusing[k]? = some e) (hsrc : e.arg.srcModule = .v4l2)
      (hpc : s.pc = .refused c)
      (hm : msgStep .msgEnablePriority s.msg (.releaseRefused k) = some m) :
      PriorityStep s (.releaseRefused k)
        { v4l2MsgReleaseHandler { s with msg := m } e.arg with pc := c.nextPriority }
  | release (e : Entry) (m : MsgState) (hc : s.msg.current = some (.leaving, e))
      (hm : msgStep .msgEnablePriority s.msg .release = some m) :
      PriorityStep s .release (cameraRelease { s with msg := m } e.queued)

/-- A step of the camera thread that only changes its place or a buffer. -/
theorem PriorityStep.local {s t : CameraState} {a : CameraAction} (hmove : ∀ i, s.move a i = .keep)
    (hindex : ∀ i, (t.cameraData i).index = (s.cameraData i).index) (hmsg : t.msg = s.msg)
    (hflag : t.takenFlag = s.takenFlag) (hlatest : t.latestIndex = s.latestIndex)
    (hpc : t.pc.unsent = s.pc.unsent) (hown : t.priorityRefused = s.priorityRefused) :
    PriorityStep s a t :=
  .quiet a t hmove hindex (hmsg ▸ List.Perm.refl _) (hmsg ▸ rfl) hflag hlatest hpc hown

/-- A step of the message system that leaves the messages of the camera alone. -/
theorem PriorityStep.msgOnly {s : CameraState} {a : CameraAction} {m : MsgState}
    {reads : List ImageField} (hmove : ∀ i, s.move a i = .keep)
    (hlive : (cameraLive m).Perm (cameraLive s.msg))
    (hrefusing : cameraRefusing m = cameraRefusing s.msg) :
    PriorityStep s a { s with msg := m, reads := reads } :=
  .quiet a _ hmove (fun _ => rfl) hlive hrefusing rfl rfl rfl rfl

/-- A step of the message system after which the same messages are live. -/
theorem PriorityStep.quietMsg {s : CameraState} {a : CameraAction} {m : MsgState}
    {reads : List ImageField} (hmove : ∀ i, s.move a i = .keep)
    (h : m.live = s.msg.live ∧ m.refusing = s.msg.refusing) :
    PriorityStep s a { s with msg := m, reads := reads } := by
  obtain ⟨hlive, hrefusing⟩ := camera_quiet h
  exact .msgOnly hmove (hlive ▸ List.Perm.refl _) hrefusing

/-- Other senders do not add to the messages of the camera. -/
theorem camera_sendPriority {m m' : MsgState} {msg : CommonMsg} {bytes : List UInt8}
    (h : msgStep .msgEnablePriority m (.send msg bytes) = some m') (hsrc : msg.srcModule ≠ .v4l2) :
    (cameraLive m').Perm (cameraLive m) ∧ cameraRefusing m' = cameraRefusing m := by
  have hlive := perm_live_msgStep (msgStep_cases h)
  dsimp only at hlive
  split_ifs at hlive with hroom
  · constructor
    · refine (hlive.1.filter _).trans ?_
      rw [List.filter_cons_of_neg (by simpa [acceptedEntry, srcModule_prepare] using hsrc)]
      exact List.Perm.refl _
    · rw [cameraRefusing, cameraRefusing, hlive.2]
  · rw [cameraLive, cameraRefusing, hlive.1, hlive.2, List.filter_append]
    simp [hsrc, cameraLive, cameraRefusing]

/-- The camera's own dispatch. -/
theorem camera_dispatchPriority {m m' : MsgState} {c : Consumer} {i : Fin v4l2BufCount}
    (h : msgStep .msgEnablePriority m (.send (priorityMsg c i) []) = some m') :
    if m.queue.count < maxMsgQueueSize then
      (cameraLive m').Perm
          (⟨m.nextCall, priorityMsg c i, [], priorityMsg c i⟩ :: cameraLive m) ∧
        cameraRefusing m' = cameraRefusing m
    else
      cameraLive m' = cameraLive m ∧ cameraRefusing m' =
        cameraRefusing m ++ [⟨m.nextCall, priorityMsg c i, [], priorityMsg c i⟩] := by
  have hlog : ¬ ((priorityMsg c i).msgType = .log ∧ (priorityMsg c i).data ≠ .null) := by
    simp [priorityMsg, imageMsg]
  have hsrc : (priorityMsg c i).srcModule = .v4l2 := rfl
  have hlive := perm_live_msgStep (msgStep_cases h)
  dsimp only at hlive
  split_ifs at hlive ⊢ with hroom
  · rw [acceptedEntry, prepare_of_not_log m.ring [] hlog] at hlive
    constructor
    · refine (hlive.1.filter _).trans ?_
      rw [List.filter_cons_of_pos (by simp [hsrc])]
      exact List.Perm.refl _
    · rw [cameraRefusing, cameraRefusing, hlive.2]
  · rw [cameraLive, cameraRefusing, hlive.1, hlive.2, List.filter_append]
    simp [hsrc, cameraLive, cameraRefusing]

theorem priorityOnly_eq_some {s t : CameraState} {a : MsgAction} (h : s.priorityOnly a = some t) :
    ∃ m, msgStep .msgEnablePriority s.msg a = some m ∧ t = { s with msg := m } := by
  rw [CameraState.priorityOnly, Option.map_eq_some_iff] at h
  obtain ⟨m, hm, rfl⟩ := h
  exact ⟨m, hm, rfl⟩

theorem priorityDispatch_cases {s t : CameraState} {c : Consumer} {j : Fin v4l2BufCount}
    (hpc : s.pc = .dispatch c) (hj : s.latestIndex = some j)
    (h : priorityDispatch s c j = some t) : PriorityStep s .next t := by
  rw [priorityDispatch, Option.map_eq_some_iff] at h
  obtain ⟨m, hm, rfl⟩ := h
  by_cases hroom : s.msg.queue.count < maxMsgQueueSize
  · simp only [if_pos hroom]
    exact .accept c j m _ hpc hj hroom hm
  · simp only [if_neg hroom]
    exact .refuse c j m _ hpc hj hroom hm

/-- The camera thread, where it dispatches nothing. -/
theorem priorityNext_cases {s t : CameraState} (hd : ∀ c, s.pc ≠ .dispatch c)
    (ha : s.pc ≠ .changeAlarm) (h : CameraStep s .next t) : PriorityStep s .next t := by
  cases h with
  | memcpy hpc =>
    refine .local (fun i => by simp [CameraState.move, hpc]) ?_ rfl rfl rfl (by rw [hpc]; rfl)
      (by simp [CameraState.priorityRefused, hpc])
    exact index_write s (fun d => { d with data := writeAt d.data 0 s.buf.bytes }) fun _ => rfl
  | setLen hpc =>
    refine .local (fun i => by simp [CameraState.move, hpc]) ?_ rfl rfl rfl (by rw [hpc]; rfl)
      (by simp [CameraState.priorityRefused, hpc])
    exact index_write s (fun d => { d with len := s.buf.bytesused }) fun _ => rfl
  | publish hpc hfree => exact .publish hpc hfree
  | taken hpc htaken =>
    exact .local (fun i => by simp [CameraState.move, hpc, htaken]) (fun _ => rfl) rfl rfl rfl
      (by rw [hpc]; rfl) (by simp [CameraState.priorityRefused, hpc])
  | change j pc hj hpc =>
    rcases hpc with hpc | hpc | hpc
    · exact .change j pc hj (.inl hpc)
    · exact .change j pc hj (.inr hpc)
    · exact absurd hpc.1 ha
  | accept c j m hpc => exact absurd hpc (hd c)
  | refuse c j m hpc => exact absurd hpc (hd c)
  | qbuf hpc =>
    exact .local (fun i => by simp [CameraState.move, hpc]) (fun _ => rfl) rfl rfl rfl
      (by rw [hpc]; rfl) (by simp [CameraState.priorityRefused, hpc])

theorem priorityStep_cases {s t : CameraState} {a : CameraAction}
    (h : priorityStep s a = some t) : PriorityStep s a t := by
  cases a with
  | frame buf =>
    have hstep : cameraStep s (.frame buf) = some t := h
    cases cameraStep_cases hstep with
    | frame _ hpc =>
      exact .local (fun _ => rfl) (fun _ => rfl) rfl rfl rfl (by rw [hpc]; rfl)
        (by simp [CameraState.priorityRefused, hpc])
  | gettimeUs now =>
    have hstep : cameraStep s (.gettimeUs now) = some t := h
    cases cameraStep_cases hstep with
    | setTimestamps _ hpc =>
      refine .local (fun _ => rfl) ?_ rfl rfl rfl (by rw [hpc]; rfl)
        (by simp [CameraState.priorityRefused, hpc])
      exact index_write s (fun d => { d with timestamps := now }) fun _ => rfl
  | clockGettime now => simp [priorityStep] at h
  | next =>
    simp only [priorityStep] at h
    split at h
    · next c hpc =>
      rw [Option.bind_eq_some_iff] at h
      obtain ⟨j, hj, h⟩ := h
      exact priorityDispatch_cases hpc hj h
    · simp at h
    · next hd ha => exact priorityNext_cases hd ha (cameraNext_cases h)
  | register id =>
    obtain ⟨m, hm, rfl⟩ := priorityOnly_eq_some h
    exact .quietMsg (fun _ => rfl) (perm_live_msgStep (msgStep_cases hm))
  | send msg bytes =>
    simp only [priorityStep] at h
    split_ifs at h with hsrc
    obtain ⟨m, hm, rfl⟩ := priorityOnly_eq_some h
    obtain ⟨hlive, hrefusing⟩ := camera_sendPriority hm hsrc
    exact .msgOnly (fun _ => rfl) hlive hrefusing
  | releaseRefused k =>
    simp only [priorityStep, Option.bind_eq_some_iff] at h
    obtain ⟨e, he, u, hu, h⟩ := h
    obtain ⟨m, hm, rfl⟩ := priorityOnly_eq_some hu
    split_ifs at h with hsrc
    · split at h
      · next c hpc =>
        rw [Option.some_inj] at h
        exact h ▸ .releaseOwn k e c m he hsrc hpc hm
      · simp at h
    · rw [Option.some_inj] at h
      obtain ⟨hlive, hrefusing⟩ := camera_releaseRefused hm he hsrc
      rw [← h]
      exact .msgOnly (fun i => by simp [CameraState.move, he, hsrc]) (hlive ▸ List.Perm.refl _)
        hrefusing
  | receive =>
    obtain ⟨m, hm, rfl⟩ := priorityOnly_eq_some h
    exact .quietMsg (fun _ => rfl) (perm_live_msgStep (msgStep_cases hm))
  | handle isSending =>
    simp only [priorityStep] at h
    split at h
    · next e hc =>
      rw [Option.map_eq_some_iff] at h
      obtain ⟨u, hu, rfl⟩ := h
      obtain ⟨m, hm, rfl⟩ := priorityOnly_eq_some hu
      exact .quietMsg (fun _ => rfl) (perm_live_msgStep (msgStep_cases hm))
    · simp at h
  | read =>
    have hstep : cameraStep s .read = some t := h
    cases cameraStep_cases hstep with
    | read => exact .local (fun _ => rfl) (fun _ => rfl) rfl rfl rfl rfl rfl
  | handlerReturn =>
    simp only [priorityStep] at h
    split_ifs at h with hreads
    obtain ⟨m, hm, rfl⟩ := priorityOnly_eq_some h
    exact .quietMsg (fun _ => rfl) (perm_live_msgStep (msgStep_cases hm))
  | release =>
    simp only [priorityStep] at h
    split at h
    · next e hc =>
      rw [Option.map_eq_some_iff] at h
      obtain ⟨u, hu, rfl⟩ := h
      obtain ⟨m, hm, rfl⟩ := priorityOnly_eq_some hu
      exact .release e m hc hm
    · simp at h

/-! ### Every step is one of each account -/

theorem imageFor_priorityMsg (c : Consumer) (i j : Fin v4l2BufCount) :
    imageFor i (priorityMsg c j) = decide (i = j) :=
  imageFor_imageMsg c i j

theorem v4l2MsgReleaseHandler_priorityMsg {s : CameraState}
    (hindex : ∀ i, (s.cameraData i).index = UInt8.ofNat i) (c : Consumer) (i : Fin v4l2BufCount) :
    v4l2MsgReleaseHandler s (priorityMsg c i) = resetImageTakenFlag s i :=
  v4l2MsgReleaseHandler_imageMsg hindex c i

theorem counter_resetImageTakenFlag (s : CameraState) (i j : Fin v4l2BufCount) :
    ((resetImageTakenFlag s j).takenFlag i).counter =
      if i = j then (s.takenFlag i).counter - 1 else (s.takenFlag i).counter := by
  show (Function.update s.takenFlag j (s.takenFlag j).reset i).counter = _
  rw [Function.update_apply]
  split_ifs with hij
  · rw [hij]
    show (if (s.takenFlag j).counter > 0 then (s.takenFlag j).counter - 1
      else (s.takenFlag j).counter) = _
    split_ifs <;> omega
  · rfl

theorem length_images_congr {s t : CameraState}
    (hlive : (cameraLive t.msg).Perm (cameraLive s.msg)) (i : Fin v4l2BufCount) :
    (t.images i).length = (s.images i).length := by
  rw [images_eq, images_eq]
  exact (hlive.filter _).length_eq

theorem account_unsent {s : CameraState} {j : Fin v4l2BufCount} (hj : s.latestIndex = some j)
    (i : Fin v4l2BufCount) : (s.account i).unsent = if i = j then s.pc.unsent else 0 := by
  simp only [CameraState.account, hj, Option.some_inj, eq_comm]

/-- The message the camera thread releases is for the buffer published last. -/
theorem PriorityInv.refused_eq {s : CameraState} {m : MsgState} {k : ℕ} {e : Entry} {c : Consumer}
    (h : PriorityInv s) (he : s.msg.refusing[k]? = some e) (hsrc : e.arg.srcModule = .v4l2)
    (hpc : s.pc = .refused c) (hm : m.refusing = s.msg.refusing.eraseIdx k) :
    ∃ j, s.latestIndex = some j ∧ e.arg = priorityMsg c j ∧ cameraRefusing m = [] := by
  have hone : s.priorityRefused.length ≤ 1 := by
    rw [CameraState.priorityRefused]
    split <;> simp
  obtain ⟨hall, hnone⟩ := cameraRefusing_eraseIdx he hsrc hm hone h.refusing_eq
  rw [CameraState.priorityRefused, hpc] at hall
  rcases hlatest : s.latestIndex with _ | j
  · rw [hlatest] at hall
    cases hall
  · rw [hlatest] at hall
    exact ⟨j, rfl, (List.singleton_inj.mp hall).symm, hnone⟩

/-- What the deliver thread releases: a message of the camera, or one of another module. -/
theorem PriorityInv.release_eq {s : CameraState} {m : MsgState} {e : Entry} (h : PriorityInv s)
    (hc : s.msg.current = some (.leaving, e))
    (hm : msgStep .msgEnablePriority s.msg .release = some m) :
    (∃ c j, e.queued = priorityMsg c j ∧ cameraLive s.msg = e :: cameraLive m ∧
        cameraRelease { s with msg := m } e.queued =
          resetImageTakenFlag { s with msg := m } j) ∨
      (e.queued.srcModule ≠ .v4l2 ∧ cameraLive s.msg = cameraLive m ∧
        cameraRelease { s with msg := m } e.queued = { s with msg := m }) := by
  obtain ⟨hlive, -⟩ := camera_release hm hc
  by_cases hsrc : e.queued.srcModule = .v4l2
  · rw [List.filter_cons_of_pos (by simpa using hsrc), List.filter_nil] at hlive
    obtain ⟨c, j, heq⟩ := h.live_eq e (hlive ▸ List.mem_cons_self)
    refine .inl ⟨c, j, heq, hlive, ?_⟩
    rw [cameraRelease, if_pos hsrc, heq]
    exact v4l2MsgReleaseHandler_priorityMsg (s := { s with msg := m }) h.index_eq c j
  · rw [List.filter_cons_of_neg (by simpa using hsrc), List.filter_nil, List.nil_append] at hlive
    refine .inr ⟨hsrc, hlive, ?_⟩
    rw [cameraRelease, if_neg hsrc]

/-- A step by which only the account of buffer `j` changes. -/
theorem account_only {s t : CameraState} {a : CameraAction} {j i : Fin v4l2BufCount}
    {m : Account.Move} (hmove : s.move a i = if i = j then m else .keep)
    (henabled : (s.account j).Enabled m) (heq : t.account j = (s.account j).step m)
    (hother : i ≠ j → t.account i = s.account i) :
    (s.account i).Enabled (s.move a i) ∧ t.account i = (s.account i).step (s.move a i) := by
  rw [hmove]
  by_cases hi : i = j
  · rw [if_pos hi, hi]
    exact ⟨henabled, heq⟩
  · rw [if_neg hi]
    exact ⟨trivial, hother hi⟩

theorem account_of_latest {s : CameraState} {j : Fin v4l2BufCount} (hj : s.latestIndex = some j)
    (i : Fin v4l2BufCount) : s.account i =
      ⟨(s.images i).length, if i = j then s.pc.unsent else 0, (s.takenFlag i).counter⟩ := by
  rw [← account_unsent hj]
  rfl

theorem account_publish {s t : CameraState} (hpc : s.pc = .test)
    (hfree : (s.takenFlag s.writeIndex).counter = 0) (hmsg : t.msg = s.msg)
    (hflag : t.takenFlag = s.takenFlag) (hlatest : t.latestIndex = some s.writeIndex)
    (hpc' : t.pc = .changeFirst) (i : Fin v4l2BufCount) :
    (s.account i).Enabled (s.move .next i) ∧
      t.account i = (s.account i).step (s.move .next i) := by
  have hs : ∀ i, s.account i = ⟨(s.images i).length, 0, (s.takenFlag i).counter⟩ := by
    intro i
    simp [CameraState.account, hpc, CameraPc.unsent]
  have ht := account_of_latest hlatest
  have himages := length_images_congr (s := s) (t := t) (hmsg ▸ List.Perm.refl _)
  refine account_only (j := s.writeIndex) (m := .publish) ?_ ?_ ?_ ?_
  · simp [CameraState.move, hpc, hfree]
  · rw [hs]
    exact ⟨hfree, rfl⟩
  · rw [hs, ht, himages, hflag, if_pos rfl, hpc']
    rfl
  · intro hi
    rw [hs, ht, himages, hflag, if_neg hi]

theorem account_change {s t : CameraState} {j : Fin v4l2BufCount} (hj : s.latestIndex = some j)
    (hpc : (s.pc = .changeFirst ∧ t.pc = .changeSecond) ∨
      (s.pc = .changeSecond ∧ t.pc = .dispatch .udp)) (hmsg : t.msg = s.msg)
    (hflag : t.takenFlag = (changeImageTakenFlag s j).takenFlag)
    (hlatest : t.latestIndex = some j) (i : Fin v4l2BufCount) :
    (s.account i).Enabled (s.move .next i) ∧
      t.account i = (s.account i).step (s.move .next i) := by
  have hnext : t.pc.unsent = s.pc.unsent + 1 := by
    rcases hpc with ⟨hpc, hpc'⟩ | ⟨hpc, hpc'⟩ <;> rw [hpc, hpc'] <;> rfl
  have hs := account_of_latest hj
  have ht := account_of_latest hlatest
  have himages := length_images_congr (s := s) (t := t) (hmsg ▸ List.Perm.refl _)
  refine account_only (j := j) (m := .change) ?_ ?_ ?_ ?_
  · rcases hpc with ⟨hpc, -⟩ | ⟨hpc, -⟩ <;> simp [CameraState.move, hpc, hj, eq_comm]
  · rw [hs, if_pos rfl]
    rcases hpc with ⟨hpc, -⟩ | ⟨hpc, -⟩ <;> rw [hpc] <;> exact Nat.succ_pos _
  · rw [hs, ht, himages, hflag, if_pos rfl, if_pos rfl, hnext]
    simp only [Account.step, changeImageTakenFlag, Function.update_self]
  · intro hi
    rw [hs, ht, himages, hflag, if_neg hi, if_neg hi]
    simp only [changeImageTakenFlag, Function.update_of_ne hi]

/-- A dispatch that finds room. -/
theorem account_accept {s t : CameraState} {c : Consumer} {j : Fin v4l2BufCount}
    (hpc : s.pc = .dispatch c) (hj : s.latestIndex = some j)
    (hroom : s.msg.queue.count < maxMsgQueueSize)
    (hm : msgStep .msgEnablePriority s.msg (.send (priorityMsg c j) []) = some t.msg)
    (hflag : t.takenFlag = s.takenFlag) (hlatest : t.latestIndex = some j)
    (hpc' : t.pc = c.nextPriority) (i : Fin v4l2BufCount) :
    (s.account i).Enabled (s.move .next i) ∧
      t.account i = (s.account i).step (s.move .next i) := by
  have hsend := camera_dispatchPriority hm
  rw [if_pos hroom] at hsend
  have hnext : s.pc.unsent = t.pc.unsent + 1 := by
    rw [hpc, hpc']
    cases c <;> rfl
  have hs := account_of_latest hj
  have ht := account_of_latest hlatest
  have himages := length_images_cons hsend.1
  simp only [imageFor_priorityMsg, decide_eq_true_eq] at himages
  refine account_only (j := j) (m := .send) ?_ ?_ ?_ ?_
  · simp [CameraState.move, hpc, hj, hroom, eq_comm]
  · rw [hs, if_pos rfl, hnext]
    exact Nat.succ_pos _
  · rw [hs, ht, himages, hflag, if_pos rfl, if_pos rfl, if_pos rfl, hnext]
    rfl
  · intro hi
    rw [hs, ht, himages, hflag, if_neg hi, if_neg hi, if_neg hi]
    rfl

/-- A dispatch that finds the queue full. -/
theorem account_refuse {s t : CameraState} {c : Consumer} {j : Fin v4l2BufCount}
    (hpc : s.pc = .dispatch c) (hj : s.latestIndex = some j)
    (hfull : ¬ s.msg.queue.count < maxMsgQueueSize)
    (hm : msgStep .msgEnablePriority s.msg (.send (priorityMsg c j) []) = some t.msg)
    (hflag : t.takenFlag = s.takenFlag) (hlatest : t.latestIndex = some j)
    (hpc' : t.pc = .refused c) (i : Fin v4l2BufCount) :
    (s.account i).Enabled (s.move .next i) ∧
      t.account i = (s.account i).step (s.move .next i) := by
  have hsend := camera_dispatchPriority hm
  rw [if_neg hfull] at hsend
  have hsame : t.pc.unsent = s.pc.unsent := by
    rw [hpc, hpc']
    cases c <;> rfl
  have himages := length_images_congr (s := s) (t := t) (hsend.1 ▸ List.Perm.refl _) i
  have hmove : s.move .next i = .keep := by simp [CameraState.move, hpc, hfull]
  rw [hmove, account_of_latest hj, account_of_latest hlatest, himages, hflag, hsame]
  exact ⟨trivial, rfl⟩

/-- The camera thread releases its message. -/
theorem account_releaseOwn {s t : CameraState} {c : Consumer} {j : Fin v4l2BufCount} {k : ℕ}
    {e : Entry} (he : s.msg.refusing[k]? = some e) (hsrc : e.arg.srcModule = .v4l2)
    (hpc : s.pc = .refused c) (hj : s.latestIndex = some j) (hlive : t.msg.live = s.msg.live)
    (hflag : t.takenFlag = (resetImageTakenFlag s j).takenFlag) (hlatest : t.latestIndex = some j)
    (hpc' : t.pc = c.nextPriority) (i : Fin v4l2BufCount) :
    (s.account i).Enabled (s.move (.releaseRefused k) i) ∧
      t.account i = (s.account i).step (s.move (.releaseRefused k) i) := by
  have hnext : s.pc.unsent = t.pc.unsent + 1 := by
    rw [hpc, hpc']
    cases c <;> rfl
  have hs := account_of_latest hj
  have ht := account_of_latest hlatest
  have himages : ∀ i, (t.images i).length = (s.images i).length := by
    intro i
    rw [CameraState.images, CameraState.images, hlive]
  refine account_only (j := j) (m := .refused) ?_ ?_ ?_ ?_
  · simp [CameraState.move, he, hsrc, hj, eq_comm]
  · rw [hs, if_pos rfl, hnext]
    exact Nat.succ_pos _
  · rw [hs, ht, himages, hflag, counter_resetImageTakenFlag, if_pos rfl, if_pos rfl, if_pos rfl,
      hnext]
    rfl
  · intro hi
    rw [hs, ht, himages, hflag, counter_resetImageTakenFlag, if_neg hi, if_neg hi, if_neg hi]

/-- The deliver thread releases a message. -/
theorem account_release {s : CameraState} (h : PriorityInv s) {e : Entry} {m : MsgState}
    (hc : s.msg.current = some (.leaving, e))
    (hm : msgStep .msgEnablePriority s.msg .release = some m) (i : Fin v4l2BufCount) :
    (s.account i).Enabled (s.move .release i) ∧
      (cameraRelease { s with msg := m } e.queued).account i =
        (s.account i).step (s.move .release i) := by
  rcases h.release_eq hc hm with ⟨c, j, heq, hlive, hreset⟩ | ⟨hsrc, hlive, hkeep⟩
  · have himages := length_images_cons (s := resetImageTakenFlag { s with msg := m } j) (t := s)
      (List.Perm.of_eq hlive)
    simp only [heq, imageFor_priorityMsg, decide_eq_true_eq] at himages
    have hcounter := fun i => counter_resetImageTakenFlag { s with msg := m } i j
    rw [hreset]
    refine account_only (j := j) (m := .release) ?_ ?_ ?_ ?_
    · simp [CameraState.move, hc, heq, imageFor_priorityMsg]
    · show 0 < (s.images j).length
      rw [himages, if_pos rfl]
      exact Nat.succ_pos _
    · refine Account.ext ?_ rfl ((hcounter j).trans (if_pos rfl))
      show _ = (s.images j).length - 1
      rw [himages, if_pos rfl]
      rfl
    · intro hi
      refine Account.ext ?_ rfl ((hcounter i).trans (if_neg hi))
      show _ = (s.images i).length
      rw [himages, if_neg hi]
      rfl
  · have hmove : s.move .release i = .keep := by
      simp [CameraState.move, hc, imageFor, hsrc]
    rw [hmove, hkeep]
    refine ⟨trivial, Account.ext ?_ rfl rfl⟩
    exact length_images_congr (t := { s with msg := m }) (hlive ▸ List.Perm.refl _) i

/-- **Every step of the system is one of each buffer's account.** -/
theorem account_step {s t : CameraState} {a : CameraAction} (h : PriorityInv s)
    (ht : PriorityStep s a t) (i : Fin v4l2BufCount) :
    (s.account i).Enabled (s.move a i) ∧ t.account i = (s.account i).step (s.move a i) := by
  cases ht with
  | quiet a t hmove hindex hlive hrefusing hflag hlatest hpc hown =>
    rw [hmove i]
    refine ⟨trivial, Account.ext (length_images_congr hlive i) ?_ ?_⟩
    · simp only [CameraState.account, hlatest, hpc, Account.step]
    · simp only [CameraState.account, hflag, Account.step]
  | publish hpc hfree =>
    refine account_publish hpc hfree ?_ ?_ ?_ ?_ i <;> rfl
  | change j pc hj hpc =>
    exact account_change (t := { changeImageTakenFlag s j with pc := pc }) hj hpc rfl rfl hj i
  | accept c j m sentFor hpc hj hroom hm =>
    exact account_accept (t := { s with msg := m, sentFor := sentFor, pc := c.nextPriority }) hpc hj
      hroom hm rfl hj rfl i
  | refuse c j m sentFor hpc hj hfull hm =>
    exact account_refuse (t := { s with msg := m, sentFor := sentFor, pc := .refused c }) hpc hj
      hfull hm rfl hj rfl i
  | releaseOwn k e c m he hsrc hpc hm =>
    obtain ⟨hlive, hrefusing⟩ := perm_live_msgStep (msgStep_cases hm)
    obtain ⟨j, hj, heq, -⟩ := h.refused_eq he hsrc hpc hrefusing
    rw [heq, v4l2MsgReleaseHandler_priorityMsg (s := { s with msg := m }) h.index_eq c j]
    exact account_releaseOwn (t := { resetImageTakenFlag { s with msg := m } j with
      pc := c.nextPriority }) he hsrc hpc hj hlive rfl hj rfl i
  | release e m hc hm => exact account_release h hc hm i

/-! ### The messages of the camera are its dispatches -/

theorem PriorityInv.step {s t : CameraState} {a : CameraAction} (h : PriorityInv s)
    (ht : PriorityStep s a t) : PriorityInv t := by
  cases ht with
  | quiet a t hmove hindex hlive hrefusing hflag hlatest hpc hown =>
    refine ⟨fun i => (hindex i).trans (h.index_eq i), ?_, ?_⟩
    · intro e he
      exact h.live_eq e (hlive.mem_iff.mp he)
    · rw [hrefusing, hown, h.refusing_eq]
  | publish hpc hfree =>
    refine ⟨h.index_eq, h.live_eq, ?_⟩
    refine h.refusing_eq.trans ?_
    simp [CameraState.priorityRefused, hpc]
  | change j pc hj hpc =>
    refine ⟨h.index_eq, h.live_eq, ?_⟩
    refine h.refusing_eq.trans ?_
    rcases hpc with ⟨hpc, rfl⟩ | ⟨hpc, rfl⟩ <;> simp [CameraState.priorityRefused, hpc]
  | accept c j m sentFor hpc hj hroom hm =>
    have hsend := camera_dispatchPriority hm
    rw [if_pos hroom] at hsend
    refine ⟨h.index_eq, ?_, ?_⟩
    · intro e he
      rcases List.mem_cons.mp (hsend.1.mem_iff.mp he) with rfl | he
      · exact ⟨c, j, rfl⟩
      · exact h.live_eq e he
    · refine (congrArg (List.map Entry.arg) hsend.2).trans (h.refusing_eq.trans ?_)
      cases c <;> simp [CameraState.priorityRefused, hpc, Consumer.nextPriority]
  | refuse c j m sentFor hpc hj hfull hm =>
    have hsend := camera_dispatchPriority hm
    rw [if_neg hfull] at hsend
    have hnone : (cameraRefusing s.msg).map Entry.arg = [] := by
      rw [h.refusing_eq, CameraState.priorityRefused, hpc]
    refine ⟨h.index_eq, fun e he => h.live_eq e (hsend.1 ▸ he), ?_⟩
    refine (congrArg (List.map Entry.arg) hsend.2).trans ?_
    rw [List.map_append, hnone]
    simp [CameraState.priorityRefused, hj]
  | releaseOwn k e c m he hsrc hpc hm =>
    obtain ⟨hlive, hrefusing⟩ := perm_live_msgStep (msgStep_cases hm)
    obtain ⟨j, hj, heq, hnone⟩ := h.refused_eq he hsrc hpc hrefusing
    rw [heq, v4l2MsgReleaseHandler_priorityMsg (s := { s with msg := m }) h.index_eq c j]
    refine ⟨h.index_eq, ?_, ?_⟩
    · intro e he
      refine h.live_eq e ?_
      rw [cameraLive, ← hlive]
      exact he
    · refine (congrArg (List.map Entry.arg) hnone).trans ?_
      cases c <;> simp [CameraState.priorityRefused, Consumer.nextPriority]
  | release e m hc hm =>
    have hrefusing := (camera_release hm hc).2
    have hlive : ∀ e ∈ cameraLive m, ∃ c i, e.queued = priorityMsg c i := by
      intro x hx
      refine h.live_eq x ?_
      rw [(camera_release hm hc).1]
      exact List.mem_append_right _ hx
    obtain ⟨takenFlag, resets, heq⟩ := cameraRelease_eq { s with msg := m } e.queued
    rw [heq]
    exact ⟨h.index_eq, hlive, (congrArg (List.map Entry.arg) hrefusing).trans h.refusing_eq⟩

theorem priorityInv_init (ts : Timespec) : PriorityInv (.init ts) where
  index_eq := fun _ => rfl
  live_eq := fun e he => absurd he (by simp [cameraLive, CameraState.init, MsgState.init,
    MsgState.live])
  refusing_eq := rfl

/-! ### The counters -/

theorem countedInUse_iff_account {s : CameraState} :
    CountedInUse s ↔ ∀ i, (s.account i).Counted := by
  simp only [CountedInUse, Account.Counted, CameraState.account, ne_eq,
    List.length_eq_zero_iff]

/-- Along the runs that keep to the condition the counters are one short, and above 0 while the
buffer is in use. -/
theorem short_counted {ts : Timespec} {s : CameraState}
    (hs : (prioritySystem ts).Via KeepsTwo s) :
    PriorityInv s ∧ ∀ i, (s.account i).Short ∧ (s.account i).Counted := by
  refine hs.invariant
    (P := fun s => PriorityInv s ∧ ∀ i, (s.account i).Short ∧ (s.account i).Counted)
    ⟨priorityInv_init ts, fun i => ⟨?_, fun hlive => absurd ?_ hlive⟩⟩ ?_
  · rfl
  · rfl
  rintro s a t ⟨hinv, hacc⟩ hgood ht
  have hstep := priorityStep_cases ht
  refine ⟨hinv.step hstep, ?_⟩
  intro i
  obtain ⟨henabled, heq⟩ := account_step hinv hstep i
  rw [heq]
  exact ⟨(hacc i).1.step (hacc i).2 henabled,
    (Account.counted_step_iff (hacc i).1 (hacc i).2 henabled).mpr (hgood i)⟩

/-- **A buffer in use is counted** in every state along a run exactly if no step leaves one message
of a frame, queued or being handled. -/
theorem countedInUse_iff {ts : Timespec} {as : List CameraAction} {s : CameraState}
    (h : (prioritySystem ts).run (.init ts) as = some s) :
    (prioritySystem ts).Throughout CountedInUse (.init ts) as ↔
      (prioritySystem ts).runVia KeepsTwo (.init ts) as = some s := by
  refine TransitionSystem.throughout_eq_runVia (S := prioritySystem ts) ?_ ?_ h
  · intro s hs
    exact countedInUse_iff_account.mpr fun i => ((short_counted hs).2 i).2
  · intro s a t hs hbad ht hcounted
    obtain ⟨hinv, hacc⟩ := short_counted hs
    refine hbad ?_
    intro i
    obtain ⟨henabled, heq⟩ := account_step hinv (priorityStep_cases ht) i
    have hcount := countedInUse_iff_account.mp hcounted i
    rw [heq] at hcount
    exact (Account.counted_step_iff (hacc i).1 (hacc i).2 henabled).mp hcount

theorem length_one_lt : ([1] : List UInt8).length < 2 ^ 32 := by decide

/-- A frame is captured and sent to the three modules; the alarm module, whose message comes
first, copies the image. -/
def alarmFirst : List CameraAction :=
  [.frame ⟨[1], length_one_lt⟩, .next, .next, .gettimeUs 1, .next, .next, .next, .next, .next, .next,
    .next, .receive, .handle false, .read, .read, .handlerReturn, .release]

/-- As long as two messages are left, the buffer is counted. -/
theorem countedInUse_iff_alarmFirst : ∃ s,
    (prioritySystem ⟨5, 0⟩).run (.init ⟨5, 0⟩) alarmFirst = some s ∧
    (s.images ⟨0, by decide⟩).length = 2 ∧ (s.takenFlag ⟨0, by decide⟩).counter = 1 ∧
    ((prioritySystem ⟨5, 0⟩).Throughout CountedInUse (.init ⟨5, 0⟩) alarmFirst ↔
      (prioritySystem ⟨5, 0⟩).runVia KeepsTwo (.init ⟨5, 0⟩) alarmFirst = some s) := by
  refine ⟨_, rfl, rfl, rfl, ?_⟩
  exact countedInUse_iff rfl

/-- The UDP module copies its image, too; that of the storage module is queued. -/
def udpSecond : List CameraAction :=
  alarmFirst ++ [.receive, .handle false, .read, .read, .handlerReturn, .release]

/-- The counter is 0 while the image waits for the storage module. -/
theorem countedInUse_udpSecond : ∃ s, (prioritySystem ⟨5, 0⟩).Reachable s ∧
    (s.images ⟨0, by decide⟩).map (fun e => e.queued.dstModule) = [.storage] ∧
    (s.takenFlag ⟨0, by decide⟩).counter = 0 ∧ ¬ CountedInUse s := by
  obtain ⟨s, hrun, himages, hzero⟩ : ∃ s,
    (prioritySystem ⟨5, 0⟩).run (.init ⟨5, 0⟩) udpSecond = some s ∧
    (s.images ⟨0, by decide⟩).map (fun e => e.queued.dstModule) = [.storage] ∧
    (s.takenFlag ⟨0, by decide⟩).counter = 0 := ⟨_, rfl, rfl, rfl⟩
  refine ⟨s, .of_run hrun, himages, hzero, ?_⟩
  intro hcounted
  have hpos := hcounted ⟨0, by decide⟩ (by
    intro hnone
    rw [hnone] at himages
    cases himages)
  omega

end Sentry
