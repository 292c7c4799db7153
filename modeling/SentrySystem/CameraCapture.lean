/-
The camera's two image buffers (`src/v4l2/v4l2_dev.c`).

`camera_capture_thread` copies every captured frame into `camera_data[write_index]`,
and publishes the buffer to the consumers if its reference counter is 0.  The
release handler of each message gives one reference back: the deliver thread calls
it behind the consumer's handler, `msg_send` calls it in the camera thread if the
queue is full.  The camera thread, the deliver thread and any other senders
interleave at the locks, at the calls of `msg_send` and at the accesses to the buffers;
`running` stays set, and the build is the default one.

* `changeImageTakenFlag`, `resetImageTakenFlag`, `v4l2MsgReleaseHandler` — the
  functions;
* `cameraSystem` — the camera thread on top of the message system;
* `CameraStep` — everything one step can do;
* `counterLaw` — the counters are exact.
-/
import SentrySystem.LogRing

namespace Sentry

/-! ### The code -/

/-- `V4L2_BUF_COUNT`. -/
def v4l2BufCount : ℕ := 2

/-- `sizeof(Image_Data)`. -/
def sizeofImageData : UInt32 := 24

/-- An `Image_Data` of `camera_data`, with the memory its `data` points to. -/
structure CameraData where
  timestamps : UInt64
  len : UInt32
  data : List UInt8
  index : UInt8
  deriving DecidableEq, Repr

/-- `V4L2_Image_Taken_Flag`. -/
structure TakenFlag where
  imageTakenFlag : Bool
  counter : ℕ
  deriving DecidableEq, Repr

/-- `struct timespec`. -/
structure Timespec where
  tvSec : ℤ
  tvNsec : ℤ
  deriving DecidableEq, Repr

/-- A dequeued buffer of the driver: the first `bytesused` bytes of its mapping. -/
structure V4l2Buffer where
  bytes : List UInt8
  size_lt : bytes.length < 2 ^ 32

/-- `buf.bytesused`. -/
def V4l2Buffer.bytesused (b : V4l2Buffer) : UInt32 := UInt32.ofNat b.bytes.length

/-- A captured frame: the dequeued buffer and the time read behind the copy. -/
structure Frame where
  buf : V4l2Buffer
  timestamps : UInt64

/-- The modules an image is sent to. -/
inductive Consumer
  | udp
  | storage
  | alarm
  deriving DecidableEq, Repr

/-- The module id of a consumer. -/
def Consumer.moduleId : Consumer → ModuleId
  | udp => .udp
  | storage => .storage
  | alarm => .alarm

/-- Where `camera_capture_thread` is: in `VIDIOC_DQBUF`; in front of the three writes into
`camera_data[write_index]`; in front of the test of the counter; in front of the first
and the second increment; in front of `msg_dispatch`; in `msg_send`, in front of the
release handler; in front of `clock_gettime`, of the third increment, of `VIDIOC_QBUF`. -/
inductive CameraPc
  | dqbuf
  | memcpy
  | setLen
  | setTimestamps
  | test
  | changeFirst
  | changeSecond
  | dispatch (c : Consumer)
  | refused (c : Consumer)
  | clock
  | changeAlarm
  | qbuf
  deriving DecidableEq, Repr

/-- A field of `Image_Data`, read by a handler. -/
inductive ImageField
  | data
  | len
  | timestamps
  deriving DecidableEq, Repr

/-- What a handler copied. -/
inductive Copied
  | data (bytes : List UInt8)
  | len (n : UInt32)
  | timestamps (t : UInt64)
  deriving DecidableEq, Repr

/-- The state: the message system; `v4l2_data_buffer`; the locals of the camera thread; the
fields the handler called last has yet to read; and the history: the last result of
`gettime_us`, the frame for which each call of `msg_send` by the camera thread was
made, the buffers for which `Reset_Image_Taken_Flag` was called, with the counter it
found, the buffers published, with the number of their image messages at this time,
the calls whose message was queued or being handled when its buffer was written,
and what the handlers copied. -/
structure CameraState where
  msg : MsgState
  cameraData : Fin v4l2BufCount → CameraData
  latestIndex : Option (Fin v4l2BufCount)
  takenFlag : Fin v4l2BufCount → TakenFlag
  pc : CameraPc
  writeIndex : Fin v4l2BufCount
  buf : V4l2Buffer
  tsNow : Timespec
  tsTarget : Timespec
  reads : List ImageField
  stamp : UInt64
  sentFor : ℕ → Option Frame
  resets : List (Fin v4l2BufCount × ℕ)
  published : List (Fin v4l2BufCount × ℕ)
  overwritten : List ℕ
  copies : List (ℕ × Copied)

/-- The state after `v4l2_data_buffer_init`, the clock showing `ts`. -/
def CameraState.init (ts : Timespec) : CameraState where
  msg := .init
  cameraData := fun i => ⟨0, 0, [], UInt8.ofNat i⟩
  latestIndex := none
  takenFlag := fun _ => ⟨false, 0⟩
  pc := .dqbuf
  writeIndex := ⟨0, by decide⟩
  buf := ⟨[], by decide⟩
  tsNow := ts
  tsTarget := ts
  reads := []
  stamp := 0
  sentFor := fun _ => none
  resets := []
  published := []
  overwritten := []
  copies := []

/-- A message of type image of the camera, for buffer `i`. -/
def imageFor (i : Fin v4l2BufCount) (msg : CommonMsg) : Bool :=
  msg.srcModule = .v4l2 ∧ msg.msgType = .image ∧ msg.data = .address i

/-- The image messages for buffer `i` that are queued or being handled. -/
def CameraState.images (s : CameraState) (i : Fin v4l2BufCount) : List Entry :=
  s.msg.live.filter fun e => imageFor i e.queued

/-- `Change_Image_Taken_Flag`. -/
def changeImageTakenFlag (s : CameraState) (targetIndex : Fin v4l2BufCount) : CameraState :=
  { s with
    takenFlag := Function.update s.takenFlag targetIndex
      ⟨true, (s.takenFlag targetIndex).counter + 1⟩ }

/-- What `Reset_Image_Taken_Flag` leaves of a flag. -/
def TakenFlag.reset (f : TakenFlag) : TakenFlag :=
  let counter := if f.counter > 0 then f.counter - 1 else f.counter
  ⟨if counter = 0 then false else f.imageTakenFlag, counter⟩

/-- `Reset_Image_Taken_Flag`. -/
def resetImageTakenFlag (s : CameraState) (targetIndex : Fin v4l2BufCount) : CameraState :=
  { s with
    takenFlag := Function.update s.takenFlag targetIndex (s.takenFlag targetIndex).reset
    resets := s.resets ++ [(targetIndex, (s.takenFlag targetIndex).counter)] }

/-- The `Image_Data` a message of the camera points to; the pointers of other modules are
to other memory. -/
def CameraState.imageAt (s : CameraState) (msg : CommonMsg) : Option CameraData :=
  match msg.srcModule, msg.data with
  | .v4l2, .address a => if h : a < v4l2BufCount then some (s.cameraData ⟨a, h⟩) else none
  | _, _ => none

/-- `V4L2_msg_release_handler`. -/
def v4l2MsgReleaseHandler (s : CameraState) (msg : CommonMsg) : CameraState :=
  match s.imageAt msg with
  | none => s
  | some data =>
    if h : data.index.toNat < v4l2BufCount then resetImageTakenFlag s ⟨data.index.toNat, h⟩
    else s

/-- The release handler of the source, if it is the camera's. -/
def cameraRelease (s : CameraState) (msg : CommonMsg) : CameraState :=
  if msg.srcModule = .v4l2 then v4l2MsgReleaseHandler s msg else s

/-- A write into `camera_data[write_index]`. -/
def CameraState.write (s : CameraState) (f : CameraData → CameraData) : CameraState :=
  { s with
    cameraData := Function.update s.cameraData s.writeIndex (f (s.cameraData s.writeIndex))
    overwritten := s.overwritten ++ calls (s.images s.writeIndex) }

/-- Behind `msg_dispatch`, or behind the `#ifdef` of the last one. -/
def CameraState.dispatched (s : CameraState) : Consumer → CameraState
  | .udp => { s with pc := .dispatch .storage }
  | .storage => { s with pc := .clock }
  | .alarm => { s with pc := .qbuf, tsTarget := ⟨s.tsNow.tvSec + 1, s.tsNow.tvNsec⟩ }

/-- The message of `msg_dispatch` to a consumer. -/
def imageMsg (c : Consumer) (latestIndex : Fin v4l2BufCount) : CommonMsg :=
  ⟨.v4l2, c.moduleId, sizeofImageData, .image, .low, .address latestIndex⟩

/-- `msg_dispatch` to a consumer, up to where `msg_send` gives back the lock. -/
def cameraDispatch (s : CameraState) (c : Consumer) (latestIndex : Fin v4l2BufCount) :
    Option CameraState :=
  (msgStep .default s.msg (.send (imageMsg c latestIndex) [])).map fun msg =>
    let t : CameraState :=
      { s with
        msg := msg
        sentFor := Function.update s.sentFor s.msg.nextCall (some ⟨s.buf, s.stamp⟩) }
    if s.msg.queue.count < maxMsgQueueSize then t.dispatched c else { t with pc := .refused c }

/-- `(write_index + 1) % V4L2_BUF_COUNT`. -/
def nextIndex (writeIndex : Fin v4l2BufCount) : Fin v4l2BufCount :=
  ⟨(writeIndex + 1) % v4l2BufCount, Nat.mod_lt _ (by decide)⟩

/-- The test of the counter, with `lock` held. -/
def cameraTest (s : CameraState) : CameraState :=
  if (s.takenFlag s.writeIndex).counter = 0 then
    { s with
      latestIndex := some s.writeIndex
      writeIndex := nextIndex s.writeIndex
      pc := .changeFirst
      published := s.published ++ [(s.writeIndex, (s.images s.writeIndex).length)] }
  else { s with pc := .qbuf }

/-- `ts_now` has reached `ts_target`. -/
def Timespec.reached (now target : Timespec) : Bool :=
  now.tvSec > target.tvSec ∨ (now.tvSec = target.tvSec ∧ now.tvNsec ≥ target.tvNsec)

/-- A step of `camera_capture_thread` that needs nothing from outside. -/
def cameraNext (s : CameraState) : Option CameraState :=
  match s.pc with
  | .memcpy =>
    some { s.write fun d => { d with data := writeAt d.data 0 s.buf.bytes } with pc := .setLen }
  | .setLen =>
    some { s.write fun d => { d with len := s.buf.bytesused } with pc := .setTimestamps }
  | .test => some (cameraTest s)
  | .changeFirst =>
    s.latestIndex.map fun i => { changeImageTakenFlag s i with pc := .changeSecond }
  | .changeSecond =>
    s.latestIndex.map fun i => { changeImageTakenFlag s i with pc := .dispatch .udp }
  | .dispatch c => s.latestIndex.bind fun i => cameraDispatch s c i
  | .changeAlarm =>
    s.latestIndex.map fun i => { changeImageTakenFlag s i with pc := .dispatch .alarm }
  | .qbuf => some { s with pc := .dqbuf }
  | _ => none

/-- The fields `udp_msg_handler`, `storage_msg_handler` and `alarm_msg_handler` read, in
order; `udp_msg_handler` reads nothing while the last image is being sent. -/
def handlerReads (msg : CommonMsg) (isSending : Bool) : List ImageField :=
  if msg.msgType = .image then
    match msg.dstModule with
    | .udp => if isSending then [] else [.len, .data]
    | .storage => [.data, .len, .timestamps]
    | .alarm => [.data, .len]
    | _ => []
  else []

/-- A field of an image, as a handler copies it. -/
def CameraData.read (d : CameraData) : ImageField → Copied
  | .data => .data (d.data.take d.len.toNat)
  | .len => .len d.len
  | .timestamps => .timestamps d.timestamps

/-- What can happen: a frame is dequeued, the camera thread reads one of the clocks or
makes another step, a handler is called, reads a field of the image or returns, and
the other steps of the message system. -/
inductive CameraAction
  | frame (buf : V4l2Buffer)
  | gettimeUs (now : UInt64)
  | clockGettime (now : Timespec)
  | next
  | register (m : ModuleId)
  | send (msg : CommonMsg) (bytes : List UInt8)
  | releaseRefused (i : ℕ)
  | receive
  | handle (isSending : Bool)
  | read
  | handlerReturn
  | release

/-- A step of the message system alone. -/
def CameraState.msgOnly (s : CameraState) (a : MsgAction) : Option CameraState :=
  (msgStep .default s.msg a).map fun msg => { s with msg := msg }

/-- One step. -/
def cameraStep (s : CameraState) : CameraAction → Option CameraState
  | .frame buf => if s.pc = .dqbuf then some { s with buf := buf, pc := .memcpy } else none
  | .gettimeUs now =>
    if s.pc = .setTimestamps then
      some { s.write fun d => { d with timestamps := now } with stamp := now, pc := .test }
    else none
  | .clockGettime now =>
    if s.pc = .clock then
      some { s with tsNow := now, pc := if now.reached s.tsTarget then .changeAlarm else .qbuf }
    else none
  | .next => cameraNext s
  | .register m => s.msgOnly (.register m)
  -- no other thread sends in the camera's name
  | .send msg bytes => if msg.srcModule = .v4l2 then none else s.msgOnly (.send msg bytes)
  | .releaseRefused i =>
    s.msg.refusing[i]?.bind fun e =>
      (s.msgOnly (.releaseRefused i)).bind fun t =>
        if e.arg.srcModule = .v4l2 then
          match s.pc with
          | .refused c => some ((v4l2MsgReleaseHandler t e.arg).dispatched c)
          | _ => none
        else some t
  | .receive => s.msgOnly .receive
  | .handle isSending =>
    match s.msg.current with
    | some (.fetched, e) =>
      (s.msgOnly .handle).map fun t =>
        { t with
          reads := if e.queued.srcModule = .v4l2 then handlerReads e.queued isSending else [] }
    | _ => none
  | .read =>
    match s.msg.current, s.reads with
    | some (.serving, e), field :: reads =>
      (s.imageAt e.queued).map fun d =>
        { s with reads := reads, copies := s.copies ++ [(e.call, d.read field)] }
    | _, _ => none
  | .handlerReturn => if s.reads = [] then s.msgOnly .handlerReturn else none
  | .release =>
    match s.msg.current with
    | some (.leaving, e) => (s.msgOnly .release).map fun t => cameraRelease t e.queued
    | _ => none

/-- The camera with the message system. -/
def cameraSystem (ts : Timespec) : TransitionSystem CameraState CameraAction :=
  ⟨.init ts, cameraStep⟩

/-! ### What a step can do -/

/-- Everything a step can do to a state. -/
inductive CameraStep (s : CameraState) : CameraAction → CameraState → Prop
  | frame (buf : V4l2Buffer) (hpc : s.pc = .dqbuf) :
      CameraStep s (.frame buf) { s with buf := buf, pc := .memcpy }
  | memcpy (hpc : s.pc = .memcpy) : CameraStep s .next
      { s.write fun d => { d with data := writeAt d.data 0 s.buf.bytes } with pc := .setLen }
  | setLen (hpc : s.pc = .setLen) : CameraStep s .next
      { s.write fun d => { d with len := s.buf.bytesused } with pc := .setTimestamps }
  | setTimestamps (now : UInt64) (hpc : s.pc = .setTimestamps) : CameraStep s (.gettimeUs now)
      { s.write fun d => { d with timestamps := now } with stamp := now, pc := .test }
  | publish (hpc : s.pc = .test) (hfree : (s.takenFlag s.writeIndex).counter = 0) :
      CameraStep s .next
        { s with
          latestIndex := some s.writeIndex
          writeIndex := nextIndex s.writeIndex
          pc := .changeFirst
          published := s.published ++ [(s.writeIndex, (s.images s.writeIndex).length)] }
  | taken (hpc : s.pc = .test) (htaken : (s.takenFlag s.writeIndex).counter ≠ 0) :
      CameraStep s .next { s with pc := .qbuf }
  | change (i : Fin v4l2BufCount) (pc : CameraPc) (hi : s.latestIndex = some i)
      (hpc : (s.pc = .changeFirst ∧ pc = .changeSecond) ∨
        (s.pc = .changeSecond ∧ pc = .dispatch .udp) ∨
        (s.pc = .changeAlarm ∧ pc = .dispatch .alarm)) :
      CameraStep s .next { changeImageTakenFlag s i with pc := pc }
  | accept (c : Consumer) (i : Fin v4l2BufCount) (m : MsgState) (hpc : s.pc = .dispatch c)
      (hi : s.latestIndex = some i) (hroom : s.msg.queue.count < maxMsgQueueSize)
      (hm : msgStep .default s.msg (.send (imageMsg c i) []) = some m) :
      CameraStep s .next
        (({ s with
            msg := m
            sentFor := Function.update s.sentFor s.msg.nextCall (some ⟨s.buf, s.stamp⟩)
          } : CameraState).dispatched c)
  | refuse (c : Consumer) (i : Fin v4l2BufCount) (m : MsgState) (hpc : s.pc = .dispatch c)
      (hi : s.latestIndex = some i) (hfull : ¬ s.msg.queue.count < maxMsgQueueSize)
      (hm : msgStep .default s.msg (.send (imageMsg c i) []) = some m) :
      CameraStep s .next
        { s with
          msg := m
          sentFor := Function.update s.sentFor s.msg.nextCall (some ⟨s.buf, s.stamp⟩)
          pc := .refused c }
  | clock (now : Timespec) (hpc : s.pc = .clock) : CameraStep s (.clockGettime now)
      { s with tsNow := now, pc := if now.reached s.tsTarget then .changeAlarm else .qbuf }
  | qbuf (hpc : s.pc = .qbuf) : CameraStep s .next { s with pc := .dqbuf }
  | register (id : ModuleId) (m : MsgState) (hm : msgStep .default s.msg (.register id) = some m) :
      CameraStep s (.register id) { s with msg := m }
  | send (msg : CommonMsg) (bytes : List UInt8) (m : MsgState) (hsrc : msg.srcModule ≠ .v4l2)
      (hm : msgStep .default s.msg (.send msg bytes) = some m) :
      CameraStep s (.send msg bytes) { s with msg := m }
  | releaseRefused (i : ℕ) (e : Entry) (m : MsgState) (he : s.msg.refusing[i]? = some e)
      (hsrc : e.arg.srcModule ≠ .v4l2) (hm : msgStep .default s.msg (.releaseRefused i) = some m) :
      CameraStep s (.releaseRefused i) { s with msg := m }
  | releaseOwn (i : ℕ) (e : Entry) (c : Consumer) (m : MsgState)
      (he : s.msg.refusing[i]? = some e) (hsrc : e.arg.srcModule = .v4l2)
      (hpc : s.pc = .refused c) (hm : msgStep .default s.msg (.releaseRefused i) = some m) :
      CameraStep s (.releaseRefused i)
        ((v4l2MsgReleaseHandler { s with msg := m } e.arg).dispatched c)
  | receive (m : MsgState) (hm : msgStep .default s.msg .receive = some m) :
      CameraStep s .receive { s with msg := m }
  | handle (isSending : Bool) (e : Entry) (m : MsgState)
      (hc : s.msg.current = some (.fetched, e)) (hm : msgStep .default s.msg .handle = some m) :
      CameraStep s (.handle isSending)
        { s with
          msg := m
          reads := if e.queued.srcModule = .v4l2 then handlerReads e.queued isSending else [] }
  | read (e : Entry) (field : ImageField) (reads : List ImageField) (d : CameraData)
      (hc : s.msg.current = some (.serving, e)) (hreads : s.reads = field :: reads)
      (hd : s.imageAt e.queued = some d) :
      CameraStep s .read { s with reads := reads, copies := s.copies ++ [(e.call, d.read field)] }
  | handlerReturn (m : MsgState) (hreads : s.reads = [])
      (hm : msgStep .default s.msg .handlerReturn = some m) :
      CameraStep s .handlerReturn { s with msg := m }
  | release (e : Entry) (m : MsgState) (hc : s.msg.current = some (.leaving, e))
      (hm : msgStep .default s.msg .release = some m) :
      CameraStep s .release (cameraRelease { s with msg := m } e.queued)

theorem msgOnly_eq_some {s t : CameraState} {a : MsgAction} (h : s.msgOnly a = some t) :
    ∃ m, msgStep .default s.msg a = some m ∧ t = { s with msg := m } := by
  rw [CameraState.msgOnly, Option.map_eq_some_iff] at h
  obtain ⟨m, hm, rfl⟩ := h
  exact ⟨m, hm, rfl⟩

theorem cameraDispatch_cases {s t : CameraState} {c : Consumer} {i : Fin v4l2BufCount}
    (hpc : s.pc = .dispatch c) (hi : s.latestIndex = some i)
    (h : cameraDispatch s c i = some t) : CameraStep s .next t := by
  rw [cameraDispatch, Option.map_eq_some_iff] at h
  obtain ⟨m, hm, rfl⟩ := h
  dsimp only
  split_ifs with hroom
  · exact .accept c i m hpc hi hroom hm
  · exact .refuse c i m hpc hi hroom hm

theorem cameraNext_cases {s t : CameraState} (h : cameraNext s = some t) :
    CameraStep s .next t := by
  rw [cameraNext] at h
  split at h
  · next hpc =>
    rw [Option.some_inj] at h
    exact h ▸ .memcpy hpc
  · next hpc =>
    rw [Option.some_inj] at h
    exact h ▸ .setLen hpc
  · next hpc =>
    rw [Option.some_inj, cameraTest] at h
    split_ifs at h with hfree
    · exact h ▸ .publish hpc hfree
    · exact h ▸ .taken hpc hfree
  · next hpc =>
    rw [Option.map_eq_some_iff] at h
    obtain ⟨i, hi, rfl⟩ := h
    exact .change i _ hi (.inl ⟨hpc, rfl⟩)
  · next hpc =>
    rw [Option.map_eq_some_iff] at h
    obtain ⟨i, hi, rfl⟩ := h
    exact .change i _ hi (.inr (.inl ⟨hpc, rfl⟩))
  · next c hpc =>
    rw [Option.bind_eq_some_iff] at h
    obtain ⟨i, hi, h⟩ := h
    exact cameraDispatch_cases hpc hi h
  · next hpc =>
    rw [Option.map_eq_some_iff] at h
    obtain ⟨i, hi, rfl⟩ := h
    exact .change i _ hi (.inr (.inr ⟨hpc, rfl⟩))
  · next hpc =>
    rw [Option.some_inj] at h
    exact h ▸ .qbuf hpc
  · simp at h

theorem cameraStep_cases {s t : CameraState} {a : CameraAction} (h : cameraStep s a = some t) :
    CameraStep s a t := by
  cases a with
  | frame buf =>
    simp only [cameraStep] at h
    split_ifs at h with hpc
    rw [Option.some_inj] at h
    exact h ▸ .frame buf hpc
  | gettimeUs now =>
    simp only [cameraStep] at h
    split_ifs at h with hpc
    rw [Option.some_inj] at h
    exact h ▸ .setTimestamps now hpc
  | clockGettime now =>
    simp only [cameraStep] at h
    by_cases hpc : s.pc = .clock
    · rw [if_pos hpc, Option.some_inj] at h
      exact h ▸ .clock now hpc
    · rw [if_neg hpc] at h
      simp at h
  | next => exact cameraNext_cases h
  | register id =>
    obtain ⟨m, hm, rfl⟩ := msgOnly_eq_some h
    exact .register id m hm
  | send msg bytes =>
    simp only [cameraStep] at h
    split_ifs at h with hsrc
    obtain ⟨m, hm, rfl⟩ := msgOnly_eq_some h
    exact .send msg bytes m hsrc hm
  | releaseRefused i =>
    simp only [cameraStep, Option.bind_eq_some_iff] at h
    obtain ⟨e, he, u, hu, h⟩ := h
    obtain ⟨m, hm, rfl⟩ := msgOnly_eq_some hu
    split_ifs at h with hsrc
    · split at h
      · next c hpc =>
        rw [Option.some_inj] at h
        exact h ▸ .releaseOwn i e c m he hsrc hpc hm
      · simp at h
    · rw [Option.some_inj] at h
      exact h ▸ .releaseRefused i e m he hsrc hm
  | receive =>
    obtain ⟨m, hm, rfl⟩ := msgOnly_eq_some h
    exact .receive m hm
  | handle isSending =>
    simp only [cameraStep] at h
    split at h
    · next e hc =>
      rw [Option.map_eq_some_iff] at h
      obtain ⟨u, hu, rfl⟩ := h
      obtain ⟨m, hm, rfl⟩ := msgOnly_eq_some hu
      exact .handle isSending e m hc hm
    · simp at h
  | read =>
    simp only [cameraStep] at h
    split at h
    · next e field reads hc hreads =>
      rw [Option.map_eq_some_iff] at h
      obtain ⟨d, hd, rfl⟩ := h
      exact .read e field reads d hc hreads hd
    · simp at h
  | handlerReturn =>
    simp only [cameraStep] at h
    split_ifs at h with hreads
    obtain ⟨m, hm, rfl⟩ := msgOnly_eq_some h
    exact .handlerReturn m hreads hm
  | release =>
    simp only [cameraStep] at h
    split at h
    · next e hc =>
      rw [Option.map_eq_some_iff] at h
      obtain ⟨u, hu, rfl⟩ := h
      obtain ⟨m, hm, rfl⟩ := msgOnly_eq_some hu
      exact .release e m hc hm
    · simp at h

/-! ### The parts a step leaves alone -/

@[simp] theorem dispatched_msg (s : CameraState) (c : Consumer) :
    (s.dispatched c).msg = s.msg := by
  cases c <;> rfl

@[simp] theorem dispatched_latestIndex (s : CameraState) (c : Consumer) :
    (s.dispatched c).latestIndex = s.latestIndex := by
  cases c <;> rfl

@[simp] theorem dispatched_takenFlag (s : CameraState) (c : Consumer) :
    (s.dispatched c).takenFlag = s.takenFlag := by
  cases c <;> rfl

@[simp] theorem dispatched_cameraData (s : CameraState) (c : Consumer) :
    (s.dispatched c).cameraData = s.cameraData := by
  cases c <;> rfl

/-- Where `msg_dispatch` to a consumer leads. -/
def Consumer.next : Consumer → CameraPc
  | udp => .dispatch .storage
  | storage => .clock
  | alarm => .qbuf

@[simp] theorem dispatched_pc (s : CameraState) (c : Consumer) :
    (s.dispatched c).pc = c.next := by
  cases c <;> rfl

/-- The release handler leaves everything but the flags and the history of resets. -/
theorem v4l2MsgReleaseHandler_eq (s : CameraState) (msg : CommonMsg) : ∃ takenFlag resets,
    v4l2MsgReleaseHandler s msg = { s with takenFlag := takenFlag, resets := resets } := by
  rw [v4l2MsgReleaseHandler]
  split
  · exact ⟨s.takenFlag, s.resets, rfl⟩
  · split_ifs
    · exact ⟨_, _, rfl⟩
    · exact ⟨s.takenFlag, s.resets, rfl⟩

theorem cameraRelease_eq (s : CameraState) (msg : CommonMsg) : ∃ takenFlag resets,
    cameraRelease s msg = { s with takenFlag := takenFlag, resets := resets } := by
  rw [cameraRelease]
  split_ifs
  · exact v4l2MsgReleaseHandler_eq s msg
  · exact ⟨s.takenFlag, s.resets, rfl⟩

/-- A step is one of the message system, or leaves it alone. -/
theorem CameraStep.msg_step {s t : CameraState} {a : CameraAction} (h : CameraStep s a t) :
    t.msg = s.msg ∨ ∃ b, msgStep .default s.msg b = some t.msg := by
  cases h with
  | accept c i m _ _ _ hm => exact .inr ⟨_, by rw [dispatched_msg]; exact hm⟩
  | refuse c i m _ _ _ hm => exact .inr ⟨_, hm⟩
  | register id m hm => exact .inr ⟨_, hm⟩
  | send msg bytes m _ hm => exact .inr ⟨_, hm⟩
  | releaseRefused i e m _ _ hm => exact .inr ⟨_, hm⟩
  | releaseOwn i e c m _ _ _ hm =>
    obtain ⟨takenFlag, resets, heq⟩ := v4l2MsgReleaseHandler_eq { s with msg := m } e.arg
    exact .inr ⟨_, by rw [dispatched_msg, heq]; exact hm⟩
  | receive m hm => exact .inr ⟨_, hm⟩
  | handle isSending e m _ hm => exact .inr ⟨_, hm⟩
  | handlerReturn m _ hm => exact .inr ⟨_, hm⟩
  | release e m _ hm =>
    obtain ⟨takenFlag, resets, heq⟩ := cameraRelease_eq { s with msg := m } e.queued
    exact .inr ⟨_, by rw [heq]; exact hm⟩
  | _ => exact .inl rfl

/-- The camera runs on the message system. -/
theorem msg_reachable {ts : Timespec} {s : CameraState} (hs : (cameraSystem ts).Reachable s) :
    (msgSystem .default).Reachable s.msg := by
  refine TransitionSystem.Via.map CameraState.msg rfl ?_ hs
  intro s a t _ _ ht
  rcases (cameraStep_cases ht).msg_step with hm | ⟨b, hm⟩
  · exact .inl hm
  · exact .inr ⟨b, trivial, hm⟩

/-! ### The messages of the camera -/

/-- The messages of the camera that are queued or being handled. -/
def cameraLive (m : MsgState) : List Entry := m.live.filter fun e => e.queued.srcModule = .v4l2

/-- The messages of the camera that found the queue full and have yet to be released. -/
def cameraRefusing (m : MsgState) : List Entry :=
  m.refusing.filter fun e => e.arg.srcModule = .v4l2

theorem images_eq (s : CameraState) (i : Fin v4l2BufCount) :
    s.images i = (cameraLive s.msg).filter fun e => imageFor i e.queued := by
  rw [CameraState.images, cameraLive, List.filter_filter]
  refine List.filter_congr ?_
  intro e _
  by_cases hsrc : e.queued.srcModule = .v4l2 <;> simp [imageFor, hsrc]

theorem filter_eraseIdx {α : Type} {l : List α} {i : ℕ} {x : α} (h : l[i]? = some x)
    (p : α → Bool) : ∃ front back, l.filter p = front ++ ([x].filter p ++ back) ∧
      (l.eraseIdx i).filter p = front ++ back := by
  obtain ⟨hi, rfl⟩ := List.getElem?_eq_some_iff.mp h
  refine ⟨(l.take i).filter p, (l.drop (i + 1)).filter p, ?_, ?_⟩
  · rw [← List.filter_append, ← List.filter_append, List.singleton_append,
      ← List.drop_eq_getElem_cons hi, List.take_append_drop]
  · rw [List.eraseIdx_eq_take_drop_succ, List.filter_append]

/-- The queue takes a message that is no log as it is. -/
theorem acceptedEntry_image (m : MsgState) (c : Consumer) (i : Fin v4l2BufCount) :
    acceptedEntry m (imageMsg c i) [] = ⟨m.nextCall, imageMsg c i, [], imageMsg c i⟩ := by
  have hlog : ¬ ((imageMsg c i).msgType = .log ∧ (imageMsg c i).data ≠ .null) := by
    simp [imageMsg]
  rw [acceptedEntry, prepare_of_not_log m.ring [] hlog]

theorem srcModule_prepare (ring : LogRing) (msg : CommonMsg) (bytes : List UInt8) :
    (msgPrepareForQueue ring msg bytes).1.srcModule = msg.srcModule := by
  rw [msgPrepareForQueue]
  split_ifs <;> rfl

/-- The other senders leave the messages of the camera alone. -/
theorem camera_send {m m' : MsgState} {msg : CommonMsg} {bytes : List UInt8}
    (h : msgStep .default m (.send msg bytes) = some m') (hsrc : msg.srcModule ≠ .v4l2) :
    cameraLive m' = cameraLive m ∧ cameraRefusing m' = cameraRefusing m := by
  have hlive := live_msgStep (msgStep_cases h)
  dsimp only at hlive
  split_ifs at hlive with hroom
  · rw [cameraLive, cameraRefusing, hlive.1, hlive.2, List.filter_append]
    simp [acceptedEntry, srcModule_prepare, hsrc, cameraLive, cameraRefusing]
  · rw [cameraLive, cameraRefusing, hlive.1, hlive.2, List.filter_append]
    simp [hsrc, cameraLive, cameraRefusing]

theorem camera_releaseRefused {build : Build} {m m' : MsgState} {i : ℕ} {e : Entry}
    (h : msgStep build m (.releaseRefused i) = some m') (he : m.refusing[i]? = some e)
    (hsrc : e.arg.srcModule ≠ .v4l2) :
    cameraLive m' = cameraLive m ∧ cameraRefusing m' = cameraRefusing m := by
  obtain ⟨hlive, hrefusing⟩ := perm_live_msgStep (msgStep_cases h)
  obtain ⟨front, back, hall, hrest⟩ :=
    filter_eraseIdx he fun e : Entry => e.arg.srcModule = .v4l2
  rw [cameraLive, cameraRefusing, hlive, hrefusing, cameraRefusing, hall, hrest]
  simp [hsrc, cameraLive]

/-- With one message of the camera at most that found the queue full, its release leaves none. -/
theorem cameraRefusing_eraseIdx {m m' : MsgState} {i : ℕ} {e : Entry} {own : List CommonMsg}
    (he : m.refusing[i]? = some e) (hsrc : e.arg.srcModule = .v4l2)
    (hm : m'.refusing = m.refusing.eraseIdx i) (hone : own.length ≤ 1)
    (hown : (cameraRefusing m).map Entry.arg = own) :
    own = [e.arg] ∧ cameraRefusing m' = [] := by
  obtain ⟨front, back, hall, hrest⟩ :=
    filter_eraseIdx he fun e : Entry => e.arg.srcModule = .v4l2
  rw [List.filter_cons_of_pos (by simpa using hsrc), List.filter_nil] at hall
  rw [cameraRefusing, hall] at hown
  have hlen := congrArg List.length hown
  simp only [List.length_append, List.length_map, List.length_cons, List.length_nil] at hlen
  obtain rfl : front = [] := List.eq_nil_of_length_eq_zero (by omega)
  obtain rfl : back = [] := List.eq_nil_of_length_eq_zero (by omega)
  refine ⟨hown.symm, ?_⟩
  rw [cameraRefusing, hm, hrest]
  rfl

theorem camera_dispatch {m m' : MsgState} {c : Consumer} {i : Fin v4l2BufCount}
    (h : msgStep .default m (.send (imageMsg c i) []) = some m') :
    if m.queue.count < maxMsgQueueSize then
      cameraLive m' = cameraLive m ++ [⟨m.nextCall, imageMsg c i, [], imageMsg c i⟩] ∧
        cameraRefusing m' = cameraRefusing m
    else
      cameraLive m' = cameraLive m ∧
        cameraRefusing m' = cameraRefusing m ++ [⟨m.nextCall, imageMsg c i, [], imageMsg c i⟩] := by
  have hlive := live_msgStep (msgStep_cases h)
  dsimp only at hlive
  split_ifs at hlive ⊢ with hroom
  · rw [acceptedEntry_image] at hlive
    rw [cameraLive, cameraRefusing, hlive.1, hlive.2, List.filter_append]
    simp [imageMsg, cameraLive, cameraRefusing]
  · rw [cameraLive, cameraRefusing, hlive.1, hlive.2, List.filter_append]
    simp [imageMsg, cameraLive, cameraRefusing]

theorem camera_release {build : Build} {m m' : MsgState} {e : Entry}
    (h : msgStep build m .release = some m') (hc : m.current = some (.leaving, e)) :
    cameraLive m = ([e].filter fun e => e.queued.srcModule = .v4l2) ++ cameraLive m' ∧
      cameraRefusing m' = cameraRefusing m := by
  obtain ⟨x, hx, hlive, hrefusing⟩ := perm_live_msgStep (msgStep_cases h)
  rw [hc, Option.some_inj, Prod.mk.injEq] at hx
  obtain ⟨-, rfl⟩ := hx
  rw [cameraLive, hlive, cameraLive, ← List.filter_append, cameraRefusing, hrefusing]
  exact ⟨rfl, rfl⟩

/-- Nor does the deliver thread change them before the release. -/
theorem camera_quiet {m m' : MsgState}
    (h : m'.live = m.live ∧ m'.refusing = m.refusing) :
    cameraLive m' = cameraLive m ∧ cameraRefusing m' = cameraRefusing m := by
  rw [cameraLive, cameraRefusing, h.1, h.2]
  exact ⟨rfl, rfl⟩

/-! ### The counters are exact -/

/-- The increments made for dispatches not yet performed; one that found the queue full
counts until its message is released. -/
def CameraPc.undispatched : CameraPc → ℕ
  | changeSecond => 1
  | dispatch .udp => 2
  | dispatch _ => 1
  | refused .udp => 2
  | refused _ => 1
  | _ => 0

/-- The increments made for buffer `i` for dispatches not yet performed. -/
def CameraState.undispatched (s : CameraState) (i : Fin v4l2BufCount) : ℕ :=
  if s.latestIndex = some i then s.pc.undispatched else 0

/-- The references to buffer `i`. -/
def CameraState.references (s : CameraState) (i : Fin v4l2BufCount) : ℕ :=
  (s.images i).length + s.undispatched i

/-- The message the camera thread has yet to release, inside `msg_send`. -/
def CameraState.ownRefused (s : CameraState) : List CommonMsg :=
  match s.pc, s.latestIndex with
  | .refused c, some i => [imageMsg c i]
  | _, _ => []

/-- The invariant of the counters. -/
structure CameraInv (s : CameraState) : Prop where
  index_eq : ∀ i, (s.cameraData i).index = UInt8.ofNat i
  live_eq : ∀ e ∈ cameraLive s.msg, ∃ c i, e.queued = imageMsg c i
  refusing_eq : (cameraRefusing s.msg).map Entry.arg = s.ownRefused
  counter_eq : ∀ i, (s.takenFlag i).counter = s.references i
  reset_pos : ∀ r ∈ s.resets, 0 < r.2
  published_free : ∀ r ∈ s.published, r.2 = 0

theorem undispatched_of_latest {s : CameraState} {j : Fin v4l2BufCount}
    (hj : s.latestIndex = some j) (i : Fin v4l2BufCount) :
    s.undispatched i = if i = j then s.pc.undispatched else 0 := by
  simp only [CameraState.undispatched, hj, Option.some_inj, eq_comm]

theorem undispatched_of_pc {s : CameraState} (h : s.pc.undispatched = 0) (i : Fin v4l2BufCount) :
    s.undispatched i = 0 := by
  rw [CameraState.undispatched, h, ite_self]

theorem imageFor_imageMsg (c : Consumer) (i j : Fin v4l2BufCount) :
    imageFor i (imageMsg c j) = decide (i = j) := by
  simp [imageFor, imageMsg, Fin.ext_iff, eq_comm]

theorem references_of_latest {s : CameraState} {j : Fin v4l2BufCount}
    (hj : s.latestIndex = some j) (i : Fin v4l2BufCount) :
    s.references i = (s.images i).length + if i = j then s.pc.undispatched else 0 := by
  rw [CameraState.references, undispatched_of_latest hj]

/-- A step that changes no counter changes no number of references. -/
theorem CameraInv.keep {s t : CameraState} (h : CameraInv s)
    (hdata : ∀ i, (t.cameraData i).index = (s.cameraData i).index)
    (hlive : ∀ e ∈ cameraLive t.msg, ∃ c i, e.queued = imageMsg c i)
    (hown : (cameraRefusing t.msg).map Entry.arg = t.ownRefused)
    (hflag : t.takenFlag = s.takenFlag) (href : ∀ i, t.references i = s.references i)
    (hhist : t.resets = s.resets ∧ t.published = s.published) : CameraInv t := by
  refine ⟨fun i => (hdata i).trans (h.index_eq i), hlive, hown, ?_, hhist.1 ▸ h.reset_pos,
    hhist.2 ▸ h.published_free⟩
  intro i
  rw [hflag, href]
  exact h.counter_eq i

/-- Only the messages of the camera, the flags and the place of the camera thread
matter. -/
theorem CameraInv.congr {s t : CameraState} (h : CameraInv s)
    (hdata : ∀ i, (t.cameraData i).index = (s.cameraData i).index)
    (hmsg : cameraLive t.msg = cameraLive s.msg ∧ cameraRefusing t.msg = cameraRefusing s.msg)
    (hflag : t.takenFlag = s.takenFlag) (hlatest : t.latestIndex = s.latestIndex)
    (hpc : t.pc.undispatched = s.pc.undispatched) (hown : t.ownRefused = s.ownRefused)
    (hhist : t.resets = s.resets ∧ t.published = s.published) : CameraInv t := by
  refine h.keep hdata (hmsg.1 ▸ h.live_eq) ?_ hflag ?_ hhist
  · rw [hmsg.2, hown, h.refusing_eq]
  · intro i
    rw [CameraState.references, CameraState.references, images_eq, images_eq, hmsg.1,
      CameraState.undispatched, CameraState.undispatched, hlatest, hpc]

/-- A step of the message system that leaves the messages of the camera alone. -/
theorem CameraInv.msgOnly {s : CameraState} {m : MsgState} (h : CameraInv s)
    (hmsg : cameraLive m = cameraLive s.msg ∧ cameraRefusing m = cameraRefusing s.msg) :
    CameraInv { s with msg := m } :=
  h.congr (fun _ => rfl) hmsg rfl rfl rfl rfl ⟨rfl, rfl⟩

theorem index_write (s : CameraState) (f : CameraData → CameraData)
    (hf : ∀ d, (f d).index = d.index) (i : Fin v4l2BufCount) :
    ((s.write f).cameraData i).index = (s.cameraData i).index := by
  show (Function.update s.cameraData s.writeIndex (f (s.cameraData s.writeIndex)) i).index = _
  rw [Function.update_apply]
  split_ifs with hi
  · rw [hf, hi]
  · rfl

theorem imageAt_imageMsg (s : CameraState) (c : Consumer) (i : Fin v4l2BufCount) :
    s.imageAt (imageMsg c i) = some (s.cameraData i) :=
  dif_pos i.isLt

/-- The release handler gives a reference of the buffer of the message back. -/
theorem v4l2MsgReleaseHandler_imageMsg {s : CameraState}
    (hindex : ∀ i, (s.cameraData i).index = UInt8.ofNat i) (c : Consumer) (i : Fin v4l2BufCount) :
    v4l2MsgReleaseHandler s (imageMsg c i) = resetImageTakenFlag s i := by
  have hat := imageAt_imageMsg s c i
  have hlt : i.val < 2 := i.isLt
  have hnat : (s.cameraData i).index.toNat = i := by
    rw [hindex i, UInt8.toNat_ofNat']
    omega
  rw [v4l2MsgReleaseHandler, hat]
  dsimp only
  rw [dif_pos (by rw [hnat]; exact i.isLt)]
  congr 1
  exact Fin.ext hnat

/-- A reset of a flag whose counter is not 0. -/
theorem counter_reset {f : TakenFlag} {n : ℕ} (h : f.counter = n + 1) : f.reset.counter = n := by
  show (if f.counter > 0 then f.counter - 1 else f.counter) = n
  rw [if_pos (by omega), h, Nat.add_sub_cancel]

/-- A reference to buffer `j` is given back. -/
theorem CameraInv.giveBack {s t : CameraState} {j : Fin v4l2BufCount} (h : CameraInv s)
    (hdata : t.cameraData = s.cameraData)
    (hlive : ∀ e ∈ cameraLive t.msg, e ∈ cameraLive s.msg)
    (hown : (cameraRefusing t.msg).map Entry.arg = t.ownRefused)
    (hflag : t.takenFlag = Function.update s.takenFlag j (s.takenFlag j).reset)
    (hresets : t.resets = s.resets ++ [(j, (s.takenFlag j).counter)])
    (hpub : t.published = s.published)
    (href : ∀ i, s.references i = t.references i + if i = j then 1 else 0) : CameraInv t := by
  have hcount : (s.takenFlag j).counter = t.references j + 1 := by
    have hj := href j
    rw [if_pos rfl] at hj
    exact (h.counter_eq j).trans hj
  refine ⟨fun i => hdata ▸ h.index_eq i, fun e he => h.live_eq e (hlive e he), hown, ?_, ?_,
    hpub ▸ h.published_free⟩
  · intro i
    rw [hflag, Function.update_apply]
    split_ifs with hi
    · rw [hi]
      exact counter_reset hcount
    · have hother := href i
      rw [if_neg hi, Nat.add_zero] at hother
      exact (h.counter_eq i).trans hother
  · intro r hr
    rw [hresets, List.mem_append, List.mem_singleton] at hr
    rcases hr with hr | rfl
    · exact h.reset_pos r hr
    · show 0 < (s.takenFlag j).counter
      omega

/-- One more message of the camera is one more image, if it is for this buffer. -/
theorem length_images_cons {s t : CameraState} {e : Entry}
    (hlive : (cameraLive t.msg).Perm (e :: cameraLive s.msg)) (i : Fin v4l2BufCount) :
    (t.images i).length = (s.images i).length + if imageFor i e.queued then 1 else 0 := by
  have hperm := (hlive.filter fun e => imageFor i e.queued).length_eq
  rw [images_eq, images_eq, hperm, List.filter_cons]
  split_ifs <;> rfl

theorem length_images_perm {s t : CameraState} {c : Consumer} {j : Fin v4l2BufCount}
    {e : Entry} (hlive : (cameraLive t.msg).Perm (e :: cameraLive s.msg))
    (he : e.queued = imageMsg c j) (i : Fin v4l2BufCount) :
    (t.images i).length = (s.images i).length + if i = j then 1 else 0 := by
  rw [length_images_cons hlive, he, imageFor_imageMsg]
  simp only [decide_eq_true_eq]

/-- A dispatch that finds room turns a reference of the camera thread into one of the
queue; one that does not leaves it to the camera thread. -/
theorem CameraInv.dispatch {s t : CameraState} {c : Consumer} {j : Fin v4l2BufCount}
    (h : CameraInv s) (hdata : t.cameraData = s.cameraData)
    (hm : msgStep .default s.msg (.send (imageMsg c j) []) = some t.msg)
    (hflag : t.takenFlag = s.takenFlag) (hhist : t.resets = s.resets ∧ t.published = s.published)
    (hpc : s.pc = .dispatch c) (hj : s.latestIndex = some j) (hlatest : t.latestIndex = some j)
    (hnext : t.pc = if s.msg.queue.count < maxMsgQueueSize then c.next else .refused c) :
    CameraInv t := by
  have hnone : (cameraRefusing s.msg).map Entry.arg = [] := by
    rw [h.refusing_eq, CameraState.ownRefused, hpc]
  have hsend := camera_dispatch hm
  split_ifs at hsend hnext with hroom
  · refine h.keep (fun i => congrArg CameraData.index (congrFun hdata i)) ?_ ?_ hflag ?_ hhist
    · intro e he
      rw [hsend.1, List.mem_append, List.mem_singleton] at he
      rcases he with he | rfl
      · exact h.live_eq e he
      · exact ⟨c, j, rfl⟩
    · rw [hsend.2, hnone, CameraState.ownRefused, hnext]
      cases c <;> rfl
    · intro i
      have hpred : s.pc.undispatched = c.next.undispatched + 1 := by
        rw [hpc]
        cases c <;> rfl
      rw [references_of_latest hlatest, references_of_latest hj,
        length_images_perm (hsend.1 ▸ List.perm_append_singleton _ _) rfl, hnext, hpred]
      split_ifs <;> omega
  · refine h.keep (fun i => congrArg CameraData.index (congrFun hdata i)) (hsend.1 ▸ h.live_eq) ?_
      hflag ?_ hhist
    · rw [hsend.2, List.map_append, hnone, CameraState.ownRefused, hnext, hlatest]
      rfl
    · intro i
      have hsame : s.pc.undispatched = (CameraPc.refused c).undispatched := by
        rw [hpc]
        cases c <;> rfl
      rw [references_of_latest hlatest, references_of_latest hj, images_eq, hsend.1, ← images_eq,
        hnext, hsame]

/-- `Change_Image_Taken_Flag` makes a reference to the buffer published last. -/
theorem CameraInv.change {s t : CameraState} {j : Fin v4l2BufCount} (h : CameraInv s)
    (hdata : t.cameraData = s.cameraData) (hmsg : t.msg = s.msg)
    (hflag : t.takenFlag = Function.update s.takenFlag j ⟨true, (s.takenFlag j).counter + 1⟩)
    (hj : s.latestIndex = some j) (hlatest : t.latestIndex = some j)
    (hpc : t.pc.undispatched = s.pc.undispatched + 1) (hown : t.ownRefused = s.ownRefused)
    (hhist : t.resets = s.resets ∧ t.published = s.published) : CameraInv t := by
  refine ⟨hdata ▸ h.index_eq, hmsg ▸ h.live_eq, ?_, ?_, hhist.1 ▸ h.reset_pos,
    hhist.2 ▸ h.published_free⟩
  · rw [hmsg, hown, h.refusing_eq]
  · intro i
    have hi := h.counter_eq i
    rw [references_of_latest hj] at hi
    rw [references_of_latest hlatest, images_eq, hmsg, ← images_eq, hflag, Function.update_apply]
    split_ifs at hi ⊢ with hij
    · rw [← hij, hi, hpc, Nat.add_assoc]
    · exact hi

/-- The message the camera thread has yet to release is the only one of the camera that found
the queue full. -/
theorem CameraInv.refused_eq {s : CameraState} {m : MsgState} {i : ℕ} {e : Entry} {c : Consumer}
    (h : CameraInv s) (he : s.msg.refusing[i]? = some e) (hsrc : e.arg.srcModule = .v4l2)
    (hpc : s.pc = .refused c) (hm : m.refusing = s.msg.refusing.eraseIdx i) :
    ∃ j, s.latestIndex = some j ∧ e.arg = imageMsg c j ∧ cameraRefusing m = [] := by
  have hone : s.ownRefused.length ≤ 1 := by
    rw [CameraState.ownRefused]
    split <;> simp
  obtain ⟨hall, hnone⟩ := cameraRefusing_eraseIdx he hsrc hm hone h.refusing_eq
  rw [CameraState.ownRefused, hpc] at hall
  rcases hlatest : s.latestIndex with _ | j
  · rw [hlatest] at hall
    cases hall
  · rw [hlatest] at hall
    exact ⟨j, rfl, (List.singleton_inj.mp hall).symm, hnone⟩

/-- The camera thread releases the message that found the queue full. -/
theorem CameraInv.releaseOwn {s : CameraState} {m : MsgState} {i : ℕ} {e : Entry} {c : Consumer}
    (h : CameraInv s) (he : s.msg.refusing[i]? = some e) (hsrc : e.arg.srcModule = .v4l2)
    (hpc : s.pc = .refused c) (hm : msgStep .default s.msg (.releaseRefused i) = some m) :
    CameraInv ((v4l2MsgReleaseHandler { s with msg := m } e.arg).dispatched c) := by
  obtain ⟨hlive, hrefusing⟩ := live_msgStep (msgStep_cases hm)
  obtain ⟨j, hj, heq, hnone⟩ := h.refused_eq he hsrc hpc hrefusing
  have hreset : v4l2MsgReleaseHandler { s with msg := m } e.arg =
      resetImageTakenFlag { s with msg := m } j := by
    rw [heq]
    exact v4l2MsgReleaseHandler_imageMsg (s := { s with msg := m }) h.index_eq c j
  rw [hreset]
  have hlive' : cameraLive m = cameraLive s.msg := by rw [cameraLive, hlive, cameraLive]
  refine h.giveBack (j := j) (dispatched_cameraData _ c) ?_ ?_ (dispatched_takenFlag _ c) ?_ ?_ ?_
  · rw [dispatched_msg]
    intro x hx
    exact hlive' ▸ hx
  · rw [dispatched_msg]
    refine (congrArg (List.map Entry.arg) hnone).trans ?_
    cases c <;> rfl
  · cases c <;> rfl
  · cases c <;> rfl
  · intro i
    have hlatest : ((resetImageTakenFlag { s with msg := m } j).dispatched c).latestIndex =
        some j := by
      rw [dispatched_latestIndex]
      exact hj
    have hpred : s.pc.undispatched = c.next.undispatched + 1 := by
      rw [hpc]
      cases c <;> rfl
    rw [references_of_latest hj, references_of_latest hlatest, dispatched_pc, hpred, images_eq,
      images_eq, dispatched_msg, ← hlive']
    simp only [resetImageTakenFlag]
    split_ifs <;> omega

/-- The deliver thread releases a message. -/
theorem CameraInv.release {s : CameraState} {m : MsgState} {e : Entry} (h : CameraInv s)
    (hc : s.msg.current = some (.leaving, e)) (hm : msgStep .default s.msg .release = some m) :
    CameraInv (cameraRelease { s with msg := m } e.queued) := by
  obtain ⟨hlive, hrefusing⟩ := camera_release hm hc
  by_cases hsrc : e.queued.srcModule = .v4l2
  · -- a message of the camera: its reference is given back
    rw [List.filter_cons_of_pos (by simpa using hsrc), List.filter_nil] at hlive
    obtain ⟨c, j, heq⟩ := h.live_eq e (hlive ▸ List.mem_cons_self)
    have hreset : cameraRelease { s with msg := m } e.queued =
        resetImageTakenFlag { s with msg := m } j := by
      rw [cameraRelease, if_pos hsrc, heq]
      exact v4l2MsgReleaseHandler_imageMsg (s := { s with msg := m }) h.index_eq c j
    rw [hreset]
    refine h.giveBack (j := j) rfl ?_ ?_ rfl rfl rfl ?_
    · intro x hx
      rw [hlive]
      exact List.mem_cons_of_mem _ hx
    · exact (congrArg (List.map Entry.arg) hrefusing).trans h.refusing_eq
    · intro i
      have himages := length_images_perm (t := s) (s := { s with msg := m })
        (hlive ▸ List.Perm.refl _) heq i
      rw [CameraState.references, himages]
      exact Nat.add_right_comm _ _ _
  · rw [List.filter_cons_of_neg (by simpa using hsrc), List.filter_nil, List.nil_append] at hlive
    rw [cameraRelease, if_neg hsrc]
    exact h.msgOnly ⟨hlive.symm, hrefusing⟩

/-- **One step** keeps the counters exact. -/
theorem CameraInv.step {s t : CameraState} {a : CameraAction} (h : CameraInv s)
    (ht : CameraStep s a t) : CameraInv t := by
  cases ht with
  | frame buf hpc =>
    exact h.congr (fun _ => rfl) ⟨rfl, rfl⟩ rfl rfl (by rw [hpc]; rfl)
      (by simp [CameraState.ownRefused, hpc]) ⟨rfl, rfl⟩
  | memcpy hpc =>
    refine h.congr ?_ ⟨rfl, rfl⟩ rfl rfl (by rw [hpc]; rfl)
      (by simp [CameraState.ownRefused, hpc]) ⟨rfl, rfl⟩
    exact index_write s (fun d => { d with data := writeAt d.data 0 s.buf.bytes }) fun _ => rfl
  | setLen hpc =>
    refine h.congr ?_ ⟨rfl, rfl⟩ rfl rfl (by rw [hpc]; rfl)
      (by simp [CameraState.ownRefused, hpc]) ⟨rfl, rfl⟩
    exact index_write s (fun d => { d with len := s.buf.bytesused }) fun _ => rfl
  | setTimestamps now hpc =>
    refine h.congr ?_ ⟨rfl, rfl⟩ rfl rfl (by rw [hpc]; rfl)
      (by simp [CameraState.ownRefused, hpc]) ⟨rfl, rfl⟩
    exact index_write s (fun d => { d with timestamps := now }) fun _ => rfl
  | publish hpc hfree =>
    -- with the counter at 0 there is no reference to the buffer
    have hrefs := h.counter_eq s.writeIndex
    rw [hfree, CameraState.references] at hrefs
    refine ⟨h.index_eq, h.live_eq, ?_, ?_, h.reset_pos, ?_⟩
    · refine h.refusing_eq.trans ?_
      simp [CameraState.ownRefused, hpc]
    · intro i
      have hi := h.counter_eq i
      rw [CameraState.references, undispatched_of_pc (by rw [hpc]; rfl)] at hi
      rw [CameraState.references, undispatched_of_pc rfl]
      exact hi
    · intro r hr
      rw [List.mem_append, List.mem_singleton] at hr
      rcases hr with hr | rfl
      · exact h.published_free r hr
      · show (s.images s.writeIndex).length = 0
        omega
  | taken hpc htaken =>
    exact h.congr (fun _ => rfl) ⟨rfl, rfl⟩ rfl rfl (by rw [hpc]; rfl)
      (by simp [CameraState.ownRefused, hpc]) ⟨rfl, rfl⟩
  | change j pc hj hpc =>
    refine h.change rfl rfl rfl hj hj ?_ ?_ ⟨rfl, rfl⟩
    · rcases hpc with ⟨hpc, rfl⟩ | ⟨hpc, rfl⟩ | ⟨hpc, rfl⟩ <;> rw [hpc] <;> rfl
    · rcases hpc with ⟨hpc, rfl⟩ | ⟨hpc, rfl⟩ | ⟨hpc, rfl⟩ <;> simp [CameraState.ownRefused, hpc]
  | accept c j m hpc hj hroom hm =>
    refine h.dispatch (c := c) (j := j) (dispatched_cameraData _ c) ?_ (dispatched_takenFlag _ c) ?_
      hpc hj ?_ ?_
    · rw [dispatched_msg]
      exact hm
    · cases c <;> exact ⟨rfl, rfl⟩
    · rw [dispatched_latestIndex]
      exact hj
    · rw [dispatched_pc, if_pos hroom]
  | refuse c j m hpc hj hfull hm =>
    exact h.dispatch rfl hm rfl ⟨rfl, rfl⟩ hpc hj hj (if_neg hfull).symm
  | clock now hpc =>
    refine h.congr (fun _ => rfl) ⟨rfl, rfl⟩ rfl rfl ?_ ?_ ⟨rfl, rfl⟩
    · dsimp only
      rw [hpc]
      split_ifs <;> rfl
    · simp only [CameraState.ownRefused, hpc]
      split_ifs <;> rfl
  | qbuf hpc =>
    exact h.congr (fun _ => rfl) ⟨rfl, rfl⟩ rfl rfl (by rw [hpc]; rfl)
      (by simp [CameraState.ownRefused, hpc]) ⟨rfl, rfl⟩
  | register id m hm =>
    exact h.msgOnly (camera_quiet (live_msgStep (msgStep_cases hm)))
  | send msg bytes m hsrc hm =>
    exact h.msgOnly (camera_send hm hsrc)
  | releaseRefused i e m he hsrc hm =>
    exact h.msgOnly (camera_releaseRefused hm he hsrc)
  | releaseOwn i e c m he hsrc hpc hm => exact h.releaseOwn he hsrc hpc hm
  | receive m hm =>
    exact h.msgOnly (camera_quiet (live_msgStep (msgStep_cases hm)))
  | handle isSending e m hc hm =>
    exact h.congr (fun _ => rfl) (camera_quiet (live_msgStep (msgStep_cases hm))) rfl rfl rfl rfl
      ⟨rfl, rfl⟩
  | read => exact h.congr (fun _ => rfl) ⟨rfl, rfl⟩ rfl rfl rfl rfl ⟨rfl, rfl⟩
  | handlerReturn m _ hm =>
    exact h.msgOnly (camera_quiet (live_msgStep (msgStep_cases hm)))
  | release e m hc hm => exact h.release hc hm

theorem cameraInv_init (ts : Timespec) : CameraInv (.init ts) where
  index_eq := fun _ => rfl
  live_eq := fun e he => absurd he (by simp [cameraLive, CameraState.init, MsgState.init,
    MsgState.live])
  refusing_eq := rfl
  counter_eq := fun i => by simp [CameraState.init, CameraState.references, CameraState.images,
    MsgState.init, MsgState.live, CameraState.undispatched]
  reset_pos := fun r hr => absurd hr (by simp [CameraState.init])
  published_free := fun r hr => absurd hr (by simp [CameraState.init])

/-- The invariant of the counters, along every run. -/
theorem cameraInv {ts : Timespec} {s : CameraState} (hs : (cameraSystem ts).Reachable s) :
    CameraInv s :=
  hs.invariant (cameraInv_init ts) fun _ _ _ h _ ht => h.step (cameraStep_cases ht)

/-- The counters of the buffers are exact. -/
structure CounterLaw (s : CameraState) : Prop where
  /-- a counter is the number of image messages for the buffer that are queued or being
  handled, and of the increments made for dispatches not yet performed -/
  counter_eq : ∀ i, (s.takenFlag i).counter = (s.images i).length + s.undispatched i
  /-- no call of `Reset_Image_Taken_Flag` found a counter at 0 -/
  reset_pos : ∀ r ∈ s.resets, 0 < r.2
  /-- with all its messages released the counter of a buffer is back at 0 -/
  returns : ∀ i, (∀ e ∈ s.msg.accepted, imageFor i e.queued → e.call ∈ s.msg.releases) →
    s.undispatched i = 0 → (s.takenFlag i).counter = 0
  /-- no buffer was published while a message referred to it -/
  published_free : ∀ r ∈ s.published, r.2 = 0

/-- **The reference counters of the camera's buffers are exact**, in every state the camera
thread, the deliver thread and the other senders can reach. -/
theorem counterLaw {ts : Timespec} {s : CameraState} (hs : (cameraSystem ts).Reachable s) :
    CounterLaw s := by
  have hinv := cameraInv hs
  have hmsg := msg_reachable hs
  refine ⟨hinv.counter_eq, hinv.reset_pos, ?_, hinv.published_free⟩
  intro i hreleased hnone
  have hempty : s.images i = [] := by
    refine List.filter_eq_nil_iff.mpr ?_
    intro e he himage
    have hplace : s.msg.accepted = s.msg.finished ++ s.msg.live :=
      (Server.law (server_reachable hmsg)).arrived_eq
    have haccepted : e ∈ s.msg.accepted := hplace ▸ List.mem_append_right _ he
    exact not_released_of_live hmsg he (hreleased e haccepted himage)
  rw [hinv.counter_eq i, CameraState.references, hempty, hnone]
  rfl

/-- A frame of two bytes, captured and dispatched by the camera thread while the queue has
room for one message only; the other two are released by `msg_send`. -/
def crowdedCapture : List CameraAction :=
  List.replicate 31 (.send ⟨.alarm, .storage, 4, .alarm, .low, .address 9⟩ []) ++
    [.frame ⟨[1, 2], by decide⟩, .next, .next, .gettimeUs 5, .next, .next, .next, .next,
      .next, .releaseRefused 0, .clockGettime ⟨3, 0⟩, .next, .next, .receive]

set_option maxRecDepth 4000 in
theorem counterLaw_crowdedCapture : ∃ s,
    (cameraSystem ⟨3, 0⟩).run (.init ⟨3, 0⟩) crowdedCapture = some s ∧
    s.pc = .refused .alarm ∧ (s.takenFlag ⟨0, by decide⟩).counter = 2 ∧ CounterLaw s := by
  refine ⟨_, rfl, rfl, rfl, ?_⟩
  have hrun : (cameraSystem ⟨3, 0⟩).run (CameraState.init ⟨3, 0⟩) crowdedCapture = some _ := rfl
  exact counterLaw (.of_run hrun)

end Sentry
