/-
The frames the consumers copy (`src/v4l2/v4l2_dev.c`).

`camera_capture_thread` writes a frame into `camera_data[write_index]` before it tests the
counter of this buffer.  Whether a frame in use is overwritten depends on the
consumers: the buffer has to be free by the time the copy starts, not by the time
of the test.  An update of a counter is one step here, also in `Change_Image_Taken_Flag`, which
makes it without the lock.

* `CopiesWhenFree` — no copy starts while the counter of its buffer is not 0;
* `FramesKept` — no buffer is written while a message refers to it, and handlers copy
  the frame their message was sent for;
* `framesKept_iff` — the runs with `FramesKept` are those that keep to
  `CopiesWhenFree`;
* `framesKept_lagging` — consumers two frames behind copy the wrong frame.
-/
import SentrySystem.CameraCapture

namespace Sentry

open TransitionSystem

/-- The action is the next step of the camera thread. -/
def CameraAction.isNext : CameraAction → Bool
  | next => true
  | _ => false

/-- The copy of a frame starts only while the counter of `camera_data[write_index]` is 0. -/
def CopiesWhenFree (s : CameraState) (a : CameraAction) : Prop :=
  a.isNext = true → s.pc = .memcpy → (s.takenFlag s.writeIndex).counter = 0

instance (s : CameraState) (a : CameraAction) : Decidable (CopiesWhenFree s a) :=
  inferInstanceAs
    (Decidable (a.isNext = true → s.pc = .memcpy → (s.takenFlag s.writeIndex).counter = 0))

/-- The buffer holds a frame. -/
structure CameraData.Holds (d : CameraData) (f : Frame) : Prop where
  data_eq : d.data.take f.buf.bytes.length = f.buf.bytes
  len_eq : d.len = f.buf.bytesused
  timestamps_eq : d.timestamps = f.timestamps

/-- What a handler copied is a field of the frame. -/
def Frame.Yields (f : Frame) : Copied → Prop
  | .data bytes => bytes = f.buf.bytes
  | .len n => n = f.buf.bytesused
  | .timestamps t => t = f.timestamps

/-- Frames in use are not overwritten. -/
structure FramesKept (s : CameraState) : Prop where
  /-- no write went to a buffer whose image was queued or being handled -/
  unwritten : s.overwritten = []
  /-- what a handler copied is what the frame of its message was -/
  copied : ∀ r ∈ s.copies, ∃ f, s.sentFor r.1 = some f ∧ f.Yields r.2

/-! ### What the buffers hold -/

/-- What the copy loop has stored so far. -/
def CameraState.Stored (s : CameraState) : Prop :=
  match s.pc with
  | .setLen => (s.cameraData s.writeIndex).data.take s.buf.bytes.length = s.buf.bytes
  | .setTimestamps => (s.cameraData s.writeIndex).data.take s.buf.bytes.length = s.buf.bytes ∧
      (s.cameraData s.writeIndex).len = s.buf.bytesused
  | .test => (s.cameraData s.writeIndex).Holds ⟨s.buf, s.stamp⟩
  | .dqbuf | .memcpy | .qbuf => True
  | _ => ∀ i, s.latestIndex = some i → (s.cameraData i).Holds ⟨s.buf, s.stamp⟩

/-- The copy has begun. -/
def CameraPc.writing : CameraPc → Bool
  | setLen => true
  | setTimestamps => true
  | _ => false

/-- The invariant of the frames. -/
structure FrameInv (s : CameraState) : Prop where
  unwritten : s.overwritten = []
  free : s.pc.writing = true → (s.takenFlag s.writeIndex).counter = 0
  stored : s.Stored
  live : ∀ e ∈ cameraLive s.msg, ∀ i, imageFor i e.queued →
    ∃ f, s.sentFor e.call = some f ∧ (s.cameraData i).Holds f
  sentFor_lt : ∀ c f, s.sentFor c = some f → c < s.msg.nextCall
  copied : ∀ r ∈ s.copies, ∃ f, s.sentFor r.1 = some f ∧ f.Yields r.2

/-- A handler reads what the buffer holds. -/
theorem CameraData.Holds.yields {d : CameraData} {f : Frame} (h : d.Holds f) (field : ImageField) :
    f.Yields (d.read field) := by
  cases field with
  | data =>
    have hlen : d.len.toNat = f.buf.bytes.length := by
      rw [h.len_eq, V4l2Buffer.bytesused, UInt32.toNat_ofNat',
        Nat.mod_eq_of_lt f.buf.size_lt]
    show d.data.take d.len.toNat = f.buf.bytes
    rw [hlen, h.data_eq]
  | len => exact h.len_eq
  | timestamps => exact h.timestamps_eq

/-! ### Each step keeps the frames -/

theorem stored_of_pc {s : CameraState} (h : s.pc = .dqbuf ∨ s.pc = .memcpy ∨ s.pc = .qbuf) :
    s.Stored := by
  rcases h with h | h | h <;> simp [CameraState.Stored, h]

/-- The camera thread is between the publication of a buffer and `VIDIOC_QBUF`. -/
def CameraPc.Published (pc : CameraPc) : Prop :=
  pc = .changeFirst ∨ pc = .changeSecond ∨ (∃ c, pc = .dispatch c) ∨ (∃ c, pc = .refused c) ∨
    pc = .clock ∨ pc = .changeAlarm

theorem stored_of_published {s : CameraState} (h : s.pc.Published) :
    s.Stored ↔ ∀ i, s.latestIndex = some i → (s.cameraData i).Holds ⟨s.buf, s.stamp⟩ := by
  rcases h with h | h | ⟨c, h⟩ | ⟨c, h⟩ | h | h <;> rw [CameraState.Stored, h]

/-- A step that writes no buffer and sends no image. -/
theorem FrameInv.congr {s t : CameraState} (h : FrameInv s)
    (hdata : t.cameraData = s.cameraData)
    (hlive : ∀ e ∈ cameraLive t.msg, e ∈ cameraLive s.msg) (hsent : t.sentFor = s.sentFor)
    (hnext : s.msg.nextCall ≤ t.msg.nextCall) (hover : t.overwritten = s.overwritten)
    (hcopies : t.copies = s.copies)
    (hfree : t.pc.writing = true → (t.takenFlag t.writeIndex).counter = 0) (hstored : t.Stored) :
    FrameInv t := by
  refine ⟨hover ▸ h.unwritten, hfree, hstored, ?_, ?_, ?_⟩
  · intro e he i hi
    rw [hdata, hsent]
    exact h.live e (hlive e he) i hi
  · intro c f hc
    rw [hsent] at hc
    exact lt_of_lt_of_le (h.sentFor_lt c f hc) hnext
  · rw [hcopies, hsent]
    exact h.copied

/-- A step of the message system that takes no message of the camera. -/
theorem FrameInv.msgOnly {s : CameraState} {m : MsgState} {b : MsgAction} (h : FrameInv s)
    (hm : msgStep .default s.msg b = some m)
    (hlive : cameraLive m = cameraLive s.msg) : FrameInv { s with msg := m } :=
  h.congr rfl (fun _ he => hlive ▸ he) rfl (nextCall_le (msgStep_cases hm)) rfl rfl h.free h.stored

/-- A write into a buffer nothing refers to. -/
theorem FrameInv.write {s t : CameraState} {f : CameraData → CameraData} (h : FrameInv s)
    (hinv : CameraInv s) (hidle : s.pc.undispatched = 0)
    (hzero : (s.takenFlag s.writeIndex).counter = 0)
    (hdata : t.cameraData =
      Function.update s.cameraData s.writeIndex (f (s.cameraData s.writeIndex)))
    (hover : t.overwritten = s.overwritten ++ calls (s.images s.writeIndex))
    (hmsg : t.msg = s.msg) (hsent : t.sentFor = s.sentFor) (hcopies : t.copies = s.copies)
    (hfree : t.pc.writing = true → (t.takenFlag t.writeIndex).counter = 0) (hstored : t.Stored) :
    FrameInv t := by
  have hcount := hinv.counter_eq s.writeIndex
  rw [hzero, CameraState.references, undispatched_of_pc hidle] at hcount
  have hnone : s.images s.writeIndex = [] := List.eq_nil_of_length_eq_zero (by omega)
  refine ⟨?_, hfree, hstored, ?_, ?_, ?_⟩
  · rw [hover, hnone, h.unwritten]
    rfl
  · intro e he i hi
    rw [hmsg] at he
    have hne : i ≠ s.writeIndex := by
      rintro rfl
      have hmem : e ∈ s.images s.writeIndex := by
        rw [images_eq]
        exact List.mem_filter.mpr ⟨he, hi⟩
      rw [hnone] at hmem
      exact absurd hmem List.not_mem_nil
    rw [hdata, hsent, Function.update_of_ne hne]
    exact h.live e he i hi
  · rw [hsent, hmsg]
    exact h.sentFor_lt
  · rw [hcopies, hsent]
    exact h.copied

/-- A call of `msg_send` for the buffer published last. -/
theorem FrameInv.dispatch {s t : CameraState} {c : Consumer} {j : Fin v4l2BufCount}
    (h : FrameInv s) (hj : s.latestIndex = some j) (hpc : s.pc = .dispatch c)
    (hm : msgStep .default s.msg (.send (imageMsg c j) []) = some t.msg)
    (hdata : t.cameraData = s.cameraData)
    (hsent : t.sentFor = Function.update s.sentFor s.msg.nextCall (some ⟨s.buf, s.stamp⟩))
    (hover : t.overwritten = s.overwritten) (hcopies : t.copies = s.copies)
    (hfree : t.pc.writing = false) (hstored : t.Stored) : FrameInv t := by
  have hnew : ∀ {c f}, s.sentFor c = some f → t.sentFor c = some f := by
    intro c f hc
    rw [hsent, Function.update_of_ne (h.sentFor_lt c f hc).ne]
    exact hc
  have hholds := (stored_of_published (.inr (.inr (.inl ⟨c, hpc⟩)))).mp h.stored j hj
  have hstep := nextCall_send (msgStep_cases hm)
  refine ⟨hover ▸ h.unwritten, fun hw => absurd (hfree.symm.trans hw) Bool.false_ne_true, hstored, ?_, ?_, ?_⟩
  · intro e he i hi
    have hcase : e ∈ cameraLive s.msg ∨ e = ⟨s.msg.nextCall, imageMsg c j, [], imageMsg c j⟩ := by
      have hsend := camera_dispatch hm
      split_ifs at hsend
      · rw [hsend.1, List.mem_append, List.mem_singleton] at he
        exact he
      · exact .inl (hsend.1 ▸ he)
    rcases hcase with he | rfl
    · obtain ⟨f, hf, hold⟩ := h.live e he i hi
      exact ⟨f, hnew hf, hdata ▸ hold⟩
    · -- the new message is for the frame in the buffer
      rw [imageFor_imageMsg, decide_eq_true_eq] at hi
      refine ⟨⟨s.buf, s.stamp⟩, ?_, ?_⟩
      · rw [hsent, Function.update_self]
      · rw [hi, hdata]
        exact hholds
  · intro c f hc
    rw [hsent, Function.update_apply] at hc
    rw [hstep]
    split_ifs at hc with heq
    · rw [heq]
      exact Nat.lt_succ_self _
    · exact (h.sentFor_lt c f hc).trans (Nat.lt_succ_self _)
  · intro r hr
    rw [hcopies] at hr
    obtain ⟨f, hf, hyield⟩ := h.copied r hr
    exact ⟨f, hnew hf, hyield⟩

/-- A counter at 0 stays at 0 when a message is released. -/
theorem counter_cameraRelease {s : CameraState} {i : Fin v4l2BufCount} (msg : CommonMsg)
    (h : (s.takenFlag i).counter = 0) : ((cameraRelease s msg).takenFlag i).counter = 0 := by
  have hreset : ∀ j, ((resetImageTakenFlag s j).takenFlag i).counter = 0 := by
    intro j
    show (Function.update s.takenFlag j (s.takenFlag j).reset i).counter = 0
    rw [Function.update_apply]
    split_ifs with hij
    · show (if (s.takenFlag j).counter > 0 then (s.takenFlag j).counter - 1
        else (s.takenFlag j).counter) = 0
      rw [← hij, h]
      rfl
    · exact h
  rw [cameraRelease, v4l2MsgReleaseHandler]
  split_ifs
  · split
    · exact h
    · split_ifs
      · exact hreset _
      · exact h
  · exact h

theorem FrameInv.step {s t : CameraState} {a : CameraAction} (h : FrameInv s)
    (hinv : CameraInv s) (hgood : CopiesWhenFree s a) (ht : CameraStep s a t) : FrameInv t := by
  cases ht with
  | frame buf hpc =>
    exact h.congr rfl (fun _ he => he) rfl le_rfl rfl rfl
      (fun hw => absurd hw Bool.false_ne_true) (stored_of_pc (.inr (.inl rfl)))
  | memcpy hpc =>
    have hzero : (s.takenFlag s.writeIndex).counter = 0 := hgood rfl hpc
    refine h.write (f := fun d => { d with data := writeAt d.data 0 s.buf.bytes }) hinv
      (by rw [hpc]; rfl) hzero rfl rfl rfl rfl rfl (fun _ => hzero) ?_
    show (Function.update s.cameraData s.writeIndex _ s.writeIndex).data.take _ = _
    rw [Function.update_self]
    exact List.take_left' rfl
  | setLen hpc =>
    have hzero := h.free (by rw [hpc]; rfl)
    have hstored := h.stored
    rw [CameraState.Stored, hpc] at hstored
    refine h.write (f := fun d => { d with len := s.buf.bytesused }) hinv (by rw [hpc]; rfl)
      hzero rfl rfl rfl rfl rfl (fun _ => hzero) ?_
    constructor
    · show (Function.update s.cameraData s.writeIndex _ s.writeIndex).data.take _ = _
      rw [Function.update_self]
      exact hstored
    · show (Function.update s.cameraData s.writeIndex _ s.writeIndex).len = s.buf.bytesused
      rw [Function.update_self]
  | setTimestamps now hpc =>
    have hzero := h.free (by rw [hpc]; rfl)
    have hstored := h.stored
    rw [CameraState.Stored, hpc] at hstored
    refine h.write (f := fun d => { d with timestamps := now }) hinv (by rw [hpc]; rfl)
      hzero rfl rfl rfl rfl rfl (fun hw => absurd hw Bool.false_ne_true) ?_
    show (Function.update s.cameraData s.writeIndex _ s.writeIndex).Holds _
    rw [Function.update_self]
    exact ⟨hstored.1, hstored.2, rfl⟩
  | publish hpc hfree =>
    have hstored := h.stored
    rw [CameraState.Stored, hpc] at hstored
    refine h.congr rfl (fun _ he => he) rfl le_rfl rfl rfl
      (fun hw => absurd hw Bool.false_ne_true) ?_
    intro i hi
    rw [Option.some_inj] at hi
    exact hi ▸ hstored
  | taken hpc htaken =>
    exact h.congr rfl (fun _ he => he) rfl le_rfl rfl rfl
      (fun hw => absurd hw Bool.false_ne_true) (stored_of_pc (.inr (.inr rfl)))
  | change j pc hj hpc =>
    have hpub : s.pc.Published := by
      rcases hpc with ⟨hpc, -⟩ | ⟨hpc, -⟩ | ⟨hpc, -⟩ <;> simp [CameraPc.Published, hpc]
    have hpub' : pc.Published := by
      rcases hpc with ⟨-, rfl⟩ | ⟨-, rfl⟩ | ⟨-, rfl⟩ <;> simp [CameraPc.Published]
    have hwriting : pc.writing = false := by
      rcases hpc with ⟨-, rfl⟩ | ⟨-, rfl⟩ | ⟨-, rfl⟩ <;> rfl
    exact h.congr rfl (fun _ he => he) rfl le_rfl rfl rfl
      (fun hw => absurd (hwriting.symm.trans hw) Bool.false_ne_true)
      ((stored_of_published hpub').mpr ((stored_of_published hpub).mp h.stored))
  | accept c j m hpc hj hroom hm =>
    have hstored := (stored_of_published (.inr (.inr (.inl ⟨c, hpc⟩)))).mp h.stored
    cases c with
    | udp => exact h.dispatch hj hpc hm rfl rfl rfl rfl rfl hstored
    | storage => exact h.dispatch hj hpc hm rfl rfl rfl rfl rfl hstored
    | alarm =>
      exact h.dispatch hj hpc hm rfl rfl rfl rfl rfl
        (stored_of_pc (.inr (.inr rfl)))
  | refuse c j m hpc hj hfull hm =>
    have hstored := (stored_of_published (.inr (.inr (.inl ⟨c, hpc⟩)))).mp h.stored
    exact h.dispatch hj hpc hm rfl rfl rfl rfl rfl hstored
  | clock now hpc =>
    have hstored := (stored_of_published (by simp [CameraPc.Published, hpc])).mp h.stored
    by_cases hreached : now.reached s.tsTarget = true
    · simp only [if_pos hreached]
      exact h.congr rfl (fun _ he => he) rfl le_rfl rfl rfl
        (fun hw => absurd hw Bool.false_ne_true) hstored
    · simp only [if_neg hreached]
      exact h.congr rfl (fun _ he => he) rfl le_rfl rfl rfl
        (fun hw => absurd hw Bool.false_ne_true) (stored_of_pc (.inr (.inr rfl)))
  | qbuf hpc =>
    exact h.congr rfl (fun _ he => he) rfl le_rfl rfl rfl
      (fun hw => absurd hw Bool.false_ne_true) (stored_of_pc (.inl rfl))
  | register id m hm =>
    exact h.msgOnly hm (camera_quiet (live_msgStep (msgStep_cases hm))).1
  | send msg bytes m hsrc hm =>
    exact h.msgOnly hm (camera_send hm hsrc).1
  | releaseRefused i e m he hsrc hm =>
    exact h.msgOnly hm (camera_releaseRefused hm he hsrc).1
  | releaseOwn i e c m he hsrc hpc hm =>
    obtain ⟨takenFlag, resets, heq⟩ := v4l2MsgReleaseHandler_eq { s with msg := m } e.arg
    have hlive : ∀ e ∈ cameraLive m, e ∈ cameraLive s.msg := by
      rw [cameraLive, (live_msgStep (msgStep_cases hm)).1]
      exact fun _ he => he
    have hnext := nextCall_le (msgStep_cases hm)
    have hstored :=
      (stored_of_published (.inr (.inr (.inr (.inl ⟨c, hpc⟩))))).mp h.stored
    rw [heq]
    cases c with
    | udp => exact h.congr rfl hlive rfl hnext rfl rfl (fun hw => absurd hw Bool.false_ne_true) hstored
    | storage => exact h.congr rfl hlive rfl hnext rfl rfl (fun hw => absurd hw Bool.false_ne_true) hstored
    | alarm =>
      exact h.congr rfl hlive rfl hnext rfl rfl (fun hw => absurd hw Bool.false_ne_true)
        (stored_of_pc (.inr (.inr rfl)))
  | receive m hm =>
    exact h.msgOnly hm (camera_quiet (live_msgStep (msgStep_cases hm))).1
  | handle isSending e m hc hm =>
    refine h.congr rfl ?_ rfl (nextCall_le (msgStep_cases hm)) rfl rfl h.free h.stored
    rw [(camera_quiet (live_msgStep (msgStep_cases hm))).1]
    exact fun _ he => he
  | read e field reads d hc hreads hd =>
    have hsrc : e.queued.srcModule = .v4l2 := by
      rw [CameraState.imageAt] at hd
      split at hd
      · next hsrc _ => exact hsrc
      · simp at hd
    have hmem : e ∈ cameraLive s.msg := by
      refine List.mem_filter.mpr ⟨?_, by simpa using hsrc⟩
      rw [live_of_current hc]
      exact List.mem_cons_self
    obtain ⟨c, j, hqueued⟩ := hinv.live_eq e hmem
    rw [hqueued, imageAt_imageMsg, Option.some_inj] at hd
    obtain ⟨f, hf, hholds⟩ := h.live e hmem j (by rw [hqueued, imageFor_imageMsg]; simp)
    refine ⟨h.unwritten, h.free, h.stored, h.live, h.sentFor_lt, ?_⟩
    intro r hr
    rw [List.mem_append, List.mem_singleton] at hr
    rcases hr with hr | rfl
    · exact h.copied r hr
    · exact ⟨f, hf, hd ▸ hholds.yields field⟩
  | handlerReturn m _ hm =>
    exact h.msgOnly hm (camera_quiet (live_msgStep (msgStep_cases hm))).1
  | release e m hc hm =>
    have hzero : s.pc.writing = true →
        ((cameraRelease { s with msg := m } e.queued).takenFlag s.writeIndex).counter = 0 :=
      fun hw => counter_cameraRelease e.queued (h.free hw)
    obtain ⟨takenFlag, resets, heq⟩ := cameraRelease_eq { s with msg := m } e.queued
    rw [heq] at hzero ⊢
    refine h.congr rfl ?_ rfl (nextCall_le (msgStep_cases hm)) rfl rfl hzero h.stored
    intro x hx
    rw [(camera_release hm hc).1]
    exact List.mem_append_right _ hx

theorem frameInv_init (ts : Timespec) : FrameInv (.init ts) where
  unwritten := rfl
  free := fun hw => absurd hw Bool.false_ne_true
  stored := stored_of_pc (.inl rfl)
  live := fun e he => absurd he (by simp [cameraLive, CameraState.init, MsgState.init,
    MsgState.live])
  sentFor_lt := fun c f hc => absurd hc (by simp [CameraState.init])
  copied := fun r hr => absurd hr (by simp [CameraState.init])

/-- The frames are kept along every run whose copies start while the buffer is free. -/
theorem framesKept {ts : Timespec} {s : CameraState}
    (hs : (cameraSystem ts).Via CopiesWhenFree s) : FramesKept s := by
  have hboth : CameraInv s ∧ FrameInv s := by
    refine hs.invariant (P := fun s => CameraInv s ∧ FrameInv s)
      ⟨cameraInv_init ts, frameInv_init ts⟩ ?_
    intro s a t h hgood ht
    exact ⟨h.1.step (cameraStep_cases ht), h.2.step h.1 hgood (cameraStep_cases ht)⟩
  exact ⟨hboth.2.unwritten, hboth.2.copied⟩

/-! ### No other run keeps them -/

/-- A copy into a buffer with references is a write into a buffer in use. -/
theorem overwritten_of_not_free {ts : Timespec} {s t : CameraState} {a : CameraAction}
    (hs : (cameraSystem ts).Reachable s) (hbad : ¬ CopiesWhenFree s a)
    (ht : cameraStep s a = some t) : t.overwritten ≠ [] := by
  simp only [CopiesWhenFree, Classical.not_imp] at hbad
  obtain ⟨hnext, hpc, hcount⟩ := hbad
  obtain rfl : a = .next := by
    cases a <;> first | rfl | exact absurd hnext Bool.false_ne_true
  have himages : s.images s.writeIndex ≠ [] := by
    intro hnone
    refine hcount ?_
    rw [(cameraInv hs).counter_eq, CameraState.references, hnone,
      undispatched_of_pc (by rw [hpc]; rfl)]
    rfl
  simp only [cameraStep, cameraNext, hpc, Option.some_inj] at ht
  rw [← ht]
  intro hover
  exact himages (List.map_eq_nil_iff.mp (List.append_eq_nil_iff.mp hover).2)

/-- A buffer overwritten stays overwritten. -/
theorem overwritten_step {s t : CameraState} {a : CameraAction} (h : s.overwritten ≠ [])
    (ht : CameraStep s a t) : t.overwritten ≠ [] := by
  cases ht with
  | memcpy => exact fun hover => h (List.append_eq_nil_iff.mp hover).1
  | setLen => exact fun hover => h (List.append_eq_nil_iff.mp hover).1
  | setTimestamps => exact fun hover => h (List.append_eq_nil_iff.mp hover).1
  | accept c => cases c <;> exact h
  | releaseOwn i e c m =>
    obtain ⟨takenFlag, resets, heq⟩ := v4l2MsgReleaseHandler_eq { s with msg := m } e.arg
    rw [heq]
    cases c <;> exact h
  | release e m =>
    obtain ⟨takenFlag, resets, heq⟩ := cameraRelease_eq { s with msg := m } e.queued
    rw [heq]
    exact h
  | _ => exact h

/-- **The runs that keep the frames** are those in which every copy starts while the counter
of its buffer is 0; the updates of the counters are atomic in all of them. -/
theorem framesKept_iff {ts : Timespec} {as : List CameraAction} {s : CameraState}
    (h : (cameraSystem ts).run (.init ts) as = some s) :
    FramesKept s ↔ (cameraSystem ts).runVia CopiesWhenFree (.init ts) as = some s :=
  run_eq_runVia (fun s => s.overwritten ≠ []) (fun _ hs => framesKept hs)
    (fun _ hs => not_not_intro hs.unwritten) (fun _ _ _ hs => overwritten_of_not_free hs)
    (fun _ _ _ _ hs ht => overwritten_step hs (cameraStep_cases ht)) h

/-- The camera thread captures a frame and sends it to two consumers. -/
def captured (buf : V4l2Buffer) (now : UInt64) : List CameraAction :=
  [.frame buf, .next, .next, .gettimeUs now, .next, .next, .next, .next, .next,
    .clockGettime ⟨3, 0⟩, .next]

/-- The UDP module copies the image it is sent. -/
def consumed : List CameraAction :=
  [.receive, .handle false, .read, .read, .handlerReturn, .release]

/-- The storage module copies it too. -/
def stored : List CameraAction :=
  [.receive, .handle false, .read, .read, .read, .handlerReturn, .release]

/-- Each frame is consumed before the next one but one is captured, in the same buffer. -/
def reusing : List CameraAction :=
  captured ⟨[1], by decide⟩ 1 ++ consumed ++ captured ⟨[2], by decide⟩ 2 ++ stored ++ consumed ++
    captured ⟨[3], by decide⟩ 3 ++ stored ++ consumed

/-- The third frame takes the place of the first. -/
theorem framesKept_iff_reused : ∃ s, (cameraSystem ⟨5, 0⟩).run (.init ⟨5, 0⟩) reusing = some s ∧
    s.published.map (fun p => p.1.val) = [0, 1, 0] ∧
    s.copies.map Prod.snd = [.len 1, .data [1], .data [1], .len 1, .timestamps 1, .len 1,
      .data [2], .data [2], .len 1, .timestamps 2, .len 1, .data [3]] ∧ FramesKept s := by
  have hvia : ∃ s, (cameraSystem ⟨5, 0⟩).runVia CopiesWhenFree (.init ⟨5, 0⟩) reusing = some s ∧
      s.published.map (fun p => p.1.val) = [0, 1, 0] ∧
      s.copies.map Prod.snd = [.len 1, .data [1], .data [1], .len 1, .timestamps 1, .len 1,
        .data [2], .data [2], .len 1, .timestamps 2, .len 1, .data [3]] := ⟨_, rfl, rfl, rfl⟩
  obtain ⟨s, hvia, hpublished, hcopies⟩ := hvia
  have hrun := run_of_runVia hvia
  exact ⟨s, hrun, hpublished, hcopies, (framesKept_iff hrun).mpr hvia⟩

/-- Consumers two frames behind: the third frame is written into the buffer of the first
before its image is handled, and is then not published. -/
def lagging : List CameraAction :=
  captured ⟨[1], by decide⟩ 1 ++ captured ⟨[2], by decide⟩ 2 ++
    [.frame ⟨[3], by decide⟩, .next, .next, .gettimeUs 3, .next, .next] ++ consumed

/-- The UDP module copies the third frame in place of the first. -/
theorem framesKept_lagging : ∃ s, (cameraSystem ⟨5, 0⟩).Reachable s ∧
    s.overwritten = [0, 1, 0, 1, 0, 1] ∧ s.copies = [(0, .len 1), (0, .data [3])] ∧
    (s.sentFor 0).map (fun f => f.buf.bytes) = some [1] ∧ ¬ FramesKept s := by
  have hrun : (cameraSystem ⟨5, 0⟩).run (CameraState.init ⟨5, 0⟩) lagging = some _ := rfl
  refine ⟨_, .of_run hrun, rfl, rfl, rfl, ?_⟩
  intro hkept
  exact absurd hkept.unwritten (List.cons_ne_nil _ _)

end Sentry
