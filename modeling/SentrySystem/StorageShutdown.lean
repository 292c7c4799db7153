/-
The end of a recording (`src/storage/storage_video.cpp`, `src/main.c`).

`storage_video_thread` leaves its loop when it finds `running` cleared, at the top or behind its
wait, and then closes `fp` only, which stays null with `STORE_IN_DAT` 0.  Here every access to what
the thread shares with the handler is a step of its own, so that alarms, blocks and the clearing
of `running` come anywhere between; what the handler stores is in `StorageBlocks`.

* `recorderThread`, `recorderSystem` — the thread, with its muxer;
* `RecorderStep` — everything one step can do to the muxer and to `is_recording`;
* `FilesFinished` — every file opened was closed, with its trailer;
* `filesFinished_iff` — the runs in which the thread ends with all files finished are those in
  which it does not leave its loop while it is recording;
* `recorder_of_storage` — `storageSystem` is this thread, in larger steps.
-/
import SentrySystem.Muxer

namespace Sentry

/-! ### The code -/

/-- Where `storage_video_thread` is: in front of the test of `running`; of the lock; in
`pthread_cond_wait`; in front of the test of `is_recording`; of the `i`-th `ffmpeg_muxer_write`; of
the reading of `move_detected`; of the test of `post_record_count`; of its decrement, and inside
it, with the value read; of the second test; of `ffmpeg_muxer_close`; of the clearing of
`is_recording`; in the branch of a block that is not saved; behind the loop. -/
inductive RecorderPc
  | top
  | lock
  | waiting
  | opening
  | write (i : ℕ)
  | testMove
  | testCount
  | load
  | store (value : UInt8)
  | testZero
  | close
  | clear
  | notSaved
  | ended
  deriving DecidableEq, Repr

/-- The variables of the thread and the handler, `fp` telling whether the pointer is not null, and
the muxer. -/
structure Recorder (Name : Type) where
  moveDetected : Bool
  postRecordCount : UInt8
  isRecording : Bool
  dataReady : Bool
  running : Bool
  fp : Bool
  pc : RecorderPc
  gCtx : Muxer Name

/-- What the thread finds outside of its variables in a step: the results of libavformat, the name of
the file, and the image at the `i`-th place of the block. -/
structure ThreadInput (Name : Type) where
  answers : InitAnswers
  filename : Name
  image : Option Muxed
  result : ℤ

section

variable {Name : Type}

/-- The state at the start of the thread. -/
def Recorder.init : Recorder Name where
  moveDetected := false
  postRecordCount := 0
  isRecording := false
  dataReady := false
  running := true
  fp := false
  pc := .top
  gCtx := .init

/-- The loop with the lock held, up to where it is given back. -/
def Recorder.locked (s : Recorder Name) : Recorder Name :=
  if s.dataReady = false ∧ s.running = true then { s with pc := .waiting }
  else if s.running = false then { s with fp := false, pc := .ended }
  else
    { s with
      dataReady := false
      pc := if s.moveDetected = true ∨ 0 < s.postRecordCount then .opening else .notSaved }

/-- A step of `storage_video_thread`. -/
def recorderThread (s : Recorder Name) (input : ThreadInput Name) : Option (Recorder Name) :=
  match s.pc with
  | .top =>
    if s.running then some { s with pc := .lock } else some { s with fp := false, pc := .ended }
  | .lock => some s.locked
  | .waiting => some s.locked
  | .opening =>
    if s.isRecording then some { s with pc := .write 0 }
    else
      let (result, g) := s.gCtx.ffmpegMuxerInit input.filename input.answers
      if result ≥ 0 then some { s with gCtx := g, isRecording := true, pc := .write 0 }
      else some { s with gCtx := g, pc := .testMove }
  | .write i =>
    some { s with
      gCtx := (s.gCtx.ffmpegMuxerWrite input.image input.result).2
      pc := if i + 1 < maxsize then .write (i + 1) else .testMove }
  | .testMove => some { s with pc := if s.moveDetected = false then .testCount else .top }
  | .testCount => some { s with pc := if 0 < s.postRecordCount then .load else .top }
  | .load => some { s with pc := .store s.postRecordCount }
  | .store value => some { s with postRecordCount := value - 1, pc := .testZero }
  | .testZero => some { s with pc := if s.postRecordCount = 0 then .close else .top }
  | .close => some { s with gCtx := s.gCtx.ffmpegMuxerClose, pc := .clear }
  | .clear => some { s with isRecording := false, pc := .top }
  | .notSaved =>
    if s.isRecording = true ∧ s.fp = true then
      some { s with fp := false, isRecording := false, pc := .top }
    else some { s with pc := .top }
  | .ended => none

/-- What can happen: the last image of a block is handled, an alarm is handled, `stop_handler`
clears `running`, the thread makes a step. -/
inductive RecorderAction (Name : Type)
  | block
  | alarm (moved : Bool)
  | stop
  | thread (input : ThreadInput Name)

/-- One step.  A block that comes while the last one is still waiting is dropped. -/
def recorderStep (s : Recorder Name) : RecorderAction Name → Option (Recorder Name)
  | .block => some { s with dataReady := true }
  | .alarm moved =>
    if moved then some { s with moveDetected := true, postRecordCount := 1 }
    else some { s with moveDetected := false }
  | .stop => some { s with running := false }
  | .thread input => recorderThread s input

/-- The thread with its muxer. -/
def recorderSystem (Name : Type) : TransitionSystem (Recorder Name) (RecorderAction Name) :=
  ⟨.init, recorderStep⟩

/-! ### Finished files -/

/-- A call of the muxer, where a file is open or not: it opens one, writes to it, or closes it with
its trailer; otherwise it is out of order. -/
def fileStep : Bool → MuxerCall Name → Option Bool
  | false, .opened _ => some true
  | true, .wrote _ => some true
  | true, .closed => some false
  | _, _ => none

/-- Every file that was opened was closed once, before the next one was opened. -/
def FilesFinished (calls : List (MuxerCall Name)) : Prop := calls.foldlM fileStep false = some false

instance (calls : List (MuxerCall Name)) : Decidable (FilesFinished calls) :=
  inferInstanceAs (Decidable (calls.foldlM fileStep false = some false))

/-- When the thread has ended, all files are finished. -/
def EndsFinished (s : Recorder Name) : Prop := s.pc = .ended → FilesFinished s.gCtx.calls

/-- The thread finds out that `running` is cleared. -/
def Recorder.leaves (s : Recorder Name) : Prop :=
  (s.pc = .top ∨ s.pc = .lock ∨ s.pc = .waiting) ∧ s.running = false

/-- The thread does not leave its loop while it is recording. -/
def LeavesIdle (s : Recorder Name) : RecorderAction Name → Prop
  | .thread _ => s.leaves → s.isRecording = false
  | _ => True

instance (s : Recorder Name) : Decidable s.leaves :=
  inferInstanceAs
    (Decidable ((s.pc = .top ∨ s.pc = .lock ∨ s.pc = .waiting) ∧ s.running = false))

instance (s : Recorder Name) : DecidablePred (LeavesIdle s)
  | .thread _ => inferInstanceAs (Decidable (s.leaves → s.isRecording = false))
  | .block => isTrue trivial
  | .alarm _ => isTrue trivial
  | .stop => isTrue trivial

/-! ### What a step can do -/

/-- Everything a step can do to the muxer, to `is_recording` and to where the thread is. -/
inductive RecorderStep (s : Recorder Name) : RecorderAction Name → Recorder Name → Prop
  | handler {a : RecorderAction Name} (moveDetected : Bool) (postRecordCount : UInt8)
      (dataReady running : Bool) (ha : ∀ input, a ≠ .thread input) :
      RecorderStep s a
        { s with
          moveDetected := moveDetected
          postRecordCount := postRecordCount
          dataReady := dataReady
          running := running }
  | leave (input : ThreadInput Name) (hleaves : s.leaves) :
      RecorderStep s (.thread input) { s with fp := false, pc := .ended }
  | move (input : ThreadInput Name) (pc : RecorderPc) (postRecordCount : UInt8) (dataReady : Bool)
      (hstays : ¬ s.leaves) (hpc : s.pc ≠ .clear) (hto : pc ≠ .clear ∧ pc ≠ .ended) :
      RecorderStep s (.thread input)
        { s with pc := pc, postRecordCount := postRecordCount, dataReady := dataReady }
  | opened (input : ThreadInput Name) (hpc : s.pc = .opening) (hrec : s.isRecording = false)
      (hr : 0 ≤ (s.gCtx.ffmpegMuxerInit input.filename input.answers).1) :
      RecorderStep s (.thread input)
        { s with
          gCtx := (s.gCtx.ffmpegMuxerInit input.filename input.answers).2
          isRecording := true
          pc := .write 0 }
  | openFailed (input : ThreadInput Name) (hpc : s.pc = .opening) (hrec : s.isRecording = false)
      (hr : ¬ 0 ≤ (s.gCtx.ffmpegMuxerInit input.filename input.answers).1) :
      RecorderStep s (.thread input)
        { s with
          gCtx := (s.gCtx.ffmpegMuxerInit input.filename input.answers).2
          pc := .testMove }
  | write (input : ThreadInput Name) (i : ℕ) (pc : RecorderPc) (hpc : s.pc = .write i)
      (hto : pc ≠ .clear ∧ pc ≠ .ended) :
      RecorderStep s (.thread input)
        { s with gCtx := (s.gCtx.ffmpegMuxerWrite input.image input.result).2, pc := pc }
  | close (input : ThreadInput Name) (hpc : s.pc = .close) :
      RecorderStep s (.thread input) { s with gCtx := s.gCtx.ffmpegMuxerClose, pc := .clear }
  | clear (input : ThreadInput Name) (hpc : s.pc = .clear) :
      RecorderStep s (.thread input) { s with isRecording := false, pc := .top }
  | dat (input : ThreadInput Name) (hpc : s.pc = .notSaved) (hfp : s.fp = true) :
      RecorderStep s (.thread input) { s with fp := false, isRecording := false, pc := .top }

/-- The thread is not where it looks at `running`. -/
theorem not_leaves {s : Recorder Name} (h : s.pc ≠ .top ∧ s.pc ≠ .lock ∧ s.pc ≠ .waiting) :
    ¬ s.leaves := by
  rintro ⟨htop | hlock | hwaiting, -⟩
  · exact h.1 htop
  · exact h.2.1 hlock
  · exact h.2.2 hwaiting

/-- Where the thread looks at `running` it is not in front of the clearing of `is_recording`. -/
theorem Recorder.leaves.ne_clear {s : Recorder Name} (h : s.leaves) : s.pc ≠ .clear := by
  rcases h.1 with hpc | hpc | hpc
  · simp [hpc]
  · simp [hpc]
  · simp [hpc]

theorem locked_cases {s : Recorder Name} (input : ThreadInput Name)
    (hpc : s.pc = .lock ∨ s.pc = .waiting) : RecorderStep s (.thread input) s.locked := by
  have hclear : s.pc ≠ .clear := by
    rcases hpc with hpc | hpc <;> simp [hpc]
  rw [Recorder.locked]
  split_ifs with hwait hstop hsave
  · exact .move input .waiting _ _ (fun h => absurd (hwait.2.symm.trans h.2) (by simp)) hclear
      (by simp)
  · exact .leave input ⟨.inr hpc, hstop⟩
  · exact .move input .opening _ _ (fun h => hstop h.2) hclear (by simp)
  · exact .move input .notSaved _ _ (fun h => hstop h.2) hclear (by simp)

theorem recorderThread_cases {s t : Recorder Name} {input : ThreadInput Name}
    (h : recorderThread s input = some t) : RecorderStep s (.thread input) t := by
  rw [recorderThread] at h
  cases hpc : s.pc with
  | top =>
    simp only [hpc] at h
    split_ifs at h with hrunning
    · obtain rfl := Option.some_inj.mp h
      exact .move input .lock _ _ (fun hl => absurd (hrunning.symm.trans hl.2) (by simp))
        (by simp [hpc]) (by simp)
    · obtain rfl := Option.some_inj.mp h
      exact .leave input ⟨.inl hpc, Bool.eq_false_iff.mpr hrunning⟩
  | lock =>
    simp only [hpc, Option.some_inj] at h
    exact h ▸ locked_cases input (.inl hpc)
  | waiting =>
    simp only [hpc, Option.some_inj] at h
    exact h ▸ locked_cases input (.inr hpc)
  | opening =>
    simp only [hpc] at h
    split_ifs at h with hrec hr
    · obtain rfl := Option.some_inj.mp h
      exact .move input (.write 0) _ _ (not_leaves (by simp [hpc])) (by simp [hpc]) (by simp)
    · obtain rfl := Option.some_inj.mp h
      exact .opened input hpc (Bool.eq_false_iff.mpr hrec) hr
    · obtain rfl := Option.some_inj.mp h
      exact .openFailed input hpc (Bool.eq_false_iff.mpr hrec) hr
  | write i =>
    simp only [hpc, Option.some_inj] at h
    rw [← h]
    refine .write input i _ hpc ?_
    split_ifs
    · simp
    · simp
  | close =>
    simp only [hpc, Option.some_inj] at h
    exact h ▸ .close input hpc
  | clear =>
    simp only [hpc, Option.some_inj] at h
    exact h ▸ .clear input hpc
  | notSaved =>
    simp only [hpc] at h
    split_ifs at h with hfp
    · obtain rfl := Option.some_inj.mp h
      exact .dat input hpc hfp.2
    · obtain rfl := Option.some_inj.mp h
      exact .move input .top _ _ (not_leaves (by simp [hpc])) (by simp [hpc]) (by simp)
  | ended =>
    simp only [hpc] at h
    cases h
  | testMove =>
    simp only [hpc, Option.some_inj] at h
    rw [← h]
    exact .move input _ _ _ (not_leaves (by simp [hpc])) (by simp [hpc]) (by split_ifs <;> simp)
  | testCount =>
    simp only [hpc, Option.some_inj] at h
    rw [← h]
    exact .move input _ _ _ (not_leaves (by simp [hpc])) (by simp [hpc]) (by split_ifs <;> simp)
  | load =>
    simp only [hpc, Option.some_inj] at h
    rw [← h]
    exact .move input _ _ _ (not_leaves (by simp [hpc])) (by simp [hpc]) (by simp)
  | store value =>
    simp only [hpc, Option.some_inj] at h
    rw [← h]
    exact .move input _ _ _ (not_leaves (by simp [hpc])) (by simp [hpc]) (by simp)
  | testZero =>
    simp only [hpc, Option.some_inj] at h
    rw [← h]
    exact .move input _ _ _ (not_leaves (by simp [hpc])) (by simp [hpc]) (by split_ifs <;> simp)

theorem recorderStep_cases {s t : Recorder Name} {a : RecorderAction Name}
    (h : recorderStep s a = some t) : RecorderStep s a t := by
  cases a with
  | block =>
    obtain rfl := Option.some_inj.mp h
    exact .handler _ _ true _ (by simp)
  | alarm moved =>
    rw [recorderStep] at h
    split_ifs at h
    · obtain rfl := Option.some_inj.mp h
      exact .handler true 1 _ _ (by simp)
    · obtain rfl := Option.some_inj.mp h
      exact .handler false _ _ _ (by simp)
  | stop =>
    obtain rfl := Option.some_inj.mp h
    exact .handler _ _ _ false (by simp)
  | thread input => exact recorderThread_cases h

/-! ### The muxer along a run -/

/-- The muxer is initialised exactly while `is_recording` says so, from `ffmpeg_muxer_close` to the
clearing of the flag apart; and the files were opened, written and closed in order. -/
structure RecorderInv (s : Recorder Name) : Prop where
  holds : ∃ leaked, MuxerHolds s.gCtx leaked
  calls_eq : s.gCtx.calls.foldlM fileStep false = some s.gCtx.isInit
  isInit_eq : s.pc ≠ .clear → s.gCtx.isInit = s.isRecording
  cleared : s.pc = .clear → s.gCtx.isInit = false
  fp_eq : s.fp = false

/-- One more call of the muxer. -/
theorem foldlM_fileStep {calls : List (MuxerCall Name)} {file : Bool} (call : MuxerCall Name)
    (h : calls.foldlM fileStep false = some file) :
    (calls ++ [call]).foldlM fileStep false = fileStep file call := by
  rw [List.foldlM_append, h]
  cases hstep : fileStep file call with
  | none => simp [hstep]
  | some next => simp [hstep]

/-- `ffmpeg_muxer_init` succeeds by opening a file. -/
theorem init_calls {g : Muxer Name} {leaked : ℕ} (h : MuxerHolds g leaked)
    (hinit : g.isInit = false) (filename : Name) (a : InitAnswers) :
    (0 ≤ (g.ffmpegMuxerInit filename a).1 → (g.ffmpegMuxerInit filename a).2.isInit = true ∧
      (g.ffmpegMuxerInit filename a).2.calls = g.calls ++ [.opened filename]) ∧
    (¬ 0 ≤ (g.ffmpegMuxerInit filename a).1 → (g.ffmpegMuxerInit filename a).2.isInit = false ∧
      (g.ffmpegMuxerInit filename a).2.calls = g.calls) := by
  obtain ⟨r, t, hresult, hcases⟩ := ffmpegMuxerInit_cases (h.idle_of hinit).1 hinit filename a
  rw [hresult]
  cases hcases with
  | failed _ _ hr _ htinit _ _ hcalls =>
    exact ⟨fun hle => absurd hr (not_lt.mpr hle), fun _ => ⟨htinit, hcalls⟩⟩
  | leaked _ _ htinit _ _ hcalls =>
    exact ⟨fun hle => absurd hle (Int.not_le.mpr (Int.negSucc_lt_zero 4)),
      fun _ => ⟨htinit, hcalls⟩⟩
  | fileless _ _ htinit _ _ hcalls =>
    exact ⟨fun _ => ⟨htinit, hcalls⟩, fun hlt => absurd le_rfl hlt⟩
  | succeeded _ _ htinit _ _ hcalls =>
    exact ⟨fun _ => ⟨htinit, hcalls⟩, fun hlt => absurd le_rfl hlt⟩

/-- `ffmpeg_muxer_write` writes to an open file, or does nothing. -/
theorem write_calls (g : Muxer Name) (image : Option Muxed) (result : ℤ) :
    (g.ffmpegMuxerWrite image result).2.isInit = g.isInit ∧
      ((g.ffmpegMuxerWrite image result).2.calls = g.calls ∨ g.isInit = true ∧
        ∃ written, (g.ffmpegMuxerWrite image result).2.calls = g.calls ++ [.wrote written]) := by
  by_cases hinit : g.isInit = false
  · rw [Muxer.ffmpegMuxerWrite.eq_def, if_pos hinit]
    exact ⟨rfl, .inl rfl⟩
  · rw [Muxer.ffmpegMuxerWrite.eq_def, if_neg hinit]
    cases image with
    | none => exact ⟨rfl, .inl rfl⟩
    | some image => exact ⟨rfl, .inr ⟨Bool.of_not_eq_false hinit, image, rfl⟩⟩

/-- **One step** keeps the muxer and the flag together. -/
theorem RecorderInv.step {s t : Recorder Name} {a : RecorderAction Name} (h : RecorderInv s)
    (ht : RecorderStep s a t) : RecorderInv t := by
  obtain ⟨leaked, hholds⟩ := h.holds
  cases ht with
  | handler => exact ⟨h.holds, h.calls_eq, h.isInit_eq, h.cleared, h.fp_eq⟩
  | leave input hleaves =>
    exact ⟨h.holds, h.calls_eq, fun _ => h.isInit_eq hleaves.ne_clear,
      fun hclear => by simp at hclear, rfl⟩
  | move input pc _ _ _ hpc hto =>
    exact ⟨h.holds, h.calls_eq, fun _ => h.isInit_eq hpc, fun hclear => absurd hclear hto.1, h.fp_eq⟩
  | opened input hpc hrec hr =>
    have hinit : s.gCtx.isInit = false := (h.isInit_eq (by simp [hpc])).trans hrec
    obtain ⟨htinit, hcalls⟩ := (init_calls hholds hinit input.filename input.answers).1 hr
    refine ⟨⟨_, hholds.init input.filename input.answers⟩, ?_, fun _ => htinit,
      fun hclear => by simp at hclear, h.fp_eq⟩
    rw [hcalls, foldlM_fileStep _ h.calls_eq, hinit, htinit]
    rfl
  | openFailed input hpc hrec hr =>
    have hinit : s.gCtx.isInit = false := (h.isInit_eq (by simp [hpc])).trans hrec
    obtain ⟨htinit, hcalls⟩ := (init_calls hholds hinit input.filename input.answers).2 hr
    refine ⟨⟨_, hholds.init input.filename input.answers⟩, ?_, fun _ => htinit.trans hrec.symm,
      fun hclear => by simp at hclear, h.fp_eq⟩
    rw [hcalls, h.calls_eq, hinit, htinit]
  | write input i pc hpc hto =>
    have hnext := hholds.call (.write input.image input.result)
    obtain ⟨htinit, hcalls⟩ := write_calls s.gCtx input.image input.result
    refine ⟨⟨_, hnext⟩, ?_, fun _ => htinit.trans (h.isInit_eq (by simp [hpc])),
      fun hclear => absurd hclear hto.1, h.fp_eq⟩
    show (s.gCtx.ffmpegMuxerWrite input.image input.result).2.calls.foldlM fileStep false =
      some (s.gCtx.ffmpegMuxerWrite input.image input.result).2.isInit
    rcases hcalls with hcalls | ⟨hbusy, image, hcalls⟩
    · rw [hcalls, htinit, h.calls_eq]
    · rw [hcalls, htinit, foldlM_fileStep _ h.calls_eq, hbusy]
      rfl
  | close input hpc =>
    have hinv := hholds.close
    refine ⟨⟨leaked, .idle hinv.1 hinv.2.1 hinv.2.2⟩, ?_, fun hclear => absurd rfl hclear,
      fun _ => hinv.1, h.fp_eq⟩
    show s.gCtx.ffmpegMuxerClose.calls.foldlM fileStep false = some s.gCtx.ffmpegMuxerClose.isInit
    cases hinit : s.gCtx.isInit with
    | false => rw [close_of_not_isInit hinit, h.calls_eq]
    | true =>
      rw [(close_of_isInit hinit).2, (close_of_isInit hinit).1, foldlM_fileStep _ h.calls_eq, hinit]
      rfl
  | clear input hpc =>
    exact ⟨h.holds, h.calls_eq, fun _ => h.cleared hpc, fun hclear => by simp at hclear, h.fp_eq⟩
  | dat input hpc hfp => exact absurd (hfp.symm.trans h.fp_eq) Bool.true_eq_false_eq_False

theorem recorderInv_init : RecorderInv (.init : Recorder Name) :=
  ⟨⟨0, muxerHolds_init⟩, rfl, fun _ => rfl, fun h => by simp [Recorder.init] at h, rfl⟩

theorem recorderInv {s : Recorder Name} {good : Recorder Name → RecorderAction Name → Prop}
    (hs : (recorderSystem Name).Via good s) : RecorderInv s :=
  hs.invariant recorderInv_init fun _ _ _ h _ ht => h.step (recorderStep_cases ht)

/-! ### How the thread ends -/

/-- In runs that leave the loop idle no file is open at the end. -/
theorem idle_of_ended {s : Recorder Name} (hs : (recorderSystem Name).Via LeavesIdle s) :
    s.pc = .ended → s.isRecording = false := by
  refine hs.invariant (P := fun s => s.pc = .ended → s.isRecording = false)
    (fun h => by simp [recorderSystem, Recorder.init] at h) ?_
  intro s a t h hidle ht hended
  cases recorderStep_cases ht with
  | handler => exact h hended
  | leave input hleaves => exact hidle hleaves
  | move _ _ _ _ _ _ hto => exact absurd hended hto.2
  | write _ _ _ _ hto => exact absurd hended hto.2
  | opened => simp at hended
  | openFailed => simp at hended
  | close => simp at hended
  | clear => simp at hended
  | dat => simp at hended

/-- The step with which the thread leaves its loop. -/
theorem leave_eq {s t : Recorder Name} {input : ThreadInput Name} (hleaves : s.leaves)
    (ht : recorderStep s (.thread input) = some t) :
    t = { s with fp := false, pc := .ended } := by
  cases recorderStep_cases ht with
  | handler _ _ _ _ ha => exact absurd rfl (ha input)
  | leave => rfl
  | move _ _ _ _ hstays => exact absurd hleaves hstays
  | opened _ hpc => exact absurd hleaves (not_leaves (by simp [hpc]))
  | openFailed _ hpc => exact absurd hleaves (not_leaves (by simp [hpc]))
  | write _ _ _ hpc => exact absurd hleaves (not_leaves (by simp [hpc]))
  | close _ hpc => exact absurd hleaves (not_leaves (by simp [hpc]))
  | clear _ hpc => exact absurd hleaves (not_leaves (by simp [hpc]))
  | dat _ hpc => exact absurd hleaves (not_leaves (by simp [hpc]))

/-- **Every file is finished** when the thread ends, exactly in the runs in which it does not leave
its loop while it is recording. -/
theorem filesFinished_iff {as : List (RecorderAction Name)} {s : Recorder Name}
    (h : (recorderSystem Name).run .init as = some s) :
    (recorderSystem Name).Throughout EndsFinished .init as ↔
      (recorderSystem Name).runVia LeavesIdle .init as = some s := by
  refine TransitionSystem.throughout_eq_runVia ?_ ?_ h
  · intro s hs hended
    have hinv := recorderInv hs
    rw [FilesFinished, hinv.calls_eq, hinv.isInit_eq (by simp [hended]), idle_of_ended hs hended]
  · intro s a t hs hbusy ht hfinished
    have hinv := recorderInv hs
    cases a with
    | block => exact hbusy trivial
    | alarm => exact hbusy trivial
    | stop => exact hbusy trivial
    | thread input =>
      rw [LeavesIdle, Classical.not_imp, Bool.not_eq_false] at hbusy
      obtain ⟨hleaves, hrec⟩ := hbusy
      rw [leave_eq hleaves ht] at hfinished
      have hcalls := hinv.calls_eq
      rw [hinv.isInit_eq hleaves.ne_clear, hrec, hfinished rfl] at hcalls
      simp at hcalls

/-- A step in which libavformat does all it is asked to. -/
def threadInput : ThreadInput String := ⟨initSucceeds, "rec.avi", some ⟨0, [], 0, 7⟩, 0⟩

/-- A block with motion is recorded. -/
def recordMotion : List (RecorderAction String) :=
  [.alarm true, .block] ++ List.replicate 54 (.thread threadInput)

/-- A block without motion follows, the file is closed, and `running` is cleared. -/
def stopBehindStill : List (RecorderAction String) :=
  recordMotion ++ [.alarm false, .block] ++ List.replicate 60 (.thread threadInput) ++
    [.stop, .thread threadInput]

theorem filesFinished_iff_still : ∃ s,
    (recorderSystem String).run .init stopBehindStill = some s ∧ s.pc = .ended ∧
    FilesFinished s.gCtx.calls ∧
    ((recorderSystem String).Throughout EndsFinished .init stopBehindStill ↔
      (recorderSystem String).runVia LeavesIdle .init stopBehindStill = some s) := by
  have hends : ((recorderSystem String).run .init stopBehindStill).map
      (fun s => (s.pc, decide (FilesFinished s.gCtx.calls))) = some (.ended, true) := by
    decide +kernel
  obtain ⟨s, hs, hend⟩ := Option.map_eq_some_iff.mp hends
  obtain ⟨hpc, hfinished⟩ := Prod.mk.inj hend
  exact ⟨s, hs, hpc, of_decide_eq_true hfinished, filesFinished_iff hs⟩

/-- `running` is cleared while the motion goes on: the thread ends, and the file has no
trailer. -/
theorem filesFinished_stopped : ∃ s, (recorderSystem String).Reachable s ∧ s.pc = .ended ∧
    s.gCtx.isInit = true ∧ .closed ∉ s.gCtx.calls ∧ ¬ EndsFinished s := by
  have hends : ((recorderSystem String).run .init
      (recordMotion ++ [.stop, .thread threadInput])).map (fun s => (s.pc, s.gCtx.isInit,
        decide (.closed ∈ s.gCtx.calls), decide (FilesFinished s.gCtx.calls))) =
      some (.ended, true, false, false) := by
    decide +kernel
  obtain ⟨s, hs, hend⟩ := Option.map_eq_some_iff.mp hends
  simp only [Prod.mk.injEq, decide_eq_false_iff_not] at hend
  obtain ⟨hpc, hinit, hclosed, hfinished⟩ := hend
  exact ⟨s, .of_run hs, hpc, hinit, hclosed, fun h => hfinished (h hpc)⟩

/-! ### The thread of the blocks -/

/-- The places of `storageSystem`. -/
def StoragePc.recorderPc : StoragePc → RecorderPc
  | .top => .top
  | .waiting => .waiting
  | .opening => .opening
  | .write i => .write i
  | .written => .testMove
  | .ended => .ended

/-- The two threads have the same variables and are at the same place. -/
structure SameFlags (r : Recorder Name) (s : StorageState) : Prop where
  moveDetected_eq : r.moveDetected = s.moveDetected
  postRecordCount_eq : r.postRecordCount.toNat = s.postRecordCount
  isRecording_eq : r.isRecording = s.isRecording
  dataReady_eq : r.dataReady = s.dataReady
  running_eq : r.running = s.running
  pc_eq : r.pc = s.pc.recorderPc

/-- The state is one the thread with its muxer can be in. -/
def Followed (Name : Type) (s : StorageState) : Prop :=
  ∃ r : Recorder Name, (recorderSystem Name).Reachable r ∧ SameFlags r s

theorem SameFlags.count_pos {r : Recorder Name} {s : StorageState} (h : SameFlags r s) :
    0 < r.postRecordCount ↔ 0 < s.postRecordCount := by
  rw [UInt8.lt_iff_toNat_lt, h.postRecordCount_eq, UInt8.toNat_zero]

/-- One more step of the thread. -/
theorem reachable_thread {r t : Recorder Name} (hr : (recorderSystem Name).Reachable r)
    (input : ThreadInput Name) (h : recorderThread r input = some t) :
    (recorderSystem Name).Reachable t :=
  .step (a := .thread input) hr trivial h

/-- The part with the lock held. -/
theorem followed_locked {r : Recorder Name} {s : StorageState} (input : ThreadInput Name)
    (hr : (recorderSystem Name).Reachable r) (hpc : r.pc = .lock ∨ r.pc = .waiting)
    (h : SameFlags { r with pc := s.pc.recorderPc } s) : Followed Name (storageLocked s) := by
  have hlocked : (recorderSystem Name).Reachable r.locked := by
    refine reachable_thread hr input ?_
    rcases hpc with hpc | hpc <;> simp only [recorderThread, hpc]
  have hready : r.dataReady = s.dataReady := h.dataReady_eq
  have hrunning : r.running = s.running := h.running_eq
  have hmove : r.moveDetected = s.moveDetected := h.moveDetected_eq
  have hcount : 0 < r.postRecordCount ↔ 0 < s.postRecordCount := h.count_pos
  rw [storageLocked]
  rw [Recorder.locked] at hlocked
  simp only [hready, hrunning, hmove, hcount] at hlocked
  split_ifs with hwait hstop hsave
  · rw [if_pos hwait] at hlocked
    exact ⟨_, hlocked, ⟨rfl, h.2, h.3, rfl, rfl, rfl⟩⟩
  · rw [if_neg hwait, if_pos hstop] at hlocked
    exact ⟨_, hlocked, ⟨rfl, h.2, h.3, rfl, rfl, rfl⟩⟩
  · rw [if_neg hwait, if_neg hstop, if_pos hsave] at hlocked
    exact ⟨_, hlocked, ⟨rfl, h.2, h.3, rfl, rfl, rfl⟩⟩
  · rw [if_neg hwait, if_neg hstop, if_neg hsave] at hlocked
    -- `fp` is null
    have hnotSaved := reachable_thread hlocked input (if_neg (by simp [(recorderInv hr).fp_eq]))
    exact ⟨_, hnotSaved, ⟨rfl, h.2, h.3, rfl, rfl, rfl⟩⟩

/-- Nothing works. -/
def initFails : InitAnswers := ⟨.failed false, false, false, false⟩

/-- The opening of the file. -/
theorem followed_opening {r : Recorder Name} {s : StorageState} (filename : Name) (ok : Bool)
    (hr : (recorderSystem Name).Reachable r) (h : SameFlags r s) (hpc : s.pc = .opening) :
    Followed Name { s with
      isRecording := if s.isRecording then true else ok
      pc := if (if s.isRecording then true else ok) then .write 0 else .written } := by
  have hrpc : r.pc = .opening := by rw [h.pc_eq, hpc]; rfl
  have hinit := (recorderInv hr).isInit_eq (by simp [hrpc])
  cases hrec : s.isRecording with
  | true =>
    rw [← h.isRecording_eq] at hrec
    have hstep := reachable_thread hr ⟨initFails, filename, none, 0⟩
      (t := { r with pc := .write 0 }) (by simp only [recorderThread, hrpc, hrec, if_true])
    exact ⟨_, hstep, ⟨h.1, h.2, hrec, h.4, h.5, rfl⟩⟩
  | false =>
    rw [← h.isRecording_eq] at hrec
    rw [hrec] at hinit
    cases ok with
    | true =>
      have hzero : (r.gCtx.ffmpegMuxerInit filename initSucceeds).1 = 0 := by
        rw [(toContext_init r.gCtx filename).1, MuxerContext.ffmpegMuxerInit, Muxer.toContext, hinit]
        rfl
      have hstep := reachable_thread hr ⟨initSucceeds, filename, none, 0⟩
        (t := { r with
          gCtx := (r.gCtx.ffmpegMuxerInit filename initSucceeds).2
          isRecording := true
          pc := .write 0 })
        (by simp [recorderThread, hrpc, hrec, hzero])
      exact ⟨_, hstep, ⟨h.1, h.2, rfl, h.4, h.5, rfl⟩⟩
    | false =>
      have hminus : (r.gCtx.ffmpegMuxerInit filename initFails).1 = -2 := by
        simp [Muxer.ffmpegMuxerInit, initFails, hinit]
      have hstep := reachable_thread hr ⟨initFails, filename, none, 0⟩
        (t := { r with
          gCtx := (r.gCtx.ffmpegMuxerInit filename initFails).2
          pc := .testMove })
        (by simp [recorderThread, hrpc, hrec, hminus])
      exact ⟨_, hstep, ⟨h.1, h.2, hrec, h.4, h.5, rfl⟩⟩

/-- What follows a block that was written. -/
theorem followed_written {r : Recorder Name} {s t : StorageState} (input : ThreadInput Name)
    (hr : (recorderSystem Name).Reachable r) (h : SameFlags r s) (hpc : s.pc = .written)
    (ok : Bool) (ht : storageThread s ok = some t) : Followed Name t := by
  have hrpc : r.pc = .testMove := by rw [h.pc_eq, hpc]; rfl
  have hmove := h.moveDetected_eq
  simp only [storageThread, hpc] at ht
  cases hmoved : s.moveDetected with
  | true =>
    rw [hmoved] at hmove
    rw [if_neg (by simp [hmoved])] at ht
    rw [← Option.some_inj.mp ht]
    have hstep := reachable_thread hr input (t := { r with pc := .top })
      (by simp [recorderThread, hrpc, hmove])
    exact ⟨_, hstep, ⟨h.1, h.2, h.3, h.4, h.5, rfl⟩⟩
  | false =>
    rw [hmoved] at hmove
    have htest := reachable_thread hr input (t := { r with pc := .testCount })
      (by simp [recorderThread, hrpc, hmove])
    by_cases hcount : 0 < s.postRecordCount
    · rw [if_pos ⟨hmoved, hcount⟩] at ht
      rw [← Option.some_inj.mp ht]
      have hpos := h.count_pos.mpr hcount
      have hval : (r.postRecordCount - 1).toNat = s.postRecordCount - 1 := by
        have hone : (1 : UInt8) ≤ r.postRecordCount := by
          rw [UInt8.le_iff_toNat_le, h.postRecordCount_eq]
          exact hcount
        rw [UInt8.toNat_sub_of_le _ _ hone, h.postRecordCount_eq]
        rfl
      have hload := reachable_thread htest input (t := { r with pc := .load })
        (by simp [recorderThread, hpos])
      have hstore := reachable_thread hload input
        (t := { r with pc := .store r.postRecordCount }) rfl
      have hcounted := reachable_thread hstore input
        (t := { r with postRecordCount := r.postRecordCount - 1, pc := .testZero }) rfl
      by_cases hzero : s.postRecordCount - 1 = 0
      · have hrzero : r.postRecordCount - 1 = 0 := by
          rw [← UInt8.toNat_inj, hval, hzero]
          rfl
        rw [if_pos hzero]
        have hclose := reachable_thread hcounted input
          (t := { r with postRecordCount := r.postRecordCount - 1, pc := .close })
          (by simp [recorderThread, hrzero])
        have hclear := reachable_thread (reachable_thread hclose input rfl) input rfl
        exact ⟨_, hclear, ⟨h.1, hval, rfl, h.4, h.5, rfl⟩⟩
      · have hrzero : r.postRecordCount - 1 ≠ 0 := by
          rw [Ne, ← UInt8.toNat_inj, hval]
          exact hzero
        rw [if_neg hzero]
        have hstep := reachable_thread hcounted input
          (t := { r with postRecordCount := r.postRecordCount - 1, pc := .top })
          (by simp [recorderThread, hrzero])
        exact ⟨_, hstep, ⟨h.1, hval, h.3, h.4, h.5, rfl⟩⟩
    · rw [if_neg (by simp [hcount])] at ht
      rw [← Option.some_inj.mp ht]
      have hstep := reachable_thread htest input (t := { r with pc := .top })
        (by simp [recorderThread, mt h.count_pos.mp hcount])
      exact ⟨_, hstep, ⟨h.1, h.2, h.3, h.4, h.5, rfl⟩⟩

/-- **Refinement**: every state of `storageSystem` is one of the thread with its muxer, as far as
the flags go. -/
theorem recorder_of_storage (filename : Name) {s : StorageState}
    (hs : storageSystem.Reachable s) : Followed Name s := by
  refine hs.invariant ?_ ?_
  · exact ⟨.init, .init, ⟨rfl, rfl, rfl, rfl, rfl, rfl⟩⟩
  · rintro s a t ⟨r, hr, h⟩ - ht
    have ht : storageStep s a = some t := ht
    cases a with
    | image img =>
      cases storageStep_cases ht with
      | keep => exact ⟨r, hr, ⟨h.1, h.2, h.3, h.4, h.5, h.6⟩⟩
      | drop => exact ⟨r, hr, ⟨h.1, h.2, h.3, h.4, h.5, h.6⟩⟩
      | swap =>
        exact ⟨_, .step (a := .block) hr trivial rfl, ⟨h.1, h.2, h.3, rfl, h.5, h.6⟩⟩
    | alarm moved =>
      cases moved with
      | true =>
        obtain rfl := Option.some_inj.mp ht
        exact ⟨_, .step (a := .alarm true) hr trivial rfl, ⟨rfl, rfl, h.3, h.4, h.5, h.6⟩⟩
      | false =>
        obtain rfl := Option.some_inj.mp ht
        exact ⟨_, .step (a := .alarm false) hr trivial rfl, ⟨rfl, h.2, h.3, h.4, h.5, h.6⟩⟩
    | stop =>
      obtain rfl := Option.some_inj.mp ht
      exact ⟨_, .step (a := .stop) hr trivial rfl, ⟨h.1, h.2, h.3, h.4, rfl, h.6⟩⟩
    | thread ok =>
      have ht : storageThread s ok = some t := ht
      have hinput : ThreadInput Name := ⟨initFails, filename, none, 0⟩
      cases hpc : s.pc with
      | top =>
        have hrpc : r.pc = .top := by rw [h.pc_eq, hpc]; rfl
        simp only [storageThread, hpc] at ht
        split_ifs at ht with hrunning
        · obtain rfl := Option.some_inj.mp ht
          have hlock := reachable_thread hr hinput (t := { r with pc := .lock })
            (by simp [recorderThread, hrpc, h.running_eq, hrunning])
          exact followed_locked hinput hlock (.inl rfl) ⟨h.1, h.2, h.3, h.4, h.5, rfl⟩
        · obtain rfl := Option.some_inj.mp ht
          have hend := reachable_thread hr hinput (t := { r with fp := false, pc := .ended })
            (by simp [recorderThread, hrpc, h.running_eq, hrunning])
          exact ⟨_, hend, ⟨h.1, h.2, h.3, h.4, h.5, rfl⟩⟩
      | waiting =>
        have hrpc : r.pc = .waiting := by rw [h.pc_eq, hpc]; rfl
        simp only [storageThread, hpc, Option.some_inj] at ht
        rw [← ht]
        exact followed_locked hinput hr (.inr hrpc) ⟨h.1, h.2, h.3, h.4, h.5, rfl⟩
      | opening =>
        simp only [storageThread, hpc, Option.some_inj] at ht
        rw [← ht]
        exact followed_opening filename ok hr h hpc
      | write i =>
        have hrpc : r.pc = .write i := by rw [h.pc_eq, hpc]; rfl
        simp only [storageThread, hpc, Option.some_inj] at ht
        rw [← ht]
        have hstep := reachable_thread hr hinput (by simp only [recorderThread, hrpc]; rfl)
        refine ⟨_, hstep, ⟨h.1, h.2, h.3, h.4, h.5, ?_⟩⟩
        simp only [ffmpegMuxerWrite]
        split_ifs
        · rfl
        · rfl
      | written => exact followed_written hinput hr h hpc ok ht
      | ended =>
        simp only [storageThread, hpc] at ht
        cases ht

end

end Sentry
