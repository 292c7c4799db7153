/-
The blocks of the video storage (`src/storage/storage_video.cpp`).

`storage_msg_handler` collects images in the write buffer.  With the 50th it swaps the
two buffers, if the last block has been taken, or else drops the 50.
`storage_video_thread` clears `data_ready` when it takes a block, and then writes the
block's 50 images from the read buffer without the lock; a swap in between
exchanges the buffer under it.

* `storageMsgHandler`, `storageThread` — the functions;
* `storageSystem` — the thread and the handler;
* `StorageStep` — everything one step can do;
* `WholeBlocks` — the images of a block were handled one after the other;
* `wholeBlocks_iff` — the runs with whole blocks are those in which no block is read
  on behind a swap.
-/
import SentrySystem.CameraCapture

namespace Sentry

/-! ### The code -/

/-- `MAXSIZE`. -/
def maxsize : ℕ := 50

theorem maxsize_pos : 0 < maxsize := by decide

/-- The buffers `A` and `B`. -/
inductive Side
  | a
  | b
  deriving DecidableEq, Repr

/-- The arguments of `ffmpeg_muxer_write`, with the bytes at its pointer, and the number of
the image that was stored there. -/
structure Muxed where
  arrival : ℕ
  bytes : List UInt8
  len : UInt32
  timestampUs : UInt64
  deriving DecidableEq, Repr

/-- Where `storage_video_thread` is: in front of the test of `running`; in
`pthread_cond_wait`; in front of the test of `is_recording`; in front of the `i`-th
`ffmpeg_muxer_write`; behind the last one; behind the loop. -/
inductive StoragePc
  | top
  | waiting
  | opening
  | write (i : ℕ)
  | written
  | ended
  deriving DecidableEq, Repr

/-- The state: the arrays of `Storage_Data` and its pointers to them, its other fields, the
variables of the thread; and the history: the images handled, their numbers beside
the arrays, the frames of the block written last, the blocks written, and whether
the buffers were swapped since the first frame of the last block. -/
structure StorageState where
  buffer : Side → ℕ → List UInt8
  lens : Side → ℕ → UInt32
  ts : Side → ℕ → UInt64
  writePtr : Side
  writeLensPtr : Side
  writeTsPtr : Side
  readPtr : Side
  readLensPtr : Side
  readTsPtr : Side
  writeIdx : ℕ
  dataReady : Bool
  moveDetected : Bool
  postRecordCount : ℕ
  isRecording : Bool
  running : Bool
  pc : StoragePc
  handled : List Frame
  arrival : Side → ℕ → ℕ
  block : List Muxed
  blocks : List (List Muxed)
  swapped : Bool

/-- The state after `Storage_Data_Init`. -/
def StorageState.init : StorageState where
  buffer := fun _ _ => []
  lens := fun _ _ => 0
  ts := fun _ _ => 0
  writePtr := .a
  writeLensPtr := .a
  writeTsPtr := .a
  readPtr := .b
  readLensPtr := .b
  readTsPtr := .b
  writeIdx := 0
  dataReady := false
  moveDetected := false
  postRecordCount := 0
  isRecording := false
  running := true
  pc := .top
  handled := []
  arrival := fun _ _ => 0
  block := []
  blocks := []
  swapped := false

/-- An element of one of the two arrays at a pointer. -/
def setAt {α : Type} (f : Side → ℕ → α) (p : Side) (i : ℕ) (x : α) : Side → ℕ → α :=
  Function.update f p (Function.update (f p) i x)

/-- The image stored at `write_idx`. -/
def StorageState.store (s : StorageState) (img : Frame) : StorageState :=
  { s with
    buffer := setAt s.buffer s.writePtr s.writeIdx img.buf.bytes
    lens := setAt s.lens s.writeLensPtr s.writeIdx img.buf.bytesused
    ts := setAt s.ts s.writeTsPtr s.writeIdx img.timestamps
    arrival := setAt s.arrival s.writePtr s.writeIdx s.handled.length
    writeIdx := s.writeIdx + 1
    handled := s.handled ++ [img] }

/-- The three swaps. -/
def StorageState.swapBuffers (s : StorageState) : StorageState :=
  { s with
    writePtr := s.readPtr
    readPtr := s.writePtr
    writeLensPtr := s.readLensPtr
    readLensPtr := s.writeLensPtr
    writeTsPtr := s.readTsPtr
    readTsPtr := s.writeTsPtr
    swapped := true }

/-- `storage_msg_handler`, for an image. -/
def storageMsgHandler (s : StorageState) (img : Frame) : StorageState :=
  let t := s.store img
  if t.writeIdx ≥ maxsize then
    if t.dataReady then { t with writeIdx := 0 }
    else { t.swapBuffers with dataReady := true, writeIdx := 0 }
  else t

/-- The loop with the lock held, up to where it is given back. -/
def storageLocked (s : StorageState) : StorageState :=
  if s.dataReady = false ∧ s.running = true then { s with pc := .waiting }
  else if s.running = false then { s with pc := .ended }
  else
    { s with
      dataReady := false
      pc := if s.moveDetected = true ∨ 0 < s.postRecordCount then .opening else .top }

/-- The `i`-th call of `ffmpeg_muxer_write`. -/
def StorageState.muxed (s : StorageState) (i : ℕ) : Muxed where
  arrival := s.arrival s.readPtr i
  bytes := (s.buffer s.readPtr i).take (s.lens s.readLensPtr i).toNat
  len := s.lens s.readLensPtr i
  timestampUs := s.ts s.readTsPtr i

/-- The body of the loop around `ffmpeg_muxer_write`. -/
def ffmpegMuxerWrite (s : StorageState) (i : ℕ) : StorageState :=
  let block := if i = 0 then [s.muxed i] else s.block ++ [s.muxed i]
  { s with
    block := block
    blocks := if i + 1 < maxsize then s.blocks else s.blocks ++ [block]
    swapped := if i = 0 then false else s.swapped
    pc := if i + 1 < maxsize then .write (i + 1) else .written }

/-- A step of `storage_video_thread`, `ok` telling whether `ffmpeg_muxer_init` succeeds if
it is called. -/
def storageThread (s : StorageState) (ok : Bool) : Option StorageState :=
  match s.pc with
  | .top => if s.running then some (storageLocked s) else some { s with pc := .ended }
  | .waiting => some (storageLocked s)
  | .opening =>
    let isRecording := if s.isRecording then true else ok
    some { s with
      isRecording := isRecording
      pc := if isRecording then .write 0 else .written }
  | .write i => some (ffmpegMuxerWrite s i)
  | .written =>
    if s.moveDetected = false ∧ 0 < s.postRecordCount then
      some { s with
        postRecordCount := s.postRecordCount - 1
        isRecording := if s.postRecordCount - 1 = 0 then false else s.isRecording
        pc := .top }
    else some { s with pc := .top }
  | .ended => none

/-- What can happen: an image or an alarm is handled, `running` is cleared, the thread makes
a step. -/
inductive StorageAction
  | image (img : Frame)
  | alarm (moved : Bool)
  | stop
  | thread (ok : Bool)

/-- One step. -/
def storageStep (s : StorageState) : StorageAction → Option StorageState
  | .image img => some (storageMsgHandler s img)
  | .alarm moved =>
    if moved then some { s with moveDetected := true, postRecordCount := 1 }
    else some { s with moveDetected := false }
  | .stop => some { s with running := false }
  | .thread ok => storageThread s ok

/-- The video storage. -/
def storageSystem : TransitionSystem StorageState StorageAction := ⟨.init, storageStep⟩

/-! ### What a step can do -/

/-- The thread is between two calls of `ffmpeg_muxer_write`, or in front of the first one. -/
def StoragePc.inLoop : StoragePc → Bool
  | write _ => true
  | _ => false

/-- The thread is between two calls of `ffmpeg_muxer_write`. -/
def StoragePc.inBlock : StoragePc → Bool
  | write (_ + 1) => true
  | _ => false

/-- The action is a step of the thread. -/
def StorageAction.isThread : StorageAction → Bool
  | thread _ => true
  | _ => false

/-- The thread has taken a block and not written all of it. -/
def StoragePc.busy : StoragePc → Bool
  | opening => true
  | write _ => true
  | _ => false

/-- Everything a step can do to a state. -/
inductive StorageStep (s : StorageState) : StorageAction → StorageState → Prop
  | keep (img : Frame) (hroom : s.writeIdx + 1 < maxsize) : StorageStep s (.image img) (s.store img)
  | drop (img : Frame) (hfull : ¬ s.writeIdx + 1 < maxsize) (hready : s.dataReady = true) :
      StorageStep s (.image img) { s.store img with writeIdx := 0 }
  | swap (img : Frame) (hfull : ¬ s.writeIdx + 1 < maxsize) (hready : s.dataReady = false) :
      StorageStep s (.image img)
        { (s.store img).swapBuffers with dataReady := true, writeIdx := 0 }
  | alarm (moved : Bool) (postRecordCount : ℕ) : StorageStep s (.alarm moved)
      { s with moveDetected := moved, postRecordCount := postRecordCount }
  | stop : StorageStep s .stop { s with running := false }
  -- the thread takes the block in the read buffer
  | take (ok : Bool) (pc : StoragePc) (hready : s.dataReady = true) (hpc : s.pc.inLoop = false)
      (hto : pc = .opening ∨ pc = .top) :
      StorageStep s (.thread ok) { s with dataReady := false, pc := pc }
  | opened (ok : Bool) (hpc : s.pc = .opening) :
      StorageStep s (.thread ok) { s with isRecording := true, pc := .write 0 }
  | move (ok : Bool) (pc : StoragePc) (postRecordCount : ℕ) (isRecording : Bool)
      (hpc : s.pc.inLoop = false) (hto : pc.busy = false) :
      StorageStep s (.thread ok)
        { s with pc := pc, postRecordCount := postRecordCount, isRecording := isRecording }
  | write (ok : Bool) (i : ℕ) (hpc : s.pc = .write i) :
      StorageStep s (.thread ok) (ffmpegMuxerWrite s i)

theorem storageLocked_cases {s : StorageState} (ok : Bool) (hpc : s.pc.inLoop = false) :
    StorageStep s (.thread ok) (storageLocked s) := by
  rw [storageLocked]
  split_ifs with hwait hrun hsave
  · exact .move ok .waiting _ _ hpc rfl
  · exact .move ok .ended _ _ hpc rfl
  · have hready : s.dataReady = true := by
      rw [Bool.not_eq_false] at hrun
      simpa [hrun] using hwait
    exact .take ok .opening hready hpc (.inl rfl)
  · have hready : s.dataReady = true := by
      rw [Bool.not_eq_false] at hrun
      simpa [hrun] using hwait
    exact .take ok .top hready hpc (.inr rfl)

theorem storageThread_cases {s t : StorageState} {ok : Bool} (h : storageThread s ok = some t) :
    StorageStep s (.thread ok) t := by
  rw [storageThread] at h
  split at h
  · next hpc =>
    split_ifs at h
    · rw [Option.some_inj] at h
      exact h ▸ storageLocked_cases ok (by rw [hpc]; rfl)
    · rw [Option.some_inj] at h
      exact h ▸ .move ok .ended _ _ (by rw [hpc]; rfl) rfl
  · next hpc =>
    rw [Option.some_inj] at h
    exact h ▸ storageLocked_cases ok (by rw [hpc]; rfl)
  · next hpc =>
    rw [Option.some_inj] at h
    rw [← h]
    by_cases hrec : (if s.isRecording = true then true else ok) = true
    · simp only [hrec, if_true]
      exact .opened ok hpc
    · simp only [hrec]
      exact .move ok .written _ _ (by rw [hpc]; rfl) rfl
  · next i hpc =>
    rw [Option.some_inj] at h
    exact h ▸ .write ok i hpc
  · next hpc =>
    split_ifs at h
    · rw [Option.some_inj] at h
      exact h ▸ .move ok .top _ _ (by rw [hpc]; rfl) rfl
    · rw [Option.some_inj] at h
      exact h ▸ .move ok .top _ _ (by rw [hpc]; rfl) rfl
    · rw [Option.some_inj] at h
      exact h ▸ .move ok .top _ _ (by rw [hpc]; rfl) rfl
  · simp at h

theorem storageStep_cases {s t : StorageState} {a : StorageAction} (h : storageStep s a = some t) :
    StorageStep s a t := by
  cases a with
  | image img =>
    simp only [storageStep, Option.some_inj] at h
    rw [← h, storageMsgHandler]
    dsimp only
    split_ifs with hfull hready
    · exact .drop img (Nat.not_lt.mpr hfull) hready
    · exact .swap img (Nat.not_lt.mpr hfull) (Bool.eq_false_iff.mpr hready)
    · exact .keep img (Nat.not_le.mp hfull)
  | alarm moved =>
    simp only [storageStep] at h
    split_ifs at h with hmoved
    · rw [Option.some_inj] at h
      exact h ▸ hmoved ▸ .alarm moved 1
    · rw [Option.some_inj] at h
      exact h ▸ (Bool.eq_false_iff.mpr hmoved) ▸ .alarm moved s.postRecordCount
  | stop =>
    simp only [storageStep, Option.some_inj] at h
    exact h ▸ .stop
  | thread ok => exact storageThread_cases h

/-! ### What the buffers hold -/

/-- What `ffmpeg_muxer_write` gets for the `k`-th image handled. -/
def Frame.muxed (f : Frame) (k : ℕ) : Muxed :=
  ⟨k, f.buf.bytes, f.buf.bytesused, f.timestamps⟩

/-- The `j`-th place of a buffer holds the `k`-th image handled. -/
def StorageState.Holds (s : StorageState) (p : Side) (j k : ℕ) : Prop :=
  ∃ f, s.handled[k]? = some f ∧ s.buffer p j = f.buf.bytes ∧ s.lens p j = f.buf.bytesused ∧
    s.ts p j = f.timestamps ∧ s.arrival p j = k

/-- The number of the first image in the read buffer. -/
def StorageState.start (s : StorageState) : ℕ := s.arrival s.readPtr 0

/-- The pointers of a buffer point to the arrays of one side. -/
structure Aligned (s : StorageState) : Prop where
  writeLens_eq : s.writeLensPtr = s.writePtr
  writeTs_eq : s.writeTsPtr = s.writePtr
  readLens_eq : s.readLensPtr = s.readPtr
  readTs_eq : s.readTsPtr = s.readPtr
  ne : s.readPtr ≠ s.writePtr

/-- The write buffer holds the images handled last, and the read buffer, once it is to be
read, 50 earlier ones. -/
structure Buffered (s : StorageState) : Prop where
  aligned : Aligned s
  writeIdx_lt : s.writeIdx < maxsize
  writeIdx_le : s.writeIdx ≤ s.handled.length
  write_eq : ∀ j < s.writeIdx, s.Holds s.writePtr j (s.handled.length - s.writeIdx + j)
  read_eq : s.dataReady = true ∨ s.pc.busy = true → ∀ j < maxsize, s.Holds s.readPtr j (s.start + j)
  read_before : s.dataReady = true ∨ s.pc.busy = true →
    s.start + maxsize + s.writeIdx ≤ s.handled.length

theorem setAt_self {α : Type} (f : Side → ℕ → α) (p : Side) (i : ℕ) (x : α) :
    setAt f p i x p i = x := by
  rw [setAt, Function.update_self, Function.update_self]

theorem setAt_of_ne {α : Type} (f : Side → ℕ → α) {p q : Side} {i j : ℕ} (x : α)
    (h : q ≠ p ∨ j ≠ i) : setAt f p i x q j = f q j := by
  rw [setAt, Function.update_apply]
  split_ifs with hq
  · subst hq
    rw [Function.update_of_ne (h.resolve_left fun hne => hne rfl)]
  · rfl

/-- A place that is not written keeps its image. -/
theorem StorageState.Holds.store {s : StorageState} {p : Side} {j k : ℕ} (h : s.Holds p j k) (img : Frame)
    (ha : Aligned s) (hne : p ≠ s.writePtr ∨ j ≠ s.writeIdx) : (s.store img).Holds p j k := by
  obtain ⟨f, hf, hbuf, hlen, hts, harr⟩ := h
  refine ⟨f, ?_, ?_, ?_, ?_, ?_⟩
  · show (s.handled ++ [img])[k]? = some f
    rw [List.getElem?_append_left (List.getElem?_eq_some_iff.mp hf).1, hf]
  · exact (setAt_of_ne _ _ hne).trans hbuf
  · exact (setAt_of_ne _ _ (ha.writeLens_eq ▸ hne)).trans hlen
  · exact (setAt_of_ne _ _ (ha.writeTs_eq ▸ hne)).trans hts
  · exact (setAt_of_ne _ _ hne).trans harr

/-- The place written holds the new image. -/
theorem holds_store (s : StorageState) (img : Frame) (ha : Aligned s) :
    (s.store img).Holds s.writePtr s.writeIdx s.handled.length := by
  refine ⟨img, ?_, ?_, ?_, ?_, ?_⟩
  · show (s.handled ++ [img])[s.handled.length]? = some img
    rw [List.getElem?_append_right le_rfl, Nat.sub_self, List.getElem?_cons_zero]
  · exact setAt_self _ _ _ _
  · exact ha.writeLens_eq ▸ setAt_self _ _ _ _
  · exact ha.writeTs_eq ▸ setAt_self _ _ _ _
  · exact setAt_self _ _ _ _

/-- The write buffer behind a store. -/
theorem Buffered.store_eq {s : StorageState} (h : Buffered s) (img : Frame) :
    ∀ j < s.writeIdx + 1,
      (s.store img).Holds s.writePtr j (s.handled.length - s.writeIdx + j) := by
  intro j hj
  by_cases hlast : j = s.writeIdx
  · rw [hlast, Nat.sub_add_cancel h.writeIdx_le]
    exact holds_store s img h.aligned
  · exact (h.write_eq j (by omega)).store img h.aligned (.inr hlast)

/-- The read buffer behind a store. -/
theorem Buffered.store_start {s : StorageState} (h : Buffered s) (img : Frame) :
    (s.store img).start = s.start :=
  setAt_of_ne _ _ (.inl h.aligned.ne)

/-- The first image of the write buffer, when the last one is stored. -/
theorem Buffered.arrival_store {s : StorageState} (h : Buffered s) (img : Frame) :
    (s.store img).arrival s.writePtr 0 = s.handled.length - s.writeIdx := by
  obtain ⟨f, hf, hbuf, hlens, hts, harr⟩ := h.store_eq img 0 (Nat.succ_pos _)
  exact harr

theorem Buffered.step {s t : StorageState} {a : StorageAction} (h : Buffered s)
    (ht : StorageStep s a t) : Buffered t := by
  cases ht with
  | keep img hroom =>
    have hlen : (s.handled ++ [img]).length = s.handled.length + 1 := by simp
    have hle := h.writeIdx_le
    refine ⟨⟨h.aligned.1, h.aligned.2, h.aligned.3, h.aligned.4, h.aligned.5⟩, hroom, ?_, ?_, ?_, ?_⟩
    · show s.writeIdx + 1 ≤ (s.handled ++ [img]).length
      omega
    · intro j hj
      show (s.store img).Holds s.writePtr j ((s.handled ++ [img]).length - (s.writeIdx + 1) + j)
      rw [hlen, Nat.add_sub_add_right]
      exact h.store_eq img j hj
    · intro hbusy j hj
      rw [h.store_start img]
      exact (h.read_eq hbusy j hj).store img h.aligned (.inl h.aligned.ne)
    · intro hbusy
      have hbefore := h.read_before hbusy
      rw [h.store_start img]
      show s.start + maxsize + (s.writeIdx + 1) ≤ (s.handled ++ [img]).length
      omega
  | drop img hfull hready =>
    have hlen : (s.handled ++ [img]).length = s.handled.length + 1 := by simp
    refine ⟨⟨h.aligned.1, h.aligned.2, h.aligned.3, h.aligned.4, h.aligned.5⟩, maxsize_pos,
      Nat.zero_le _, fun j hj => absurd hj (Nat.not_lt_zero j), ?_, ?_⟩
    · intro hbusy j hj
      show (s.store img).Holds s.readPtr j ((s.store img).start + j)
      rw [h.store_start img]
      exact (h.read_eq hbusy j hj).store img h.aligned (.inl h.aligned.ne)
    · intro hbusy
      have hbefore := h.read_before hbusy
      show (s.store img).start + maxsize + 0 ≤ (s.handled ++ [img]).length
      rw [h.store_start img]
      omega
  | swap img hfull hready =>
    have hlen : (s.handled ++ [img]).length = s.handled.length + 1 := by simp
    have hlt := h.writeIdx_lt
    have hle := h.writeIdx_le
    -- the read buffer is the one just filled
    have hstart := h.arrival_store img
    refine ⟨⟨h.aligned.3.trans rfl, h.aligned.4, h.aligned.1, h.aligned.2, h.aligned.5.symm⟩,
      maxsize_pos, Nat.zero_le _, fun j hj => absurd hj (Nat.not_lt_zero j), ?_, ?_⟩
    · intro _ j hj
      show (s.store img).Holds s.writePtr j ((s.store img).arrival s.writePtr 0 + j)
      rw [hstart]
      exact h.store_eq img j (by omega)
    · intro _
      show (s.store img).arrival s.writePtr 0 + maxsize + 0 ≤ (s.handled ++ [img]).length
      rw [hstart]
      omega
  | alarm => exact ⟨⟨h.aligned.1, h.aligned.2, h.aligned.3, h.aligned.4, h.aligned.5⟩,
      h.writeIdx_lt, h.writeIdx_le, h.write_eq, h.read_eq, h.read_before⟩
  | stop => exact ⟨⟨h.aligned.1, h.aligned.2, h.aligned.3, h.aligned.4, h.aligned.5⟩,
      h.writeIdx_lt, h.writeIdx_le, h.write_eq, h.read_eq, h.read_before⟩
  | take ok pc hready hpc hto =>
    exact ⟨⟨h.aligned.1, h.aligned.2, h.aligned.3, h.aligned.4, h.aligned.5⟩, h.writeIdx_lt,
      h.writeIdx_le, h.write_eq, fun _ => h.read_eq (.inl hready),
      fun _ => h.read_before (.inl hready)⟩
  | opened ok hpc =>
    have hbusy : s.pc.busy = true := by rw [hpc]; rfl
    exact ⟨⟨h.aligned.1, h.aligned.2, h.aligned.3, h.aligned.4, h.aligned.5⟩, h.writeIdx_lt,
      h.writeIdx_le, h.write_eq, fun _ => h.read_eq (.inr hbusy),
      fun _ => h.read_before (.inr hbusy)⟩
  | move ok pc postRecordCount isRecording hpc hto =>
    have hready : ∀ {p : Prop}, (s.dataReady = true → p) → s.dataReady = true ∨ pc.busy = true → p := by
      rintro p hp (hready | hbusy)
      · exact hp hready
      · rw [hto] at hbusy
        exact absurd hbusy Bool.false_ne_true
    exact ⟨⟨h.aligned.1, h.aligned.2, h.aligned.3, h.aligned.4, h.aligned.5⟩, h.writeIdx_lt,
      h.writeIdx_le, h.write_eq, hready fun hr => h.read_eq (.inl hr),
      hready fun hr => h.read_before (.inl hr)⟩
  | write ok i hpc =>
    have hbusy : s.pc.busy = true := by rw [hpc]; rfl
    exact ⟨⟨h.aligned.1, h.aligned.2, h.aligned.3, h.aligned.4, h.aligned.5⟩, h.writeIdx_lt,
      h.writeIdx_le, h.write_eq, fun _ => h.read_eq (.inr hbusy),
      fun _ => h.read_before (.inr hbusy)⟩

/-! ### Whole blocks -/

/-- Frames of images handled one after the other. -/
def Consecutive (handled : List Frame) (block : List Muxed) : Prop :=
  ∃ n, ∀ j m, block[j]? = some m →
    ∃ f : Frame, handled[n + j]? = some f ∧ m = f.muxed (n + j)

/-- Every block consists of images handled one after the other, the one being written as far
as it is written. -/
structure WholeBlocks (s : StorageState) : Prop where
  whole : ∀ block ∈ s.blocks, block.length = maxsize ∧ Consecutive s.handled block
  current : Consecutive s.handled s.block

/-- The thread reads on in a block only if the buffers were not swapped since its first
frame. -/
def ReadsOneBuffer (s : StorageState) (a : StorageAction) : Prop :=
  a.isThread = true → s.pc.inBlock = true → s.swapped = false

instance (s : StorageState) (a : StorageAction) : Decidable (ReadsOneBuffer s a) :=
  inferInstanceAs (Decidable (a.isThread = true → s.pc.inBlock = true → s.swapped = false))

theorem Consecutive.append {handled more : List Frame} {block : List Muxed}
    (h : Consecutive handled block) : Consecutive (handled ++ more) block := by
  obtain ⟨n, hn⟩ := h
  refine ⟨n, ?_⟩
  intro j m hm
  obtain ⟨f, hf, hmf⟩ := hn j m hm
  refine ⟨f, ?_, hmf⟩
  rw [List.getElem?_append_left (List.getElem?_eq_some_iff.mp hf).1, hf]

/-- `ffmpeg_muxer_write` gets the image the read buffer holds. -/
theorem muxed_of_holds {s : StorageState} {j k : ℕ} (ha : Aligned s) (h : s.Holds s.readPtr j k) :
    ∃ f : Frame, s.handled[k]? = some f ∧ s.muxed j = f.muxed k := by
  obtain ⟨f, hf, hbuf, hlen, hts, harr⟩ := h
  have hsize : f.buf.bytesused.toNat = f.buf.bytes.length := by
    rw [V4l2Buffer.bytesused, UInt32.toNat_ofNat', Nat.mod_eq_of_lt f.buf.size_lt]
  refine ⟨f, hf, ?_⟩
  rw [StorageState.muxed, ha.readLens_eq, ha.readTs_eq, harr, hbuf, hlen, hts, hsize,
    List.take_length]
  rfl

/-- What was written of the block, and where it came from. -/
structure BlockProgress (s : StorageState) : Prop where
  write_lt : ∀ i, s.pc = .write i → i < maxsize
  length_eq : ∀ i, s.pc = .write (i + 1) → s.block.length = i + 1
  kept : s.pc.inBlock = true → s.swapped = false → ∀ j m, s.block[j]? = some m → m = s.muxed j
  moved : s.pc.inBlock = true → s.swapped = true → s.dataReady = true ∧
    ∃ m, s.block[0]? = some m ∧ m.arrival + maxsize ≤ s.start

theorem inBlock_iff {pc : StoragePc} : pc.inBlock = true ↔ ∃ i, pc = .write (i + 1) := by
  rcases pc with _ | _ | _ | i | _ | _
  case write =>
    cases i with
    | zero => simp [StoragePc.inBlock]
    | succ i => simp [StoragePc.inBlock]
  all_goals simp [StoragePc.inBlock]

/-- A store leaves the read buffer alone. -/
theorem muxed_store {s : StorageState} (ha : Aligned s) (img : Frame) (j : ℕ) :
    (s.store img).muxed j = s.muxed j := by
  have hbuf : (s.store img).buffer s.readPtr j = s.buffer s.readPtr j := setAt_of_ne _ _ (.inl ha.ne)
  have hlen : (s.store img).lens s.readLensPtr j = s.lens s.readLensPtr j :=
    setAt_of_ne _ _ (.inl (ha.readLens_eq ▸ ha.writeLens_eq ▸ ha.ne))
  have hts : (s.store img).ts s.readTsPtr j = s.ts s.readTsPtr j :=
    setAt_of_ne _ _ (.inl (ha.readTs_eq ▸ ha.writeTs_eq ▸ ha.ne))
  have harr : (s.store img).arrival s.readPtr j = s.arrival s.readPtr j :=
    setAt_of_ne _ _ (.inl ha.ne)
  show (⟨(s.store img).arrival s.readPtr j, ((s.store img).buffer s.readPtr j).take
    ((s.store img).lens s.readLensPtr j).toNat, (s.store img).lens s.readLensPtr j,
    (s.store img).ts s.readTsPtr j⟩ : Muxed) = s.muxed j
  rw [hbuf, hlen, hts, harr]
  rfl

theorem busy_of_inBlock {pc : StoragePc} (h : pc.inBlock = true) : pc.busy = true := by
  obtain ⟨i, rfl⟩ := inBlock_iff.mp h
  rfl

/-- What the thread writes next is the next place of the read buffer. -/
theorem BlockProgress.append {s : StorageState} {i : ℕ} (h : BlockProgress s) (hpc : s.pc = .write (i + 1))
    (hkept : s.swapped = false) :
    ∀ j m, (s.block ++ [s.muxed (i + 1)])[j]? = some m → m = s.muxed j := by
  intro j m hm
  have hlen := h.length_eq i hpc
  by_cases hj : j < s.block.length
  · rw [List.getElem?_append_left hj] at hm
    exact h.kept (by rw [hpc]; rfl) hkept j m hm
  · have hlast : j = i + 1 := by
      have hlt := (List.getElem?_eq_some_iff.mp hm).1
      rw [List.length_append, List.length_singleton] at hlt
      omega
    rw [hlast, List.getElem?_append_right (by omega), hlen, Nat.sub_self] at hm
    rw [hlast]
    exact (Option.some_inj.mp hm).symm

/-- A step that changes none of the block, the read buffer and the place of the thread. -/
theorem BlockProgress.congr {s t : StorageState} (h : BlockProgress s) (hpc : t.pc = s.pc)
    (hblock : t.block = s.block) (hswapped : t.swapped = s.swapped)
    (hmuxed : ∀ j, t.muxed j = s.muxed j) (hready : t.dataReady = s.dataReady) : BlockProgress t := by
  have hstart : t.start = s.start := congrArg Muxed.arrival (hmuxed 0)
  refine ⟨hpc ▸ h.write_lt, hpc ▸ hblock ▸ h.length_eq, ?_, ?_⟩
  · intro hin hkept j m hm
    rw [hmuxed]
    exact h.kept (hpc ▸ hin) (hswapped ▸ hkept) j m (hblock ▸ hm)
  · rw [hpc, hswapped, hready, hblock, hstart]
    exact h.moved

/-- The thread is not in the loop over the block. -/
theorem BlockProgress.outside {s : StorageState} (h : s.pc.inLoop = false) : BlockProgress s := by
  have hloop : ∀ i, s.pc ≠ .write i := by
    intro i hpc
    rw [hpc] at h
    exact absurd h.symm Bool.false_ne_true
  have hblock : s.pc.inBlock ≠ true := by
    intro hin
    obtain ⟨i, hpc⟩ := inBlock_iff.mp hin
    exact hloop _ hpc
  exact ⟨fun i hi => absurd hi (hloop i), fun i hi => absurd hi (hloop _),
    fun hin => absurd hin hblock, fun hin => absurd hin hblock⟩

/-- The first swap behind a block leaves an earlier read buffer with the thread. -/
theorem BlockProgress.moved_swap {s : StorageState} (h : BlockProgress s) (hb : Buffered s)
    (img : Frame) (hready : s.dataReady = false) (hin : s.pc.inBlock = true) :
    ∃ m, s.block[0]? = some m ∧ m.arrival + maxsize ≤ (s.store img).arrival s.writePtr 0 := by
  obtain ⟨i, hpc⟩ := inBlock_iff.mp hin
  have hlen := h.length_eq i hpc
  -- a swap leaves `data_ready` set, so this is the first one
  have hfirst : s.swapped = false := by
    rcases hswapped : s.swapped with _ | _
    · rfl
    · rw [(h.moved hin hswapped).1] at hready
      exact absurd hready.symm Bool.false_ne_true
  obtain ⟨m, hm⟩ : ∃ m, s.block[0]? = some m :=
    ⟨_, List.getElem?_eq_getElem (by omega)⟩
  have harrival : m.arrival = s.start := congrArg Muxed.arrival (h.kept hin hfirst 0 m hm)
  have hstart := hb.arrival_store img
  have hbefore := hb.read_before (.inr (busy_of_inBlock hin))
  refine ⟨m, hm, ?_⟩
  rw [hstart, harrival]
  omega

/-- The thread writes one image more. -/
theorem BlockProgress.write {s : StorageState} {i : ℕ} (h : BlockProgress s)
    (hpc : s.pc = .write i) : BlockProgress (ffmpegMuxerWrite s i) := by
  have hlt := h.write_lt i hpc
  refine ⟨?_, ?_, ?_, ?_⟩
  · intro k hk
    simp only [ffmpegMuxerWrite] at hk
    split_ifs at hk with hmore
    rw [StoragePc.write.injEq] at hk
    omega
  · intro k hk
    simp only [ffmpegMuxerWrite] at hk ⊢
    split_ifs at hk with hmore
    rw [StoragePc.write.injEq, Nat.add_right_cancel_iff] at hk
    cases i with
    | zero => rw [← hk]; rfl
    | succ i =>
      rw [if_neg (Nat.succ_ne_zero i), List.length_append, h.length_eq i hpc, ← hk]
      rfl
  · intro _ hkept
    cases i with
    | zero =>
      intro j m hm
      have hm : [s.muxed 0][j]? = some m := hm
      rw [List.getElem?_singleton, Option.ite_none_right_eq_some, Option.some_inj] at hm
      obtain ⟨rfl, rfl⟩ := hm
      rfl
    | succ i => exact h.append hpc hkept
  · intro _ hmoved
    cases i with
    | zero => exact absurd hmoved Bool.false_ne_true
    | succ i =>
      obtain ⟨hready, m, hm, hle⟩ := h.moved (by rw [hpc]; rfl) hmoved
      refine ⟨hready, m, ?_, hle⟩
      show (s.block ++ [s.muxed (i + 1)])[0]? = some m
      rw [List.getElem?_append_left (List.getElem?_eq_some_iff.mp hm).1, hm]

/-- **One step** keeps the account of the block being written. -/
theorem BlockProgress.step {s t : StorageState} {a : StorageAction} (h : BlockProgress s)
    (hb : Buffered s) (ht : StorageStep s a t) : BlockProgress t := by
  cases ht with
  | keep img hroom => exact h.congr rfl rfl rfl (muxed_store hb.aligned img) rfl
  | drop img hfull hready => exact h.congr rfl rfl rfl (muxed_store hb.aligned img) rfl
  | swap img hfull hready =>
    exact ⟨h.write_lt, h.length_eq, fun _ hkept => absurd hkept.symm Bool.false_ne_true,
      fun hin _ => ⟨rfl, h.moved_swap hb img hready hin⟩⟩
  | alarm => exact h.congr rfl rfl rfl (fun _ => rfl) rfl
  | stop => exact h.congr rfl rfl rfl (fun _ => rfl) rfl
  | take ok pc hready hpc hto =>
    refine .outside ?_
    rcases hto with rfl | rfl <;> rfl
  | opened ok hpc =>
    refine ⟨?_, fun i hi => by simp at hi, fun hin => absurd hin Bool.false_ne_true,
      fun hin => absurd hin Bool.false_ne_true⟩
    intro i hi
    rw [StoragePc.write.injEq] at hi
    exact hi ▸ maxsize_pos
  | move ok pc postRecordCount isRecording hpc hto =>
    refine .outside ?_
    cases pc <;> first | rfl | exact absurd hto.symm Bool.false_ne_true
  | write ok i hpc => exact h.write hpc

/-- The place of the read buffer the thread writes next holds the image of its number. -/
theorem muxed_eq {s : StorageState} {i j : ℕ} (hb : Buffered s) (hpc : s.pc = .write i)
    (hj : j < maxsize) :
    ∃ f : Frame, s.handled[s.start + j]? = some f ∧ s.muxed j = f.muxed (s.start + j) :=
  muxed_of_holds hb.aligned (hb.read_eq (.inr (by rw [hpc]; rfl)) j hj)

theorem blocks_ffmpegMuxerWrite (s : StorageState) (i : ℕ) :
    (ffmpegMuxerWrite s i).blocks =
      if i + 1 < maxsize then s.blocks else s.blocks ++ [(ffmpegMuxerWrite s i).block] :=
  rfl

/-- With one buffer read, the block with its next frame is whole. -/
theorem consecutive_write {s : StorageState} {i : ℕ} {ok : Bool} (hb : Buffered s) (h : BlockProgress s)
    (hgood : ReadsOneBuffer s (.thread ok)) (hpc : s.pc = .write i) :
    Consecutive s.handled (ffmpegMuxerWrite s i).block ∧
      (ffmpegMuxerWrite s i).block.length = i + 1 := by
  have hlt := h.write_lt i hpc
  cases i with
  | zero =>
    refine ⟨⟨s.start, ?_⟩, rfl⟩
    intro j m hm
    have hm : [s.muxed 0][j]? = some m := hm
    rw [List.getElem?_singleton, Option.ite_none_right_eq_some, Option.some_inj] at hm
    obtain ⟨rfl, rfl⟩ := hm
    exact muxed_eq hb hpc hlt
  | succ i =>
    have hlen := h.length_eq i hpc
    have hkept : s.swapped = false := hgood rfl (by rw [hpc]; rfl)
    refine ⟨⟨s.start, ?_⟩, ?_⟩
    · intro j m hm
      have hm : (s.block ++ [s.muxed (i + 1)])[j]? = some m := hm
      have hj := (List.getElem?_eq_some_iff.mp hm).1
      rw [List.length_append, List.length_singleton] at hj
      rw [h.append hpc hkept j m hm]
      exact muxed_eq hb hpc (by omega)
    · show (s.block ++ [s.muxed (i + 1)]).length = i + 1 + 1
      rw [List.length_append, hlen]
      rfl

theorem WholeBlocks.step {s t : StorageState} {a : StorageAction} (h : WholeBlocks s)
    (hb : Buffered s) (hp : BlockProgress s) (hgood : ReadsOneBuffer s a) (ht : StorageStep s a t) :
    WholeBlocks t := by
  have hgrown : ∀ img, (∀ block ∈ s.blocks,
      block.length = maxsize ∧ Consecutive (s.handled ++ [img]) block) ∧
      Consecutive (s.handled ++ [img]) s.block := fun img =>
    ⟨fun block hblock => ⟨(h.whole block hblock).1, (h.whole block hblock).2.append⟩,
      h.current.append⟩
  cases ht with
  | keep img => exact ⟨(hgrown img).1, (hgrown img).2⟩
  | drop img => exact ⟨(hgrown img).1, (hgrown img).2⟩
  | swap img => exact ⟨(hgrown img).1, (hgrown img).2⟩
  | write ok i hpc =>
    obtain ⟨hcons, hlen⟩ := consecutive_write hb hp hgood hpc
    refine ⟨?_, hcons⟩
    intro block hblock
    rw [blocks_ffmpegMuxerWrite] at hblock
    by_cases hmore : i + 1 < maxsize
    · rw [if_pos hmore] at hblock
      exact h.whole block hblock
    · rw [if_neg hmore, List.mem_append, List.mem_singleton] at hblock
      rcases hblock with hblock | rfl
      · exact h.whole block hblock
      · have hlt := hp.write_lt i hpc
        exact ⟨hlen.trans (by omega), hcons⟩
  | _ => exact ⟨h.whole, h.current⟩

/-! ### No other run writes whole blocks -/

/-- A block with images missing between two of its frames. -/
def Jumps (block : List Muxed) : Prop :=
  ∃ j m m', block[0]? = some m ∧ block[j]? = some m' ∧ m'.arrival ≠ m.arrival + j

theorem Jumps.not_consecutive {handled : List Frame} {block : List Muxed} (h : Jumps block) :
    ¬ Consecutive handled block := by
  obtain ⟨j, m, m', hm, hm', hne⟩ := h
  rintro ⟨n, hn⟩
  obtain ⟨f, -, rfl⟩ := hn 0 m hm
  obtain ⟨f', -, rfl⟩ := hn j m' hm'
  exact hne rfl

theorem Jumps.append {block more : List Muxed} (h : Jumps block) : Jumps (block ++ more) := by
  obtain ⟨j, m, m', hm, hm', hne⟩ := h
  refine ⟨j, m, m', ?_, ?_, hne⟩
  · rw [List.getElem?_append_left (List.getElem?_eq_some_iff.mp hm).1, hm]
  · rw [List.getElem?_append_left (List.getElem?_eq_some_iff.mp hm').1, hm']

/-- Some block is broken, or will be. -/
def Broken (s : StorageState) : Prop :=
  (∃ block ∈ s.blocks, Jumps block) ∨ (s.pc.inBlock = true ∧ Jumps s.block)

/-- A block that jumps is broken, whether the frame written was its last one or not. -/
theorem broken_write {s : StorageState} {i : ℕ} (h : Jumps (ffmpegMuxerWrite s i).block) :
    Broken (ffmpegMuxerWrite s i) := by
  by_cases hmore : i + 1 < maxsize
  · refine .inr ⟨?_, h⟩
    simp only [ffmpegMuxerWrite, if_pos hmore]
    rfl
  · refine .inl ⟨_, ?_, h⟩
    rw [blocks_ffmpegMuxerWrite, if_neg hmore]
    exact List.mem_append_right _ (List.mem_singleton_self _)

theorem Broken.step {s t : StorageState} {a : StorageAction} (h : Broken s)
    (ht : StorageStep s a t) : Broken t := by
  have hout : s.pc.inLoop = false → s.pc.inBlock ≠ true := by
    intro hloop hin
    obtain ⟨i, hpc⟩ := inBlock_iff.mp hin
    rw [hpc] at hloop
    exact absurd hloop.symm Bool.false_ne_true
  cases ht with
  | take ok pc hready hpc hto => exact .inl (h.resolve_right fun hr => hout hpc hr.1)
  | opened ok hpc => exact .inl (h.resolve_right fun hr => hout (by rw [hpc]; rfl) hr.1)
  | move ok pc postRecordCount isRecording hpc hto =>
    exact .inl (h.resolve_right fun hr => hout hpc hr.1)
  | write ok i hpc =>
    rcases h with ⟨block, hblock, hjump⟩ | ⟨hin, hjump⟩
    · refine .inl ⟨block, ?_, hjump⟩
      rw [blocks_ffmpegMuxerWrite]
      by_cases hmore : i + 1 < maxsize
      · rw [if_pos hmore]
        exact hblock
      · rw [if_neg hmore]
        exact List.mem_append_left _ hblock
    · obtain ⟨k, hk⟩ := inBlock_iff.mp hin
      rw [hpc, StoragePc.write.injEq] at hk
      subst hk
      exact broken_write hjump.append
  | _ => exact h

/-- A frame read behind a swap is at least 50 images later than the first one. -/
theorem broken_of_not_readsOneBuffer {s t : StorageState} {a : StorageAction} (hb : Buffered s)
    (hp : BlockProgress s) (hbad : ¬ ReadsOneBuffer s a) (ht : storageStep s a = some t) : Broken t := by
  simp only [ReadsOneBuffer, Classical.not_imp, Bool.not_eq_false] at hbad
  obtain ⟨hthread, hin, hswapped⟩ := hbad
  obtain ⟨i, hpc⟩ := inBlock_iff.mp hin
  obtain ⟨ok, rfl⟩ : ∃ ok, a = .thread ok := by
    cases a with
    | thread ok => exact ⟨ok, rfl⟩
    | _ => exact absurd hthread Bool.false_ne_true
  simp only [storageStep, storageThread, hpc, Option.some_inj] at ht
  obtain ⟨hready, m, hm, hle⟩ := hp.moved hin hswapped
  have hlen := hp.length_eq i hpc
  have hlt := hp.write_lt _ hpc
  obtain ⟨f, hf, hmuxed⟩ := muxed_eq hb hpc hlt
  rw [← ht]
  refine broken_write ⟨i + 1, m, s.muxed (i + 1), ?_, ?_, ?_⟩
  · show (s.block ++ [s.muxed (i + 1)])[0]? = some m
    rw [List.getElem?_append_left (List.getElem?_eq_some_iff.mp hm).1, hm]
  · show (s.block ++ [s.muxed (i + 1)])[i + 1]? = some (s.muxed (i + 1))
    rw [List.getElem?_append_right hlen.le, hlen, Nat.sub_self, List.getElem?_cons_zero]
  · rw [hmuxed]
    show s.start + (i + 1) ≠ m.arrival + (i + 1)
    omega

/-- The buffers and the block, along every run. -/
theorem buffered {s : StorageState} (hs : storageSystem.Reachable s) :
    Buffered s ∧ BlockProgress s := by
  refine hs.invariant (P := fun s => Buffered s ∧ BlockProgress s) ⟨?_, ?_⟩ ?_
  · refine ⟨⟨rfl, rfl, rfl, rfl, by decide⟩, maxsize_pos, le_rfl,
      fun j hj => absurd hj (Nat.not_lt_zero j), ?_, ?_⟩
    · rintro (hready | hbusy)
      · exact absurd hready Bool.false_ne_true
      · exact absurd hbusy Bool.false_ne_true
    · rintro (hready | hbusy)
      · exact absurd hready Bool.false_ne_true
      · exact absurd hbusy Bool.false_ne_true
  · exact ⟨fun i hi => by simp [storageSystem, StorageState.init] at hi,
      fun i hi => by simp [storageSystem, StorageState.init] at hi,
      fun hin => absurd hin Bool.false_ne_true, fun hin => absurd hin Bool.false_ne_true⟩
  · intro s a t h _ ht
    exact ⟨h.1.step (storageStep_cases ht), h.2.step h.1 (storageStep_cases ht)⟩

theorem wholeBlocks {s : StorageState} (hs : storageSystem.Via ReadsOneBuffer s) :
    WholeBlocks s := by
  have hall : (Buffered s ∧ BlockProgress s) ∧ WholeBlocks s := by
    refine hs.invariant (P := fun s => (Buffered s ∧ BlockProgress s) ∧ WholeBlocks s)
      ⟨buffered .init, fun block hblock => absurd hblock List.not_mem_nil,
        ⟨0, fun j m hm => by simp [storageSystem, StorageState.init] at hm⟩⟩ ?_
    intro s a t h hgood ht
    have ht := storageStep_cases ht
    exact ⟨⟨h.1.1.step ht, h.1.2.step h.1.1 ht⟩, h.2.step h.1.1 h.1.2 hgood ht⟩
  exact hall.2

/-- **Recorded blocks are whole** exactly in the runs in which the thread reads no block on
behind a swap of the buffers. -/
theorem wholeBlocks_iff {as : List StorageAction} {s : StorageState}
    (h : storageSystem.run .init as = some s) :
    WholeBlocks s ↔ storageSystem.runVia ReadsOneBuffer .init as = some s := by
  refine TransitionSystem.run_eq_runVia Broken (fun _ hs => wholeBlocks hs) ?_ ?_
    (fun _ _ _ _ hs ht => hs.step (storageStep_cases ht)) h
  · rintro s hs (⟨block, hblock, hjump⟩ | ⟨-, hjump⟩)
    · exact hjump.not_consecutive (hs.whole block hblock).2
    · exact hjump.not_consecutive hs.current
  · intro s a t hs hbad ht
    exact broken_of_not_readsOneBuffer (buffered hs).1 (buffered hs).2 hbad ht

theorem length_nil_lt : ([] : List UInt8).length < 2 ^ 32 := by decide

/-- Images stamped with the given times. -/
def images (times : List ℕ) : List StorageAction :=
  times.map fun n => .image ⟨⟨[], length_nil_lt⟩, UInt64.ofNat n⟩

/-- A motion is detected, 50 images are handled, and the thread opens a file for them. -/
def recording : List StorageAction :=
  .alarm true :: images (List.range 50) ++ [.thread true, .thread true]

set_option maxRecDepth 8000 in
/-- Images that arrive between two frames of a block do no harm as long as they fill no
block. -/
theorem wholeBlocks_iff_recording : ∃ s,
    storageSystem.run .init (recording ++ List.replicate 3 (.thread true) ++
      images [50, 51] ++ List.replicate 47 (.thread true)) = some s ∧
    s.blocks.length = 1 ∧ s.writeIdx = 2 ∧
    (WholeBlocks s ↔ storageSystem.runVia ReadsOneBuffer .init (recording ++
      List.replicate 3 (.thread true) ++ images [50, 51] ++
      List.replicate 47 (.thread true)) = some s) := by
  refine ⟨_, rfl, rfl, rfl, ?_⟩
  exact wholeBlocks_iff rfl

/-- Fifty more images are handled behind the first frame of a block. -/
def overtaken : List StorageAction :=
  recording ++ [.thread true] ++ images ((List.range 50).map (50 + ·)) ++
    List.replicate 49 (.thread true)

theorem blocks_overtaken : (storageSystem.run .init overtaken).map (fun s => s.blocks.map
      fun block => (block.length, block[0]?.map Muxed.arrival, block[1]?.map Muxed.timestampUs,
        block[1]?.map Muxed.arrival)) =
    some [(50, some 0, some 51, some 51)] := by
  decide +kernel

/-- The other frames of that block are those of the next one. -/
theorem wholeBlocks_overtaken : ∃ s, storageSystem.Reachable s ∧
    s.blocks.map (fun block => (block.length, block[0]?.map Muxed.arrival,
      block[1]?.map Muxed.timestampUs, block[1]?.map Muxed.arrival)) =
        [(50, some 0, some 51, some 51)] ∧
    ¬ WholeBlocks s := by
  obtain ⟨s, hrun, hblocks⟩ := Option.map_eq_some_iff.mp blocks_overtaken
  refine ⟨s, .of_run hrun, hblocks, ?_⟩
  intro hwhole
  obtain ⟨block, hlist, hblock⟩ := List.map_eq_singleton_iff.mp hblocks
  simp only [Prod.mk.injEq, Option.map_eq_some_iff] at hblock
  obtain ⟨-, ⟨m, hm, hfirst⟩, -, m', hm', hsecond⟩ := hblock
  have hjump : Jumps block := ⟨1, m, m', hm, hm', by rw [hfirst, hsecond]; decide⟩
  exact hjump.not_consecutive (hwhole.whole block (hlist ▸ List.mem_singleton_self _)).2

end Sentry
