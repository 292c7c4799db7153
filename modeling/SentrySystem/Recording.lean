/-
The recordings of the video storage (`src/storage/storage_video.cpp`,
`src/storage/ffmpeg_muxer.cpp`).

`storage_video_thread` takes one full block after the other.  It opens a file when it has to
save a block and is not recording, and closes the file behind the first block it takes
without motion.  Here an alarm and the processing of a block are one step each, and the
calls of libavformat succeed; `STORE_IN_DAT` is 0, so `fp` stays null.  The size of the
picture, the frame rate and the timestamps relative to the first frame are left out.

* `storeBlock` — what the thread does with a block;
* `recordSystem` — alarms and blocks in any order;
* `storageThread_block` — the thread of `storageSystem` does the same, step by step;
* `Segments` — what a history of files looks like;
* `recordSegments` — the blocks written, and the files around them;
* `fileSecond_eq_iff`, `SameSlot` — what the cast in front of the division does to the second;
* `recordingsApart_iff` — the recordings whose names differ.
-/
import SentrySystem.StorageBlocks

namespace Sentry

/-! ### The code -/

/-- A full block. -/
structure Block where
  images : List Muxed
  length_eq : images.length = maxsize

/-- `read_ts_ptr[0]`. -/
def Block.rawTime (b : Block) : UInt64 :=
  (b.images.get ⟨0, b.length_eq ▸ maxsize_pos⟩).timestampUs

/-- `file_name`, with `time_t` a signed 32-bit integer. -/
def fileSecond (rawTime : UInt64) : Int32 :=
  -- the cast binds tighter than the division
  rawTime.toUInt32.toInt32 / 1000000

/-- What the muxer does to the file system. -/
inductive MuxerCall (Name : Type)
  | opened (filename : Name)
  | wrote (image : Muxed)
  | closed
  deriving DecidableEq

/-- `g_ctx`, and what the muxer did since the last block was taken. -/
structure MuxerContext (Name : Type) where
  isInit : Bool
  calls : List (MuxerCall Name)

/-- `ffmpeg_muxer_init`: its result, and the context behind it. -/
def MuxerContext.ffmpegMuxerInit {Name : Type} (g : MuxerContext Name) (filename : Name) :
    ℤ × MuxerContext Name :=
  if g.isInit then (-1, g) else (0, ⟨true, g.calls ++ [.opened filename]⟩)

/-- `ffmpeg_muxer_write`. -/
def MuxerContext.ffmpegMuxerWrite {Name : Type} (g : MuxerContext Name) (image : Muxed) :
    MuxerContext Name :=
  if g.isInit then { g with calls := g.calls ++ [.wrote image] } else g

/-- `ffmpeg_muxer_close`. -/
def MuxerContext.ffmpegMuxerClose {Name : Type} (g : MuxerContext Name) : MuxerContext Name :=
  if g.isInit then ⟨false, g.calls ++ [.closed]⟩ else g

/-- What happened: an alarm was handled; a block was processed, with the value of
`move_detected` then and what the muxer did. -/
inductive RecordEntry (Name : Type)
  | alarm (moved : Bool)
  | block (b : Block) (moveDetected : Bool) (calls : List (MuxerCall Name))

/-- The variables of the two parties, and the history. -/
structure RecordState (Name : Type) where
  moveDetected : Bool
  postRecordCount : ℕ
  isRecording : Bool
  fp : Bool
  gCtx : MuxerContext Name
  history : List (RecordEntry Name)

section
variable {Name : Type} (strftime : Int32 → Name)

/-- The file is opened, unless the thread is recording. -/
def openFile (s : RecordState Name) (b : Block) : RecordState Name :=
  if s.isRecording then s
  else
    let (result, g) := s.gCtx.ffmpegMuxerInit (strftime (fileSecond b.rawTime))
    if result ≥ 0 then { s with gCtx := g, isRecording := true } else { s with gCtx := g }

/-- The loop around `ffmpeg_muxer_write`. -/
def writeImages (s : RecordState Name) (b : Block) : RecordState Name :=
  if s.isRecording then { s with gCtx := b.images.foldl MuxerContext.ffmpegMuxerWrite s.gCtx }
  else s

/-- The block is counted, if there is no motion. -/
def countDown (s : RecordState Name) : RecordState Name :=
  if s.moveDetected = false ∧ 0 < s.postRecordCount then
    if s.postRecordCount - 1 = 0 then
      { s with
        postRecordCount := s.postRecordCount - 1
        gCtx := s.gCtx.ffmpegMuxerClose
        isRecording := false }
    else { s with postRecordCount := s.postRecordCount - 1 }
  else s

/-- The branch for a block that is not saved. -/
def closeDat (s : RecordState Name) : RecordState Name :=
  if s.isRecording ∧ s.fp then { s with fp := false, isRecording := false } else s

/-- `storage_video_thread`, for one block. -/
def storeBlock (s : RecordState Name) (b : Block) : RecordState Name :=
  let taken := { s with gCtx := { s.gCtx with calls := [] } }
  let t :=
    if s.moveDetected = true ∨ 0 < s.postRecordCount then
      countDown (writeImages (openFile strftime taken b) b)
    else closeDat taken
  { t with history := s.history ++ [.block b s.moveDetected t.gCtx.calls] }

/-- `storage_msg_handler`, for an alarm. -/
def storeAlarm (s : RecordState Name) (moved : Bool) : RecordState Name :=
  let t :=
    if moved then { s with moveDetected := true, postRecordCount := 1 }
    else { s with moveDetected := false }
  { t with history := s.history ++ [.alarm moved] }

/-- What can happen: an alarm is handled, or a full block processed. -/
inductive RecordAction
  | alarm (moved : Bool)
  | block (b : Block)

/-- One step. -/
def recordStep (s : RecordState Name) : RecordAction → Option (RecordState Name)
  | .alarm moved => some (storeAlarm s moved)
  | .block b => some (storeBlock strftime s b)

/-- The state at the start of the thread. -/
def RecordState.init : RecordState Name where
  moveDetected := false
  postRecordCount := 0
  isRecording := false
  fp := false
  gCtx := ⟨false, []⟩
  history := []

/-- The recordings; `strftime` makes the name of the file out of the second. -/
def recordSystem : TransitionSystem (RecordState Name) RecordAction := ⟨.init, recordStep strftime⟩

end

/-! ### What the muxer does with a block -/

section
variable {Name : Type}

/-- The images of a block are written. -/
def Block.wrote (b : Block) : List (MuxerCall Name) := b.images.map .wrote

/-- The file is closed behind a block without motion. -/
def closing (moveDetected : Bool) : List (MuxerCall Name) :=
  if moveDetected then [] else [.closed]

/-- The image, if one is written. -/
def MuxerCall.image? : MuxerCall Name → Option Muxed
  | .wrote image => some image
  | _ => none

/-- The images written. -/
def imagesWritten (calls : List (MuxerCall Name)) : List Muxed := calls.filterMap MuxerCall.image?

/-- The entry is that of a block processed without motion. -/
def RecordEntry.still : RecordEntry Name → Bool
  | .block _ moveDetected _ => !moveDetected
  | .alarm _ => false

/-- A MOVED alarm has occurred since the last block processed without motion. -/
def MovedSince (history : List (RecordEntry Name)) : Prop :=
  ∃ before behind, history = before ++ .alarm true :: behind ∧ ∀ e ∈ behind, e.still = false

/-- The history of files: outside of a file, a block is left out, or a file is opened just
before it is written; inside, every block is written.  A file is closed right behind its
first block without motion.  The flag tells whether a file is open at the end. -/
inductive Segments (strftime : Int32 → Name) : Bool → List (RecordEntry Name) → Prop
  | nil : Segments strftime false []
  | alarm {file : Bool} {history : List (RecordEntry Name)} (moved : Bool)
      (h : Segments strftime file history) : Segments strftime file (history ++ [.alarm moved])
  | skipped {history : List (RecordEntry Name)} (b : Block) (moveDetected : Bool)
      (h : Segments strftime false history) :
      Segments strftime false (history ++ [.block b moveDetected []])
  | first {history : List (RecordEntry Name)} (b : Block) (moveDetected : Bool)
      (h : Segments strftime false history) :
      Segments strftime moveDetected (history ++ [.block b moveDetected
        (.opened (strftime (fileSecond b.rawTime)) :: (b.wrote ++ closing moveDetected))])
  | next {history : List (RecordEntry Name)} (b : Block) (moveDetected : Bool)
      (h : Segments strftime true history) :
      Segments strftime moveDetected
        (history ++ [.block b moveDetected (b.wrote ++ closing moveDetected)])

theorem foldl_ffmpegMuxerWrite (images : List Muxed) (calls : List (MuxerCall Name)) :
    images.foldl MuxerContext.ffmpegMuxerWrite ⟨true, calls⟩ =
      ⟨true, calls ++ images.map .wrote⟩ := by
  induction images generalizing calls with
  | nil => rw [List.foldl_nil, List.map_nil, List.append_nil]
  | cons image images ih =>
    rw [List.foldl_cons, MuxerContext.ffmpegMuxerWrite, if_pos rfl, ih, List.map_cons,
      List.append_assoc, List.singleton_append]

theorem movedSince_snoc {history : List (RecordEntry Name)} {e : RecordEntry Name} :
    MovedSince (history ++ [e]) ↔ e = .alarm true ∨ (e.still = false ∧ MovedSince history) := by
  constructor
  · rintro ⟨before, behind, heq, hbehind⟩
    rcases List.eq_nil_or_concat behind with rfl | ⟨rest, last, rfl⟩
    · exact .inl (List.append_inj_right' heq rfl |> List.singleton_inj.mp)
    · rw [List.concat_eq_append, ← List.cons_append, ← List.append_assoc] at heq
      obtain ⟨hhistory, hlast⟩ := List.append_inj' heq rfl
      rw [List.concat_eq_append] at hbehind
      rw [List.singleton_inj] at hlast
      refine .inr ⟨hlast ▸ hbehind last (by simp), before, rest, hhistory, ?_⟩
      intro e he
      exact hbehind e (List.mem_append_left _ he)
  · rintro (rfl | ⟨hstill, before, behind, rfl, hbehind⟩)
    · exact ⟨history, [], rfl, fun e he => absurd he List.not_mem_nil⟩
    · refine ⟨before, behind ++ [e], by simp, ?_⟩
      intro e' he'
      rcases List.mem_append.mp he' with he' | he'
      · exact hbehind e' he'
      · rw [List.mem_singleton.mp he', hstill]

end

/-! ### The three flags -/

section
variable {Name : Type} {strftime : Int32 → Name}

/-- The flags, the count and the context fit together. -/
structure FlagsAgree (s : RecordState Name) : Prop where
  isInit_eq : s.gCtx.isInit = s.isRecording
  fp_eq : s.fp = false
  count : s.postRecordCount = 0 ∨ s.postRecordCount = 1
  moved : s.moveDetected = true → s.postRecordCount = 1
  recording : s.isRecording = true → s.postRecordCount = 1

theorem FlagsAgree.moveDetected_eq {s : RecordState Name} (h : FlagsAgree s)
    (hcount : s.postRecordCount = 0) : s.moveDetected = false := by
  rw [← Bool.not_eq_true]
  intro hmove
  exact absurd ((h.moved hmove).symm.trans hcount) Nat.one_ne_zero

theorem FlagsAgree.isRecording_eq {s : RecordState Name} (h : FlagsAgree s)
    (hcount : s.postRecordCount = 0) : s.isRecording = false := by
  rw [← Bool.not_eq_true]
  intro hrec
  exact absurd ((h.recording hrec).symm.trans hcount) Nat.one_ne_zero

/-- What the muxer does with a block that is saved. -/
def saving (strftime : Int32 → Name) (isRecording : Bool) (b : Block) (moveDetected : Bool) :
    List (MuxerCall Name) :=
  (if isRecording then [] else [.opened (strftime (fileSecond b.rawTime))]) ++ b.wrote ++
    closing moveDetected

/-- The file is open and the images are written. -/
theorem writeImages_openFile {s : RecordState Name} (h : FlagsAgree s) (b : Block) :
    writeImages (openFile strftime { s with gCtx := { s.gCtx with calls := [] } } b) b =
      { s with
        isRecording := true
        gCtx := ⟨true, (if s.isRecording then []
          else [.opened (strftime (fileSecond b.rawTime))]) ++ b.wrote⟩ } := by
  have hinit := h.isInit_eq
  cases hrec : s.isRecording with
  | true =>
    rw [hrec] at hinit
    simp only [openFile, writeImages, hinit, if_true, foldl_ffmpegMuxerWrite, Block.wrote]
  | false =>
    rw [hrec] at hinit
    simp [openFile, writeImages, hinit, MuxerContext.ffmpegMuxerInit, foldl_ffmpegMuxerWrite,
      Block.wrote]

/-- A block that is saved. -/
theorem storeBlock_saved {s : RecordState Name} (h : FlagsAgree s) (b : Block)
    (hcount : s.postRecordCount = 1) :
    storeBlock strftime s b =
      { s with
        postRecordCount := if s.moveDetected then 1 else 0
        isRecording := s.moveDetected
        gCtx := ⟨s.moveDetected, saving strftime s.isRecording b s.moveDetected⟩
        history := s.history ++
          [.block b s.moveDetected (saving strftime s.isRecording b s.moveDetected)] } := by
  have hsave : s.moveDetected = true ∨ 0 < s.postRecordCount := .inr (hcount ▸ Nat.one_pos)
  simp only [storeBlock, if_pos hsave, writeImages_openFile h, countDown, saving]
  cases hmove : s.moveDetected with
  | true => simp [closing, hcount]
  | false => simp [closing, hcount, MuxerContext.ffmpegMuxerClose]

/-- A block that is not saved. -/
theorem storeBlock_skipped {s : RecordState Name} (h : FlagsAgree s) (b : Block)
    (hcount : s.postRecordCount = 0) :
    storeBlock strftime s b =
      { s with
        gCtx := { s.gCtx with calls := [] }
        history := s.history ++ [.block b s.moveDetected []] } := by
  simp [storeBlock, h.moveDetected_eq hcount, hcount, closeDat, h.fp_eq]

theorem flagsAgree_init : FlagsAgree (.init : RecordState Name) :=
  ⟨rfl, rfl, .inl rfl, fun hm => absurd hm Bool.false_ne_true,
    fun hm => absurd hm Bool.false_ne_true⟩

theorem FlagsAgree.alarm {s : RecordState Name} (h : FlagsAgree s) (moved : Bool) :
    FlagsAgree (storeAlarm s moved) := by
  cases moved with
  | true => exact ⟨h.isInit_eq, h.fp_eq, .inr rfl, fun _ => rfl, fun _ => rfl⟩
  | false =>
    exact ⟨h.isInit_eq, h.fp_eq, h.count, fun hm => absurd hm Bool.false_ne_true, h.recording⟩

theorem FlagsAgree.block {s : RecordState Name} (h : FlagsAgree s) (b : Block) :
    FlagsAgree (storeBlock strftime s b) := by
  rcases h.count with hcount | hcount
  · rw [storeBlock_skipped h b hcount]
    exact ⟨h.isInit_eq, h.fp_eq, h.count, h.moved, h.recording⟩
  · rw [storeBlock_saved h b hcount]
    refine ⟨rfl, h.fp_eq, ?_, ?_, ?_⟩
    · dsimp only
      split_ifs
      · exact .inr rfl
      · exact .inl rfl
    · intro hmove
      exact if_pos hmove
    · intro hmove
      exact if_pos hmove

/-! ### The steps of the thread -/

/-- The block in the read buffer. -/
def StorageState.readBlock (s : StorageState) : Block :=
  ⟨(List.range maxsize).map s.muxed, by rw [List.length_map, List.length_range]⟩

theorem block_ffmpegMuxerWrite {s : StorageState} {i : ℕ}
    (hblock : i = 0 ∨ s.block = (List.range i).map s.muxed) :
    (ffmpegMuxerWrite s i).block = (List.range (i + 1)).map s.muxed := by
  rw [List.range_succ, List.map_append, ffmpegMuxerWrite]
  rcases hblock with rfl | hblock
  · rfl
  · dsimp only
    split_ifs with hfirst
    · rw [hfirst]
      rfl
    · rw [hblock]
      rfl

/-- The thread writes the rest of a block. -/
theorem run_write {k : ℕ} : ∀ {s : StorageState} {i : ℕ}, i + k + 1 = maxsize → s.pc = .write i →
    (i = 0 ∨ s.block = (List.range i).map s.muxed) → ∃ t,
      storageSystem.run s (List.replicate (k + 1) (.thread true)) = some t ∧ t.pc = .written ∧
        t.blocks = s.blocks ++ [s.readBlock.images] ∧ t.moveDetected = s.moveDetected ∧
        t.postRecordCount = s.postRecordCount ∧ t.isRecording = s.isRecording ∧
        t.dataReady = s.dataReady := by
  induction k with
  | zero =>
    intro s i hi hpc hblock
    have hlast : ¬ i + 1 < maxsize := by omega
    refine ⟨ffmpegMuxerWrite s i, ?_, ?_, ?_, rfl, rfl, rfl, rfl⟩
    · simp only [List.replicate, TransitionSystem.run_cons, TransitionSystem.run_nil,
        storageSystem, storageStep, storageThread, hpc, Option.bind_some]
    · exact if_neg hlast
    · rw [blocks_ffmpegMuxerWrite, if_neg hlast, block_ffmpegMuxerWrite hblock,
        show i + 1 = maxsize from hi]
      rfl
  | succ k ih =>
    intro s i hi hpc hblock
    have hstep : storageSystem.step s (.thread true) = some (ffmpegMuxerWrite s i) := by
      simp only [storageSystem, storageStep, storageThread, hpc]
    have hmore : i + 1 < maxsize := by omega
    obtain ⟨t, hrun, hwritten, hblocks, hflags⟩ := ih (s := ffmpegMuxerWrite s i) (i := i + 1)
      (by omega) (if_pos hmore) (.inr (block_ffmpegMuxerWrite hblock))
    rw [blocks_ffmpegMuxerWrite, if_pos hmore] at hblocks
    refine ⟨t, ?_, hwritten, hblocks, hflags⟩
    rw [List.replicate_succ, TransitionSystem.run_cons_of_step hstep, hrun]

/-- **The thread does what `storeBlock` does**, if no alarm and no image is handled meanwhile and
the file can be opened. -/
theorem storageThread_block {Name : Type} {strftime : Int32 → Name} {s : StorageState}
    {r : RecordState Name} (hpc : s.pc = .top) (hrunning : s.running = true)
    (hready : s.dataReady = true) (h : FlagsAgree r) (hmove : r.moveDetected = s.moveDetected)
    (hcount : r.postRecordCount = s.postRecordCount) (hrec : r.isRecording = s.isRecording) :
    ∃ n t, storageSystem.run s (List.replicate n (.thread true)) = some t ∧
      t.pc = .top ∧ t.dataReady = false ∧
      (storeBlock strftime r s.readBlock).moveDetected = t.moveDetected ∧
      (storeBlock strftime r s.readBlock).postRecordCount = t.postRecordCount ∧
      (storeBlock strftime r s.readBlock).isRecording = t.isRecording ∧
      t.blocks = s.blocks ++
        if s.postRecordCount = 0 then [] else [s.readBlock.images] := by
  have htop : storageSystem.step s (.thread true) = some { s with
      dataReady := false
      pc := if s.moveDetected = true ∨ 0 < s.postRecordCount then .opening else .top } := by
    simp [storageSystem, storageStep, storageThread, storageLocked, hpc, hrunning, hready]
  rcases h.count with hzero | hone
  · have hstill := h.moveDetected_eq hzero
    rw [if_neg (by rw [← hmove, ← hcount, hstill, hzero]; simp)] at htop
    refine ⟨1, _, TransitionSystem.run_cons_of_step htop [], rfl, rfl, ?_⟩
    rw [storeBlock_skipped h _ hzero, ← hcount, if_pos hzero, List.append_nil]
    exact ⟨hmove, rfl, hrec, rfl⟩
  · rw [if_pos (.inr (by omega))] at htop
    obtain ⟨u, hrun, hwritten, hblocks, humove, hucount, hurec, huready⟩ :=
      run_write (k := 49) (s := { s with dataReady := false, isRecording := true, pc := .write 0 })
        (i := 0) rfl rfl (.inl rfl)
    have hopening : storageSystem.step { s with dataReady := false, pc := .opening }
        (.thread true) =
          some { s with dataReady := false, isRecording := true, pc := .write 0 } := by
      simp [storageSystem, storageStep, storageThread]
    have hend : ∃ t, storageSystem.step u (.thread true) = some t ∧ t.pc = .top ∧
        t.dataReady = u.dataReady ∧ t.moveDetected = u.moveDetected ∧
        t.postRecordCount = (if u.moveDetected then 1 else 0) ∧
        t.isRecording = u.moveDetected ∧ t.blocks = u.blocks := by
      have hone : u.postRecordCount = 1 := by rw [hucount, ← hcount, hone]
      cases hum : u.moveDetected <;>
        simp [storageSystem, storageStep, storageThread, hwritten, hum, hone, hurec]
    obtain ⟨t, hlast, htpc, htready, htmove, htcount, htrec, htblocks⟩ := hend
    refine ⟨53, t, ?_, htpc, htready.trans huready, ?_⟩
    · rw [show List.replicate 53 (StorageAction.thread true) = .thread true :: .thread true ::
        (List.replicate 50 (.thread true) ++ [.thread true]) from rfl,
        TransitionSystem.run_cons_of_step htop, TransitionSystem.run_cons_of_step hopening,
        TransitionSystem.run_append, hrun, Option.bind_some,
        TransitionSystem.run_cons_of_step hlast, TransitionSystem.run_nil]
    · have hne : s.postRecordCount ≠ 0 := by
        rw [← hcount, hone]
        exact Nat.one_ne_zero
      dsimp only at humove
      rw [storeBlock_saved h _ hone, htmove, htcount, htrec, htblocks, humove, hmove, hblocks,
        if_neg hne]
      exact ⟨rfl, rfl, rfl, rfl⟩

/-! ### The files -/

theorem imagesWritten_append (xs ys : List (MuxerCall Name)) :
    imagesWritten (xs ++ ys) = imagesWritten xs ++ imagesWritten ys :=
  List.filterMap_append

theorem imagesWritten_wrote (b : Block) :
    imagesWritten (b.wrote : List (MuxerCall Name)) = b.images := by
  rw [imagesWritten, Block.wrote, List.filterMap_map]
  exact List.filterMap_some

theorem imagesWritten_saving (isRecording : Bool) (b : Block) (moveDetected : Bool) :
    imagesWritten (saving strftime isRecording b moveDetected) = b.images := by
  have hopening : imagesWritten (if isRecording then []
      else [.opened (strftime (fileSecond b.rawTime))]) = [] := by
    cases isRecording <;> rfl
  have hclosing : imagesWritten (closing moveDetected : List (MuxerCall Name)) = [] := by
    cases moveDetected <;> rfl
  rw [saving, imagesWritten_append, imagesWritten_append, hopening, hclosing,
    imagesWritten_wrote, List.nil_append, List.append_nil]

theorem Block.images_ne_nil (b : Block) : b.images ≠ [] := by
  intro hnil
  have hlen := b.length_eq
  rw [hnil] at hlen
  exact absurd hlen (by decide)

/-- Which blocks were written, along the history. -/
def WrittenRight (history : List (RecordEntry Name)) : Prop :=
  ∀ n b moveDetected calls, history[n]? = some (.block b moveDetected calls) →
    (imagesWritten calls = b.images ∨ imagesWritten calls = []) ∧
      (imagesWritten calls = b.images ↔
        moveDetected = true ∨ MovedSince (history.take n))

/-- The flags stand for what has happened. -/
structure RecordInv (strftime : Int32 → Name) (s : RecordState Name) : Prop where
  agree : FlagsAgree s
  count_iff : s.postRecordCount = 1 ↔ MovedSince s.history
  written : WrittenRight s.history
  segments : Segments strftime s.isRecording s.history

/-- One entry more. -/
theorem WrittenRight.snoc {history : List (RecordEntry Name)} {e : RecordEntry Name}
    (h : WrittenRight history)
    (he : ∀ b moveDetected calls, e = .block b moveDetected calls →
      (imagesWritten calls = b.images ∨ imagesWritten calls = []) ∧
        (imagesWritten calls = b.images ↔ moveDetected = true ∨ MovedSince history)) :
    WrittenRight (history ++ [e]) := by
  intro n b moveDetected calls hn
  rcases Nat.lt_or_ge n history.length with hlt | hge
  · rw [List.getElem?_append_left hlt] at hn
    rw [List.take_append_of_le_length hlt.le]
    exact h n b moveDetected calls hn
  · have hlast : n = history.length := by
      have hlt := (List.getElem?_eq_some_iff.mp hn).1
      rw [List.length_append, List.length_singleton] at hlt
      omega
    rw [hlast, List.getElem?_append_right le_rfl, Nat.sub_self, List.getElem?_cons_zero,
      Option.some_inj] at hn
    rw [hlast, List.take_left']
    · exact he b moveDetected calls hn
    · rfl

/-- A saved block continues the files. -/
theorem Segments.saving {file : Bool} {history : List (RecordEntry Name)}
    (h : Segments strftime file history) (b : Block) (moveDetected : Bool) :
    Segments strftime moveDetected
      (history ++ [.block b moveDetected (Sentry.saving strftime file b moveDetected)]) := by
  cases file with
  | true => exact .next b moveDetected h
  | false => exact .first b moveDetected h

theorem RecordInv.alarm {s : RecordState Name} (h : RecordInv strftime s) (moved : Bool) :
    RecordInv strftime (storeAlarm s moved) := by
  have hagree := h.agree.alarm moved
  have hwritten : WrittenRight (s.history ++ [.alarm moved]) :=
    h.written.snoc fun b moveDetected calls he => nomatch he
  cases moved with
  | true =>
    exact ⟨hagree, ⟨fun _ => movedSince_snoc.mpr (.inl rfl), fun _ => rfl⟩, hwritten,
      .alarm true h.segments⟩
  | false =>
    refine ⟨hagree, ?_, hwritten, .alarm false h.segments⟩
    show s.postRecordCount = 1 ↔ MovedSince (s.history ++ [.alarm false])
    rw [movedSince_snoc, h.count_iff]
    simp [RecordEntry.still]

/-- A block is left out only if nothing has moved. -/
theorem RecordInv.skipped {s : RecordState Name} (h : RecordInv strftime s) (b : Block)
    (hcount : s.postRecordCount = 0) : RecordInv strftime (storeBlock strftime s b) := by
  have hagree : FlagsAgree (storeBlock strftime s b) := h.agree.block b
  have hstill := h.agree.moveDetected_eq hcount
  have hrec := h.agree.isRecording_eq hcount
  have hnot : ¬ MovedSince s.history := by
    rw [← h.count_iff, hcount]
    exact Nat.zero_ne_one
  have hsegments := h.segments
  rw [hrec] at hsegments
  rw [storeBlock_skipped h.agree b hcount, hstill] at hagree ⊢
  refine ⟨hagree, ?_, h.written.snoc ?_, ?_⟩
  · dsimp only
    rw [movedSince_snoc, h.count_iff]
    simp [RecordEntry.still, hnot]
  · intro b' moveDetected calls he
    cases he
    refine ⟨.inr rfl, ?_⟩
    simp [imagesWritten, hnot, b.images_ne_nil.symm]
  · dsimp only
    rw [hrec]
    exact .skipped b false hsegments

theorem RecordInv.saved {s : RecordState Name} (h : RecordInv strftime s) (b : Block)
    (hcount : s.postRecordCount = 1) : RecordInv strftime (storeBlock strftime s b) := by
  have hagree : FlagsAgree (storeBlock strftime s b) := h.agree.block b
  have hmoved : MovedSince s.history := h.count_iff.mp hcount
  rw [storeBlock_saved h.agree b hcount] at hagree ⊢
  refine ⟨hagree, ?_, h.written.snoc ?_, h.segments.saving b s.moveDetected⟩
  · dsimp only
    rw [movedSince_snoc]
    cases s.moveDetected <;> simp [RecordEntry.still, hmoved]
  · intro b' moveDetected calls he
    cases he
    have himages : imagesWritten (saving strftime s.isRecording b s.moveDetected) = b.images :=
      imagesWritten_saving s.isRecording b s.moveDetected
    exact ⟨.inl himages, iff_of_true himages (.inr hmoved)⟩

/-- **One step** keeps the account of the recordings. -/
theorem RecordInv.step {s t : RecordState Name} {a : RecordAction} (h : RecordInv strftime s)
    (ht : recordStep strftime s a = some t) : RecordInv strftime t := by
  cases a with
  | alarm moved =>
    simp only [recordStep, Option.some_inj] at ht
    exact ht ▸ h.alarm moved
  | block b =>
    simp only [recordStep, Option.some_inj] at ht
    rcases h.agree.count with hcount | hcount
    · exact ht ▸ h.skipped b hcount
    · exact ht ▸ h.saved b hcount

theorem recordInv {s : RecordState Name} (hs : (recordSystem strftime).Reachable s) :
    RecordInv strftime s := by
  refine hs.invariant (P := fun s => RecordInv strftime s) ?_ fun s a t h _ ht => h.step ht
  refine ⟨flagsAgree_init, ?_, ?_, .nil⟩
  · refine iff_of_false Nat.zero_ne_one ?_
    rintro ⟨before, behind, heq, -⟩
    simp [recordSystem, RecordState.init] at heq
  · intro n b moveDetected calls hn
    simp [recordSystem, RecordState.init] at hn

/-- **Recording segments**: a block is written if there is motion when it is processed, or was
since the last block without; the files are opened and closed around the written blocks; and
the count is 1 while a file is recorded. -/
theorem recordSegments {s : RecordState Name} (hs : (recordSystem strftime).Reachable s) :
    WrittenRight s.history ∧ Segments strftime s.isRecording s.history ∧
      (s.isRecording = true → s.postRecordCount = 1) := by
  have hinv := recordInv hs
  exact ⟨hinv.written, hinv.segments, hinv.agree.recording⟩

end

/-- The fields of a name, in UTC; the date is counted in days. -/
def utcFields (second : Int32) : ℤ × ℤ × ℤ × ℤ :=
  (second.toInt / 86400, second.toInt % 86400 / 3600, second.toInt % 3600 / 60,
    second.toInt % 60)

/-- A block with one timestamp. -/
def blockAt (rawTime : UInt64) : Block :=
  ⟨List.replicate maxsize ⟨0, [], 0, rawTime⟩, List.length_replicate⟩

/-- A motion, with one block in it and one behind. -/
def recordingRun (rawTime : UInt64) : List RecordAction :=
  [.alarm true, .block (blockAt rawTime), .alarm false, .block (blockAt (rawTime + 5000000))]

/-- A file with two blocks is recorded. -/
theorem recordSegments_two : ∃ s, (recordSystem utcFields).run .init (recordingRun 0) = some s ∧
    s.history.length = 4 ∧
    WrittenRight s.history ∧ Segments utcFields s.isRecording s.history ∧
      (s.isRecording = true → s.postRecordCount = 1) := by
  obtain ⟨s, hrun, hlength⟩ : ∃ s, (recordSystem utcFields).run .init (recordingRun 0) = some s ∧
    s.history.length = 4 := ⟨_, rfl, rfl⟩
  exact ⟨s, hrun, hlength, recordSegments (.of_run hrun)⟩

/-! ### The second of the name -/

/-- The residue of a timestamp modulo `2 ^ 32`, from `-2 ^ 31` on. -/
def wrapped (rawTime : UInt64) : ℤ := ((rawTime.toNat : ℤ) + 2147483648) % 4294967296 - 2147483648

/-- Both residues are less than a second away from zero, or they are on one side of it and
the same number of whole seconds away. -/
def SameSlot (x y : ℤ) : Prop :=
  x.natAbs / 1000000 = y.natAbs / 1000000 ∧
    ((x.natAbs < 1000000 ∧ y.natAbs < 1000000) ∨ (0 < x ↔ 0 < y))

theorem bmod_two_pow (x : ℤ) :
    Int.bmod x (2 ^ 32) = (x + 2147483648) % 4294967296 - 2147483648 := by
  rw [Int.bmod_def]
  split <;> omega

theorem wrapped_bounds (rawTime : UInt64) :
    -2147483648 ≤ wrapped rawTime ∧ wrapped rawTime < 2147483648 := by
  rw [wrapped]
  omega

/-- The division of C goes towards zero. -/
theorem tdiv_cases (x : ℤ) :
    (0 ≤ x ∧ x.tdiv 1000000 = x / 1000000) ∨ (x < 0 ∧ x.tdiv 1000000 = -(-x / 1000000)) := by
  rcases lt_or_ge x 0 with hneg | hpos
  · refine .inr ⟨hneg, ?_⟩
    rw [← Int.neg_neg x, Int.neg_tdiv, Int.tdiv_eq_ediv_of_nonneg (by omega), Int.neg_neg]
  · exact .inl ⟨hpos, Int.tdiv_eq_ediv_of_nonneg hpos⟩

theorem toInt_fileSecond (rawTime : UInt64) :
    (fileSecond rawTime).toInt = (wrapped rawTime).tdiv 1000000 := by
  have hwrapped : rawTime.toUInt32.toInt32.toInt = wrapped rawTime := by
    rw [← Int32.toInt_toBitVec, UInt32.toBitVec_toInt32, BitVec.toInt_eq_toNat_bmod,
      UInt32.toNat_toBitVec, UInt64.toNat_toUInt32, bmod_two_pow, wrapped]
    omega
  have hmillion : (1000000 : Int32).toInt = 1000000 := by decide
  have hbounds := wrapped_bounds rawTime
  have hdiv := tdiv_cases (wrapped rawTime)
  rw [fileSecond, Int32.toInt_div, hwrapped, hmillion, bmod_two_pow]
  omega

/-- The second is the one of the timestamp only in the first 36 minutes of the epoch. -/
theorem fileSecond_eq_iff (rawTime : UInt64) :
    (fileSecond rawTime).toInt = rawTime.toNat / 1000000 ↔ rawTime.toNat < 2 ^ 31 := by
  have hresidue : wrapped rawTime =
      ((rawTime.toNat : ℤ) + 2147483648) % 4294967296 - 2147483648 := rfl
  have hbounds := wrapped_bounds rawTime
  have hdiv := tdiv_cases (wrapped rawTime)
  rw [toInt_fileSecond]
  omega

theorem fileSecond_inj_iff (rawTime rawTime' : UInt64) :
    fileSecond rawTime = fileSecond rawTime' ↔
      SameSlot (wrapped rawTime) (wrapped rawTime') := by
  have hdiv := tdiv_cases (wrapped rawTime)
  have hdiv' := tdiv_cases (wrapped rawTime')
  rw [← Int32.toInt_inj, toInt_fileSecond, toInt_fileSecond, SameSlot]
  omega

section
variable {Name : Type} {strftime : Int32 → Name}

/-- A recording was begun with a block, under a name. -/
def Recorded (history : List (RecordEntry Name)) (b : Block) (filename : Name) : Prop :=
  ∃ moveDetected calls, .block b moveDetected calls ∈ history ∧ .opened filename ∈ calls

theorem not_opened_mem (b : Block) (moveDetected : Bool) (filename : Name) :
    .opened filename ∉ b.wrote ++ closing moveDetected := by
  cases moveDetected <;> simp [Block.wrote, closing]

/-- The name is made of the second of the first image. -/
theorem Segments.name_eq {file : Bool} {history : List (RecordEntry Name)}
    (h : Segments strftime file history) {b : Block} {filename : Name}
    (hrec : Recorded history b filename) : filename = strftime (fileSecond b.rawTime) := by
  obtain ⟨moveDetected, calls, hmem, hopened⟩ := hrec
  induction h with
  | nil => exact absurd hmem List.not_mem_nil
  | alarm moved h ih =>
    rcases List.mem_append.mp hmem with hmem | hmem
    · exact ih hmem
    · cases List.mem_singleton.mp hmem
  | skipped b' moveDetected' h ih =>
    rcases List.mem_append.mp hmem with hmem | hmem
    · exact ih hmem
    · cases List.mem_singleton.mp hmem
      exact absurd hopened List.not_mem_nil
  | first b' moveDetected' h ih =>
    rcases List.mem_append.mp hmem with hmem | hmem
    · exact ih hmem
    · cases List.mem_singleton.mp hmem
      rcases List.mem_cons.mp hopened with hname | hopened
      · cases hname
        rfl
      · exact absurd hopened (not_opened_mem b _ filename)
  | next b' moveDetected' h ih =>
    rcases List.mem_append.mp hmem with hmem | hmem
    · exact ih hmem
    · cases List.mem_singleton.mp hmem
      exact absurd hopened (not_opened_mem b _ filename)

end

theorem utcFields_injective : Function.Injective utcFields := by
  intro second second' h
  simp only [utcFields, Prod.mk.injEq] at h
  rw [← Int32.toInt_inj]
  omega

/-- A block in a motion is saved. -/
theorem storeBlock_motion {Name : Type} (strftime : Int32 → Name) {s : RecordState Name}
    (h : FlagsAgree s) (b : Block) : storeBlock strftime (storeAlarm s true) b =
      { s with
        moveDetected := true
        postRecordCount := 1
        isRecording := true
        gCtx := ⟨true, saving strftime s.isRecording b true⟩
        history := s.history ++
          [.alarm true, .block b true (saving strftime s.isRecording b true)] } := by
  rw [storeBlock_saved (h.alarm true) b rfl]
  simp [storeAlarm]

/-- The first block behind a motion is saved, too, and the file is closed. -/
theorem storeBlock_rest {Name : Type} (strftime : Int32 → Name) {s : RecordState Name}
    (h : FlagsAgree s) (hcount : s.postRecordCount = 1) (b : Block) :
    storeBlock strftime (storeAlarm s false) b =
      { s with
        moveDetected := false
        postRecordCount := 0
        isRecording := false
        gCtx := ⟨false, saving strftime s.isRecording b false⟩
        history := s.history ++
          [.alarm false, .block b false (saving strftime s.isRecording b false)] } := by
  rw [storeBlock_saved (h.alarm false) b hcount]
  simp [storeAlarm]

/-- The recording, from a state in which no file is open. -/
theorem run_recordingRun {Name : Type} (strftime : Int32 → Name) {s : RecordState Name}
    (h : FlagsAgree s) (hrec : s.isRecording = false) (rawTime : UInt64) : ∃ t more,
    (recordSystem strftime).run s (recordingRun rawTime) = some t ∧ FlagsAgree t ∧
      t.isRecording = false ∧ t.history = s.history ++ more ∧
      Recorded more (blockAt rawTime) (strftime (fileSecond rawTime)) := by
  have hmotion := storeBlock_motion strftime h (blockAt rawTime)
  have hagree : FlagsAgree (storeBlock strftime (storeAlarm s true) (blockAt rawTime)) := by
    rw [hmotion]
    exact ⟨rfl, h.fp_eq, .inr rfl, fun _ => rfl, fun _ => rfl⟩
  have hrest := storeBlock_rest strftime hagree (by rw [hmotion])
    (blockAt (rawTime + 5000000))
  rw [hmotion] at hrest
  have hrun : (recordSystem strftime).run s (recordingRun rawTime) = some (storeBlock strftime
      (storeAlarm (storeBlock strftime (storeAlarm s true) (blockAt rawTime)) false)
      (blockAt (rawTime + 5000000))) := rfl
  rw [hmotion, hrest] at hrun
  refine ⟨_, _, hrun, ⟨rfl, h.fp_eq, .inl rfl, fun hm => absurd hm Bool.false_ne_true,
    fun hm => absurd hm Bool.false_ne_true⟩, rfl, List.append_assoc _ _ _, true, _,
    .tail _ (.head _), ?_⟩
  rw [hrec]
  exact .head _

theorem Recorded.append {Name : Type} {history more : List (RecordEntry Name)} {b : Block}
    {filename : Name} (h : Recorded history b filename) :
    Recorded (history ++ more) b filename := by
  obtain ⟨moveDetected, calls, hmem, hopened⟩ := h
  exact ⟨moveDetected, calls, List.mem_append_left _ hmem, hopened⟩

theorem Recorded.prepend {Name : Type} {history more : List (RecordEntry Name)} {b : Block}
    {filename : Name} (h : Recorded more b filename) : Recorded (history ++ more) b filename := by
  obtain ⟨moveDetected, calls, hmem, hopened⟩ := h
  exact ⟨moveDetected, calls, List.mem_append_right _ hmem, hopened⟩

/-- Two recordings one after the other. -/
def twoRecordings (rawTime rawTime' : UInt64) : List RecordAction :=
  recordingRun rawTime ++ recordingRun rawTime'

theorem recorded_twoRecordings (rawTime rawTime' : UInt64) : ∃ s,
    (recordSystem utcFields).run .init (twoRecordings rawTime rawTime') = some s ∧
      Recorded s.history (blockAt rawTime) (utcFields (fileSecond rawTime)) ∧
      Recorded s.history (blockAt rawTime') (utcFields (fileSecond rawTime')) := by
  obtain ⟨s, more, hrun, hagree, hrec, hhistory, h⟩ :=
    run_recordingRun utcFields flagsAgree_init rfl rawTime
  obtain ⟨t, more', hrun', -, -, hhistory', h'⟩ :=
    run_recordingRun utcFields hagree hrec rawTime'
  refine ⟨t, ?_, ?_, ?_⟩
  · rw [twoRecordings, TransitionSystem.run_append, hrun, Option.bind_some, hrun']
  · rw [hhistory', hhistory]
    exact h.prepend.append
  · rw [hhistory']
    exact h'.prepend

section
variable {Name : Type} {strftime : Int32 → Name}

/-- **The names of recordings** differ exactly if the residues of their first timestamps do not
lie in the same second; the second in a name is that of the timestamp exactly below
`2 ^ 31` microseconds. -/
theorem recordingsApart_iff (hinj : Function.Injective strftime) {s : RecordState Name}
    (hs : (recordSystem strftime).Reachable s) {b b' : Block} {filename filename' : Name}
    (h : Recorded s.history b filename) (h' : Recorded s.history b' filename') :
    (filename ≠ filename' ↔ ¬ SameSlot (wrapped b.rawTime) (wrapped b'.rawTime)) ∧
      ((∃ second : Int32, filename = strftime second ∧
        second.toInt = b.rawTime.toNat / 1000000) ↔ b.rawTime.toNat < 2 ^ 31) := by
  have hname := (recordInv hs).segments.name_eq h
  have hname' := (recordInv hs).segments.name_eq h'
  constructor
  · rw [hname, hname', ← fileSecond_inj_iff, hinj.ne_iff]
  · rw [← fileSecond_eq_iff, hname]
    constructor
    · rintro ⟨second, heq, hsecond⟩
      rw [hinj heq, hsecond]
    · intro hsecond
      exact ⟨_, rfl, hsecond⟩

end

/-- In the first minutes of the epoch the names are right. -/
theorem recordingsApart_iff_early :
    (utcFields (fileSecond 0) ≠ utcFields (fileSecond 20000000) ↔
        ¬ SameSlot (wrapped (blockAt 0).rawTime) (wrapped (blockAt 20000000).rawTime)) ∧
      ((∃ second : Int32, utcFields (fileSecond 0) = utcFields second ∧
        second.toInt = (blockAt 0).rawTime.toNat / 1000000) ↔
          (blockAt 0).rawTime.toNat < 2 ^ 31) := by
  obtain ⟨s, hrun, h, h'⟩ := recorded_twoRecordings 0 20000000
  exact recordingsApart_iff utcFields_injective (.of_run hrun) h h'

/-- Two recordings of 2026, 71 minutes apart, have one name, and it is of 1970. -/
theorem recordings_clash : Function.Injective utcFields ∧
    ∃ s, (recordSystem utcFields).Reachable s ∧
      Recorded s.history (blockAt 1767225600000000) (0, 0, 19, 36) ∧
      Recorded s.history (blockAt 1767229894967296) (0, 0, 19, 36) ∧
      (blockAt 1767225600000000).rawTime.toNat / 1000000 = 1767225600 ∧
      (blockAt 1767229894967296).rawTime.toNat / 1000000 = 1767229894 := by
  obtain ⟨s, hrun, h, h'⟩ := recorded_twoRecordings 1767225600000000 1767229894967296
  have hname : utcFields (fileSecond 1767225600000000) = (0, 0, 19, 36) := by decide
  have hname' : utcFields (fileSecond 1767229894967296) = (0, 0, 19, 36) := by decide
  exact ⟨utcFields_injective, s, .of_run hrun, hname ▸ h, hname' ▸ h', rfl, rfl⟩

end Sentry
