/-
What the muxer holds of libavformat (`src/storage/ffmpeg_muxer.cpp`).

`ffmpeg_muxer_init` allocates a format context, adds a stream, opens the output file and writes
the header; each of the four may fail, and what was done so far is to be undone.
`ffmpeg_muxer_close` gives everything back.  What is allocated is counted here in two tables;
`avformat_free_context` does not close the file at `pb`.

* `Muxer.ffmpegMuxerInit`, `Muxer.ffmpegMuxerWrite`, `Muxer.ffmpegMuxerClose` — the functions;
* `muxerSystem` — calls of them in any order, with any results of libavformat;
* `InitResult` — everything one call of `ffmpeg_muxer_init` can do;
* `Held` — the context and the file the muxer knows of, after any calls;
* `muxerLaw_iff` — the runs in which nothing else is ever held;
* `run_retries` — a file stays open for every header that cannot be written.
-/
import SentrySystem.Lib.DescriptorTable
import SentrySystem.Recording

namespace Sentry

/-! ### The code -/

/-- `AVFormatContext`: whether `AVFMT_NOFILE` is among the flags of its format, and `pb`. -/
structure FormatContext where
  nofile : Bool
  pb : Option ℕ
  deriving DecidableEq, Repr

/-- What `avformat_alloc_output_context2` does: it allocates a context, of a format with or without
the flag `AVFMT_NOFILE`; or it fails, with a context left at the pointer or not. -/
inductive AllocAnswer
  | allocated (nofile : Bool)
  | failed (left : Bool)
  deriving DecidableEq, Repr

/-- The results of the calls in `ffmpeg_muxer_init`, for those that are made. -/
structure InitAnswers where
  alloc : AllocAnswer
  newStream : Bool
  avioOpen : Bool
  writeHeader : Bool
  deriving DecidableEq, Repr

/-- `g_ctx`, where `video_st` is the number of the context the stream belongs to; the contexts and
the files that are open; and what was done to the files. -/
structure Muxer (Name : Type) where
  fmtCtx : Option ℕ
  videoSt : Option ℕ
  firstTimestamp : Int64
  isInit : Bool
  contexts : DescriptorTable FormatContext
  files : DescriptorTable Name
  calls : List (MuxerCall Name)

namespace Muxer

variable {Name : Type}

/-- At the start. -/
def init : Muxer Name where
  fmtCtx := none
  videoSt := none
  firstTimestamp := 0
  isInit := false
  contexts := ⟨[]⟩
  files := ⟨[]⟩
  calls := []

/-- The context at `fmt_ctx`. -/
def context (g : Muxer Name) : Option FormatContext := g.fmtCtx.bind g.contexts.get

/-- A new context at `fmt_ctx`. -/
def allocContext (g : Muxer Name) (nofile : Bool) : Muxer Name :=
  { g with
    fmtCtx := some g.contexts.lowestFree
    contexts := g.contexts.allocate ⟨nofile, none⟩ }

/-- `avformat_free_context(g_ctx.fmt_ctx)` and `g_ctx.fmt_ctx = NULL`, where there is one. -/
def freeContext (g : Muxer Name) : Muxer Name :=
  match g.fmtCtx with
  | none => g
  | some c => { g with fmtCtx := none, contexts := g.contexts.close c }

/-- `avio_open(&g_ctx.fmt_ctx->pb, filename, AVIO_FLAG_WRITE)`, where it succeeds. -/
def avioOpen (g : Muxer Name) (filename : Name) : Muxer Name :=
  match g.fmtCtx, g.context with
  | some c, some ctx =>
    { g with
      contexts := g.contexts.update c { ctx with pb := some g.files.lowestFree }
      files := g.files.allocate filename }
  | _, _ => g

/-- `avio_closep(&g_ctx.fmt_ctx->pb)`. -/
def avioClosep (g : Muxer Name) : Muxer Name :=
  match g.fmtCtx, g.context with
  | some c, some ctx =>
    match ctx.pb with
    | none => g
    | some f =>
      { g with contexts := g.contexts.update c { ctx with pb := none }, files := g.files.close f }
  | _, _ => g

/-- `g_ctx.fmt_ctx->oformat->flags & AVFMT_NOFILE`. -/
def nofile (g : Muxer Name) : Bool := g.context.any FormatContext.nofile

/-- `ffmpeg_muxer_init`: its result, and what it leaves. -/
def ffmpegMuxerInit (g : Muxer Name) (filename : Name) (a : InitAnswers) : ℤ × Muxer Name :=
  if g.isInit then (-1, g)
  else
    match a.alloc with
    | .failed left =>
      (-2, if left then (g.allocContext false).freeContext else { g with fmtCtx := none })
    | .allocated nofile =>
      let g := g.allocContext nofile
      if a.newStream = false then (-3, { g.freeContext with videoSt := none })
      else
        let g := { g with videoSt := g.fmtCtx }
        if nofile = false ∧ a.avioOpen = false then (-4, g.freeContext)
        else
          let g := if nofile = false then g.avioOpen filename else g
          if a.writeHeader = false then (-5, g.freeContext)
          else
            (0, { g with
              firstTimestamp := -1
              isInit := true
              calls := g.calls ++ [.opened filename] })

/-- `ffmpeg_muxer_write`, the data pointer being null for `none`; its result is that of
`av_interleaved_write_frame`, unless it does not call it. -/
def ffmpegMuxerWrite (g : Muxer Name) (image : Option Muxed) (result : ℤ) : ℤ × Muxer Name :=
  if g.isInit = false then (-1, g)
  else
    match image with
    | none => (-1, g)
    | some image =>
      (result, { g with
        firstTimestamp :=
          if g.firstTimestamp = -1 then image.timestampUs.toInt64 else g.firstTimestamp
        calls := g.calls ++ [.wrote image] })

/-- `ffmpeg_muxer_close`. -/
def ffmpegMuxerClose (g : Muxer Name) : Muxer Name :=
  if g.isInit = false then g
  else
    -- the trailer is written here; whether that fails is not looked at
    let g : Muxer Name := { g with calls := g.calls ++ [.closed] }
    let g := if g.nofile = false then g.avioClosep else g
    { g.freeContext with videoSt := none, isInit := false }

end Muxer

/-- A call of the muxer, with the results of libavformat. -/
inductive MuxerAction (Name : Type)
  | init (filename : Name) (answers : InitAnswers)
  | write (image : Option Muxed) (result : ℤ)
  | close

section

variable {Name : Type}

/-- The muxer behind a call. -/
def Muxer.call (g : Muxer Name) : MuxerAction Name → Muxer Name
  | .init filename answers => (g.ffmpegMuxerInit filename answers).2
  | .write image result => (g.ffmpegMuxerWrite image result).2
  | .close => g.ffmpegMuxerClose

/-- The muxer, called in any order. -/
def muxerSystem (Name : Type) : TransitionSystem (Muxer Name) (MuxerAction Name) :=
  ⟨.init, fun g a => some (g.call a)⟩

/-! ### What a call can do -/

/-- The file gets opened. -/
def InitAnswers.opens (a : InitAnswers) : Prop :=
  a.alloc = .allocated false ∧ a.newStream = true ∧ a.avioOpen = true

/-- The file gets opened, and its header cannot be written. -/
def InitAnswers.leaks (a : InitAnswers) : Prop := a.opens ∧ a.writeHeader = false

/-- Everything works, and no file was to be opened. -/
def InitAnswers.fileless (a : InitAnswers) : Prop :=
  a.alloc = .allocated true ∧ a.newStream = true ∧ a.writeHeader = true

instance (a : InitAnswers) : Decidable a.opens :=
  inferInstanceAs (Decidable (a.alloc = .allocated false ∧ a.newStream = true ∧ a.avioOpen = true))

instance (a : InitAnswers) : Decidable a.leaks :=
  inferInstanceAs (Decidable (a.opens ∧ a.writeHeader = false))

instance (a : InitAnswers) : Decidable a.fileless :=
  inferInstanceAs
    (Decidable (a.alloc = .allocated true ∧ a.newStream = true ∧ a.writeHeader = true))

theorem InitAnswers.fileless.not_leaks {a : InitAnswers} (h : a.fileless) : ¬ a.leaks := by
  rintro ⟨⟨halloc, -⟩, -⟩
  rw [h.1] at halloc
  cases halloc

/-- The context at `fmt_ctx` is the only one. -/
structure Owns (g : Muxer Name) (c : ℕ) (ctx : FormatContext) : Prop where
  fmtCtx : g.fmtCtx = some c
  get : g.contexts.get c = some ctx
  count : g.contexts.count = 1

/-- There is no context. -/
structure OwnsNothing (g : Muxer Name) : Prop where
  fmtCtx : g.fmtCtx = none
  count : g.contexts.count = 0

theorem OwnsNothing.allocContext {g : Muxer Name} (h : OwnsNothing g) (nofile : Bool) :
    Owns (g.allocContext nofile) g.contexts.lowestFree ⟨nofile, none⟩ where
  fmtCtx := rfl
  get := DescriptorTable.get_allocate_self _ _
  count := by
    rw [Muxer.allocContext, DescriptorTable.count_allocate, h.count]

namespace Owns

variable {g : Muxer Name} {c : ℕ} {ctx : FormatContext}

theorem context (h : Owns g c ctx) : g.context = some ctx := by
  rw [Muxer.context, h.fmtCtx, Option.bind_some, h.get]

theorem freeContext_eq (h : Owns g c ctx) :
    g.freeContext = { g with fmtCtx := none, contexts := g.contexts.close c } := by
  rw [Muxer.freeContext, h.fmtCtx]

theorem freeContext (h : Owns g c ctx) : OwnsNothing g.freeContext where
  fmtCtx := by rw [h.freeContext_eq]
  count := by
    have hclose := DescriptorTable.count_close h.get
    rw [h.count] at hclose
    rw [h.freeContext_eq]
    exact Nat.succ_injective hclose

theorem avioOpen_eq (h : Owns g c ctx) (filename : Name) : g.avioOpen filename =
    { g with
      contexts := g.contexts.update c { ctx with pb := some g.files.lowestFree }
      files := g.files.allocate filename } := by
  rw [Muxer.avioOpen, h.fmtCtx, h.context]

theorem avioOpen (h : Owns g c ctx) (filename : Name) :
    Owns (g.avioOpen filename) c { ctx with pb := some g.files.lowestFree } where
  fmtCtx := by
    rw [h.avioOpen_eq]
    exact h.fmtCtx
  get := by
    rw [h.avioOpen_eq]
    exact DescriptorTable.get_update_self h.get _
  count := by
    rw [h.avioOpen_eq]
    exact (DescriptorTable.count_update h.get _).trans h.count

theorem avioClosep_eq (h : Owns g c ctx) {f : ℕ} (hpb : ctx.pb = some f) : g.avioClosep =
    { g with contexts := g.contexts.update c { ctx with pb := none }, files := g.files.close f } := by
  rw [Muxer.avioClosep, h.fmtCtx, h.context]
  simp only [hpb]

theorem avioClosep (h : Owns g c ctx) {f : ℕ} (hpb : ctx.pb = some f) :
    Owns g.avioClosep c { ctx with pb := none } where
  fmtCtx := by
    rw [h.avioClosep_eq hpb]
    exact h.fmtCtx
  get := by
    rw [h.avioClosep_eq hpb]
    exact DescriptorTable.get_update_self h.get _
  count := by
    rw [h.avioClosep_eq hpb]
    exact (DescriptorTable.count_update h.get _).trans h.count

end Owns

/-- Everything a call of `ffmpeg_muxer_init` can do, if the muxer is not initialised: it fails with
nothing held; it fails with the file still open; it succeeds, without a file or with one. -/
inductive InitResult (g : Muxer Name) (filename : Name) (a : InitAnswers) : ℤ → Muxer Name → Prop
  | failed (r : ℤ) (h : Muxer Name) (hr : r < 0) (hfine : ¬ a.leaks ∧ ¬ a.fileless)
      (hinit : h.isInit = false) (howns : OwnsNothing h) (hfiles : h.files = g.files)
      (hcalls : h.calls = g.calls) : InitResult g filename a r h
  | leaked (h : Muxer Name) (hleaks : a.leaks) (hinit : h.isInit = false) (howns : OwnsNothing h)
      (hfiles : h.files = g.files.allocate filename) (hcalls : h.calls = g.calls) :
      InitResult g filename a (-5) h
  | fileless (h : Muxer Name) (hfileless : a.fileless) (hinit : h.isInit = true)
      (howns : ∃ c, Owns h c ⟨true, none⟩) (hfiles : h.files = g.files)
      (hcalls : h.calls = g.calls ++ [.opened filename]) : InitResult g filename a 0 h
  | succeeded (h : Muxer Name) (hfine : ¬ a.leaks ∧ ¬ a.fileless) (hinit : h.isInit = true)
      (howns : ∃ c, Owns h c ⟨false, some g.files.lowestFree⟩)
      (hfiles : h.files = g.files.allocate filename)
      (hcalls : h.calls = g.calls ++ [.opened filename]) : InitResult g filename a 0 h

/-- A context that was given back. -/
theorem InitResult.of_freeContext {g h : Muxer Name} {filename : Name} {a : InitAnswers} {c : ℕ}
    {ctx : FormatContext} {r : ℤ} (howns : Owns h c ctx) (hr : r < 0)
    (hfine : ¬ a.leaks ∧ ¬ a.fileless) (hinit : h.isInit = false) (hfiles : h.files = g.files)
    (hcalls : h.calls = g.calls) (videoSt : Option ℕ) :
    InitResult g filename a r { h.freeContext with videoSt := videoSt } := by
  have hfree := howns.freeContext
  rw [howns.freeContext_eq] at hfree ⊢
  exact .failed _ _ hr hfine hinit ⟨hfree.fmtCtx, hfree.count⟩ hfiles hcalls

/-- A muxer that is initialised already is left as it is. -/
theorem ffmpegMuxerInit_of_isInit {g : Muxer Name} (hinit : g.isInit = true) (filename : Name)
    (a : InitAnswers) : g.ffmpegMuxerInit filename a = (-1, g) := by
  rw [Muxer.ffmpegMuxerInit, if_pos hinit]

/-- **`ffmpeg_muxer_init`**, with every result of the calls in it. -/
theorem ffmpegMuxerInit_cases {g : Muxer Name} (hg : OwnsNothing g) (hinit : g.isInit = false)
    (filename : Name) (a : InitAnswers) :
    ∃ r t, g.ffmpegMuxerInit filename a = (r, t) ∧ InitResult g filename a r t := by
  refine ⟨(g.ffmpegMuxerInit filename a).1, (g.ffmpegMuxerInit filename a).2, rfl, ?_⟩
  rcases a with ⟨alloc, newStream, avioOpen, writeHeader⟩
  cases alloc with
  | failed left =>
    have hfine : ¬ (InitAnswers.mk (.failed left) newStream avioOpen writeHeader).leaks ∧
        ¬ (InitAnswers.mk (.failed left) newStream avioOpen writeHeader).fileless := by
      simp [InitAnswers.leaks, InitAnswers.opens, InitAnswers.fileless]
    simp only [Muxer.ffmpegMuxerInit, hinit, Bool.false_eq_true, if_false]
    cases left with
    | true =>
      exact .of_freeContext (g := g) (r := -2) (hg.allocContext false) (by decide) hfine hinit rfl
        rfl _
    | false => exact .failed _ _ (by decide) hfine rfl ⟨rfl, hg.count⟩ rfl rfl
  | allocated nofile =>
    have howns := hg.allocContext nofile
    simp only [Muxer.ffmpegMuxerInit, hinit, Bool.false_eq_true, if_false]
    cases newStream with
    | false =>
      refine .of_freeContext (g := g) (r := -3) howns (by decide) ?_ hinit rfl rfl _
      simp [InitAnswers.leaks, InitAnswers.opens, InitAnswers.fileless]
    | true =>
      -- the stream is in the context
      have hstream : Owns { g.allocContext nofile with videoSt := (g.allocContext nofile).fmtCtx }
          g.contexts.lowestFree ⟨nofile, none⟩ := ⟨howns.fmtCtx, howns.get, howns.count⟩
      cases nofile with
      | true =>
        cases writeHeader with
        | false =>
          refine .of_freeContext (g := g) (r := -5) hstream (by decide) ?_ hinit rfl rfl _
          simp [InitAnswers.leaks, InitAnswers.opens, InitAnswers.fileless]
        | true =>
          exact .fileless _ ⟨rfl, rfl, rfl⟩ rfl ⟨_, hstream.fmtCtx, hstream.get, hstream.count⟩ rfl
            rfl
      | false =>
        cases avioOpen with
        | false =>
          refine .of_freeContext (g := g) (r := -4) hstream (by decide) ?_ hinit rfl rfl _
          simp [InitAnswers.leaks, InitAnswers.opens, InitAnswers.fileless]
        | true =>
          have hopen := hstream.avioOpen filename
          have heq := hstream.avioOpen_eq filename
          cases writeHeader with
          | false =>
            -- the context is given back, and the file at its `pb` with it
            refine .leaked _ ⟨⟨rfl, rfl, rfl⟩, rfl⟩ ?_ hopen.freeContext ?_ ?_
            all_goals
              simp only [reduceCtorEq, and_false, if_false, if_true]
              rw [hopen.freeContext_eq, heq]
            · exact hinit
            · rfl
            · rfl
          | true =>
            refine .succeeded _ ?_ rfl ⟨_, hopen.fmtCtx, hopen.get, hopen.count⟩ ?_ ?_
            · simp [InitAnswers.leaks, InitAnswers.fileless]
            all_goals
              simp only [reduceCtorEq, and_false, if_false, if_true]
              rw [heq]
            · rfl
            · rfl

/-- `ffmpeg_muxer_write` allocates nothing. -/
theorem ffmpegMuxerWrite_eq (g : Muxer Name) (image : Option Muxed) (result : ℤ) :
    ∃ firstTimestamp calls, (g.ffmpegMuxerWrite image result).2 =
      { g with firstTimestamp := firstTimestamp, calls := calls } := by
  by_cases hinit : g.isInit = false
  · rw [Muxer.ffmpegMuxerWrite.eq_def, if_pos hinit]
    exact ⟨_, _, rfl⟩
  · rw [Muxer.ffmpegMuxerWrite.eq_def, if_neg hinit]
    cases image with
    | none => exact ⟨_, _, rfl⟩
    | some image => exact ⟨_, _, rfl⟩

/-! ### What is held after any calls -/

/-- What the muxer knows of: nothing; a context; a context with its file.  `leaked` files are open
beside. -/
inductive MuxerHolds (g : Muxer Name) (leaked : ℕ) : Prop
  | idle (hinit : g.isInit = false) (howns : OwnsNothing g) (hfiles : g.files.count = leaked)
  | fileless {c : ℕ} (hinit : g.isInit = true) (howns : Owns g c ⟨true, none⟩)
      (hfiles : g.files.count = leaked)
  | busy {c f : ℕ} {name : Name} (hinit : g.isInit = true) (howns : Owns g c ⟨false, some f⟩)
      (hget : g.files.get f = some name) (hfiles : g.files.count = leaked + 1)

/-- The files a call leaves open. -/
def leakedBy (g : Muxer Name) : MuxerAction Name → ℕ
  | .init _ answers => if g.isInit = false ∧ answers.leaks then 1 else 0
  | _ => 0

theorem muxerHolds_init : MuxerHolds (.init : Muxer Name) 0 := .idle rfl ⟨rfl, rfl⟩ rfl

/-- A muxer that is not initialised knows of nothing. -/
theorem MuxerHolds.idle_of {g : Muxer Name} {leaked : ℕ} (h : MuxerHolds g leaked)
    (hinit : g.isInit = false) : OwnsNothing g ∧ g.files.count = leaked := by
  cases h with
  | idle _ howns hfiles => exact ⟨howns, hfiles⟩
  | fileless hbusy => exact absurd (hbusy.symm.trans hinit) Bool.true_eq_false_eq_False
  | busy hbusy => exact absurd (hbusy.symm.trans hinit) Bool.true_eq_false_eq_False

theorem MuxerHolds.init {g : Muxer Name} {leaked : ℕ} (h : MuxerHolds g leaked) (filename : Name)
    (a : InitAnswers) : MuxerHolds (g.ffmpegMuxerInit filename a).2
      (leaked + leakedBy g (.init filename a)) := by
  cases hinit : g.isInit with
  | true =>
    rw [ffmpegMuxerInit_of_isInit hinit, leakedBy, if_neg (by simp [hinit]), Nat.add_zero]
    exact h
  | false =>
    obtain ⟨howns, hfiles⟩ := h.idle_of hinit
    have hcount := DescriptorTable.count_allocate g.files filename
    obtain ⟨r, t, hresult, hcases⟩ := ffmpegMuxerInit_cases howns hinit filename a
    rw [hresult]
    cases hcases with
    | failed _ _ _ hfine htinit htowns htfiles =>
      rw [leakedBy, if_neg (by simp [hfine.1]), Nat.add_zero]
      exact .idle htinit htowns (htfiles ▸ hfiles)
    | leaked _ hleaks htinit htowns htfiles =>
      rw [leakedBy, if_pos ⟨hinit, hleaks⟩]
      exact .idle htinit htowns (by rw [htfiles, hcount, hfiles])
    | fileless _ hfileless htinit htowns htfiles =>
      obtain ⟨c, htowns⟩ := htowns
      rw [leakedBy, if_neg (by simp [hfileless.not_leaks]), Nat.add_zero]
      exact .fileless htinit htowns (htfiles ▸ hfiles)
    | succeeded _ hfine htinit htowns htfiles =>
      obtain ⟨c, htowns⟩ := htowns
      rw [leakedBy, if_neg (by simp [hfine.1]), Nat.add_zero]
      have hget := DescriptorTable.get_allocate_self g.files filename
      rw [← htfiles] at hget
      exact .busy htinit htowns hget (by rw [htfiles, hcount, hfiles])

/-- `ffmpeg_muxer_close`, for a format that opens its file itself. -/
theorem Owns.close_fileless {g : Muxer Name} {c : ℕ} (h : Owns g c ⟨true, none⟩)
    (hinit : g.isInit = true) : g.ffmpegMuxerClose =
      { g with
        fmtCtx := none
        videoSt := none
        isInit := false
        contexts := g.contexts.close c
        calls := g.calls ++ [.closed] } := by
  have howns : Owns { g with calls := g.calls ++ [.closed] } c ⟨true, none⟩ :=
    ⟨h.fmtCtx, h.get, h.count⟩
  have hnofile : ({ g with calls := g.calls ++ [.closed] } : Muxer Name).nofile = true := by
    rw [Muxer.nofile, howns.context]
    rfl
  have hbusy : ¬ g.isInit = false := by rw [Bool.not_eq_false, hinit]
  simp only [Muxer.ffmpegMuxerClose, if_neg hbusy, hnofile, Bool.true_eq_false, if_false]
  rw [howns.freeContext_eq]

/-- `ffmpeg_muxer_close`, with the file at `pb`. -/
theorem Owns.close_busy {g : Muxer Name} {c f : ℕ} (h : Owns g c ⟨false, some f⟩)
    (hinit : g.isInit = true) : g.ffmpegMuxerClose =
      { g with
        fmtCtx := none
        videoSt := none
        isInit := false
        contexts := (g.contexts.update c ⟨false, none⟩).close c
        files := g.files.close f
        calls := g.calls ++ [.closed] } := by
  have howns : Owns { g with calls := g.calls ++ [.closed] } c ⟨false, some f⟩ :=
    ⟨h.fmtCtx, h.get, h.count⟩
  have hnofile : ({ g with calls := g.calls ++ [.closed] } : Muxer Name).nofile = false := by
    rw [Muxer.nofile, howns.context]
    rfl
  have hbusy : ¬ g.isInit = false := by rw [Bool.not_eq_false, hinit]
  simp only [Muxer.ffmpegMuxerClose, if_neg hbusy, hnofile, if_true]
  rw [(howns.avioClosep rfl).freeContext_eq, howns.avioClosep_eq rfl]

/-- `ffmpeg_muxer_close` gives back what the muxer knows of. -/
theorem MuxerHolds.close {g : Muxer Name} {leaked : ℕ} (h : MuxerHolds g leaked) :
    g.ffmpegMuxerClose.isInit = false ∧ OwnsNothing g.ffmpegMuxerClose ∧
      g.ffmpegMuxerClose.files.count = leaked := by
  cases h with
  | idle hinit howns hfiles =>
    rw [Muxer.ffmpegMuxerClose, if_pos hinit]
    exact ⟨hinit, howns, hfiles⟩
  | @fileless c hinit howns hfiles =>
    have hcontexts := DescriptorTable.count_close howns.get
    rw [howns.count] at hcontexts
    rw [howns.close_fileless hinit]
    exact ⟨rfl, ⟨rfl, Nat.succ_injective hcontexts⟩, hfiles⟩
  | @busy c f name hinit howns hget hfiles =>
    have hcontexts := DescriptorTable.count_close
      (DescriptorTable.get_update_self howns.get ⟨false, none⟩)
    rw [DescriptorTable.count_update howns.get, howns.count] at hcontexts
    have hclosed := DescriptorTable.count_close hget
    rw [hfiles] at hclosed
    rw [howns.close_busy hinit]
    exact ⟨rfl, ⟨rfl, Nat.succ_injective hcontexts⟩, Nat.succ_injective hclosed⟩

/-- **One call** changes what is held as said. -/
theorem MuxerHolds.call {g : Muxer Name} {leaked : ℕ} (h : MuxerHolds g leaked)
    (a : MuxerAction Name) : MuxerHolds (g.call a) (leaked + leakedBy g a) := by
  cases a with
  | init filename answers => exact h.init filename answers
  | write image result =>
    obtain ⟨firstTimestamp, calls, heq⟩ := ffmpegMuxerWrite_eq g image result
    rw [Muxer.call, heq]
    cases h with
    | idle hinit howns hfiles => exact .idle hinit ⟨howns.fmtCtx, howns.count⟩ hfiles
    | fileless hinit howns hfiles =>
      exact .fileless hinit ⟨howns.fmtCtx, howns.get, howns.count⟩ hfiles
    | busy hinit howns hget hfiles =>
      exact .busy hinit ⟨howns.fmtCtx, howns.get, howns.count⟩ hget hfiles
  | close =>
    obtain ⟨hinit, howns, hfiles⟩ := h.close
    exact .idle hinit howns hfiles

/-! ### The law -/

/-- One file and one context, if the muxer is initialised; otherwise neither, and no pointer. -/
def MuxerLaw (g : Muxer Name) : Prop :=
  if g.isInit then g.files.count = 1 ∧ g.contexts.count = 1
  else g.files.count = 0 ∧ g.contexts.count = 0 ∧ g.fmtCtx = none

/-- The call is not one that opens its file and then fails to write the header, nor one that
succeeds without a file. -/
def InitUnwinds (g : Muxer Name) : MuxerAction Name → Prop
  | .init _ answers => g.isInit = false → ¬ answers.leaks ∧ ¬ answers.fileless
  | _ => True

instance (g : Muxer Name) : DecidablePred (InitUnwinds g)
  | .init _ answers =>
    inferInstanceAs (Decidable (g.isInit = false → ¬ answers.leaks ∧ ¬ answers.fileless))
  | .write _ _ => isTrue trivial
  | .close => isTrue trivial

/-- The context has its file. -/
def WithFile (g : Muxer Name) : Prop := ∀ c, ¬ Owns g c ⟨true, none⟩

theorem muxerLaw_of_holds {g : Muxer Name} (h : MuxerHolds g 0) (hfile : WithFile g) :
    MuxerLaw g := by
  rw [MuxerLaw]
  cases h with
  | idle hinit howns hfiles =>
    rw [if_neg (by simp [hinit])]
    exact ⟨hfiles, howns.count, howns.fmtCtx⟩
  | fileless hinit howns hfiles => exact absurd howns (hfile _)
  | busy hinit howns hget hfiles =>
    rw [if_pos hinit]
    exact ⟨hfiles, howns.count⟩

/-- The context of a muxer. -/
theorem Owns.unique {g : Muxer Name} {c c' : ℕ} {ctx ctx' : FormatContext} (h : Owns g c ctx)
    (h' : Owns g c' ctx') : ctx = ctx' := by
  have hsame := h.context.symm.trans h'.context
  exact Option.some_inj.mp hsame

theorem OwnsNothing.withFile {g : Muxer Name} (h : OwnsNothing g) : WithFile g := by
  intro c howns
  have hnone := howns.fmtCtx
  rw [h.fmtCtx] at hnone
  cases hnone

/-- A call that unwinds. -/
theorem WithFile.call {g : Muxer Name} {leaked : ℕ} (h : MuxerHolds g leaked) (hfile : WithFile g)
    {a : MuxerAction Name} (hunwinds : InitUnwinds g a) : WithFile (g.call a) := by
  cases a with
  | init filename answers =>
    rw [Muxer.call]
    cases hinit : g.isInit with
    | true =>
      rw [ffmpegMuxerInit_of_isInit hinit]
      exact hfile
    | false =>
      obtain ⟨r, t, hresult, hcases⟩ :=
        ffmpegMuxerInit_cases (h.idle_of hinit).1 hinit filename answers
      rw [hresult]
      cases hcases with
      | failed _ _ _ _ _ htowns => exact htowns.withFile
      | leaked _ _ _ htowns => exact htowns.withFile
      | fileless _ hfileless => exact absurd hfileless (hunwinds hinit).2
      | succeeded _ _ _ htowns =>
        obtain ⟨c, htowns⟩ := htowns
        intro c' htowns'
        cases htowns.unique htowns'
  | write image result =>
    obtain ⟨firstTimestamp, calls, heq⟩ := ffmpegMuxerWrite_eq g image result
    rw [Muxer.call, heq]
    intro c howns
    exact hfile c ⟨howns.fmtCtx, howns.get, howns.count⟩
  | close => exact h.close.2.1.withFile

/-- A call that does not unwind breaks the law. -/
theorem not_muxerLaw {g : Muxer Name} (h : MuxerHolds g 0) {a : MuxerAction Name}
    (hbad : ¬ InitUnwinds g a) : ¬ MuxerLaw (g.call a) := by
  cases a with
  | write => exact absurd trivial hbad
  | close => exact absurd trivial hbad
  | init filename answers =>
    rw [InitUnwinds, Classical.not_imp, not_and_or, not_not, not_not] at hbad
    obtain ⟨hinit, hbad⟩ := hbad
    obtain ⟨howns, hfiles⟩ := h.idle_of hinit
    obtain ⟨r, t, hresult, hcases⟩ := ffmpegMuxerInit_cases howns hinit filename answers
    rw [Muxer.call, MuxerLaw, hresult]
    cases hcases with
    | failed _ _ _ hfine => exact absurd hbad (not_or.mpr hfine)
    | leaked _ _ htinit _ htfiles =>
      rw [if_neg (by simp [htinit]), htfiles, DescriptorTable.count_allocate]
      rintro ⟨hzero, -⟩
      exact Nat.succ_ne_zero _ hzero
    | fileless _ _ htinit _ htfiles =>
      rw [if_pos htinit, htfiles, hfiles]
      rintro ⟨hone, -⟩
      exact absurd hone Nat.zero_ne_one
    | succeeded _ hfine => exact absurd hbad (not_or.mpr hfine)

/-! ### The runs -/

/-- Calls can always be made. -/
theorem exists_run_muxer (as : List (MuxerAction Name)) :
    ∀ g, ∃ t, (muxerSystem Name).run g as = some t := by
  induction as with
  | nil => exact fun g => ⟨g, rfl⟩
  | cons a as ih => exact fun g => ih (g.call a)

theorem leakedBy_eq_zero {g : Muxer Name} {a : MuxerAction Name} (h : InitUnwinds g a) :
    leakedBy g a = 0 := by
  cases a with
  | init filename answers => exact if_neg fun hleaks => (h hleaks.1).1 hleaks.2
  | write => rfl
  | close => rfl

/-- In runs that unwind nothing is leaked. -/
theorem holds_of_unwinds {g : Muxer Name} (hg : (muxerSystem Name).Via InitUnwinds g) :
    MuxerHolds g 0 ∧ WithFile g := by
  refine hg.invariant (P := fun g => MuxerHolds g 0 ∧ WithFile g)
    ⟨muxerHolds_init, (OwnsNothing.mk rfl rfl).withFile⟩ ?_
  intro g a t h hunwinds ht
  obtain rfl : g.call a = t := Option.some_inj.mp ht
  have hnext := h.1.call a
  rw [leakedBy_eq_zero hunwinds] at hnext
  exact ⟨hnext, h.2.call h.1 hunwinds⟩

/-- **The muxer leaks no output** exactly in the runs in which every call of `ffmpeg_muxer_init`
unwinds: none opens its file and then fails to write the header, and none succeeds without a
file. -/
theorem muxerLaw_iff (as : List (MuxerAction Name)) :
    (muxerSystem Name).Throughout MuxerLaw .init as ↔
      ((muxerSystem Name).runVia InitUnwinds .init as).isSome := by
  obtain ⟨t, ht⟩ := exists_run_muxer as .init
  have hiff : (muxerSystem Name).Throughout MuxerLaw .init as ↔
      (muxerSystem Name).runVia InitUnwinds .init as = some t := by
    refine TransitionSystem.throughout_eq_runVia ?_ ?_ ht
    · intro g hg
      obtain ⟨hholds, hfile⟩ := holds_of_unwinds hg
      exact muxerLaw_of_holds hholds hfile
    · intro g a u hg hbad hu
      obtain rfl : g.call a = u := Option.some_inj.mp hu
      exact not_muxerLaw (holds_of_unwinds hg).1 hbad
  rw [hiff, Option.isSome_iff_exists]
  constructor
  · intro hvia
    exact ⟨t, hvia⟩
  · rintro ⟨u, hvia⟩
    rw [hvia, ← ht, TransitionSystem.run_of_runVia hvia]

/-- All goes well up to the header. -/
def headerFails : InitAnswers := ⟨.allocated false, true, true, false⟩

/-- The file is open, and nobody knows of it. -/
theorem muxerLaw_headerFails : ∃ g, (muxerSystem String).Reachable g ∧ g.isInit = false ∧
    g.fmtCtx = none ∧ g.contexts.count = 0 ∧ g.files.count = 1 ∧ ¬ MuxerLaw g := by
  have hrun : (muxerSystem String).run .init [.init "rec.avi" headerFails] = some _ := rfl
  refine ⟨_, .of_run hrun, rfl, rfl, rfl, rfl, ?_⟩
  rintro ⟨hzero, -⟩
  exact absurd hzero (by decide)

/-- **Retries**: each leaves one more file open. -/
theorem run_retries {a : InitAnswers} (hleaks : a.leaks) (filenames : List Name) :
    ∀ {g : Muxer Name}, OwnsNothing g → g.isInit = false →
      ∃ t, (muxerSystem Name).run g (filenames.map fun name => .init name a) = some t ∧
        t.isInit = false ∧ t.files.count = g.files.count + filenames.length := by
  induction filenames with
  | nil => exact fun _ hinit => ⟨_, rfl, hinit, rfl⟩
  | cons name filenames ih =>
    intro g howns hinit
    obtain ⟨r, u, hresult, hcases⟩ := ffmpegMuxerInit_cases howns hinit name a
    have hstep : (muxerSystem Name).step g (.init name a) = some u := by
      show some (g.ffmpegMuxerInit name a).2 = some u
      rw [hresult]
    rw [List.map_cons, TransitionSystem.run_cons_of_step hstep, List.length_cons]
    cases hcases with
    | failed _ _ _ hfine => exact absurd hleaks hfine.1
    | leaked _ _ huinit huowns hufiles =>
      obtain ⟨t, hrun, htinit, hcount⟩ := ih huowns huinit
      refine ⟨t, hrun, htinit, ?_⟩
      rw [hcount, hufiles, DescriptorTable.count_allocate, Nat.add_assoc, Nat.add_comm 1]
    | fileless _ hfileless => exact absurd hleaks hfileless.not_leaks
    | succeeded _ hfine => exact absurd hleaks hfine.1

/-! ### The muxer of the recordings -/

/-- What the model of the recordings has of the muxer. -/
def Muxer.toContext (g : Muxer Name) : MuxerContext Name := ⟨g.isInit, g.calls⟩

/-- Everything works. -/
def initSucceeds : InitAnswers := ⟨.allocated false, true, true, true⟩

theorem calls_avioOpen (g : Muxer Name) (filename : Name) :
    (g.avioOpen filename).calls = g.calls := by
  rw [Muxer.avioOpen]
  split
  · rfl
  · rfl

theorem calls_avioClosep (g : Muxer Name) : g.avioClosep.calls = g.calls := by
  rw [Muxer.avioClosep]
  split
  · split
    · rfl
    · rfl
  · rfl

theorem calls_freeContext (g : Muxer Name) : g.freeContext.calls = g.calls := by
  rw [Muxer.freeContext]
  split
  · rfl
  · rfl

/-- **Refinement**: where libavformat succeeds, `ffmpeg_muxer_init` does what that of the recordings
does. -/
theorem toContext_init (g : Muxer Name) (filename : Name) :
    (g.ffmpegMuxerInit filename initSucceeds).1 = (g.toContext.ffmpegMuxerInit filename).1 ∧
      (g.ffmpegMuxerInit filename initSucceeds).2.toContext =
        (g.toContext.ffmpegMuxerInit filename).2 := by
  cases hinit : g.isInit with
  | true => simp [Muxer.ffmpegMuxerInit, MuxerContext.ffmpegMuxerInit, Muxer.toContext, hinit]
  | false =>
    simp [Muxer.ffmpegMuxerInit, MuxerContext.ffmpegMuxerInit, Muxer.toContext, hinit,
      initSucceeds, calls_avioOpen, Muxer.allocContext]

theorem toContext_write (g : Muxer Name) (image : Muxed) (result : ℤ) :
    (g.ffmpegMuxerWrite (some image) result).2.toContext =
      g.toContext.ffmpegMuxerWrite image := by
  cases hinit : g.isInit with
  | true => simp [Muxer.ffmpegMuxerWrite, MuxerContext.ffmpegMuxerWrite, Muxer.toContext, hinit]
  | false => simp [Muxer.ffmpegMuxerWrite, MuxerContext.ffmpegMuxerWrite, Muxer.toContext, hinit]

/-- `ffmpeg_muxer_close` writes the trailer. -/
theorem close_of_isInit {g : Muxer Name} (hinit : g.isInit = true) :
    g.ffmpegMuxerClose.isInit = false ∧ g.ffmpegMuxerClose.calls = g.calls ++ [.closed] := by
  rw [Muxer.ffmpegMuxerClose, if_neg (by rw [hinit]; decide)]
  refine ⟨rfl, ?_⟩
  dsimp only
  rw [calls_freeContext]
  split_ifs
  · rw [calls_avioClosep]
  · rfl

theorem close_of_not_isInit {g : Muxer Name} (hinit : g.isInit = false) :
    g.ffmpegMuxerClose = g := by
  rw [Muxer.ffmpegMuxerClose, if_pos hinit]

theorem toContext_close (g : Muxer Name) :
    g.ffmpegMuxerClose.toContext = g.toContext.ffmpegMuxerClose := by
  cases hinit : g.isInit with
  | false =>
    rw [close_of_not_isInit hinit, MuxerContext.ffmpegMuxerClose]
    exact (if_neg (by rw [Muxer.toContext, hinit]; exact Bool.false_ne_true)).symm
  | true =>
    obtain ⟨hclosed, hcalls⟩ := close_of_isInit hinit
    rw [MuxerContext.ffmpegMuxerClose, Muxer.toContext, Muxer.toContext, hclosed, hcalls, hinit]
    rfl

end

end Sentry
