/-
The pointer in the upload slot (`src/net/tcp_send.c`).

`p_bigdata_msg` is set by the handler when it accepts a BIGDATA request and cleared
behind the completion of one; `data_type` is set by the handler alone, and
`is_sending` is cleared behind every answer.  Two invariants tie the three fields
to the place of the thread, each along the runs that keep clear of one defect.

* `pointerInv` — without an idle heartbeat behind a completed BIGDATA, the pointer
  is there wherever the thread follows it;
* `pendingInv` — if no BIGDATA is answered with locals read before it came in, the
  pointer is there only while a send is pending.
-/
import SentrySystem.TcpSendThread

namespace Sentry

/-! ### The pointer is there where it is followed -/

/-- Whether a BIGDATA was completed and no request was accepted since. -/
def completedLast (es : List SendEvent) : Bool :=
  es.foldl (fun last e =>
    match e with
    | .accept _ => false
    | .dispatch _ _ _ => true
    | _ => last) false

theorem completedLast_append (es : List SendEvent) (e : SendEvent) :
    completedLast (es ++ [e]) =
      match e with
      | .accept _ => false
      | .dispatch _ _ _ => true
      | _ => completedLast es := by
  rw [completedLast, List.foldl_append]
  rfl

/-- The steps at which `tcp_send_thread` follows `p_bigdata_msg`. -/
def Dereferences (s : Sender) : SendAction → Prop
  | .leaveWait timedOut => s.pc = .waiting ∧ wakes s.buf timedOut = true ∧ s.buf.dataType = .big
  | .complete => ∃ snap ok, s.pc = .completing snap ok ∧ snap.dataType = .big
  | _ => False

/-- The condition on the steps: the thread does not leave its wait for the idle
heartbeat while the last thing that happened was the completion of a BIGDATA. -/
def NoIdleHeartbeat (s : Sender) : SendAction → Prop
  | .leaveWait _ => s.buf.isSending = false → s.buf.dataType = .big →
      completedLast s.trace = false
  | _ => True

instance (s : Sender) : ∀ a, Decidable (NoIdleHeartbeat s a)
  | .leaveWait _ => inferInstanceAs (Decidable (_ → _ → _))
  | .image _ | .bigdata _ _ | .linkLost | .connect _ | .publish | .recheck | .sendFrame _
  | .dropLink | .complete | .clear => isTrue trivial

/-- Where the pointer is not null, and where it is. -/
structure PointerInv (s : Sender) : Prop where
  pending : s.buf.isSending = true → s.buf.dataType = .big → s.buf.pBigdataMsg ≠ none
  unfinished : completedLast s.trace = false → s.buf.dataType = .big → s.buf.pBigdataMsg ≠ none
  snapshot : ∀ snap, s.pc.snapshot? = some snap → snap.dataType = .big →
    s.buf.pBigdataMsg ≠ none
  cleared : ∀ snap, s.pc = .clearing snap → snap.dataType = .big →
    completedLast s.trace = true
  completed : completedLast s.trace = true → s.buf.pBigdataMsg = none ∨
    ∃ snap, s.pc = .clearing snap ∧ snap.dataType = .big

/-- A step that leaves the pointer and the request as they are. -/
theorem PointerInv.move {s t : Sender} (h : PointerInv s)
    (hbuf : t.buf = { s.buf with connected := t.buf.connected, currentFrameId := t.buf.currentFrameId })
    (htrace : completedLast t.trace = completedLast s.trace)
    (hsnap : ∀ snap, t.pc.snapshot? = some snap → s.pc.snapshot? = some snap)
    (hclear : ∀ snap, t.pc = .clearing snap → snap.dataType = .big → s.pc = .clearing snap)
    (hkeep : ∀ snap, s.pc = .clearing snap → t.pc = .clearing snap) : PointerInv t := by
  obtain ⟨hpending, hunfinished, hsnapshot, hcleared, hcompleted⟩ := h
  refine ⟨?_, ?_, ?_, ?_, ?_⟩
  · rw [hbuf]
    exact hpending
  · rw [hbuf, htrace]
    exact hunfinished
  · rw [hbuf]
    intro snap hs
    exact hsnapshot snap (hsnap snap hs)
  · rw [htrace]
    intro snap hpc hbig
    exact hcleared snap (hclear snap hpc hbig) hbig
  · rw [htrace, hbuf]
    intro hlast
    refine (hcompleted hlast).imp_right ?_
    rintro ⟨snap, hpc, hbig⟩
    exact ⟨snap, hkeep snap hpc, hbig⟩

/-- Such a step outside the critical section. -/
theorem PointerInv.unlocked {s t : Sender} (h : PointerInv s)
    (hbuf : t.buf = { s.buf with connected := t.buf.connected, currentFrameId := t.buf.currentFrameId })
    (htrace : completedLast t.trace = completedLast s.trace)
    (hsnap : ∀ snap, t.pc.snapshot? = some snap → s.pc.snapshot? = some snap)
    (hpc : s.pc.locked = false) (hpc' : t.pc.locked = false) : PointerInv t := by
  refine h.move hbuf htrace hsnap ?_ ?_
  · intro snap hclearing
    rw [hclearing] at hpc'
    simp [SendPc.locked] at hpc'
  · intro snap hclearing
    rw [hclearing] at hpc
    simp [SendPc.locked] at hpc

/-- A request was accepted, and the pointer is set if it is a BIGDATA. -/
theorem PointerInv.accept {s t : Sender} {r : Request} (h : PointerInv s)
    (hfree : s.pc.locked = false) (hpc : t.pc = s.pc) (htrace : t.trace = s.trace ++ [.accept r])
    (hbig : t.buf.dataType = .big → t.buf.pBigdataMsg ≠ none)
    (hkeep : s.buf.pBigdataMsg ≠ none → t.buf.pBigdataMsg ≠ none) : PointerInv t := by
  refine ⟨fun _ => hbig, fun _ => hbig, ?_, ?_, ?_⟩
  · rw [hpc]
    intro snap hs htype
    exact hkeep (h.snapshot snap hs htype)
  · rw [hpc]
    intro snap hclearing
    rw [hclearing] at hfree
    simp [SendPc.locked] at hfree
  · rw [htrace, completedLast_append]
    intro hlast
    simp at hlast

theorem PointerInv.step {s t : Sender} {a : SendAction} {es : List SendEvent}
    (h : PointerInv s) (hgood : NoIdleHeartbeat s a)
    (ht : SendStep s.buf s.pc a t.buf t.pc es) (htrace : t.trace = s.trace ++ es) :
    PointerInv t := by
  obtain ⟨b, pc, tr⟩ := s
  obtain ⟨b', pc', tr'⟩ := t
  dsimp only at ht htrace
  subst htrace
  cases ht with
  | ignored _ hfree => exact h.unlocked rfl (by simp) (fun _ hs => hs) hfree hfree
  | acceptImage img content len hfree hidle hlen =>
    exact h.accept hfree rfl rfl (fun hbig => by simp [acceptImage] at hbig) id
  | acceptBigdata m src hfree hidle hptr =>
    exact h.accept hfree rfl rfl (fun _ => by simp [acceptBigdata]) (fun _ => by simp [acceptBigdata])
  | busy m src hfree hbusy hptr =>
    exact h.unlocked rfl (completedLast_append _ _) (fun _ hs => hs) hfree hfree
  | linkLost hfree => exact h.unlocked rfl (by simp) (fun _ hs => hs) hfree hfree
  | leaveWait timedOut snap hpc hwake hsnap =>
    subst hpc
    obtain ⟨hfit, hidle⟩ := fits_takeSnapshot hsnap
    refine ⟨h.pending, by simpa using h.unfinished, ?_, ?_, ?_⟩
    · intro snap' hs htype hnull
      obtain rfl : snap = snap' := by
        split_ifs at hs <;> exact Option.some_inj.mp hs
      -- a snapshot of a BIGDATA was read off the pointer
      obtain ⟨m, hm, -⟩ := hfit.big (hfit.dataType_eq.symm.trans htype)
      exact absurd (hm.symm.trans hnull) (by simp)
    · intro snap' hpc'
      split_ifs at hpc'
    · intro hlast
      refine .inl ((h.completed (by simpa using hlast)).resolve_right ?_)
      simp
  | nullSnapshot timedOut hpc hwake hsnap =>
    subst hpc
    exact h.unlocked rfl (by simp) (fun _ hs => by simp [SendPc.snapshot?] at hs) rfl rfl
  | connect ok snap hpc =>
    subst hpc
    refine h.unlocked rfl (by simp) ?_ rfl (by split_ifs <;> rfl)
    intro snap' hs
    split_ifs at hs
    · exact hs
    · simp [SendPc.snapshot?] at hs
  | publish snap hpc =>
    subst hpc
    exact h.unlocked rfl (by simp) (fun _ hs => hs) rfl rfl
  | recheck snap hpc =>
    subst hpc
    refine h.unlocked rfl (by simp) ?_ rfl (by split_ifs <;> rfl)
    intro snap' hs
    split_ifs at hs
    · exact hs
    · simp [SendPc.snapshot?] at hs
  | sendFrame ok snap hpc =>
    subst hpc
    refine h.unlocked rfl (completedLast_append _ _) ?_ rfl (by split_ifs <;> rfl)
    intro snap' hs
    split_ifs at hs <;> exact hs
  | dropLink snap hpc =>
    subst hpc
    exact h.unlocked rfl (by simp) (fun _ hs => hs) rfl rfl
  | completeNormal snap ok n hpc htype =>
    subst hpc
    refine h.move rfl (by simp) (fun _ hs => hs) ?_ ?_
    · rintro snap' ⟨⟩ hbig
      exact absurd (htype.symm.trans hbig) (by simp)
    · intro snap' hclearing
      simp at hclearing
  | completeBig snap ok n m hpc htype hm =>
    have hnotnull : b.pBigdataMsg ≠ none := by simp [hm]
    -- the completion is the last event, and the pointer stays until the slot is cleared
    exact ⟨fun _ _ => hnotnull, fun _ _ => hnotnull, fun _ _ _ => hnotnull,
      fun _ _ _ => completedLast_append _ _, fun _ => .inr ⟨snap, rfl, htype⟩⟩
  | nullComplete snap ok n hpc htype hm =>
    subst hpc
    exact h.unlocked rfl (by simp) (fun _ hs => by simp [SendPc.snapshot?] at hs) rfl rfl
  | clearNormal snap hpc htype =>
    subst hpc
    refine ⟨fun hs => by simp at hs, ?_, fun _ hs => by simp [SendPc.snapshot?] at hs,
      fun _ hpc' => by simp at hpc', ?_⟩
    · rw [completedLast_append]
      exact h.unfinished
    · rw [completedLast_append]
      intro hlast
      refine .inl ((h.completed hlast).resolve_right ?_)
      rintro ⟨snap', ⟨⟩, hbig⟩
      exact absurd (htype.symm.trans hbig) (by simp)
  | clearBig snap hpc htype =>
    subst hpc
    refine ⟨fun hs => by simp at hs, ?_, fun _ hs => by simp [SendPc.snapshot?] at hs,
      fun _ hpc' => by simp at hpc', fun _ => .inl rfl⟩
    rw [completedLast_append]
    intro hlast
    -- what is cleared was completed just before
    have hcleared := h.cleared snap rfl htype
    exact absurd (hcleared.symm.trans hlast) (by simp)

/-- The pointer along the runs without an idle heartbeat behind a completed BIGDATA. -/
theorem pointerInv {connected : Bool} {s : Sender}
    (hs : (senderSystem connected).Via NoIdleHeartbeat s) : PointerInv s := by
  refine hs.invariant ?_ ?_
  · refine ⟨fun h => ?_, fun _ h => ?_, fun _ h => ?_, fun _ h => ?_, fun _ => .inl rfl⟩
    · simp [senderSystem, TcpDataBuffer.init] at h
    · simp [senderSystem, TcpDataBuffer.init] at h
    · simp [senderSystem, SendPc.snapshot?] at h
    · simp [senderSystem] at h
  · intro s a t h hgood ht
    obtain ⟨es, hstep, htrace⟩ := sendStep_cases ht
    exact h.step hgood hstep htrace

/-- Where the thread follows the pointer, it is not null exactly if the step keeps to the
condition. -/
theorem PointerInv.dereferences_iff {s : Sender} {a : SendAction} (h : PointerInv s)
    (hderef : Dereferences s a) : (∃ m, s.buf.pBigdataMsg = some m) ↔ NoIdleHeartbeat s a := by
  rw [← Option.ne_none_iff_exists']
  cases a with
  | leaveWait timedOut =>
    obtain ⟨hpc, -, hbig⟩ := hderef
    constructor
    · intro hm _ _
      by_contra hlast
      rw [Bool.not_eq_false] at hlast
      obtain hnull | ⟨snap, hclearing, -⟩ := h.completed hlast
      · exact hm hnull
      · exact absurd (hpc.symm.trans hclearing) (by simp)
    · intro hgood
      rcases hsend : s.buf.isSending with _ | _
      · exact h.unfinished (hgood hsend hbig) hbig
      · exact h.pending hsend hbig
  | complete =>
    obtain ⟨snap, ok, hpc, hbig⟩ := hderef
    exact iff_of_true (h.snapshot snap (by rw [hpc]; rfl) hbig) trivial
  | _ => exact hderef.elim

/-! ### The pointer is there only while a send is pending -/

/-- The condition on the steps: a request found behind locals that were read while the
slot was idle is an image. -/
def NoStaleBigdata (s : Sender) : SendAction → Prop
  | .recheck => ∀ snap, s.pc = .rechecking snap → snap.idle = true → s.buf.isSending = true →
      s.buf.dataType = .normal
  | _ => True

/-- The pointer belongs to the request being answered. -/
structure PendingInv (b : TcpDataBuffer) (pc : SendPc) : Prop where
  pending : b.pBigdataMsg ≠ none → b.isSending = true ∧ b.dataType = .big
  fits : ∀ snap, pc.snapshot? = some snap → snap.idle = false ∨ pc.committed = true →
    b.isSending = true ∧ snap.dataType = b.dataType
  idle : ∀ snap, pc.snapshot? = some snap → snap.idle = true → snap.dataType = .normal

/-- A request is accepted while nothing is pending. -/
theorem PendingInv.accept {b b' : TcpDataBuffer} {pc : SendPc} (h : PendingInv b pc)
    (hidle : b.isSending = false)
    (hpending : b'.pBigdataMsg ≠ none → b'.isSending = true ∧ b'.dataType = .big) :
    PendingInv b' pc := by
  refine ⟨hpending, ?_, h.idle⟩
  intro snap hs hor
  have hsend := (h.fits snap hs hor).1
  rw [hidle] at hsend
  simp at hsend

/-- While the slot is idle the pointer is null. -/
theorem PendingInv.null_of_idle {b : TcpDataBuffer} {pc : SendPc} (h : PendingInv b pc)
    (hidle : b.isSending = false) : b.pBigdataMsg = none := by
  by_contra hm
  have hsend := (h.pending hm).1
  rw [hidle] at hsend
  simp at hsend

theorem PendingInv.step {s : Sender} {a : SendAction} {b' : TcpDataBuffer} {pc' : SendPc}
    (h : PendingInv s.buf s.pc) (hgood : NoStaleBigdata s a) (ht : SlotStep s.buf s.pc a b' pc') :
    PendingInv b' pc' := by
  cases ht with
  | move _ _ _ hbuf hsnap hcommit =>
    obtain ⟨hpending, hfits, hidle⟩ := h
    rw [hbuf]
    exact ⟨hpending, fun snap hs huse => hfits snap (hsnap snap hs) (huse.imp_right hcommit),
      fun snap hs => hidle snap (hsnap snap hs)⟩
  | image _ content len hidle => exact h.accept hidle fun hm => absurd (h.null_of_idle hidle) hm
  | bigdata _ m src hidle => exact h.accept hidle fun _ => ⟨rfl, rfl⟩
  | snapshot _ snap _ hsnap hpc' hcommit =>
    obtain ⟨hfit, hidle⟩ := fits_takeSnapshot hsnap
    refine ⟨h.pending, ?_, ?_⟩
    · intro snap' hs huse
      obtain rfl : snap = snap' := Option.some_inj.mp (hpc'.symm.trans hs)
      rw [hcommit, hidle] at huse
      exact ⟨by simpa using huse, hfit.dataType_eq⟩
    · intro snap' hs hidle'
      obtain rfl : snap = snap' := Option.some_inj.mp (hpc'.symm.trans hs)
      rw [hidle] at hidle'
      -- an idle slot has no pointer, so what was read is not a BIGDATA
      have hnull := h.null_of_idle (by simpa using hidle')
      rw [hfit.dataType_eq]
      rcases hb : s.buf.dataType with _ | _
      · rfl
      · obtain ⟨m, hm, -⟩ := hfit.big hb
        exact absurd (hm.symm.trans hnull) (by simp)
  | commit snap hpc hsend =>
    have hfresh := hgood snap hpc
    rw [hpc] at h
    refine ⟨h.pending, ?_, h.idle⟩
    intro snap' hs _
    obtain rfl : snap = snap' := Option.some_inj.mp hs
    refine ⟨hsend, ?_⟩
    by_cases hidle : snap.idle = true
    · -- locals of an idle slot are those of an image, and so is what came in since
      exact (h.idle snap rfl hidle).trans (hfresh hidle hsend).symm
    · exact (h.fits snap rfl (.inl (by simpa using hidle))).2
  | clear _ snap m hpc hm =>
    rw [hpc] at h
    refine ⟨fun hnotnull => ?_, fun _ hs => by simp [SendPc.snapshot?] at hs,
      fun _ hs => by simp [SendPc.snapshot?] at hs⟩
    rcases hm with rfl | ⟨htype, rfl⟩
    · exact absurd rfl hnotnull
    · -- the request answered was an image, so there is no pointer
      have hbig := (h.pending hnotnull).2
      rw [← (h.fits snap rfl (.inr rfl)).2, htype] at hbig
      simp at hbig

/-- The pointer along the runs in which no BIGDATA is answered with locals read before it
came in. -/
theorem pendingInv {connected : Bool} {s : Sender}
    (hs : (senderSystem connected).Via NoStaleBigdata s) : PendingInv s.buf s.pc := by
  refine hs.invariant (P := fun s => PendingInv s.buf s.pc) ?_ ?_
  · exact ⟨fun h => absurd rfl h, fun _ h => by simp [senderSystem, SendPc.snapshot?] at h,
      fun _ h => by simp [senderSystem, SendPc.snapshot?] at h⟩
  · intro s a t h hgood ht
    obtain ⟨es, hstep, -⟩ := sendStep_cases ht
    exact h.step hgood hstep.slotStep

end Sentry
