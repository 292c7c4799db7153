/-
The orders in which the threads start (`src/main.c`, `src/msg/msg_deliver.c` and the
initialisations of the modules).

A start-up is harmless if no handler follows a null pointer, locks a mutex or signals a
condition variable that its module has not initialised, and no initialisation erases a
request accepted before.  Each module initialises its mutex and its condition variable last, and
each handler locks the mutex first.  Nothing in the code keeps a handler from being called
before that, except for the TCP sender.

* `Harmless` — what a start-up must keep to;
* `InitFirst` — a handler is called behind the initialisations of what it locks and signals;
* `Idle` — in front of these a module holds no request;
* `Harmless.step`, `not_harmless_of_early` — such calls are harmless, and no others;
* `harmless_iff` — the harmless start-ups are those with no other calls.
-/
import SentrySystem.StartUp

namespace Sentry

/-! ### Harmless start-ups -/

/-- A start-up that has done no harm. -/
structure Harmless (s : StartState) : Prop where
  /-- no handler followed a null pointer -/
  noNull : s.nullUses = []
  /-- no handler used a mutex or a condition variable that was not initialised -/
  ready : s.unready = []
  /-- no initialisation erased a request accepted before -/
  kept : s.erased = []

/-- A handler of another module than the TCP sender is only called behind `pthread_mutex_init`
of its module, and where it signals behind `pthread_cond_init`. -/
def InitFirst (s : StartState) : StartAction → Prop
  | .handlerReturn len _ => ∀ c ∈ s.msgs.current, ∀ th ∈ lockedBy c.2.queued len,
      th ≠ .tcpSend → ∀ n ∈ mutexAt th, n < s.progress th ∧
        (signals s.data c.2.queued len = true → n + 1 < s.progress th)
  | _ => True

instance : ∀ (s : StartState) (a : StartAction), Decidable (InitFirst s a)
  | s, .handlerReturn len _ => inferInstanceAs (Decidable (∀ c ∈ s.msgs.current,
      ∀ th ∈ lockedBy c.2.queued len, th ≠ .tcpSend → ∀ n ∈ mutexAt th, n < s.progress th ∧
        (signals s.data c.2.queued len = true → n + 1 < s.progress th)))
  | _, .init _ | _, .dispatch _ _ _ | _, .msg _ | _, .work _ => .isTrue trivial

theorem exists_mutexAt {msg : CommonMsg} {len : UInt32} {th : MainThread}
    (h : lockedBy msg len = some th) : ∃ n, mutexAt th = some n := by
  unfold lockedBy at h
  split at h
  case h_6 =>
    split_ifs at h
    exact Option.some_inj.mp h ▸ ⟨5, rfl⟩
  case h_7 =>
    split_ifs at h
    exact Option.some_inj.mp h ▸ ⟨5, rfl⟩
  case h_10 => cases h
  all_goals exact Option.some_inj.mp h ▸ ⟨_, rfl⟩

theorem mutexAt_lt_initLength {th : MainThread} {n : ℕ} (h : mutexAt th = some n) :
    n < initLength th := by
  cases th <;> simp only [mutexAt, Option.some_inj, reduceCtorEq] at h <;>
    simp only [initLength] <;> omega

/-- What a handler uses is initialised where its thread has come that far. -/
theorem unreadyUse_eq_none {s : StartState} (h : SyncBuilt s) (msg : CommonMsg) (len : UInt32) :
    unreadyUse s.data msg len = none ↔ ∀ th ∈ lockedBy msg len, ∀ n ∈ mutexAt th,
      n < s.progress th ∧ (signals s.data msg len = true → n + 1 < s.progress th) := by
  rw [unreadyUse, Option.filter_eq_none_iff]
  refine forall₂_congr fun th hth => ?_
  obtain ⟨n, hn⟩ := exists_mutexAt hth
  simp only [hn, Option.mem_def, Option.some_inj, forall_eq']
  rw [← (h th n hn).1, ← (h th n hn).2]
  cases s.data.mutexReady th <;> cases signals s.data msg len <;> simp

/-! ### The pointers of the storage -/

/-- The pointers of the storage are set by the first six writes. -/
structure StorageBuilt (d : StorageData) (k : ℕ) : Prop where
  write : 1 ≤ k → d.writePtr ≠ none
  writeLens : 2 ≤ k → d.writeLensPtr ≠ none
  writeTs : 3 ≤ k → d.writeTsPtr ≠ none
  read : 4 ≤ k → d.readPtr ≠ none
  readLens : 5 ≤ k → d.readLensPtr ≠ none
  readTs : 6 ≤ k → d.readTsPtr ≠ none

theorem StorageBuilt.init {d d' : StorageData} {k : ℕ} (h : StorageBuilt d k)
    (hwrite : storageDataInit d k = some d') : StorageBuilt d' (k + 1) := by
  obtain ⟨hwritePtr, hwriteLens, hwriteTs, hread, hreadLens, hreadTs⟩ := h
  match k, hwrite with
  | 0, hwrite => constructor <;> simp [← Option.some_inj.mp hwrite]
  | 1, hwrite => constructor <;> simp_all [← Option.some_inj.mp hwrite]
  | 2, hwrite => constructor <;> simp_all [← Option.some_inj.mp hwrite]
  | 3, hwrite => constructor <;> simp_all [← Option.some_inj.mp hwrite]
  | 4, hwrite => constructor <;> simp_all [← Option.some_inj.mp hwrite]
  | 5, hwrite => constructor <;> simp_all [← Option.some_inj.mp hwrite]
  | 6, hwrite => constructor <;> simp_all [← Option.some_inj.mp hwrite]
  | 7, hwrite => constructor <;> simp_all [← Option.some_inj.mp hwrite]

/-- Behind the writes an image may swap the pointers, all of which are set. -/
theorem StorageBuilt.stored {d : StorageData} {k : ℕ} (h : StorageBuilt d k) (hk : 8 ≤ k) :
    StorageBuilt d.stored k := by
  obtain ⟨hwrite, hwriteLens, hwriteTs, hread, hreadLens, hreadTs⟩ := h
  have hwrite := hwrite (by omega)
  have hwriteLens := hwriteLens (by omega)
  have hwriteTs := hwriteTs (by omega)
  rw [StorageData.stored]
  split_ifs
  · exact ⟨fun _ => hwrite, fun _ => hwriteLens, fun _ => hwriteTs, hread, hreadLens, hreadTs⟩
  · exact ⟨fun _ => hwrite, fun _ => hwriteLens, fun _ => hwriteTs, hread, hreadLens, hreadTs⟩
  · exact ⟨fun _ => hread (by omega), fun _ => hreadLens (by omega), fun _ => hreadTs (by omega),
      fun _ => hwrite, fun _ => hwriteLens, fun _ => hwriteTs⟩

/-- The pointers of the storage, in a state. -/
def StorageSet (s : StartState) : Prop := StorageBuilt s.data.storage (s.progress .storageVideo)

/-- Behind the writes nothing changes for the pointers. -/
theorem StorageBuilt.next {d : StorageData} {k : ℕ} (h : StorageBuilt d k) (hk : 8 ≤ k) :
    StorageBuilt d (k + 1) :=
  ⟨fun _ => h.write (by omega), fun _ => h.writeLens (by omega), fun _ => h.writeTs (by omega),
    fun _ => h.read (by omega), fun _ => h.readLens (by omega), fun _ => h.readTs (by omega)⟩

theorem StorageSet.wrote {s : StartState} {th : MainThread} {d : ModuleData} (h : StorageSet s)
    (hwrite : initWrite s.data th (s.progress th) = some d) : StorageSet (s.wrote th d) := by
  by_cases hth : th = .storageVideo
  · subst hth
    have hstep := initWrite_cases hwrite
    rw [StorageSet, progress_wrote, Function.update_self, data_wrote]
    rw [StorageSet] at h
    generalize s.progress .storageVideo = k at hstep h ⊢
    cases hstep with
    | nothing th k hnone => cases hnone
    | storage k storage hk hstorage => exact h.init hstorage
    | mutex th n hn => exact h.next (Option.some_inj.mp hn).le
    | cond th n hn => exact h.next ((Option.some_inj.mp hn).le.trans (Nat.le_succ n))
  · have hstorage : d.storage = s.data.storage := (initWrite_frame hwrite).2.2.2.2 hth
    rw [StorageSet, progress_wrote, Function.update_of_ne (Ne.symm hth), data_wrote, hstorage]
    exact h

theorem StorageSet.worked {s : StartState} {th : MainThread} {d : ModuleData} (h : StorageSet s)
    (hwork : workData s.data th = some d) : StorageSet (s.worked th d) := by
  cases workData_cases hwork with
  | storageVideo => exact ⟨h.write, h.writeLens, h.writeTs, h.read, h.readLens, h.readTs⟩
  | _ => exact h

/-! ### Requests -/

/-- In front of `pthread_mutex_init` a module holds no request. -/
def Idle (s : StartState) : Prop :=
  ∀ th n, mutexAt th = some n → s.progress th ≤ n → request s.data th = none

section Requests

variable (d : ModuleData) {th : MainThread}

theorem request_logger (logger : LoggerData) (hne : th ≠ .loggerProcess) :
    request { d with logger := logger } th = request d th := by
  cases th <;> first | rfl | exact absurd rfl hne

theorem request_storage (storage : StorageData) (hne : th ≠ .storageVideo) :
    request { d with storage := storage } th = request d th := by
  cases th <;> first | rfl | exact absurd rfl hne

theorem request_udp (udp : UdpSendBuffer) (hne : th ≠ .udpSend) :
    request { d with udp := udp } th = request d th := by
  cases th <;> first | rfl | exact absurd rfl hne

theorem request_tcp (tcp : TcpStartData) (hne : th ≠ .tcpSend) :
    request { d with tcp := tcp } th = request d th := by
  cases th <;> first | rfl | exact absurd rfl hne

theorem request_process (process : ProcessData) (hne : th ≠ .processImage) :
    request { d with process := process } th = request d th := by
  cases th <;> first | rfl | exact absurd rfl hne

theorem request_command (command : CommandSlot) (hne : th ≠ .commandProcess) :
    request { d with command := command } th = request d th := by
  cases th <;> first | rfl | exact absurd rfl hne

end Requests

/-- The writes of an initialisation make no request. -/
theorem request_initStep {d d' : ModuleData} {th : MainThread} {k : ℕ} (h : InitStep d th k d')
    {th' : MainThread} (hnone : request d th' = none) : request d' th' = none := by
  cases h with
  | nothing => exact hnone
  | udp k udp hk h =>
    cases th' with
    | udpSend =>
      match k, h with
      | 0, h => simp [request, ← Option.some_inj.mp h]
      | 1, h => simpa [request, ← Option.some_inj.mp h] using hnone
      | 2, h => simpa [request, ← Option.some_inj.mp h] using hnone
    | _ => exact hnone
  | tcp k tcp hk h =>
    cases th' with
    | tcpSend =>
      match k, h with
      | 0, h => simp [request, ← Option.some_inj.mp h]
      | 1, h => simp [request, ← Option.some_inj.mp h]
      | 2, h => simpa [request, ← Option.some_inj.mp h] using hnone
      | 3, h => simpa [request, ← Option.some_inj.mp h] using hnone
      | 4, h => simpa [request, ← Option.some_inj.mp h] using hnone
    | _ => exact hnone
  | process k process hk h =>
    cases th' with
    | processImage =>
      match k, h with
      | 0, h => simpa [request, ← Option.some_inj.mp h] using hnone
      | 1, h => simp [request, ← Option.some_inj.mp h]
    | _ => exact hnone
  | storage k storage hk h =>
    cases th' with
    | storageVideo =>
      match k, h with
      | 0, h => simpa [request, ← Option.some_inj.mp h] using hnone
      | 1, h => simpa [request, ← Option.some_inj.mp h] using hnone
      | 2, h => simpa [request, ← Option.some_inj.mp h] using hnone
      | 3, h => simpa [request, ← Option.some_inj.mp h] using hnone
      | 4, h => simpa [request, ← Option.some_inj.mp h] using hnone
      | 5, h => simpa [request, ← Option.some_inj.mp h] using hnone
      | 6, h => simp_all [request, ← Option.some_inj.mp h]
      | 7, h => simp_all [request, ← Option.some_inj.mp h]
    | _ => exact hnone
  | logger k logger hk h =>
    cases th' with
    | loggerProcess =>
      match k, h with
      | 0, h => simp_all [request, ← Option.some_inj.mp h]
      | 1, h => simp_all [request, ← Option.some_inj.mp h]
      | 2, h => simpa [request, ← Option.some_inj.mp h] using hnone
      | 3, h => simpa [request, ← Option.some_inj.mp h] using hnone
      | 4, h => simp_all [request, ← Option.some_inj.mp h]
    | _ => exact hnone
  | command k command hk h =>
    cases th' with
    | commandProcess =>
      match k, h with
      | 0, h => simp [request, ← Option.some_inj.mp h]
    | _ => exact hnone
  | post => cases th' <;> exact hnone
  | mutex th n hn => cases th' <;> exact hnone
  | cond th n hn => cases th' <;> exact hnone

/-- From `pthread_mutex_init` on they leave it as it is. -/
theorem request_initStep_of_le {d d' : ModuleData} {th : MainThread} {k n : ℕ}
    (h : InitStep d th k d') (hn : mutexAt th = some n) (hle : n ≤ k) :
    request d' th = request d th := by
  cases h with
  | nothing => rfl
  | udp k udp hk => exact absurd hk (Nat.not_lt.mpr ((Option.some_inj.mp hn).le.trans hle))
  | tcp k tcp hk => exact absurd hk (Nat.not_lt.mpr ((Option.some_inj.mp hn).le.trans hle))
  | process k process hk => exact absurd hk (Nat.not_lt.mpr ((Option.some_inj.mp hn).le.trans hle))
  | storage k storage hk => exact absurd hk (Nat.not_lt.mpr ((Option.some_inj.mp hn).le.trans hle))
  | logger k logger hk => exact absurd hk (Nat.not_lt.mpr ((Option.some_inj.mp hn).le.trans hle))
  | command k command hk => exact absurd hk (Nat.not_lt.mpr ((Option.some_inj.mp hn).le.trans hle))
  | post => rfl
  | mutex th n => cases th <;> rfl
  | cond th n => cases th <;> rfl

theorem request_of_mutexAt_none {th : MainThread} (h : mutexAt th = none) (d : ModuleData) :
    request d th = none := by
  cases th <;> first | rfl | cases h

/-- Only a module behind its `pthread_mutex_init` changes what it holds. -/
theorem Idle.of_request {s t : StartState} {th : MainThread} {n : ℕ} (h : Idle s)
    (hprogress : t.progress = s.progress) (hn : mutexAt th = some n) (hlt : n < s.progress th)
    (hother : ∀ th', th' ≠ th → request t.data th' = request s.data th') : Idle t := by
  intro th' m hm hle
  rw [hprogress] at hle
  by_cases hth : th' = th
  · subst hth
    obtain rfl := Option.some_inj.mp (hn.symm.trans hm)
    exact absurd hlt (Nat.not_lt.mpr hle)
  · rw [hother th' hth]
    exact h th' m hm hle

theorem Idle.wrote {s : StartState} {th : MainThread} {d : ModuleData} (h : Idle s)
    (hwrite : initWrite s.data th (s.progress th) = some d) : Idle (s.wrote th d) := by
  intro th' n hn hle
  refine request_initStep (initWrite_cases hwrite) (h th' n hn ?_)
  rw [progress_wrote] at hle
  by_cases hth : th' = th
  · subst hth
    rw [Function.update_self] at hle
    exact Nat.le_of_succ_le hle
  · rwa [Function.update_of_ne hth] at hle

theorem Idle.worked {s : StartState} {th : MainThread} {d : ModuleData} (h : Idle s)
    (hready : s.progress th = initLength th) (hwork : workData s.data th = some d) :
    Idle (s.worked th d) := by
  have hlt : ∀ n, mutexAt th = some n → n < s.progress th :=
    fun n hn => hready ▸ mutexAt_lt_initLength hn
  cases workData_cases hwork with
  | udpSend =>
    exact h.of_request rfl rfl (hlt 3 rfl) fun th' => request_udp _ _
  | tcpSend =>
    exact h.of_request rfl rfl (hlt 5 rfl) fun th' => request_tcp _ _
  | processImage =>
    exact h.of_request rfl rfl (hlt 2 rfl) fun th' => request_process _ _
  | storageVideo =>
    exact h.of_request rfl rfl (hlt 8 rfl) fun th' => request_storage _ _
  | loggerProcess input hinput =>
    exact h.of_request rfl rfl (hlt 5 rfl) fun th' => request_logger _ _
  | commandProcess =>
    exact h.of_request rfl rfl (hlt 1 rfl) fun th' => request_command _ _

/-! ### Behind the initialisations they need the handlers do no harm -/

theorem Harmless.wrote {s : StartState} {th : MainThread} {d : ModuleData} (h : Harmless s)
    (hidle : Idle s) (hwrite : initWrite s.data th (s.progress th) = some d) :
    Harmless (s.wrote th d) := by
  refine ⟨h.noNull, h.ready, ?_⟩
  rw [StartState.wrote]
  dsimp only
  rw [if_neg]
  · exact h.kept
  rintro ⟨hsome, hchange⟩
  cases hn : mutexAt th with
  | none => exact hsome (request_of_mutexAt_none hn s.data)
  | some n =>
    -- a request is only there behind `pthread_mutex_init`
    have hle : n ≤ s.progress th := by
      by_contra hlt
      exact hsome (hidle th n hn (Nat.le_of_not_le hlt))
    exact hchange (request_initStep_of_le (initWrite_cases hwrite) hn hle)

/-- A handler behind the initialisations it needs. -/
theorem Harmless.handled {s : StartState} {m : MsgState} {locked : Option MainThread}
    {type : MsgType} {effect : HandlerEffect} (h : Harmless s) (hb : Built s) (hset : StorageSet s)
    (hidle : Idle s) (hfirst : ∀ th ∈ locked, ∀ n ∈ mutexAt th, n < s.progress th)
    (heffect : HandlerStep s.data locked type effect) :
    Harmless ({ s with msgs := m }.handled none effect) ∧
      StorageSet ({ s with msgs := m }.handled none effect) ∧
      Idle ({ s with msgs := m }.handled none effect) := by
  have hready : s.unready ++ Option.toList (α := MainThread) none = [] := by
    rw [Option.toList_none, List.append_nil, h.ready]
  cases heffect with
  | logNull hnull =>
    have hlt : 5 < s.progress .loggerProcess := hfirst _ rfl 5 rfl
    exact absurd hnull (hb.logger.1 (by omega))
  | log count =>
    refine ⟨⟨h.noNull, hready, h.kept⟩, hset, ?_⟩
    exact hidle.of_request rfl rfl (hfirst _ rfl 5 rfl) fun th' => request_logger _ _
  | loggerCommand cmd =>
    refine ⟨⟨h.noNull, hready, h.kept⟩, hset, ?_⟩
    exact hidle.of_request rfl rfl (hfirst _ rfl 5 rfl) fun th' => request_logger _ _
  | storageNull hnull =>
    have hlt : 8 < s.progress .storageVideo := hfirst _ rfl 8 rfl
    rcases hnull with hnull | hnull | hnull
    · exact absurd hnull (hset.write (by omega))
    · exact absurd hnull (hset.writeLens (by omega))
    · exact absurd hnull (hset.writeTs (by omega))
  | storageImage =>
    have hlt : 8 < s.progress .storageVideo := hfirst _ rfl 8 rfl
    refine ⟨⟨h.noNull, hready, h.kept⟩, StorageBuilt.stored hset hlt.le, ?_⟩
    exact hidle.of_request rfl rfl hlt fun th' => request_storage _ _
  | udpNull hnull =>
    have hlt : 3 < s.progress .udpSend := hfirst _ rfl 3 rfl
    exact absurd hnull (hb.udp (by omega))
  | udpImage len =>
    refine ⟨⟨h.noNull, hready, h.kept⟩, hset, ?_⟩
    exact hidle.of_request rfl rfl (hfirst _ rfl 3 rfl) fun th' => request_udp _ _
  | tcpNull type hnull =>
    have hlt : 5 < s.progress .tcpSend := hfirst _ rfl 5 rfl
    exact absurd hnull (hb.tcp (by omega))
  | tcp type len data =>
    refine ⟨⟨h.noNull, hready, h.kept⟩, hset, ?_⟩
    exact hidle.of_request rfl rfl (hfirst _ rfl 5 rfl) fun th' => request_tcp _ _
  | alarmImage len =>
    refine ⟨⟨h.noNull, hready, h.kept⟩, hset, ?_⟩
    exact hidle.of_request rfl rfl (hfirst _ rfl 2 rfl) fun th' => request_process _ _
  | commandCommand cmd =>
    refine ⟨⟨h.noNull, hready, h.kept⟩, hset, ?_⟩
    exact hidle.of_request rfl rfl (hfirst _ rfl 1 rfl) fun th' => request_command _ _
  | other => exact ⟨⟨h.noNull, hready, h.kept⟩, hset, hidle⟩

theorem dst_of_lockedBy_tcpSend {msg : CommonMsg} {len : UInt32}
    (h : lockedBy msg len = some .tcpSend) : msg.dstModule = .tcpSend := by
  unfold lockedBy at h
  split at h
  case h_6 hdst _ => exact hdst
  case h_7 hdst _ => exact hdst
  all_goals cases h

/-- What the steps of a harmless start-up keep. -/
structure StartInv (s : StartState) : Prop where
  harmless : Harmless s
  storage : StorageSet s
  idle : Idle s

/-- The TCP sender needs no condition: nothing reaches it too early. -/
theorem initFirst_all {build : Build} {s : StartState} (hs : (startSystem build).Reachable s)
    {len : UInt32} {cmd : ℤ} {e : Entry} (hfirst : InitFirst s (.handlerReturn len cmd))
    (hc : s.msgs.current = some (.serving, e)) :
    ∀ th ∈ lockedBy e.queued len, ∀ n ∈ mutexAt th, n < s.progress th ∧
      (signals s.data e.queued len = true → n + 1 < s.progress th) := by
  intro th hth n hn
  by_cases htcp : th = .tcpSend
  · subst htcp
    have hdst : e.queued.dstModule = .tcpSend := dst_of_lockedBy_tcpSend hth
    have hready := tcpSend_initialised hs ((live_of_current hc).symm ▸ List.mem_cons_self) hdst
    obtain rfl : 5 = n := Option.some_inj.mp hn
    rw [hready, initLength]
    omega
  · exact hfirst _ hc th hth htcp n hn

theorem StartInv.step {build : Build} {s t : StartState} {a : StartAction}
    (hs : (startSystem build).Reachable s) (h : StartInv s) (hfirst : InitFirst s a)
    (ht : StartStep build s a t) : StartInv t := by
  cases ht with
  | init th d hwrite =>
    exact ⟨h.harmless.wrote h.idle hwrite, h.storage.wrote hwrite, h.idle.wrote hwrite⟩
  | dispatch th msg bytes m hready hmay hm =>
    exact ⟨⟨h.harmless.noNull, h.harmless.ready, h.harmless.kept⟩, h.storage, h.idle⟩
  | msg a m hsend hm =>
    exact ⟨⟨h.harmless.noNull, h.harmless.ready, h.harmless.kept⟩, h.storage, h.idle⟩
  | handlerReturn len cmd e m hc hm =>
    have hall := initFirst_all hs hfirst hc
    rw [(unreadyUse_eq_none (syncBuilt_reachable hs) e.queued len).mpr hall]
    obtain ⟨hharmless, hset, hidle⟩ := h.harmless.handled (m := m) (built_linkPosted hs).1
      h.storage h.idle (fun th hth n hn => (hall th hth n hn).1)
      (startHandler_cases s.data e.queued len cmd)
    exact ⟨hharmless, hset, hidle⟩
  | work th d hready hwork =>
    exact ⟨⟨h.harmless.noNull, h.harmless.ready, h.harmless.kept⟩, h.storage.worked hwork,
      h.idle.worked hready hwork⟩

theorem startInv_init : StartInv .init := by
  refine ⟨⟨rfl, rfl, rfl⟩, ?_, ?_⟩
  · constructor <;> exact fun h => absurd h (Nat.not_succ_le_zero _)
  · intro th n _ _
    cases th <;> rfl

theorem harmless_of_via {build : Build} {s : StartState}
    (hs : (startSystem build).Via InitFirst s) : Harmless s := by
  have hall : (startSystem build).Reachable s ∧ StartInv s := by
    refine hs.invariant (P := fun s => (startSystem build).Reachable s ∧ StartInv s)
      ⟨.init, startInv_init⟩ ?_
    rintro s a t ⟨hreach, h⟩ hfirst ht
    exact ⟨.step hreach trivial ht, h.step hreach hfirst (startStep_cases ht).2⟩
  exact hall.2.harmless

/-! ### In front of them they do -/

theorem unready_handled (s : StartState) (unready : Option MainThread) (effect : HandlerEffect) :
    (s.handled unready effect).unready = s.unready ++ unready.toList := by
  cases effect <;> rfl

/-- A handler called too early locks or signals what is not initialised. -/
theorem not_harmless_of_early {build : Build} {s t : StartState} {a : StartAction}
    (hs : (startSystem build).Reachable s) (hearly : ¬ InitFirst s a)
    (ht : (startSystem build).step s a = some t) : ¬ Harmless t := by
  cases (startStep_cases ht).2 with
  | handlerReturn len cmd e m hc hm =>
    intro h
    have hready := h.ready
    rw [unready_handled, List.append_eq_nil_iff] at hready
    have hnone : unreadyUse s.data e.queued len = none := by
      cases hu : unreadyUse s.data e.queued len with
      | none => rfl
      | some th =>
        rw [hu] at hready
        cases hready.2
    refine hearly fun c hcur th hth _ => ?_
    obtain rfl : (Phase.serving, e) = c := Option.some_inj.mp (hc.symm.trans hcur)
    exact (unreadyUse_eq_none (syncBuilt_reachable hs) e.queued len).mp hnone th hth
  | _ => exact absurd trivial hearly

/-- What was harmless now was harmless before. -/
theorem harmless_before {build : Build} {s t : StartState} {a : StartAction}
    (ht : (startSystem build).step s a = some t) (h : Harmless t) : Harmless s := by
  obtain ⟨hnull, hstep⟩ := startStep_cases ht
  cases hstep with
  | init th d hwrite =>
    refine ⟨hnull, h.ready, ?_⟩
    have hkept := h.kept
    rw [StartState.wrote] at hkept
    dsimp only at hkept
    split_ifs at hkept
    · simp at hkept
    · exact hkept
  | handlerReturn len cmd e m hc hm =>
    have hready := h.ready
    rw [unready_handled, List.append_eq_nil_iff] at hready
    refine ⟨hnull, hready.1, ?_⟩
    have hkept := h.kept
    generalize startHandler s.data e.queued len cmd = effect at hkept
    cases effect <;> exact hkept
  | _ => exact ⟨h.noNull, h.ready, h.kept⟩

/-- **The harmless start-ups** are those in which every handler is called behind the
initialisations it needs. -/
theorem harmless_iff (build : Build) {as : List StartAction} {t : StartState}
    (h : (startSystem build).run .init as = some t) :
    Harmless t ↔ (startSystem build).runVia InitFirst .init as = some t :=
  TransitionSystem.run_eq_runVia (S := startSystem build) (fun s => ¬ Harmless s)
    (fun _ hs => harmless_of_via hs) (fun _ hs => not_not.mpr hs)
    (fun _ _ _ hs hearly ht => not_harmless_of_early hs hearly ht)
    (fun _ _ _ _ hs ht hharm => hs (harmless_before ht hharm)) h

/-- The message of `command_process_thread` that it has started. -/
def startedMsg : CommonMsg :=
  ⟨.command, .logger, UInt32.ofNat sizeofLogMsg, .log, .normal, .address 1⟩

/-- The command thread starts and logs it, and the log message is delivered. -/
def commandStarts : List StartAction :=
  [.init .msgDeliver, .init .commandProcess, .init .commandProcess, .init .commandProcess,
    .dispatch .commandProcess startedMsg [], .msg .receive, .msg .handle, .handlerReturn 88 0]

/-- The logger is initialised before the message is delivered, but for its condition variable. -/
theorem harmless_iff_loggerFirst : ∃ t, (startSystem .default).run .init
      (List.replicate 6 (.init .loggerProcess) ++ commandStarts) = some t ∧
    t.data.logger.count .a = 1 ∧ t.progress .loggerProcess + 1 = initLength .loggerProcess ∧
    Harmless t := by
  have hrun : (startSystem .default).run .init
    (List.replicate 6 (.init .loggerProcess) ++ commandStarts) = some _ := rfl
  exact ⟨_, hrun, rfl, rfl, (harmless_iff .default hrun).mpr rfl⟩

/-- The first picture reaches the alarm module in front of `Process_Data_Init`. -/
def pictureFirst : List StartAction :=
  [.init .msgDeliver, .init .cameraCapture,
    .dispatch .cameraCapture ⟨.v4l2, .alarm, sizeofImageData, .image, .low, .address 2⟩ [],
    .msg .receive, .msg .handle, .handlerReturn 1000 0, .init .processImage, .init .processImage]

/-- With the logger not initialised the message is stored at a null pointer; and a picture
accepted too early is erased: its length, and that it is there. -/
theorem harmless_commandStarts :
    (∃ t, (startSystem .default).run .init commandStarts = some t ∧
      t.nullUses = [.loggerProcess] ∧ ¬ Harmless t) ∧
    ∃ t, (startSystem .default).run .init pictureFirst = some t ∧
      t.erased = [.processImage, .processImage] ∧ t.data.process.isUpdated = false ∧
      ¬ Harmless t := by
  refine ⟨⟨_, rfl, rfl, ?_⟩, ⟨_, rfl, rfl, rfl, ?_⟩⟩
  · intro h
    exact absurd h.noNull (List.cons_ne_nil _ _)
  · intro h
    exact absurd h.kept (List.cons_ne_nil _ _)

end Sentry
