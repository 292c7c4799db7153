/-
The double buffer of the logger (`src/log/log.c`, `src/log/sqlite_about.c`).

`logger_msg_handler` appends every log message to the input buffer.
`logger_process_thread` swaps the two buffers and writes the one it took to the
database, without the lock; at its end it saves the input buffer with the lock held.
The calls of the handler interleave with the thread at the lock and at its calls
of SQLite, any of which may fail or take its time.  A store behind the array hits `count`
and what lies behind it; it is a fault, and nothing is said about what follows.

* `dbSaveBatch`, `logThread`, `loggerLogHandler` — the functions;
* `logSystem` — the thread and the handler, from `log_init` on;
* `LogStep` — everything one step can do;
* `storesInBounds_iff` — the stores stay inside the arrays in the runs in which fewer
  than 50 messages arrive between two swaps;
* `inserted_eq` — every message is inserted once, in order of arrival.
-/
import SentrySystem.Common
import SentrySystem.Lib.Transition

namespace Sentry

/-! ### The database -/

/-- `LOG_LEVEL`. -/
inductive LogLevel
  | debug
  | info
  | warn
  | logError
  deriving DecidableEq, Repr

/-- The value of a log level. -/
def LogLevel.code : LogLevel → ℕ
  | debug => 0
  | info => 1
  | warn => 2
  | logError => 3

/-- The value of a module id. -/
def ModuleId.code : ModuleId → ℕ
  | v4l2 => 0
  | udp => 1
  | alarm => 2
  | logger => 3
  | storage => 4
  | tcpSend => 5
  | tcpRecv => 6
  | command => 7
  | max => 8

/-- `Log_Msg_t`; `content` is the text in front of the NUL. -/
structure LogMsg where
  level : LogLevel
  timestamp : UInt64
  moduleId : ModuleId
  content : List UInt8
  deriving DecidableEq, Repr

/-- A row of the table `logs`, without its id. -/
structure LogRow where
  level : ℕ
  timestamp : ℤ
  moduleId : ℕ
  content : List UInt8
  deriving DecidableEq, Repr

/-- The values `db_save_batch` binds for a message. -/
def LogMsg.row (msg : LogMsg) : LogRow :=
  ⟨msg.level.code, msg.timestamp.toBitVec.toInt, msg.moduleId.code, msg.content⟩

/-- The table `logs`: its rows with their ids, in order, and the next id. -/
structure LogDb where
  rows : List (ℕ × LogRow)
  nextId : ℕ
  deriving DecidableEq, Repr

/-- The `INSERT` of `db_save_batch`. -/
def LogDb.insert (db : LogDb) (row : LogRow) : LogDb :=
  ⟨db.rows ++ [(db.nextId, row)], db.nextId + 1⟩

/-- `get_db_count`, where it succeeds. -/
def getDbCount (db : LogDb) : UInt16 := UInt16.ofNat db.rows.length

/-- `delete_db_msg`, where it succeeds. -/
def deleteDbMsg (db : LogDb) (deleteNum : ℕ) : LogDb :=
  { db with
    rows := db.rows.filter fun r => ¬ (r.2.level < 3 ∧ r.1 ∈ (db.rows.take deleteNum).map Prod.fst) }

/-! ### The code -/

/-- `MAX_LOG_COUNT`. -/
def maxLogCount : ℕ := 50

/-- `MAX_DB_SIZE`. -/
def maxDbSize : UInt16 := 16384

/-- `DELETE_LOG_NUM`. -/
def deleteLogNum : ℕ := 512

/-- `CMD_LOG_UPLOAD_DB`. -/
def cmdLogUploadDb : ℤ := 0x0301

/-- `Log_Buffer_t`: the first `count` of its items. -/
structure LogBuffer where
  items : List LogMsg
  deriving DecidableEq, Repr

/-- `count`. -/
def LogBuffer.count (b : LogBuffer) : ℕ := b.items.length

/-- Where `db_save_batch` is: at its start, in front of the `i`-th `INSERT`, in front of
`COMMIT`. -/
inductive SavePc
  | start
  | insert (i : ℕ)
  | commit
  deriving DecidableEq, Repr

/-- The buffer handed to `db_save_batch`: the one at `process_ptr` in the loop, the one at
`input_ptr` at the end of the thread. -/
inductive Target
  | process
  | input
  deriving DecidableEq, Repr

/-- Where `logger_process_thread` is: in front of the test of `running`; in front of the
test of `count`; in `pthread_cond_timedwait`; in front of `get_db_count`, of
`delete_db_msg`, of the swap; in `db_save_batch`; in front of the lock behind it; in
`upload_db_to_server`; in front of the last lock; behind the last unlock; behind
`log_deinit`. -/
inductive LogPc
  | top
  | test
  | waiting
  | query
  | purge
  | swap
  | save (b : Target) (p : SavePc)
  | relock
  | upload
  | final
  | closing
  | done
  deriving DecidableEq, Repr

/-- The thread holds `log_data_buf.lock`. -/
def LogPc.locked : LogPc → Bool
  | test => true
  | query => true
  | purge => true
  | swap => true
  | save .input _ => true
  | _ => false

/-- The state: the buffers at `input_ptr` and `process_ptr`, `cmd_msg.cmd`, `running`, the
thread and the database; and the history: the indices stored to, the messages
handled, the rows inserted; the number of messages handled since the last swap, of
those that were in the input buffer at this swap, and of those handed over by it
and not committed; and the messages handled by the time of the last lock. -/
structure LogState where
  input : LogBuffer
  process : LogBuffer
  cmd : ℤ
  running : Bool
  pc : LogPc
  dbSqlCount : UInt16
  db : LogDb
  stores : List ℕ
  handled : List LogMsg
  inserted : List LogRow
  sinceSwap : ℕ
  carried : ℕ
  batch : ℕ
  atFinalLock : Option (List LogMsg)

/-- The state after `log_init`, with the database as `DB_Init` finds it. -/
def LogState.init (db : LogDb) : LogState where
  input := ⟨[]⟩
  process := ⟨[]⟩
  cmd := 0
  running := true
  pc := .top
  dbSqlCount := 0
  db := db
  stores := []
  handled := []
  inserted := []
  sinceSwap := 0
  carried := 0
  batch := 0
  atFinalLock := none

/-- The branch `MSG_TYPE_LOG` of `logger_msg_handler`, which stores at `count` without a
look at it. -/
def loggerLogHandler (s : LogState) (msg : LogMsg) : LogState :=
  if s.input.count < maxLogCount then
    { s with
      input := ⟨s.input.items ++ [msg]⟩
      stores := s.stores ++ [s.input.count]
      handled := s.handled ++ [msg]
      sinceSwap := s.sinceSwap + 1 }
  -- behind the array
  else { s with stores := s.stores ++ [s.input.count] }

/-- A store went behind the array. -/
def LogState.faulted (s : LogState) : Bool := s.stores.any fun i => decide (maxLogCount ≤ i)

/-- The buffer handed to `db_save_batch`. -/
def LogState.buffer (s : LogState) : Target → LogBuffer
  | .process => s.process
  | .input => s.input

/-- `buffer->count = 0`. -/
def LogState.clear (s : LogState) : Target → LogState
  | .process => { s with process := ⟨[]⟩, batch := 0 }
  | .input => { s with input := ⟨[]⟩, sinceSwap := 0, carried := 0 }

/-- Where `db_save_batch` returns to. -/
def Target.returnTo : Target → LogPc
  | process => .relock
  | input => .closing

/-- The `INSERT` of a message. -/
def LogState.insert (s : LogState) (msg : LogMsg) : LogState :=
  { s with db := s.db.insert msg.row, inserted := s.inserted ++ [msg.row] }

/-- A step of `db_save_batch`, `ok` telling whether the call of SQLite in it succeeds. -/
def dbSaveBatch (s : LogState) (b : Target) (ok : Bool) : SavePc → LogState
  | .start =>
    if (s.buffer b).count ≤ 0 then { s with pc := b.returnTo }
    else if ok then { s with pc := .save b (.insert 0) }
    -- the prepare failed: the count stays as it is
    else { s with pc := b.returnTo }
  | .insert i =>
    match (s.buffer b).items[i]? with
    | some msg => { (if ok then s.insert msg else s) with pc := .save b (.insert (i + 1)) }
    | none => { s with pc := .save b .commit }
  -- a failed commit is reported only
  | .commit => { s.clear b with pc := b.returnTo }

/-- A step of `logger_process_thread`, `ok` telling whether the call of SQLite in it
succeeds. -/
def logThread (s : LogState) (ok : Bool) : Option LogState :=
  match s.pc with
  | .top => some { s with pc := if s.running then .test else .final }
  | .test =>
    some { s with pc := if s.input.count < 30 ∧ s.running = true then .waiting else .query }
  -- the timeout, a signal or nothing at all wakes the thread
  | .waiting => some { s with pc := if 0 < s.input.count ∨ s.cmd ≠ 0 then .query else .test }
  | .query =>
    if ok then
      some { s with
        dbSqlCount := getDbCount s.db
        pc := if maxDbSize ≤ getDbCount s.db then .purge else .swap }
    else some { s with pc := .swap }
  | .purge =>
    some { s with db := if ok then deleteDbMsg s.db deleteLogNum else s.db, pc := .swap }
  | .swap =>
    some { s with
      input := s.process
      process := s.input
      sinceSwap := 0
      carried := s.batch
      batch := s.sinceSwap + s.carried
      pc := .save .process .start }
  | .save b p => some (dbSaveBatch s b ok p)
  | .relock =>
    if s.cmd = cmdLogUploadDb then some { s with cmd := 0, pc := .upload }
    else some { s with pc := .top }
  | .upload => some { s with pc := .top }
  | .final => some { s with atFinalLock := some s.handled, pc := .save .input .start }
  | .closing => some { s with pc := .done }
  | .done => none

/-- What can happen: a log message or a command is handled, `running` is cleared, the
thread makes a step. -/
inductive LogAction
  | log (msg : LogMsg)
  | command (cmd : ℤ)
  | stop
  | thread (ok : Bool)
  deriving DecidableEq, Repr

/-- One step; the handler waits for the lock, and is not called once it is unregistered.
There is none behind a fault. -/
def logStep (s : LogState) (a : LogAction) : Option LogState :=
  if s.faulted then none
  else
    match a with
    | .log msg => if s.pc.locked ∨ s.pc = .done then none else some (loggerLogHandler s msg)
    | .command cmd => if s.pc.locked ∨ s.pc = .done then none else some { s with cmd := cmd }
    | .stop => some { s with running := false }
    | .thread ok => logThread s ok

/-- The logger. -/
def logSystem (db : LogDb) : TransitionSystem LogState LogAction := ⟨.init db, logStep⟩

/-! ### What a step can do -/

/-- Everything a step can do to a state. -/
inductive LogStep (s : LogState) : LogAction → LogState → Prop
  | log (msg : LogMsg) (hpc : s.pc.locked = false) (hroom : s.input.count < maxLogCount) :
      LogStep s (.log msg)
        { s with
          input := ⟨s.input.items ++ [msg]⟩
          stores := s.stores ++ [s.input.count]
          handled := s.handled ++ [msg]
          sinceSwap := s.sinceSwap + 1 }
  | overflow (msg : LogMsg) (hfull : ¬ s.input.count < maxLogCount) :
      LogStep s (.log msg) { s with stores := s.stores ++ [s.input.count] }
  | command (cmd : ℤ) : LogStep s (.command cmd) { s with cmd := cmd }
  | stop : LogStep s .stop { s with running := false }
  -- the steps of the loop around the swap
  | move (ok : Bool) (pc : LogPc) (cmd : ℤ) (dbSqlCount : UInt16) (db : LogDb)
      (hfrom : s.pc ≠ .done ∧ s.pc ≠ .final ∧ s.pc ≠ .closing ∧ ∀ b p, s.pc ≠ .save b p)
      (hto : pc ≠ .done ∧ pc ≠ .closing ∧ ∀ b p, pc ≠ .save b p) :
      LogStep s (.thread ok)
        { s with pc := pc, cmd := cmd, dbSqlCount := dbSqlCount, db := db }
  | swap (ok : Bool) (hpc : s.pc = .swap) : LogStep s (.thread ok)
      { s with
        input := s.process
        process := s.input
        sinceSwap := 0
        carried := s.batch
        batch := s.sinceSwap + s.carried
        pc := .save .process .start }
  | empty (ok : Bool) (b : Target) (hpc : s.pc = .save b .start)
      (hempty : (s.buffer b).items = []) :
      LogStep s (.thread ok) { s with pc := b.returnTo }
  | prepared (b : Target) (hpc : s.pc = .save b .start) :
      LogStep s (.thread true) { s with pc := .save b (.insert 0) }
  | prepareFailed (b : Target) (hpc : s.pc = .save b .start) :
      LogStep s (.thread false) { s with pc := b.returnTo }
  | insert (b : Target) (i : ℕ) (msg : LogMsg) (hpc : s.pc = .save b (.insert i))
      (hmsg : (s.buffer b).items[i]? = some msg) :
      LogStep s (.thread true) { s.insert msg with pc := .save b (.insert (i + 1)) }
  | insertFailed (b : Target) (i : ℕ) (hpc : s.pc = .save b (.insert i)) :
      LogStep s (.thread false) { s with pc := .save b (.insert (i + 1)) }
  | inserted (ok : Bool) (b : Target) (i : ℕ) (hpc : s.pc = .save b (.insert i))
      (hend : (s.buffer b).items[i]? = none) :
      LogStep s (.thread ok) { s with pc := .save b .commit }
  | commit (ok : Bool) (b : Target) (hpc : s.pc = .save b .commit) :
      LogStep s (.thread ok) { s.clear b with pc := b.returnTo }
  | final (ok : Bool) (hpc : s.pc = .final) : LogStep s (.thread ok)
      { s with atFinalLock := some s.handled, pc := .save .input .start }
  | close (ok : Bool) (hpc : s.pc = .closing) : LogStep s (.thread ok) { s with pc := .done }

theorem dbSaveBatch_cases {s : LogState} {b : Target} {p : SavePc} (ok : Bool)
    (hpc : s.pc = .save b p) : LogStep s (.thread ok) (dbSaveBatch s b ok p) := by
  cases p with
  | start =>
    rw [dbSaveBatch]
    split_ifs with hcount hok
    · exact .empty ok b hpc (List.eq_nil_of_length_eq_zero (Nat.le_zero.mp hcount))
    · exact hok ▸ .prepared b hpc
    · exact (Bool.eq_false_iff.mpr hok) ▸ .prepareFailed b hpc
  | insert i =>
    rw [dbSaveBatch]
    split
    · next msg hmsg =>
      cases ok with
      | true => exact .insert b i msg hpc hmsg
      | false => exact .insertFailed b i hpc
    · next hend => exact .inserted ok b i hpc hend
  | commit => exact .commit ok b hpc

theorem logThread_cases {s t : LogState} {ok : Bool} (h : logThread s ok = some t) :
    LogStep s (.thread ok) t := by
  have hmove : ∀ pc cmd dbSqlCount db,
      (s.pc ≠ .done ∧ s.pc ≠ .final ∧ s.pc ≠ .closing ∧ ∀ b p, s.pc ≠ .save b p) →
      (pc ≠ .done ∧ pc ≠ .closing ∧ ∀ b p, pc ≠ .save b p) →
      some { s with pc := pc, cmd := cmd, dbSqlCount := dbSqlCount, db := db } = some t →
      LogStep s (.thread ok) t := by
    intro pc cmd dbSqlCount db hfrom hto ht
    rw [Option.some_inj] at ht
    exact ht ▸ .move ok pc cmd dbSqlCount db hfrom hto
  rw [logThread] at h
  split at h
  · next hpc =>
    refine hmove _ _ _ _ (by simp [hpc]) ?_ h
    split_ifs <;> simp
  · next hpc =>
    refine hmove _ _ _ _ (by simp [hpc]) ?_ h
    split_ifs <;> simp
  · next hpc =>
    refine hmove _ _ _ _ (by simp [hpc]) ?_ h
    split_ifs <;> simp
  · next hpc =>
    split_ifs at h
    · exact hmove .purge _ _ _ (by simp [hpc]) (by simp) h
    · exact hmove .swap _ _ _ (by simp [hpc]) (by simp) h
    · exact hmove .swap _ _ _ (by simp [hpc]) (by simp) h
  · next hpc => exact hmove _ _ _ _ (by simp [hpc]) (by simp) h
  · next hpc =>
    rw [Option.some_inj] at h
    exact h ▸ .swap ok hpc
  · next b p hpc =>
    rw [Option.some_inj] at h
    exact h ▸ dbSaveBatch_cases ok hpc
  · next hpc =>
    split_ifs at h
    · exact hmove _ _ _ _ (by simp [hpc]) (by simp) h
    · exact hmove _ _ _ _ (by simp [hpc]) (by simp) h
  · next hpc => exact hmove _ _ _ _ (by simp [hpc]) (by simp) h
  · next hpc =>
    rw [Option.some_inj] at h
    exact h ▸ .final ok hpc
  · next hpc =>
    rw [Option.some_inj] at h
    exact h ▸ .close ok hpc
  · simp at h

/-- A step is made before any fault. -/
theorem faulted_of_logStep {s t : LogState} {a : LogAction} (h : logStep s a = some t) :
    s.faulted = false := by
  rw [← Bool.not_eq_true]
  intro hfault
  rw [logStep.eq_def, if_pos hfault] at h
  cases h

theorem logThread_of_logStep {s t : LogState} {ok : Bool} (h : logStep s (.thread ok) = some t) :
    logThread s ok = some t := by
  have hok := faulted_of_logStep h
  rwa [logStep.eq_def, if_neg (by simp [hok])] at h

theorem logStep_cases {s t : LogState} {a : LogAction} (h : logStep s a = some t) :
    LogStep s a t := by
  have hok := faulted_of_logStep h
  rw [logStep.eq_def, if_neg (by simp [hok])] at h
  cases a with
  | log msg =>
    simp only at h
    split_ifs at h with hpc
    rw [not_or, Bool.not_eq_true] at hpc
    rw [Option.some_inj, loggerLogHandler] at h
    split_ifs at h with hroom
    · exact h ▸ .log msg hpc.1 hroom
    · exact h ▸ .overflow msg hroom
  | command cmd =>
    simp only at h
    split_ifs at h
    rw [Option.some_inj] at h
    exact h ▸ .command cmd
  | stop =>
    simp only [Option.some_inj] at h
    exact h ▸ .stop
  | thread ok => exact logThread_cases h

/-! ### The stores stay inside the arrays -/

/-- A log message is handled. -/
def LogAction.isLog : LogAction → Bool
  | log _ => true
  | _ => false

/-- Fewer than `MAX_LOG_COUNT` messages arrive in an input buffer: those handled since the
last swap, and those an earlier batch left in the buffer because its prepare failed. -/
def KeepsUp (s : LogState) (a : LogAction) : Prop :=
  a.isLog = true → s.sinceSwap + s.carried < maxLogCount

instance (s : LogState) (a : LogAction) : Decidable (KeepsUp s a) :=
  inferInstanceAs (Decidable (a.isLog = true → s.sinceSwap + s.carried < maxLogCount))

/-- Every store went into the array, and so both counts are in range. -/
structure StoresInBounds (s : LogState) : Prop where
  stores_lt : ∀ i ∈ s.stores, i < maxLogCount
  input_le : s.input.count ≤ maxLogCount
  process_le : s.process.count ≤ maxLogCount

/-- The history counts the messages in the buffers. -/
structure Counted (s : LogState) : Prop where
  input_eq : s.input.count = s.sinceSwap + s.carried
  process_eq : s.process.count = s.batch

theorem Counted.step {s t : LogState} {a : LogAction} (h : Counted s) (ht : LogStep s a t) :
    Counted t := by
  obtain ⟨hinput, hprocess⟩ := h
  cases ht with
  | log msg =>
    refine ⟨?_, hprocess⟩
    show (s.input.items ++ [msg]).length = s.sinceSwap + 1 + s.carried
    rw [LogBuffer.count] at hinput
    rw [List.length_append, hinput, List.length_singleton]
    omega
  | swap => exact ⟨hprocess.trans (Nat.zero_add _).symm, hinput⟩
  | commit ok b =>
    cases b with
    | process => exact ⟨hinput, rfl⟩
    | input => exact ⟨rfl, hprocess⟩
  | _ => exact ⟨hinput, hprocess⟩

theorem counted {db : LogDb} {s : LogState} (hs : (logSystem db).Reachable s) : Counted s :=
  hs.invariant ⟨rfl, rfl⟩ fun _ _ _ h _ ht => h.step (logStep_cases ht)

theorem StoresInBounds.step {s t : LogState} {a : LogAction} (h : StoresInBounds s)
    (hcount : Counted s) (hgood : KeepsUp s a) (ht : LogStep s a t) : StoresInBounds t := by
  obtain ⟨hstores, hinput, hprocess⟩ := h
  cases ht with
  | log msg hpc hroom =>
    refine ⟨?_, ?_, hprocess⟩
    · intro i hi
      rw [List.mem_append, List.mem_singleton] at hi
      rcases hi with hi | rfl
      · exact hstores i hi
      · exact hroom
    · show (s.input.items ++ [msg]).length ≤ maxLogCount
      rw [List.length_append]
      exact hroom
  | overflow msg hfull =>
    rw [hcount.input_eq] at hfull
    exact absurd (hgood rfl) hfull
  | swap => exact ⟨hstores, hprocess, hinput⟩
  | commit ok b =>
    cases b with
    | process => exact ⟨hstores, hinput, Nat.zero_le _⟩
    | input => exact ⟨hstores, Nat.zero_le _, hprocess⟩
  | _ => exact ⟨hstores, hinput, hprocess⟩

theorem storesInBounds {db : LogDb} {s : LogState} (hs : (logSystem db).Via KeepsUp s) :
    StoresInBounds s := by
  have hboth : Counted s ∧ StoresInBounds s := by
    refine hs.invariant (P := fun s => Counted s ∧ StoresInBounds s)
      ⟨⟨rfl, rfl⟩, fun i hi => absurd hi List.not_mem_nil, Nat.zero_le _, Nat.zero_le _⟩ ?_
    intro s a t h hgood ht
    exact ⟨h.1.step (logStep_cases ht), h.2.step h.1 hgood (logStep_cases ht)⟩
  exact hboth.2

/-- Nothing takes a store back. -/
theorem stores_subset {s t : LogState} {a : LogAction} (ht : LogStep s a t) :
    s.stores ⊆ t.stores := by
  cases ht with
  | log msg => exact List.subset_append_left _ _
  | overflow msg => exact List.subset_append_left _ _
  | commit ok b => cases b <;> exact List.Subset.refl _
  | _ => exact List.Subset.refl _

/-- **The stores stay inside the arrays** exactly in the runs in which fewer than 50
messages arrive in a buffer. -/
theorem storesInBounds_iff {db : LogDb} {as : List LogAction} {s : LogState}
    (h : (logSystem db).run (.init db) as = some s) :
    StoresInBounds s ↔ (logSystem db).runVia KeepsUp (.init db) as = some s := by
  refine TransitionSystem.run_eq_runVia (fun s => ∃ i ∈ s.stores, ¬ i < maxLogCount)
    (fun _ hs => storesInBounds hs) ?_ ?_ ?_ h
  · rintro s hs ⟨i, hi, hge⟩
    exact hge (hs.stores_lt i hi)
  · intro s a t hs hbad ht
    rw [KeepsUp, Classical.not_imp] at hbad
    obtain ⟨hlog, hmany⟩ := hbad
    cases logStep_cases ht with
    | log msg =>
      refine ⟨s.input.count, List.mem_append_right _ (List.mem_singleton_self _), ?_⟩
      rw [(counted hs).input_eq]
      exact hmany
    | overflow msg hfull =>
      exact ⟨s.input.count, List.mem_append_right _ (List.mem_singleton_self _), hfull⟩
    | _ => exact absurd hlog Bool.false_ne_true
  · rintro s a t - ⟨i, hi, hge⟩ ht
    exact ⟨i, stores_subset (logStep_cases ht) hi, hge⟩

/-- A message. -/
def motion : LogMsg := ⟨.info, 7, .alarm, [109, 111, 118, 101]⟩

/-- The thread has taken 30 messages and prepared their batch. -/
def busySaving : List LogAction :=
  [.thread true, .thread true] ++ List.replicate 30 (.log motion) ++
    [.thread true, .thread true, .thread true, .thread true]

theorem storesInBounds_iff_busySaving : ∃ s,
    (logSystem ⟨[], 1⟩).run (.init ⟨[], 1⟩) (busySaving ++ [.log motion]) = some s ∧
    s.process.count = 30 ∧ s.input.count = 1 ∧
    (StoresInBounds s ↔
      (logSystem ⟨[], 1⟩).runVia KeepsUp (.init ⟨[], 1⟩) (busySaving ++ [.log motion]) = some s) := by
  refine ⟨_, rfl, rfl, rfl, ?_⟩
  exact storesInBounds_iff rfl

/-- While this batch is being written 51 messages arrive, and the last one is stored behind
the array. -/
theorem storesInBounds_burst : ∃ s, (logSystem ⟨[], 1⟩).Reachable s ∧
    s.pc = .save .process (.insert 0) ∧ 50 ∈ s.stores ∧ ¬ StoresInBounds s := by
  have hrun : (logSystem ⟨[], 1⟩).run (LogState.init ⟨[], 1⟩)
      (busySaving ++ List.replicate 51 (.log motion)) = some _ := rfl
  have hlast : 50 ∈ List.range 30 ++ List.range 51 := by decide
  refine ⟨_, .of_run hrun, rfl, hlast, ?_⟩
  intro hbounds
  exact absurd (hbounds.stores_lt 50 hlast) (lt_irrefl _)

/-! ### Every message is inserted once, in order -/

/-- The calls of SQLite succeed, and no message is handled with `MAX_LOG_COUNT` messages in
the input buffer. -/
def Succeeds (s : LogState) : LogAction → Prop
  | .log _ => s.input.count < maxLogCount
  | .thread ok => ok = true
  | _ => True

instance (s : LogState) : DecidablePred (Succeeds s)
  | .log _ => inferInstanceAs (Decidable (s.input.count < maxLogCount))
  | .thread ok => inferInstanceAs (Decidable (ok = true))
  | .command _ => isTrue trivial
  | .stop => isTrue trivial

/-- The messages handled and not yet inserted, in order. -/
def LogState.unsaved (s : LogState) : List LogMsg :=
  match s.pc with
  | .save .process (.insert i) => s.process.items.drop i ++ s.input.items
  | .save .process .commit => s.input.items
  | .save .input (.insert i) => s.input.items.drop i
  | .save .input .commit => []
  | _ => s.process.items ++ s.input.items

/-- The thread has given back the lock for the last time. -/
def LogPc.ended : LogPc → Bool
  | closing => true
  | done => true
  | _ => false

/-- The rows inserted are the first messages handled, and the others are in the buffers. -/
structure SavedInOrder (s : LogState) : Prop where
  process_nil : (∀ p, s.pc ≠ .save .process p) → s.process.items = []
  rows_eq : s.pc.ended = false →
    s.handled.map LogMsg.row = s.inserted ++ s.unsaved.map LogMsg.row
  lock_eq : ∀ p, s.pc = .save .input p → s.atFinalLock = some s.handled
  ended_eq : s.pc.ended = true → s.atFinalLock.map (List.map LogMsg.row) = some s.inserted

/-- Outside `db_save_batch` all that is unsaved is in the input buffer. -/
theorem unsaved_of_not_save {s : LogState} (h : ∀ b p, s.pc ≠ .save b p) :
    s.unsaved = s.process.items ++ s.input.items := by
  rw [LogState.unsaved]
  split
  · next hpc => exact absurd hpc (h _ _)
  · next hpc => exact absurd hpc (h _ _)
  · next hpc => exact absurd hpc (h _ _)
  · next hpc => exact absurd hpc (h _ _)
  · rfl

/-- A message handled is the last one unsaved. -/
theorem unsaved_log {s : LogState} (msg : LogMsg) (hpc : s.pc.locked = false) :
    LogState.unsaved { s with input := ⟨s.input.items ++ [msg]⟩ } = s.unsaved ++ [msg] := by
  simp only [LogState.unsaved]
  split <;> simp_all [LogPc.locked]

/-- Inside `db_save_batch`: what is inserted and what is unsaved stay the same rows in all. -/
theorem SavedInOrder.saving {s t : LogState} {b : Target} {p p' : SavePc} (h : SavedInOrder s)
    (hpc : s.pc = .save b p) (htpc : t.pc = .save b p') (hprocess : t.process = s.process)
    (hhandled : t.handled = s.handled) (hlock : t.atFinalLock = s.atFinalLock)
    (hrows : s.inserted ++ s.unsaved.map LogMsg.row = t.inserted ++ t.unsaved.map LogMsg.row) :
    SavedInOrder t := by
  refine ⟨?_, ?_, ?_, ?_⟩
  · intro hp
    cases b with
    | process => exact absurd htpc (hp p')
    | input =>
      rw [hprocess]
      exact h.process_nil (by simp [hpc])
  · intro _
    rw [hhandled, h.rows_eq (by rw [hpc]; rfl), hrows]
  · intro q hq
    cases b with
    | process => simp [htpc] at hq
    | input =>
      rw [hlock, hhandled]
      exact h.lock_eq p hpc
  · intro hended
    rw [htpc] at hended
    exact absurd hended Bool.false_ne_true

/-- Behind `db_save_batch`: nothing of its buffer is unsaved. -/
theorem SavedInOrder.returned {s t : LogState} {b : Target} {p : SavePc} (h : SavedInOrder s)
    (hpc : s.pc = .save b p) (htpc : t.pc = b.returnTo) (hhandled : t.handled = s.handled)
    (hlock : t.atFinalLock = s.atFinalLock) (hinserted : t.inserted = s.inserted)
    (hnil : t.process.items = []) (hprocess : b = .process → s.unsaved = t.input.items)
    (hinput : b = .input → s.unsaved = []) : SavedInOrder t := by
  have hrows := h.rows_eq (by rw [hpc]; rfl)
  refine ⟨fun _ => hnil, ?_, ?_, ?_⟩
  · intro hopen
    cases b with
    | process =>
      rw [unsaved_of_not_save (by simp [htpc, Target.returnTo]), hnil, List.nil_append, hhandled,
        hinserted, ← hprocess rfl]
      exact hrows
    | input =>
      rw [htpc] at hopen
      exact absurd hopen.symm Bool.false_ne_true
  · intro q hq
    cases b <;> simp [htpc, Target.returnTo] at hq
  · intro hended
    cases b with
    | process =>
      rw [htpc] at hended
      exact absurd hended Bool.false_ne_true
    | input =>
      rw [hinput rfl, List.map_nil, List.append_nil] at hrows
      rw [hlock, hinserted, h.lock_eq p hpc, ← hrows]
      rfl

/-- **One step** keeps the rows in order. -/
theorem SavedInOrder.step {s t : LogState} {a : LogAction} (h : SavedInOrder s)
    (hgood : Succeeds s a) (ht : LogStep s a t) : SavedInOrder t := by
  cases ht with
  | overflow msg hfull => exact absurd hgood hfull
  | log msg hpc hroom =>
    refine ⟨h.process_nil, ?_, ?_, h.ended_eq⟩
    · intro hopen
      have hunsaved := unsaved_log msg hpc
      show (s.handled ++ [msg]).map LogMsg.row = s.inserted ++
        (LogState.unsaved { s with input := ⟨s.input.items ++ [msg]⟩ }).map LogMsg.row
      rw [hunsaved]
      show (s.handled ++ [msg]).map LogMsg.row = s.inserted ++ (s.unsaved ++ [msg]).map LogMsg.row
      rw [List.map_append, h.rows_eq hopen, List.map_append, List.append_assoc]
    · intro p hp
      -- the last save holds the lock
      have hp : s.pc = .save .input p := hp
      rw [hp] at hpc
      simp [LogPc.locked] at hpc
  | command => exact ⟨h.process_nil, h.rows_eq, h.lock_eq, h.ended_eq⟩
  | stop => exact ⟨h.process_nil, h.rows_eq, h.lock_eq, h.ended_eq⟩
  | move ok pc cmd dbSqlCount db hfrom hto =>
    have hopen : s.pc.ended = false := by
      rcases hpc : s.pc <;> first | rfl | simp [hpc] at hfrom
    have hrows := h.rows_eq hopen
    rw [unsaved_of_not_save hfrom.2.2.2] at hrows
    refine ⟨fun _ => h.process_nil fun p => hfrom.2.2.2 _ p, ?_, ?_, ?_⟩
    · intro _
      rw [unsaved_of_not_save hto.2.2]
      exact hrows
    · intro p hp
      exact absurd hp (hto.2.2 _ p)
    · intro hended
      rcases pc <;> simp [LogPc.ended] at hended hto
  | swap ok hpc =>
    have hrows := h.rows_eq (by rw [hpc]; rfl)
    have hnil := h.process_nil (by simp [hpc])
    rw [unsaved_of_not_save (by simp [hpc]), hnil, List.nil_append] at hrows
    refine ⟨fun hp => absurd rfl (hp .start), ?_, ?_, ?_⟩
    · intro _
      show s.handled.map LogMsg.row = s.inserted ++ (s.input.items ++ s.process.items).map LogMsg.row
      rw [hnil, List.append_nil, hrows]
    · intro p hp
      simp at hp
    · intro hended
      exact absurd hended Bool.false_ne_true
  | empty ok b hpc hempty =>
    have hunsaved : s.unsaved = s.process.items ++ s.input.items := by
      rw [LogState.unsaved, hpc]
      cases b <;> rfl
    cases b with
    | process =>
      have hempty : s.process.items = [] := hempty
      refine h.returned hpc rfl rfl rfl rfl hempty (fun _ => ?_) fun hb => by cases hb
      rw [hunsaved, hempty, List.nil_append]
    | input =>
      have hempty : s.input.items = [] := hempty
      have hnil := h.process_nil (by simp [hpc])
      refine h.returned hpc rfl rfl rfl rfl hnil (fun hb => by cases hb) fun _ => ?_
      rw [hunsaved, hempty, hnil, List.nil_append]
  | prepared b hpc =>
    refine h.saving hpc rfl rfl rfl rfl ?_
    cases b with
    | process =>
      rw [LogState.unsaved, hpc]
      rfl
    | input =>
      have hnil := h.process_nil (by simp [hpc])
      rw [LogState.unsaved, hpc]
      simp only [hnil, List.nil_append]
      rfl
  | prepareFailed => exact absurd hgood Bool.false_ne_true
  | insert b i msg hpc hmsg =>
    have hdrop : (s.buffer b).items.drop i = msg :: (s.buffer b).items.drop (i + 1) := by
      obtain ⟨hi, rfl⟩ := List.getElem?_eq_some_iff.mp hmsg
      exact List.drop_eq_getElem_cons hi
    -- the message moves from the front of the unsaved ones to the end of the rows
    refine h.saving hpc rfl rfl rfl rfl ?_
    rw [LogState.unsaved, hpc]
    cases b with
    | process =>
      have hdrop : s.process.items.drop i = msg :: s.process.items.drop (i + 1) := hdrop
      show _ = (s.inserted ++ [msg.row]) ++
        (s.process.items.drop (i + 1) ++ s.input.items).map LogMsg.row
      rw [List.append_assoc, List.singleton_append]
      simp only [hdrop, List.cons_append, List.map_cons]
    | input =>
      have hdrop : s.input.items.drop i = msg :: s.input.items.drop (i + 1) := hdrop
      show _ = (s.inserted ++ [msg.row]) ++ (s.input.items.drop (i + 1)).map LogMsg.row
      rw [List.append_assoc, List.singleton_append]
      simp only [hdrop, List.map_cons]
  | insertFailed => exact absurd hgood Bool.false_ne_true
  | inserted ok b i hpc hend =>
    have hdrop : (s.buffer b).items.drop i = [] :=
      List.drop_eq_nil_of_le (List.getElem?_eq_none_iff.mp hend)
    refine h.saving hpc rfl rfl rfl rfl ?_
    rw [LogState.unsaved, hpc]
    cases b with
    | process =>
      have hdrop : s.process.items.drop i = [] := hdrop
      simp only [hdrop, List.nil_append]
      rfl
    | input =>
      have hdrop : s.input.items.drop i = [] := hdrop
      simp only [hdrop]
      rfl
  | commit ok b hpc =>
    have hunsaved : s.unsaved = if b = .process then s.input.items else [] := by
      rw [LogState.unsaved, hpc]
      cases b <;> rfl
    cases b with
    | process => exact h.returned hpc rfl rfl rfl rfl rfl (fun _ => hunsaved) fun hb => by cases hb
    | input =>
      have hnil := h.process_nil (by simp [hpc])
      exact h.returned hpc rfl rfl rfl rfl hnil (fun hb => by cases hb) fun _ => hunsaved
  | final ok hpc =>
    have hrows := h.rows_eq (by rw [hpc]; rfl)
    rw [unsaved_of_not_save (by simp [hpc])] at hrows
    refine ⟨fun _ => h.process_nil (by simp [hpc]), fun _ => hrows, fun _ _ => rfl,
      fun hended => ?_⟩
    exact absurd hended Bool.false_ne_true
  | close ok hpc =>
    refine ⟨fun _ => h.process_nil (by simp [hpc]), fun hopen => ?_, fun p hp => ?_, fun _ => ?_⟩
    · exact absurd hopen.symm Bool.false_ne_true
    · simp at hp
    · exact h.ended_eq (by rw [hpc]; rfl)

/-- **Every message is inserted once, in order of arrival**: when the thread has ended, the
rows inserted are those of the messages handled before its last lock. -/
theorem inserted_eq {db : LogDb} {s : LogState} (hs : (logSystem db).Via Succeeds s)
    (hended : s.pc.ended = true) :
    ∃ handled, s.atFinalLock = some handled ∧ s.inserted = handled.map LogMsg.row := by
  have hsaved : SavedInOrder s := by
    refine hs.invariant ⟨fun _ => rfl, fun _ => rfl, fun p hp => ?_, fun hended => ?_⟩
      fun _ _ _ h hgood ht => h.step hgood (logStep_cases ht)
    · simp [logSystem, LogState.init] at hp
    · exact absurd hended Bool.false_ne_true
  have hrows := hsaved.ended_eq hended
  rw [Option.map_eq_some_iff] at hrows
  obtain ⟨handled, hlock, hrows⟩ := hrows
  exact ⟨handled, hlock, hrows.symm⟩

/-- A message is handled in front of a swap, one while the first is being written, one
behind the clearing of `running`, and one behind the last save. -/
def savedAtShutdown : List LogAction :=
  [.thread true, .thread true, .log motion, .thread true, .thread true, .thread true,
    .log { motion with timestamp := 8 }, .thread true, .thread true, .thread true, .thread true,
    .thread true, .stop, .thread true, .log { motion with timestamp := 9 }, .thread true,
    .thread true, .thread true, .thread true, .thread true, .thread true, .log motion]

theorem inserted_eq_savedAtShutdown : ∃ s,
    (logSystem ⟨[], 1⟩).run (.init ⟨[], 1⟩) savedAtShutdown = some s ∧
    s.inserted.map LogRow.timestamp = [7, 8, 9] ∧ s.handled.length = 4 ∧
    ∃ handled, s.atFinalLock = some handled ∧ s.inserted = handled.map LogMsg.row := by
  refine ⟨_, rfl, rfl, rfl, ?_⟩
  have hrun : (logSystem ⟨[], 1⟩).runVia Succeeds (LogState.init ⟨[], 1⟩) savedAtShutdown =
      some _ := rfl
  exact inserted_eq (.of_run hrun) rfl

end Sentry
