/-
How long the log table gets (`src/log/log.c`, `src/log/sqlite_about.c`).

In front of each batch `logger_process_thread` counts the rows and, from 16384 of them on,
deletes those of the oldest 512 that are no errors.  Errors are never deleted: they pile up
among the oldest rows, and once they fill them the purge deletes nothing.  The count is a
`uint16_t`, which starts again at 65536 rows.

* `logIteration` — a round of the loop, on the table; `thread_logIteration` says that
  `logger_process_thread` makes it;
* `rows_deleteDbMsg` — what the purge leaves;
* `nonErrors_le` — the rows that are no errors stay within the limit while the purge, where
  it is needed, is made and finds as many of them as the batch brings.
-/
import SentrySystem.LogBuffer

namespace Sentry

/-! ### The code -/

/-- What a `Log_Buffer_t` hands to `db_save_batch`. -/
structure LogBatch where
  items : List LogMsg
  length_le : items.length ≤ maxLogCount

/-- What `db_save_batch` leaves, where its calls of SQLite succeed. -/
def LogDb.insertAll (db : LogDb) (items : List LogMsg) : LogDb :=
  items.foldl (fun db msg => db.insert msg.row) db

/-- The count and the purge in front of a batch. -/
def logPurge (db : LogDb) : LogDb :=
  if maxDbSize ≤ getDbCount db then deleteDbMsg db deleteLogNum else db

/-- An iteration of the loop of `logger_process_thread`, on the table. -/
def logIteration (db : LogDb) (items : List LogMsg) : LogDb := (logPurge db).insertAll items

/-- The iterations, from the table `DB_Init` finds. -/
def retentionSystem (db : LogDb) : TransitionSystem LogDb LogBatch :=
  ⟨db, fun db batch => some (logIteration db batch.items)⟩

/-- A row that may be deleted. -/
def LogRow.isPurgeable (row : LogRow) : Bool := decide (row.level < 3)

/-- The number of rows that may be deleted. -/
def LogDb.nonErrors (db : LogDb) : ℕ := db.rows.countP fun r => r.2.isPurgeable

/-- The number of such rows a batch brings. -/
def LogBatch.nonErrors (batch : LogBatch) : ℕ := batch.items.countP fun msg => msg.row.isPurgeable

/-! ### The thread makes the iterations -/

/-- The thread goes on while no store went behind an array. -/
theorem logSystem_thread {s : LogState} (hok : s.faulted = false) (db : LogDb) (ok : Bool) :
    (logSystem db).step s (.thread ok) = logThread s ok :=
  if_neg (by rw [hok]; exact Bool.false_ne_true)

theorem thread_insert (items : List LogMsg) : ∀ {i : ℕ} {s : LogState}, s.faulted = false →
    s.process.items.drop i = items → s.pc = .save .process (.insert i) →
    ∃ n t, (∀ db, (logSystem db).run s (List.replicate n (.thread true)) = some t) ∧
      t.pc = .relock ∧ t.db = s.db.insertAll items := by
  induction items with
  | nil =>
    intro i s hok hitems hpc
    have hend : s.process.items[i]? = none :=
      List.getElem?_eq_none_iff.mpr (List.drop_eq_nil_iff.mp hitems)
    refine ⟨2, { s.clear .process with pc := .relock }, ?_, rfl, rfl⟩
    intro db
    have hcommit : (logSystem db).step s (.thread true) =
        some { s with pc := .save .process .commit } := by
      rw [logSystem_thread hok]
      simp [logThread, dbSaveBatch, hpc, LogState.buffer, hend]
    rw [List.replicate_succ, TransitionSystem.run_cons, hcommit, Option.bind_some,
      List.replicate_one, TransitionSystem.run_cons,
      logSystem_thread (s := { s with pc := .save .process .commit }) hok]
    rfl
  | cons msg items ih =>
    intro i s hok hitems hpc
    have hlt : i < s.process.items.length := by
      by_contra hge
      rw [List.drop_of_length_le (Nat.le_of_not_lt hge)] at hitems
      simp at hitems
    rw [List.drop_eq_getElem_cons hlt, List.cons.injEq] at hitems
    have hmsg : s.process.items[i]? = some msg := by
      rw [List.getElem?_eq_getElem hlt, hitems.1]
    obtain ⟨n, t, hrun, hend, hdb⟩ := ih (i := i + 1)
      (s := { s.insert msg with pc := .save .process (.insert (i + 1)) }) hok hitems.2 rfl
    refine ⟨n + 1, t, ?_, hend, hdb⟩
    intro db
    have hstep : (logSystem db).step s (.thread true) =
        some { s.insert msg with pc := .save .process (.insert (i + 1)) } := by
      rw [logSystem_thread hok]
      simp [logThread, dbSaveBatch, hpc, LogState.buffer, hmsg]
    rw [List.replicate_succ, TransitionSystem.run_cons, hstep, Option.bind_some]
    exact hrun db

/-- From the swap on the batch is written. -/
theorem thread_save {s : LogState} (hok : s.faulted = false) (hpc : s.pc = .swap) :
    ∃ n t, (∀ db, (logSystem db).run s (List.replicate n (.thread true)) = some t) ∧
      t.pc = .relock ∧ t.db = s.db.insertAll s.input.items := by
  set mid : LogState :=
    { s with
      input := s.process
      process := s.input
      sinceSwap := 0
      carried := s.batch
      batch := s.sinceSwap + s.carried
      pc := .save .process .start } with hmid
  have hswap : ∀ db, (logSystem db).step s (.thread true) = some mid := by
    intro db
    rw [logSystem_thread hok]
    simp [logThread, hpc, hmid]
  by_cases hempty : s.input.items = []
  · refine ⟨2, { mid with pc := .relock }, ?_, rfl, ?_⟩
    · intro db
      rw [List.replicate_succ, TransitionSystem.run_cons, hswap, Option.bind_some,
        List.replicate_one, TransitionSystem.run_cons, logSystem_thread (s := mid) hok]
      simp [logThread, dbSaveBatch, hmid, LogState.buffer, LogBuffer.count, hempty,
        Target.returnTo]
    · rw [hempty]
      rfl
  · obtain ⟨n, t, hrun, hend, hdb⟩ := thread_insert s.input.items (i := 0)
      (s := { mid with pc := .save .process (.insert 0) }) hok rfl rfl
    refine ⟨n + 2, t, ?_, hend, hdb⟩
    intro db
    have hprepared : (logSystem db).step mid (.thread true) =
        some { mid with pc := .save .process (.insert 0) } := by
      rw [logSystem_thread (s := mid) hok]
      simp [logThread, dbSaveBatch, hmid, LogState.buffer, LogBuffer.count, hempty]
    rw [List.replicate_succ, TransitionSystem.run_cons, hswap, Option.bind_some,
      List.replicate_succ, TransitionSystem.run_cons, hprepared, Option.bind_some]
    exact hrun db

/-- **The thread makes the iteration**: between its count and its last lock it does to the
table what `logIteration` says, where the calls of SQLite succeed. -/
theorem thread_logIteration {s : LogState} (hok : s.faulted = false) (hpc : s.pc = .query) :
    ∃ n t, (∀ db, (logSystem db).run s (List.replicate n (.thread true)) = some t) ∧
      t.pc = .relock ∧ t.db = logIteration s.db s.input.items := by
  rw [logIteration, logPurge]
  by_cases hfull : maxDbSize ≤ getDbCount s.db
  · obtain ⟨n, t, hrun, hend, hdb⟩ := thread_save
      (s := { s with
        dbSqlCount := getDbCount s.db
        db := deleteDbMsg s.db deleteLogNum
        pc := .swap }) hok rfl
    refine ⟨n + 2, t, ?_, hend, ?_⟩
    · intro db
      have hquery : (logSystem db).step s (.thread true) =
          some { s with dbSqlCount := getDbCount s.db, pc := .purge } := by
        rw [logSystem_thread hok]
        simp [logThread, hpc, hfull]
      rw [List.replicate_succ, TransitionSystem.run_cons, hquery, Option.bind_some,
        List.replicate_succ, TransitionSystem.run_cons,
        logSystem_thread (s := { s with dbSqlCount := getDbCount s.db, pc := .purge }) hok]
      exact hrun db
    · rw [if_pos hfull]
      exact hdb
  · obtain ⟨n, t, hrun, hend, hdb⟩ := thread_save
      (s := { s with dbSqlCount := getDbCount s.db, pc := .swap }) hok rfl
    refine ⟨n + 1, t, ?_, hend, ?_⟩
    · intro db
      have hquery : (logSystem db).step s (.thread true) =
          some { s with dbSqlCount := getDbCount s.db, pc := .swap } := by
        rw [logSystem_thread hok]
        simp [logThread, hpc, hfull]
      rw [List.replicate_succ, TransitionSystem.run_cons, hquery]
      exact hrun db
    · rw [if_neg hfull]
      exact hdb

/-! ### What the purge leaves -/

/-- The ids increase. -/
structure LogDb.Ordered (db : LogDb) : Prop where
  increasing : db.rows.Pairwise fun r r' => r.1 < r'.1
  lt_nextId : ∀ r ∈ db.rows, r.1 < db.nextId

theorem LogDb.Ordered.insert {db : LogDb} (h : db.Ordered) (row : LogRow) :
    (db.insert row).Ordered := by
  constructor
  · show (db.rows ++ [(db.nextId, row)]).Pairwise _
    rw [List.pairwise_append]
    refine ⟨h.increasing, List.pairwise_singleton _ _, ?_⟩
    intro r hr r' hr'
    rw [List.mem_singleton.mp hr']
    exact h.lt_nextId r hr
  · intro r hr
    show r.1 < db.nextId + 1
    rcases List.mem_append.mp hr with hr | hr
    · exact Nat.lt_succ_of_lt (h.lt_nextId r hr)
    · rw [List.mem_singleton.mp hr]
      exact Nat.lt_succ_self _

theorem LogDb.Ordered.insertAll {items : List LogMsg} :
    ∀ {db : LogDb}, db.Ordered → (db.insertAll items).Ordered := by
  induction items with
  | nil =>
    intro db h
    exact h
  | cons msg items ih =>
    intro db h
    exact ih (h.insert msg.row)

theorem LogDb.Ordered.delete {db : LogDb} (h : db.Ordered) (n : ℕ) :
    (deleteDbMsg db n).Ordered :=
  ⟨h.increasing.filter _, fun r hr => h.lt_nextId r (List.mem_of_mem_filter hr)⟩

theorem LogDb.Ordered.iteration {db : LogDb} (h : db.Ordered) (items : List LogMsg) :
    (logIteration db items).Ordered := by
  rw [logIteration, logPurge]
  split_ifs
  · exact (h.delete _).insertAll
  · exact h.insertAll

/-- **The purge** leaves the errors among the oldest rows, and all others. -/
theorem rows_deleteDbMsg {db : LogDb} (h : db.Ordered) (n : ℕ) :
    (deleteDbMsg db n).rows =
      (db.rows.take n).filter (fun r => ! r.2.isPurgeable) ++ db.rows.drop n := by
  have hsplit := h.increasing
  rw [← List.take_append_drop n db.rows, List.pairwise_append] at hsplit
  have hfront : (db.rows.take n).filter (fun r => decide (¬ (r.2.level < 3 ∧
      r.1 ∈ (db.rows.take n).map Prod.fst))) =
      (db.rows.take n).filter fun r => ! r.2.isPurgeable := by
    apply List.filter_congr
    intro r hr
    have hmem : r.1 ∈ (db.rows.take n).map Prod.fst := List.mem_map_of_mem hr
    rw [LogRow.isPurgeable, ← decide_not]
    exact decide_eq_decide.mpr (not_congr (and_iff_left hmem))
  -- the younger rows have other ids
  have hback : (db.rows.drop n).filter (fun r => decide (¬ (r.2.level < 3 ∧
      r.1 ∈ (db.rows.take n).map Prod.fst))) = db.rows.drop n := by
    rw [List.filter_eq_self]
    intro r hr
    rw [decide_eq_true_iff]
    rintro ⟨-, hmem⟩
    obtain ⟨r', hr', heq⟩ := List.mem_map.mp hmem
    have hlt := hsplit.2.2 r' hr' r hr
    omega
  show db.rows.filter _ = _
  conv_lhs => rw [← List.take_append_drop n db.rows]
  rw [List.filter_append]
  rw [List.take_append_drop, hfront, hback]

/-- The purgeable rows among the oldest `n`. -/
def LogDb.oldest (db : LogDb) (n : ℕ) : ℕ := (db.rows.take n).countP fun r => r.2.isPurgeable

theorem nonErrors_deleteDbMsg {db : LogDb} (h : db.Ordered) (n : ℕ) :
    (deleteDbMsg db n).nonErrors + db.oldest n = db.nonErrors := by
  have hnone : ((db.rows.take n).filter fun r => ! r.2.isPurgeable).countP
      (fun r => r.2.isPurgeable) = 0 := by
    rw [List.countP_eq_zero]
    intro r hr
    simpa using (List.mem_filter.mp hr).2
  rw [LogDb.nonErrors, rows_deleteDbMsg h, List.countP_append, hnone, Nat.zero_add, Nat.add_comm,
    LogDb.oldest, ← List.countP_append, List.take_append_drop, LogDb.nonErrors]

theorem nonErrors_insertAll (items : List LogMsg) : ∀ (db : LogDb),
    (db.insertAll items).nonErrors =
      db.nonErrors + items.countP fun msg => msg.row.isPurgeable := by
  induction items with
  | nil =>
    intro db
    rfl
  | cons msg items ih =>
    intro db
    have hrow : (db.insert msg.row).nonErrors =
        db.nonErrors + if msg.row.isPurgeable = true then 1 else 0 := by
      show (db.rows ++ [(db.nextId, msg.row)]).countP _ = _
      rw [List.countP_append, List.countP_singleton]
      rfl
    show ((db.insert msg.row).insertAll items).nonErrors = _
    rw [ih, hrow, List.countP_cons]
    omega

/-! ### The limit -/

/-- Once more than `MAX_DB_SIZE` rows are no errors, the count of the rows still reaches
`MAX_DB_SIZE` in its 16 bits, and the oldest `DELETE_LOG_NUM` rows hold at least as many
rows that are no errors as the batch brings. -/
def PurgeSuffices (db : LogDb) (batch : LogBatch) : Prop :=
  maxDbSize.toNat < db.nonErrors →
    maxDbSize ≤ getDbCount db ∧ batch.nonErrors ≤ db.oldest deleteLogNum

theorem LogBatch.countP_le (batch : LogBatch) : batch.nonErrors ≤ maxLogCount :=
  List.countP_le_length.trans batch.length_le

theorem nonErrors_logIteration {db : LogDb} (h : db.Ordered) {batch : LogBatch}
    (hpurge : PurgeSuffices db batch)
    (hlimit : db.nonErrors ≤ maxDbSize.toNat + maxLogCount) :
    (logIteration db batch.items).nonErrors ≤ maxDbSize.toNat + maxLogCount := by
  have hbatch := batch.countP_le
  have hcount : (logIteration db batch.items).nonErrors =
      (logPurge db).nonErrors + batch.nonErrors := nonErrors_insertAll _ _
  have hdelete := nonErrors_deleteDbMsg h deleteLogNum
  rw [hcount, logPurge]
  by_cases hmany : maxDbSize.toNat < db.nonErrors
  · -- the purge makes room for the batch
    obtain ⟨hfull, hfront⟩ := hpurge hmany
    rw [if_pos hfull]
    omega
  · split_ifs <;> omega

/-- **The rows that are no errors stay within the limit** in every run whose purges
suffice. -/
theorem nonErrors_le (db : LogDb) (hordered : db.Ordered)
    (hlimit : db.nonErrors ≤ maxDbSize.toNat + maxLogCount) {t : LogDb}
    (h : (retentionSystem db).Via PurgeSuffices t) :
    t.nonErrors ≤ maxDbSize.toNat + maxLogCount := by
  have hboth : t.Ordered ∧ t.nonErrors ≤ maxDbSize.toNat + maxLogCount := by
    refine h.invariant (P := fun t => t.Ordered ∧ t.nonErrors ≤ maxDbSize.toNat + maxLogCount)
      ⟨hordered, hlimit⟩ ?_
    intro s batch t hs hgood ht
    simp only [retentionSystem, Option.some_inj] at ht
    rw [← ht]
    exact ⟨hs.1.iteration batch.items, nonErrors_logIteration hs.1 hgood hs.2⟩
  exact hboth.2

/-- A batch of two messages, one of them an error. -/
def mixedBatch : LogBatch :=
  ⟨[⟨.info, 7, .alarm, []⟩, ⟨.logError, 8, .udp, []⟩], by rw [maxLogCount]; simp⟩

/-- A message that is no error. -/
def infoLog : LogMsg := ⟨.info, 8, .alarm, []⟩

/-- A table of `n` such messages. -/
def infoTable (n : ℕ) : LogDb := ⟨(List.range n).map fun i => (i + 1, infoLog.row), n + 1⟩

theorem ordered_infoTable (n : ℕ) : (infoTable n).Ordered := by
  constructor
  · rw [infoTable, List.pairwise_map]
    exact List.pairwise_lt_range.imp Nat.succ_lt_succ
  · intro r hr
    obtain ⟨i, hi, rfl⟩ := List.mem_map.mp hr
    exact Nat.succ_lt_succ (List.mem_range.mp hi)

theorem oldest_infoTable (n k : ℕ) : (infoTable n).oldest k = min k n := by
  have hall : ∀ r ∈ (infoTable n).rows.take k, r.2.isPurgeable = true := by
    intro r hr
    obtain ⟨i, -, rfl⟩ := List.mem_map.mp (List.mem_of_mem_take hr)
    rfl
  rw [LogDb.oldest, List.countP_eq_length.mpr hall, List.length_take, infoTable, List.length_map,
    List.length_range]

theorem nonErrors_infoTable (n : ℕ) : (infoTable n).nonErrors = n := by
  have holdest := oldest_infoTable n n
  rwa [LogDb.oldest, infoTable, List.take_of_length_le (by simp), min_self] at holdest

/-- Two messages come to 16385 others: the purge deletes 512 rows. -/
theorem nonErrors_le_mixed :
    (infoTable 16385).nonErrors = 16385 ∧ (logPurge (infoTable 16385)).nonErrors = 15873 ∧
      (logIteration (infoTable 16385) mixedBatch.items).nonErrors ≤
        maxDbSize.toNat + maxLogCount := by
  have hmany : (infoTable 16385).nonErrors = 16385 := nonErrors_infoTable 16385
  have hoff : (infoTable 16385).oldest deleteLogNum = 512 := oldest_infoTable 16385 512
  have hfull : maxDbSize ≤ getDbCount (infoTable 16385) := by
    rw [getDbCount, infoTable, List.length_map, List.length_range]
    decide
  refine ⟨hmany, ?_, ?_⟩
  · have hdelete := nonErrors_deleteDbMsg (ordered_infoTable 16385) deleteLogNum
    rw [hoff, hmany] at hdelete
    rw [logPurge, if_pos hfull]
    exact Nat.add_right_cancel (m := 512) hdelete
  · have hlimit : (infoTable 16385).nonErrors ≤ maxDbSize.toNat + maxLogCount := by
      rw [hmany]
      show 16385 ≤ 16384 + 50
      norm_num
    refine nonErrors_le _ (ordered_infoTable 16385) hlimit (.step .init ?_ rfl)
    intro _
    have hbatch : mixedBatch.nonErrors = 1 := rfl
    refine ⟨hfull, ?_⟩
    show mixedBatch.nonErrors ≤ (infoTable 16385).oldest deleteLogNum
    rw [hbatch, hoff]
    norm_num

/-! ### Errors in front -/

/-- None of the oldest rows may be deleted. -/
def ErrorsInFront (db : LogDb) : Prop := db.oldest deleteLogNum = 0

theorem deleteDbMsg_errorsInFront {db : LogDb} (h : db.Ordered) (hfront : ErrorsInFront db) :
    deleteDbMsg db deleteLogNum = db := by
  have hkeep : (db.rows.take deleteLogNum).filter (fun r => ! r.2.isPurgeable) =
      db.rows.take deleteLogNum := by
    rw [List.filter_eq_self]
    intro r hr
    simpa using List.countP_eq_zero.mp hfront r hr
  have hrows : (deleteDbMsg db deleteLogNum).rows = db.rows := by
    rw [rows_deleteDbMsg h, hkeep, List.take_append_drop]
  show LogDb.mk _ db.nextId = db
  rw [show db.rows.filter _ = db.rows from hrows]

theorem logIteration_errorsInFront {db : LogDb} (h : db.Ordered) (hfront : ErrorsInFront db)
    (items : List LogMsg) : logIteration db items = db.insertAll items := by
  rw [logIteration, logPurge, deleteDbMsg_errorsInFront h hfront, ite_self]

theorem rows_insertAll (items : List LogMsg) : ∀ (db : LogDb), ∃ rows,
    (db.insertAll items).rows = db.rows ++ rows ∧ rows.map Prod.snd = items.map LogMsg.row := by
  induction items with
  | nil =>
    intro db
    exact ⟨[], (List.append_nil _).symm, rfl⟩
  | cons msg items ih =>
    intro db
    obtain ⟨rows, hrows, hmap⟩ := ih (db.insert msg.row)
    refine ⟨(db.nextId, msg.row) :: rows, ?_, ?_⟩
    · show ((db.insert msg.row).insertAll items).rows = _
      rw [hrows]
      exact List.append_assoc _ _ _
    · rw [List.map_cons, hmap, List.map_cons]

/-- A batch of one message over and over. -/
def sameBatch (msg : LogMsg) : LogBatch :=
  ⟨List.replicate maxLogCount msg, by rw [List.length_replicate]⟩

/-- Errors in front stay there, and batches of other messages pile up behind them. -/
theorem errorsInFront_pile (msg : LogMsg) (hmsg : msg.row.isPurgeable = true) (k : ℕ) :
    ∀ (db : LogDb), db.Ordered → ErrorsInFront db → deleteLogNum ≤ db.rows.length →
      ∃ t, (∀ db', (retentionSystem db').run db (List.replicate k (sameBatch msg)) = some t) ∧
        t.nonErrors = db.nonErrors + k * maxLogCount := by
  induction k with
  | zero =>
    intro db _ _ _
    exact ⟨db, fun _ => rfl, by rw [Nat.zero_mul, Nat.add_zero]⟩
  | succ k ih =>
    intro db hordered hfront hlength
    have hiter := logIteration_errorsInFront hordered hfront (sameBatch msg).items
    have hcount := nonErrors_insertAll (sameBatch msg).items db
    obtain ⟨rows, hrows, -⟩ := rows_insertAll (sameBatch msg).items db
    have htake : (db.insertAll (sameBatch msg).items).rows.take deleteLogNum =
        db.rows.take deleteLogNum := by
      rw [hrows, List.take_append_of_le_length hlength]
    have hfront' : ErrorsInFront (db.insertAll (sameBatch msg).items) := by
      rw [ErrorsInFront, LogDb.oldest, htake]
      exact hfront
    have hbatch : (sameBatch msg).items.countP (fun msg => msg.row.isPurgeable) = maxLogCount := by
      rw [sameBatch, List.countP_replicate, if_pos hmsg]
    obtain ⟨t, hrun, ht⟩ := ih _ hordered.insertAll hfront' (by
      rw [hrows, List.length_append]
      omega)
    refine ⟨t, ?_, ?_⟩
    · intro db'
      rw [List.replicate_succ, TransitionSystem.run_cons]
      show (some (logIteration db (sameBatch msg).items)).bind _ = _
      rw [hiter, Option.bind_some, hrun]
    · rw [ht, hcount, hbatch, Nat.succ_mul]
      omega

/-- Batches of errors fill the front. -/
theorem errorsInFront_fill (msg : LogMsg) (hmsg : msg.row.isPurgeable = false) (k : ℕ) :
    ∀ (db : LogDb), db.Ordered → db.nonErrors = 0 →
      ∃ t, (∀ db', (retentionSystem db').run db (List.replicate k (sameBatch msg)) = some t) ∧
        t.Ordered ∧ t.nonErrors = 0 ∧ t.rows.length = db.rows.length + k * maxLogCount := by
  induction k with
  | zero =>
    intro db hordered hnone
    exact ⟨db, fun _ => rfl, hordered, hnone, by rw [Nat.zero_mul, Nat.add_zero]⟩
  | succ k ih =>
    intro db hordered hnone
    have hfront : ErrorsInFront db :=
      Nat.le_zero.mp (hnone ▸ (List.take_sublist _ _).countP_le)
    have hiter := logIteration_errorsInFront hordered hfront (sameBatch msg).items
    have hcount := nonErrors_insertAll (sameBatch msg).items db
    have hbatch : (sameBatch msg).items.countP (fun msg => msg.row.isPurgeable) = 0 := by
      rw [sameBatch, List.countP_replicate, if_neg (by simp [hmsg])]
    obtain ⟨rows, hrows, hmap⟩ := rows_insertAll (sameBatch msg).items db
    have hlength : rows.length = maxLogCount := by
      rw [← List.length_map Prod.snd, hmap, List.length_map, sameBatch, List.length_replicate]
    obtain ⟨t, hrun, hord, hzero, hlen⟩ := ih _ hordered.insertAll (by
      rw [hcount, hnone, hbatch])
    refine ⟨t, ?_, hord, hzero, ?_⟩
    · intro db'
      rw [List.replicate_succ, TransitionSystem.run_cons]
      show (some (logIteration db (sameBatch msg).items)).bind _ = _
      rw [hiter, Option.bind_some, hrun]
    · rw [hlen, hrows, List.length_append, hlength, Nat.succ_mul]
      omega

/-- An error. -/
def errorLog : LogMsg := ⟨.logError, 7, .udp, []⟩

/-- Eleven batches of errors, then 329 of other messages: none of these is deleted, and
16450 of them are in the table. -/
theorem nonErrors_errorsFirst : ∃ t, (retentionSystem ⟨[], 1⟩).run ⟨[], 1⟩
      (List.replicate 11 (sameBatch errorLog) ++ List.replicate 329 (sameBatch infoLog)) = some t ∧
    t.nonErrors = 16450 ∧ ¬ t.nonErrors ≤ maxDbSize.toNat + maxLogCount := by
  have hordered : LogDb.Ordered ⟨[], 1⟩ := ⟨.nil, fun r hr => nomatch hr⟩
  obtain ⟨m, hrun, hord, hzero, hlen⟩ :=
    errorsInFront_fill errorLog rfl 11 ⟨[], 1⟩ hordered rfl
  have hfront : ErrorsInFront m := Nat.le_zero.mp (hzero ▸ (List.take_sublist _ _).countP_le)
  have hlength : deleteLogNum ≤ m.rows.length := by
    rw [hlen, deleteLogNum, maxLogCount]
    exact Nat.le_of_lt (by norm_num)
  obtain ⟨t, hrun', hcount⟩ := errorsInFront_pile infoLog rfl 329 m hord hfront hlength
  have hmany : t.nonErrors = 16450 := by rw [hcount, hzero, maxLogCount]
  refine ⟨t, ?_, hmany, ?_⟩
  · rw [TransitionSystem.run_append, hrun, Option.bind_some, hrun']
  · rw [hmany]
    show ¬ 16450 ≤ 16384 + 50
    norm_num

end Sentry
