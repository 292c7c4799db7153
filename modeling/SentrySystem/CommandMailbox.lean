/-
The commands delivered to the command module and to the logger
(`src/command/command_get.c`, `src/log/log.c`).

`command_msg_handler` copies a command into the one `cmd_msg` and sets `cmd_pending`;
`command_process_thread` takes it from there and passes it to `command_dispatch`.
`logger_msg_handler` stores a command in the logger's one `cmd_msg`;
`logger_process_thread` looks at it once in each of its iterations.  The handlers
return at once, so the next command can be delivered while a thread is still busy.

* `commandMsgHandlerCommand`, `commandThread` — the functions;
* `workerSystem` — the two threads and the deliveries to both modules;
* `DeliveredExecuted` — what is delivered is executed or pending;
* `deliveredExecuted_iff` — true all along exactly the runs in which no command is
  delivered over one that waits.
-/
import SentrySystem.CmdFlow
import SentrySystem.LogBuffer
import SentrySystem.Lib.Mailbox

namespace Sentry

/-! ### The code -/

/-- `CMD_STORAGE_QUERY_FILES`. -/
def cmdStorageQueryFiles : ℤ := 0x0201

/-- What `command_dispatch` does: call `handle_query_files`, or log "Unknown cmd". -/
inductive CommandEffect
  | handleQueryFiles
  | unknownCmd
  deriving DecidableEq, Repr

/-- `command_dispatch`. -/
def commandDispatch (cmd : CommandMsg) : CommandEffect :=
  if cmd.cmd = cmdStorageQueryFiles then .handleQueryFiles else .unknownCmd

/-- Where `command_process_thread` is: in front of the test of `running`; in
`pthread_cond_wait`; in front of `command_dispatch`, with `local_cmd`; behind the
loop; behind `command_data_deinit`. -/
inductive CommandPc
  | top
  | waiting
  | dispatching (localCmd : CommandMsg)
  | leaving
  | ended
  deriving DecidableEq, Repr

/-- `Command_Data_t`, `running` and the thread; and the history: the commands handled, the
arguments of `command_dispatch` and what it did. -/
structure CommandData where
  cmdMsg : CommandMsg
  cmdPending : Bool
  running : Bool
  pc : CommandPc
  delivered : List CommandMsg
  dispatched : List CommandMsg
  effects : List CommandEffect

/-- The state after `command_data_init`. -/
def CommandData.init : CommandData where
  cmdMsg := ⟨0, .v4l2, 0, none⟩
  cmdPending := false
  running := true
  pc := .top
  delivered := []
  dispatched := []
  effects := []

/-- The command as `command_msg_handler` keeps it. -/
def withoutParam (cmd : CommandMsg) : CommandMsg := { cmd with param := none }

/-- The branch `MSG_TYPE_COMMAND` of `command_msg_handler`. -/
def commandMsgHandlerCommand (s : CommandData) (cmd : CommandMsg) : CommandData :=
  { s with
    cmdMsg := withoutParam cmd
    cmdPending := true
    delivered := s.delivered ++ [cmd] }

/-- The loop with the lock held, up to where it is given back. -/
def commandLocked (s : CommandData) : CommandData :=
  if s.cmdPending = false ∧ s.running = true then { s with pc := .waiting }
  else if s.running = false then { s with pc := .leaving }
  else { s with cmdPending := false, pc := .dispatching s.cmdMsg }

/-- A step of `command_process_thread`. -/
def commandThread (s : CommandData) : Option CommandData :=
  match s.pc with
  | .top => if s.running then some (commandLocked s) else some { s with pc := .leaving }
  | .waiting => some (commandLocked s)
  | .dispatching localCmd =>
    some { s with
      pc := .top
      dispatched := s.dispatched ++ [localCmd]
      effects := s.effects ++ [commandDispatch localCmd] }
  | .leaving => some { s with pc := .ended }
  | .ended => none

/-- An upload command was handled; `upload_db_to_server` was called. -/
inductive UploadEvent
  | handled
  | started
  deriving DecidableEq, Repr

/-- The two modules; `starting` is set while `logger_process_thread` has taken an upload
command and has yet to call `upload_db_to_server`. -/
structure WorkerState where
  command : CommandData
  log : LogState
  starting : Bool
  uploads : List UploadEvent

/-- The state after `command_data_init` and `log_init`. -/
def WorkerState.init (db : LogDb) : WorkerState := ⟨.init, .init db, false, []⟩

/-- What can happen: a command is delivered to the command module, a log message or a
command to the logger; one of the threads makes a step; `running` is cleared. -/
inductive WorkerAction
  | command (cmd : CommandMsg)
  | commandThread
  | log (msg : LogMsg)
  | logCommand (cmd : CommandMsg)
  | logThread (ok : Bool)
  | uploadDbToServer
  | stop

/-- An upload command in the history. -/
def handledUpload (cmd : CommandMsg) : List UploadEvent :=
  if cmd.cmd = cmdLogUploadDb then [.handled] else []

/-- The thread takes an upload command in this step. -/
def takesUpload (log : LogState) : Bool := log.pc = .relock ∧ log.cmd = cmdLogUploadDb

/-- One step.  A handler is not called once it is unregistered; a logger that stored behind its array
makes no more steps. -/
def workerStep (s : WorkerState) : WorkerAction → Option WorkerState
  | .command cmd =>
    if s.command.pc = .ended then none
    else some { s with command := commandMsgHandlerCommand s.command cmd }
  | .commandThread => (commandThread s.command).map fun c => { s with command := c }
  | .log msg => (logStep s.log (.log msg)).map fun l => { s with log := l }
  | .logCommand cmd =>
    (logStep s.log (.command cmd.cmd)).map fun l =>
      { s with log := l, uploads := s.uploads ++ handledUpload cmd }
  | .logThread ok =>
    if s.starting then none
    else
      (logStep s.log (.thread ok)).map fun l =>
        { s with log := l, starting := takesUpload s.log }
  -- the lock is given back, and the call begins
  | .uploadDbToServer =>
    if s.starting then some { s with starting := false, uploads := s.uploads ++ [.started] }
    else none
  | .stop =>
    some { s with
      command := { s.command with running := false }
      log := { s.log with running := false } }

/-- The two threads and the deliveries. -/
def workerSystem (db : LogDb) : TransitionSystem WorkerState WorkerAction :=
  ⟨.init db, workerStep⟩

/-! ### What a step can do -/

/-- Everything a step can do to a state. -/
inductive WorkerStep (s : WorkerState) : WorkerAction → WorkerState → Prop
  | command (cmd : CommandMsg) :
      WorkerStep s (.command cmd) { s with command := commandMsgHandlerCommand s.command cmd }
  | commandThread (c : CommandData) (h : commandThread s.command = some c) :
      WorkerStep s .commandThread { s with command := c }
  | log (msg : LogMsg) (l : LogState) (h : logStep s.log (.log msg) = some l) :
      WorkerStep s (.log msg) { s with log := l }
  | logCommand (cmd : CommandMsg) (l : LogState)
      (h : logStep s.log (.command cmd.cmd) = some l) : WorkerStep s (.logCommand cmd)
        { s with log := l, uploads := s.uploads ++ handledUpload cmd }
  | logThread (ok : Bool) (l : LogState) (hidle : s.starting = false)
      (h : logThread s.log ok = some l) : WorkerStep s (.logThread ok)
        { s with log := l, starting := takesUpload s.log }
  | uploadDbToServer (hstarting : s.starting = true) : WorkerStep s .uploadDbToServer
      { s with starting := false, uploads := s.uploads ++ [.started] }
  | stop : WorkerStep s .stop
      { s with
        command := { s.command with running := false }
        log := { s.log with running := false } }

theorem workerStep_cases {s t : WorkerState} {a : WorkerAction} (h : workerStep s a = some t) :
    WorkerStep s a t := by
  cases a with
  | command cmd =>
    simp only [workerStep] at h
    split_ifs at h
    rw [Option.some_inj] at h
    exact h ▸ .command cmd
  | commandThread =>
    simp only [workerStep, Option.map_eq_some_iff] at h
    obtain ⟨c, hc, rfl⟩ := h
    exact .commandThread c hc
  | log msg =>
    simp only [workerStep, Option.map_eq_some_iff] at h
    obtain ⟨l, hl, rfl⟩ := h
    exact .log msg l hl
  | logCommand cmd =>
    simp only [workerStep, Option.map_eq_some_iff] at h
    obtain ⟨l, hl, rfl⟩ := h
    exact .logCommand cmd l hl
  | logThread ok =>
    simp only [workerStep] at h
    split_ifs at h with hstarting
    obtain ⟨l, hl, rfl⟩ := Option.map_eq_some_iff.mp h
    exact .logThread ok l (Bool.eq_false_iff.mpr hstarting) (logThread_of_logStep hl)
  | uploadDbToServer =>
    simp only [workerStep] at h
    split_ifs at h with hstarting
    rw [Option.some_inj] at h
    exact h ▸ .uploadDbToServer hstarting
  | stop =>
    simp only [workerStep, Option.some_inj] at h
    exact h ▸ .stop

/-! ### The command module is a mailbox -/

/-- The command in the thread's hand. -/
def CommandPc.localCmd : CommandPc → Option CommandMsg
  | dispatching localCmd => some localCmd
  | _ => none

@[simp] theorem localCmd_top : CommandPc.top.localCmd = none := rfl

@[simp] theorem localCmd_waiting : CommandPc.waiting.localCmd = none := rfl

@[simp] theorem localCmd_dispatching (cmd : CommandMsg) :
    (CommandPc.dispatching cmd).localCmd = some cmd := rfl

@[simp] theorem localCmd_leaving : CommandPc.leaving.localCmd = none := rfl

@[simp] theorem localCmd_ended : CommandPc.ended.localCmd = none := rfl

/-- `cmd_msg`, where it is pending. -/
def CommandData.pending (s : CommandData) : Option CommandMsg :=
  if s.cmdPending then some s.cmdMsg else none

/-- The mailbox of the command module. -/
def toMailbox (s : CommandData) : Mailbox CommandMsg :=
  ⟨s.pending, s.pc.localCmd, s.delivered.map withoutParam, s.dispatched⟩

theorem toMailbox_handler (s : CommandData) (cmd : CommandMsg) :
    (toMailbox s).step (.post (withoutParam cmd)) =
      some (toMailbox (commandMsgHandlerCommand s cmd)) := by
  simp [Mailbox.step, toMailbox, commandMsgHandlerCommand, CommandData.pending]

/-- With the lock the thread takes the pending command, or none. -/
theorem toMailbox_locked {s : CommandData} (hpc : s.pc.localCmd = none) :
    toMailbox (commandLocked s) = toMailbox s ∨
      (toMailbox s).step .take = some (toMailbox (commandLocked s)) := by
  rw [commandLocked]
  split_ifs with hwait hstop
  · exact .inl (by simp [toMailbox, CommandData.pending, hpc])
  · exact .inl (by simp [toMailbox, CommandData.pending, hpc])
  · have hpending : s.cmdPending = true := by
      rw [Bool.not_eq_false] at hstop
      simpa [hstop] using hwait
    refine .inr ?_
    simp [Mailbox.step, toMailbox, CommandData.pending, hpc, hpending]

theorem toMailbox_thread {s t : CommandData} (h : commandThread s = some t) :
    toMailbox t = toMailbox s ∨
      ∃ x, (∀ a, x ≠ .post a) ∧ (toMailbox s).step x = some (toMailbox t) := by
  have hlocked : s.pc.localCmd = none → commandLocked s = t → toMailbox t = toMailbox s ∨
      ∃ x, (∀ a, x ≠ .post a) ∧ (toMailbox s).step x = some (toMailbox t) := by
    rintro hpc rfl
    rcases toMailbox_locked hpc with heq | hstep
    · exact .inl heq
    · exact .inr ⟨.take, fun a => nofun, hstep⟩
  rw [commandThread] at h
  split at h
  · next hpc =>
    split_ifs at h
    · exact hlocked (by rw [hpc]; rfl) (Option.some_inj.mp h)
    · rw [Option.some_inj] at h
      subst h
      exact .inl (by simp [toMailbox, CommandData.pending, hpc])
  · next hpc => exact hlocked (by rw [hpc]; rfl) (Option.some_inj.mp h)
  · next localCmd hpc =>
    rw [Option.some_inj] at h
    subst h
    refine .inr ⟨.serve, fun a => nofun, ?_⟩
    simp [Mailbox.step, toMailbox, CommandData.pending, hpc]
  · next hpc =>
    rw [Option.some_inj] at h
    subst h
    exact .inl (by simp [toMailbox, CommandData.pending, hpc])
  · simp at h

theorem toMailbox_init : toMailbox .init = (Mailbox.system CommandMsg).init := rfl

/-- What `command_dispatch` did is what it does with its arguments. -/
def EffectsMatch (s : CommandData) : Prop := s.effects = s.dispatched.map commandDispatch

theorem EffectsMatch.locked {s : CommandData} (h : EffectsMatch s) :
    EffectsMatch (commandLocked s) := by
  rw [commandLocked]
  split_ifs <;> exact h

theorem EffectsMatch.thread {s t : CommandData} (h : EffectsMatch s)
    (ht : commandThread s = some t) : EffectsMatch t := by
  rw [commandThread] at ht
  split at ht
  · split_ifs at ht
    · exact Option.some_inj.mp ht ▸ h.locked
    · exact Option.some_inj.mp ht ▸ h
  · exact Option.some_inj.mp ht ▸ h.locked
  · rw [Option.some_inj] at ht
    subst ht
    simp only [EffectsMatch, List.map_append, List.map_singleton]
    rw [show s.effects = _ from h]
  · exact Option.some_inj.mp ht ▸ h
  · simp at ht

theorem effectsMatch {db : LogDb} {s : WorkerState} (hs : (workerSystem db).Reachable s) :
    EffectsMatch s.command := by
  have hinit : EffectsMatch CommandData.init := rfl
  refine hs.invariant (P := fun s => EffectsMatch s.command) hinit ?_
  intro s a t ih _ ht
  cases workerStep_cases ht with
  | commandThread c hc => exact ih.thread hc
  | _ => exact ih

theorem mailbox_reachable {db : LogDb} {s : WorkerState}
    (hs : (workerSystem db).Reachable s) :
    (Mailbox.system CommandMsg).Reachable (toMailbox s.command) := by
  refine TransitionSystem.Via.map (T := Mailbox.system CommandMsg)
    (fun s => toMailbox s.command) toMailbox_init ?_ hs
  intro s a t _ _ ht
  cases workerStep_cases ht with
  | command cmd =>
    exact .inr ⟨.post (withoutParam cmd), trivial, toMailbox_handler s.command cmd⟩
  | commandThread c hc =>
    rcases toMailbox_thread hc with heq | ⟨x, -, hstep⟩
    · exact .inl heq
    · exact .inr ⟨x, trivial, hstep⟩
  | _ => exact .inl rfl

/-! ### Every command is executed -/

/-- A taken upload command, or one in the slot. -/
def UploadPending (s : WorkerState) : Prop := s.log.cmd = cmdLogUploadDb ∨ s.starting = true

/-- Delivered commands are executed. -/
structure DeliveredExecuted (s : WorkerState) : Prop where
  /-- the commands of the command module were dispatched in order, but for one in hand and
  one pending -/
  dispatched : s.command.delivered.map withoutParam = s.command.dispatched ++
    (s.command.pc.localCmd.toList ++ s.command.pending.toList)
  /-- an upload command is followed by an upload, or one is pending -/
  uploaded : ∀ before after, s.uploads = before ++ .handled :: after →
    .started ∈ after ∨ UploadPending s

/-- An upload command that was delivered after the last upload started waits in the slot. -/
def uploadWaits (s : WorkerState) : Bool :=
  owed .handled .started s.uploads && decide (s.log.cmd = cmdLogUploadDb) && ! s.starting

/-- No command is delivered over one that waits; an upload command may be delivered over
another. -/
def SlotFree (s : WorkerState) : WorkerAction → Prop
  | .command _ => s.command.cmdPending = false
  | .logCommand cmd => uploadWaits s = true → cmd.cmd = cmdLogUploadDb
  | _ => True

instance : ∀ (s : WorkerState) (a : WorkerAction), Decidable (SlotFree s a)
  | s, .command _ => inferInstanceAs (Decidable (s.command.cmdPending = false))
  | s, .logCommand cmd =>
    inferInstanceAs (Decidable (uploadWaits s = true → cmd.cmd = cmdLogUploadDb))
  | _, .commandThread | _, .log _ | _, .logThread _ | _, .uploadDbToServer | _, .stop =>
    .isTrue trivial

theorem deliveredExecuted_iff_mailbox (s : WorkerState) : DeliveredExecuted s ↔
    (toMailbox s.command).InOrder ∧
      (owed .handled .started s.uploads = true → UploadPending s) := by
  rw [← followed_iff (by simp)]
  exact ⟨fun h => ⟨h.dispatched, h.uploaded⟩, fun h => ⟨h.1, h.2⟩⟩

/-- The thread of the logger changes the slot only to take an upload command. -/
theorem cmd_logThread {s t : LogState} {ok : Bool} (h : logThread s ok = some t) :
    takesUpload s = false ∧ t.cmd = s.cmd ∨ takesUpload s = true ∧ t.cmd = 0 := by
  have hsave : ∀ b p, (dbSaveBatch s b ok p).cmd = s.cmd := by
    intro b p
    cases p with
    | start =>
      rw [dbSaveBatch]
      split_ifs <;> rfl
    | insert i =>
      rw [dbSaveBatch]
      split
      · split_ifs <;> rfl
      · rfl
    | commit => cases b <;> rfl
  rw [logThread] at h
  split at h
  case h_8 hpc =>
    split_ifs at h with hcmd
    · rw [Option.some_inj] at h
      exact .inr ⟨by simp [takesUpload, hpc, hcmd], h ▸ rfl⟩
    · rw [Option.some_inj] at h
      exact .inl ⟨by simp [takesUpload, hcmd], h ▸ rfl⟩
  case h_7 b p hpc =>
    rw [Option.some_inj] at h
    exact .inl ⟨by simp [takesUpload, hpc], h ▸ hsave b p⟩
  case h_4 hpc =>
    split_ifs at h <;> rw [Option.some_inj] at h <;>
      exact .inl ⟨by simp [takesUpload, hpc], h ▸ rfl⟩
  case h_12 => simp at h
  all_goals
    next hpc =>
      rw [Option.some_inj] at h
      exact .inl ⟨by simp [takesUpload, hpc], h ▸ rfl⟩

/-- The slot of the logger keeps to its law. -/
theorem uploadPending_step {s t : WorkerState} {a : WorkerAction}
    (h : owed .handled .started s.uploads = true → UploadPending s) (hfree : SlotFree s a)
    (ht : WorkerStep s a t) : owed .handled .started t.uploads = true → UploadPending t := by
  cases ht with
  | command cmd => exact h
  | commandThread c hc => exact h
  | log msg l hl =>
    have hcmd : l.cmd = s.log.cmd := by
      cases logStep_cases hl <;> rfl
    intro howed
    exact (h howed).imp_left hcmd.trans
  | logCommand cmd l hl =>
    have hcmd : l.cmd = cmd.cmd := by
      simp only [logStep] at hl
      split_ifs at hl
      exact Option.some_inj.mp hl ▸ rfl
    intro howed
    by_cases hupload : cmd.cmd = cmdLogUploadDb
    · exact .inl (hcmd.trans hupload)
    · -- another command: no upload command was in the slot
      rw [handledUpload, if_neg hupload, List.append_nil] at howed
      have howed : owed .handled .started s.uploads = true := howed
      rcases Bool.eq_false_or_eq_true s.starting with hstarting | hidle
      · exact .inr hstarting
      · have hslot : s.log.cmd = cmdLogUploadDb := (h howed).resolve_right (by simp [hidle])
        refine absurd (hfree ?_) hupload
        simp [uploadWaits, howed, hslot, hidle]
  | logThread ok l hidle hl =>
    intro howed
    have hslot : s.log.cmd = cmdLogUploadDb := (h howed).resolve_right (by simp [hidle])
    rcases cmd_logThread hl with ⟨-, hcmd⟩ | ⟨htakes, -⟩
    · exact .inl (hcmd.trans hslot)
    · exact .inr htakes
  | uploadDbToServer hstarting =>
    intro howed
    simp at howed
  | stop => exact h

/-- A command delivered over a waiting upload command takes its place. -/
theorem not_uploadPending_of_overwrite {s t : WorkerState} {cmd : CommandMsg}
    (hwaits : uploadWaits s = true) (hcmd : cmd.cmd ≠ cmdLogUploadDb)
    (ht : WorkerStep s (.logCommand cmd) t) :
    owed .handled .started t.uploads = true ∧ ¬ UploadPending t := by
  simp only [uploadWaits, Bool.and_eq_true, Bool.not_eq_true', decide_eq_true_eq] at hwaits
  obtain ⟨⟨howed, -⟩, hstarting⟩ := hwaits
  cases ht with
  | logCommand cmd l hl =>
    simp only [logStep] at hl
    split_ifs at hl
    rw [Option.some_inj] at hl
    subst hl
    refine ⟨by simpa [handledUpload, hcmd] using howed, ?_⟩
    simp [UploadPending, hcmd, hstarting]

theorem deliveredExecuted_of_via {db : LogDb} {s : WorkerState}
    (hs : (workerSystem db).Via SlotFree s) : DeliveredExecuted s := by
  rw [deliveredExecuted_iff_mailbox]
  have hinit : (toMailbox CommandData.init).InOrder := rfl
  have hnone : owed .handled .started (WorkerState.init db).uploads = false := rfl
  refine hs.invariant (P := fun s => (toMailbox s.command).InOrder ∧
    (owed .handled .started s.uploads = true → UploadPending s)) 
      ⟨hinit, fun howed => absurd (hnone.symm.trans howed) Bool.false_ne_true⟩ ?_
  intro s a t ih hfree ht
  have hstep := workerStep_cases ht
  refine ⟨?_, uploadPending_step ih.2 hfree hstep⟩
  cases hstep with
  | command cmd =>
    refine ih.1.step ?_ (toMailbox_handler s.command cmd)
    intro a _
    have hpending : s.command.cmdPending = false := hfree
    simp [toMailbox, CommandData.pending, hpending]
  | commandThread c hc =>
    rcases toMailbox_thread hc with heq | ⟨x, hx, hm⟩
    · exact heq.symm ▸ ih.1
    · exact ih.1.step (fun a ha => absurd ha (hx a)) hm
  | _ => exact ih.1

theorem not_deliveredExecuted_of_overwrite {db : LogDb} {s t : WorkerState} {a : WorkerAction}
    (hs : (workerSystem db).Reachable s) (hfull : ¬ SlotFree s a)
    (ht : (workerSystem db).step s a = some t) : ¬ DeliveredExecuted t := by
  rw [deliveredExecuted_iff_mailbox]
  have hstep := workerStep_cases ht
  cases a with
  | command cmd =>
    have hpending : s.command.cmdPending = true := Bool.not_eq_false _ |>.mp hfull
    cases hstep with
    | command cmd =>
      intro h
      refine Mailbox.not_inOrder_post (mailbox_reachable hs) ?_
        (toMailbox_handler s.command cmd) h.1
      simp [toMailbox, CommandData.pending, hpending]
  | logCommand cmd =>
    simp only [SlotFree, Classical.not_imp] at hfull
    obtain ⟨howed, hnot⟩ := not_uploadPending_of_overwrite hfull.1 hfull.2 hstep
    intro h
    exact hnot (h.2 howed)
  | _ => exact absurd trivial hfull

/-- **Delivered commands are executed** all along exactly the runs in which no command is
delivered over one that waits. -/
theorem deliveredExecuted_iff (db : LogDb) {as : List WorkerAction} {t : WorkerState}
    (h : (workerSystem db).run (.init db) as = some t) :
    (workerSystem db).Throughout DeliveredExecuted (.init db) as ↔
      (workerSystem db).runVia SlotFree (.init db) as = some t :=
  TransitionSystem.throughout_eq_runVia (S := workerSystem db)
    (fun _ hs => deliveredExecuted_of_via hs)
    (fun _ _ _ hs hfull ht => not_deliveredExecuted_of_overwrite hs.reachable hfull ht) h

/-- A command for one of the modules. -/
def hostCommand (cmd : ℤ) : CommandMsg := ⟨cmd, .tcpRecv, 1, none⟩

/-- A query and, behind it, an upload. -/
def queryThenUpload : List WorkerAction :=
  [.command (hostCommand cmdStorageQueryFiles), .commandThread, .commandThread,
    .logCommand (hostCommand cmdLogUploadDb)]

theorem deliveredExecuted_iff_query : (workerSystem ⟨[], 1⟩).Throughout DeliveredExecuted
    (.init ⟨[], 1⟩) queryThenUpload := by
  have hrun : (workerSystem ⟨[], 1⟩).run (.init ⟨[], 1⟩) queryThenUpload = some _ := rfl
  exact (deliveredExecuted_iff ⟨[], 1⟩ hrun).mpr rfl

/-- Two commands are delivered while the first is being dispatched, and then an upload
command and another one to the logger. -/
def closeCommands : List WorkerAction :=
  [.command (hostCommand 0x0201), .commandThread, .command (hostCommand 0x0202),
    .command (hostCommand 0x0203), .commandThread, .commandThread, .commandThread,
    .logCommand (hostCommand cmdLogUploadDb), .logCommand (hostCommand 0x0302)]

/-- The second of three commands is never dispatched, and the upload never started. -/
theorem deliveredExecuted_closeCommands : ∃ t,
    (workerSystem ⟨[], 1⟩).run (.init ⟨[], 1⟩) closeCommands = some t ∧
    t.command.delivered.map CommandMsg.cmd = [0x0201, 0x0202, 0x0203] ∧
    t.command.dispatched.map CommandMsg.cmd = [0x0201, 0x0203] ∧ t.command.pc = .top ∧
    t.command.cmdPending = false ∧ t.uploads = [.handled] ∧ t.log.cmd = 0x0302 ∧
    t.starting = false ∧ ¬ DeliveredExecuted t := by
  refine ⟨_, rfl, rfl, rfl, rfl, rfl, rfl, rfl, rfl, ?_⟩
  intro h
  have hlength := congrArg List.length h.dispatched
  exact absurd hlength (by decide)

end Sentry
