/-
Commands of the host on their way to the modules (`src/net/tcp_recv.c`,
`src/json/json_about.c`).

`cmd_deliver` parses a command into the one `cmd_msg`, whose `param` points into the one
`json_root`, and puts the address of `cmd_msg` on the queue.  The flag
`cmd_msg_received` is to keep `tcp_recv_thread` from the next command until the
deliver thread has released this one; after two seconds the wait is given up.
The thread, the deliver thread and the senders of other messages interleave at
the locks and at the accesses to `cmd_msg` and `json_root`; `running` stays set.

* `jsonParseCommand`, `jsonGetIntDef` — the fields of a command;
* `cmdSystem` — `tcp_recv_thread` in front of the message queue;
* `CmdStep` — everything one step can do;
* `flowControl` — no wait without a command in flight, if what is marked was of type 0 or
  1, went on the queue and is not released before the mark;
* `commandLaw` — a command is handled with its own content, if no wait is given up
  while one is in flight.
-/
import SentrySystem.Common
import SentrySystem.Lib.BoundedServer
import SentrySystem.MsgQueue

namespace Sentry

/-! ### The code -/

/-- A member of a JSON object: a number with its `valueint`, a null, or anything else. -/
inductive JsonItem
  | number (valueint : ℤ)
  | null
  | other
  deriving DecidableEq, Repr

/-- A parsed payload: the members of the object, in order; none for a value that is
no object. -/
abbrev JsonRoot := List (String × JsonItem)

/-- A pointer to a member of the root of a tree: the tree, and the place of the member. -/
structure ItemRef where
  tree : ℕ
  index : ℕ
  deriving DecidableEq, Repr

/-- `Command_Msg_t`. -/
structure CommandMsg where
  cmd : ℤ
  src : ModuleId
  type : ℤ
  param : Option ItemRef
  deriving DecidableEq, Repr

/-- The place of the first member of a name. -/
def indexOfKey (items : JsonRoot) (key : String) : ℕ := items.findIdx fun m => m.1 == key

/-- `json_parse_command`, on a tree and its members. -/
def jsonParseCommand (root : Option (ℕ × JsonRoot)) : Option CommandMsg :=
  match root with
  | none => none
  | some (tree, items) =>
    match items.lookup "ver", items.lookup "mod", items.lookup "cmd", items.lookup "type" with
    | some (.number ver), some (.number _), some (.number cmd), some (.number type) =>
      if ver ≠ 0 then none
      else
        some ⟨cmd, .tcpRecv, type,
          match items.lookup "param" with
          | none => none
          | some .null => none
          | some _ => some ⟨tree, indexOfKey items "param"⟩⟩
    | _, _, _, _ => none

/-- `json_get_int_def`. -/
def jsonGetIntDef (root : Option (ℕ × JsonRoot)) (key : String) (defaultVal : ℤ) : ℤ :=
  match root with
  | none => defaultVal
  | some (_, items) =>
    match items.lookup key with
    | some (.number valueint) => valueint
    | _ => defaultVal

/-- The cast of a number from 0 to `MODULE_ID_MAX - 1` to a `Module_ID_e`. -/
def moduleOf (moduleId : ℤ) : Option ModuleId :=
  if moduleId < 0 then none
  else
    [.v4l2, .udp, .alarm, .logger, .storage, .tcpSend, .tcpRecv, .command][moduleId.toNat]?

/-- A command on the queue: its destination and the tree it was parsed from.  The message
itself has only the address of `cmd_msg`. -/
structure Command where
  dst : ModuleId
  tree : ℕ
  deriving DecidableEq, Repr

/-- A message on the queue: a command of `cmd_deliver`, or any other. -/
inductive CmdItem
  | command (c : Command)
  | other (msg : CommonMsg)
  deriving DecidableEq, Repr

/-- Where `tcp_recv_thread` is: in front of `tcp_recv_wait_cmd_ready`; in its loop; behind
the forced release; reading from the link; in `cmd_deliver` behind `cJSON_Parse`,
behind `json_parse_command`, in front of `msg_dispatch`; in `msg_send`, in front of
the release handler; in front of `tcp_recv_mark_cmd_sent`. -/
inductive RecvPc
  | entering
  | waiting
  | forced
  | reading
  | parsed (tree : ℕ)
  | filled (tree : ℕ)
  | dispatching (c : Command)
  | refused
  | marking
  deriving DecidableEq, Repr

/-- The state: the queue with the deliver thread, `tcp_recv_thread`, the trees made by
`cJSON_Parse` and those deleted, and the fields of `Tcp_Recv_Buffer`. -/
structure CmdState where
  server : Server CmdItem maxMsgQueueSize
  pc : RecvPc
  trees : List JsonRoot
  deleted : List ℕ
  jsonRoot : Option ℕ
  cmdMsg : CommandMsg
  cmdMsgReceived : Bool

/-- The tree at `json_root`. -/
def CmdState.root (s : CmdState) : Option (ℕ × JsonRoot) :=
  s.jsonRoot.bind fun tree => s.trees[tree]?.map fun items => (tree, items)

/-- `cJSON_Delete` of `json_root`, which becomes null. -/
def CmdState.deleteRoot (s : CmdState) : CmdState :=
  match s.jsonRoot with
  | none => s
  | some tree => { s with deleted := s.deleted ++ [tree], jsonRoot := none }

/-- `tcp_recv_cmd_processed`. -/
def tcpRecvCmdProcessed (s : CmdState) : CmdState := { s.deleteRoot with cmdMsgReceived := false }

/-- `cJSON_Parse` in `cmd_deliver`. -/
def cmdDeliverParse (s : CmdState) (json : Option JsonRoot) : CmdState :=
  match json with
  -- the pointer to an older tree is overwritten, also where the parse fails
  | none => { s with jsonRoot := none, pc := .entering }
  | some items =>
    { s with
      trees := s.trees ++ [items]
      jsonRoot := some s.trees.length
      pc := .parsed s.trees.length }

/-- The check of `ver` and the call of `json_parse_command` in `cmd_deliver`. -/
def cmdDeliverFill (s : CmdState) (tree : ℕ) : CmdState :=
  if jsonGetIntDef s.root "ver" (-1) ≠ 0 then { s.deleteRoot with pc := .entering }
  else
    match jsonParseCommand s.root with
    | none => { s.deleteRoot with pc := .entering }
    | some cmdMsg => { s with cmdMsg := cmdMsg, pc := .filled tree }

/-- The check of `mod` and the switch over `type` in `cmd_deliver`. -/
def cmdDeliverRoute (s : CmdState) (tree : ℕ) : CmdState :=
  match moduleOf (jsonGetIntDef s.root "mod" (-1)) with
  | none => { s.deleteRoot with pc := .entering }
  | some moduleId =>
    if s.cmdMsg.type = 0 ∨ s.cmdMsg.type = 1 then { s with pc := .dispatching ⟨moduleId, tree⟩ }
    -- nothing is dispatched, but the command is marked as sent
    else { s.deleteRoot with pc := .marking }

/-- What can happen.  Only `cmd_deliver` sends a MSG_TYPE_COMMAND; the log messages of
`tcp_recv_thread` are among the other messages.  `skipFrame` is a frame without a
command, or a lost link. -/
inductive CmdAction
  | startWait
  | leaveWait
  | forceClear
  | forceDelete
  | skipFrame
  | parse (json : Option JsonRoot)
  | fill
  | route
  | dispatch
  | releaseRefused
  | mark
  | otherSend (msg : CommonMsg)
  | receive
  | handle
  | handlerReturn
  | release

/-- One step. -/
def cmdStep (s : CmdState) : CmdAction → Option CmdState
  | .startWait => if s.pc = .entering then some { s with pc := .waiting } else none
  | .leaveWait =>
    if s.pc = .waiting ∧ s.cmdMsgReceived = false then some { s with pc := .reading } else none
  | .forceClear =>
    if s.pc = .waiting ∧ s.cmdMsgReceived = true then
      some { s with cmdMsgReceived := false, pc := .forced }
    else none
  | .forceDelete => if s.pc = .forced then some { s.deleteRoot with pc := .reading } else none
  | .skipFrame => if s.pc = .reading then some { s with pc := .entering } else none
  | .parse json => if s.pc = .reading then some (cmdDeliverParse s json) else none
  | .fill =>
    match s.pc with
    | .parsed tree => some (cmdDeliverFill s tree)
    | _ => none
  | .route =>
    match s.pc with
    | .filled tree => some (cmdDeliverRoute s tree)
    | _ => none
  | .dispatch =>
    match s.pc with
    | .dispatching c =>
      match s.server.step (.arrive (.command c)) with
      | some server => some { s with server := server, pc := .marking }
      | none => some { s with pc := .refused }
    | _ => none
  | .releaseRefused =>
    if s.pc = .refused then some { tcpRecvCmdProcessed s with pc := .marking } else none
  | .mark =>
    if s.pc = .marking then some { s with cmdMsgReceived := true, pc := .entering } else none
  | .otherSend msg =>
    if msg.msgType = .command then none
    else
      match s.server.step (.arrive (.other msg)) with
      | some server => some { s with server := server }
      | none => some s
  | .receive => (s.server.step .fetch).map fun server => { s with server := server }
  | .handle => (s.server.step .serve).map fun server => { s with server := server }
  | .handlerReturn => (s.server.step .finish).map fun server => { s with server := server }
  | .release =>
    (s.server.step .leave).map fun server =>
      -- the release handler of the source looks at the type of the message only
      match s.server.current with
      | some (_, .command _) => tcpRecvCmdProcessed { s with server := server }
      | _ => { s with server := server }

/-- The state after `Tcp_Recv_Init`. -/
def CmdState.init : CmdState where
  server := .idle
  pc := .entering
  trees := []
  deleted := []
  jsonRoot := none
  cmdMsg := ⟨0, .v4l2, 0, none⟩
  cmdMsgReceived := false

/-- `tcp_recv_thread` in front of the message queue. -/
def cmdSystem : TransitionSystem CmdState CmdAction := ⟨.init, cmdStep⟩

/-! ### What a step can do -/

/-- Everything a step can do to a state. -/
inductive CmdStep (s : CmdState) : CmdAction → CmdState → Prop
  | startWait (hpc : s.pc = .entering) : CmdStep s .startWait { s with pc := .waiting }
  | leaveWait (hpc : s.pc = .waiting) (hflag : s.cmdMsgReceived = false) :
      CmdStep s .leaveWait { s with pc := .reading }
  | forceClear (hpc : s.pc = .waiting) (hflag : s.cmdMsgReceived = true) :
      CmdStep s .forceClear { s with cmdMsgReceived := false, pc := .forced }
  | forceDelete (hpc : s.pc = .forced) : CmdStep s .forceDelete { s.deleteRoot with pc := .reading }
  | skipFrame (hpc : s.pc = .reading) : CmdStep s .skipFrame { s with pc := .entering }
  | parse (json : Option JsonRoot) (hpc : s.pc = .reading) :
      CmdStep s (.parse json) (cmdDeliverParse s json)
  | fill (tree : ℕ) (hpc : s.pc = .parsed tree) : CmdStep s .fill (cmdDeliverFill s tree)
  | route (tree : ℕ) (hpc : s.pc = .filled tree) : CmdStep s .route (cmdDeliverRoute s tree)
  | dispatch (c : Command) (server : Server CmdItem maxMsgQueueSize) (hpc : s.pc = .dispatching c)
      (hserver : s.server.step (.arrive (.command c)) = some server) :
      CmdStep s .dispatch { s with server := server, pc := .marking }
  | refused (c : Command) (hpc : s.pc = .dispatching c)
      (hserver : s.server.step (.arrive (.command c)) = none) :
      CmdStep s .dispatch { s with pc := .refused }
  | releaseRefused (hpc : s.pc = .refused) :
      CmdStep s .releaseRefused { tcpRecvCmdProcessed s with pc := .marking }
  | mark (hpc : s.pc = .marking) : CmdStep s .mark { s with cmdMsgReceived := true, pc := .entering }
  | send (msg : CommonMsg) (server : Server CmdItem maxMsgQueueSize)
      (hserver : s.server.step (.arrive (.other msg)) = some server) :
      CmdStep s (.otherSend msg) { s with server := server }
  | sendRefused (msg : CommonMsg) : CmdStep s (.otherSend msg) s
  | deliver (a : CmdAction) (b : Server.Action CmdItem) (server : Server CmdItem maxMsgQueueSize)
      (hserver : s.server.step b = some server) (hlive : server.live = s.server.live)
      (ha : a = .receive ∨ a = .handle ∨ a = .handlerReturn) : CmdStep s a { s with server := server }
  | releaseCommand (c : Command) (server : Server CmdItem maxMsgQueueSize)
      (hserver : s.server.step .leave = some server)
      (hlive : s.server.live = .command c :: server.live) :
      CmdStep s .release (tcpRecvCmdProcessed { s with server := server })
  | releaseOther (msg : CommonMsg) (server : Server CmdItem maxMsgQueueSize)
      (hserver : s.server.step .leave = some server)
      (hlive : s.server.live = .other msg :: server.live) :
      CmdStep s .release { s with server := server }

theorem cmdStep_cases {s t : CmdState} {a : CmdAction} (h : cmdStep s a = some t) :
    CmdStep s a t := by
  cases a with
  | startWait =>
    simp only [cmdStep] at h
    split_ifs at h with hpc
    rw [Option.some_inj] at h
    exact h ▸ .startWait hpc
  | leaveWait =>
    simp only [cmdStep] at h
    split_ifs at h with hpc
    rw [Option.some_inj] at h
    exact h ▸ .leaveWait hpc.1 hpc.2
  | forceClear =>
    simp only [cmdStep] at h
    split_ifs at h with hpc
    rw [Option.some_inj] at h
    exact h ▸ .forceClear hpc.1 hpc.2
  | forceDelete =>
    simp only [cmdStep] at h
    split_ifs at h with hpc
    rw [Option.some_inj] at h
    exact h ▸ .forceDelete hpc
  | skipFrame =>
    simp only [cmdStep] at h
    split_ifs at h with hpc
    rw [Option.some_inj] at h
    exact h ▸ .skipFrame hpc
  | parse json =>
    simp only [cmdStep] at h
    split_ifs at h with hpc
    rw [Option.some_inj] at h
    exact h ▸ .parse json hpc
  | fill =>
    simp only [cmdStep] at h
    split at h
    · next tree hpc =>
      rw [Option.some_inj] at h
      exact h ▸ .fill tree hpc
    · simp at h
  | route =>
    simp only [cmdStep] at h
    split at h
    · next tree hpc =>
      rw [Option.some_inj] at h
      exact h ▸ .route tree hpc
    · simp at h
  | dispatch =>
    simp only [cmdStep] at h
    split at h
    · next c hpc =>
      split at h
      · next server hserver =>
        rw [Option.some_inj] at h
        exact h ▸ .dispatch c server hpc hserver
      · next hserver =>
        rw [Option.some_inj] at h
        exact h ▸ .refused c hpc hserver
    · simp at h
  | releaseRefused =>
    simp only [cmdStep] at h
    split_ifs at h with hpc
    rw [Option.some_inj] at h
    exact h ▸ .releaseRefused hpc
  | mark =>
    simp only [cmdStep] at h
    split_ifs at h with hpc
    rw [Option.some_inj] at h
    exact h ▸ .mark hpc
  | otherSend msg =>
    simp only [cmdStep] at h
    split_ifs at h with hmsg
    split at h
    · next server hserver =>
      rw [Option.some_inj] at h
      exact h ▸ .send msg server hserver
    · rw [Option.some_inj] at h
      exact h ▸ .sendRefused msg
  | receive =>
    simp only [cmdStep, Option.map_eq_some_iff] at h
    obtain ⟨server, hserver, rfl⟩ := h
    exact .deliver _ .fetch server hserver (Server.live_step hserver) (by simp)
  | handle =>
    simp only [cmdStep, Option.map_eq_some_iff] at h
    obtain ⟨server, hserver, rfl⟩ := h
    exact .deliver _ .serve server hserver (Server.live_step hserver) (by simp)
  | handlerReturn =>
    simp only [cmdStep, Option.map_eq_some_iff] at h
    obtain ⟨server, hserver, rfl⟩ := h
    exact .deliver _ .finish server hserver (Server.live_step hserver) (by simp)
  | release =>
    simp only [cmdStep, Option.map_eq_some_iff] at h
    obtain ⟨server, hserver, rfl⟩ := h
    obtain ⟨x, hc, hlive⟩ := Server.live_step hserver
    rw [hc]
    cases x with
    | command c => exact .releaseCommand c server hserver hlive
    | other msg => exact .releaseOther msg server hserver hlive

section DeleteRoot

variable (s : CmdState)

@[simp] theorem server_deleteRoot : s.deleteRoot.server = s.server := by
  rw [CmdState.deleteRoot]
  split <;> rfl

@[simp] theorem pc_deleteRoot : s.deleteRoot.pc = s.pc := by
  rw [CmdState.deleteRoot]
  split <;> rfl

@[simp] theorem trees_deleteRoot : s.deleteRoot.trees = s.trees := by
  rw [CmdState.deleteRoot]
  split <;> rfl

@[simp] theorem cmdMsg_deleteRoot : s.deleteRoot.cmdMsg = s.cmdMsg := by
  rw [CmdState.deleteRoot]
  split <;> rfl

@[simp] theorem cmdMsgReceived_deleteRoot : s.deleteRoot.cmdMsgReceived = s.cmdMsgReceived := by
  rw [CmdState.deleteRoot]
  split <;> rfl

end DeleteRoot

theorem server_cmdDeliverParse (s : CmdState) (json : Option JsonRoot) :
    (cmdDeliverParse s json).server = s.server := by
  cases json <;> rfl

theorem server_cmdDeliverFill (s : CmdState) (tree : ℕ) :
    (cmdDeliverFill s tree).server = s.server := by
  rw [cmdDeliverFill]
  split_ifs
  · simp
  · split <;> simp

theorem server_cmdDeliverRoute (s : CmdState) (tree : ℕ) :
    (cmdDeliverRoute s tree).server = s.server := by
  rw [cmdDeliverRoute]
  split
  · simp
  · split_ifs <;> simp

@[simp] theorem server_tcpRecvCmdProcessed (s : CmdState) :
    (tcpRecvCmdProcessed s).server = s.server :=
  server_deleteRoot s

/-- The deliver thread is that of the bounded server. -/
theorem cmdServer_reachable {good : CmdState → CmdAction → Prop} {s : CmdState}
    (hs : cmdSystem.Via good s) : (Server.system CmdItem maxMsgQueueSize).Reachable s.server := by
  refine TransitionSystem.Via.map CmdState.server rfl ?_ hs
  intro s a t _ _ ht
  cases cmdStep_cases ht with
  | dispatch c server hpc hserver => exact .inr ⟨.arrive (.command c), trivial, hserver⟩
  | send msg server hserver => exact .inr ⟨.arrive (.other msg), trivial, hserver⟩
  | deliver a b server hserver => exact .inr ⟨b, trivial, hserver⟩
  | releaseCommand c server hserver =>
    refine .inr ⟨.leave, trivial, ?_⟩
    rw [server_tcpRecvCmdProcessed]
    exact hserver
  | releaseOther msg server hserver => exact .inr ⟨.leave, trivial, hserver⟩
  | parse json hpc => exact .inl (server_cmdDeliverParse s json)
  | fill tree hpc => exact .inl (server_cmdDeliverFill s tree)
  | route tree hpc => exact .inl (server_cmdDeliverRoute s tree)
  | forceDelete => exact .inl (by simp)
  | releaseRefused => exact .inl (by simp)
  | _ => exact .inl rfl

/-! ### Flow control -/

/-- The command of an item. -/
def CmdItem.command? : CmdItem → Option Command
  | command c => some c
  | other _ => none

/-- The commands queued or being handled. -/
def commands (s : CmdState) : List Command := s.server.live.filterMap CmdItem.command?

theorem commands_eq {s t : CmdState} (h : t.server.live = s.server.live) :
    commands t = commands s := by
  rw [commands, commands, h]

/-- Where `tcp_recv_mark_cmd_sent` comes next, whatever the other threads do. -/
def RecvPc.marks : RecvPc → Bool
  | refused => true
  | marking => true
  | _ => false

/-- The condition on the steps, unless an older command is still there after a forced
release: what is marked as sent is of type 0 or 1, finds room on the queue, and is not
released before the mark. -/
def SendsCommand (s : CmdState) : CmdAction → Prop
  | .route => moduleOf (jsonGetIntDef s.root "mod" (-1)) ≠ none →
    (s.cmdMsg.type = 0 ∨ s.cmdMsg.type = 1) ∨ commands s ≠ []
  | .dispatch => s.server.queue.items.length < maxMsgQueueSize ∨ commands s ≠ []
  | .release => s.pc.marks = true →
    ∀ phase c, s.server.current = some (phase, .command c) → 1 < (commands s).length
  | _ => True

/-- Where the flag is set, or will be set next, a command is queued or being handled. -/
structure FlagInv (s : CmdState) : Prop where
  flag : s.cmdMsgReceived = true → commands s ≠ []
  marks : s.pc.marks = true → commands s ≠ []

theorem cmdMsgReceived_cmdDeliverFill (s : CmdState) (tree : ℕ) :
    (cmdDeliverFill s tree).cmdMsgReceived = s.cmdMsgReceived := by
  rw [cmdDeliverFill]
  split_ifs
  · simp
  · split <;> simp

theorem cmdMsgReceived_cmdDeliverRoute (s : CmdState) (tree : ℕ) :
    (cmdDeliverRoute s tree).cmdMsgReceived = s.cmdMsgReceived := by
  rw [cmdDeliverRoute]
  split
  · simp
  · split_ifs <;> simp

/-- Nothing changes for the commands, and no mark comes closer. -/
theorem FlagInv.keep {s t : CmdState} (h : FlagInv s)
    (hflag : t.cmdMsgReceived = true → s.cmdMsgReceived = true)
    (hmarks : t.pc.marks = true → s.pc.marks = true) (hcommands : commands t = commands s) :
    FlagInv t := by
  constructor
  · rw [hcommands]
    exact fun ht => h.flag (hflag ht)
  · rw [hcommands]
    exact fun ht => h.marks (hmarks ht)

/-- There is a command, whatever becomes of the flag. -/
theorem FlagInv.of_commands {t : CmdState} (h : commands t ≠ []) : FlagInv t :=
  ⟨fun _ => h, fun _ => h⟩

theorem commands_send {s : CmdState} {server : Server CmdItem maxMsgQueueSize} {x : CmdItem}
    (h : s.server.step (.arrive x) = some server) :
    commands { s with server := server } = commands s ++ [x].filterMap CmdItem.command? := by
  rw [commands, show server.live = s.server.live ++ [x] from Server.live_step h,
    List.filterMap_append]
  rfl

/-- The command that is released was the first. -/
theorem commands_release {s : CmdState} {server : Server CmdItem maxMsgQueueSize} {c : Command}
    (h : s.server.live = .command c :: server.live) :
    commands s = c :: commands { s with server := server } := by
  rw [commands, h]
  rfl

theorem marks_cmdDeliverFill (s : CmdState) (tree : ℕ) :
    (cmdDeliverFill s tree).pc.marks = false := by
  rw [cmdDeliverFill]
  split_ifs
  · rfl
  · split <;> rfl

/-- A mark comes behind the switch only where there is a module and no type for it. -/
theorem marks_cmdDeliverRoute {s : CmdState} {tree : ℕ} :
    (cmdDeliverRoute s tree).pc.marks = true ↔
      moduleOf (jsonGetIntDef s.root "mod" (-1)) ≠ none ∧
        ¬ (s.cmdMsg.type = 0 ∨ s.cmdMsg.type = 1) := by
  rw [cmdDeliverRoute]
  split
  · next hmod => simp [hmod, RecvPc.marks]
  · next moduleId hmod =>
    split_ifs with htype
    · simp [hmod, htype, RecvPc.marks]
    · simp [hmod, htype, RecvPc.marks]

/-- An arrival is refused exactly by a full queue. -/
theorem arrive_eq_none {server : Server CmdItem maxMsgQueueSize} {x : CmdItem} :
    server.step (.arrive x) = none ↔ ¬ server.queue.items.length < maxMsgQueueSize := by
  rw [Server.step, Option.map_eq_none_iff, BoundedFifo.enqueue]
  split_ifs with hroom
  · simp [hroom]
  · simp [hroom]

theorem FlagInv.step {s t : CmdState} {a : CmdAction} (h : FlagInv s) (hgood : SendsCommand s a)
    (ht : CmdStep s a t) : FlagInv t := by
  cases ht with
  | startWait => exact h.keep id (fun hm => by cases hm) rfl
  | leaveWait => exact h.keep id (fun hm => by cases hm) rfl
  | forceClear => exact h.keep (fun hf => by cases hf) (fun hm => by cases hm) rfl
  | forceDelete =>
    exact h.keep (by simp) (fun hm => by cases hm) (commands_eq (by simp))
  | skipFrame => exact h.keep id (fun hm => by cases hm) rfl
  | parse json =>
    refine h.keep ?_ ?_ (commands_eq (by rw [server_cmdDeliverParse]))
    · cases json <;> exact id
    · cases json <;> exact fun hm => by cases hm
  | fill tree =>
    refine h.keep ?_ ?_ (commands_eq (by rw [server_cmdDeliverFill]))
    · rw [cmdMsgReceived_cmdDeliverFill]
      exact id
    · rw [marks_cmdDeliverFill]
      exact fun hm => by cases hm
  | route tree =>
    have hcommands : commands (cmdDeliverRoute s tree) = commands s :=
      commands_eq (by rw [server_cmdDeliverRoute])
    refine ⟨?_, fun hmarks => ?_⟩
    · rw [cmdMsgReceived_cmdDeliverRoute, hcommands]
      exact h.flag
    · obtain ⟨hmod, htype⟩ := marks_cmdDeliverRoute.mp hmarks
      rw [hcommands]
      exact (hgood hmod).resolve_left htype
  | dispatch c server hpc hserver =>
    refine .of_commands ?_
    have hone : commands { s with server := server } = commands s ++ [c] := commands_send hserver
    exact hone ▸ List.append_ne_nil_of_right_ne_nil _ (List.cons_ne_nil c [])
  | refused c hpc hserver =>
    -- the queue is full, so an older command is there
    exact .of_commands (hgood.resolve_left (arrive_eq_none.mp hserver))
  | releaseRefused hpc =>
    have hcommands : commands s ≠ [] := h.marks (by rw [hpc]; rfl)
    refine .of_commands ?_
    rwa [commands_eq (s := s) (by simp)]
  | mark hpc => exact .of_commands (h.marks (by rw [hpc]; rfl))
  | send msg server hserver =>
    have hcommands : commands { s with server := server } = commands s :=
      (commands_send hserver).trans (List.append_nil _)
    exact h.keep id id hcommands
  | sendRefused msg => exact h
  | deliver a b server hserver hlive => exact h.keep id id (commands_eq hlive)
  | releaseCommand c server hserver hlive =>
    have hcons := commands_release hlive
    refine ⟨(fun hflag => by cases hflag), fun hmarks => ?_⟩
    have hmarks' : s.pc.marks = true := by simpa [tcpRecvCmdProcessed] using hmarks
    obtain ⟨x, hc, hlive'⟩ := Server.live_step hserver
    obtain rfl : CmdItem.command c = x := (List.cons.inj (hlive.symm.trans hlive')).1
    -- it is not the last one
    have htwo := hgood hmarks' _ c hc
    rw [hcons, List.length_cons] at htwo
    rw [commands_eq (s := { s with server := server }) (by simp)]
    exact List.ne_nil_of_length_pos (Nat.lt_of_succ_lt_succ htwo)
  | releaseOther msg server hserver hlive =>
    refine h.keep id id ?_
    rw [commands, commands, hlive, List.filterMap_cons_none rfl]

/-- The law of flow control: a wait that starts with the flag set waits for a command that
is queued or being handled. -/
def FlowControl (s : CmdState) : Prop :=
  s.pc = .entering → s.cmdMsgReceived = true → ∃ c, CmdItem.command c ∈ s.server.live

/-- **Flow control never waits for nothing** in a run in which every command that is marked
is of type 0 or 1, finds room on the queue and is not released before the mark. -/
theorem flowControl {s : CmdState} (hs : cmdSystem.Via SendsCommand s) : FlowControl s := by
  intro _ hflag
  have hinv : FlagInv s := by
    refine hs.invariant ⟨(fun h => by cases h), (fun h => by cases h)⟩ ?_
    exact fun _ _ _ h hgood ht => h.step hgood (cmdStep_cases ht)
  obtain ⟨c, hc⟩ := List.exists_mem_of_ne_nil _ (hinv.flag hflag)
  obtain ⟨x, hx, hxc⟩ := List.mem_filterMap.mp hc
  cases x with
  | command c' => exact ⟨c', hx⟩
  | other msg => simp [CmdItem.command?] at hxc

theorem not_flowControl_of_commands {s : CmdState} (hpc : s.pc = .entering)
    (hflag : s.cmdMsgReceived = true) (h : commands s = []) : ¬ FlowControl s := by
  intro hflow
  obtain ⟨c, hc⟩ := hflow hpc hflag
  exact List.not_mem_nil (h ▸ List.mem_filterMap.mpr ⟨.command c, hc, rfl⟩ : c ∈ [])

/-- Without a command, `tcp_recv_thread` goes on to a wait for nothing. -/
theorem not_flowControl_of_marks {s : CmdState} (hmarks : s.pc.marks = true)
    (h : commands s = []) :
    ∃ run t, (run = [.mark] ∨ run = [.releaseRefused, .mark]) ∧ cmdSystem.run s run = some t ∧
      ¬ FlowControl t := by
  cases hpc : s.pc with
  | marking =>
    have hmark : cmdStep s .mark = some { s with cmdMsgReceived := true, pc := .entering } := by
      simp [cmdStep, hpc]
    refine ⟨_, { s with cmdMsgReceived := true, pc := .entering }, .inl rfl, ?_,
      not_flowControl_of_commands rfl rfl h⟩
    exact TransitionSystem.run_cons_of_step hmark []
  | refused =>
    have hrelease : cmdStep s .releaseRefused =
        some { tcpRecvCmdProcessed s with pc := .marking } := by
      simp [cmdStep, hpc]
    refine ⟨_, { tcpRecvCmdProcessed s with cmdMsgReceived := true, pc := .entering }, .inr rfl,
      ?_, not_flowControl_of_commands rfl rfl ?_⟩
    · rw [TransitionSystem.run_cons_of_step hrelease]
      rfl
    · rw [← h]
      exact commands_eq (by simp)
  | _ => simp [hpc, RecvPc.marks] at hmarks

/-- The condition is exact: behind a step against it, `tcp_recv_thread` alone goes on to a wait
for nothing. -/
theorem not_flowControl_of_step {s t : CmdState} {a : CmdAction} (ht : cmdStep s a = some t)
    (hbad : ¬ SendsCommand s a) :
    ∃ run u, (run = [.mark] ∨ run = [.releaseRefused, .mark]) ∧ cmdSystem.run t run = some u ∧
      ¬ FlowControl u := by
  cases cmdStep_cases ht with
  | route tree hpc =>
    simp only [SendsCommand, not_forall, not_or, not_not] at hbad
    obtain ⟨hmod, htype, hnone⟩ := hbad
    refine not_flowControl_of_marks (marks_cmdDeliverRoute.mpr ⟨hmod, not_or.mpr htype⟩) ?_
    rw [← hnone]
    exact commands_eq (by rw [server_cmdDeliverRoute])
  | dispatch c server hpc hserver =>
    have hroom : s.server.queue.items.length < maxMsgQueueSize := by
      by_contra hfull
      rw [arrive_eq_none.mpr hfull] at hserver
      cases hserver
    exact absurd (.inl hroom) hbad
  | refused c hpc hserver =>
    simp only [SendsCommand, not_or, not_not] at hbad
    exact not_flowControl_of_marks rfl hbad.2
  | releaseCommand c server hserver hlive =>
    simp only [SendsCommand, not_forall] at hbad
    obtain ⟨hmarks, phase, c', -, hone⟩ := hbad
    refine not_flowControl_of_marks (by simpa [tcpRecvCmdProcessed] using hmarks) ?_
    rw [commands_release hlive, List.length_cons] at hone
    rw [commands_eq (s := { s with server := server }) (by simp)]
    exact List.eq_nil_of_length_eq_zero (by omega)
  | releaseOther msg server hserver hlive =>
    simp only [SendsCommand, not_forall] at hbad
    obtain ⟨-, phase, c, hc, -⟩ := hbad
    obtain ⟨x, hc', hlive'⟩ := Server.live_step hserver
    obtain rfl := (List.cons.inj (hlive.symm.trans hlive')).1
    rw [hc] at hc'
    simp at hc'
  | deliver a b server hserver hlive ha =>
    rcases ha with rfl | rfl | rfl
    all_goals exact absurd trivial hbad
  | _ => exact absurd trivial hbad

/-- A query for the files, as the host sends it. -/
def queryFiles : JsonRoot :=
  [("ver", .number 0), ("mod", .number 7), ("cmd", .number 513), ("type", .number 1), ("param", .null)]

/-- The query is parsed, dispatched and marked. -/
def queryRun : List CmdAction :=
  [.startWait, .leaveWait, .parse (some queryFiles), .fill, .route, .dispatch, .mark]

theorem flowControl_query : ∃ s, cmdSystem.run .init queryRun = some s ∧ s.pc = .entering ∧
    s.cmdMsgReceived = true ∧ FlowControl s := by
  refine ⟨_, rfl, rfl, rfl, flowControl ?_⟩
  refine .step (a := .mark) (.step (a := .dispatch) (.step (a := .route) (.step (a := .fill)
    (.step (a := .parse (some queryFiles)) (.step (a := .leaveWait) (.step (a := .startWait)
      .init trivial rfl) trivial rfl) trivial rfl) trivial rfl) ?_ rfl) ?_ rfl) trivial rfl
  · -- a query for a module
    exact fun _ => .inl (.inr rfl)
  · -- on an empty queue
    exact .inl (by decide)

/-- An upload command: it is dropped, and marked as sent. -/
def uploadRun : List CmdAction :=
  [.startWait, .leaveWait,
    .parse (some [("ver", .number 0), ("mod", .number 3), ("cmd", .number 769), ("type", .number 2)]),
    .fill, .route, .mark]

/-- The thread now waits two seconds for a release that will not come. -/
theorem not_flowControl_upload : ∃ s, cmdSystem.run .init uploadRun = some s ∧ ¬ FlowControl s := by
  refine ⟨_, rfl, ?_⟩
  intro h
  obtain ⟨c, hc⟩ := h rfl rfl
  exact absurd (show CmdItem.command c ∈ [] from hc) (by simp)

/-! ### The content of a command -/

/-- `cmd_msg` holds what `json_parse_command` makes of the command's own tree, which was not
deleted, and the destination is that of the tree. -/
def OwnContent (s : CmdState) (c : Command) : Prop :=
  ∃ items, s.trees[c.tree]? = some items ∧
    jsonParseCommand (some (c.tree, items)) = some s.cmdMsg ∧
    moduleOf (jsonGetIntDef (some (c.tree, items)) "mod" (-1)) = some c.dst ∧
    c.tree ∉ s.deleted

/-- The law of commands: what is put on the queue is handled once, in order, and while a
handler runs on a command, it finds the command's own content. -/
structure CommandLaw (s : CmdState) : Prop where
  once : s.server.Law
  own : ∀ c, s.server.current = some (.serving, .command c) → OwnContent s c

/-- The condition on the steps: no wait is given up while a command is queued or being
handled. -/
def WaitsForCommand (s : CmdState) : CmdAction → Prop
  | .forceClear => commands s = []
  | _ => True

/-- What `cmd_deliver` knows of the tree it works on. -/
def TreeInv (s : CmdState) : Prop :=
  match s.pc with
  | .parsed tree => s.jsonRoot = some tree ∧ tree ∉ s.deleted ∧ tree < s.trees.length
  | .filled tree => s.jsonRoot = some tree ∧ tree ∉ s.deleted ∧
      ∃ items, s.trees[tree]? = some items ∧
        jsonParseCommand (some (tree, items)) = some s.cmdMsg
  | .dispatching c => s.jsonRoot = some c.tree ∧ OwnContent s c
  | _ => True

/-- The places where `tcp_recv_thread` leaves the command on its way alone. -/
def RecvPc.awaits : RecvPc → Bool
  | entering => true
  | waiting => true
  | marking => true
  | _ => false

/-- Trees that exist. -/
structure TreesInv (s : CmdState) : Prop where
  deleted_lt : ∀ tree ∈ s.deleted, tree < s.trees.length
  root_lt : ∀ tree, s.jsonRoot = some tree → tree < s.trees.length

/-- One command at a time, and the flag is set while there is one. -/
structure FlowInv (s : CmdState) : Prop where
  trees : TreesInv s
  tree : TreeInv s
  one : commands s = [] ∨ (s.pc.awaits = true ∧ (s.cmdMsgReceived = true ∨ s.pc = .marking) ∧
    ∃ c, commands s = [c] ∧ OwnContent s c)

/-- Nothing is in flight where the thread works on a new command. -/
theorem FlowInv.idle {s : CmdState} (h : FlowInv s) (hpc : s.pc.awaits = false) :
    commands s = [] :=
  h.one.resolve_right fun hone => by simp [hpc] at hone

theorem treeInv_of_awaits {s : CmdState} (h : s.pc.awaits = true) : TreeInv s := by
  rw [TreeInv]
  split <;> first | trivial | simp_all [RecvPc.awaits]

theorem TreesInv.deleteRoot {s : CmdState} (h : TreesInv s) : TreesInv s.deleteRoot := by
  rw [CmdState.deleteRoot]
  split
  · exact h
  · next tree hroot =>
    refine ⟨fun tree' htree' => ?_, fun _ hnone => by simp at hnone⟩
    rw [List.mem_append, List.mem_singleton] at htree'
    rcases htree' with htree' | rfl
    · exact h.deleted_lt tree' htree'
    · exact h.root_lt tree' hroot

/-- The thread gives the tree up. -/
theorem FlowInv.drop {s : CmdState} {pc : RecvPc} (h : FlowInv s) (hidle : commands s = [])
    (htree : ∀ u : CmdState, u.pc = pc → TreeInv u) : FlowInv { s.deleteRoot with pc := pc } := by
  refine ⟨⟨h.trees.deleteRoot.deleted_lt, h.trees.deleteRoot.root_lt⟩, htree _ rfl, .inl ?_⟩
  rw [← hidle]
  exact commands_eq (by simp)

theorem FlowInv.fill {s : CmdState} {tree : ℕ} (h : FlowInv s) (hpc : s.pc = .parsed tree) :
    FlowInv (cmdDeliverFill s tree) := by
  have hidle : commands s = [] := h.idle (by rw [hpc]; rfl)
  have htree := h.tree
  rw [TreeInv, hpc] at htree
  obtain ⟨hroot, hdel, hlt⟩ := htree
  -- `json_root` is still the tree just parsed
  have hs : s.root = some (tree, s.trees[tree]) := by
    rw [CmdState.root, hroot, Option.bind_some, List.getElem?_eq_getElem hlt, Option.map_some]
  have hgive : FlowInv { s.deleteRoot with pc := .entering } :=
    h.drop hidle fun u hu => treeInv_of_awaits (by rw [hu]; rfl)
  rw [cmdDeliverFill]
  split_ifs
  · exact hgive
  · split
    · exact hgive
    · next cmdMsg hparse =>
      rw [hs] at hparse
      exact ⟨⟨h.trees.deleted_lt, h.trees.root_lt⟩,
        ⟨hroot, hdel, _, List.getElem?_eq_getElem hlt, hparse⟩, .inl hidle⟩

theorem FlowInv.route {s : CmdState} {tree : ℕ} (h : FlowInv s) (hpc : s.pc = .filled tree) :
    FlowInv (cmdDeliverRoute s tree) := by
  have hidle : commands s = [] := h.idle (by rw [hpc]; rfl)
  have htree := h.tree
  rw [TreeInv, hpc] at htree
  obtain ⟨hroot, hdel, items, hitems, hparse⟩ := htree
  have hs : s.root = some (tree, items) := by
    rw [CmdState.root, hroot, Option.bind_some, hitems, Option.map_some]
  rw [cmdDeliverRoute]
  split
  · exact h.drop hidle fun u hu => treeInv_of_awaits (by rw [hu]; rfl)
  · next moduleId hmod =>
    rw [hs] at hmod
    split_ifs
    · exact ⟨⟨h.trees.deleted_lt, h.trees.root_lt⟩,
        ⟨hroot, items, hitems, hparse, hmod, hdel⟩, .inl hidle⟩
    · exact h.drop hidle fun u hu => treeInv_of_awaits (by rw [hu]; rfl)

theorem FlowInv.parse {s : CmdState} (h : FlowInv s) (hpc : s.pc = .reading)
    (json : Option JsonRoot) : FlowInv (cmdDeliverParse s json) := by
  have hidle : commands s = [] := h.idle (by rw [hpc]; rfl)
  cases json with
  | none => exact ⟨⟨h.trees.deleted_lt, fun _ hnone => by simp [cmdDeliverParse] at hnone⟩, trivial, .inl hidle⟩
  | some items =>
    have hlen : (s.trees ++ [items]).length = s.trees.length + 1 := List.length_append
    refine ⟨⟨fun tree htree => ?_, fun tree htree => ?_⟩, ⟨rfl, fun hmem => ?_, ?_⟩, .inl hidle⟩
    · have hlt := h.trees.deleted_lt tree htree
      show tree < (s.trees ++ [items]).length
      omega
    · obtain rfl : s.trees.length = tree := Option.some_inj.mp htree
      show s.trees.length < (s.trees ++ [items]).length
      omega
    · exact absurd (h.trees.deleted_lt _ hmem) (lt_irrefl _)
    · show s.trees.length < (s.trees ++ [items]).length
      omega

/-- The thread goes on to another place where it leaves the command alone. -/
theorem FlowInv.await {s : CmdState} (h : FlowInv s) {pc : RecvPc} {flag : Bool}
    (hpc : pc.awaits = true)
    (hflag : s.cmdMsgReceived = true ∨ s.pc = .marking → flag = true ∨ pc = .marking) :
    FlowInv { s with pc := pc, cmdMsgReceived := flag } := by
  refine ⟨⟨h.trees.deleted_lt, h.trees.root_lt⟩, treeInv_of_awaits hpc, ?_⟩
  rcases h.one with hidle | ⟨-, hset, c, hc, hown⟩
  · exact .inl hidle
  · exact .inr ⟨hpc, hflag hset, c, hc, hown⟩

/-- The queue moves, but no command arrives or leaves. -/
theorem FlowInv.serve {s : CmdState} (h : FlowInv s) {server : Server CmdItem maxMsgQueueSize}
    (hcommands : commands { s with server := server } = commands s) :
    FlowInv { s with server := server } := by
  refine ⟨⟨h.trees.deleted_lt, h.trees.root_lt⟩, h.tree, ?_⟩
  rw [hcommands]
  exact h.one

theorem FlowInv.step {s t : CmdState} {a : CmdAction} (h : FlowInv s)
    (hgood : WaitsForCommand s a) (ht : CmdStep s a t) : FlowInv t := by
  have htrees : TreesInv s := h.trees
  cases ht with
  | startWait hpc => exact h.await rfl fun hset => by simpa [hpc] using hset
  | leaveWait hpc hflag =>
    refine ⟨⟨htrees.deleted_lt, htrees.root_lt⟩, trivial, .inl ?_⟩
    -- a command in flight would have the flag set
    refine h.one.resolve_right ?_
    rintro ⟨-, hset, -⟩
    simp [hpc, hflag] at hset
  | forceClear hpc hflag => exact ⟨⟨htrees.deleted_lt, htrees.root_lt⟩, trivial, .inl hgood⟩
  | forceDelete hpc =>
    exact h.drop (h.idle (by rw [hpc]; rfl)) fun u hu => by rw [TreeInv, hu]; trivial
  | skipFrame hpc =>
    exact ⟨⟨htrees.deleted_lt, htrees.root_lt⟩, trivial, .inl (h.idle (by rw [hpc]; rfl))⟩
  | parse json hpc => exact h.parse hpc json
  | fill tree hpc => exact h.fill hpc
  | route tree hpc => exact h.route hpc
  | dispatch c server hpc hserver =>
    have htree := h.tree
    rw [TreeInv, hpc] at htree
    -- nothing was in flight, so now there is one command
    have hone : commands { s with server := server } = [c] := by
      rw [commands_send hserver, h.idle (by rw [hpc]; rfl)]
      rfl
    exact ⟨⟨htrees.deleted_lt, htrees.root_lt⟩, trivial, .inr ⟨rfl, .inr rfl, c, hone, htree.2⟩⟩
  | refused c hpc hserver =>
    exact ⟨⟨htrees.deleted_lt, htrees.root_lt⟩, trivial, .inl (h.idle (by rw [hpc]; rfl))⟩
  | releaseRefused hpc =>
    have hidle : commands s = [] := h.idle (by rw [hpc]; rfl)
    refine ⟨⟨htrees.deleteRoot.deleted_lt, htrees.deleteRoot.root_lt⟩, trivial, .inl ?_⟩
    rw [← hidle]
    exact commands_eq (by simp)
  | mark hpc => exact h.await rfl fun _ => .inl rfl
  | send msg server hserver =>
    refine h.serve ?_
    rw [commands_send hserver]
    exact List.append_nil _
  | sendRefused msg => exact h
  | deliver a b server hserver hlive ha => exact h.serve (commands_eq hlive)
  | releaseCommand c server hserver hlive =>
    have hcons : commands s = c :: commands { s with server := server } := by
      rw [commands, hlive]
      rfl
    -- it was the only one, and the thread is waiting for it
    obtain ⟨hpc, -, c', hc', -⟩ := h.one.resolve_left (by simp [hcons])
    have hidle : commands { s with server := server } = [] := by
      rw [hcons] at hc'
      exact (List.cons.inj hc').2
    have hdel : TreesInv ({ s with server := server } : CmdState).deleteRoot :=
      TreesInv.deleteRoot ⟨htrees.deleted_lt, htrees.root_lt⟩
    refine ⟨⟨hdel.deleted_lt, hdel.root_lt⟩, treeInv_of_awaits ?_, .inl ?_⟩
    · simpa [tcpRecvCmdProcessed] using hpc
    · rw [← hidle]
      exact commands_eq (by simp)
  | releaseOther msg server hserver hlive =>
    refine h.serve ?_
    rw [commands, commands, hlive, List.filterMap_cons_none rfl]

/-- **Every command is handled once, in order, with its own content**, in every run in
which no wait is given up while a command is queued or being handled. -/
theorem commandLaw {s : CmdState} (hs : cmdSystem.Via WaitsForCommand s) : CommandLaw s := by
  have hinv : FlowInv s := by
    refine hs.invariant ?_ fun _ _ _ h hgood ht => h.step hgood (cmdStep_cases ht)
    exact ⟨⟨fun _ h => by simp [cmdSystem, CmdState.init] at h,
      fun _ h => by simp [cmdSystem, CmdState.init] at h⟩, trivial, .inl rfl⟩
  refine ⟨Server.law (cmdServer_reachable hs), ?_⟩
  intro c hc
  -- the command handled is the one in flight
  have hmem : c ∈ commands s := by
    refine List.mem_filterMap.mpr ⟨.command c, ?_, rfl⟩
    rw [Server.live, hc]
    exact List.mem_cons_self
  rcases hinv.one with hidle | ⟨-, -, c', hc', hown⟩
  · rw [hidle] at hmem
    simp at hmem
  · rw [hc', List.mem_singleton] at hmem
    exact hmem ▸ hown

/-- The query reaches its handler. -/
theorem commandLaw_query : ∃ s, cmdSystem.run .init (queryRun ++ [.receive, .handle]) = some s ∧
    s.server.current = some (.serving, .command ⟨.command, 0⟩) ∧ CommandLaw s := by
  refine ⟨_, rfl, rfl, commandLaw ?_⟩
  refine .step (a := .handle) (.step (a := .receive) (.step (a := .mark) (.step (a := .dispatch)
    (.step (a := .route) (.step (a := .fill) (.step (a := .parse (some queryFiles))
      (.step (a := .leaveWait) (.step (a := .startWait) .init trivial rfl) trivial rfl)
        trivial rfl) trivial rfl) trivial rfl) trivial rfl) trivial rfl) trivial rfl) trivial rfl

/-- The query is still queued when the wait is given up; the next command overwrites it. -/
def overwriteRun : List CmdAction :=
  queryRun ++ [.startWait, .forceClear, .forceDelete,
    .parse (some [("ver", .number 0), ("mod", .number 3), ("cmd", .number 769), ("type", .number 0)]),
    .fill, .receive, .handle]

/-- The handler of the query gets the other command. -/
theorem not_commandLaw_overwrite : ∃ s, cmdSystem.run .init overwriteRun = some s ∧
    s.server.current = some (.serving, .command ⟨.command, 0⟩) ∧ s.cmdMsg.cmd = 769 ∧
    ¬ CommandLaw s := by
  refine ⟨_, rfl, rfl, rfl, ?_⟩
  intro h
  obtain ⟨items, hitems, hparse, -⟩ := h.own ⟨.command, 0⟩ rfl
  obtain rfl : queryFiles = items := Option.some_inj.mp hitems
  exact absurd hparse (by decide)

end Sentry
