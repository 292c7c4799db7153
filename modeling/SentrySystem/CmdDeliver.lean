/-
The command grammar (`cmd_deliver` in `src/net/tcp_recv.c`, `src/json/json_about.c`).

`cmd_deliver` hands the payload to `cJSON_Parse`, checks the members of the object in three
places, and owns the tree it made until the command is dispatched.  `cJSON_Parse` is a
parameter: a function of the bytes in front of the first NUL.  The call runs by itself here;
`cmdDeliver_run` finds it among the runs in which other threads interleave.

* `cmdDeliver` — the call, with its calls of `msg_dispatch`;
* `IsCommand` — the members of a command;
* `cmdDeliver_command`, `cmdDeliver_reject` — a command is dispatched, anything else is dropped;
* `cmdDeliver_grammar` — both, in every state the thread calls it in.
-/
import SentrySystem.CmdFlow
import SentrySystem.MsgDeliver

namespace Sentry

/-! ### The code -/

/-- A call of `msg_dispatch`: a warning for the logger, or a MSG_TYPE_COMMAND with `cmd_msg` as
it is then. -/
inductive CmdDispatch
  | log (text : String)
  | command (dst : ModuleId) (cmdMsg : CommandMsg)
  deriving DecidableEq, Repr

/-- The state in a call of `cmd_deliver`, and the calls of `msg_dispatch` so far. -/
structure CmdCall where
  state : CmdState
  dispatches : List CmdDispatch

/-- The address of `log_msg`. -/
def tcpRecvLogAddr : ℕ := 3

/-- The message dispatched to the logger. -/
def tcpRecvLogMsg : CommonMsg :=
  ⟨.tcpRecv, .logger, UInt32.ofNat sizeofLogMsg, .log, .normal, .address tcpRecvLogAddr⟩

/-- The queue behind `msg_dispatch` of a MSG_TYPE_LOG; the release handler does nothing with it
when the queue is full. -/
def logged (server : Server CmdItem maxMsgQueueSize) : Server CmdItem maxMsgQueueSize :=
  (server.step (.arrive (.other tcpRecvLogMsg))).getD server

/-- `msg_dispatch` of a MSG_TYPE_LOG. -/
def CmdCall.dispatchLog (c : CmdCall) (text : String) : CmdCall where
  state := { c.state with server := logged c.state.server }
  dispatches := c.dispatches ++ [.log text]

/-- `msg_dispatch` of a MSG_TYPE_COMMAND; when the queue is full, the release handler is called
from `msg_send`. -/
def CmdCall.dispatchCommand (c : CmdCall) (dst : ModuleId) (tree : ℕ) : CmdCall where
  state :=
    match c.state.server.step (.arrive (.command ⟨dst, tree⟩)) with
    | some server => { c.state with server := server }
    | none => tcpRecvCmdProcessed c.state
  dispatches := c.dispatches ++ [.command dst c.state.cmdMsg]

/-- `cJSON_Delete` of `json_root`, which becomes null. -/
def CmdCall.deleteRoot (c : CmdCall) : CmdCall := { c with state := c.state.deleteRoot }

/-- `cmd_deliver`, where `tree` is what `cJSON_Parse` returned. -/
def cmdDeliverTree (s : CmdState) (tree : ℕ) : CmdCall :=
  if jsonGetIntDef s.root "ver" (-1) ≠ 0 then
    (CmdCall.dispatchLog ⟨s, []⟩ "bad ver in cmd json").deleteRoot
  else
    match jsonParseCommand s.root with
    | none => (CmdCall.deleteRoot ⟨s, []⟩).dispatchLog "parse cmd json failed"
    | some cmdMsg =>
      let c : CmdCall := ⟨{ s with cmdMsg := cmdMsg }, []⟩
      match moduleOf (jsonGetIntDef c.state.root "mod" (-1)) with
      | none => (c.dispatchLog "bad mod in cmd json").deleteRoot
      | some moduleId =>
        let c := if cmdMsg.type = 0 ∨ cmdMsg.type = 1 then c.dispatchCommand moduleId tree
          else c.deleteRoot
        -- `tcp_recv_mark_cmd_sent`
        { c with state := { c.state with cmdMsgReceived := true } }

/-- The tree made by `cJSON_Parse` is `json_root`. -/
def CmdState.withTree (s : CmdState) (items : JsonRoot) : CmdState :=
  { s with trees := s.trees ++ [items], jsonRoot := some s.trees.length }

/-- What `cJSON_Parse` sees of a payload, which ends with a terminator. -/
def cString (payload : List UInt8) : List UInt8 := payload.takeWhile fun byte => byte ≠ 0

/-- `cmd_deliver`. -/
def cmdDeliver (cJSONParse : List UInt8 → Option JsonRoot) (s : CmdState)
    (payload : List UInt8) : CmdCall :=
  if payload = [] then ⟨s, []⟩
  else
    match cJSONParse (cString payload) with
    | none => ⟨{ s with jsonRoot := none }, []⟩
    | some items => cmdDeliverTree (s.withTree items) s.trees.length

/-! ### The grammar -/

/-- The members of a command: numbers, in their ranges. -/
structure IsCommand (items : JsonRoot) (moduleId cmd type : ℤ) : Prop where
  ver_eq : items.lookup "ver" = some (.number 0)
  mod_eq : items.lookup "mod" = some (.number moduleId)
  cmd_eq : items.lookup "cmd" = some (.number cmd)
  type_eq : items.lookup "type" = some (.number type)
  module_range : 0 ≤ moduleId ∧ moduleId < 8
  type_range : type = 0 ∨ type = 1

/-- The `param` of a message: the first member "param" of the tree, unless that is absent or
null. -/
def paramOf (items : JsonRoot) (tree : ℕ) : Option ItemRef :=
  if items.lookup "param" = none ∨ items.lookup "param" = some .null then none
  else some ⟨tree, indexOfKey items "param"⟩

/-- The MSG_TYPE_COMMANDs dispatched in a call. -/
def CmdCall.commands (c : CmdCall) : List (ModuleId × CommandMsg) :=
  c.dispatches.filterMap fun d =>
    match d with
    | .log _ => none
    | .command dst cmdMsg => some (dst, cmdMsg)

/-- The first member of a name is the one that is looked up. -/
theorem getElem?_indexOfKey {items : JsonRoot} {key : String} {item : JsonItem}
    (h : items.lookup key = some item) : items[indexOfKey items key]? = some (key, item) := by
  induction items with
  | nil => cases h
  | cons m items ih =>
    obtain ⟨k, v⟩ := m
    rw [indexOfKey, List.findIdx_cons]
    rw [List.lookup_cons] at h
    by_cases hkey : key = k
    · rw [beq_iff_eq.mpr hkey] at h
      obtain rfl := Option.some_inj.mp h
      rw [hkey, beq_self_eq_true]
      rfl
    · rw [beq_eq_false_iff_ne.mpr hkey] at h
      rw [beq_eq_false_iff_ne.mpr (Ne.symm hkey)]
      exact ih h

/-- A `param` points to the member "param" of the tree, which is not null. -/
theorem paramOf_eq_some {items : JsonRoot} {tree : ℕ} {r : ItemRef}
    (h : paramOf items tree = some r) : r.tree = tree ∧ ∃ item, item ≠ .null ∧
      items.lookup "param" = some item ∧ items[r.index]? = some ("param", item) := by
  rw [paramOf] at h
  split_ifs at h with hno
  obtain rfl := Option.some_inj.mp h
  rw [not_or] at hno
  obtain ⟨item, hitem⟩ := Option.ne_none_iff_exists'.mp hno.1
  refine ⟨rfl, item, ?_, hitem, getElem?_indexOfKey hitem⟩
  rintro rfl
  exact hno.2 hitem

theorem moduleOf_eq_none {moduleId : ℤ} :
    moduleOf moduleId = none ↔ ¬ (0 ≤ moduleId ∧ moduleId < 8) := by
  rw [moduleOf]
  split_ifs with hneg
  · simp only [true_iff]
    omega
  · rw [List.getElem?_eq_none_iff]
    show 8 ≤ moduleId.toNat ↔ _
    omega

theorem root_withTree (s : CmdState) (items : JsonRoot) :
    (s.withTree items).root = some (s.trees.length, items) := by
  rw [CmdState.root, CmdState.withTree, Option.bind_some, List.getElem?_concat_length,
    Option.map_some]

theorem jsonGetIntDef_of_lookup {items : JsonRoot} {tree : ℕ} {key : String} {n : ℤ}
    (h : items.lookup key = some (.number n)) (d : ℤ) :
    jsonGetIntDef (some (tree, items)) key d = n := by
  simp only [jsonGetIntDef, h]

/-- The members of a command are what `json_parse_command` wants. -/
theorem jsonParseCommand_of_isCommand {items : JsonRoot} {moduleId cmd type : ℤ}
    (h : IsCommand items moduleId cmd type) (tree : ℕ) :
    jsonParseCommand (some (tree, items)) = some ⟨cmd, .tcpRecv, type, paramOf items tree⟩ := by
  simp only [jsonParseCommand, h.ver_eq, h.mod_eq, h.cmd_eq, h.type_eq, paramOf]
  rw [if_neg (by simp)]
  rcases items.lookup "param" with _ | _ | _ | _ <;> rfl

/-- What `json_parse_command` accepts has the members of a command, but for their ranges. -/
theorem lookup_of_jsonParseCommand {items : JsonRoot} {tree : ℕ} {cmdMsg : CommandMsg}
    (h : jsonParseCommand (some (tree, items)) = some cmdMsg) :
    items.lookup "ver" = some (.number 0) ∧ (∃ n, items.lookup "mod" = some (.number n)) ∧
      items.lookup "cmd" = some (.number cmdMsg.cmd) ∧
      items.lookup "type" = some (.number cmdMsg.type) := by
  simp only [jsonParseCommand] at h
  split at h
  · next ver n cmd type hver hmod hcmd htype =>
    split_ifs at h with hzero
    obtain rfl := Option.some_inj.mp h
    rw [not_not] at hzero
    exact ⟨hzero ▸ hver, ⟨n, hmod⟩, hcmd, htype⟩
  · cases h

/-! ### One call -/

@[simp] theorem jsonRoot_deleteRoot (s : CmdState) : s.deleteRoot.jsonRoot = none := by
  rw [CmdState.deleteRoot]
  split
  · assumption
  · rfl

theorem deleted_deleteRoot {s : CmdState} {tree : ℕ} (h : s.jsonRoot = some tree) :
    s.deleteRoot.deleted = s.deleted ++ [tree] := by
  rw [CmdState.deleteRoot, h]

@[simp] theorem commands_dispatchLog (c : CmdCall) (text : String) :
    (c.dispatchLog text).commands = c.commands := by
  simp [CmdCall.commands, CmdCall.dispatchLog]

@[simp] theorem trees_dispatchLog (c : CmdCall) (text : String) :
    (c.dispatchLog text).state.trees = c.state.trees := rfl

@[simp] theorem trees_callDeleteRoot (c : CmdCall) : c.deleteRoot.state.trees = c.state.trees :=
  trees_deleteRoot c.state

@[simp] theorem trees_dispatchCommand (c : CmdCall) (dst : ModuleId) (tree : ℕ) :
    (c.dispatchCommand dst tree).state.trees = c.state.trees := by
  simp only [CmdCall.dispatchCommand]
  split
  · rfl
  · exact trees_deleteRoot c.state

/-- No tree is made behind `cJSON_Parse`. -/
theorem trees_cmdDeliverTree (s : CmdState) (tree : ℕ) :
    (cmdDeliverTree s tree).state.trees = s.trees := by
  rw [cmdDeliverTree]
  split_ifs
  · simp
  · split
    · simp
    · next cmdMsg _ =>
      simp only []
      by_cases htype : cmdMsg.type = 0 ∨ cmdMsg.type = 1
      · simp only [if_pos htype]
        split <;> simp
      · simp only [if_neg htype]
        split <;> simp

/-- What is left of a payload that is not dispatched: the tree is deleted once. -/
structure Dropped (s : CmdState) (tree : ℕ) (c : CmdCall) : Prop where
  commands : c.commands = []
  jsonRoot : c.state.jsonRoot = none
  deleted : c.state.deleted = s.deleted ++ [tree]

/-- A call that ends with the deletion. -/
theorem dropped_deleteRoot {s : CmdState} {tree : ℕ} {c : CmdCall} (hcommands : c.commands = [])
    (hroot : c.state.jsonRoot = some tree) (hdeleted : c.state.deleted = s.deleted) :
    Dropped s tree c.deleteRoot := by
  refine ⟨hcommands, jsonRoot_deleteRoot _, ?_⟩
  show c.state.deleteRoot.deleted = _
  rw [deleted_deleteRoot hroot, hdeleted]

/-- **A command** is dispatched to its module, and marked as sent. -/
theorem cmdDeliver_command {items : JsonRoot} {moduleId cmd type : ℤ}
    (h : IsCommand items moduleId cmd type) {dst : ModuleId} (hdst : moduleOf moduleId = some dst)
    (s : CmdState) {cmdMsg : CommandMsg}
    (hmsg : cmdMsg = ⟨cmd, .tcpRecv, type, paramOf items s.trees.length⟩) :
    let c := CmdCall.dispatchCommand ⟨{ s.withTree items with cmdMsg := cmdMsg }, []⟩ dst
      s.trees.length
    cmdDeliverTree (s.withTree items) s.trees.length =
      { c with state := { c.state with cmdMsgReceived := true } } := by
  have hroot : CmdState.root { s.withTree items with cmdMsg := cmdMsg } =
      some (s.trees.length, items) := root_withTree s items
  have htype : cmdMsg.type = 0 ∨ cmdMsg.type = 1 := by
    rw [hmsg]
    exact h.type_range
  rw [cmdDeliverTree, root_withTree, jsonGetIntDef_of_lookup h.ver_eq, if_neg (by simp),
    jsonParseCommand_of_isCommand h, ← hmsg]
  simp only [hroot, jsonGetIntDef_of_lookup h.mod_eq, hdst, if_pos htype]

/-- **Anything else** is dropped, wherever it fails. -/
theorem cmdDeliver_reject {items : JsonRoot}
    (h : ¬ ∃ moduleId cmd type, IsCommand items moduleId cmd type) (s : CmdState) :
    Dropped s s.trees.length (cmdDeliverTree (s.withTree items) s.trees.length) := by
  rw [cmdDeliverTree, root_withTree]
  split_ifs with hver
  · exact dropped_deleteRoot (commands_dispatchLog _ _) rfl rfl
  · split
    · have hdropped : Dropped s s.trees.length (CmdCall.deleteRoot ⟨s.withTree items, []⟩) :=
        dropped_deleteRoot rfl rfl rfl
      exact ⟨(commands_dispatchLog _ _).trans hdropped.commands, hdropped.jsonRoot,
        hdropped.deleted⟩
    · next cmdMsg hparse =>
      obtain ⟨hver, ⟨moduleId, hmod⟩, hcmd, htype⟩ := lookup_of_jsonParseCommand hparse
      have hroot : CmdState.root { s.withTree items with cmdMsg := cmdMsg } =
          some (s.trees.length, items) := root_withTree s items
      simp only [hroot, jsonGetIntDef_of_lookup hmod]
      cases hdst : moduleOf moduleId with
      | none => exact dropped_deleteRoot (commands_dispatchLog _ _) rfl rfl
      | some dst =>
        have hrange : 0 ≤ moduleId ∧ moduleId < 8 := by
          by_contra hout
          rw [moduleOf_eq_none.mpr hout] at hdst
          cases hdst
        by_cases htypes : cmdMsg.type = 0 ∨ cmdMsg.type = 1
        · exact absurd
            ⟨moduleId, cmdMsg.cmd, cmdMsg.type, hver, hmod, hcmd, htype, hrange, htypes⟩ h
        · have hdropped : Dropped s s.trees.length
              (CmdCall.deleteRoot ⟨{ s.withTree items with cmdMsg := cmdMsg }, []⟩) :=
            dropped_deleteRoot rfl rfl rfl
          simp only [if_neg htypes]
          exact ⟨hdropped.commands, hdropped.jsonRoot, hdropped.deleted⟩

/-! ### The states the call is made in -/

/-- The trees are numbered as they are made, and no tree is left where the thread reads. -/
structure TreeOwned (s : CmdState) : Prop where
  trees : TreesInv s
  reading : s.pc = .reading → s.jsonRoot = none
  waiting : s.pc = .entering ∨ s.pc = .waiting → s.cmdMsgReceived = false → s.jsonRoot = none

/-- The tree is given up, or was. -/
theorem TreeOwned.of_none {s : CmdState} (htrees : TreesInv s) (hroot : s.jsonRoot = none) :
    TreeOwned s :=
  ⟨htrees, fun _ => hroot, fun _ _ => hroot⟩

/-- The thread is in `cmd_deliver`. -/
theorem TreeOwned.of_busy {s : CmdState} (htrees : TreesInv s) (hread : s.pc ≠ .reading)
    (henter : s.pc ≠ .entering) (hwait : s.pc ≠ .waiting) : TreeOwned s := by
  refine ⟨htrees, fun h => absurd h hread, ?_⟩
  rintro (h | h)
  · exact absurd h henter
  · exact absurd h hwait

theorem TreeOwned.delete {s : CmdState} (h : TreesInv s) (pc : RecvPc) :
    TreeOwned { s.deleteRoot with pc := pc } :=
  .of_none ⟨h.deleteRoot.deleted_lt, h.deleteRoot.root_lt⟩ (jsonRoot_deleteRoot s)

theorem treesInv_withTree {s : CmdState} (h : TreesInv s) (items : JsonRoot) :
    TreesInv (s.withTree items) := by
  have hlen : (s.withTree items).trees.length = s.trees.length + 1 := List.length_append
  constructor
  · intro tree htree
    have hlt := h.deleted_lt tree htree
    omega
  · intro tree htree
    obtain rfl : s.trees.length = tree := Option.some_inj.mp htree
    omega

theorem TreeOwned.step {s t : CmdState} {a : CmdAction} (h : TreeOwned s) (ht : CmdStep s a t) :
    TreeOwned t := by
  have htrees := h.trees
  cases ht with
  | startWait hpc =>
    exact ⟨⟨htrees.deleted_lt, htrees.root_lt⟩, fun hr => (by cases hr),
      fun _ => h.waiting (.inl hpc)⟩
  | leaveWait hpc hflag =>
    exact .of_none ⟨htrees.deleted_lt, htrees.root_lt⟩ (h.waiting (.inr hpc) hflag)
  | forceClear hpc hflag =>
    exact .of_busy ⟨htrees.deleted_lt, htrees.root_lt⟩ (by simp) (by simp) (by simp)
  | forceDelete hpc => exact .delete htrees _
  | skipFrame hpc => exact .of_none ⟨htrees.deleted_lt, htrees.root_lt⟩ (h.reading hpc)
  | parse json hpc =>
    cases json with
    | none => exact .of_none ⟨htrees.deleted_lt, fun _ hnone => (by cases hnone)⟩ rfl
    | some items =>
      have hnew := treesInv_withTree htrees items
      exact .of_busy ⟨hnew.deleted_lt, hnew.root_lt⟩ (by simp [cmdDeliverParse])
        (by simp [cmdDeliverParse]) (by simp [cmdDeliverParse])
  | fill tree hpc =>
    rw [cmdDeliverFill]
    split_ifs
    · exact .delete htrees _
    · split
      · exact .delete htrees _
      · exact .of_busy ⟨htrees.deleted_lt, htrees.root_lt⟩ (by simp) (by simp) (by simp)
  | route tree hpc =>
    rw [cmdDeliverRoute]
    split
    · exact .delete htrees _
    · split_ifs
      · exact .of_busy ⟨htrees.deleted_lt, htrees.root_lt⟩ (by simp) (by simp) (by simp)
      · exact .delete htrees _
  | dispatch c server hpc hserver =>
    exact .of_busy ⟨htrees.deleted_lt, htrees.root_lt⟩ (by simp) (by simp) (by simp)
  | refused c hpc hserver =>
    exact .of_busy ⟨htrees.deleted_lt, htrees.root_lt⟩ (by simp) (by simp) (by simp)
  | releaseRefused hpc =>
    exact .of_none ⟨htrees.deleteRoot.deleted_lt, htrees.deleteRoot.root_lt⟩ (jsonRoot_deleteRoot s)
  | mark hpc =>
    refine ⟨⟨htrees.deleted_lt, htrees.root_lt⟩, fun hr => (by cases hr), ?_⟩
    intro _ hflag
    cases hflag
  | send msg server hserver => exact ⟨⟨htrees.deleted_lt, htrees.root_lt⟩, h.reading, h.waiting⟩
  | sendRefused msg => exact h
  | deliver b server hserver hlive ha =>
    exact ⟨⟨htrees.deleted_lt, htrees.root_lt⟩, h.reading, h.waiting⟩
  | releaseCommand c server hserver hlive =>
    have hdel : TreesInv ({ s with server := server } : CmdState).deleteRoot :=
      TreesInv.deleteRoot ⟨htrees.deleted_lt, htrees.root_lt⟩
    exact .of_none ⟨hdel.deleted_lt, hdel.root_lt⟩ (jsonRoot_deleteRoot _)
  | releaseOther msg server hserver hlive =>
    exact ⟨⟨htrees.deleted_lt, htrees.root_lt⟩, h.reading, h.waiting⟩

/-- In every state, whatever the other threads did. -/
theorem treeOwned_reachable {s : CmdState} (hs : cmdSystem.Reachable s) : TreeOwned s := by
  have hinit : TreeOwned cmdSystem.init := by
    refine .of_none ⟨?_, ?_⟩ rfl
    · intro tree htree
      cases htree
    · intro tree htree
      cases htree
  refine hs.invariant hinit ?_
  intro s a t h _ hstep
  exact h.step (cmdStep_cases hstep)

/-! ### Every payload -/

/-- What becomes of the tree of a command: the queue takes the command, or it is full and the
release handler deletes the tree. -/
structure CommandSent (s : CmdState) (dst : ModuleId) (cmdMsg : CommandMsg) (c : CmdCall) :
    Prop where
  commands : c.commands = [(dst, cmdMsg)]
  tree :
    (c.state.server.arrived = s.server.arrived ++ [.command ⟨dst, s.trees.length⟩] ∧
      c.state.jsonRoot = some s.trees.length ∧ c.state.deleted = s.deleted) ∨
    (s.server.queue.items.length = maxMsgQueueSize ∧ c.state.server = s.server ∧
      c.state.jsonRoot = none ∧ c.state.deleted = s.deleted ++ [s.trees.length])

theorem commandSent_dispatchCommand (s : CmdState) (items : JsonRoot) (dst : ModuleId)
    (cmdMsg : CommandMsg) : CommandSent s dst cmdMsg
      (CmdCall.dispatchCommand ⟨{ s.withTree items with cmdMsg := cmdMsg }, []⟩ dst
        s.trees.length) := by
  refine ⟨rfl, ?_⟩
  rw [CmdCall.dispatchCommand]
  cases harrive : s.server.step (.arrive (.command ⟨dst, s.trees.length⟩)) with
  | none =>
    refine .inr ?_
    have hserver : (s.withTree items).server = s.server := rfl
    simp only [hserver, harrive]
    rw [Server.step, Option.map_eq_none_iff, BoundedFifo.enqueue] at harrive
    have hfull : ¬ s.server.queue.items.length < maxMsgQueueSize := by
      intro hroom
      rw [dif_pos hroom] at harrive
      cases harrive
    exact ⟨le_antisymm s.server.queue.bound (Nat.le_of_not_lt hfull), rfl, rfl, rfl⟩
  | some server =>
    refine .inl ?_
    have hserver : (s.withTree items).server = s.server := rfl
    simp only [hserver, harrive]
    rw [Server.step, Option.map_eq_some_iff] at harrive
    obtain ⟨q, -, rfl⟩ := harrive
    exact ⟨rfl, rfl, rfl⟩

/-- **The command grammar**: in every state in which the thread calls `cmd_deliver`, and for
every payload, one command is dispatched to its module if the payload is one; otherwise none is,
no tree is left, and the tree that was made is deleted exactly once. -/
theorem cmdDeliver_grammar {s : CmdState} (hs : cmdSystem.Reachable s) (hpc : s.pc = .reading)
    (cJSONParse : List UInt8 → Option JsonRoot) {payload : List UInt8}
    (hempty : payload = [] → cJSONParse [] = none) :
    (∀ items moduleId cmd type, cJSONParse (cString payload) = some items →
      IsCommand items moduleId cmd type → ∃ dst, moduleOf moduleId = some dst ∧
        CommandSent s dst ⟨cmd, .tcpRecv, type, paramOf items s.trees.length⟩
          (cmdDeliver cJSONParse s payload)) ∧
    ((¬ ∃ items moduleId cmd type, cJSONParse (cString payload) = some items ∧
        IsCommand items moduleId cmd type) →
      (cmdDeliver cJSONParse s payload).commands = [] ∧
      (cmdDeliver cJSONParse s payload).state.jsonRoot = none ∧
      (cmdDeliver cJSONParse s payload).state.deleted =
        s.deleted ++ ((cJSONParse (cString payload)).map fun _ => s.trees.length).toList ∧
      s.trees.length ∉ s.deleted) := by
  have howned := treeOwned_reachable hs
  have hfresh : s.trees.length ∉ s.deleted :=
    fun hmem => absurd (howned.trees.deleted_lt _ hmem) (lt_irrefl _)
  by_cases hnil : payload = []
  · -- nothing is parsed, and `json_root` was null
    have hparse : cJSONParse (cString payload) = none := by
      rw [hnil]
      exact hempty hnil
    have hcall : cmdDeliver cJSONParse s payload = ⟨s, []⟩ := if_pos hnil
    constructor
    · intro items moduleId cmd type hitems
      rw [hparse] at hitems
      cases hitems
    · intro _
      rw [hcall, hparse]
      exact ⟨rfl, howned.reading hpc, (List.append_nil _).symm, hfresh⟩
  cases hparse : cJSONParse (cString payload) with
  | none =>
    have hcall : cmdDeliver cJSONParse s payload = ⟨{ s with jsonRoot := none }, []⟩ := by
      rw [cmdDeliver, if_neg hnil, hparse]
    constructor
    · intro items moduleId cmd type hitems
      cases hitems
    · intro _
      rw [hcall]
      exact ⟨rfl, rfl, (List.append_nil _).symm, hfresh⟩
  | some items =>
    have hcall : cmdDeliver cJSONParse s payload =
        cmdDeliverTree (s.withTree items) s.trees.length := by
      rw [cmdDeliver, if_neg hnil, hparse]
    rw [hcall]
    constructor
    · intro items' moduleId cmd type hitems hcommand
      obtain rfl := Option.some_inj.mp hitems
      obtain ⟨dst, hdst⟩ : ∃ dst, moduleOf moduleId = some dst := by
        rw [← Option.ne_none_iff_exists']
        intro hnone
        exact moduleOf_eq_none.mp hnone hcommand.module_range
      refine ⟨dst, hdst, ?_⟩
      have hsent := commandSent_dispatchCommand s items dst
        ⟨cmd, .tcpRecv, type, paramOf items s.trees.length⟩
      rw [cmdDeliver_command hcommand hdst s rfl]
      exact ⟨hsent.commands, hsent.tree⟩
    · intro hno
      have hreject : ¬ ∃ moduleId cmd type, IsCommand items moduleId cmd type := by
        rintro ⟨moduleId, cmd, type, hcommand⟩
        exact hno ⟨items, moduleId, cmd, type, rfl, hcommand⟩
      have hdropped := cmdDeliver_reject hreject s
      exact ⟨hdropped.commands, hdropped.jsonRoot, hdropped.deleted, hfresh⟩

/-- The text of a query for the files. -/
def queryText : List UInt8 :=
  "\x7b\"ver\":0,\"mod\":7,\"cmd\":513,\"type\":1,\"param\":null\x7d".toList.map fun c =>
    UInt8.ofNat c.toNat

/-- A parser that knows it. -/
def parseQuery (text : List UInt8) : Option JsonRoot :=
  if text = queryText then some queryFiles else none

/-- The query, received first. -/
theorem cmdDeliver_grammar_query : ∃ s, cmdSystem.run .init [.startWait, .leaveWait] = some s ∧
    CommandSent s .command ⟨513, .tcpRecv, 1, none⟩ (cmdDeliver parseQuery s queryText) := by
  obtain ⟨s, hrun, hpc⟩ :
      ∃ s, cmdSystem.run .init [.startWait, .leaveWait] = some s ∧ s.pc = .reading :=
    ⟨_, rfl, rfl⟩
  refine ⟨s, hrun, ?_⟩
  have hparse : parseQuery (cString queryText) = some queryFiles := by decide +kernel
  have hempty : queryText = [] → parseQuery [] = none := by
    intro hnil
    exact absurd hnil (by decide)
  have hcommand : IsCommand queryFiles 7 513 1 :=
    ⟨rfl, rfl, rfl, rfl, by decide, .inr rfl⟩
  obtain ⟨dst, hdst, hsent⟩ :=
    (cmdDeliver_grammar (.of_run hrun) hpc parseQuery hempty).1 queryFiles 7 513 1 hparse hcommand
  obtain rfl : ModuleId.command = dst := Option.some_inj.mp hdst
  exact hsent

/-! ### The call among the other threads -/

/-- `cmd_deliver` behind `cJSON_Parse`. -/
def CmdState.parsing (s : CmdState) (items : JsonRoot) : CmdState :=
  { s.withTree items with pc := .parsed s.trees.length }

theorem cmdStep_logSend (s : CmdState) :
    cmdStep s (.otherSend tcpRecvLogMsg) = some { s with server := logged s.server } := by
  simp only [cmdStep, logged]
  rw [if_neg (by decide)]
  cases s.server.step (.arrive (.other tcpRecvLogMsg)) <;> rfl

section Run

variable {s : CmdState} {items : JsonRoot}

theorem root_parsing (server : Server CmdItem maxMsgQueueSize) :
    CmdState.root { s.parsing items with server := server } = some (s.trees.length, items) :=
  root_withTree s items

theorem run_bad_ver (hver : jsonGetIntDef (some (s.trees.length, items)) "ver" (-1) ≠ 0) :
    cmdSystem.run (s.parsing items) [.otherSend tcpRecvLogMsg, .fill] =
      some { (cmdDeliverTree (s.withTree items) s.trees.length).state with pc := .entering } := by
  rw [TransitionSystem.run_cons_of_step (cmdStep_logSend (s.parsing items))]
  show some (cmdDeliverFill { s.parsing items with server := _ } s.trees.length) = _
  rw [cmdDeliverFill, root_parsing, if_pos hver, cmdDeliverTree, root_withTree, if_pos hver]
  rfl

/-- The fields are checked. -/
theorem fill_parsing (hver : jsonGetIntDef (some (s.trees.length, items)) "ver" (-1) = 0) :
    cmdStep (s.parsing items) .fill =
      match jsonParseCommand (some (s.trees.length, items)) with
      | none => some { (s.withTree items).deleteRoot with pc := .entering }
      | some cmdMsg =>
        some { s.withTree items with cmdMsg := cmdMsg, pc := .filled s.trees.length } := by
  show some (cmdDeliverFill { s.parsing items with server := _ } s.trees.length) = _
  rw [cmdDeliverFill, root_parsing, if_neg (not_not.mpr hver)]
  cases jsonParseCommand (some (s.trees.length, items)) <;> rfl

theorem run_bad_fields (hver : jsonGetIntDef (some (s.trees.length, items)) "ver" (-1) = 0)
    (hcmd : jsonParseCommand (some (s.trees.length, items)) = none) :
    cmdSystem.run (s.parsing items) [.fill, .otherSend tcpRecvLogMsg] =
      some { (cmdDeliverTree (s.withTree items) s.trees.length).state with pc := .entering } := by
  have hfill := @fill_parsing s items hver
  rw [hcmd] at hfill
  rw [TransitionSystem.run_cons_of_step hfill,
    TransitionSystem.run_cons_of_step (cmdStep_logSend _), cmdDeliverTree, root_withTree,
    if_neg (not_not.mpr hver), hcmd]
  rfl

/-- `cmd_deliver` behind `json_parse_command`. -/
def CmdState.filled (s : CmdState) (items : JsonRoot) (cmdMsg : CommandMsg) : CmdState :=
  { s.withTree items with cmdMsg := cmdMsg, pc := .filled s.trees.length }

theorem root_filled (cmdMsg : CommandMsg) (server : Server CmdItem maxMsgQueueSize) :
    CmdState.root { s.filled items cmdMsg with server := server } = some (s.trees.length, items) :=
  root_withTree s items

/-- The module and the type are checked. -/
theorem run_filled (hver : jsonGetIntDef (some (s.trees.length, items)) "ver" (-1) = 0)
    {cmdMsg : CommandMsg} (hcmd : jsonParseCommand (some (s.trees.length, items)) = some cmdMsg) :
    ∃ as, cmdSystem.run (s.filled items cmdMsg) as =
      some { (cmdDeliverTree (s.withTree items) s.trees.length).state with pc := .entering } := by
  have hroot : CmdState.root { s.withTree items with cmdMsg := cmdMsg } =
      some (s.trees.length, items) := root_withTree s items
  rw [cmdDeliverTree, root_withTree, if_neg (not_not.mpr hver), hcmd]
  simp only [hroot]
  cases hdst : moduleOf (jsonGetIntDef (some (s.trees.length, items)) "mod" (-1)) with
  | none =>
    refine ⟨[.otherSend tcpRecvLogMsg, .route], ?_⟩
    rw [TransitionSystem.run_cons_of_step (cmdStep_logSend _)]
    show some (cmdDeliverRoute { s.filled items cmdMsg with server := _ } s.trees.length) = _
    rw [cmdDeliverRoute, root_filled, hdst]
    rfl
  | some dst =>
    have hroute : cmdStep (s.filled items cmdMsg) .route =
        some (if cmdMsg.type = 0 ∨ cmdMsg.type = 1 then
          { s.filled items cmdMsg with pc := .dispatching ⟨dst, s.trees.length⟩ }
        else { (s.filled items cmdMsg).deleteRoot with pc := .marking }) := by
      show some (cmdDeliverRoute { s.filled items cmdMsg with server := _ } s.trees.length) = _
      rw [cmdDeliverRoute, root_filled, hdst]
      rfl
    by_cases htype : cmdMsg.type = 0 ∨ cmdMsg.type = 1
    · rw [if_pos htype] at hroute
      simp only [if_pos htype]
      have hserver : (s.withTree items).server = s.server := rfl
      simp only [CmdCall.dispatchCommand, hserver]
      cases harrive : s.server.step (.arrive (.command ⟨dst, s.trees.length⟩)) with
      | none =>
        -- the release handler is called from `msg_send`
        refine ⟨[.route, .dispatch, .releaseRefused, .mark], ?_⟩
        have hdispatch : cmdStep
            { s.filled items cmdMsg with pc := .dispatching ⟨dst, s.trees.length⟩ } .dispatch =
              some { s.filled items cmdMsg with pc := .refused } := by
          simp only [cmdStep]
          rw [show (s.filled items cmdMsg).server = s.server from rfl, harrive]
        rw [TransitionSystem.run_cons_of_step hroute, TransitionSystem.run_cons_of_step hdispatch]
        rfl
      | some server =>
        refine ⟨[.route, .dispatch, .mark], ?_⟩
        have hdispatch : cmdStep
            { s.filled items cmdMsg with pc := .dispatching ⟨dst, s.trees.length⟩ } .dispatch =
              some { s.filled items cmdMsg with server := server, pc := .marking } := by
          simp only [cmdStep]
          rw [show (s.filled items cmdMsg).server = s.server from rfl, harrive]
        rw [TransitionSystem.run_cons_of_step hroute, TransitionSystem.run_cons_of_step hdispatch]
        rfl
    · rw [if_neg htype] at hroute
      refine ⟨[.route, .mark], ?_⟩
      rw [TransitionSystem.run_cons_of_step hroute]
      simp only [if_neg htype]
      rfl

end Run

/-- **The call is a run** of the thread among the others. -/
theorem cmdDeliver_run {s : CmdState} (hpc : s.pc = .reading)
    (cJSONParse : List UInt8 → Option JsonRoot) {payload : List UInt8} (hne : payload ≠ []) :
    ∃ as, cmdSystem.run s as =
      some { (cmdDeliver cJSONParse s payload).state with pc := .entering } := by
  rw [cmdDeliver, if_neg hne]
  cases cJSONParse (cString payload) with
  | none =>
    have hparse : cmdStep s (.parse none) = some { s with jsonRoot := none, pc := .entering } :=
      if_pos hpc
    exact ⟨[.parse none], TransitionSystem.run_cons_of_step hparse []⟩
  | some items =>
    have hparse : cmdStep s (.parse (some items)) = some (s.parsing items) := if_pos hpc
    by_cases hver : jsonGetIntDef (some (s.trees.length, items)) "ver" (-1) = 0
    · have hfill := @fill_parsing s items hver
      cases hcmd : jsonParseCommand (some (s.trees.length, items)) with
      | none =>
        refine ⟨[.parse (some items), .fill, .otherSend tcpRecvLogMsg], ?_⟩
        rw [TransitionSystem.run_cons_of_step hparse, run_bad_fields hver hcmd]
      | some cmdMsg =>
        obtain ⟨as, has⟩ := run_filled hver hcmd
        rw [hcmd] at hfill
        refine ⟨.parse (some items) :: .fill :: as, ?_⟩
        rw [TransitionSystem.run_cons_of_step hparse, TransitionSystem.run_cons_of_step hfill]
        exact has
    · refine ⟨[.parse (some items), .otherSend tcpRecvLogMsg, .fill], ?_⟩
      rw [TransitionSystem.run_cons_of_step hparse, run_bad_ver hver]

end Sentry
