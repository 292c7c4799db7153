/-
The start-up of the device (`src/main.c`, `src/msg/msg_deliver.c` and the initialisations of
the modules).

`main` creates nine threads, and each of them first initialises its own module, field by
field and without a lock.  The handlers of all modules are registered together, by the
first call that needs the message queue, so a handler can be called before its module
is initialised, or in the middle of that.

* `logInit`, `storageDataInit`, `udpInit`, `tcpInit`, `processDataInit`, `commandDataInit` —
  the writes of the initialisations, in their order;
* `initWrite` — these, and behind them the calls of `pthread_mutex_init` and
  `pthread_cond_init`;
* `startHandler`, `lockedBy`, `signals` — what the handlers do to the fields these write;
* `startSystem` — the nine threads, their dispatches and the message queue;
* `StartStep` — everything one step can do;
* `Built`, `SyncBuilt` — which fields are set after how many writes;
* `LinkPosted` — commands and requests to the TCP sender are only there behind `Tcp_Init`.
-/
import SentrySystem.LogBuffer
import SentrySystem.MsgDeliver
import SentrySystem.StorageBlocks

namespace Sentry

/-! ### The modules' data -/

/-- The threads created by `main`. -/
inductive MainThread
  | cameraCapture
  | udpSend
  | tcpSend
  | tcpRecv
  | processImage
  | msgDeliver
  | storageVideo
  | loggerProcess
  | commandProcess
  deriving DecidableEq, Repr

/-- The fields of `LOG_DATA_BUF` shared by `log_init` and `logger_msg_handler`; a null
pointer is none. -/
structure LoggerData where
  count : Side → ℕ
  inputPtr : Option Side
  processPtr : Option Side
  cmd : ℤ

/-- The fields of `Storage_Data` shared by `Storage_Data_Init` and `storage_msg_handler`. -/
structure StorageData where
  writePtr : Option Side
  writeLensPtr : Option Side
  writeTsPtr : Option Side
  readPtr : Option Side
  readLensPtr : Option Side
  readTsPtr : Option Side
  writeIdx : ℕ
  dataReady : Bool

/-- The fields of `UDP_Send_Buffer` shared by `Udp_Init` and `udp_msg_handler`; `send_buf`
with the size of what it points to. -/
structure UdpSendBuffer where
  isSending : Bool
  sendBuf : Option ℕ
  sendBufLen : UInt32

/-- The fields of `Tcp_Data_Buffer` shared by `Tcp_Init` and `tcp_send_msg_handler`. -/
structure TcpStartData where
  isSending : Bool
  sendBuf : Option ℕ
  sendBufLen : UInt32
  sendBufCapacity : UInt32
  pBigdataMsg : DataPtr

/-- The fields of `Process_Data` shared by `Process_Data_Init` and `alarm_msg_handler`. -/
structure ProcessData where
  frameLen : UInt32
  isUpdated : Bool

/-- The fields of `Command_Data_t` set by `command_msg_handler`. -/
structure CommandSlot where
  cmd : ℤ
  cmdPending : Bool

/-- The statics of all modules; which of their mutexes and condition variables are
initialised, each named by the thread that does it; and whether `g_shared_link_ptr` is set. -/
structure ModuleData where
  logger : LoggerData
  storage : StorageData
  udp : UdpSendBuffer
  tcp : TcpStartData
  process : ProcessData
  command : CommandSlot
  mutexReady : MainThread → Bool
  condReady : MainThread → Bool
  linkPosted : Bool

/-- The zeroed statics. -/
def ModuleData.zero : ModuleData where
  logger := ⟨fun _ => 0, none, none, 0⟩
  storage := ⟨none, none, none, none, none, none, 0, false⟩
  udp := ⟨false, none, 0⟩
  tcp := ⟨false, none, 0, 0, .null⟩
  process := ⟨0, false⟩
  command := ⟨0, false⟩
  mutexReady := fun _ => false
  condReady := fun _ => false
  linkPosted := false

/-! ### The initialisations -/

/-- The writes of `log_init`. -/
def logInit (d : LoggerData) : ℕ → Option LoggerData
  | 0 => some { d with count := Function.update d.count .a 0 }
  | 1 => some { d with count := Function.update d.count .b 0 }
  | 2 => some { d with inputPtr := some .a }
  | 3 => some { d with processPtr := some .b }
  | 4 => some { d with cmd := 0 }
  | _ => none

/-- The writes of `Storage_Data_Init`. -/
def storageDataInit (d : StorageData) : ℕ → Option StorageData
  | 0 => some { d with writePtr := some .a }
  | 1 => some { d with writeLensPtr := some .a }
  | 2 => some { d with writeTsPtr := some .a }
  | 3 => some { d with readPtr := some .b }
  | 4 => some { d with readLensPtr := some .b }
  | 5 => some { d with readTsPtr := some .b }
  | 6 => some { d with writeIdx := 0 }
  | 7 => some { d with dataReady := false }
  | _ => none

/-- The size of both send buffers, `TCP_SEND_BUFFER_INIT_SIZE`. -/
def sendBufferSize : ℕ := 256 * 1024

/-- The writes of `Udp_Init`. -/
def udpInit (d : UdpSendBuffer) : ℕ → Option UdpSendBuffer
  | 0 => some { d with isSending := false }
  | 1 => some { d with sendBuf := some sendBufferSize }
  | 2 => some { d with sendBufLen := 0 }
  | _ => none

/-- The writes of `Tcp_Init`, the first of which is the `memset`. -/
def tcpInit (d : TcpStartData) : ℕ → Option TcpStartData
  | 0 => some ⟨false, none, 0, 0, .null⟩
  | 1 => some { d with isSending := false }
  | 2 => some { d with sendBufCapacity := UInt32.ofNat sendBufferSize }
  | 3 => some { d with sendBuf := some sendBufferSize }
  | 4 => some { d with sendBufLen := 0 }
  | _ => none

/-- The writes of `Process_Data_Init`. -/
def processDataInit (d : ProcessData) : ℕ → Option ProcessData
  | 0 => some { d with frameLen := 0 }
  | 1 => some { d with isUpdated := false }
  | _ => none

/-- The `memset` of `command_data_init`. -/
def commandDataInit : ℕ → Option CommandSlot
  | 0 => some ⟨0, false⟩
  | _ => none

/-- How many writes of a thread come in front of its `pthread_mutex_init`, for the mutexes
that handlers lock. -/
def mutexAt : MainThread → Option ℕ
  | .udpSend => some 3
  | .tcpSend => some 5
  | .processImage => some 2
  | .storageVideo => some 8
  | .loggerProcess => some 5
  | .commandProcess => some 1
  | _ => none

/-- `pthread_mutex_init` and `pthread_cond_init` behind `n` writes. -/
def syncInit (d : ModuleData) (th : MainThread) (n k : ℕ) : Option ModuleData :=
  if k = n then some { d with mutexReady := Function.update d.mutexReady th true }
  else if k = n + 1 then some { d with condReady := Function.update d.condReady th true }
  else none

/-- The `k`-th write of a thread in front of its loop. -/
def initWrite (d : ModuleData) (th : MainThread) (k : ℕ) : Option ModuleData :=
  match th with
  -- `v4l2_data_buffer_init` and `V4l2_Init` write nothing a handler uses
  | .cameraCapture => if k = 0 then some d else none
  | .udpSend =>
    if k < 3 then (udpInit d.udp k).map fun udp => { d with udp := udp }
    else syncInit d .udpSend 3 k
  | .tcpSend =>
    if k < 5 then (tcpInit d.tcp k).map fun tcp => { d with tcp := tcp }
    -- behind `Tcp_Init`, `Tcp_Shared_Post_Link`
    else if k = 7 then some { d with linkPosted := true }
    else syncInit d .tcpSend 5 k
  | .tcpRecv =>
    -- `Tcp_Recv_Init`, then `Tcp_Shared_Wait_Link`
    if k = 0 then some d else if k = 1 ∧ d.linkPosted = true then some d else none
  | .processImage =>
    if k < 2 then (processDataInit d.process k).map fun process => { d with process := process }
    else syncInit d .processImage 2 k
  -- `msg_init`
  | .msgDeliver => if k = 0 then some d else none
  | .storageVideo =>
    if k < 8 then (storageDataInit d.storage k).map fun storage => { d with storage := storage }
    else syncInit d .storageVideo 8 k
  | .loggerProcess =>
    if k < 5 then (logInit d.logger k).map fun logger => { d with logger := logger }
    else syncInit d .loggerProcess 5 k
  | .commandProcess =>
    if k < 1 then (commandDataInit k).map fun command => { d with command := command }
    else syncInit d .commandProcess 1 k

/-- The number of these writes. -/
def initLength : MainThread → ℕ
  | .cameraCapture => 1
  | .udpSend => 5
  | .tcpSend => 8
  | .tcpRecv => 2
  | .processImage => 4
  | .msgDeliver => 1
  | .storageVideo => 10
  | .loggerProcess => 7
  | .commandProcess => 3

/-- What a module holds of the messages its handler accepted. -/
inductive HeldRequest
  | frame (len : UInt32)
  | upload (len : UInt32) (data : DataPtr)
  | images (writeIdx : ℕ) (dataReady : Bool)
  | logs (cmd : ℤ) (a b : ℕ)
  | command (cmd : ℤ)
  deriving DecidableEq, Repr

/-- The request a module holds, if any. -/
def request (d : ModuleData) : MainThread → Option HeldRequest
  | .udpSend => if d.udp.isSending then some (.frame d.udp.sendBufLen) else none
  | .tcpSend =>
    if d.tcp.isSending then some (.upload d.tcp.sendBufLen d.tcp.pBigdataMsg) else none
  | .processImage => if d.process.isUpdated then some (.frame d.process.frameLen) else none
  | .storageVideo =>
    if d.storage.writeIdx = 0 ∧ d.storage.dataReady = false then none
    else some (.images d.storage.writeIdx d.storage.dataReady)
  | .loggerProcess =>
    if d.logger.cmd = 0 ∧ d.logger.count .a = 0 ∧ d.logger.count .b = 0 then none
    else some (.logs d.logger.cmd (d.logger.count .a) (d.logger.count .b))
  | .commandProcess => if d.command.cmdPending then some (.command d.command.cmd) else none
  | _ => none

/-! ### The handlers -/

/-- What a handler does: follow a null pointer of a thread's module, or leave the statics
as they are given. -/
inductive HandlerEffect
  | nullUse (th : MainThread)
  | done (d : ModuleData)

/-- `logger_msg_handler`, for a log message. -/
def startLog (d : ModuleData) : HandlerEffect :=
  match d.logger.inputPtr with
  | none => .nullUse .loggerProcess
  | some side =>
    .done { d with
      logger :=
        { d.logger with count := Function.update d.logger.count side (d.logger.count side + 1) } }

/-- The image is stored at `write_idx`; with the 50th the blocks are swapped, or dropped. -/
def StorageData.stored (d : StorageData) : StorageData :=
  if d.writeIdx + 1 < maxsize then { d with writeIdx := d.writeIdx + 1 }
  else if d.dataReady then { d with writeIdx := 0 }
  else
    { writePtr := d.readPtr
      readPtr := d.writePtr
      writeLensPtr := d.readLensPtr
      readLensPtr := d.writeLensPtr
      writeTsPtr := d.readTsPtr
      readTsPtr := d.writeTsPtr
      dataReady := true
      writeIdx := 0 }

/-- `storage_msg_handler`, for an image. -/
def startStorageImage (d : ModuleData) : HandlerEffect :=
  if d.storage.writePtr = none ∨ d.storage.writeLensPtr = none ∨ d.storage.writeTsPtr = none then
    .nullUse .storageVideo
  else .done { d with storage := d.storage.stored }

/-- `udp_msg_handler`, for an image of `len` bytes. -/
def startUdpImage (d : ModuleData) (len : UInt32) : HandlerEffect :=
  if d.udp.isSending then .done d
  else
    match d.udp.sendBuf with
    | none => .nullUse .udpSend
    | some _ => .done { d with udp := { d.udp with sendBufLen := len, isSending := true } }

/-- `tcp_send_msg_handler`, for an image of `len` bytes. -/
def startTcpImage (d : ModuleData) (len : UInt32) : HandlerEffect :=
  if len = 0 ∨ d.tcp.isSending = true ∨ ¬ len ≤ d.tcp.sendBufCapacity then .done d
  else
    match d.tcp.sendBuf with
    | none => .nullUse .tcpSend
    | some _ => .done { d with tcp := { d.tcp with sendBufLen := len, isSending := true } }

/-- `tcp_send_msg_handler`, for a BIGDATA of `len` bytes; a busy sender asks for it again. -/
def startTcpBigdata (d : ModuleData) (data : DataPtr) (len : UInt32) : HandlerEffect :=
  if data = .null ∨ len = 0 ∨ d.tcp.isSending = true then .done d
  else .done { d with tcp := { d.tcp with pBigdataMsg := data, isSending := true } }

/-- The handlers, `len` and `cmd` being the length and the command at the message's pointer.
What the others use is initialised statically. -/
def startHandler (d : ModuleData) (msg : CommonMsg) (len : UInt32) (cmd : ℤ) : HandlerEffect :=
  match msg.dstModule, msg.msgType with
  | .logger, .log => startLog d
  | .logger, .command => .done { d with logger := { d.logger with cmd := cmd } }
  | .storage, .image => startStorageImage d
  | .udp, .image => startUdpImage d len
  | .tcpSend, .image => startTcpImage d len
  | .tcpSend, .bigdata => startTcpBigdata d msg.data len
  | .alarm, .image => .done { d with process := ⟨len, true⟩ }
  | .command, .command => .done { d with command := ⟨cmd, true⟩ }
  | _, _ => .done d

/-- The thread that initialises the mutex which a handler locks first. -/
def lockedBy (msg : CommonMsg) (len : UInt32) : Option MainThread :=
  match msg.dstModule, msg.msgType with
  | .logger, .log => some .loggerProcess
  | .logger, .command => some .loggerProcess
  | .storage, .image => some .storageVideo
  -- `move_detected` is set under the lock
  | .storage, .alarm => some .storageVideo
  | .udp, .image => some .udpSend
  | .tcpSend, .image => if len = 0 then none else some .tcpSend
  | .tcpSend, .bigdata => if msg.data = .null ∨ len = 0 then none else some .tcpSend
  | .alarm, .image => some .processImage
  | .command, .command => some .commandProcess
  | _, _ => none

/-- Whether a handler signals the condition variable beside this mutex. -/
def signals (d : ModuleData) (msg : CommonMsg) (len : UInt32) : Bool :=
  match msg.dstModule, msg.msgType with
  | .logger, .log => d.logger.inputPtr.any fun side => 30 < d.logger.count side + 1
  -- `CMD_ID` has no negative values
  | .logger, .command => true
  | .storage, .image => ¬ d.storage.writeIdx + 1 < maxsize ∧ d.storage.dataReady = false
  | .udp, .image => ! d.udp.isSending
  | .tcpSend, .image => ! d.tcp.isSending && decide (len ≤ d.tcp.sendBufCapacity)
  | .tcpSend, .bigdata => ! d.tcp.isSending
  | .alarm, .image => true
  | .command, .command => true
  | _, _ => false

/-- The thread that has yet to initialise a mutex or a condition variable which a handler
uses. -/
def unreadyUse (d : ModuleData) (msg : CommonMsg) (len : UInt32) : Option MainThread :=
  (lockedBy msg len).filter fun th =>
    ! d.mutexReady th || (signals d msg len && ! d.condReady th)

/-! ### The threads behind their initialisation -/

/-- A thread takes what its module has accepted. -/
def workData (d : ModuleData) : MainThread → Option ModuleData
  | .udpSend => some { d with udp := { d.udp with isSending := false } }
  | .tcpSend => some { d with tcp := { d.tcp with isSending := false, pBigdataMsg := .null } }
  | .processImage => some { d with process := { d.process with isUpdated := false } }
  | .storageVideo => some { d with storage := { d.storage with dataReady := false } }
  -- the swap, the save of the batch and the test of `cmd_msg.cmd`
  | .loggerProcess =>
    d.logger.inputPtr.map fun input =>
      { d with
        logger :=
          { count := Function.update d.logger.count input 0
            inputPtr := d.logger.processPtr
            processPtr := some input
            cmd := if d.logger.cmd = cmdLogUploadDb then 0 else d.logger.cmd } }
  | .commandProcess => some { d with command := { d.command with cmdPending := false } }
  | _ => none

/-- The thread takes a command that it answers with a BIGDATA. -/
def takesCommand (d : ModuleData) : MainThread → Bool
  | .loggerProcess => d.logger.cmd = cmdLogUploadDb
  | .commandProcess => d.command.cmdPending
  | _ => false

/-- The state: the message system and the statics; how many writes each thread has done;
whether a thread has a command to answer; and the history: the null pointers followed, the
uses of what was not initialised, the requests erased. -/
structure StartState where
  msgs : MsgState
  data : ModuleData
  progress : MainThread → ℕ
  answering : MainThread → Bool
  nullUses : List MainThread
  unready : List MainThread
  erased : List MainThread

/-- The state in front of the first `pthread_create`. -/
def StartState.init : StartState where
  msgs := .init
  data := .zero
  progress := fun _ => 0
  answering := fun _ => false
  nullUses := []
  unready := []
  erased := []

/-- The message whose handler runs. -/
def StartState.serving (s : StartState) (p : CommonMsg → Bool) : Bool :=
  match s.msgs.current with
  | some (.serving, e) => p e.queued
  | _ => false

/-- The dispatches of the threads; those of the deliver thread are made by handlers. -/
def mayDispatch (s : StartState) (th : MainThread) (msg : CommonMsg) : Bool :=
  match th, msg.msgType, msg.dstModule with
  | .cameraCapture, .image, .udp => true
  | .cameraCapture, .image, .storage => true
  | .cameraCapture, .image, .alarm => true
  | .processImage, .log, .logger => true
  | .processImage, .alarm, .storage => true
  | .storageVideo, .log, .logger => true
  | .loggerProcess, .bigdata, .tcpSend => s.answering .loggerProcess
  | .commandProcess, .log, .logger => true
  | .commandProcess, .bigdata, .tcpSend => s.answering .commandProcess
  | .tcpSend, .bigdata, _ => true
  | .tcpRecv, .log, .logger => true
  | .tcpRecv, .command, _ => true
  | .msgDeliver, .log, .logger =>
    s.serving fun m => m.dstModule = .storage ∧ m.msgType = .image
  | .msgDeliver, .bigdata, _ => s.serving fun m => m.msgType = .bigdata
  | _, _, _ => false

/-- The next write of a thread's initialisation is done, giving `d`; it erases the request its
module holds, if it changes it. -/
def StartState.wrote (s : StartState) (th : MainThread) (d : ModuleData) : StartState :=
  { s with
    data := d
    progress := Function.update s.progress th (s.progress th + 1)
    erased :=
      if request s.data th ≠ none ∧ request d th ≠ request s.data th then s.erased ++ [th]
      else s.erased }

/-- A handler did its work, with what was not initialised. -/
def StartState.handled (s : StartState) (unready : Option MainThread) :
    HandlerEffect → StartState
  | .nullUse th =>
    { s with nullUses := s.nullUses ++ [th], unready := s.unready ++ unready.toList }
  | .done d => { s with data := d, unready := s.unready ++ unready.toList }

/-- A thread took what was accepted, giving `d`. -/
def StartState.worked (s : StartState) (th : MainThread) (d : ModuleData) : StartState :=
  { s with
    data := d
    answering :=
      if takesCommand s.data th then Function.update s.answering th true else s.answering }

/-- Steps of the message system that are neither a send nor the return of a handler, and are
no step of the deliver thread in front of its `msg_init`. -/
def mayMove (s : StartState) : MsgAction → Bool
  | .send _ _ => false
  | .handlerReturn => false
  | .receive => s.progress .msgDeliver = initLength .msgDeliver
  | .handle => s.progress .msgDeliver = initLength .msgDeliver
  | .release => s.progress .msgDeliver = initLength .msgDeliver
  | _ => true

/-- What can happen: a thread does the next write of its initialisation; a thread behind it
dispatches a message; a step of the message system; a handler does its work and returns; a
thread takes what was accepted. -/
inductive StartAction
  | init (th : MainThread)
  | dispatch (th : MainThread) (msg : CommonMsg) (bytes : List UInt8)
  | msg (a : MsgAction)
  | handlerReturn (len : UInt32) (cmd : ℤ)
  | work (th : MainThread)

/-- One step; none behind a null pointer that was followed. -/
def startStep (build : Build) (s : StartState) (a : StartAction) : Option StartState :=
  if s.nullUses ≠ [] then none
  else
    match a with
    | .init th => (initWrite s.data th (s.progress th)).map (s.wrote th)
    | .dispatch th msg bytes =>
      if s.progress th = initLength th ∧ mayDispatch s th msg = true then
        (msgStep build s.msgs (.send msg bytes)).map fun m => { s with msgs := m }
      else none
    | .msg a =>
      if mayMove s a then (msgStep build s.msgs a).map fun m => { s with msgs := m } else none
    | .handlerReturn len cmd =>
      match s.msgs.current with
      | some (_, e) =>
        (msgStep build s.msgs .handlerReturn).map fun m =>
          { s with msgs := m }.handled (unreadyUse s.data e.queued len)
            (startHandler s.data e.queued len cmd)
      | none => none
    | .work th =>
      if s.progress th = initLength th then (workData s.data th).map (s.worked th) else none

/-- The start-up. -/
def startSystem (build : Build) : TransitionSystem StartState StartAction :=
  ⟨.init, startStep build⟩

/-! ### What a step can do -/

/-- Everything a step can do to a state. -/
inductive StartStep (build : Build) (s : StartState) : StartAction → StartState → Prop
  | init (th : MainThread) (d : ModuleData)
      (hwrite : initWrite s.data th (s.progress th) = some d) :
      StartStep build s (.init th) (s.wrote th d)
  | dispatch (th : MainThread) (msg : CommonMsg) (bytes : List UInt8) (m : MsgState)
      (hready : s.progress th = initLength th) (hmay : mayDispatch s th msg = true)
      (hm : MsgStep build s.msgs (.send msg bytes) m) :
      StartStep build s (.dispatch th msg bytes) { s with msgs := m }
  | msg (a : MsgAction) (m : MsgState) (hsend : ∀ msg bytes, a ≠ .send msg bytes)
      (hm : MsgStep build s.msgs a m) : StartStep build s (.msg a) { s with msgs := m }
  | handlerReturn (len : UInt32) (cmd : ℤ) (e : Entry) (m : MsgState)
      (hc : s.msgs.current = some (.serving, e)) (hm : MsgStep build s.msgs .handlerReturn m) :
      StartStep build s (.handlerReturn len cmd)
        ({ s with msgs := m }.handled (unreadyUse s.data e.queued len)
          (startHandler s.data e.queued len cmd))
  | work (th : MainThread) (d : ModuleData) (hready : s.progress th = initLength th)
      (hwork : workData s.data th = some d) : StartStep build s (.work th) (s.worked th d)

theorem startStep_cases {build : Build} {s t : StartState} {a : StartAction}
    (h : startStep build s a = some t) : s.nullUses = [] ∧ StartStep build s a t := by
  rw [startStep.eq_def] at h
  split_ifs at h with hnull
  refine ⟨not_not.mp hnull, ?_⟩
  cases a with
  | init th =>
    obtain ⟨d, hd, rfl⟩ := Option.map_eq_some_iff.mp h
    exact .init th d hd
  | dispatch th msg bytes =>
    dsimp only at h
    split_ifs at h with hmay
    obtain ⟨m, hm, rfl⟩ := Option.map_eq_some_iff.mp h
    exact .dispatch th msg bytes m hmay.1 hmay.2 (msgStep_cases hm)
  | msg a =>
    dsimp only at h
    split_ifs at h with hmay
    obtain ⟨m, hm, rfl⟩ := Option.map_eq_some_iff.mp h
    refine .msg a m ?_ (msgStep_cases hm)
    rintro msg bytes rfl
    exact absurd hmay Bool.false_ne_true
  | handlerReturn len cmd =>
    dsimp only at h
    split at h
    · next p e hc =>
      obtain ⟨m, hm, rfl⟩ := Option.map_eq_some_iff.mp h
      have hstep := msgStep_cases hm
      have hp : p = .serving := by
        cases hstep with
        | handlerReturn e' hc' =>
          rw [hc, Option.some_inj, Prod.mk.injEq] at hc'
          exact hc'.1
      exact .handlerReturn len cmd e m (hp ▸ hc) hstep
    · simp at h
  | work th =>
    dsimp only at h
    split_ifs at h with hready
    obtain ⟨d, hd, rfl⟩ := Option.map_eq_some_iff.mp h
    exact .work th d hready hd

/-- Everything a thread does to the statics when it takes what its module has accepted. -/
inductive WorkStep (d : ModuleData) : MainThread → ModuleData → Prop
  | udpSend : WorkStep d .udpSend { d with udp := { d.udp with isSending := false } }
  | tcpSend : WorkStep d .tcpSend
      { d with tcp := { d.tcp with isSending := false, pBigdataMsg := .null } }
  | processImage : WorkStep d .processImage
      { d with process := { d.process with isUpdated := false } }
  | storageVideo : WorkStep d .storageVideo
      { d with storage := { d.storage with dataReady := false } }
  | loggerProcess (input : Side) (hinput : d.logger.inputPtr = some input) :
      WorkStep d .loggerProcess { d with
        logger :=
          { count := Function.update d.logger.count input 0
            inputPtr := d.logger.processPtr
            processPtr := some input
            cmd := if d.logger.cmd = cmdLogUploadDb then 0 else d.logger.cmd } }
  | commandProcess : WorkStep d .commandProcess
      { d with command := { d.command with cmdPending := false } }

theorem workData_cases {d d' : ModuleData} {th : MainThread} (h : workData d th = some d') :
    WorkStep d th d' := by
  cases th with
  | udpSend => exact Option.some_inj.mp h ▸ .udpSend
  | tcpSend => exact Option.some_inj.mp h ▸ .tcpSend
  | processImage => exact Option.some_inj.mp h ▸ .processImage
  | storageVideo => exact Option.some_inj.mp h ▸ .storageVideo
  | loggerProcess =>
    obtain ⟨input, hinput, rfl⟩ := Option.map_eq_some_iff.mp h
    exact .loggerProcess input hinput
  | commandProcess => exact Option.some_inj.mp h ▸ .commandProcess
  | cameraCapture => simp [workData] at h
  | tcpRecv => simp [workData] at h
  | msgDeliver => simp [workData] at h

/-- Everything a write of an initialisation does to the statics. -/
inductive InitStep (d : ModuleData) : MainThread → ℕ → ModuleData → Prop
  | nothing (th : MainThread) (k : ℕ) (h : mutexAt th = none)
      (hrecv : th = .tcpRecv → k = 1 → d.linkPosted = true) : InitStep d th k d
  | udp (k : ℕ) (udp : UdpSendBuffer) (hk : k < 3) (h : udpInit d.udp k = some udp) :
      InitStep d .udpSend k { d with udp := udp }
  | tcp (k : ℕ) (tcp : TcpStartData) (hk : k < 5) (h : tcpInit d.tcp k = some tcp) :
      InitStep d .tcpSend k { d with tcp := tcp }
  | post : InitStep d .tcpSend 7 { d with linkPosted := true }
  | process (k : ℕ) (process : ProcessData) (hk : k < 2)
      (h : processDataInit d.process k = some process) :
      InitStep d .processImage k { d with process := process }
  | storage (k : ℕ) (storage : StorageData) (hk : k < 8)
      (h : storageDataInit d.storage k = some storage) :
      InitStep d .storageVideo k { d with storage := storage }
  | logger (k : ℕ) (logger : LoggerData) (hk : k < 5) (h : logInit d.logger k = some logger) :
      InitStep d .loggerProcess k { d with logger := logger }
  | command (k : ℕ) (command : CommandSlot) (hk : k < 1) (h : commandDataInit k = some command) :
      InitStep d .commandProcess k { d with command := command }
  | mutex (th : MainThread) (n : ℕ) (h : mutexAt th = some n) :
      InitStep d th n { d with mutexReady := Function.update d.mutexReady th true }
  | cond (th : MainThread) (n : ℕ) (h : mutexAt th = some n) :
      InitStep d th (n + 1) { d with condReady := Function.update d.condReady th true }

theorem syncInit_cases {d d' : ModuleData} {th : MainThread} {n k : ℕ} (hth : mutexAt th = some n)
    (h : syncInit d th n k = some d') : InitStep d th k d' := by
  rw [syncInit] at h
  split_ifs at h with hmutex hcond
  · subst hmutex
    exact Option.some_inj.mp h ▸ .mutex th k hth
  · subst hcond
    exact Option.some_inj.mp h ▸ .cond th n hth

theorem initWrite_cases {d d' : ModuleData} {th : MainThread} {k : ℕ}
    (h : initWrite d th k = some d') : InitStep d th k d' := by
  cases th with
  | cameraCapture =>
    simp only [initWrite] at h
    split_ifs at h
    exact Option.some_inj.mp h ▸ .nothing .cameraCapture k rfl nofun
  | msgDeliver =>
    simp only [initWrite] at h
    split_ifs at h
    exact Option.some_inj.mp h ▸ .nothing .msgDeliver k rfl nofun
  | tcpRecv =>
    simp only [initWrite] at h
    split_ifs at h with hzero hone
    · refine Option.some_inj.mp h ▸ .nothing .tcpRecv k rfl fun _ hk => ?_
      exact absurd (hzero.symm.trans hk) Nat.zero_ne_one
    · exact Option.some_inj.mp h ▸ .nothing .tcpRecv k rfl fun _ _ => hone.2
  | udpSend =>
    simp only [initWrite] at h
    split_ifs at h with hk
    · obtain ⟨udp, hudp, rfl⟩ := Option.map_eq_some_iff.mp h
      exact .udp k udp hk hudp
    · exact syncInit_cases rfl h
  | tcpSend =>
    simp only [initWrite] at h
    split_ifs at h with hk hpost
    · obtain ⟨tcp, htcp, rfl⟩ := Option.map_eq_some_iff.mp h
      exact .tcp k tcp hk htcp
    · subst hpost
      exact Option.some_inj.mp h ▸ .post
    · exact syncInit_cases rfl h
  | processImage =>
    simp only [initWrite] at h
    split_ifs at h with hk
    · obtain ⟨process, hprocess, rfl⟩ := Option.map_eq_some_iff.mp h
      exact .process k process hk hprocess
    · exact syncInit_cases rfl h
  | storageVideo =>
    simp only [initWrite] at h
    split_ifs at h with hk
    · obtain ⟨storage, hstorage, rfl⟩ := Option.map_eq_some_iff.mp h
      exact .storage k storage hk hstorage
    · exact syncInit_cases rfl h
  | loggerProcess =>
    simp only [initWrite] at h
    split_ifs at h with hk
    · obtain ⟨logger, hlogger, rfl⟩ := Option.map_eq_some_iff.mp h
      exact .logger k logger hk hlogger
    · exact syncInit_cases rfl h
  | commandProcess =>
    simp only [initWrite] at h
    split_ifs at h with hk
    · obtain ⟨command, hcommand, rfl⟩ := Option.map_eq_some_iff.mp h
      exact .command k command hk hcommand
    · exact syncInit_cases rfl h

/-! ### The fields set so far -/

/-- The pointers of the logger are set by the third and the fourth write. -/
def LoggerBuilt (d : LoggerData) (k : ℕ) : Prop :=
  (3 ≤ k → d.inputPtr ≠ none) ∧ (4 ≤ k → d.processPtr ≠ none)

/-- The buffer of the UDP sender is set by the second write. -/
def UdpBuilt (d : UdpSendBuffer) (k : ℕ) : Prop := 2 ≤ k → d.sendBuf ≠ none

/-- The buffer of the TCP sender is there when the link is posted. -/
def TcpBuilt (d : TcpStartData) (k : ℕ) : Prop := 4 ≤ k → d.sendBuf ≠ none

theorem LoggerBuilt.init {d d' : LoggerData} {k : ℕ} (h : LoggerBuilt d k)
    (hwrite : logInit d k = some d') : LoggerBuilt d' (k + 1) := by
  unfold LoggerBuilt at h ⊢
  match k, hwrite with
  | 0, hwrite => simp
  | 1, hwrite => simp
  | 2, hwrite => simp [← Option.some_inj.mp hwrite]
  | 3, hwrite => simpa [← Option.some_inj.mp hwrite] using h.1
  | 4, hwrite => simpa [← Option.some_inj.mp hwrite] using h

theorem UdpBuilt.init {d d' : UdpSendBuffer} {k : ℕ} (h : UdpBuilt d k)
    (hwrite : udpInit d k = some d') : UdpBuilt d' (k + 1) := by
  unfold UdpBuilt at h ⊢
  match k, hwrite with
  | 0, hwrite => simp
  | 1, hwrite => simp [← Option.some_inj.mp hwrite]
  | 2, hwrite => simpa [← Option.some_inj.mp hwrite] using h

theorem TcpBuilt.init {d d' : TcpStartData} {k : ℕ} (h : TcpBuilt d k)
    (hwrite : tcpInit d k = some d') : TcpBuilt d' (k + 1) := by
  unfold TcpBuilt at h ⊢
  match k, hwrite with
  | 0, hwrite => simp
  | 1, hwrite => simp
  | 2, hwrite => simp
  | 3, hwrite => simp [← Option.some_inj.mp hwrite]
  | 4, hwrite => simpa [← Option.some_inj.mp hwrite] using h

/-- What the statics hold while the threads initialise their modules. -/
structure Built (s : StartState) : Prop where
  logger : LoggerBuilt s.data.logger (s.progress .loggerProcess)
  udp : UdpBuilt s.data.udp (s.progress .udpSend)
  tcp : TcpBuilt s.data.tcp (s.progress .tcpSend)
  posted : s.data.linkPosted = true ↔ s.progress .tcpSend = initLength .tcpSend

/-- The mutexes and condition variables are initialised by their own writes. -/
def SyncBuilt (s : StartState) : Prop :=
  ∀ th n, mutexAt th = some n → (s.data.mutexReady th = true ↔ n < s.progress th) ∧
    (s.data.condReady th = true ↔ n + 1 < s.progress th)

@[simp] theorem progress_wrote (s : StartState) (th : MainThread) (d : ModuleData) :
    (s.wrote th d).progress = Function.update s.progress th (s.progress th + 1) := rfl

@[simp] theorem data_wrote (s : StartState) (th : MainThread) (d : ModuleData) :
    (s.wrote th d).data = d := rfl

/-- A write that leaves these fields as they are. -/
theorem Built.keep {s : StartState} {th : MainThread} {d : ModuleData} (h : Built s)
    (hlogger : d.logger = s.data.logger) (hudp : d.udp = s.data.udp) (htcp : d.tcp = s.data.tcp)
    (hposted : d.linkPosted = s.data.linkPosted)
    (hsync : ∀ n, mutexAt th = some n → th = .loggerProcess ∨ th = .udpSend ∨ th = .tcpSend →
      s.progress th = n ∨ s.progress th = n + 1) : Built (s.wrote th d) := by
  refine ⟨?_, ?_, ?_, ?_⟩
  · rw [data_wrote, hlogger, progress_wrote]
    by_cases hth : MainThread.loggerProcess = th
    · subst hth
      have hk := hsync 5 rfl (.inl rfl)
      exact ⟨fun _ => h.logger.1 (by omega), fun _ => h.logger.2 (by omega)⟩
    · rw [Function.update_of_ne hth]
      exact h.logger
  · rw [data_wrote, hudp, progress_wrote]
    by_cases hth : MainThread.udpSend = th
    · subst hth
      have hk := hsync 3 rfl (.inr (.inl rfl))
      exact fun _ => h.udp (by omega)
    · rw [Function.update_of_ne hth]
      exact h.udp
  · rw [data_wrote, htcp, progress_wrote]
    by_cases hth : MainThread.tcpSend = th
    · subst hth
      have hk := hsync 5 rfl (.inr (.inr rfl))
      exact fun _ => h.tcp (by omega)
    · rw [Function.update_of_ne hth]
      exact h.tcp
  · rw [data_wrote, hposted, progress_wrote]
    by_cases hth : MainThread.tcpSend = th
    · subst hth
      have hk := hsync 5 rfl (.inr (.inr rfl))
      rw [h.posted, Function.update_self, initLength]
      omega
    · rw [Function.update_of_ne hth]
      exact h.posted

theorem Built.wrote {s : StartState} {th : MainThread} {d : ModuleData} (h : Built s)
    (hwrite : initWrite s.data th (s.progress th) = some d) : Built (s.wrote th d) := by
  have hstep := initWrite_cases hwrite
  generalize hk : s.progress th = k at hstep
  cases hstep with
  | nothing th k hnone =>
    refine h.keep rfl rfl rfl rfl fun n hn => ?_
    rw [hnone] at hn
    cases hn
  | udp k udp hlt hudp =>
    rw [← hk] at hudp
    exact ⟨h.logger, h.udp.init hudp, h.tcp, h.posted⟩
  | tcp k tcp hlt htcp =>
    rw [← hk] at htcp
    refine ⟨h.logger, h.udp, h.tcp.init htcp, ?_⟩
    -- the link is posted by the last write
    have hposted := h.posted
    simp only [initLength, progress_wrote, Function.update_self, data_wrote] at hposted ⊢
    rw [hposted]
    omega
  | post =>
    refine ⟨h.logger, h.udp, ?_, ?_⟩
    · have htcp : s.data.tcp.sendBuf ≠ none := h.tcp (by omega)
      exact fun _ => htcp
    · simp [hk, initLength]
  | process k process => exact ⟨h.logger, h.udp, h.tcp, h.posted⟩
  | storage k storage => exact ⟨h.logger, h.udp, h.tcp, h.posted⟩
  | logger k logger hlt hlogger =>
    rw [← hk] at hlogger
    exact ⟨h.logger.init hlogger, h.udp, h.tcp, h.posted⟩
  | command k command => exact ⟨h.logger, h.udp, h.tcp, h.posted⟩
  | mutex th n hth =>
    refine h.keep rfl rfl rfl rfl fun m hm _ => .inl ?_
    rw [hk]
    exact Option.some_inj.mp (hth.symm.trans hm)
  | cond th n hth =>
    refine h.keep rfl rfl rfl rfl fun m hm _ => .inr ?_
    rw [hk]
    exact congrArg (· + 1) (Option.some_inj.mp (hth.symm.trans hm))

/-- A write in front of these two, or behind them. -/
theorem SyncBuilt.keep {s : StartState} {th : MainThread} {d : ModuleData} (h : SyncBuilt s)
    (hmutex : d.mutexReady = s.data.mutexReady) (hcond : d.condReady = s.data.condReady)
    (hk : ∀ n, mutexAt th = some n → s.progress th < n ∨ n + 1 < s.progress th) :
    SyncBuilt (s.wrote th d) := by
  intro th' n hn
  rw [data_wrote, hmutex, hcond, progress_wrote, (h th' n hn).1, (h th' n hn).2]
  by_cases hth : th' = th
  · subst hth
    have hlt := hk n hn
    rw [Function.update_self]
    omega
  · rw [Function.update_of_ne hth]
    exact ⟨Iff.rfl, Iff.rfl⟩

theorem SyncBuilt.wrote {s : StartState} {th : MainThread} {d : ModuleData} (h : SyncBuilt s)
    (hwrite : initWrite s.data th (s.progress th) = some d) : SyncBuilt (s.wrote th d) := by
  have hstep := initWrite_cases hwrite
  generalize hk : s.progress th = k at hstep
  have hfront : ∀ {n}, mutexAt th = some n → k < n →
      ∀ m, mutexAt th = some m → s.progress th < m ∨ m + 1 < s.progress th := by
    intro n hn hlt m hm
    obtain rfl := Option.some_inj.mp (hn.symm.trans hm)
    exact .inl (hk ▸ hlt)
  cases hstep with
  | nothing th k hnone =>
    refine h.keep rfl rfl fun n hn => ?_
    rw [hnone] at hn
    cases hn
  | udp k udp hlt => exact h.keep rfl rfl (hfront rfl hlt)
  | tcp k tcp hlt => exact h.keep rfl rfl (hfront rfl hlt)
  | post =>
    refine h.keep rfl rfl fun n hn => .inr ?_
    rw [hk, ← Option.some_inj.mp hn]
    exact Nat.lt_succ_self 6
  | process k process hlt => exact h.keep rfl rfl (hfront rfl hlt)
  | storage k storage hlt => exact h.keep rfl rfl (hfront rfl hlt)
  | logger k logger hlt => exact h.keep rfl rfl (hfront rfl hlt)
  | command k command hlt => exact h.keep rfl rfl (hfront rfl hlt)
  | mutex th n hth =>
    intro th' m hm
    have hth' := h th' m hm
    by_cases heq : th' = th
    · subst heq
      obtain rfl := Option.some_inj.mp (hth.symm.trans hm)
      simp only [data_wrote, progress_wrote, Function.update_self, hk]
      rw [hk] at hth'
      exact ⟨by simp, hth'.2.trans (by omega)⟩
    · simp only [data_wrote, progress_wrote, Function.update_of_ne heq]
      exact hth'
  | cond th n hth =>
    intro th' m hm
    have hth' := h th' m hm
    by_cases heq : th' = th
    · subst heq
      obtain rfl := Option.some_inj.mp (hth.symm.trans hm)
      simp only [data_wrote, progress_wrote, Function.update_self, hk]
      rw [hk] at hth'
      exact ⟨hth'.1.trans (by omega), by simp⟩
    · simp only [data_wrote, progress_wrote, Function.update_of_ne heq]
      exact hth'

/-- Everything the handler of a message can do, by the mutex it locks. -/
inductive HandlerStep (d : ModuleData) : Option MainThread → MsgType → HandlerEffect → Prop
  | logNull (h : d.logger.inputPtr = none) :
      HandlerStep d (some .loggerProcess) .log (.nullUse .loggerProcess)
  | log (count : Side → ℕ) : HandlerStep d (some .loggerProcess) .log
      (.done { d with logger := { d.logger with count := count } })
  | loggerCommand (cmd : ℤ) : HandlerStep d (some .loggerProcess) .command
      (.done { d with logger := { d.logger with cmd := cmd } })
  | storageNull (h : d.storage.writePtr = none ∨ d.storage.writeLensPtr = none ∨
        d.storage.writeTsPtr = none) :
      HandlerStep d (some .storageVideo) .image (.nullUse .storageVideo)
  | storageImage : HandlerStep d (some .storageVideo) .image
      (.done { d with storage := d.storage.stored })
  | udpNull (h : d.udp.sendBuf = none) :
      HandlerStep d (some .udpSend) .image (.nullUse .udpSend)
  | udpImage (len : UInt32) : HandlerStep d (some .udpSend) .image
      (.done { d with udp := { d.udp with sendBufLen := len, isSending := true } })
  | tcpNull (type : MsgType) (h : d.tcp.sendBuf = none) :
      HandlerStep d (some .tcpSend) type (.nullUse .tcpSend)
  | tcp (type : MsgType) (len : UInt32) (data : DataPtr) : HandlerStep d (some .tcpSend) type
      (.done { d with
        tcp := { d.tcp with sendBufLen := len, pBigdataMsg := data, isSending := true } })
  | alarmImage (len : UInt32) : HandlerStep d (some .processImage) .image
      (.done { d with process := ⟨len, true⟩ })
  | commandCommand (cmd : ℤ) : HandlerStep d (some .commandProcess) .command
      (.done { d with command := ⟨cmd, true⟩ })
  | other (locked : Option MainThread) (type : MsgType) : HandlerStep d locked type (.done d)

theorem startHandler_cases (d : ModuleData) (msg : CommonMsg) (len : UInt32) (cmd : ℤ) :
    HandlerStep d (lockedBy msg len) msg.msgType (startHandler d msg len cmd) := by
  obtain ⟨src, dst, dataLen, type, priority, data⟩ := msg
  unfold startHandler
  dsimp only
  split
  · rw [startLog]
    split
    · next h => exact .logNull h
    · next side h => exact .log _
  · exact .loggerCommand cmd
  · rw [startStorageImage]
    split_ifs with h
    · exact .storageNull h
    · exact .storageImage
  · rw [startUdpImage]
    split_ifs with h
    · exact .other _ _
    · split
      · next hnull => exact .udpNull hnull
      · exact .udpImage len
  · rw [startTcpImage]
    split_ifs with hno
    · exact .other _ _
    · have hlock : lockedBy ⟨src, .tcpSend, dataLen, .image, priority, data⟩ len =
          some .tcpSend := if_neg fun hlen => hno (.inl hlen)
      rw [hlock]
      split
      · next hnull => exact .tcpNull _ hnull
      · exact .tcp _ len d.tcp.pBigdataMsg
  · rw [startTcpBigdata]
    split_ifs with hno
    · exact .other _ _
    · have hlock : lockedBy ⟨src, .tcpSend, dataLen, .bigdata, priority, data⟩ len =
          some .tcpSend := if_neg fun hnone => hno (hnone.imp_right .inl)
      rw [hlock]
      exact .tcp _ d.tcp.sendBufLen data
  · exact .alarmImage len
  · exact .commandCommand cmd
  · exact .other _ _

theorem Built.handled {s : StartState} {m : MsgState} {locked unready : Option MainThread}
    {type : MsgType} {effect : HandlerEffect} (h : Built s)
    (heffect : HandlerStep s.data locked type effect) :
    Built ({ s with msgs := m }.handled unready effect) := by
  cases heffect <;> exact ⟨h.logger, h.udp, h.tcp, h.posted⟩

/-- Behind its initialisation a thread leaves the pointers set. -/
theorem Built.worked {s : StartState} {th : MainThread} {d : ModuleData} (h : Built s)
    (hready : s.progress th = initLength th) (hwork : workData s.data th = some d) :
    Built (s.worked th d) := by
  cases workData_cases hwork with
  | loggerProcess input hinput =>
    refine ⟨?_, h.udp, h.tcp, h.posted⟩
    -- both pointers are set, and stay so when they are swapped
    have hready : s.progress .loggerProcess = 7 := hready
    refine ⟨fun _ => h.logger.2 (by omega), fun _ => ?_⟩
    simp [StartState.worked]
  | _ => exact ⟨h.logger, h.udp, h.tcp, h.posted⟩

theorem Built.step {build : Build} {s t : StartState} {a : StartAction} (h : Built s)
    (ht : StartStep build s a t) : Built t := by
  cases ht with
  | init th d hwrite => exact h.wrote hwrite
  | dispatch th msg bytes m hready hmay hm => exact ⟨h.logger, h.udp, h.tcp, h.posted⟩
  | msg a m hsend hm => exact ⟨h.logger, h.udp, h.tcp, h.posted⟩
  | handlerReturn len cmd e m hc hm =>
    exact h.handled (startHandler_cases s.data e.queued len cmd)
  | work th d hready hwork => exact h.worked hready hwork

theorem SyncBuilt.handled {s : StartState} {m : MsgState} {locked unready : Option MainThread}
    {type : MsgType} {effect : HandlerEffect} (h : SyncBuilt s)
    (heffect : HandlerStep s.data locked type effect) :
    SyncBuilt ({ s with msgs := m }.handled unready effect) := by
  cases heffect <;> exact h

/-- Only the initialisations touch the mutexes and condition variables. -/
theorem SyncBuilt.step {build : Build} {s t : StartState} {a : StartAction} (h : SyncBuilt s)
    (ht : StartStep build s a t) : SyncBuilt t := by
  cases ht with
  | init th d hwrite => exact h.wrote hwrite
  | dispatch th msg bytes m hready hmay hm => exact h
  | msg a m hsend hm => exact h
  | handlerReturn len cmd e m hc hm =>
    exact h.handled (startHandler_cases s.data e.queued len cmd)
  | work th d hready hwork => cases workData_cases hwork <;> exact h

theorem built_init : Built .init := by
  refine ⟨⟨?_, ?_⟩, ?_, ?_, ?_⟩
  · exact fun h => absurd h (Nat.not_succ_le_zero 2)
  · exact fun h => absurd h (Nat.not_succ_le_zero 3)
  · exact fun h => absurd h (Nat.not_succ_le_zero 1)
  · exact fun h => absurd h (Nat.not_succ_le_zero 3)
  · exact ⟨nofun, nofun⟩

theorem syncBuilt_init : SyncBuilt .init :=
  fun _ _ _ => ⟨⟨nofun, nofun⟩, ⟨nofun, nofun⟩⟩

/-! ### Commands come behind the TCP sender -/

/-- A message that is there only when the link was posted: a command, a BIGDATA, or anything
for the TCP sender. -/
def CommonMsg.needsLink (msg : CommonMsg) : Bool :=
  msg.msgType = .command ∨ msg.msgType = .bigdata ∨ msg.dstModule = .tcpSend

/-- Commands and what follows from them are only there when the link was posted. -/
structure LinkPosted (s : StartState) : Prop where
  live : ∀ e ∈ s.msgs.live, e.queued.needsLink = true → s.data.linkPosted = true
  recv : s.progress .tcpRecv = initLength .tcpRecv → s.data.linkPosted = true
  cmd : s.data.logger.cmd ≠ 0 → s.data.linkPosted = true
  pending : s.data.command.cmdPending = true → s.data.linkPosted = true
  answering : ∀ th, s.answering th = true → s.data.linkPosted = true

theorem linkPosted_init : LinkPosted .init := by
  refine ⟨?_, nofun, fun h => absurd rfl h, nofun, nofun⟩
  intro e he
  simp [StartState.init, MsgState.live, MsgState.init] at he

/-- The writes of the initialisations leave the link posted and set no command, and those of
the other threads leave the storage alone. -/
theorem initWrite_frame {d d' : ModuleData} {th : MainThread} {k : ℕ}
    (h : initWrite d th k = some d') : (d.linkPosted = true → d'.linkPosted = true) ∧
      (d'.logger.cmd ≠ 0 → d.logger.cmd ≠ 0) ∧
      (d'.command.cmdPending = true → d.command.cmdPending = true) ∧
      (th = .tcpRecv → k = 1 → d'.linkPosted = true) ∧
      (th ≠ .storageVideo → d'.storage = d.storage) := by
  cases initWrite_cases h with
  | nothing th k hnone hrecv => exact ⟨id, id, id, hrecv, fun _ => rfl⟩
  | udp k udp => exact ⟨id, id, id, nofun, fun _ => rfl⟩
  | tcp k tcp => exact ⟨id, id, id, nofun, fun _ => rfl⟩
  | post => exact ⟨fun _ => rfl, id, id, nofun, fun _ => rfl⟩
  | process k process => exact ⟨id, id, id, nofun, fun _ => rfl⟩
  | storage k storage => exact ⟨id, id, id, nofun, fun hne => absurd rfl hne⟩
  | logger k logger hk hlogger =>
    refine ⟨id, ?_, id, nofun, fun _ => rfl⟩
    match k, hlogger with
    | 0, hlogger => exact Option.some_inj.mp hlogger ▸ id
    | 1, hlogger => exact Option.some_inj.mp hlogger ▸ id
    | 2, hlogger => exact Option.some_inj.mp hlogger ▸ id
    | 3, hlogger => exact Option.some_inj.mp hlogger ▸ id
    | 4, hlogger => exact Option.some_inj.mp hlogger ▸ fun hne => absurd rfl hne
  | command k command hk hcommand =>
    refine ⟨id, id, ?_, nofun, fun _ => rfl⟩
    match k, hcommand with
    | 0, hcommand =>
      rw [← Option.some_inj.mp hcommand]
      nofun
  | mutex th n hth =>
    refine ⟨id, id, id, ?_, fun _ => rfl⟩
    rintro rfl
    cases hth
  | cond th n hth =>
    refine ⟨id, id, id, ?_, fun _ => rfl⟩
    rintro rfl
    cases hth

theorem LinkPosted.wrote {s : StartState} {th : MainThread} {d : ModuleData} (h : LinkPosted s)
    (hwrite : initWrite s.data th (s.progress th) = some d) : LinkPosted (s.wrote th d) := by
  obtain ⟨hposted, hcmd, hpending, hrecv, -⟩ := initWrite_frame hwrite
  refine ⟨fun e he hlink => hposted (h.live e he hlink), ?_, fun hne => hposted (h.cmd (hcmd hne)),
    fun hpend => hposted (h.pending (hpending hpend)),
    fun th' hans => hposted (h.answering th' hans)⟩
  intro hlength
  by_cases hth : th = .tcpRecv
  · subst hth
    simp only [progress_wrote, Function.update_self, initLength] at hlength
    exact hrecv rfl (by omega)
  · rw [progress_wrote, Function.update_of_ne (Ne.symm hth)] at hlength
    exact hposted (h.recv hlength)

theorem queued_needsLink (s : MsgState) (msg : CommonMsg) (bytes : List UInt8) :
    (acceptedEntry s msg bytes).queued.needsLink = msg.needsLink := by
  simp only [CommonMsg.needsLink, acceptedEntry, msgType_prepare, dstModule_prepare]

/-- A thread that dispatches such a message has the link. -/
theorem LinkPosted.of_mayDispatch {s : StartState} {th : MainThread} {msg : CommonMsg}
    (h : LinkPosted s) (hb : Built s) (hready : s.progress th = initLength th)
    (hmay : mayDispatch s th msg = true) (hlink : msg.needsLink = true) :
    s.data.linkPosted = true := by
  simp only [CommonMsg.needsLink, decide_eq_true_eq] at hlink
  -- a handler that dispatches a BIGDATA serves one
  have hserving : (s.serving fun m => m.msgType = .bigdata) = true → s.data.linkPosted = true := by
    intro hserving
    rw [StartState.serving] at hserving
    split at hserving
    · next e hc =>
      refine h.live e ((live_of_current hc).symm ▸ List.mem_cons_self) ?_
      simp only [decide_eq_true_eq] at hserving
      simp [CommonMsg.needsLink, hserving]
    · simp at hserving
  unfold Sentry.mayDispatch at hmay
  split at hmay
  case h_7 => exact h.answering _ hmay
  case h_9 => exact h.answering _ hmay
  case h_10 => exact hb.posted.mpr hready
  case h_12 => exact h.recv hready
  case h_14 => exact hserving hmay
  case h_15 => simp at hmay
  -- the others are a picture, an alarm or a log message
  all_goals simp_all

/-- A handler serves a live message. -/
theorem LinkPosted.handled {s : StartState} {e : Entry} {m : MsgState} {len : UInt32} {cmd : ℤ}
    (h : LinkPosted s) (hc : s.msgs.current = some (.serving, e))
    (hm : ∀ x ∈ m.live, x ∈ s.msgs.live) :
    LinkPosted ({ s with msgs := m }.handled (unreadyUse s.data e.queued len)
      (startHandler s.data e.queued len cmd)) := by
  have hlink : e.queued.needsLink = true → s.data.linkPosted = true :=
    h.live e ((live_of_current hc).symm ▸ List.mem_cons_self)
  have hlive : ∀ x ∈ m.live, x.queued.needsLink = true → s.data.linkPosted = true :=
    fun x hx => h.live x (hm x hx)
  have hcommand : e.queued.msgType = .command → s.data.linkPosted = true := by
    intro htype
    exact hlink (by simp [CommonMsg.needsLink, htype])
  have heffect := startHandler_cases s.data e.queued len cmd
  generalize unreadyUse s.data e.queued len = unready
  generalize lockedBy e.queued len = locked at heffect
  generalize htype : e.queued.msgType = type at heffect
  generalize startHandler s.data e.queued len cmd = effect at heffect ⊢
  cases heffect with
  | loggerCommand cmd =>
    have hposted := hcommand htype
    exact ⟨hlive, h.recv, fun _ => hposted, h.pending, h.answering⟩
  | commandCommand cmd =>
    have hposted := hcommand htype
    exact ⟨hlive, h.recv, h.cmd, fun _ => hposted, h.answering⟩
  | _ => exact ⟨hlive, h.recv, h.cmd, h.pending, h.answering⟩

theorem LinkPosted.worked {s : StartState} {th : MainThread} {d : ModuleData} (h : LinkPosted s)
    (hwork : workData s.data th = some d) : LinkPosted (s.worked th d) := by
  have hanswering : ∀ th', (s.worked th d).answering th' = true → s.data.linkPosted = true := by
    intro th' hans
    simp only [StartState.worked] at hans
    split_ifs at hans with htakes
    · by_cases hth : th' = th
      · cases th with
        | loggerProcess =>
          have hcmd : s.data.logger.cmd = cmdLogUploadDb := of_decide_eq_true htakes
          exact h.cmd (by rw [hcmd]; decide)
        | commandProcess => exact h.pending htakes
        | _ => exact absurd htakes Bool.false_ne_true
      · rw [Function.update_of_ne hth] at hans
        exact h.answering th' hans
    · exact h.answering th' hans
  cases workData_cases hwork with
  | loggerProcess input hinput =>
    refine ⟨h.live, h.recv, ?_, h.pending, hanswering⟩
    intro hcmd
    refine h.cmd ?_
    simp only [StartState.worked] at hcmd
    split_ifs at hcmd with hupload
    · exact absurd rfl hcmd
    · exact hcmd
  | commandProcess => exact ⟨h.live, h.recv, h.cmd, nofun, hanswering⟩
  | udpSend => exact ⟨h.live, h.recv, h.cmd, h.pending, hanswering⟩
  | tcpSend => exact ⟨h.live, h.recv, h.cmd, h.pending, hanswering⟩
  | processImage => exact ⟨h.live, h.recv, h.cmd, h.pending, hanswering⟩
  | storageVideo => exact ⟨h.live, h.recv, h.cmd, h.pending, hanswering⟩

theorem LinkPosted.step {build : Build} {s t : StartState} {a : StartAction} (h : LinkPosted s)
    (hb : Built s) (ht : StartStep build s a t) : LinkPosted t := by
  cases ht with
  | init th d hwrite => exact h.wrote hwrite
  | dispatch th msg bytes m hready hmay hm =>
    refine ⟨?_, h.recv, h.cmd, h.pending, h.answering⟩
    intro e he hlink
    rcases mem_live_msgStep hm he with he | ⟨msg', bytes', heq, -, rfl⟩
    · exact h.live e he hlink
    · injection heq with hmsg hbytes
      subst hmsg hbytes
      exact h.of_mayDispatch hb hready hmay ((queued_needsLink s.msgs msg bytes).symm.trans hlink)
  | msg a m hsend hm =>
    refine ⟨?_, h.recv, h.cmd, h.pending, h.answering⟩
    intro e he hlink
    rcases mem_live_msgStep hm he with he | ⟨msg', bytes', heq, -, rfl⟩
    · exact h.live e he hlink
    · exact absurd heq (hsend msg' bytes')
  | handlerReturn len cmd e m hc hm =>
    refine h.handled hc ?_
    intro x hx
    rcases mem_live_msgStep hm hx with hx | ⟨msg', bytes', heq, -, rfl⟩
    · exact hx
    · exact absurd heq nofun
  | work th d hready hwork => exact h.worked hwork

theorem built_linkPosted {build : Build} {s : StartState}
    (hs : (startSystem build).Reachable s) : Built s ∧ LinkPosted s := by
  refine hs.invariant (P := fun s => Built s ∧ LinkPosted s) ⟨built_init, linkPosted_init⟩ ?_
  intro s a t ih _ ht
  have hstep := (startStep_cases ht).2
  exact ⟨ih.1.step hstep, ih.2.step ih.1 hstep⟩

theorem syncBuilt_reachable {build : Build} {s : StartState}
    (hs : (startSystem build).Reachable s) : SyncBuilt s :=
  hs.invariant syncBuilt_init fun _ _ _ h _ ht => h.step (startStep_cases ht).2

/-- **Nothing reaches the TCP sender in front of the end of `Tcp_Init`.** -/
theorem tcpSend_initialised {build : Build} {s : StartState}
    (hs : (startSystem build).Reachable s) {e : Entry} (he : e ∈ s.msgs.live)
    (hdst : e.queued.dstModule = .tcpSend) : s.progress .tcpSend = initLength .tcpSend := by
  obtain ⟨hbuilt, hlink⟩ := built_linkPosted hs
  refine hbuilt.posted.mp (hlink.live e he ?_)
  simp [CommonMsg.needsLink, hdst]

end Sentry
