/-
The connections of the host (`src/QT/Desktop/src/net/Tcp_ControlWorker.cpp`).

One device is served at a time.  Its connection may break off inside a frame, others may come while
it is there, and the server may be stopped and started.  The slots are called in any order.

* `HostSession`, `hostStep` — the worker with its server and its socket;
* `SessionInv`, `sessionInv` — each connection has a receiver of its own;
* `session_uploads` — what is emitted of a connection is what was uploaded over it.
-/
import SentrySystem.Lib.Transition
import SentrySystem.TcpUpload

namespace Sentry

/-! ### The worker -/

/-- The signals; those of a frame come with the connection it was read from. -/
inductive HostSignal
  | listeningChanged (listening : Bool)
  | errorOccurred (msg : String)
  | clientConnected
  | clientDisconnected
  | received (socket : ℕ) (signal : Signal)
  deriving DecidableEq

/-- `m_server`, `m_socket`, and what the receiver uses.  Connections are numbered in the order in
which they are taken from the server; of each there are the bytes read and those that wait in its
socket. -/
structure HostSession where
  mServer : Bool
  mSocket : Option ℕ
  worker : TcpControlWorker
  taken : ℕ
  read : ℕ → List UInt8
  unread : ℕ → List UInt8
  emitted : List HostSignal

/-- The worker as it is constructed. -/
def HostSession.init : HostSession where
  mServer := false
  mSocket := none
  worker := .connected
  taken := 0
  read _ := []
  unread _ := []
  emitted := []

namespace HostSession

/-- `m_buffer.clear()` and `m_frameBuffer.clear()`. -/
def clear (s : HostSession) : HostSession :=
  { s with worker := ⟨⟨∅, s.worker.mLastCompleteFrameId⟩, []⟩ }

/-- A signal. -/
def emit (s : HostSession) (signal : HostSignal) : HostSession :=
  { s with emitted := s.emitted ++ [signal] }

/-- `startServer`; `error` is the error of `listen`, if it fails. -/
def startServer (s : HostSession) (port : UInt16) (error : Option String) : HostSession :=
  if s.mServer = true then s
  else
    let s := { s with mServer := true }
    match error with
    | some text =>
      (s.emit (.errorOccurred ("TCP 监听端口 " ++ toString port ++ " 失败: " ++ text))).emit
        (.listeningChanged false)
    | none => s.emit (.listeningChanged true)

/-- `onDisconnected`. -/
def onDisconnected (s : HostSession) : HostSession :=
  ({ s with mSocket := none }.clear).emit .clientDisconnected

/-- `stopServer`; `disconnectFromHost` may emit `disconnected` at once.  `m_socket` is null then, and
the source calls `deleteLater` on it all the same: what follows is as if this call did nothing. -/
def stopServer (s : HostSession) (atOnce : Bool) : HostSession :=
  let s := if s.mSocket.isSome ∧ atOnce = true then s.onDisconnected else s
  ({ s with mSocket := none, mServer := false }.clear).emit (.listeningChanged false)

/-- One round of the loop in `onNewConnection`. -/
def takeConnection (s : HostSession) : HostSession :=
  let sock := s.taken
  let s := { s with taken := s.taken + 1 }
  if s.mSocket.isSome then s
  else { s with mSocket := some sock, worker := .connected }.emit .clientConnected

/-- `onNewConnection`, with so many connections pending. -/
def onNewConnection (s : HostSession) (pending : ℕ) : HostSession :=
  if s.mServer = true then takeConnection^[pending] s else s

/-- `onReadyRead`. -/
def readyRead (s : HostSession) : HostSession :=
  match s.mSocket with
  | none => s
  | some sock =>
    let r := onReadyRead s.worker (s.unread sock)
    { s with
      worker := r.1
      read := Function.update s.read sock (s.read sock ++ s.unread sock)
      unread := Function.update s.unread sock []
      emitted := s.emitted ++ r.2.map (.received sock) }

/-- Bytes arrive at a socket. -/
def arrive (s : HostSession) (sock : ℕ) (bytes : List UInt8) : HostSession :=
  { s with unread := Function.update s.unread sock (s.unread sock ++ bytes) }

end HostSession

/-- What may happen. -/
inductive HostAction
  | startServer (port : UInt16) (error : Option String)
  | stopServer (atOnce : Bool)
  | newConnection (pending : ℕ)
  | arrive (sock : ℕ) (bytes : List UInt8)
  | readyRead
  | disconnected

/-- One call. -/
def hostStep (s : HostSession) : HostAction → HostSession
  | .startServer port error => s.startServer port error
  | .stopServer atOnce => s.stopServer atOnce
  | .newConnection pending => s.onNewConnection pending
  | .arrive sock bytes => s.arrive sock bytes
  | .readyRead => s.readyRead
  | .disconnected => s.onDisconnected

/-- The worker and what it is connected to. -/
def hostSystem : TransitionSystem HostSession HostAction where
  init := .init
  step s a := some (hostStep s a)

/-! ### The connections -/

/-- What has arrived at a connection. -/
def HostSession.arrived (s : HostSession) (sock : ℕ) : List UInt8 := s.read sock ++ s.unread sock

/-- The signal of a frame, if it is of this connection. -/
def HostSignal.ofSocket (sock : ℕ) : HostSignal → Option Signal
  | .received sock' signal => if sock' = sock then some signal else none
  | _ => none

/-- The signals of a connection. -/
def HostSession.signalsOf (s : HostSession) (sock : ℕ) : List Signal :=
  s.emitted.filterMap (HostSignal.ofSocket sock)

/-- What a receiver of its own makes of the bytes of a connection. -/
def received (bytes : List UInt8) : Reassembly × List Signal × List UInt8 :=
  packetParser.drain ⟨∅, 0⟩ bytes

theorem received_append (bytes more : List UInt8) :
    received (bytes ++ more) =
      ((packetParser.drain (received bytes).1 ((received bytes).2.2 ++ more)).1,
        (received bytes).2.1 ++
          (packetParser.drain (received bytes).1 ((received bytes).2.2 ++ more)).2.1,
        (packetParser.drain (received bytes).1 ((received bytes).2.2 ++ more)).2.2) :=
  StreamParser.drain_append _ _ _

theorem received_nil : received [] = (⟨∅, 0⟩, [], []) := drain_of_short (by decide)

/-- **Each connection has a receiver of its own**: the worker is the receiver of the current one,
and the signals are those of all of them. -/
structure SessionInv (s : HostSession) : Prop where
  /-- the connections to come -/
  fresh : ∀ sock, s.taken ≤ sock → s.read sock = []
  /-- the current connection -/
  current : ∀ sock ∈ s.mSocket, sock < s.taken ∧
    s.worker = ⟨(received (s.read sock)).1, (received (s.read sock)).2.2⟩
  /-- all connections -/
  signals : ∀ sock, s.signalsOf sock = (received (s.read sock)).2.1

theorem sessionInv_init : SessionInv .init where
  fresh _ _ := rfl
  current := by
    intro sock h
    cases h
  signals sock := by
    show [] = (received []).2.1
    rw [received_nil]

/-- No socket, and nothing emitted of a connection. -/
theorem SessionInv.idle {s t : HostSession} (h : SessionInv s) (htaken : t.taken = s.taken)
    (hread : t.read = s.read) (hsocket : t.mSocket = none)
    (hsignals : ∀ sock, t.signalsOf sock = s.signalsOf sock) : SessionInv t where
  fresh sock hsock := by
    rw [hread]
    exact h.fresh sock (htaken ▸ hsock)
  current := by
    intro sock hsock
    rw [hsocket] at hsock
    cases hsock
  signals sock := by
    rw [hsignals, hread]
    exact h.signals sock

theorem signalsOf_append (s : HostSession) (more : List HostSignal) (sock : ℕ) :
    { s with emitted := s.emitted ++ more }.signalsOf sock =
      s.signalsOf sock ++ more.filterMap (HostSignal.ofSocket sock) :=
  List.filterMap_append

theorem signalsOf_emit (s : HostSession) {signal : HostSignal}
    (h : ∀ sock, signal.ofSocket sock = none) (sock : ℕ) :
    (s.emit signal).signalsOf sock = s.signalsOf sock := by
  rw [HostSession.emit, signalsOf_append, List.filterMap_cons_none (h sock), List.filterMap_nil,
    List.append_nil]

theorem filterMap_received (sock sock' : ℕ) (signals : List Signal) :
    (signals.map (HostSignal.received sock)).filterMap (HostSignal.ofSocket sock') =
      if sock = sock' then signals else [] := by
  induction signals with
  | nil => rw [List.map_nil, List.filterMap_nil, ite_self]
  | cons signal signals ih =>
    rw [List.map_cons, List.filterMap_cons, ih]
    by_cases h : sock = sock'
    · simp [HostSignal.ofSocket, h]
    · simp [HostSignal.ofSocket, h]

theorem SessionInv.startServer {s : HostSession} (h : SessionInv s) (port : UInt16)
    (error : Option String) : SessionInv (s.startServer port error) := by
  have hemit : ∀ t : HostSession, SessionInv t → ∀ signal : HostSignal,
      (∀ sock, signal.ofSocket sock = none) → SessionInv (t.emit signal) := by
    intro t ht signal hsignal
    exact ⟨ht.fresh, ht.current, fun sock => (signalsOf_emit t hsignal sock).trans (ht.signals sock)⟩
  have hserver : SessionInv { s with mServer := true } := ⟨h.fresh, h.current, h.signals⟩
  rw [HostSession.startServer]
  split_ifs
  · exact h
  · cases error with
    | some text => exact hemit _ (hemit _ hserver _ fun _ => rfl) _ fun _ => rfl
    | none => exact hemit _ hserver _ fun _ => rfl

theorem SessionInv.onDisconnected {s : HostSession} (h : SessionInv s) :
    SessionInv s.onDisconnected := by
  refine h.idle rfl rfl rfl fun sock => ?_
  rw [HostSession.onDisconnected, signalsOf_emit _ fun _ => rfl]
  rfl

theorem SessionInv.stopServer {s : HostSession} (h : SessionInv s) (atOnce : Bool) :
    SessionInv (s.stopServer atOnce) := by
  have hstop : ∀ t : HostSession, SessionInv t →
      SessionInv (({ t with mSocket := none, mServer := false }.clear).emit
        (.listeningChanged false)) := by
    intro t ht
    exact ht.idle rfl rfl rfl fun sock =>
      signalsOf_emit { t with mSocket := none, mServer := false }.clear (fun _ => rfl) sock
  rw [HostSession.stopServer]
  split_ifs
  · exact hstop _ h.onDisconnected
  · exact hstop _ h

theorem SessionInv.takeConnection {s : HostSession} (h : SessionInv s) :
    SessionInv s.takeConnection := by
  rw [HostSession.takeConnection]
  split_ifs with hsocket
  · -- refused
    refine ⟨fun sock hsock => h.fresh sock (Nat.le_of_succ_le hsock), fun sock hsock => ?_, h.signals⟩
    obtain ⟨hlt, hworker⟩ := h.current sock hsock
    exact ⟨Nat.lt_succ_of_lt hlt, hworker⟩
  · refine ⟨fun sock hsock => h.fresh sock (Nat.le_of_succ_le hsock), ?_, fun sock => ?_⟩
    · rintro _ ⟨⟩
      refine ⟨Nat.lt_succ_self _, ?_⟩
      show TcpControlWorker.connected = ⟨(received (s.read s.taken)).1, (received (s.read s.taken)).2.2⟩
      rw [h.fresh s.taken le_rfl, received_nil]
      rfl
    · refine (signalsOf_emit _ (fun _ => rfl) sock).trans ?_
      exact h.signals sock

theorem SessionInv.onNewConnection {s : HostSession} (h : SessionInv s) (pending : ℕ) :
    SessionInv (s.onNewConnection pending) := by
  rw [HostSession.onNewConnection]
  split_ifs
  · induction pending with
    | zero => exact h
    | succ n ih =>
      rw [Function.iterate_succ_apply']
      exact ih.takeConnection
  · exact h

theorem SessionInv.readyRead {s : HostSession} (h : SessionInv s) : SessionInv s.readyRead := by
  rw [HostSession.readyRead]
  cases hsocket : s.mSocket with
  | none => exact h
  | some sock =>
    obtain ⟨hlt, hworker⟩ := h.current sock hsocket
    have happend := received_append (s.read sock) (s.unread sock)
    refine ⟨fun sock' hsock' => ?_, ?_, fun sock' => ?_⟩
    · have hne : sock' ≠ sock := by
        rintro rfl
        exact absurd hlt (Nat.not_lt.mpr hsock')
      show Function.update s.read sock _ sock' = []
      rw [Function.update_of_ne hne]
      exact h.fresh sock' hsock'
    · intro sock' hsock'
      obtain rfl : sock = sock' := Option.some_inj.mp hsock'
      refine ⟨hlt, ?_⟩
      show (Sentry.onReadyRead s.worker (s.unread sock)).1 =
        ⟨(received (Function.update s.read sock _ sock)).1,
          (received (Function.update s.read sock _ sock)).2.2⟩
      rw [Function.update_self, happend, hworker]
      rfl
    · show { s with
          emitted := s.emitted ++
            (Sentry.onReadyRead s.worker (s.unread sock)).2.map (HostSignal.received sock) }.signalsOf sock' =
        (received (Function.update s.read sock (s.read sock ++ s.unread sock) sock')).2.1
      rw [signalsOf_append, filterMap_received, h.signals sock']
      by_cases heq : sock = sock'
      · obtain rfl := heq
        rw [if_pos rfl, Function.update_self, happend, hworker]
        rfl
      · rw [if_neg heq, List.append_nil, Function.update_of_ne (Ne.symm heq)]

theorem sessionInv_step {s : HostSession} (h : SessionInv s) (a : HostAction) :
    SessionInv (hostStep s a) := by
  cases a with
  | startServer port error => exact h.startServer port error
  | stopServer atOnce => exact h.stopServer atOnce
  | newConnection pending => exact h.onNewConnection pending
  | arrive sock bytes => exact ⟨h.fresh, h.current, h.signals⟩
  | readyRead => exact h.readyRead
  | disconnected => exact h.onDisconnected

theorem sessionInv {s : HostSession} (hs : hostSystem.Reachable s) : SessionInv s :=
  hs.invariant sessionInv_init fun _ a _ h _ ht => by
    obtain rfl := Option.some_inj.mp ht
    exact sessionInv_step h a

/-! ### What is uploaded -/

theorem signals_received_prefix {bytes all : List UInt8} (h : bytes <+: all) :
    (received bytes).2.1 <+: (received all).2.1 := by
  obtain ⟨more, rfl⟩ := h
  rw [received_append]
  exact List.prefix_append _ _

theorem received_upload {items : List UploadItem} (hitems : ∀ item ∈ items, item.Sendable)
    {frameId : UInt32} (hwrap : frameId.toNat + items.length ≤ 2 ^ 32) :
    (received (uploadBytes frameId items)).2.1 = items.map UploadItem.signal := by
  have hfirst : (0 : UInt32).toNat ≤ frameId.toNat := Nat.zero_le _
  obtain ⟨last', hread⟩ := consumes_upload hitems hfirst hwrap
  rw [received, hread.drain (step_of_short (by decide))]

/-- **Uploads over one connection of many**: whatever other connections come, break off or are
refused, and whenever the server is stopped and started, what is emitted of a connection are the
first items uploaded over it, in order; all of them once everything was read.  The items are such
as a successful upload has, and the frame ids do not wrap. -/
theorem session_uploads {s : HostSession} (hs : hostSystem.Reachable s) {sock : ℕ}
    {items : List UploadItem} (hitems : ∀ item ∈ items, item.Sendable) {frameId : UInt32}
    (hwrap : frameId.toNat + items.length ≤ 2 ^ 32)
    (harrived : s.arrived sock <+: uploadBytes frameId items) :
    s.signalsOf sock <+: items.map UploadItem.signal ∧
      (s.arrived sock = uploadBytes frameId items → s.unread sock = [] →
        s.signalsOf sock = items.map UploadItem.signal) := by
  have hsignals := (sessionInv hs).signals sock
  have hupload := received_upload hitems hwrap
  refine ⟨?_, fun hall hread => ?_⟩
  · rw [hsignals, ← hupload]
    exact signals_received_prefix ((List.prefix_append _ _).trans harrived)
  · rw [HostSession.arrived, hread, List.append_nil] at hall
    rw [hsignals, hall, hupload]

/-- A connection breaks off inside a frame; the device sends the picture again over the next. -/
theorem session_uploads_again :
    let items : List UploadItem := [⟨.image, [4, 5], 8, fun _ => true⟩]
    ∃ s, hostSystem.Reachable s ∧ s.arrived 0 = (uploadBytes 9 items).take 33 ∧
      s.signalsOf 0 <+: items.map UploadItem.signal ∧
      s.signalsOf 1 = [.fileReceived 1 [4, 5] 8] := by
  intro items
  have hitems : ∀ item ∈ items, item.Sendable := by simp [items, UploadItem.Sendable]
  have hrun : ∀ bytes again, ∃ s, hostSystem.run .init [.startServer 8080 none, .newConnection 1,
      .arrive 0 bytes, .readyRead, .disconnected, .newConnection 1, .arrive 1 again,
      .readyRead] = some s ∧ s.arrived 0 = bytes ∧ s.arrived 1 = again ∧ s.unread 1 = [] :=
    fun _ _ => ⟨_, rfl, List.append_nil _, List.append_nil _, rfl⟩
  obtain ⟨s, hs, hbroken, hagain, hread⟩ := hrun ((uploadBytes 9 items).take 33) (uploadBytes 9 items)
  refine ⟨s, .of_run hs, hbroken, ?_, ?_⟩
  · exact (session_uploads (.of_run hs) hitems (by decide)
      (hbroken ▸ List.take_prefix 33 (uploadBytes 9 items))).1
  · exact (session_uploads (.of_run hs) hitems (by decide)
      (hagain ▸ List.prefix_rfl)).2 hagain hread

end Sentry
