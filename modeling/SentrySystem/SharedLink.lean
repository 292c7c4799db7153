/-
The connection shared by the two TCP threads (`src/net/tcp_send.c`,
`src/net/tcp_recv.c`, `src/net/tcp_shared.c`).

`tcp_send_thread` opens a socket for `link.Sock`, connects it without the lock, and sets
`link.connected` with the lock held.  `tcp_recv_thread` remembers the number of the
descriptor it reads from; when a read fails it closes this number if `link.Sock` is
still the same.  A step is one system call, or one section under the lock, and the
code behind it; other parts of the program open and close descriptors of their
own, and `running` stays set.

* `tcpSendStep`, `tcpRecvStep` — the two threads;
* `linkSystem` — both of them over the descriptors of the process;
* `LinkStep` — everything one step can do;
* `SharedLinkLaw` — the reader closes only its own connection, and `connected` means an
  open one;
* `sharedLinkLaw_iff` — the runs along which it holds.
-/
import SentrySystem.Lib.DescriptorTable
import SentrySystem.Lib.Transition

namespace Sentry

/-! ### The code -/

/-- An open descriptor: the socket made by the `g`-th call of `socket`, or one of another
part of the program. -/
inductive Desc
  | conn (g : ℕ)
  | other
  deriving DecidableEq, Repr

/-- The result of a system call; a call that could not be completed yet is `inProgress`. -/
inductive SysResult
  | ok
  | inProgress
  | fail
  deriving DecidableEq, Repr

/-- Where `tcp_send_thread` is: in front of the calls of `Tcp_Open_And_Connect`; in front of
the last `Tcp_Close_Socket` of a failed one; in front of the assignment of
`connected`; in front of the lock of its loop; in front of the test of `is_sending`; in
front of `send`; in front of the lock behind a failed send; in front of the last lock
of the loop. -/
inductive LinkSendPc
  | closeOld
  | socket
  | getFlags
  | setNonblock
  | connect
  | select
  | getError
  | setBlocking
  | closeFailed
  | setConnected
  | wait
  | check
  | send
  | markLost
  | finish
  deriving DecidableEq, Repr

/-- Where `tcp_recv_thread` is: waiting for `connected`; in front of `recv`; in front of the
lock of its cleanup; behind the comparison, with the lock held. -/
inductive LinkRecvPc
  | waitConnected
  | reading
  | compare
  | closing
  deriving DecidableEq, Repr

/-- The state: the descriptors, `link.Sock` (`none` for -1), `link.connected`, whether the
link was posted, the two threads, `local_sock`; and the history: the number of
sockets made, the one connected last, the one `recv` was called on last, whether the
number in `local_sock` was given to a new descriptor since, whether the reader closed a
socket since the last call of `Tcp_Open_And_Connect`, and the closes of the reader, each
with what it closed and with what it had been reading from. -/
structure LinkState where
  fds : DescriptorTable Desc
  sock : Option ℕ
  connected : Bool
  posted : Bool
  sendPc : LinkSendPc
  recvPc : LinkRecvPc
  localSock : Option ℕ
  nextGen : ℕ
  established : Option ℕ
  reading : Option ℕ
  handedOut : Bool
  cleaned : Bool
  recvCloses : List (Option Desc × Option ℕ)

/-- The state at the start of `Tcp_Init`. -/
def LinkState.init : LinkState where
  fds := ⟨[]⟩
  sock := none
  connected := false
  posted := false
  sendPc := .closeOld
  recvPc := .waitConnected
  localSock := none
  nextGen := 0
  established := none
  reading := none
  handedOut := false
  cleaned := false
  recvCloses := []

/-- The descriptor under a number. -/
def LinkState.descAt (s : LinkState) (n : Option ℕ) : Option Desc := n.bind s.fds.get

/-- The socket under a number. -/
def LinkState.genAt (s : LinkState) (n : Option ℕ) : Option ℕ :=
  match s.descAt n with
  | some (.conn g) => some g
  | _ => none

/-- The kernel opens a descriptor, under the lowest free number. -/
def LinkState.openFd (s : LinkState) (d : Desc) : LinkState :=
  { s with
    fds := s.fds.allocate d
    handedOut := if s.localSock = some s.fds.lowestFree then true else s.handedOut }

/-- `close(n)`. -/
def LinkState.closeFd (s : LinkState) (n : ℕ) : LinkState :=
  { s with
    fds := s.fds.close n
    handedOut := if s.localSock = some n then false else s.handedOut }

/-- `Tcp_Close_Socket`. -/
def tcpCloseSocket (s : LinkState) : LinkState :=
  match s.sock with
  | some n => { s.closeFd n with sock := none, connected := false }
  | none => { s with connected := false }

/-- Where `Tcp_Open_And_Connect` leads when it fails; the link is posted behind the first
call. -/
def LinkState.openFailed (s : LinkState) : LinkState := { s with sendPc := .wait, posted := true }

/-- The reader holds `link.lock`. -/
def LinkState.locked (s : LinkState) : Bool := s.recvPc = .closing

/-- A step of `tcp_send_thread`; `r` is the result of the system call in it if the
descriptor allows it, and tells whether there is something to send. -/
def tcpSendStep (s : LinkState) (r : SysResult) : Option LinkState :=
  match s.sendPc with
  | .closeOld => some { tcpCloseSocket s with sendPc := .socket }
  | .socket =>
    if r = .ok then
      some { s.openFd (.conn s.nextGen) with
        sock := some s.fds.lowestFree
        nextGen := s.nextGen + 1
        sendPc := .getFlags }
    else some { s with sock := none }.openFailed
  | .getFlags =>
    some { s with
      sendPc := if r = .ok ∧ s.descAt s.sock ≠ none then .setNonblock else .closeFailed }
  | .setNonblock =>
    some { s with sendPc := if r = .ok ∧ s.descAt s.sock ≠ none then .connect else .closeFailed }
  | .connect =>
    match s.genAt s.sock with
    | some g =>
      if r = .ok then some { s with established := some g, sendPc := .setBlocking }
      else some { s with sendPc := if r = .inProgress then .select else .closeFailed }
    | none => some { s with sendPc := .closeFailed }
  | .select =>
    some { s with sendPc := if r = .ok ∧ s.descAt s.sock ≠ none then .getError else .closeFailed }
  | .getError =>
    match s.genAt s.sock with
    | some g =>
      if r = .ok then some { s with established := some g, sendPc := .setBlocking }
      else some { s with sendPc := .closeFailed }
    | none => some { s with sendPc := .closeFailed }
  | .setBlocking =>
    if r = .ok ∧ s.descAt s.sock ≠ none then
      some { s with sendPc := .setConnected, cleaned := false }
    else some { s with sendPc := .closeFailed }
  | .closeFailed => some (tcpCloseSocket s).openFailed
  -- without the lock in `Tcp_Init`, in front of the post
  | .setConnected =>
    if s.locked then none
    else
      some { s with
        connected := true
        posted := true
        sendPc := if s.posted then .check else .wait }
  | .wait =>
    if s.locked then none
    else some { s with sendPc := if s.connected then .check else .closeOld }
  | .check => some { s with sendPc := if r = .ok then .send else .wait }
  -- a frame takes several calls
  | .send =>
    if s.genAt s.sock ≠ none ∧ r ≠ .fail then
      some { s with sendPc := if r = .ok then .finish else .send }
    else some { s with sendPc := .markLost }
  | .markLost => if s.locked then none else some { s with connected := false, sendPc := .finish }
  | .finish => if s.locked then none else some { s with sendPc := .wait }

/-- A step of `tcp_recv_thread`; `leave` tells whether it leaves its loop behind the `recv`
in it. -/
def tcpRecvStep (s : LinkState) (leave : Bool) : Option LinkState :=
  match s.recvPc with
  | .waitConnected =>
    if s.posted ∧ s.connected then
      some { s with
        localSock := s.sock
        reading := s.genAt s.sock
        handedOut := false
        recvPc := .reading }
    else none
  | .reading =>
    some { s with
      reading := (s.genAt s.localSock).or s.reading
      handedOut := false
      recvPc := if leave then .compare else .reading }
  | .compare =>
    if s.sock = s.localSock then some { s with recvPc := .closing }
    else some { s with localSock := none, handedOut := false, recvPc := .waitConnected }
  | .closing =>
    match s.localSock with
    | some n =>
      some { s.closeFd n with
        sock := none
        connected := false
        localSock := none
        recvPc := .waitConnected
        cleaned := true
        recvCloses := s.recvCloses ++ [(s.fds.get n, s.reading)] }
    | none => some { s with connected := false, recvPc := .waitConnected }

/-- What can happen: a step of one of the threads, and a descriptor opened or closed by
another part of the program. -/
inductive LinkAction
  | sender (r : SysResult)
  | receiver (leave : Bool)
  | openOther
  | closeOther (n : ℕ)
  deriving DecidableEq, Repr

/-- One step. -/
def linkStep (s : LinkState) : LinkAction → Option LinkState
  | .sender r => tcpSendStep s r
  | .receiver leave => tcpRecvStep s leave
  | .openOther => some (s.openFd .other)
  | .closeOther n => if s.fds.get n = some .other then some (s.closeFd n) else none

/-- The two threads. -/
def linkSystem : TransitionSystem LinkState LinkAction := ⟨.init, linkStep⟩

/-! ### What a step can do -/

/-- `Tcp_Open_And_Connect` is running, or the assignment of `connected` behind it is due. -/
def LinkSendPc.opening : LinkSendPc → Bool
  | .wait | .check | .send | .markLost | .finish => false
  | _ => true

/-- Everything one step can do. -/
inductive LinkStep (s : LinkState) : LinkAction → LinkState → Prop
  | openOther : LinkStep s .openOther (s.openFd .other)
  | closeOther (n : ℕ) (hopen : s.fds.get n = some .other) :
      LinkStep s (.closeOther n) (s.closeFd n)
  | closeOld (r : SysResult) (hpc : s.sendPc = .closeOld) :
      LinkStep s (.sender r) { tcpCloseSocket s with sendPc := .socket }
  | closeFailed (r : SysResult) (hpc : s.sendPc = .closeFailed) :
      LinkStep s (.sender r) (tcpCloseSocket s).openFailed
  | socket (r : SysResult) (hpc : s.sendPc = .socket) :
      LinkStep s (.sender r)
        { s.openFd (.conn s.nextGen) with
          sock := some s.fds.lowestFree
          nextGen := s.nextGen + 1
          sendPc := .getFlags }
  | noSocket (r : SysResult) (hpc : s.sendPc = .socket) :
      LinkStep s (.sender r) { s with sock := none }.openFailed
  | establish (r : SysResult) (g : ℕ) (hpc : s.sendPc = .connect ∨ s.sendPc = .getError)
      (hgen : s.genAt s.sock = some g) :
      LinkStep s (.sender r) { s with established := some g, sendPc := .setBlocking }
  | opened (r : SysResult) (hpc : s.sendPc = .setBlocking) (hopen : s.descAt s.sock ≠ none) :
      LinkStep s (.sender r) { s with sendPc := .setConnected, cleaned := false }
  | setConnected (r : SysResult) (hpc : s.sendPc = .setConnected) :
      LinkStep s (.sender r)
        { s with
          connected := true
          posted := true
          sendPc := if s.posted then .check else .wait }
  | lost (r : SysResult) (hpc : s.sendPc = .markLost) :
      LinkStep s (.sender r) { s with connected := false, sendPc := .finish }
  | move (r : SysResult) (pc : LinkSendPc) (hpc : s.sendPc ≠ .setConnected)
      (hblock : pc ≠ .setBlocking) (hset : pc ≠ .setConnected)
      (hopening : pc.opening = true → s.sendPc.opening = true ∨ s.connected = false) :
      LinkStep s (.sender r) { s with sendPc := pc }
  | take (leave : Bool) (hpc : s.recvPc = .waitConnected) :
      LinkStep s (.receiver leave)
        { s with
          localSock := s.sock
          reading := s.genAt s.sock
          handedOut := false
          recvPc := .reading }
  | recv (leave : Bool) (hpc : s.recvPc = .reading) :
      LinkStep s (.receiver leave)
        { s with
          reading := (s.genAt s.localSock).or s.reading
          handedOut := false
          recvPc := if leave then .compare else .reading }
  | agree (leave : Bool) (hpc : s.recvPc = .compare) (hsock : s.sock = s.localSock) :
      LinkStep s (.receiver leave) { s with recvPc := .closing }
  | differ (leave : Bool) (hpc : s.recvPc = .compare) :
      LinkStep s (.receiver leave)
        { s with localSock := none, handedOut := false, recvPc := .waitConnected }
  | close (leave : Bool) (n : ℕ) (hpc : s.recvPc = .closing) (hlocal : s.localSock = some n) :
      LinkStep s (.receiver leave)
        { s.closeFd n with
          sock := none
          connected := false
          localSock := none
          recvPc := .waitConnected
          cleaned := true
          recvCloses := s.recvCloses ++ [(s.fds.get n, s.reading)] }
  | closeNone (leave : Bool) (hpc : s.recvPc = .closing) (hlocal : s.localSock = none) :
      LinkStep s (.receiver leave) { s with connected := false, recvPc := .waitConnected }

theorem genAt_eq_some {s : LinkState} {m : Option ℕ} {g : ℕ} :
    s.genAt m = some g ↔ ∃ n, m = some n ∧ s.fds.get n = some (.conn g) := by
  rw [LinkState.genAt, LinkState.descAt]
  cases m with
  | none => simp
  | some n =>
    cases hget : s.fds.get n with
    | none => simp [hget]
    | some d => cases d <;> simp [hget]

/-- Moves inside `Tcp_Open_And_Connect`. -/
theorem LinkStep.moveOpening {s : LinkState} (r : SysResult) (pc : LinkSendPc)
    (hopening : s.sendPc.opening = true) (hpc : s.sendPc ≠ .setConnected)
    (hblock : pc ≠ .setBlocking) (hset : pc ≠ .setConnected) :
    LinkStep s (.sender r) { s with sendPc := pc } :=
  .move r pc hpc hblock hset fun _ => .inl hopening

/-- Moves in the loop of `tcp_send_thread`. -/
theorem LinkStep.moveLoop {s : LinkState} (r : SysResult) (pc : LinkSendPc)
    (hpc : s.sendPc ≠ .setConnected) (hloop : pc.opening = false) :
    LinkStep s (.sender r) { s with sendPc := pc } := by
  refine .move r pc hpc ?_ ?_ ?_
  · rintro rfl
    exact absurd hloop.symm Bool.false_ne_true
  · rintro rfl
    exact absurd hloop.symm Bool.false_ne_true
  · intro hopening
    rw [hloop] at hopening
    exact absurd hopening Bool.false_ne_true

theorem tcpSendStep_cases {s t : LinkState} {r : SysResult} (h : tcpSendStep s r = some t) :
    LinkStep s (.sender r) t := by
  -- a failed step of `Tcp_Open_And_Connect`
  have hfailed : s.sendPc.opening = true → s.sendPc ≠ .setConnected →
      LinkStep s (.sender r) { s with sendPc := .closeFailed } := by
    intro hopening hpc
    exact .moveOpening r _ hopening hpc (by simp) (by simp)
  cases hpc : s.sendPc with
  | closeOld =>
    simp only [tcpSendStep, hpc, Option.some_inj] at h
    subst h
    exact .closeOld r hpc
  | socket =>
    simp only [tcpSendStep, hpc] at h
    split_ifs at h with hr
    · rw [Option.some_inj] at h
      subst h
      exact .socket r hpc
    · rw [Option.some_inj] at h
      subst h
      exact .noSocket r hpc
  | getFlags | setNonblock | select =>
    simp only [tcpSendStep, hpc, Option.some_inj] at h
    subst h
    refine .moveOpening r _ (by rw [hpc]; rfl) (by simp [hpc]) ?_ ?_ <;> split_ifs <;> simp
  | connect =>
    simp only [tcpSendStep, hpc] at h
    split at h
    · rename_i g hgen
      by_cases hr : r = .ok
      · rw [if_pos hr, Option.some_inj] at h
        subst h
        exact .establish r g (.inl hpc) hgen
      · rw [if_neg hr, Option.some_inj] at h
        subst h
        refine .moveOpening r _ (by rw [hpc]; rfl) (by simp [hpc]) ?_ ?_ <;> split_ifs <;> simp
    · rw [Option.some_inj] at h
      subst h
      exact hfailed (by rw [hpc]; rfl) (by simp [hpc])
  | getError =>
    simp only [tcpSendStep, hpc] at h
    split at h
    · rename_i g hgen
      split_ifs at h with hr
      · rw [Option.some_inj] at h
        subst h
        exact .establish r g (.inr hpc) hgen
      · rw [Option.some_inj] at h
        subst h
        exact hfailed (by rw [hpc]; rfl) (by simp [hpc])
    · rw [Option.some_inj] at h
      subst h
      exact hfailed (by rw [hpc]; rfl) (by simp [hpc])
  | setBlocking =>
    simp only [tcpSendStep, hpc] at h
    split_ifs at h with hr
    · rw [Option.some_inj] at h
      subst h
      exact .opened r hpc hr.2
    · rw [Option.some_inj] at h
      subst h
      exact hfailed (by rw [hpc]; rfl) (by simp [hpc])
  | closeFailed =>
    simp only [tcpSendStep, hpc, Option.some_inj] at h
    subst h
    exact .closeFailed r hpc
  | setConnected =>
    simp only [tcpSendStep, hpc] at h
    by_cases hlock : s.locked = true
    · rw [if_pos hlock] at h
      cases h
    · rw [if_neg hlock, Option.some_inj] at h
      subst h
      exact .setConnected r hpc
  | wait =>
    simp only [tcpSendStep, hpc] at h
    by_cases hlock : s.locked = true
    · rw [if_pos hlock] at h
      cases h
    rw [if_neg hlock, Option.some_inj] at h
    subst h
    by_cases hconn : s.connected = true
    · exact .moveLoop r _ (by simp [hpc]) (by rw [if_pos hconn]; rfl)
    · refine .move r _ (by simp [hpc]) ?_ ?_ fun _ => .inr (Bool.not_eq_true _ ▸ hconn)
      · rw [if_neg hconn]
        simp
      · rw [if_neg hconn]
        simp
  | check =>
    simp only [tcpSendStep, hpc, Option.some_inj] at h
    subst h
    refine .moveLoop r _ (by simp [hpc]) ?_
    split_ifs <;> rfl
  | send =>
    simp only [tcpSendStep, hpc] at h
    by_cases hsent : s.genAt s.sock ≠ none ∧ r ≠ .fail
    · rw [if_pos hsent, Option.some_inj] at h
      subst h
      refine .moveLoop r _ (by simp [hpc]) ?_
      split_ifs <;> rfl
    · rw [if_neg hsent, Option.some_inj] at h
      subst h
      exact .moveLoop r _ (by simp [hpc]) rfl
  | markLost =>
    simp only [tcpSendStep, hpc] at h
    split_ifs at h with hlock
    rw [Option.some_inj] at h
    subst h
    exact .lost r hpc
  | finish =>
    simp only [tcpSendStep, hpc] at h
    split_ifs at h with hlock
    rw [Option.some_inj] at h
    subst h
    exact .moveLoop r _ (by simp [hpc]) rfl

theorem tcpRecvStep_cases {s t : LinkState} {leave : Bool} (h : tcpRecvStep s leave = some t) :
    LinkStep s (.receiver leave) t := by
  cases hpc : s.recvPc with
  | waitConnected =>
    simp only [tcpRecvStep, hpc] at h
    split_ifs at h with hready
    rw [Option.some_inj] at h
    subst h
    exact .take leave hpc
  | reading =>
    simp only [tcpRecvStep, hpc, Option.some_inj] at h
    subst h
    exact .recv leave hpc
  | compare =>
    simp only [tcpRecvStep, hpc] at h
    split_ifs at h with hsock
    · rw [Option.some_inj] at h
      subst h
      exact .agree leave hpc hsock
    · rw [Option.some_inj] at h
      subst h
      exact .differ leave hpc
  | closing =>
    simp only [tcpRecvStep, hpc] at h
    split at h
    · rename_i n hlocal
      rw [Option.some_inj] at h
      subst h
      exact .close leave n hpc hlocal
    · rename_i hlocal
      rw [Option.some_inj] at h
      subst h
      exact .closeNone leave hpc hlocal

theorem linkStep_cases {s t : LinkState} {a : LinkAction} (h : linkStep s a = some t) :
    LinkStep s a t := by
  cases a with
  | sender r => exact tcpSendStep_cases h
  | receiver leave => exact tcpRecvStep_cases h
  | openOther =>
    rw [linkStep, Option.some_inj] at h
    subst h
    exact .openOther
  | closeOther n =>
    rw [linkStep] at h
    split_ifs at h with hopen
    rw [Option.some_inj] at h
    subst h
    exact .closeOther n hopen

/-! ### What the descriptors hold -/

theorem ne_lowestFree {t : DescriptorTable Desc} {n : ℕ} {d : Desc} (h : t.get n = some d) :
    n ≠ t.lowestFree := by
  rintro rfl
  rw [DescriptorTable.get_lowestFree] at h
  cases h

/-- A descriptor stays open when another one is opened. -/
theorem get_allocate {t : DescriptorTable Desc} {n : ℕ} {d e : Desc} (h : t.get n = some d) :
    (t.allocate e).get n = some d := by
  rw [DescriptorTable.get_allocate_of_ne t e (ne_lowestFree h), h]

/-- What is open after `open` was open before, or is new. -/
theorem get_allocate_cases {t : DescriptorTable Desc} {n : ℕ} {d e : Desc}
    (h : (t.allocate e).get n = some d) :
    n = t.lowestFree ∧ d = e ∨ n ≠ t.lowestFree ∧ t.get n = some d := by
  rcases eq_or_ne n t.lowestFree with rfl | hne
  · rw [DescriptorTable.get_allocate_self, Option.some_inj] at h
    exact .inl ⟨rfl, h.symm⟩
  · rw [DescriptorTable.get_allocate_of_ne t e hne] at h
    exact .inr ⟨hne, h⟩

/-- What is open after `close` is under another number and was open before. -/
theorem get_close_cases {t : DescriptorTable Desc} {m n : ℕ} {d : Desc}
    (h : (t.close n).get m = some d) : m ≠ n ∧ t.get m = some d := by
  rcases eq_or_ne m n with rfl | hne
  · rw [DescriptorTable.get_close_self] at h
    cases h
  · rw [DescriptorTable.get_close_of_ne t hne] at h
    exact ⟨hne, h⟩

/-- `link.Sock` is an open socket, and the sockets are those made so far. -/
structure SockOpen (s : LinkState) : Prop where
  fresh : ∀ n g, s.fds.get n = some (.conn g) → g < s.nextGen
  reading : ∀ g, s.reading = some g → g < s.nextGen
  sock : ∀ n, s.sock = some n → ∃ g, s.fds.get n = some (.conn g)

namespace SockOpen

variable {s t : LinkState}

theorem congr (h : SockOpen s) (hfds : t.fds = s.fds) (hsock : t.sock = s.sock)
    (hread : t.reading = s.reading) (hgen : t.nextGen = s.nextGen) : SockOpen t := by
  constructor
  · rw [hfds, hgen]
    exact h.fresh
  · rw [hread, hgen]
    exact h.reading
  · rw [hsock, hfds]
    exact h.sock

/-- The reader calls `recv`, or takes `link.Sock` over. -/
theorem read (h : SockOpen s) (m : Option ℕ) (hfds : t.fds = s.fds) (hsock : t.sock = s.sock)
    (hread : t.reading = s.genAt m ∨ t.reading = s.reading) (hgen : t.nextGen = s.nextGen) :
    SockOpen t := by
  constructor
  · rw [hfds, hgen]
    exact h.fresh
  · intro g hg
    rw [hgen]
    rcases hread with hread | hread
    · rw [hread, genAt_eq_some] at hg
      obtain ⟨n, -, hget⟩ := hg
      exact h.fresh n g hget
    · exact h.reading g (hread ▸ hg)
  · rw [hsock, hfds]
    exact h.sock

theorem opened (h : SockOpen s) {d : Desc} (hfds : t.fds = s.fds.allocate d)
    (hsock : t.sock = s.sock ∨ t.sock = some s.fds.lowestFree ∧ ∃ g, d = .conn g)
    (hread : t.reading = s.reading) (hgen : s.nextGen ≤ t.nextGen)
    (hd : ∀ g, d = .conn g → g < t.nextGen) : SockOpen t := by
  constructor
  · intro n g hget
    rw [hfds] at hget
    rcases get_allocate_cases hget with ⟨-, hnew⟩ | ⟨-, hold⟩
    · exact hd g hnew.symm
    · exact lt_of_lt_of_le (h.fresh n g hold) hgen
  · intro g hg
    exact lt_of_lt_of_le (h.reading g (hread ▸ hg)) hgen
  · intro n hn
    rw [hfds]
    rcases hsock with hsock | ⟨hsock, g, rfl⟩
    · obtain ⟨g, hget⟩ := h.sock n (hsock ▸ hn)
      exact ⟨g, get_allocate hget⟩
    · rw [hsock, Option.some_inj] at hn
      subst hn
      exact ⟨g, DescriptorTable.get_allocate_self _ _⟩

theorem closed (h : SockOpen s) {n : ℕ} (hfds : t.fds = s.fds.close n)
    (hsock : ∀ m, t.sock = some m → s.sock = some m ∧ m ≠ n)
    (hread : t.reading = s.reading) (hgen : t.nextGen = s.nextGen) : SockOpen t := by
  constructor
  · intro m g hget
    rw [hfds] at hget
    rw [hgen]
    exact h.fresh m g (get_close_cases hget).2
  · rw [hread, hgen]
    exact h.reading
  · intro m hm
    obtain ⟨hold, hne⟩ := hsock m hm
    obtain ⟨g, hget⟩ := h.sock m hold
    rw [hfds, DescriptorTable.get_close_of_ne _ hne]
    exact ⟨g, hget⟩

/-- `link.Sock` is not a descriptor of another part of the program. -/
theorem ne_of_other (h : SockOpen s) {m n : ℕ} (hm : s.sock = some m)
    (hn : s.fds.get n = some .other) : m ≠ n := by
  rintro rfl
  obtain ⟨g, hget⟩ := h.sock m hm
  rw [hn] at hget
  cases hget

theorem tcpCloseSocket (h : SockOpen s) : SockOpen (tcpCloseSocket s) := by
  rw [Sentry.tcpCloseSocket]
  cases hsock : s.sock with
  | none => exact h.congr rfl hsock.symm rfl rfl
  | some n => exact h.closed rfl (by simp) rfl rfl

theorem step {a : LinkAction} (h : SockOpen s) (ht : LinkStep s a t) : SockOpen t := by
  cases ht with
  | openOther => exact h.opened rfl (.inl rfl) rfl le_rfl (by simp)
  | closeOther n hopen => exact h.closed rfl (fun m hm => ⟨hm, h.ne_of_other hm hopen⟩) rfl rfl
  | closeOld | closeFailed => exact h.tcpCloseSocket.congr rfl rfl rfl rfl
  | socket =>
    refine h.opened rfl (.inr ⟨rfl, _, rfl⟩) rfl (Nat.le_succ _) ?_
    rintro g ⟨⟩
    exact Nat.lt_succ_self _
  | noSocket => exact ⟨h.fresh, h.reading, by rintro n ⟨⟩⟩
  | establish | opened | setConnected | lost | move | agree | differ | closeNone =>
    exact h.congr rfl rfl rfl rfl
  | take => exact h.read s.sock rfl rfl (.inl rfl) rfl
  | recv =>
    refine h.read s.localSock rfl rfl ?_ rfl
    cases hgen : s.genAt s.localSock with
    | none => exact .inr rfl
    | some g => exact .inl rfl
  | close leave n => exact h.closed rfl (by simp) rfl rfl

end SockOpen

/-- What the reader knows of the descriptor in `local_sock`: if the number was not given to a
new descriptor since its last `recv`, a socket under it is the one it reads from. -/
structure ReaderInv (s : LinkState) : Prop where
  handedOut : s.handedOut = true → ∃ n d, s.localSock = some n ∧ s.fds.get n = some d ∧
    ∀ g, d = .conn g → s.reading ≠ some g
  ours : s.handedOut = false → ∀ n g, s.localSock = some n → s.fds.get n = some (.conn g) →
    s.reading = some g
  closing : s.recvPc = .closing → s.handedOut = false → ∀ n, s.localSock = some n →
    s.fds.get n ≠ some .other

namespace ReaderInv

variable {s t : LinkState}

theorem congr (h : ReaderInv s) (hfds : t.fds = s.fds) (hlocal : t.localSock = s.localSock)
    (hread : t.reading = s.reading) (hout : t.handedOut = s.handedOut)
    (hpc : t.recvPc = s.recvPc) : ReaderInv t := by
  constructor
  · rw [hfds, hlocal, hread, hout]
    exact h.handedOut
  · rw [hfds, hlocal, hread, hout]
    exact h.ours
  · rw [hfds, hlocal, hout, hpc]
    exact h.closing

/-- The reader has no descriptor. -/
theorem idle (hlocal : t.localSock = none) (hout : t.handedOut = false) : ReaderInv t := by
  constructor
  · intro htrue
    rw [hout] at htrue
    exact absurd htrue Bool.false_ne_true
  · intro _ n g hn
    rw [hlocal] at hn
    cases hn
  · intro _ _ n hn
    rw [hlocal] at hn
    cases hn

/-- The reader calls `recv` on `local_sock`, or takes the number over. -/
theorem read (hread : ∀ g, t.genAt t.localSock = some g → t.reading = some g)
    (hout : t.handedOut = false) (hpc : t.recvPc ≠ .closing) : ReaderInv t := by
  constructor
  · intro htrue
    rw [hout] at htrue
    exact absurd htrue Bool.false_ne_true
  · intro _ n g hn hget
    exact hread g (genAt_eq_some.mpr ⟨n, hn, hget⟩)
  · intro hclosing
    exact absurd hclosing hpc

theorem opened (h : ReaderInv s) {d : Desc} (hfds : t.fds = s.fds.allocate d)
    (hlocal : t.localSock = s.localSock) (hread : t.reading = s.reading)
    (hout : t.handedOut = if s.localSock = some s.fds.lowestFree then true else s.handedOut)
    (hpc : t.recvPc = s.recvPc) (hd : ∀ g, d = .conn g → s.reading ≠ some g) : ReaderInv t := by
  by_cases hfree : s.localSock = some s.fds.lowestFree
  -- the number in `local_sock` comes back
  · rw [if_pos hfree] at hout
    constructor
    · intro _
      refine ⟨s.fds.lowestFree, d, hlocal.trans hfree, ?_, hread ▸ hd⟩
      rw [hfds]
      exact DescriptorTable.get_allocate_self _ _
    · intro hfalse
      rw [hout] at hfalse
      exact absurd hfalse.symm Bool.false_ne_true
    · intro _ hfalse
      rw [hout] at hfalse
      exact absurd hfalse.symm Bool.false_ne_true
  · rw [if_neg hfree] at hout
    have hold : ∀ n e, s.localSock = some n → (s.fds.allocate d).get n = some e →
        s.fds.get n = some e := by
      intro n e hn hget
      rcases get_allocate_cases hget with ⟨rfl, -⟩ | ⟨-, hget⟩
      · exact absurd hn hfree
      · exact hget
    constructor
    · intro htrue
      obtain ⟨n, e, hn, hget, hne⟩ := h.handedOut (hout ▸ htrue)
      refine ⟨n, e, hlocal.trans hn, ?_, hread ▸ hne⟩
      rw [hfds]
      exact get_allocate hget
    · intro hfalse n g hn hget
      rw [hread]
      exact h.ours (hout ▸ hfalse) n g (hlocal ▸ hn) (hold n _ (hlocal ▸ hn) (hfds ▸ hget))
    · intro hclosing hfalse n hn hget
      exact h.closing (hpc ▸ hclosing) (hout ▸ hfalse) n (hlocal ▸ hn)
        (hold n _ (hlocal ▸ hn) (hfds ▸ hget))

theorem closed (h : ReaderInv s) {n : ℕ} (hfds : t.fds = s.fds.close n)
    (hlocal : t.localSock = s.localSock) (hread : t.reading = s.reading)
    (hout : t.handedOut = if s.localSock = some n then false else s.handedOut)
    (hpc : t.recvPc = s.recvPc) : ReaderInv t := by
  by_cases hn : s.localSock = some n
  -- nothing is open under the number in `local_sock`
  · rw [if_pos hn] at hout
    have hnone : ∀ m d, t.localSock = some m → t.fds.get m ≠ some d := by
      intro m d hm hget
      rw [hlocal, hn, Option.some_inj] at hm
      rw [hfds] at hget
      exact (get_close_cases hget).1 hm.symm
    constructor
    · intro htrue
      rw [hout] at htrue
      exact absurd htrue Bool.false_ne_true
    · intro _ m g hm hget
      exact absurd hget (hnone m _ hm)
    · intro _ _ m hm
      exact hnone m _ hm
  · rw [if_neg hn] at hout
    constructor
    · intro htrue
      obtain ⟨m, d, hm, hget, hne⟩ := h.handedOut (hout ▸ htrue)
      refine ⟨m, d, hlocal.trans hm, ?_, hread ▸ hne⟩
      have hmn : m ≠ n := by
        rintro rfl
        exact hn hm
      rw [hfds, DescriptorTable.get_close_of_ne _ hmn]
      exact hget
    · intro hfalse m g hm hget
      rw [hread]
      rw [hfds] at hget
      exact h.ours (hout ▸ hfalse) m g (hlocal ▸ hm) (get_close_cases hget).2
    · intro hclosing hfalse m hm hget
      rw [hfds] at hget
      exact h.closing (hpc ▸ hclosing) (hout ▸ hfalse) m (hlocal ▸ hm) (get_close_cases hget).2

theorem tcpCloseSocket (h : ReaderInv s) : ReaderInv (tcpCloseSocket s) := by
  rw [Sentry.tcpCloseSocket]
  cases hsock : s.sock with
  | none => exact h.congr rfl rfl rfl rfl rfl
  | some n => exact h.closed rfl rfl rfl rfl rfl

theorem step {a : LinkAction} (hsock : SockOpen s) (h : ReaderInv s) (ht : LinkStep s a t) :
    ReaderInv t := by
  cases ht with
  | openOther => exact h.opened rfl rfl rfl rfl rfl (by simp)
  | closeOther n => exact h.closed rfl rfl rfl rfl rfl
  | closeOld | closeFailed => exact h.tcpCloseSocket.congr rfl rfl rfl rfl rfl
  | socket =>
    refine h.opened rfl rfl rfl rfl rfl ?_
    rintro g ⟨⟩ hread
    exact absurd (hsock.reading _ hread) (Nat.lt_irrefl _)
  | noSocket | establish | opened | setConnected | lost | move =>
    exact h.congr rfl rfl rfl rfl rfl
  | take => exact read (fun g hg => hg) rfl (by simp)
  | recv leave =>
    refine read ?_ rfl ?_
    · intro g hg
      show (s.genAt s.localSock).or s.reading = some g
      rw [show s.genAt s.localSock = some g from hg, Option.some_or]
    · show (if leave then LinkRecvPc.compare else LinkRecvPc.reading) ≠ .closing
      split_ifs <;> simp
  | agree leave hpc hsame =>
    refine ⟨h.handedOut, h.ours, ?_⟩
    intro _ _ n hn hget
    exact hsock.ne_of_other (hsame.trans hn) hget rfl
  | differ => exact idle rfl rfl
  | close leave n hpc hlocal =>
    refine idle rfl ?_
    show (if s.localSock = some n then false else s.handedOut) = false
    rw [if_pos hlocal]
  | closeNone leave hpc hlocal =>
    refine idle hlocal ?_
    show s.handedOut = false
    refine Bool.eq_false_iff.mpr fun hout => ?_
    obtain ⟨n, d, hn, -⟩ := h.handedOut hout
    rw [hlocal] at hn
    cases hn

end ReaderInv

/-- What the sender knows of `link.Sock` behind `connect`, unless the reader closes it. -/
structure SenderInv (s : LinkState) : Prop where
  opening : s.sendPc.opening = true → s.connected = false
  blocking : s.sendPc = .setBlocking → ∀ n, s.sock = some n →
    ∃ g, s.fds.get n = some (.conn g) ∧ s.established = some g
  ready : s.sendPc = .setConnected → s.cleaned = false →
    ∃ n g, s.sock = some n ∧ s.fds.get n = some (.conn g) ∧ s.established = some g
  cleaned : s.sendPc = .setConnected → s.cleaned = true → s.sock = none

namespace SenderInv

variable {s t : LinkState}

/-- The sender is not behind `connect`. -/
theorem quiet (hblock : t.sendPc ≠ .setBlocking) (hset : t.sendPc ≠ .setConnected)
    (hopening : t.sendPc.opening = true → t.connected = false) : SenderInv t := by
  refine ⟨hopening, ?_, ?_, ?_⟩
  · intro hpc
    exact absurd hpc hblock
  · intro hpc
    exact absurd hpc hset
  · intro hpc
    exact absurd hpc hset

/-- The sender is in its loop. -/
theorem loop (h : t.sendPc.opening = false) : SenderInv t := by
  refine quiet ?_ ?_ ?_
  · intro hpc
    rw [hpc] at h
    exact absurd h.symm Bool.false_ne_true
  · intro hpc
    rw [hpc] at h
    exact absurd h.symm Bool.false_ne_true
  · intro hpc
    rw [h] at hpc
    exact absurd hpc Bool.false_ne_true

/-- `link.Sock` stays as it is. -/
theorem keep (h : SenderInv s) (hpc : t.sendPc = s.sendPc) (hconn : t.connected = s.connected)
    (hsock : t.sock = s.sock) (hest : t.established = s.established)
    (hcleaned : t.cleaned = s.cleaned)
    (hfds : ∀ n g, s.sock = some n → s.fds.get n = some (.conn g) →
      t.fds.get n = some (.conn g)) : SenderInv t := by
  constructor
  · rw [hpc, hconn]
    exact h.opening
  · intro hblock n hn
    obtain ⟨g, hget, hg⟩ := h.blocking (hpc ▸ hblock) n (hsock ▸ hn)
    exact ⟨g, hfds n g (hsock ▸ hn) hget, hest.trans hg⟩
  · intro hset hfalse
    obtain ⟨n, g, hn, hget, hg⟩ := h.ready (hpc ▸ hset) (hcleaned ▸ hfalse)
    exact ⟨n, g, hsock.trans hn, hfds n g hn hget, hest.trans hg⟩
  · rw [hpc, hcleaned, hsock]
    exact h.cleaned

theorem step {a : LinkAction} (hopen : SockOpen s) (h : SenderInv s) (ht : LinkStep s a t) :
    SenderInv t := by
  cases ht with
  | openOther => exact h.keep rfl rfl rfl rfl rfl fun n g _ hget => get_allocate hget
  | closeOther n hother =>
    refine h.keep rfl rfl rfl rfl rfl ?_
    intro m g hm hget
    show (s.fds.close n).get m = some (.conn g)
    rw [DescriptorTable.get_close_of_ne _ (hopen.ne_of_other hm hother), hget]
  | closeOld =>
    refine quiet (by simp) (by simp) fun _ => ?_
    show (tcpCloseSocket s).connected = false
    rw [tcpCloseSocket]
    split <;> rfl
  | closeFailed | noSocket | lost => exact loop rfl
  | socket r hpc => exact quiet (by simp) (by simp) fun _ => h.opening (by rw [hpc]; rfl)
  | establish r g hpc hgen =>
    have hopening : s.sendPc.opening = true := by
      rcases hpc with hpc | hpc <;> rw [hpc] <;> rfl
    refine ⟨fun _ => h.opening hopening, ?_, by simp, by simp⟩
    intro _ n hn
    obtain ⟨m, hm, hget⟩ := genAt_eq_some.mp hgen
    rw [show s.sock = some n from hn, Option.some_inj] at hm
    exact ⟨g, hm ▸ hget, rfl⟩
  | opened r hpc hdesc =>
    refine ⟨fun _ => h.opening (by rw [hpc]; rfl), by simp, ?_, by simp⟩
    intro _ _
    cases hsock : s.sock with
    | none =>
      rw [hsock] at hdesc
      exact absurd rfl hdesc
    | some n =>
      obtain ⟨g, hget, hg⟩ := h.blocking hpc n hsock
      exact ⟨n, g, rfl, hget, hg⟩
  | setConnected =>
    refine loop ?_
    show (if s.posted then LinkSendPc.check else .wait).opening = false
    split_ifs <;> rfl
  | move r pc hpc hblock hset hopening =>
    refine quiet hblock hset fun hpc => ?_
    rcases hopening hpc with hopening | hconn
    · exact h.opening hopening
    · exact hconn
  | take | recv | agree | differ => exact h.keep rfl rfl rfl rfl rfl fun n g _ hget => hget
  | close => exact ⟨fun _ => rfl, by simp, by simp, fun _ _ => rfl⟩
  | closeNone =>
    exact ⟨fun _ => rfl, h.blocking, h.ready, h.cleaned⟩

end SenderInv

/-- What holds in every reachable state. -/
structure LinkInv (s : LinkState) : Prop where
  sockOpen : SockOpen s
  reader : ReaderInv s
  sender : SenderInv s

theorem LinkInv.init : LinkInv .init where
  sockOpen := ⟨by rintro n g ⟨⟩, by rintro g ⟨⟩, by rintro n ⟨⟩⟩
  reader := .idle rfl rfl
  sender := .quiet (by simp [LinkState.init]) (by simp [LinkState.init]) fun _ => rfl

theorem LinkInv.step {s t : LinkState} {a : LinkAction} (h : LinkInv s) (ht : LinkStep s a t) :
    LinkInv t where
  sockOpen := h.sockOpen.step ht
  reader := h.reader.step h.sockOpen ht
  sender := h.sender.step h.sockOpen ht

theorem linkInv_of_reachable {s : LinkState} (h : linkSystem.Reachable s) : LinkInv s :=
  h.invariant .init fun _ _ _ hs _ ht => hs.step (linkStep_cases ht)

/-! ### The shared link -/

/-- (a) What the reader's cleanup closed was the connection it had been reading from, or was
closed already; (b) with `connected`, `link.Sock` is an open descriptor of the connection
established last. -/
structure SharedLinkLaw (s : LinkState) : Prop where
  closes : ∀ r ∈ s.recvCloses, r.1 = none ∨ ∃ g, r.1 = some (.conn g) ∧ r.2 = some g
  connected : s.connected = true →
    ∃ n g, s.sock = some n ∧ s.fds.get n = some (.conn g) ∧ s.established = some g

/-- When the reader closes `local_sock`, the number was not given to a new descriptor since its
last `recv`; when the sender sets `connected`, the reader closed no socket since the last
call of `Tcp_Open_And_Connect`. -/
def KeepsDescriptors (s : LinkState) : LinkAction → Prop
  | .receiver _ => s.recvPc = .closing → s.handedOut = false
  | .sender _ => s.sendPc = .setConnected → s.cleaned = false
  | _ => True

instance (s : LinkState) (a : LinkAction) : Decidable (KeepsDescriptors s a) :=
  match a with
  | .receiver _ => inferInstanceAs (Decidable (_ → _))
  | .sender _ => inferInstanceAs (Decidable (_ → _))
  | .openOther => inferInstanceAs (Decidable True)
  | .closeOther _ => inferInstanceAs (Decidable True)

namespace SharedLinkLaw

variable {s t : LinkState}

/-- The link is down. -/
theorem down (h : SharedLinkLaw s) (hcloses : t.recvCloses = s.recvCloses)
    (hconn : t.connected = false) : SharedLinkLaw t := by
  refine ⟨hcloses ▸ h.closes, ?_⟩
  intro htrue
  rw [hconn] at htrue
  exact absurd htrue Bool.false_ne_true

/-- `link.Sock` stays as it is. -/
theorem keep (h : SharedLinkLaw s) (hcloses : t.recvCloses = s.recvCloses)
    (hconn : t.connected = s.connected) (hsock : t.sock = s.sock)
    (hest : t.established = s.established)
    (hfds : ∀ n g, s.sock = some n → s.fds.get n = some (.conn g) →
      t.fds.get n = some (.conn g)) : SharedLinkLaw t := by
  refine ⟨hcloses ▸ h.closes, ?_⟩
  intro htrue
  obtain ⟨n, g, hn, hget, hg⟩ := h.connected (hconn ▸ htrue)
  exact ⟨n, g, hsock.trans hn, hfds n g hn hget, hest.trans hg⟩

theorem step {a : LinkAction} (hinv : LinkInv s) (h : SharedLinkLaw s)
    (hgood : KeepsDescriptors s a) (ht : LinkStep s a t) : SharedLinkLaw t := by
  cases ht with
  | openOther => exact h.keep rfl rfl rfl rfl fun n g _ hget => get_allocate hget
  | closeOther n hother =>
    refine h.keep rfl rfl rfl rfl ?_
    intro m g hm hget
    show (s.fds.close n).get m = some (.conn g)
    rw [DescriptorTable.get_close_of_ne _ (hinv.sockOpen.ne_of_other hm hother), hget]
  | closeOld | closeFailed =>
    refine h.down ?_ ?_
    · show (tcpCloseSocket s).recvCloses = s.recvCloses
      rw [tcpCloseSocket]
      split <;> rfl
    · show (tcpCloseSocket s).connected = false
      rw [tcpCloseSocket]
      split <;> rfl
  | socket r hpc | noSocket r hpc => exact h.down rfl (hinv.sender.opening (by rw [hpc]; rfl))
  | establish r g hpc =>
    refine h.down rfl (hinv.sender.opening ?_)
    rcases hpc with hpc | hpc <;> rw [hpc] <;> rfl
  | setConnected r hpc => exact ⟨h.closes, fun _ => hinv.sender.ready hpc (hgood hpc)⟩
  | lost | closeNone => exact h.down rfl rfl
  | opened | move | take | recv | agree | differ =>
    exact h.keep rfl rfl rfl rfl fun n g _ hget => hget
  | close leave n hpc hlocal =>
    constructor
    · intro r hr
      rcases List.mem_append.mp hr with hold | hnew
      · exact h.closes r hold
      · rw [List.mem_singleton] at hnew
        subst hnew
        have hout : s.handedOut = false := hgood hpc
        cases hget : s.fds.get n with
        | none => exact .inl rfl
        | some d =>
          cases d with
          | conn g => exact .inr ⟨g, rfl, hinv.reader.ours hout n g hlocal hget⟩
          | other => exact absurd hget (hinv.reader.closing hpc hout n hlocal)
    · rintro ⟨⟩

theorem of_via (h : linkSystem.Via KeepsDescriptors s) : SharedLinkLaw s := by
  have hboth : LinkInv s ∧ SharedLinkLaw s := by
    refine h.invariant (P := fun s => LinkInv s ∧ SharedLinkLaw s) ⟨.init, ⟨?_, ?_⟩⟩ ?_
    · rintro r ⟨⟩
    · rintro ⟨⟩
    · intro s a t ⟨hinv, hlaw⟩ hgood ht
      exact ⟨hinv.step (linkStep_cases ht), hlaw.step hinv hgood (linkStep_cases ht)⟩
  exact hboth.2

/-- A step against the condition ends outside the law. -/
theorem not_of_spoilt {a : LinkAction} (hinv : LinkInv s) (hbad : ¬ KeepsDescriptors s a)
    (ht : linkStep s a = some t) : ¬ SharedLinkLaw t := by
  intro hlaw
  cases a with
  | openOther | closeOther => exact hbad trivial
  | sender r =>
    simp only [KeepsDescriptors, Classical.not_imp, Bool.not_eq_false] at hbad
    obtain ⟨hpc, hcleaned⟩ := hbad
    -- `connected` is set without a socket
    simp only [linkStep, tcpSendStep, hpc] at ht
    by_cases hlock : s.locked = true
    · rw [if_pos hlock] at ht
      cases ht
    rw [if_neg hlock, Option.some_inj] at ht
    subst ht
    obtain ⟨n, g, hn, -⟩ := hlaw.connected rfl
    have hnone : s.sock = none := hinv.sender.cleaned hpc hcleaned
    rw [show s.sock = some n from hn] at hnone
    cases hnone
  | receiver leave =>
    simp only [KeepsDescriptors, Classical.not_imp, Bool.not_eq_false] at hbad
    obtain ⟨hpc, hout⟩ := hbad
    -- the new descriptor is closed
    obtain ⟨n, d, hlocal, hget, hne⟩ := hinv.reader.handedOut hout
    simp only [linkStep, tcpRecvStep, hpc, hlocal, Option.some_inj] at ht
    subst ht
    rcases hlaw.closes (s.fds.get n, s.reading) (List.mem_append_right _ (List.mem_singleton_self _))
      with hnone | ⟨g, hconn, hreading⟩
    · rw [hget] at hnone
      cases hnone
    · rw [hget, Option.some_inj] at hconn
      exact hne g hconn hreading

end SharedLinkLaw

/-- **The shared link**: (a) and (b) hold in every state along a run exactly if the reader never
closes a number that was given to a new descriptor since its last `recv`, and the sender
never sets `connected` behind a close of the reader. -/
theorem sharedLinkLaw_iff (as : List LinkAction) (s : LinkState) :
    linkSystem.run .init as = some s →
      (linkSystem.Throughout SharedLinkLaw .init as ↔
        linkSystem.runVia KeepsDescriptors .init as = some s) := by
  intro h
  refine TransitionSystem.throughout_eq_runVia (fun t ht => .of_via ht) ?_ h
  intro t a u ht hbad hstep
  exact SharedLinkLaw.not_of_spoilt (linkInv_of_reachable ht.reachable) hbad hstep

/-- The sender connects, and the reader calls `recv`, in vain. -/
def peerCloses : List LinkAction :=
  List.replicate 7 (.sender .ok) ++ [.receiver false, .receiver true]

/-- The reader cleans up before the sender connects again. -/
theorem sharedLinkLaw_iff_reconnect : ∃ s,
    linkSystem.run .init (peerCloses ++ [.receiver true, .receiver true] ++
      List.replicate 8 (.sender .ok)) = some s ∧
    s.recvCloses = [(some (.conn 0), some 0)] ∧ s.connected = true ∧
    (linkSystem.Throughout SharedLinkLaw .init (peerCloses ++ [.receiver true, .receiver true] ++
        List.replicate 8 (.sender .ok)) ↔
      linkSystem.runVia KeepsDescriptors .init (peerCloses ++ [.receiver true, .receiver true] ++
        List.replicate 8 (.sender .ok)) = some s) := by
  refine ⟨_, rfl, rfl, rfl, ?_⟩
  exact sharedLinkLaw_iff _ _ rfl

/-- The sender fails to send and makes a new socket before the reader cleans up, and sets
`connected` behind it. -/
def reused : List LinkAction :=
  peerCloses ++ [.sender .ok, .sender .ok, .sender .fail] ++ List.replicate 9 (.sender .ok) ++
    [.receiver true, .receiver true, .sender .ok]

/-- The new connection is closed, and the link counts as connected without a socket. -/
theorem sharedLinkLaw_reused : ∃ s, linkSystem.Reachable s ∧
    s.recvCloses = [(some (.conn 1), some 0)] ∧ s.connected = true ∧ s.sock = none ∧
    ¬ SharedLinkLaw s := by
  have hrun : linkSystem.run .init reused = some _ := rfl
  refine ⟨_, .of_run hrun, rfl, rfl, rfl, ?_⟩
  intro hlaw
  obtain ⟨n, g, hn, -⟩ := hlaw.connected rfl
  cases hn

end Sentry
