/-
The loops around `send` and `recv` (`Tcp_Send_All` in `src/net/tcp_send.c`, `tcp_recv_all` in
`src/net/tcp_recv.c`).

A `send` takes some of the bytes it is offered, a `recv` gives some of those that are to come,
and either may fail.  `Tcp_Send_All` tries again behind EINTR only, `tcp_recv_all` also behind
EAGAIN and EWOULDBLOCK, as long as `running` is set.

* `tcpSendAllLoop`, `tcpRecvAllLoop` — the two loops, on what the kernel answers;
* `tcpSendAllLoop_eq`, `tcpRecvAllLoop_eq` — both are transfers in pieces;
* `partialIo` — no byte is lost or repeated;
* `tcpSendAllLoop_tcpSendAll`, `tcpRecvAllLoop_tcpRecvAll` — they do what the framing is
  modelled on.
-/
import SentrySystem.FrameSearch
import SentrySystem.Lib.Transfer
import SentrySystem.TcpSendFrame

namespace Sentry

/-! ### The code -/

/-- `errno`, as far as it is tested. -/
inductive Errno
  | eintr
  | eagain
  | ewouldblock
  | other
  deriving DecidableEq, Repr

/-- The kernel's answer to a `send`: it takes up to `n` of the bytes offered, or fails. -/
inductive SendAnswer
  | takes (n : ℕ)
  | fails (errno : Errno)
  deriving DecidableEq, Repr

/-- `send`: its result, and what the kernel has taken behind it. -/
def kernelSend (out bytes : List UInt8) : SendAnswer → ℤ × List UInt8
  | .takes n => ((bytes.take n).length, out ++ bytes.take n)
  | .fails _ => (-1, out)

/-- `errno` behind a `send`. -/
def SendAnswer.errno : SendAnswer → Errno
  | fails e => e
  | takes _ => .other

/-- What `Tcp_Send_All` returned, `none` while it is in `send`, and what the kernel has taken. -/
structure SendOutcome where
  ret : Option ℤ
  out : List UInt8
  deriving DecidableEq, Repr

/-- The loop of `Tcp_Send_All`. -/
def tcpSendAllLoop (buf : List UInt8) : List SendAnswer → ℕ → List UInt8 → SendOutcome
  | [], totalSent, out => ⟨if totalSent < buf.length then none else some 0, out⟩
  | a :: as, totalSent, out =>
    if totalSent < buf.length then
      let (sent, out) := kernelSend out (buf.drop totalSent) a
      if sent < 0 then
        if a.errno = .eintr then tcpSendAllLoop buf as totalSent out else ⟨some (-1), out⟩
      else if sent = 0 then ⟨some (-1), out⟩
      else tcpSendAllLoop buf as (totalSent + sent.toNat) out
    else ⟨some 0, out⟩

/-- The kernel's answer to a `recv`: it gives up to `n` of the bytes to come, where none is the
end of the stream, or fails; with `running` as it is read then. -/
inductive RecvAnswer
  | gives (n : ℕ)
  | fails (errno : Errno) (running : Bool)
  deriving DecidableEq, Repr

/-- `recv` of up to `len` bytes: its result, and the bytes. -/
def kernelRecv (sock : List UInt8) (len : ℕ) : RecvAnswer → ℤ × List UInt8
  | .gives n => ((sock.take (min n len)).length, sock.take (min n len))
  | .fails _ _ => (-1, [])

/-- `errno` is one behind which `tcp_recv_all` tries again, and `running` is set. -/
def RecvAnswer.retries : RecvAnswer → Bool
  | fails e running => (e = .eintr ∨ e = .eagain ∨ e = .ewouldblock) ∧ running
  | gives _ => false

/-- What `tcp_recv_all` returned, `none` while it is in `recv`, the memory at `data`, and the
bytes still to come. -/
structure RecvOutcome where
  ret : Option ℤ
  data : ℕ → UInt8
  sock : List UInt8

/-- The loop of `tcp_recv_all`. -/
def tcpRecvAllLoop (length : UInt32) :
    List RecvAnswer → UInt32 → (ℕ → UInt8) → List UInt8 → RecvOutcome
  | [], totalRecv, data, sock => ⟨if totalRecv < length then none else some 0, data, sock⟩
  | a :: as, totalRecv, data, sock =>
    if totalRecv < length then
      let (n, bytes) := kernelRecv sock (length - totalRecv).toNat a
      let data := storeAt data totalRecv.toNat bytes
      let sock := sock.drop bytes.length
      if n ≤ 0 then
        if n = 0 then ⟨some (-1), data, sock⟩
        else if a.retries = true then tcpRecvAllLoop length as totalRecv data sock
        else ⟨some (-1), data, sock⟩
      else tcpRecvAllLoop length as (totalRecv + UInt32.ofNat n.toNat) data sock
    else ⟨some 0, data, sock⟩

/-! ### Both loops are transfers -/

/-- What an answer does for `Tcp_Send_All`. -/
def SendAnswer.attempt : SendAnswer → Attempt
  | takes n => .upTo n
  | fails e => if e = .eintr then .again else .stop

/-- What an answer does for `tcp_recv_all`. -/
def RecvAnswer.attempt : RecvAnswer → Attempt
  | gives n => .upTo n
  | fails e running => if (fails e running).retries = true then .again else .stop

/-- The value returned at the end of a transfer. -/
def returned : Ending → Option ℤ
  | .complete => some 0
  | .stopped => some (-1)
  | .blocked => none

theorem returned_eq_zero {e : Ending} : returned e = some 0 ↔ e = .complete := by
  cases e <;> simp [returned]

/-- What `Tcp_Send_All` leaves behind a transfer. -/
def sentBy (out : List UInt8) (r : Ending × List UInt8) : SendOutcome := ⟨returned r.1, out ++ r.2⟩

theorem sentBy_nil (out : List UInt8) (e : Ending) : sentBy out (e, []) = ⟨returned e, out⟩ := by
  rw [sentBy, List.append_nil]

/-- **`Tcp_Send_All`** transfers what is left of the buffer. -/
theorem tcpSendAllLoop_eq (buf : List UInt8) (answers : List SendAnswer) :
    ∀ (totalSent : ℕ) (out : List UInt8), tcpSendAllLoop buf answers totalSent out =
      sentBy out (transfer (answers.map SendAnswer.attempt) (buf.length - totalSent)
        (buf.drop totalSent)) := by
  induction answers with
  | nil =>
    intro totalSent out
    rw [List.map_nil, tcpSendAllLoop]
    by_cases hdone : totalSent < buf.length
    · rw [if_pos hdone, transfer_nil (by omega), sentBy_nil]
      rfl
    · rw [if_neg hdone, show buf.length - totalSent = 0 by omega, transfer_zero, sentBy_nil]
      rfl
  | cons a answers ih =>
    intro totalSent out
    rw [List.map_cons, tcpSendAllLoop]
    by_cases hdone : totalSent < buf.length
    swap
    · rw [if_neg hdone, show buf.length - totalSent = 0 by omega, transfer_zero, sentBy_nil]
      rfl
    have hwant : buf.length - totalSent ≠ 0 := by omega
    rw [if_pos hdone]
    cases a with
    | fails e =>
      show (if (-1 : ℤ) < 0 then (if e = .eintr then _ else _) else _) = _
      rw [if_pos (by decide), SendAnswer.attempt]
      by_cases heintr : e = .eintr
      · rw [if_pos heintr, if_pos heintr, transfer_again hwant]
        exact ih totalSent out
      · rw [if_neg heintr, if_neg heintr, transfer_stop hwant, sentBy_nil]
        rfl
    | takes n =>
      -- the kernel takes no more than it is offered
      have htake : (buf.drop totalSent).take n =
          (buf.drop totalSent).take (min n (buf.length - totalSent)) := by
        rw [List.take_eq_take_min, List.length_drop]
      show (if (((buf.drop totalSent).take n).length : ℤ) < 0 then _ else _) = _
      rw [if_neg (by omega), SendAnswer.attempt]
      by_cases hpiece : (buf.drop totalSent).take n = []
      · rw [if_pos (by rw [hpiece]; rfl), transfer_upTo_nil hwant (htake ▸ hpiece), hpiece,
          sentBy_nil, List.append_nil]
        rfl
      · have hpos : 0 < ((buf.drop totalSent).take n).length := List.length_pos_iff.mpr hpiece
        rw [if_neg (by omega), transfer_upTo hwant htake.symm hpiece, Int.toNat_natCast, ih,
          List.drop_drop, Nat.sub_sub, sentBy, sentBy, List.append_assoc]

/-- What `tcp_recv_all` leaves behind a transfer. -/
def receivedBy (data : ℕ → UInt8) (off : ℕ) (sock : List UInt8) (r : Ending × List UInt8) :
    RecvOutcome :=
  ⟨returned r.1, storeAt data off r.2, sock.drop r.2.length⟩

theorem receivedBy_nil (data : ℕ → UInt8) (off : ℕ) (sock : List UInt8) (e : Ending) :
    receivedBy data off sock (e, []) = ⟨returned e, data, sock⟩ := by
  rw [receivedBy, storeAt_nil]
  rfl

/-- **`tcp_recv_all`** transfers the bytes to come to the memory at `data`. -/
theorem tcpRecvAllLoop_eq (length : UInt32) (answers : List RecvAnswer) :
    ∀ (totalRecv : UInt32) (data : ℕ → UInt8) (sock : List UInt8), totalRecv ≤ length →
      tcpRecvAllLoop length answers totalRecv data sock =
        receivedBy data totalRecv.toNat sock (transfer (answers.map RecvAnswer.attempt)
          (length.toNat - totalRecv.toNat) sock) := by
  induction answers with
  | nil =>
    intro totalRecv data sock _
    rw [List.map_nil, tcpRecvAllLoop]
    by_cases hdone : totalRecv < length
    · have hlt := UInt32.lt_iff_toNat_lt.mp hdone
      rw [if_pos hdone, transfer_nil (by omega), receivedBy_nil]
      rfl
    · have hge := UInt32.lt_iff_toNat_lt.not.mp hdone
      rw [if_neg hdone, show length.toNat - totalRecv.toNat = 0 by omega, transfer_zero,
        receivedBy_nil]
      rfl
  | cons a answers ih =>
    intro totalRecv data sock hle
    rw [List.map_cons, tcpRecvAllLoop]
    by_cases hdone : totalRecv < length
    swap
    · have hge := UInt32.lt_iff_toNat_lt.not.mp hdone
      rw [if_neg hdone, show length.toNat - totalRecv.toNat = 0 by omega, transfer_zero,
        receivedBy_nil]
      rfl
    have hlt := UInt32.lt_iff_toNat_lt.mp hdone
    have hwant : length.toNat - totalRecv.toNat ≠ 0 := by omega
    have hrest : (length - totalRecv).toNat = length.toNat - totalRecv.toNat :=
      UInt32.toNat_sub_of_le _ _ hle
    rw [if_pos hdone]
    cases a with
    | fails e running =>
      simp only [kernelRecv, storeAt_nil, List.length_nil, List.drop_zero]
      rw [if_pos (by decide), if_neg (by decide), RecvAnswer.attempt]
      by_cases hretry : (RecvAnswer.fails e running).retries = true
      · rw [if_pos hretry, if_pos hretry, transfer_again hwant]
        exact ih totalRecv data sock hle
      · rw [if_neg hretry, if_neg hretry, transfer_stop hwant, receivedBy_nil]
        rfl
    | gives n =>
      have hlen : (sock.take (min n (length - totalRecv).toNat)).length ≤
          length.toNat - totalRecv.toNat := by
        rw [← hrest]
        exact (List.length_take_le _ _).trans (min_le_right _ _)
      generalize hpiece : sock.take (min n (length - totalRecv).toNat) = piece at hlen
      simp only [kernelRecv, hpiece]
      rw [hrest] at hpiece
      rw [RecvAnswer.attempt]
      by_cases hnil : piece = []
      · subst hnil
        rw [if_pos (by simp), if_pos (by simp), transfer_upTo_nil hwant hpiece, receivedBy_nil,
          storeAt_nil]
        rfl
      · have hpos : 0 < piece.length := List.length_pos_iff.mpr hnil
        have hmax := length.toNat_lt
        have hnext : (totalRecv + UInt32.ofNat piece.length).toNat =
            totalRecv.toNat + piece.length := by
          rw [UInt32.toNat_add, UInt32.toNat_ofNat_of_lt' (show piece.length < 2 ^ 32 by omega)]
          exact Nat.mod_eq_of_lt (by omega)
        have hle' : totalRecv + UInt32.ofNat piece.length ≤ length := by
          rw [UInt32.le_iff_toNat_le, hnext]
          omega
        rw [if_neg (by omega), transfer_upTo hwant hpiece hnil, Int.toNat_natCast,
          ih _ _ _ hle', hnext, receivedBy, receivedBy, storeAt_append, List.drop_drop,
          List.length_append, Nat.sub_sub]

/-! ### No byte is lost or repeated -/

/-- `Tcp_Send_All` from its start. -/
theorem tcpSendAllLoop_start (buf out : List UInt8) (answers : List SendAnswer) :
    tcpSendAllLoop buf answers 0 out =
      sentBy out (transfer (answers.map SendAnswer.attempt) buf.length buf) :=
  tcpSendAllLoop_eq buf answers 0 out

/-- `tcp_recv_all` from its start. -/
theorem tcpRecvAllLoop_start (length : UInt32) (data : ℕ → UInt8) (sock : List UInt8)
    (answers : List RecvAnswer) : tcpRecvAllLoop length answers 0 data sock =
      receivedBy data 0 sock (transfer (answers.map RecvAnswer.attempt) length.toNat sock) :=
  tcpRecvAllLoop_eq length answers 0 data sock (UInt32.le_iff_toNat_le.mpr (Nat.zero_le _))

/-- A prefix of the stream, stored from `data[0]` on. -/
theorem storeAt_prefix (data : ℕ → UInt8) {bytes sock : List UInt8} (h : bytes <+: sock) (i : ℕ) :
    storeAt data 0 bytes i = if i < bytes.length then sock.getD i 0 else data i := by
  obtain ⟨rest, rfl⟩ := h
  rw [storeAt, if_pos (Nat.zero_le i), Nat.sub_zero]
  split_ifs with hi
  · rw [List.getElem?_eq_getElem hi, List.getD_append _ _ _ _ hi, List.getD_eq_getElem _ _ hi]
    rfl
  · rw [List.getElem?_eq_none (by omega)]
    rfl

/-- **Partial I/O**: whatever `send` and `recv` answer, `Tcp_Send_All` has handed over a prefix of
the buffer, and `tcp_recv_all` has stored the next bytes of the stream from `data[0]` on and
nothing behind them; they return 0 exactly when these are all the bytes. -/
theorem partialIo :
    (∀ (buf out : List UInt8) (answers : List SendAnswer), ∃ k ≤ buf.length,
      (tcpSendAllLoop buf answers 0 out).out = out ++ buf.take k ∧
      ((tcpSendAllLoop buf answers 0 out).ret = some 0 ↔ k = buf.length)) ∧
    ∀ (length : UInt32) (data : ℕ → UInt8) (sock : List UInt8) (answers : List RecvAnswer),
      ∃ k ≤ length.toNat, k ≤ sock.length ∧
        (tcpRecvAllLoop length answers 0 data sock).sock = sock.drop k ∧
        (∀ i, (tcpRecvAllLoop length answers 0 data sock).data i =
          if i < k then sock.getD i 0 else data i) ∧
        ((tcpRecvAllLoop length answers 0 data sock).ret = some 0 ↔ k = length.toNat) := by
  constructor
  · intro buf out answers
    obtain ⟨hpre, hle, hcomplete⟩ :=
      transfer_spec (answers.map SendAnswer.attempt) buf.length buf
    rw [tcpSendAllLoop_start]
    refine ⟨_, hle, ?_, returned_eq_zero.trans hcomplete⟩
    rw [← List.prefix_iff_eq_take.mp hpre]
    rfl
  · intro length data sock answers
    obtain ⟨hpre, hle, hcomplete⟩ :=
      transfer_spec (answers.map RecvAnswer.attempt) length.toNat sock
    rw [tcpRecvAllLoop_start]
    exact ⟨_, hle, hpre.length_le, rfl, storeAt_prefix data hpre,
      returned_eq_zero.trans hcomplete⟩

/-- A `send` that keeps taking bytes, EINTR apart, takes the whole buffer. -/
theorem tcpSendAllLoop_returns {buf out : List UInt8} {answers : List SendAnswer}
    (hgood : ∀ a ∈ answers, a ≠ .takes 0 ∧ ∀ e, a = .fails e → e = .eintr)
    (hroom : buf.length ≤ ((answers.map SendAnswer.attempt).map Attempt.room).sum) :
    (tcpSendAllLoop buf answers 0 out).ret = some 0 := by
  rw [tcpSendAllLoop_start]
  refine returned_eq_zero.mpr (transfer_complete le_rfl ?_ hroom)
  intro attempt hattempt
  obtain ⟨a, ha, rfl⟩ := List.mem_map.mp hattempt
  obtain ⟨htakes, hfails⟩ := hgood a ha
  cases a with
  | takes n =>
    refine ⟨by simp [SendAnswer.attempt], ?_⟩
    intro hzero
    exact htakes (congrArg SendAnswer.takes (Attempt.upTo.inj hzero))
  | fails e =>
    rw [SendAnswer.attempt, if_pos (hfails e rfl)]
    simp

/-! ### What the framing is modelled on -/

/-- `Tcp_Send_All` as it is called in `Tcp_Send_Packet`: a call that returned found a socket
with room for what it handed over. -/
theorem tcpSendAllLoop_tcpSendAll {buf out : List UInt8} {answers : List SendAnswer} {ret : ℤ}
    (h : (tcpSendAllLoop buf answers 0 out).ret = some ret) :
    ∃ room, (tcpSendAll ⟨out, room⟩ buf).1 = decide (ret = 0) ∧
      (tcpSendAll ⟨out, room⟩ buf).2.out = (tcpSendAllLoop buf answers 0 out).out := by
  obtain ⟨hpre, hle, hcomplete⟩ :=
    transfer_spec (answers.map SendAnswer.attempt) buf.length buf
  rw [tcpSendAllLoop_start] at h ⊢
  generalize transfer (answers.map SendAnswer.attempt) buf.length buf = r at *
  obtain ⟨ending, moved⟩ := r
  refine ⟨moved.length, ?_⟩
  have htake : buf.take moved.length = moved := (List.prefix_iff_eq_take.mp hpre).symm
  rw [tcpSendAll]
  cases ending with
  | complete =>
    have hall : moved.length = buf.length := hcomplete.mp rfl
    have hret : (0 : ℤ) = ret := Option.some_inj.mp h
    rw [if_pos hall.ge]
    refine ⟨by simp [← hret], ?_⟩
    rw [← htake, hall, List.take_length]
    rfl
  | stopped =>
    have hpart : moved.length ≠ buf.length := fun hall => by cases hcomplete.mpr hall
    have hshort : ¬ buf.length ≤ moved.length := fun hge => hpart (le_antisymm hle hge)
    have hret : (-1 : ℤ) = ret := Option.some_inj.mp h
    rw [if_neg hshort]
    refine ⟨by simp [← hret], ?_⟩
    rw [htake]
    rfl
  | blocked => cases h

/-- A call of `tcp_recv_all` that returned 0 received what the stream starts with. -/
theorem tcpRecvAllLoop_tcpRecvAll {length : UInt32} {data : ℕ → UInt8} {sock : List UInt8}
    {answers : List RecvAnswer} (h : (tcpRecvAllLoop length answers 0 data sock).ret = some 0) :
    ∃ bytes, tcpRecvAll sock length.toNat =
        some (bytes, (tcpRecvAllLoop length answers 0 data sock).sock) ∧
      (tcpRecvAllLoop length answers 0 data sock).data = storeAt data 0 bytes := by
  obtain ⟨hpre, hle, hcomplete⟩ :=
    transfer_spec (answers.map RecvAnswer.attempt) length.toNat sock
  rw [tcpRecvAllLoop_start] at h ⊢
  generalize transfer (answers.map RecvAnswer.attempt) length.toNat sock = r at *
  have hall : r.2.length = length.toNat := hcomplete.mp (returned_eq_zero.mp h)
  have hroom : length.toNat ≤ sock.length := hall ▸ hpre.length_le
  have htake : sock.take length.toNat = r.2 := hall ▸ (List.prefix_iff_eq_take.mp hpre).symm
  refine ⟨r.2, ?_, rfl⟩
  rw [tcpRecvAll, if_pos hroom, htake, ← hall]
  rfl

end Sentry
