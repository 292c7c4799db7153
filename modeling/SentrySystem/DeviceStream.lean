/-
The inner loop of `tcp_recv_thread` (`src/net/tcp_recv.c`).

The bytes arrive in segments, and a `recv` returns at most the rest of one; an empty segment is
a `recv` that timed out.  `running` stays set and the connection holds.  A packet without data,
one that is handed to `cmd_deliver` and one that is dropped take three paths through the loop,
and each of them reads just its payload away.

* `recvRound`, `recvThread` — a round of the loop, and the loop;
* `tcpRecvAllSegs_eq` — how the stream is segmented does not matter to `tcp_recv_all`;
* `recvRound_sealed` — the round that reads a packet;
* `FrameAligned` — between two rounds, what is on the way starts with a packet;
* `recvThread_aligned` — the header search is never entered, the connection holds, and
  `cmd_deliver` is called for the packets of 1 to 511 bytes.
-/
import SentrySystem.FrameSearch

namespace Sentry

open FrameHeader

/-! ### The device -/

/-- `RECV_BUFFER_SIZE`. -/
def recvBufferSize : ℕ := 512

/-- `MAX_FRAME_DATA_LEN`. -/
def maxFrameDataLen : ℕ := 512

/-- `tcp_recv_all` on the segments still to come: the bytes and the segments left, `none`
while it is blocked. -/
def tcpRecvAllSegs : List (List UInt8) → ℕ → Option (List UInt8 × List (List UInt8))
  | segs, 0 => some ([], segs)
  | [], _ + 1 => none
  | seg :: segs, n + 1 =>
    -- a `recv` that returns the rest of a segment is followed by the next one
    if seg.length ≤ n + 1 then
      (tcpRecvAllSegs segs (n + 1 - seg.length)).map fun r => (seg ++ r.1, r.2)
    else some (seg.take (n + 1), seg.drop (n + 1) :: segs)

/-- `tcp_search_frame_header` reads with `tcp_recv_all` only. -/
def tcpSearchSegs (segs : List (List UInt8)) (hdr : List UInt8) :
    Option (List UInt8 × List (List UInt8)) :=
  (tcpSearchFrameHeader segs.flatten hdr).map fun r => (r.1, [r.2])

/-- The loop that reads a payload away in pieces of `sizeof(trash)` bytes. -/
def readTrash (sock : List (List UInt8)) (remaining : ℕ) : Option (List (List UInt8)) :=
  if _h : remaining = 0 then some sock
  else
    let toRead := if 128 < remaining then 128 else remaining
    (tcpRecvAllSegs sock toRead).bind fun r => readTrash r.2 (remaining - toRead)
  termination_by remaining
  decreasing_by split <;> omega

/-- The socket, `recv_buffer`, and the calls of `cmd_deliver`: the header and the first
`data_len` bytes of the buffer. -/
structure RecvThread where
  sock : List (List UInt8)
  recvBuffer : List UInt8
  delivered : List (FrameHeader × List UInt8)

/-- A call of `cmd_deliver`, which stores a terminator behind the payload. -/
def RecvThread.cmdDeliver (s : RecvThread) (hdr : FrameHeader) : RecvThread :=
  { s with
    recvBuffer := writeAt s.recvBuffer hdr.dataLen.toNat [0]
    delivered := s.delivered ++ [(hdr, s.recvBuffer.take hdr.dataLen.toNat)] }

/-- How a round of the inner loop of `tcp_recv_thread` ends. -/
inductive Round
  | blocked
  | connectionLost
  | next (s : RecvThread)

/-- A round from the test of `data_len` on. -/
def recvPayload (s : RecvThread) (hdr : FrameHeader) : Round :=
  if maxFrameDataLen < hdr.dataLen.toNat then .connectionLost
  else if hdr.dataLen = 0 then .next s
  else if hdr.dataLen.toNat < recvBufferSize then
    match tcpRecvAllSegs s.sock hdr.dataLen.toNat with
    | none => .blocked
    | some (data, sock) =>
      .next (RecvThread.cmdDeliver
        { s with sock := sock, recvBuffer := writeAt s.recvBuffer 0 data } hdr)
  else
    match readTrash s.sock hdr.dataLen.toNat with
    | none => .blocked
    | some sock => .next { s with sock := sock }

/-- A round of the inner loop of `tcp_recv_thread`, behind the flow control. -/
def recvRound (s : RecvThread) : Round :=
  match tcpRecvAllSegs s.sock frameHeaderSize with
  | none => .blocked
  | some (raw, sock) =>
    if headerOk raw = true then recvPayload { s with sock := sock } (ofBytes raw)
    else
      match tcpSearchSegs sock raw with
      | none => .blocked
      | some (raw, sock) => recvPayload { s with sock := sock } (ofBytes raw)

/-! ### Segments -/

/-- **How the stream is segmented does not matter** to `tcp_recv_all`. -/
theorem tcpRecvAllSegs_eq : ∀ (segs : List (List UInt8)) (n : ℕ),
    (tcpRecvAllSegs segs n).map (fun r => (r.1, r.2.flatten)) = tcpRecvAll segs.flatten n := by
  intro segs
  induction segs with
  | nil =>
    intro n
    cases n with
    | zero => rfl
    | succ n => rfl
  | cons seg segs ih =>
    intro n
    cases n with
    | zero => simp [tcpRecvAllSegs, tcpRecvAll]
    | succ n =>
      rw [tcpRecvAllSegs, List.flatten_cons]
      by_cases hseg : seg.length ≤ n + 1
      · rw [if_pos hseg, Option.map_map]
        have hrest := ih (n + 1 - seg.length)
        rw [tcpRecvAll] at hrest ⊢
        by_cases hlen : n + 1 ≤ (seg ++ segs.flatten).length
        · have hlen' : n + 1 - seg.length ≤ segs.flatten.length := by
            rw [List.length_append] at hlen
            omega
          rw [if_pos hlen'] at hrest
          rw [if_pos hlen]
          obtain ⟨r, hr, heq⟩ := Option.map_eq_some_iff.mp hrest
          rw [Prod.mk.injEq] at heq
          rw [hr, Option.map_some, Function.comp_apply, heq.1, heq.2, List.take_append,
            List.drop_append, List.take_of_length_le hseg, List.drop_of_length_le hseg,
            List.nil_append]
        · have hlen' : ¬ n + 1 - seg.length ≤ segs.flatten.length := by
            rw [List.length_append] at hlen
            omega
          rw [if_neg hlen', Option.map_eq_none_iff] at hrest
          rw [if_neg hlen, hrest, Option.map_none]
      · have hlen : n + 1 ≤ (seg ++ segs.flatten).length := by
          rw [List.length_append]
          omega
        rw [if_neg hseg, tcpRecvAll, if_pos hlen, Option.map_some, List.flatten_cons,
          List.take_append_of_le_length (by omega), List.drop_append_of_le_length (by omega)]

/-- Enough bytes on the way are read. -/
theorem tcpRecvAllSegs_append {segs : List (List UInt8)} {bytes rest : List UInt8}
    (h : segs.flatten = bytes ++ rest) :
    ∃ segs', tcpRecvAllSegs segs bytes.length = some (bytes, segs') ∧ segs'.flatten = rest := by
  have heq := tcpRecvAllSegs_eq segs bytes.length
  rw [tcpRecvAll, h, if_pos (by simp), List.take_left, List.drop_left] at heq
  obtain ⟨⟨data, segs'⟩, hr, hpair⟩ := Option.map_eq_some_iff.mp heq
  rw [Prod.mk.injEq] at hpair
  obtain ⟨rfl, hrest⟩ := hpair
  exact ⟨segs', hr, hrest⟩

theorem tcpRecvAllSegs_length {segs segs' : List (List UInt8)} {data : List UInt8} {n : ℕ}
    (h : tcpRecvAllSegs segs n = some (data, segs')) :
    segs'.flatten.length + n = segs.flatten.length := by
  have heq := tcpRecvAllSegs_eq segs n
  rw [h, Option.map_some, tcpRecvAll] at heq
  split_ifs at heq with hle
  rw [Option.some_inj, Prod.mk.injEq] at heq
  rw [heq.2, List.length_drop]
  omega

theorem readTrash_length : ∀ {remaining : ℕ} {segs segs' : List (List UInt8)},
    readTrash segs remaining = some segs' →
      segs'.flatten.length + remaining = segs.flatten.length := by
  intro remaining
  induction remaining using Nat.strong_induction_on with
  | _ remaining ih =>
    intro segs segs' h
    rw [readTrash] at h
    split_ifs at h with hzero
    · rw [Option.some_inj] at h
      rw [← h, hzero, Nat.add_zero]
    all_goals
      rw [Option.bind_eq_some_iff] at h
      obtain ⟨⟨data, mid⟩, hr, h⟩ := h
      have hfirst := tcpRecvAllSegs_length hr
      have hrest := ih _ (by omega) h
      dsimp only at hrest
      omega

/-- The bytes dropped are those of the payload. -/
theorem readTrash_append : ∀ {bytes : List UInt8} {segs : List (List UInt8)} {rest : List UInt8},
    segs.flatten = bytes ++ rest →
      ∃ segs', readTrash segs bytes.length = some segs' ∧ segs'.flatten = rest := by
  intro bytes
  induction hn : bytes.length using Nat.strong_induction_on generalizing bytes with
  | _ n ih =>
    intro segs rest h
    rw [readTrash]
    by_cases hzero : n = 0
    · rw [dif_pos hzero]
      have hnil : bytes = [] := List.length_eq_zero_iff.mp (hn.trans hzero)
      exact ⟨segs, rfl, by rw [h, hnil, List.nil_append]⟩
    · rw [dif_neg hzero]
      set toRead := if 128 < n then 128 else n with htoRead
      have hle : toRead ≤ n ∧ 0 < toRead := by
        rw [htoRead]
        split_ifs <;> omega
      -- one piece is read, the rest by the rounds to come
      have hsplit : segs.flatten = bytes.take toRead ++ (bytes.drop toRead ++ rest) := by
        rw [h, ← List.append_assoc, List.take_append_drop]
      have htake : (bytes.take toRead).length = toRead := by
        rw [List.length_take, hn]
        omega
      obtain ⟨mid, hmid, hflatten⟩ := tcpRecvAllSegs_append hsplit
      rw [htake] at hmid
      have hdrop : (bytes.drop toRead).length = n - toRead := by rw [List.length_drop, hn]
      obtain ⟨segs', hsegs', hrest⟩ := ih (n - toRead) (by omega) hdrop hflatten
      refine ⟨segs', ?_, hrest⟩
      show (tcpRecvAllSegs segs toRead).bind _ = _
      rw [hmid, Option.bind_some]
      exact hsegs'

theorem recvPayload_length {s t : RecvThread} {hdr : FrameHeader}
    (h : recvPayload s hdr = .next t) : t.sock.flatten.length ≤ s.sock.flatten.length := by
  rw [recvPayload] at h
  split_ifs at h with hlong hempty hfits
  · rw [Round.next.injEq] at h
    rw [← h]
  · split at h
    · simp at h
    · next data sock hr =>
      have hlen := tcpRecvAllSegs_length hr
      rw [Round.next.injEq] at h
      subst h
      show sock.flatten.length ≤ _
      omega
  · split at h
    · simp at h
    · next sock hr =>
      have hlen := readTrash_length hr
      rw [Round.next.injEq] at h
      subst h
      show sock.flatten.length ≤ _
      omega

theorem searchFrameHeader_length : ∀ {sock buf : List UInt8} {r : List UInt8 × List UInt8},
    tcpSearchFrameHeader sock buf = some r → r.2.length ≤ sock.length := by
  intro sock buf
  induction sock, buf using tcpSearchFrameHeader.induct with
  | case1 sock buf hnone =>
    intro r h
    rw [tcpSearchFrameHeader, hnone] at h
    simp at h
  | case2 sock buf b rest hfound =>
    intro r h
    rw [tcpSearchFrameHeader, hfound] at h
    simp only [Option.some_inj] at h
    rw [← h]
    exact searchFrom_length hfound
  | case3 sock buf b hend =>
    intro r h
    rw [tcpSearchFrameHeader, hend] at h
    simp at h
  | case4 sock buf b newByte rest hslide ih =>
    intro r h
    rw [tcpSearchFrameHeader, hslide] at h
    have hlen := searchFrom_length hslide
    rw [List.length_cons] at hlen
    exact (ih h).trans (by omega)

/-- A round takes at least a header off the socket. -/
theorem recvRound_length {s t : RecvThread} (h : recvRound s = .next t) :
    t.sock.flatten.length < s.sock.flatten.length := by
  rw [recvRound] at h
  split at h
  · simp at h
  · next raw sock hr =>
    have hheader := tcpRecvAllSegs_length hr
    rw [frameHeaderSize] at hheader
    split_ifs at h with hok
    · have hle : t.sock.flatten.length ≤ sock.flatten.length := recvPayload_length h
      omega
    · split at h
      · simp at h
      · next raw' sock' hs =>
        obtain ⟨r, hr', hpair⟩ := Option.map_eq_some_iff.mp hs
        rw [Prod.mk.injEq] at hpair
        have hle : t.sock.flatten.length ≤ sock'.flatten.length := recvPayload_length h
        have hsearch := searchFrameHeader_length hr'
        rw [← hpair.2, List.flatten_singleton] at hle
        omega

/-- The inner loop of `tcp_recv_thread`: the state in which it waits for more bytes, or in
which it gave the connection up. -/
def recvThread (s : RecvThread) : Bool × RecvThread :=
  match _h : recvRound s with
  | .blocked => (true, s)
  | .connectionLost => (false, s)
  | .next t => recvThread t
  termination_by s.sock.flatten.length
  decreasing_by exact recvRound_length (by assumption)

theorem recvThread_next {s t : RecvThread} (h : recvRound s = .next t) :
    recvThread s = recvThread t := by
  rw [recvThread]
  split
  · next hr => rw [h] at hr; simp at hr
  · next hr => rw [h] at hr; simp at hr
  · next u hr =>
    rw [h, Round.next.injEq] at hr
    rw [hr]

theorem recvThread_blocked {s : RecvThread} (h : recvRound s = .blocked) :
    recvThread s = (true, s) := by
  rw [recvThread]
  split
  · rfl
  · next hr => rw [h] at hr; simp at hr
  · next u hr => rw [h] at hr; simp at hr

/-! ### One packet -/

/-- The packet is handed to `cmd_deliver`. -/
def SealedPacket.isDelivered (p : SealedPacket) : Bool :=
  decide (1 ≤ p.payload.length ∧ p.payload.length ≤ 511)

/-- The header search is entered in this round. -/
def Searches (s : RecvThread) : Prop :=
  ∃ raw sock, tcpRecvAllSegs s.sock frameHeaderSize = some (raw, sock) ∧ headerOk raw = false

/-- One round of the inner loop follows another. -/
def NextRound (s t : RecvThread) : Prop := recvRound s = .next t

/-- The calls of `cmd_deliver` for a sequence of packets. -/
def deliveries (ps : List SealedPacket) : List (FrameHeader × List UInt8) :=
  (ps.filter SealedPacket.isDelivered).map fun p => (p.hdr, p.payload)

/-- A sealed header at the front of the stream is read and passes the test. -/
theorem recvRound_header {s : RecvThread} {hdr : FrameHeader} (hs : hdr.Sealed)
    {rest : List UInt8} (h : s.sock.flatten = hdr.toBytes ++ rest) :
    ∃ sock, sock.flatten = rest ∧ recvRound s = recvPayload { s with sock := sock } hdr := by
  obtain ⟨sock, hread, hrest⟩ := tcpRecvAllSegs_append h
  rw [length_toBytes] at hread
  have hnil : hdr.toBytes ++ [] = hdr.toBytes := List.append_nil _
  have hok : headerOk hdr.toBytes = true := by
    rw [← hnil, ← validateFrameHeader_eq_headerOk]
    exact validateFrameHeader_toBytes_append hs []
  have hof : ofBytes hdr.toBytes = hdr := by
    rw [← hnil]
    exact ofBytes_toBytes_append hdr []
  refine ⟨sock, hrest, ?_⟩
  rw [recvRound, hread]
  simp only [hok, if_true, hof]

theorem take_writeAt (buf data : List UInt8) : (writeAt buf 0 data).take data.length = data := by
  rw [writeAt, List.take_zero, List.nil_append, List.take_left]

theorem not_searches_sealed {s : RecvThread} {p : SealedPacket} {rest : List UInt8}
    (h : s.sock.flatten = p.bytes ++ rest) : ¬ Searches s := by
  rintro ⟨raw, sock, hraw, hbad⟩
  rw [SealedPacket.bytes, List.append_assoc] at h
  obtain ⟨sock', hread, -⟩ := tcpRecvAllSegs_append h
  rw [length_toBytes, hraw, Option.some_inj, Prod.mk.injEq] at hread
  obtain ⟨rfl, -⟩ := hread
  have hok : headerOk (p.hdr.toBytes ++ []) = true := by
    rw [← validateFrameHeader_eq_headerOk]
    exact validateFrameHeader_toBytes_append p.isSealed []
  rw [List.append_nil, hbad] at hok
  exact Bool.false_ne_true hok

/-- **The round that reads a packet**: it takes the packet off the stream, and delivers it or
not. -/
theorem recvRound_sealed {s : RecvThread} {p : SealedPacket} (hlen : p.payload.length ≤ 512)
    {rest : List UInt8} (h : s.sock.flatten = p.bytes ++ rest) :
    ∃ t, NextRound s t ∧ t.sock.flatten = rest ∧ t.delivered = s.delivered ++ deliveries [p] ∧
      (s.recvBuffer.length = recvBufferSize → t.recvBuffer.length = recvBufferSize) := by
  rw [SealedPacket.bytes, List.append_assoc] at h
  obtain ⟨sock, hsock, hround⟩ := recvRound_header p.isSealed h
  have hdata := p.length_eq
  have hmax : maxFrameDataLen = 512 := rfl
  have hsize : recvBufferSize = 512 := rfl
  rw [recvPayload, if_neg (by omega)] at hround
  by_cases hzero : p.hdr.dataLen = 0
  · -- nothing follows the header
    have hnil : p.payload = [] := by
      rw [hzero, UInt16.toNat_zero] at hdata
      exact List.length_eq_zero_iff.mp hdata
    rw [if_pos hzero] at hround
    refine ⟨_, hround, ?_, ?_, id⟩
    · rw [hsock, hnil, List.nil_append]
    · have hnone : p.isDelivered = false := by simp [SealedPacket.isDelivered, hnil]
      simp [deliveries, hnone]
  have hpos : 0 < p.payload.length := by
    rw [hdata]
    exact Nat.pos_of_ne_zero fun heq => hzero (UInt16.toNat_inj.mp heq)
  rw [if_neg hzero] at hround
  by_cases hfits : p.hdr.dataLen.toNat < recvBufferSize
  · -- the payload and the terminator fit the buffer
    obtain ⟨sock', hread, hrest⟩ := tcpRecvAllSegs_append hsock
    rw [if_pos hfits, ← hdata, hread] at hround
    refine ⟨_, hround, hrest, ?_, ?_⟩
    · have hsent : p.isDelivered = true := decide_eq_true ⟨hpos, by omega⟩
      show s.delivered ++ [(p.hdr, (writeAt s.recvBuffer 0 p.payload).take p.hdr.dataLen.toNat)] = _
      rw [← hdata, take_writeAt]
      simp [deliveries, hsent]
    · intro hbuf
      have hwrite : (writeAt s.recvBuffer 0 p.payload).length = recvBufferSize := by
        rw [length_writeAt (by omega), hbuf]
      show (writeAt (writeAt s.recvBuffer 0 p.payload) p.hdr.dataLen.toNat [0]).length = _
      rw [length_writeAt (by rw [hwrite, List.length_singleton]; omega), hwrite]
  · -- 512 bytes are dropped in pieces
    obtain ⟨sock', hread, hrest⟩ := readTrash_append hsock
    rw [if_neg hfits, ← hdata, hread] at hround
    refine ⟨_, hround, hrest, ?_, id⟩
    have hnone : p.isDelivered = false := decide_eq_false (by omega)
    simp [deliveries, hnone]

/-! ### The loop -/

/-- Between two rounds: the packets read so far, those on the way, and what was delivered. -/
def FrameAligned (ps : List SealedPacket) (s : RecvThread) : Prop :=
  ∃ done rest, ps = done ++ rest ∧ s.sock.flatten = rest.flatMap SealedPacket.bytes ∧
    s.delivered = deliveries done

/-- The loop waits behind the last packet, and reads one otherwise. -/
theorem FrameAligned.round {ps : List SealedPacket} {s : RecvThread} (h : FrameAligned ps s)
    (hlen : ∀ p ∈ ps, p.payload.length ≤ 512) :
    ¬ Searches s ∧ ((recvRound s = .blocked ∧ s.sock.flatten = [] ∧ s.delivered = deliveries ps) ∨
      ∃ t, NextRound s t ∧ FrameAligned ps t ∧
        (s.recvBuffer.length = recvBufferSize → t.recvBuffer.length = recvBufferSize)) := by
  obtain ⟨done, rest, hps, hsock, hdelivered⟩ := h
  cases rest with
  | nil =>
    have hread : tcpRecvAllSegs s.sock frameHeaderSize = none := by
      have heq := tcpRecvAllSegs_eq s.sock frameHeaderSize
      rwa [hsock, tcpRecvAll, if_neg (by simp [frameHeaderSize]), Option.map_eq_none_iff] at heq
    refine ⟨?_, .inl ⟨?_, hsock, ?_⟩⟩
    · rintro ⟨raw, sock, hraw, -⟩
      rw [hread] at hraw
      cases hraw
    · rw [recvRound, hread]
    · rw [hdelivered, hps, List.append_nil]
  | cons p rest =>
    have hp : p.payload.length ≤ 512 := hlen p (by simp [hps])
    rw [List.flatMap_cons] at hsock
    obtain ⟨t, hround, hrest, hnew, hbuf⟩ := recvRound_sealed hp hsock
    refine ⟨not_searches_sealed hsock, .inr ⟨t, hround, ⟨done ++ [p], rest, ?_, hrest, ?_⟩, hbuf⟩⟩
    · rw [hps, List.append_assoc]
      rfl
    · rw [hnew, hdelivered]
      simp [deliveries, List.filter_append]

/-- The inner loop from a packet boundary on. -/
theorem FrameAligned.recvThread {ps : List SealedPacket}
    (hlen : ∀ p ∈ ps, p.payload.length ≤ 512) : ∀ {s : RecvThread}, FrameAligned ps s →
    (recvThread s).1 = true ∧ (recvThread s).2.sock.flatten = [] ∧
      (recvThread s).2.delivered = deliveries ps := by
  intro s
  induction hn : s.sock.flatten.length using Nat.strong_induction_on generalizing s with
  | _ n ih =>
    intro h
    rcases (h.round hlen).2 with ⟨hblocked, hsock, hdelivered⟩ | ⟨t, hnext, ht, -⟩
    · rw [recvThread_blocked hblocked]
      exact ⟨rfl, hsock, hdelivered⟩
    · rw [recvThread_next hnext]
      exact ih _ (hn ▸ recvRound_length hnext) rfl ht

/-- Every round of the loop starts at a packet boundary. -/
theorem FrameAligned.of_rounds {ps : List SealedPacket} (hlen : ∀ p ∈ ps, p.payload.length ≤ 512)
    {s t : RecvThread} (h : FrameAligned ps s) (hbuf : s.recvBuffer.length = recvBufferSize)
    (hrounds : Relation.ReflTransGen NextRound s t) :
    FrameAligned ps t ∧ t.recvBuffer.length = recvBufferSize := by
  induction hrounds with
  | refl => exact ⟨h, hbuf⟩
  | tail _ hnext ih =>
    rcases (ih.1.round hlen).2 with ⟨hblocked, -⟩ | ⟨u, hu, haligned, hkeep⟩
    · rw [NextRound, hblocked] at hnext
      cases hnext
    · rw [NextRound] at hu hnext
      rw [hu, Round.next.injEq] at hnext
      rw [← hnext]
      exact ⟨haligned, hkeep ih.2⟩

/-- What has been delivered fits the buffer, with the terminator behind it. -/
theorem terminator_inside {ps : List SealedPacket} {d : FrameHeader × List UInt8}
    (hd : d ∈ deliveries ps) : d.1.dataLen.toNat < recvBufferSize := by
  obtain ⟨p, hp, rfl⟩ := List.mem_map.mp hd
  have hfits : p.payload.length ≤ 511 := (of_decide_eq_true (List.mem_filter.mp hp).2).2
  rw [← p.length_eq]
  exact Nat.lt_succ_of_le hfits

/-- **The device stays aligned**: on a stream of packets of at most 512 bytes, however it is
cut, no round searches for a header or gives the connection up, every packet of 1 to 511 bytes
is delivered as it was sent, and the terminator behind it lies in the buffer. -/
theorem recvThread_aligned {ps : List SealedPacket} (hlen : ∀ p ∈ ps, p.hdr.dataLen.toNat ≤ 512)
    {segs : List (List UInt8)} (hsegs : segs.flatten = ps.flatMap SealedPacket.bytes)
    {recvBuffer : List UInt8} (hbuf : recvBuffer.length = recvBufferSize) :
    (∀ s, Relation.ReflTransGen NextRound ⟨segs, recvBuffer, []⟩ s →
      ¬ Searches s ∧ recvRound s ≠ .connectionLost ∧ s.recvBuffer.length = recvBufferSize) ∧
    (recvThread ⟨segs, recvBuffer, []⟩).1 = true ∧
    (recvThread ⟨segs, recvBuffer, []⟩).2.sock.flatten = [] ∧
    (recvThread ⟨segs, recvBuffer, []⟩).2.delivered = deliveries ps ∧
    ∀ d ∈ deliveries ps, d.1.dataLen.toNat < recvBufferSize := by
  have hpayload : ∀ p ∈ ps, p.payload.length ≤ 512 := by
    intro p hp
    rw [p.length_eq]
    exact hlen p hp
  have hstart : FrameAligned ps ⟨segs, recvBuffer, []⟩ := ⟨[], ps, rfl, hsegs, rfl⟩
  obtain ⟨hok, hend, hall⟩ := hstart.recvThread hpayload
  refine ⟨?_, hok, hend, hall, ?_⟩
  · intro s hs
    obtain ⟨haligned, hsize⟩ := hstart.of_rounds hpayload hbuf hs
    obtain ⟨hsearch, hround⟩ := haligned.round hpayload
    refine ⟨hsearch, ?_, hsize⟩
    intro hlost
    rcases hround with ⟨hblocked, -⟩ | ⟨t, hnext, -⟩
    · rw [hlost] at hblocked
      cases hblocked
    · rw [NextRound, hlost] at hnext
      cases hnext
  · intro d hd
    exact terminator_inside hd

/-- A packet without data and one of two bytes, cut behind the first three bytes. -/
theorem recvThread_aligned_two :
    let ps : List SealedPacket := [.of ⟨0, 0, 0, 1, 0, 5, 1000, 0, 0, 0⟩ [] rfl,
      .of ⟨0, 2, 1, 1, 0, 5, 1000, 0, 0, 0⟩ [0x7B, 0x7D] rfl]
    let bytes := ps.flatMap SealedPacket.bytes
    (recvThread ⟨[bytes.take 3, [], bytes.drop 3], List.replicate 512 0, []⟩).1 = true := by
  intro ps bytes
  have hlen : ∀ p ∈ ps, p.hdr.dataLen.toNat ≤ 512 := by decide
  refine (recvThread_aligned hlen ?_ List.length_replicate).2.1
  simp [bytes]

end Sentry
