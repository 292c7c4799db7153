/-
The header search of the device's command receiver (`src/net/tcp_recv.c`).

When the 32 bytes read as a header fail the magic or CRC test,
`tcp_search_frame_header` slides over the stream until `try_match_header_at`
accepts a candidate.  The functions are modelled on the stream of bytes the
socket delivers, with `recv` never failing: `none` is a call still blocked for
bytes the stream does not hold yet.

The search looks for the byte pair AB CD, while a little-endian header starts
with CD AB, rewrites the window in place and drops the byte after a window
that ends in AB.

* `tryMatchHeaderAt`, `tcpSearchFrameHeader` — the two functions;
* `tryMatchHeaderAt_pass`, `tryMatchHeaderAt_drop`, `tryMatchHeaderAt_candidate` —
  what one call of `try_match_header_at` does, by the bytes it looks at;
* `tryMatchHeaderAt_cases` — that this is all it can do.
-/
import SentrySystem.FrameHeader
import SentrySystem.Lib.Buffer

namespace Sentry

open FrameHeader

/-! ### The code -/

/-- `tcp_recv_all` on a socket whose `recv` never fails: the bytes received and
the rest of the stream, `none` while the stream is too short. -/
def tcpRecvAll (sock : List UInt8) (length : ℕ) : Option (List UInt8 × List UInt8) :=
  if length ≤ sock.length then some (sock.take length, sock.drop length) else none

/-- The second byte `try_match_header_at` compares: the next one of the window,
or past its end the next one of the socket. -/
def nextByte (sock buf : List UInt8) (idx : ℕ) : Option (UInt8 × List UInt8) :=
  if idx + 1 < frameHeaderSize then some (buf.getD (idx + 1) 0, sock)
  else (tcpRecvAll sock 1).map fun r => (r.1.getD 0 0, r.2)

/-- `try_match_header_at`: whether it returned 1, the window and the rest of the
stream it leaves. -/
def tryMatchHeaderAt (sock buf : List UInt8) (idx : ℕ) :
    Option (Bool × List UInt8 × List UInt8) :=
  if buf.getD idx 0 ≠ 0xAB then some (false, buf, sock)
  else
    (nextByte sock buf idx).bind fun (cdByte, sock) =>
      if cdByte ≠ 0xCD then some (false, buf, sock)
      else
        let afterCdIdx := idx + 2
        let bytesAfterCd := if afterCdIdx < frameHeaderSize then frameHeaderSize - afterCdIdx else 0
        -- the bytes behind the pair go to the places behind the magic
        let buf := memmove buf 2 afterCdIdx bytesAfterCd
        let needRead := frameHeaderSize - 2 - bytesAfterCd
        (tcpRecvAll sock needRead).map fun (more, sock) =>
          let buf := writeAt buf (2 + bytesAfterCd) more
          let buf := writeAt buf 0 [0xAB, 0xCD]
          -- the magic is stored through the header pointer, in little-endian order
          let buf := writeAt buf 0 (leBytes 2 frameMagic.toNat)
          (crc16Ccitt (buf.take (frameHeaderSize - 2)) == (ofBytes buf).crc, buf, sock)

/-- The `for` loop of `tcp_search_frame_header` from index `i` on. -/
def searchFrom (sock buf : List UInt8) (i : ℕ) : Option (Bool × List UInt8 × List UInt8) :=
  if i < frameHeaderSize then
    match tryMatchHeaderAt sock buf i with
    | none => none
    | some (true, buf, sock) => some (true, buf, sock)
    | some (false, buf, sock) => searchFrom sock buf (i + 1)
  else some (false, buf, sock)
  termination_by frameHeaderSize - i

theorem tcpRecvAll_length {sock bytes rest : List UInt8} {n : ℕ}
    (h : tcpRecvAll sock n = some (bytes, rest)) : rest.length ≤ sock.length := by
  rw [tcpRecvAll] at h
  split_ifs at h
  simp only [Option.some.injEq, Prod.mk.injEq] at h
  simp [← h.2]

theorem nextByte_length {sock buf rest : List UInt8} {idx : ℕ} {b : UInt8}
    (h : nextByte sock buf idx = some (b, rest)) : rest.length ≤ sock.length := by
  rw [nextByte] at h
  split_ifs at h
  · simp only [Option.some.injEq, Prod.mk.injEq] at h
    rw [h.2]
  · rw [Option.map_eq_some_iff] at h
    obtain ⟨⟨bytes, rest'⟩, hr, h⟩ := h
    simp only [Prod.mk.injEq] at h
    exact h.2 ▸ tcpRecvAll_length hr

theorem tryMatchHeaderAt_length {sock buf buf' sock' : List UInt8} {idx : ℕ} {ok : Bool}
    (h : tryMatchHeaderAt sock buf idx = some (ok, buf', sock')) :
    sock'.length ≤ sock.length := by
  rw [tryMatchHeaderAt] at h
  split_ifs at h
  · simp only [Option.some.injEq, Prod.mk.injEq] at h
    rw [h.2.2]
  · rw [Option.bind_eq_some_iff] at h
    obtain ⟨⟨b, rest⟩, hb, h⟩ := h
    refine le_trans ?_ (nextByte_length hb)
    dsimp only at h
    split_ifs at h
    · simp only [Option.some.injEq, Prod.mk.injEq] at h
      rw [h.2.2]
    all_goals
      rw [Option.map_eq_some_iff] at h
      obtain ⟨⟨more, rest'⟩, hr, h⟩ := h
      simp only [Prod.mk.injEq] at h
      exact h.2.2 ▸ tcpRecvAll_length hr

theorem searchFrom_length {sock buf buf' sock' : List UInt8} {i : ℕ} {ok : Bool}
    (h : searchFrom sock buf i = some (ok, buf', sock')) : sock'.length ≤ sock.length := by
  induction sock, buf, i using searchFrom.induct with
  | case1 sock buf i hi hnone =>
    rw [searchFrom, if_pos hi, hnone] at h
    simp at h
  | case2 sock buf i hi b s htrue =>
    rw [searchFrom, if_pos hi, htrue] at h
    simp only [Option.some.injEq, Prod.mk.injEq] at h
    exact h.2.2 ▸ tryMatchHeaderAt_length htrue
  | case3 sock buf i hi b s hfalse ih =>
    rw [searchFrom, if_pos hi, hfalse] at h
    exact le_trans (ih h) (tryMatchHeaderAt_length hfalse)
  | case4 sock buf i hi =>
    rw [searchFrom, if_neg hi] at h
    simp only [Option.some.injEq, Prod.mk.injEq] at h
    rw [h.2.2]

/-- `tcp_search_frame_header`: the header it returns with 0 and the rest of the
stream, `none` while it is blocked. -/
def tcpSearchFrameHeader (sock buf : List UInt8) : Option (List UInt8 × List UInt8) :=
  match _h : searchFrom sock buf 1 with
  | none => none
  | some (true, buf, sock) => some (buf, sock)
  | some (false, _, []) => none
  | some (false, buf, newByte :: sock) =>
    tcpSearchFrameHeader sock (writeAt (memmove buf 0 1 31) 31 [newByte])
  termination_by sock.length
  decreasing_by exact searchFrom_length (by assumption)

/-! ### One call of `try_match_header_at` -/

/-- In the window from `idx` on, continued by the socket, the bytes AB CD stand
before the 30 bytes `body`. -/
def Candidate (sock buf : List UInt8) (idx : ℕ) (body rest : List UInt8) : Prop :=
  body.length = 30 ∧ buf.drop idx ++ sock = 0xAB :: 0xCD :: (body ++ rest)

/-- The three stores turn the window into a header with the moved bytes behind
its magic. -/
theorem writeAt_memmove {buf : List UInt8} {src n : ℕ} {more : List UInt8}
    (hbuf : buf.length = 32) (hsrc : n ≤ 32 - src) (hmore : n + more.length = 30) :
    writeAt (writeAt (writeAt (memmove buf 2 src n) (2 + n) more) 0 [0xAB, 0xCD]) 0
      (leBytes 2 frameMagic.toNat) = 0xCD :: 0xAB :: ((buf.drop src).take n ++ more) := by
  have hhead : (buf.take 2).length = 2 := by simp [hbuf]
  have htail : ((buf.drop src).take n).length = n := by
    simp [hbuf]
    omega
  have hmoved : writeAt (memmove buf 2 src n) (2 + n) more =
      buf.take 2 ++ ((buf.drop src).take n ++ more) := by
    have hfront : (buf.take 2 ++ (buf.drop src).take n).length = 2 + n := by
      rw [List.length_append, hhead, htail]
    have hback : (memmove buf 2 src n).drop (2 + n + more.length) = [] := by
      apply List.drop_of_length_le
      rw [memmove, List.length_append, List.length_append, hhead, htail, List.length_drop, hbuf]
      omega
    rw [writeAt, hback, memmove, List.append_nil, ← List.append_assoc (buf.take 2),
      List.take_left' hfront, List.append_assoc]
  obtain ⟨x, y, hxy⟩ : ∃ x y, buf.take 2 = [x, y] := List.length_eq_two.mp hhead
  rw [hmoved, hxy]
  rfl

theorem headerOk_magic (body : List UInt8) :
    headerOk (0xCD :: 0xAB :: body) =
      (crc16Ccitt ((0xCD :: 0xAB :: body).take 30) == (ofBytes (0xCD :: 0xAB :: body)).crc) := by
  have hmagic : (ofBytes (0xCD :: 0xAB :: body)).magic = frameMagic := by
    simp [ofBytes, field, leNat, frameMagic]
  rw [headerOk, hmagic, beq_self_eq_true, Bool.true_and]

/-- What a call sees at an index of the window: the byte there, and behind it
the rest of the window. -/
theorem drop_window {buf : List UInt8} {idx : ℕ} (hidx : idx < buf.length) :
    buf.drop idx = buf.getD idx 0 :: buf.drop (idx + 1) := by
  rw [List.drop_eq_getElem_cons hidx, List.getD_eq_getElem _ _ hidx]

/-- A candidate is tested: the call leaves the header made of it in the window
and returns 1 when its CRC fits. -/
theorem tryMatchHeaderAt_candidate {sock buf body rest : List UInt8} {idx : ℕ}
    (hbuf : buf.length = 32) (hidx : idx < 32) (h : Candidate sock buf idx body rest) :
    tryMatchHeaderAt sock buf idx =
      some (headerOk (0xCD :: 0xAB :: body), 0xCD :: 0xAB :: body, rest) := by
  obtain ⟨hbody, h⟩ := h
  rw [drop_window (by omega), List.cons_append, List.cons.injEq] at h
  obtain ⟨hab, h⟩ := h
  rw [tryMatchHeaderAt, if_neg (not_not.mpr hab), nextByte, frameHeaderSize]
  by_cases hlast : idx + 1 < 32
  · -- both bytes of the pair lie in the window
    rw [drop_window (by omega), List.cons_append, List.cons.injEq] at h
    obtain ⟨hcd, h⟩ := h
    have hn : (if idx + 2 < 32 then 32 - (idx + 2) else 0) = 30 - idx := by
      split_ifs <;> omega
    have hin : (buf.drop (idx + 2)).length = 30 - idx := by simp [hbuf]
    have hsock : sock.take idx ++ sock.drop idx = sock := List.take_append_drop _ _
    have hlen : idx ≤ sock.length := by
      have := congrArg List.length h
      simp [hbuf, hbody] at this
      omega
    have hsplit : buf.drop (idx + 2) ++ sock.take idx = body ∧ sock.drop idx = rest := by
      refine List.append_inj ?_ ?_
      · rw [List.append_assoc, hsock, h]
      · simp [hbuf, hbody, hlen]
        omega
    have htake : (buf.drop (idx + 2)).take (30 - idx) = buf.drop (idx + 2) :=
      List.take_of_length_le (by omega)
    rw [if_pos hlast, Option.bind_some]
    simp only [hcd, ne_eq, not_true_eq_false, if_false, hn]
    rw [tcpRecvAll, if_pos (by omega), Option.map_some]
    simp only [show 32 - 2 - (30 - idx) = idx by omega]
    rw [writeAt_memmove hbuf (by omega) (by simp; omega), htake, hsplit.1, hsplit.2, headerOk_magic]
  · -- the pair straddles the end of the window
    have hidx : idx = 31 := by omega
    subst hidx
    rw [List.drop_of_length_le (by omega), List.nil_append] at h
    have hbody' : (body ++ rest).take 30 = body := List.take_left' hbody
    have hrest' : (body ++ rest).drop 30 = rest := List.drop_left' hbody
    rw [if_neg hlast, tcpRecvAll, if_pos (by simp [h]), Option.map_some, Option.bind_some, h]
    simp only [List.take_succ_cons, List.take_zero, List.getD_cons_zero, List.drop_succ_cons,
      List.drop_zero, ne_eq, not_true_eq_false, if_false]
    rw [if_neg (by omega), tcpRecvAll, if_pos (by simp [hbody]), Option.map_some, Nat.sub_zero,
      show 32 - 2 = 30 from rfl, hbody', hrest', @writeAt_memmove buf 33 0 body hbuf (by omega) (by omega),
      List.take_zero, List.nil_append, headerOk_magic]

/-- A pair with enough bytes behind it is a candidate. -/
theorem candidate_of_pair {sock buf bs : List UInt8} {idx : ℕ}
    (h : buf.drop idx ++ sock = 0xAB :: 0xCD :: bs) (hbs : 30 ≤ bs.length) :
    Candidate sock buf idx (bs.take 30) (bs.drop 30) :=
  ⟨by simp [hbs], by rw [List.take_append_drop, h]⟩

/-- The window shows that no pair stands at `idx`. -/
def NoPair (buf : List UInt8) (idx : ℕ) : Prop :=
  buf.getD idx 0 ≠ 0xAB ∨ (idx + 1 < 32 ∧ buf.getD (idx + 1) 0 ≠ 0xCD)

/-- Without a pair the window and the stream are left alone. -/
theorem tryMatchHeaderAt_pass {buf : List UInt8} {idx : ℕ} (h : NoPair buf idx)
    (sock : List UInt8) : tryMatchHeaderAt sock buf idx = some (false, buf, sock) := by
  rw [tryMatchHeaderAt]
  by_cases hab : buf.getD idx 0 = 0xAB
  · obtain ⟨hlast, hcd⟩ := h.resolve_left (not_not.mpr hab)
    have hin : idx + 1 < frameHeaderSize := hlast
    rw [if_neg (not_not.mpr hab), nextByte, if_pos hin, Option.bind_some]
    exact if_pos hcd
  · rw [if_pos hab]

/-- Behind a window that ends in AB, a byte other than CD is read and dropped. -/
theorem tryMatchHeaderAt_drop {buf : List UInt8} {y : UInt8} (hab : buf.getD 31 0 = 0xAB)
    (hy : y ≠ 0xCD) (sock : List UInt8) :
    tryMatchHeaderAt (y :: sock) buf 31 = some (false, buf, sock) := by
  have hout : ¬ 31 + 1 < frameHeaderSize := by decide
  rw [tryMatchHeaderAt, if_neg (not_not.mpr hab), nextByte, if_neg hout, tcpRecvAll,
    if_pos (by simp), Option.map_some, Option.bind_some]
  exact if_pos hy

/-- Everything one returning call can do: leave the window and the stream alone,
drop one byte behind a window that ends in AB, or test a candidate. -/
theorem tryMatchHeaderAt_cases {sock buf buf' sock' : List UInt8} {idx : ℕ} {ok : Bool}
    (hbuf : buf.length = 32) (hidx : idx < 32)
    (h : tryMatchHeaderAt sock buf idx = some (ok, buf', sock')) :
    (ok = false ∧ buf' = buf ∧ sock' = sock ∧ NoPair buf idx) ∨
    (ok = false ∧ buf' = buf ∧ idx = 31 ∧ buf.getD 31 0 = 0xAB ∧
      ∃ y, y ≠ 0xCD ∧ sock = y :: sock') ∨
    ∃ body, Candidate sock buf idx body sock' ∧ buf' = 0xCD :: 0xAB :: body ∧
      ok = headerOk buf' := by
  by_cases hc : ∃ body rest, Candidate sock buf idx body rest
  · obtain ⟨body, rest, hc⟩ := hc
    rw [tryMatchHeaderAt_candidate hbuf hidx hc] at h
    simp only [Option.some.injEq, Prod.mk.injEq] at h
    obtain ⟨rfl, rfl, rfl⟩ := h
    exact .inr (.inr ⟨body, hc, rfl, rfl⟩)
  · rw [tryMatchHeaderAt] at h
    by_cases hab : buf.getD idx 0 = 0xAB
    · rw [if_neg (not_not.mpr hab), nextByte, frameHeaderSize] at h
      have hwin : buf.drop idx = buf.getD idx 0 :: buf.drop (idx + 1) := drop_window (by omega)
      by_cases hlast : idx + 1 < 32
      · rw [if_pos hlast, Option.bind_some] at h
        dsimp only at h
        by_cases hcd : buf.getD (idx + 1) 0 = 0xCD
        · -- a pair inside the window is a candidate once the socket holds `idx` bytes
          have hn : (if idx + 2 < 32 then 32 - (idx + 2) else 0) = 30 - idx := by
            split_ifs <;> omega
          rw [if_neg (not_not.mpr hcd), hn, tcpRecvAll] at h
          by_cases hlen : 32 - 2 - (30 - idx) ≤ sock.length
          · have hpair : buf.drop idx ++ sock =
                0xAB :: 0xCD :: (buf.drop (idx + 2) ++ sock) := by
              rw [hwin, hab, drop_window (by omega), hcd]
              rfl
            have hlong : 30 ≤ (buf.drop (idx + 2) ++ sock).length := by
              simp only [List.length_append, List.length_drop, hbuf]
              omega
            exact absurd ⟨_, _, candidate_of_pair hpair hlong⟩ hc
          · rw [if_neg hlen] at h
            simp at h
        · rw [if_pos hcd] at h
          simp only [Option.some.injEq, Prod.mk.injEq] at h
          exact .inl ⟨h.1.symm, h.2.1.symm, h.2.2.symm, .inr ⟨hlast, hcd⟩⟩
      · rw [if_neg hlast] at h
        have hend : buf.drop (idx + 1) = [] := List.drop_of_length_le (by omega)
        rw [hend, hab] at hwin
        rcases sock with _ | ⟨y, s⟩
        · simp [tcpRecvAll] at h
        · rw [tcpRecvAll, if_pos (by simp), Option.map_some, Option.bind_some] at h
          simp only [List.take_succ_cons, List.take_zero, List.getD_cons_zero,
            List.drop_succ_cons, List.drop_zero] at h
          by_cases hcd : y = 0xCD
          · -- a pair across the end of the window, once the socket holds 30 more bytes
            rw [if_neg (not_not.mpr hcd), if_neg (by omega), tcpRecvAll] at h
            by_cases hlen : 32 - 2 - 0 ≤ s.length
            · have hpair : buf.drop idx ++ y :: s = 0xAB :: 0xCD :: s := by
                rw [hwin, hcd]
                rfl
              exact absurd ⟨_, _, candidate_of_pair hpair hlen⟩ hc
            · rw [if_neg hlen] at h
              simp at h
          · rw [if_pos hcd] at h
            simp only [Option.some.injEq, Prod.mk.injEq] at h
            have hidx : idx = 31 := by omega
            exact .inr (.inl ⟨h.1.symm, h.2.1.symm, hidx, hidx ▸ hab, y, hcd, by rw [h.2.2]⟩)
    · rw [if_pos hab] at h
      simp only [Option.some.injEq, Prod.mk.injEq] at h
      exact .inl ⟨h.1.symm, h.2.1.symm, h.2.2.symm, .inl hab⟩

end Sentry
