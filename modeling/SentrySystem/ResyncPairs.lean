/-
The streams on which the device's command receiver resynchronises.

What the search does to a stream depends on the pairs AB CD in it.  The 32 bytes read first are
looked through for a pair, then the bytes behind them as they come.  A pair whose 30 following bytes
do not fit is put at the start of the window with them, while the index goes on: of the 30 bytes
the last ones are looked at first, as many as had been read from the CD on, and then all of them
with the next byte of the stream.  An AB that is the last byte read takes the next byte with it,
which is lost if it is no CD.

* `readOn`, `firstPair`, `nextPair` — the next pair of the stream;
* `Met` — the pairs that are met in a stream, one behind the other;
* `met_of_scan`, `exists_scan_of_met` — they are the candidates of the search;
* `NoFalseHeader`, `PairedByChance` — the two kinds of streams on which the search does what it
  should;
* `resyncLaw_iff` — there are no others.
-/
import SentrySystem.Resync

namespace Sentry

open FrameHeader

/-! ### The pairs of a stream -/

/-- What is behind the first pair AB CD. -/
def behindPair : List UInt8 → Option (List UInt8)
  | [] => none
  | a :: l => if a = 0xAB ∧ l.head? = some 0xCD then some l.tail else behindPair l

/-- The first pair of a stream of which one byte is read, and the others come one by one: what is
behind it, and how many bytes from its CD on are read by then. -/
def readOn : List UInt8 → Option (ℕ × List UInt8)
  | a :: y :: l =>
    if a ≠ 0xAB then readOn (y :: l)
    else if y = 0xCD then some (0, l)
    -- the byte between is lost
    else if l.head? = some 0xCD then some (1, l.tail)
    else readOn l
  | _ => none

/-- The first pair of a stream of which the 31 bytes `seen` are read. -/
def firstPair (seen rest : List UInt8) : Option (ℕ × List UInt8) :=
  match behindPair seen with
  | some b => some (b.length + 1, b ++ rest)
  | none => readOn (seen.drop 30 ++ rest)

/-- The next pair behind one with the 30 bytes `seen`, of which `late` are still to be looked at
before another byte is read. -/
def nextPair (late seen rest : List UInt8) : Option (ℕ × List UInt8) :=
  match behindPair late with
  | some b => some (b.length + 1, b ++ rest)
  | none =>
    match rest with
    | [] => none
    | y :: l =>
      if late.getLast? ≠ some 0xAB then firstPair (seen ++ [y]) l
      else if y = 0xCD then some (0, l)
      else
        match l with
        | [] => none
        | c :: l => firstPair (seen ++ [c]) l

/-- `Met S n v`: a pair of `S` is met, with `v` behind it; `n` bytes from its CD on are read by
then.  The pairs met before it have 30 bytes behind them that make no header, and of these bytes
the last `n` are looked at first. -/
inductive Met (S : List UInt8) : ℕ → List UInt8 → Prop
  | first {n v} (h : firstPair ((S.take 32).drop 1) (S.drop 32) = some (n, v)) : Met S n v
  | next {n v n' v'} (hv : Met S n v) (hlen : 30 ≤ v.length)
    (hbad : headerOk (0xCD :: 0xAB :: v.take 30) = false)
    (h : nextPair ((v.take 30).drop (30 - n)) (v.take 30) (v.drop 30) = some (n', v')) : Met S n' v'

/-- The stream holds no header, and no pair that is met makes one. -/
def NoFalseHeader (S : List UInt8) : Prop :=
  (∀ k, 1 ≤ k → ¬ HeaderAt S k) ∧
  ∀ n v, Met S n v → 30 ≤ v.length → headerOk (0xCD :: 0xAB :: v.take 30) = false

/-- The first header lies at `k`, the low byte of its `data_len` is AB, and a pair is met behind
which the stream goes on like that header behind its magic. -/
def PairedByChance (S : List UInt8) (k : ℕ) : Prop :=
  FirstHeader S k ∧ S[k + 2]? = some 0xAB ∧ ∃ n, Met S n (S.drop (k + 2))

/-! ### The next pair -/

theorem behindPair_cons {a : UInt8} {l : List UInt8} (h : ¬ (a = 0xAB ∧ l.head? = some 0xCD)) :
    behindPair (a :: l) = behindPair l :=
  if_neg h

theorem behindPair_pair (l : List UInt8) : behindPair (0xAB :: 0xCD :: l) = some l :=
  if_pos ⟨rfl, rfl⟩

theorem behindPair_none {a : UInt8} {l : List UInt8} (h : behindPair (a :: l) = none) :
    behindPair l = none := by
  rw [behindPair] at h
  split_ifs at h
  exact h

theorem nextPair_pair (b seen rest : List UInt8) :
    nextPair (0xAB :: 0xCD :: b) seen rest = some (b.length + 1, b ++ rest) := by
  rw [nextPair.eq_def, behindPair_pair]

/-- One more byte makes a pair behind an AB only. -/
theorem behindPair_concat {l : List UInt8} (c : UInt8) (h : behindPair l = none) :
    behindPair (l ++ [c]) = if l.getLast? = some 0xAB ∧ c = 0xCD then some [] else none := by
  induction l with
  | nil => simp [behindPair]
  | cons a l ih =>
    have hl := ih (behindPair_none h)
    cases l with
    | nil =>
      have hcd : ([c] : List UInt8).head? = some 0xCD ↔ c = 0xCD := Option.some_inj
      have hab : [a].getLast? = some 0xAB ↔ a = 0xAB := Option.some_inj
      have hend : ¬ (c = 0xAB ∧ ([] : List UInt8).head? = some 0xCD) := by
        intro hpair
        cases hpair.2
      rw [List.singleton_append, behindPair, behindPair, if_neg hend, behindPair]
      simp only [hcd, hab, List.tail_cons]
    | cons b l =>
      have hhead : ¬ (a = 0xAB ∧ ((b :: l) ++ [c]).head? = some 0xCD) := by
        intro hpair
        rw [behindPair, if_pos ⟨hpair.1, hpair.2⟩] at h
        cases h
      rw [List.cons_append, behindPair_cons hhead, hl, List.getLast?_cons_cons]

/-- A window that was moved by a byte holds at most the pair that this byte makes. -/
theorem firstPair_concat {init : List UInt8} {x : UInt8} (hlen : (init ++ [x]).length = 30)
    (hnone : behindPair (init ++ [x]) = none) (y : UInt8) (l : List UInt8) :
    firstPair (init ++ [x] ++ [y]) l =
      if x = 0xAB ∧ y = 0xCD then some (1, l) else readOn (y :: l) := by
  have hend : (init ++ [x] ++ [y]).drop 30 = [y] := List.drop_left' hlen
  have hlast : (init ++ [x]).getLast? = some 0xAB ↔ x = 0xAB := by
    rw [List.getLast?_concat, Option.some_inj]
  rw [firstPair, behindPair_concat y hnone, hend]
  simp only [hlast]
  split_ifs
  · rfl
  · rfl

/-- **A window** is looked through from its second byte on, whether it is the first one or was
moved by a byte. -/
theorem firstPair_eq (a : UInt8) {seen : List UInt8} (hseen : seen.length = 30)
    (rest : List UInt8) : firstPair (a :: seen) rest = nextPair (a :: seen) seen rest := by
  rw [firstPair, nextPair.eq_def]
  cases hpair : behindPair (a :: seen) with
  | some b => rfl
  | none =>
    have hnone := behindPair_none hpair
    obtain ⟨init, x, rfl⟩ : ∃ init x, seen = init ++ [x] :=
      ⟨_, _, (List.dropLast_append_getLast (List.ne_nil_of_length_pos (by omega))).symm⟩
    have hlast : (a :: (init ++ [x])).getLast? = some x :=
      List.getLast?_concat (l := a :: init)
    have hdrop : ((a :: init) ++ [x]).drop 30 = [x] :=
      List.drop_left' (by simpa using hseen)
    rw [hlast, ← List.cons_append, hdrop]
    dsimp only
    cases rest with
    | nil => rfl
    | cons y l =>
      rw [List.singleton_append, readOn]
      dsimp only
      by_cases hx : x = 0xAB
      · subst hx
        simp only [not_true, if_false, ne_eq]
        by_cases hy : y = 0xCD
        · rw [if_pos hy, if_pos hy]
        rw [if_neg hy, if_neg hy]
        cases l with
        | nil => simp [readOn]
        | cons c l =>
          dsimp only
          rw [firstPair_concat hseen hnone]
          simp only [List.head?_cons, Option.some_inj, List.tail_cons, true_and]
      · have hne : some x ≠ some 0xAB := fun h => hx (Option.some_inj.mp h)
        rw [if_pos hx, if_pos hne, firstPair_concat hseen hnone, if_neg (fun h => hx h.1)]

theorem firstPair_window {buf : List UInt8} (hbuf : buf.length = 32) (rest : List UInt8) :
    firstPair (buf.drop 1) rest = nextPair (buf.drop 1) (buf.drop 2) rest := by
  rw [drop_window (show 1 < buf.length by omega), firstPair_eq _ (by simp [hbuf])]

/-- A window that is done with is moved by a byte. -/
theorem nextPair_slide {buf : List UInt8} (hbuf : buf.length = 32) (y : UInt8)
    (rest : List UInt8) :
    nextPair (buf.drop 32) (buf.drop 2) (y :: rest) =
      nextPair ((buf.drop 1 ++ [y]).drop 1) ((buf.drop 1 ++ [y]).drop 2) rest := by
  have hmoved : (buf.drop 1 ++ [y]).drop 1 = buf.drop 2 ++ [y] := by
    rw [List.drop_append_of_le_length (by simp [hbuf]), List.drop_drop]
  have hlen : (buf.drop 1 ++ [y]).length = 32 := by simp [hbuf]
  rw [← firstPair_window hlen, hmoved, List.drop_of_length_le hbuf.le]
  rfl

/-- The next pair is not at an index without one. -/
theorem nextPair_pass {buf : List UInt8} {i : ℕ} (hbuf : buf.length = 32) (hi : i < 32)
    (hp : NoPair buf i) (seen rest : List UInt8) :
    nextPair (buf.drop i) seen rest = nextPair (buf.drop (i + 1)) seen rest := by
  have hdrop := drop_window (show i < buf.length by omega)
  have hhead : ¬ (buf.getD i 0 = 0xAB ∧ (buf.drop (i + 1)).head? = some 0xCD) := by
    rintro ⟨hab, hcd⟩
    obtain ⟨hlt, hne⟩ := hp.resolve_left (not_not.mpr hab)
    rw [drop_window (by omega), List.head?_cons, Option.some_inj] at hcd
    exact hne hcd
  have hlast : (buf.drop i).getLast? = some 0xAB ↔ (buf.drop (i + 1)).getLast? = some 0xAB := by
    rw [hdrop]
    by_cases hend : i + 1 < 32
    · rw [drop_window (show i + 1 < buf.length by omega), List.getLast?_cons_cons]
    · rw [List.drop_of_length_le (by omega)]
      have hne := hp.resolve_right (fun h => hend h.1)
      exact iff_of_false (fun h => hne (Option.some_inj.mp h)) (fun h => by cases h)
  rw [nextPair.eq_def, nextPair.eq_def, hdrop, behindPair_cons hhead, ← hdrop]
  simp only [hlast, ne_eq]

/-- Behind a window that ends in AB, a byte is lost. -/
theorem nextPair_drop {buf : List UInt8} (hbuf : buf.length = 32) (hab : buf.getD 31 0 = 0xAB)
    {y : UInt8} (hy : y ≠ 0xCD) (seen rest : List UInt8) :
    nextPair (buf.drop 31) seen (y :: rest) = nextPair (buf.drop 32) seen rest := by
  have hend : buf.drop 32 = [] := List.drop_of_length_le (by omega)
  have hlast : buf.drop 31 = [0xAB] := by rw [drop_window (by omega), hab, hend]
  rw [hlast, hend]
  cases rest with
  | nil => simp [nextPair, behindPair, hy]
  | cons c l => simp [nextPair, behindPair, hy]

/-- A candidate is the next pair. -/
theorem nextPair_candidate {sock buf body rest : List UInt8} {i : ℕ} (hbuf : buf.length = 32)
    (hi : i < 32) (hc : Candidate sock buf i body rest) (seen : List UInt8) :
    nextPair (buf.drop i) seen sock = some (31 - i, body ++ rest) := by
  have hpair := hc.2
  rw [drop_window (by omega), List.cons_append, List.cons.injEq] at hpair
  obtain ⟨hab, hpair⟩ := hpair
  rw [drop_window (by omega), hab]
  by_cases hlast : i + 1 < 32
  · rw [drop_window (by omega), List.cons_append, List.cons.injEq] at hpair
    obtain ⟨hcd, hpair⟩ := hpair
    rw [drop_window (show i + 1 < buf.length by omega), hcd, nextPair_pair, ← hpair,
      List.length_drop, hbuf]
    congr 2
    omega
  · have hend : buf.drop (i + 1) = [] := List.drop_of_length_le (by omega)
    rw [hend, List.nil_append] at hpair
    rw [hend, hpair, show 31 - i = 0 by omega]
    rfl

/-- The bytes of a rejected header that are still to be looked at. -/
theorem drop_rejected {i : ℕ} (hi : 1 ≤ i) (hi' : i < 32) (body : List UInt8) :
    (0xCD :: 0xAB :: body).drop (i + 1) = body.drop (30 - (31 - i)) := by
  rw [show i + 1 = (30 - (31 - i)) + 2 by omega]
  rfl

/-! ### The pairs met are the candidates -/

theorem Scan.nextPair_met {S sock buf : List UInt8} {i : ℕ} (hS : 32 ≤ S.length)
    (h : Scan S sock buf i) : ∀ n v,
    nextPair (buf.drop i) (buf.drop 2) sock = some (n, v) → Met S n v := by
  induction h with
  | first =>
    intro n v hnext
    exact .first (by rwa [firstPair_window (by simp [hS])])
  | pass hs hi hp ih =>
    intro n v hnext
    exact ih n v (by rwa [nextPair_pass (hs.window hS).1 hi hp])
  | drop hs hab hy ih =>
    intro n v hnext
    exact ih n v (by rwa [nextPair_drop (hs.window hS).1 hab hy])
  | @reject sock buf body rest i hs hi hc hbad ih =>
    intro n v hnext
    have hwin := hs.window hS
    have hmet := ih _ _ (nextPair_candidate hwin.1 hi hc _)
    have htake : (body ++ rest).take 30 = body := List.take_left' hc.1
    have hdrop : (body ++ rest).drop 30 = rest := List.drop_left' hc.1
    refine .next hmet (by rw [List.length_append, hc.1]; omega) (by rwa [htake]) ?_
    rwa [htake, hdrop, ← drop_rejected hwin.2.1 hi]
  | slide hs ih =>
    intro n v hnext
    exact ih n v (by rwa [nextPair_slide (hs.window hS).1])

/-- **A candidate of the search** is a pair that is met. -/
theorem met_of_scan {S sock buf body rest : List UInt8} {i : ℕ} (hS : 32 ≤ S.length)
    (h : Scan S sock buf i) (hi : i < 32) (hc : Candidate sock buf i body rest) :
    Met S (31 - i) (body ++ rest) :=
  h.nextPair_met hS _ _ (nextPair_candidate (h.window hS).1 hi hc _)

/-- The search gets to the next pair. -/
theorem Scan.exists_pair {S sock buf : List UInt8} {i n : ℕ} {v : List UInt8} (hS : 32 ≤ S.length)
    (h : Scan S sock buf i) (hnext : nextPair (buf.drop i) (buf.drop 2) sock = some (n, v)) :
    ∃ sock' buf' j, Scan S sock' buf' j ∧ j < 32 ∧ n = 31 - j ∧
      buf'.drop j ++ sock' = 0xAB :: 0xCD :: v := by
  -- along the stream, and within a window
  induction hlen : sock.length using Nat.strong_induction_on generalizing sock buf i with
  | _ len ihsock =>
  subst hlen
  induction hleft : 32 - i generalizing i with
  | zero =>
    obtain ⟨hbuf, -, hi⟩ := h.window hS
    obtain rfl : i = 32 := by omega
    cases sock with
    | nil =>
      rw [List.drop_of_length_le hbuf.le] at hnext
      cases hnext
    | cons y l =>
      rw [nextPair_slide hbuf] at hnext
      exact ihsock l.length (Nat.lt_succ_self _) h.slide hnext rfl
  | succ left ih =>
    obtain ⟨hbuf, -, -⟩ := h.window hS
    have hi : i < 32 := by omega
    by_cases hp : NoPair buf i
    · rw [nextPair_pass hbuf hi hp] at hnext
      exact ih (h.pass hi hp) hnext (by omega)
    rw [NoPair, not_or, not_not, not_and, not_not] at hp
    obtain ⟨hab, hcd⟩ := hp
    have hdrop := drop_window (show i < buf.length by omega)
    rw [hab] at hdrop
    by_cases hlast : i + 1 < 32
    · -- the pair lies in the window
      have hdrop' := drop_window (show i + 1 < buf.length by omega)
      rw [hcd hlast] at hdrop'
      rw [hdrop, hdrop', nextPair_pair, List.length_drop, hbuf, Option.some_inj,
        Prod.mk.injEq] at hnext
      obtain ⟨rfl, rfl⟩ := hnext
      exact ⟨sock, buf, i, h, hi, by omega, by rw [hdrop, hdrop']; rfl⟩
    · obtain rfl : i = 31 := by omega
      have hend : buf.drop 32 = [] := List.drop_of_length_le hbuf.le
      rw [hend] at hdrop
      cases sock with
      | nil =>
        rw [hdrop] at hnext
        cases hnext
      | cons y l =>
        by_cases hy : y = 0xCD
        · -- the next byte makes the pair
          subst hy
          rw [hdrop] at hnext
          obtain ⟨rfl, rfl⟩ := Prod.mk.inj (Option.some_inj.mp hnext)
          exact ⟨_, buf, 31, h, hi, rfl, by rw [hdrop]; rfl⟩
        · rw [nextPair_drop hbuf hab hy] at hnext
          exact ihsock l.length (Nat.lt_succ_self _) (h.drop hab hy) hnext rfl

/-- **A pair that is met** is a candidate of the search. -/
theorem exists_scan_of_met {S : List UInt8} {n : ℕ} {v : List UInt8} (hS : 32 ≤ S.length)
    (h : Met S n v) : ∃ sock buf i, Scan S sock buf i ∧ i < 32 ∧ n = 31 - i ∧
      buf.drop i ++ sock = 0xAB :: 0xCD :: v := by
  induction h with
  | first h =>
    rw [firstPair_window (by simp [hS])] at h
    exact Scan.first.exists_pair hS h
  | @next n v n' v' _ hlen hbad h ih =>
    obtain ⟨sock, buf, i, hs, hi, rfl, hpair⟩ := ih
    have hwin := hs.window hS
    have hreject := hs.reject hi (candidate_of_pair hpair hlen) hbad
    rw [← drop_rejected hwin.2.1 hi] at h
    exact hreject.exists_pair hS h

/-! ### When resynchronisation works -/

/-- A met pair that makes a header is what the search returns. -/
theorem search_of_met {S : List UInt8} {n : ℕ} {v : List UInt8} (hS : 32 ≤ S.length)
    (h : Met S n v) (hlen : 30 ≤ v.length) (hok : headerOk (0xCD :: 0xAB :: v.take 30) = true) :
    tcpSearchFrameHeader (S.drop 32) (S.take 32) =
      some (0xCD :: 0xAB :: v.take 30, v.drop 30) := by
  obtain ⟨sock, buf, i, hs, hi, -, hpair⟩ := exists_scan_of_met hS h
  exact search_of_scan hS hs hi (candidate_of_pair hpair hlen) hok

/-- What the search returns is made by a met pair. -/
theorem exists_met_of_search {S hdr rest : List UInt8} (hS : 32 ≤ S.length)
    (h : tcpSearchFrameHeader (S.drop 32) (S.take 32) = some (hdr, rest)) :
    ∃ n body, body.length = 30 ∧ Met S n (body ++ rest) ∧ hdr = 0xCD :: 0xAB :: body ∧
      headerOk hdr = true := by
  obtain ⟨sock, buf, i, body, hs, hi, hc, hok, rfl⟩ := exists_scan_of_search hS h
  exact ⟨_, body, hc.1, met_of_scan hS hs hi hc, rfl, hok⟩

/-- **When resynchronisation works**: from a stream that does not start with a header, the law holds
when the stream holds no header and no pair AB CD that is met passes for one, or when a pair that is
met happens to be followed by what is behind the magic of the first header.  In particular no header
whose `data_len` has another low byte than AB is ever found. -/
theorem resyncLaw_iff {S : List UInt8} (hS : 32 ≤ S.length)
    (hbad : headerOk (S.take 32) = false) :
    ResyncLaw S ↔ NoFalseHeader S ∨ ∃ k, PairedByChance S k := by
  constructor
  · rintro ⟨hfirst, hwindow⟩
    by_cases hex : ∃ k, 1 ≤ k ∧ HeaderAt S k
    · obtain ⟨k, hk, hhdr⟩ := hex
      obtain ⟨j, hj⟩ := exists_firstHeader hk hhdr
      have hfound := hfirst j hj
      obtain ⟨n, body, hlen, hmet, hbody, -⟩ := exists_met_of_search hS hfound
      rw [hj.2.1.bytes, List.cons.injEq, List.cons.injEq] at hbody
      have hall : body ++ S.drop (j + 32) = S.drop (j + 2) := by
        have hsplit := List.take_append_drop 30 (S.drop (j + 2))
        rwa [List.drop_drop, hbody.2.2] at hsplit
      exact .inr ⟨j, hj, lowByte_of_found hS hj.2.1 hfound, n, hall ▸ hmet⟩
    · have hnone : ∀ k, 1 ≤ k → ¬ HeaderAt S k := fun k hk hhdr => hex ⟨k, hk, hhdr⟩
      refine .inl ⟨hnone, ?_⟩
      intro n v hmet hlen
      by_contra hok
      rw [Bool.not_eq_false] at hok
      -- a pair that makes a header would make one of the stream
      obtain ⟨j, hj, hhdr⟩ := hwindow _ _ (search_of_met hS hmet hlen hok)
      rw [hhdr] at hok
      rcases j with _ | j
      · rw [List.drop_zero, hbad] at hok
        cases hok
      · exact hnone (j + 1) (by omega) ⟨hj, hok⟩
  · rintro (⟨hnone, hmade⟩ | ⟨k, hk, -, n, hmet⟩)
    · refine ⟨fun k hk => absurd hk.2.1 (hnone k hk.1), ?_⟩
      intro hdr rest h
      obtain ⟨n, body, hlen, hmet, rfl, hok⟩ := exists_met_of_search hS h
      have hno := hmade n _ hmet (by rw [List.length_append]; omega)
      rw [List.take_left' hlen, hok] at hno
      cases hno
    · have hlen : 30 ≤ (S.drop (k + 2)).length := by
        have hin := hk.2.1.1
        rw [List.length_drop]
        omega
      have hok := hk.2.1.2
      rw [hk.2.1.bytes] at hok
      have hfound := search_of_met hS hmet hlen hok
      rw [← hk.2.1.bytes, List.drop_drop] at hfound
      constructor
      · intro j hj
        rw [hj.unique hk]
        exact hfound
      · intro hdr rest h
        obtain ⟨rfl, -⟩ := Prod.mk.inj (Option.some_inj.mp (hfound.symm.trans h))
        exact ⟨k, hk.2.1.1, rfl⟩

/-- A pair with no header behind it. -/
def unfitPair : List UInt8 := List.replicate 10 0 ++ 0xAB :: 0xCD :: List.replicate 32 0

/-- A pair before a header of which all bytes up to the CRC are AB. -/
def chancePair : List UInt8 :=
  List.replicate 20 0 ++ 0xAB :: 0xCD :: 0xAB :: 0xCD :: (List.replicate 29 0xAB ++ [129, 238])

/-- The one pair of `unfitPair`. -/
theorem met_unfitPair {n : ℕ} {v : List UInt8} (h : Met unfitPair n v) :
    n = 21 ∧ v = List.replicate 32 0 := by
  induction h with
  | first h =>
    have hpair : firstPair ((unfitPair.take 32).drop 1) (unfitPair.drop 32) =
      some (21, List.replicate 32 0) := by decide
    rw [hpair] at h
    obtain ⟨rfl, rfl⟩ := Prod.mk.inj (Option.some_inj.mp h)
    exact ⟨rfl, rfl⟩
  | next _ _ _ h ih =>
    obtain ⟨rfl, rfl⟩ := ih
    have hnone : nextPair (((List.replicate 32 0).take 30).drop 9) ((List.replicate 32 0).take 30)
      ((List.replicate 32 0).drop 30) = none := by decide
    cases hnone.symm.trans h

/-- On a stream of each kind the search does what it should. -/
theorem resyncLaw_unfit_chance : ResyncLaw unfitPair ∧ ResyncLaw chancePair := by
  constructor
  · refine (resyncLaw_iff (by decide) (by decide +kernel)).mpr (.inl ⟨?_, ?_⟩)
    · intro k hk hhdr
      have hnone : ∀ j < 13, 1 ≤ j → ¬ HeaderAt unfitPair j := by decide +kernel
      have hin : k + 32 ≤ 44 := hhdr.1
      exact hnone k (by omega) hk hhdr
    · intro n v hmet _
      obtain ⟨rfl, rfl⟩ := met_unfitPair hmet
      decide +kernel
  · refine (resyncLaw_iff (by decide) (by decide +kernel)).mpr ?_
    refine .inr ⟨23, ⟨?_, ?_, ?_⟩, rfl, 30, ?_⟩
    · decide
    · decide +kernel
    · have hnone : ∀ j < 23, 1 ≤ j → ¬ HeaderAt chancePair j := by decide +kernel
      exact fun j hj hlt => hnone j hlt hj
    · -- the pair at 20 is unfit; the one behind it loses the last AB of the header
      have hfirst : Met chancePair 11 (chancePair.drop 22) := .first (by decide)
      exact .next hfirst (by decide) (by decide +kernel) (by decide)

/-- One garbage byte before a header with `data_len` 0 and no other bytes. -/
def garbageByte : List UInt8 := 0 :: 0xCD :: 0xAB :: (List.replicate 28 0 ++ [97, 88])

/-- The search does not find the header behind the garbage byte. -/
theorem not_resyncLaw_garbage_byte :
    headerOk (garbageByte.take 32) = false ∧ ¬ ResyncLaw garbageByte := by
  refine ⟨by decide +kernel, ?_⟩
  intro h
  have hhdr : HeaderAt garbageByte 1 := ⟨by decide, by decide +kernel⟩
  have hfound := h.1 1 ⟨le_rfl, hhdr, fun j hj hlt => absurd hj (by omega)⟩
  have hlow := lowByte_of_found (by decide) hhdr hfound
  exact absurd hlow (by decide)

end Sentry
