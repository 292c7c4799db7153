/-
Resynchronisation of the device's command receiver.

`tcp_search_frame_header` is meant to find the first header behind garbage.

* `ResyncLaw` — what is expected of it: from a stream that does not start with
  a header, the header at the least valid offset is returned and nothing
  behind it is consumed; and a header that is returned lies in the stream;
* `Scan` — the search as a walk over the stream; `search_of_scan` and
  `exists_scan_of_search` say that the code makes exactly this walk;
* `Gapped`, `Scan.gapped` — the window is a piece of the stream less some bytes
  dropped behind an AB;
* `lowByte_of_found` — the search returns the header at an offset `k` only when
  the low byte of its `data_len` is AB: its first byte CD was paired with an AB
  before it, and the AB of its own magic was read as the first payload byte.
-/
import SentrySystem.FrameSearch

namespace Sentry

open FrameHeader

/-! ### The walk over the stream -/

/-- The search of a stream `S` whose first 32 bytes were read as a header, before
it looks at index `i` of the window, or slides it when `i` is 32: what it has
found so far did not fit. -/
inductive Scan (S : List UInt8) : List UInt8 → List UInt8 → ℕ → Prop
  | first : Scan S (S.drop 32) (S.take 32) 1
  | pass {sock buf : List UInt8} {i : ℕ} : Scan S sock buf i → i < 32 → NoPair buf i →
      Scan S sock buf (i + 1)
  | drop {sock buf : List UInt8} {y : UInt8} : Scan S (y :: sock) buf 31 →
      buf.getD 31 0 = 0xAB → y ≠ 0xCD → Scan S sock buf 32
  | reject {sock buf body rest : List UInt8} {i : ℕ} : Scan S sock buf i → i < 32 →
      Candidate sock buf i body rest → headerOk (0xCD :: 0xAB :: body) = false →
      Scan S rest (0xCD :: 0xAB :: body) (i + 1)
  | slide {sock buf : List UInt8} {newByte : UInt8} : Scan S (newByte :: sock) buf 32 →
      Scan S sock (buf.drop 1 ++ [newByte]) 1

theorem slide_window {buf : List UInt8} (hbuf : buf.length = 32) (newByte : UInt8) :
    writeAt (memmove buf 0 1 31) 31 [newByte] = buf.drop 1 ++ [newByte] := by
  have hfront : (buf.drop 1).take 31 = buf.drop 1 := List.take_of_length_le (by simp [hbuf])
  have hlen : (buf.drop 1).length = 31 := by simp [hbuf]
  have hmoved : memmove buf 0 1 31 = buf.drop 1 ++ buf.drop 31 := by
    rw [memmove, hfront, List.take_zero, List.nil_append, Nat.zero_add]
  have hend : (memmove buf 0 1 31).drop (31 + [newByte].length) = [] :=
    List.drop_of_length_le (by simp [hmoved, hbuf])
  rw [writeAt, hend, List.append_nil, hmoved, List.take_left' hlen]

theorem Scan.window {S sock buf : List UInt8} {i : ℕ} (hS : 32 ≤ S.length)
    (h : Scan S sock buf i) : buf.length = 32 ∧ 1 ≤ i ∧ i ≤ 32 := by
  induction h with
  | first => exact ⟨by simp [hS], by omega, by omega⟩
  | pass _ hi _ ih => exact ⟨ih.1, by omega, by omega⟩
  | drop _ _ _ ih => exact ⟨ih.1, by omega, by omega⟩
  | reject _ hi hc _ ih => exact ⟨by simp [hc.1], by omega, by omega⟩
  | slide _ ih => exact ⟨by simp [ih.1], by omega, by omega⟩

/-- What the search returns when it goes on from index `i`. -/
def searchResume (sock buf : List UInt8) (i : ℕ) : Option (List UInt8 × List UInt8) :=
  match searchFrom sock buf i with
  | none => none
  | some (true, buf, sock) => some (buf, sock)
  | some (false, _, []) => none
  | some (false, buf, newByte :: sock) =>
    tcpSearchFrameHeader sock (writeAt (memmove buf 0 1 31) 31 [newByte])

theorem tcpSearchFrameHeader_eq (sock buf : List UInt8) :
    tcpSearchFrameHeader sock buf = searchResume sock buf 1 := by
  rw [tcpSearchFrameHeader, searchResume]
  rcases searchFrom sock buf 1 with _ | ⟨_ | _, b, _ | ⟨nb, s⟩⟩ <;> rfl

theorem searchResume_next {sock buf sock' buf' : List UInt8} {i : ℕ} (hi : i < 32)
    (h : tryMatchHeaderAt sock buf i = some (false, buf', sock')) :
    searchResume sock buf i = searchResume sock' buf' (i + 1) := by
  have hin : i < frameHeaderSize := hi
  rw [searchResume, searchFrom, if_pos hin, h, searchResume]

theorem searchFrom_end (sock buf : List UInt8) :
    searchFrom sock buf 32 = some (false, buf, sock) := by
  have hout : ¬ 32 < frameHeaderSize := by decide
  rw [searchFrom, if_neg hout]

theorem searchResume_slide {sock buf : List UInt8} {newByte : UInt8} (hbuf : buf.length = 32) :
    searchResume (newByte :: sock) buf 32 = searchResume sock (buf.drop 1 ++ [newByte]) 1 := by
  rw [searchResume, searchFrom_end, ← tcpSearchFrameHeader_eq, ← slide_window hbuf]

/-- The walk never changes what the search will return. -/
theorem Scan.resume {S sock buf : List UInt8} {i : ℕ} (hS : 32 ≤ S.length)
    (h : Scan S sock buf i) :
    searchResume sock buf i = tcpSearchFrameHeader (S.drop 32) (S.take 32) := by
  induction h with
  | first => exact (tcpSearchFrameHeader_eq _ _).symm
  | pass _ hi hp ih => rw [← ih, searchResume_next hi (tryMatchHeaderAt_pass hp _)]
  | drop _ hab hy ih =>
    rw [← ih, searchResume_next (by omega) (tryMatchHeaderAt_drop hab hy _)]
  | reject hs hi hc hbad ih =>
    have ht := tryMatchHeaderAt_candidate (hs.window hS).1 hi hc
    rw [hbad] at ht
    rw [← ih, searchResume_next hi ht]
  | slide hs ih => rw [← ih, searchResume_slide (hs.window hS).1]

/-- A candidate that fits, met on the walk, is what the search returns. -/
theorem search_of_scan {S sock buf body rest : List UInt8} {i : ℕ} (hS : 32 ≤ S.length)
    (h : Scan S sock buf i) (hi : i < 32) (hc : Candidate sock buf i body rest)
    (hok : headerOk (0xCD :: 0xAB :: body) = true) :
    tcpSearchFrameHeader (S.drop 32) (S.take 32) = some (0xCD :: 0xAB :: body, rest) := by
  have ht := tryMatchHeaderAt_candidate (h.window hS).1 hi hc
  have hin : i < frameHeaderSize := hi
  rw [hok] at ht
  rw [← h.resume hS, searchResume, searchFrom, if_pos hin, ht]

/-- A call that returns 0 continues the walk. -/
theorem Scan.of_false {S sock buf sock' buf' : List UInt8} {i : ℕ} (hS : 32 ≤ S.length)
    (h : Scan S sock buf i) (hi : i < 32)
    (ht : tryMatchHeaderAt sock buf i = some (false, buf', sock')) :
    Scan S sock' buf' (i + 1) := by
  obtain ⟨-, rfl, rfl, hp⟩ | ⟨-, rfl, rfl, hab, y, hy, rfl⟩ | ⟨body, hc, rfl, hok⟩ :=
    tryMatchHeaderAt_cases (h.window hS).1 hi ht
  · exact h.pass hi hp
  · exact h.drop hab hy
  · exact h.reject hi hc hok.symm

/-- The loop over one window follows the walk. -/
theorem scan_of_searchFrom {S sock buf sock' buf' : List UInt8} {i : ℕ} {ok : Bool}
    (hS : 32 ≤ S.length) (hs : Scan S sock buf i)
    (h : searchFrom sock buf i = some (ok, buf', sock')) :
    (ok = false ∧ Scan S sock' buf' 32) ∨
    ∃ s b j body, Scan S s b j ∧ j < 32 ∧ Candidate s b j body sock' ∧
      headerOk (0xCD :: 0xAB :: body) = true ∧ ok = true ∧ buf' = 0xCD :: 0xAB :: body := by
  induction sock, buf, i using searchFrom.induct with
  | case1 sock buf i hi hnone =>
    rw [searchFrom, if_pos hi, hnone] at h
    simp at h
  | case2 sock buf i hi b s htrue =>
    rw [searchFrom, if_pos hi, htrue] at h
    simp only [Option.some.injEq, Prod.mk.injEq] at h
    obtain ⟨rfl, rfl, rfl⟩ := h
    obtain ⟨hf, -⟩ | ⟨hf, -⟩ | ⟨body, hc, hb, hok⟩ :=
      tryMatchHeaderAt_cases (hs.window hS).1 hi htrue
    · simp at hf
    · simp at hf
    · exact .inr ⟨_, _, _, body, hs, hi, hc, hb ▸ hok.symm, rfl, hb⟩
  | case3 sock buf i hi b s hfalse ih =>
    rw [searchFrom, if_pos hi, hfalse] at h
    exact ih (hs.of_false hS hi hfalse) h
  | case4 sock buf i hi =>
    rw [searchFrom, if_neg hi] at h
    simp only [Option.some.injEq, Prod.mk.injEq] at h
    obtain ⟨rfl, rfl, rfl⟩ := h
    have hend : i = 32 := by
      have hi' : ¬ i < 32 := hi
      have := (hs.window hS).2.2
      omega
    exact .inl ⟨rfl, hend ▸ hs⟩

/-- The search from a window on the walk returns only a candidate met on the walk. -/
theorem scan_of_search {S sock buf hdr rest : List UInt8} (hS : 32 ≤ S.length)
    (hs : Scan S sock buf 1) (h : tcpSearchFrameHeader sock buf = some (hdr, rest)) :
    ∃ s b j body, Scan S s b j ∧ j < 32 ∧ Candidate s b j body rest ∧
      headerOk (0xCD :: 0xAB :: body) = true ∧ hdr = 0xCD :: 0xAB :: body := by
  induction sock, buf using tcpSearchFrameHeader.induct with
  | case1 sock buf hfrom =>
    rw [tcpSearchFrameHeader, hfrom] at h
    simp at h
  | case2 sock buf b s hfrom =>
    rw [tcpSearchFrameHeader, hfrom] at h
    simp only [Option.some.injEq, Prod.mk.injEq] at h
    obtain ⟨rfl, rfl⟩ := h
    obtain ⟨hf, -⟩ | ⟨s', b', j, body, hs', hj, hc, hok, -, hb⟩ := scan_of_searchFrom hS hs hfrom
    · simp at hf
    · exact ⟨s', b', j, body, hs', hj, hc, hok, hb⟩
  | case3 sock buf b hfrom =>
    rw [tcpSearchFrameHeader, hfrom] at h
    simp at h
  | case4 sock buf b nb s hfrom ih =>
    rw [tcpSearchFrameHeader, hfrom] at h
    obtain ⟨-, hend⟩ | ⟨_, _, _, _, _, _, _, _, hf, -⟩ := scan_of_searchFrom hS hs hfrom
    · have hwin := slide_window (hend.window hS).1 nb
      exact ih (hwin ▸ hend.slide) h
    · simp at hf

theorem exists_scan_of_search {S hdr rest : List UInt8} (hS : 32 ≤ S.length)
    (h : tcpSearchFrameHeader (S.drop 32) (S.take 32) = some (hdr, rest)) :
    ∃ s b j body, Scan S s b j ∧ j < 32 ∧ Candidate s b j body rest ∧
      headerOk (0xCD :: 0xAB :: body) = true ∧ hdr = 0xCD :: 0xAB :: body :=
  scan_of_search hS .first h

/-! ### What the walk does to the bytes -/

/-- `Gapped raw img`: `img` is `raw` less some bytes, each dropped right behind
an AB and none of them CD. -/
inductive Gapped : List UInt8 → List UInt8 → Prop
  | nil : Gapped [] []
  | keep {raw img : List UInt8} (b : UInt8) : Gapped raw img → Gapped (b :: raw) (b :: img)
  | skip {raw img : List UInt8} {y : UInt8} : y ≠ 0xCD → Gapped (0xAB :: raw) (0xAB :: img) →
      Gapped (0xAB :: y :: raw) (0xAB :: img)

namespace Gapped

theorem refl (l : List UInt8) : Gapped l l := by
  induction l with
  | nil => exact .nil
  | cons b l ih => exact .keep b ih

theorem append {raw img : List UInt8} (h : Gapped raw img) (l : List UInt8) :
    Gapped (raw ++ l) (img ++ l) := by
  induction h with
  | nil => exact refl l
  | keep b _ ih => exact .keep b ih
  | skip hy _ ih => exact .skip hy ih

theorem dropByte {raw img : List UInt8} (h : Gapped raw img) {y : UInt8} (hy : y ≠ 0xCD)
    (hend : img.getLast? = some 0xAB) : Gapped (raw ++ [y]) img := by
  induction h with
  | nil => simp at hend
  | @keep raw img b hg ih =>
    rcases img with _ | ⟨c, img⟩
    · -- the AB is the last byte kept
      rw [List.getLast?_singleton, Option.some_inj] at hend
      cases hg
      rw [hend]
      exact .skip hy (refl _)
    · exact .keep b (ih (by rwa [List.getLast?_cons_cons] at hend))
  | skip hy' _ ih => exact .skip hy' (ih hend)

/-- A later piece of the image comes from a later piece of the stream. -/
theorem tail {raw img : List UInt8} {b : UInt8} (h : Gapped raw (b :: img)) :
    ∃ a pre raw', raw = a :: (pre ++ raw') ∧ Gapped raw' img := by
  generalize hl : b :: img = l at h
  induction h with
  | nil => simp at hl
  | @keep raw img' c hg _ =>
    rw [List.cons.injEq] at hl
    exact ⟨c, [], raw, rfl, hl.2 ▸ hg⟩
  | @skip raw img' y _ hg ih =>
    obtain ⟨a, pre, raw', hraw, hg'⟩ := ih hl
    rw [List.cons.injEq] at hraw
    exact ⟨0xAB, y :: pre, raw', by rw [hraw.2, List.cons_append], hg'⟩

theorem length_le {raw img : List UInt8} (h : Gapped raw img) : img.length ≤ raw.length := by
  induction h with
  | nil => exact le_rfl
  | keep b _ ih => simpa using ih
  | skip _ _ ih => simp only [List.length_cons] at *; omega

theorem count_eq {raw img : List UInt8} (h : Gapped raw img) :
    raw.count 0xCD = img.count 0xCD := by
  induction h with
  | nil => rfl
  | keep b _ ih => simp only [List.count_cons, ih]
  | skip hy _ ih =>
    simp only [List.count_cons, beq_iff_eq, hy, if_false, add_zero] at ih ⊢
    exact ih

theorem head {raw img : List UInt8} {a b : UInt8} (h : Gapped (a :: raw) (b :: img)) : a = b := by
  cases h <;> rfl

/-- Up to the first CD on both sides, and from it on. -/
theorem after_first {raw img A B : List UInt8} (h : Gapped (A ++ 0xCD :: raw) (B ++ 0xCD :: img))
    (hA : 0xCD ∉ A) (hB : 0xCD ∉ B) : Gapped raw img := by
  generalize hr : A ++ 0xCD :: raw = r at h
  generalize hl : B ++ 0xCD :: img = l at h
  induction h generalizing A B with
  | nil => simp at hr
  | @keep r l b hg ih =>
    rcases A with _ | ⟨a, A⟩ <;> rcases B with _ | ⟨c, B⟩ <;>
      simp only [List.nil_append, List.cons_append, List.cons.injEq] at hr hl
    · obtain ⟨-, rfl⟩ := hr
      obtain ⟨-, rfl⟩ := hl
      exact hg
    · exact absurd (by simp [← hr.1, hl.1]) hB
    · exact absurd (by simp [← hl.1, hr.1]) hA
    · rw [List.mem_cons, not_or] at hA hB
      exact ih hA.2 hB.2 hr.2 hl.2
  | @skip r l y hy hg ih =>
    -- the AB and the dropped byte both stand before the first CD of the stream
    rcases A with _ | ⟨a, A⟩
    · simp at hr
    rcases A with _ | ⟨a', A⟩
    · simp only [List.nil_append, List.cons_append, List.cons.injEq] at hr
      exact absurd hr.2.1.symm hy
    · simp only [List.cons_append, List.cons.injEq] at hr
      obtain ⟨rfl, rfl, hr⟩ := hr
      refine ih (A := 0xAB :: A) ?_ hB ?_ hl
      · simp only [List.mem_cons, not_or] at hA ⊢
        exact ⟨hA.1, hA.2.2⟩
      · rw [List.cons_append, hr]

end Gapped

/-- `l` is what was kept of a piece of `S` that ends where `rest` begins. -/
def Piece (S l rest : List UInt8) : Prop :=
  ∃ pre raw, S = pre ++ (raw ++ rest) ∧ Gapped raw l

namespace Piece

variable {S l rest : List UInt8}

theorem tail {b : UInt8} (h : Piece S (b :: l) rest) : Piece S l rest := by
  obtain ⟨pre, raw, rfl, hg⟩ := h
  obtain ⟨a, mid, raw', rfl, hg'⟩ := hg.tail
  exact ⟨pre ++ a :: mid, raw', by simp [List.append_assoc], hg'⟩

theorem drop (h : Piece S l rest) (n : ℕ) : Piece S (l.drop n) rest := by
  induction n generalizing l with
  | zero => exact h
  | succ n ih =>
    rcases l with _ | ⟨b, l⟩
    · simpa using h
    · exact ih h.tail

theorem append {l' : List UInt8} (h : Piece S l (l' ++ rest)) : Piece S (l ++ l') rest := by
  obtain ⟨pre, raw, hS, hg⟩ := h
  exact ⟨pre, raw ++ l', by rw [hS, List.append_assoc raw], hg.append l'⟩

theorem dropByte {y : UInt8} (h : Piece S l (y :: rest)) (hy : y ≠ 0xCD)
    (hend : l.getLast? = some 0xAB) : Piece S l rest := by
  obtain ⟨pre, raw, hS, hg⟩ := h
  exact ⟨pre, raw ++ [y], by rw [hS, List.append_assoc raw]; rfl, hg.dropByte hy hend⟩

end Piece

/-- A candidate is a piece of the stream once the window behind its AB is. -/
theorem Candidate.piece {S sock buf body rest : List UInt8} {i : ℕ} (hbuf : buf.length = 32)
    (hi : 1 ≤ i) (hi' : i < 32) (hc : Candidate sock buf i body rest)
    (h : Piece S (buf.drop (min i 2)) sock) : Piece S (0xAB :: 0xCD :: body) rest := by
  obtain ⟨hbody, hpair⟩ := hc
  have hlen : (buf.drop i).length ≤ (0xAB :: 0xCD :: body).length := by
    simp [hbuf, hbody]
  -- the candidate is the window from `i` on, and the bytes read behind it
  obtain ⟨more, hcand, hsock⟩ : ∃ more, 0xAB :: 0xCD :: body = buf.drop i ++ more ∧
      sock = more ++ rest := by
    rcases List.append_eq_append_iff.mp (show buf.drop i ++ sock = (0xAB :: 0xCD :: body) ++ rest
      from hpair) with ⟨more, h1, h2⟩ | ⟨more, h1, h2⟩
    · exact ⟨more, h1, h2⟩
    · have hnil : more = [] := List.eq_nil_of_length_eq_zero (by
        have := congrArg List.length h1
        rw [List.length_append] at this
        omega)
      rw [hnil, List.append_nil] at h1
      rw [hnil, List.nil_append] at h2
      exact ⟨[], by rw [h1, List.append_nil], h2.symm⟩
  have hdrop : buf.drop i = (buf.drop (min i 2)).drop (i - min i 2) := by
    rw [List.drop_drop]
    congr 1
    omega
  rw [hcand, hdrop]
  rw [hsock] at h
  exact Piece.append (h.drop _)

/-- On the walk the window behind the byte in front of it is a piece of the stream. -/
theorem Scan.gapped {S sock buf : List UInt8} {i : ℕ} (hS : 32 ≤ S.length)
    (h : Scan S sock buf i) : Piece S (buf.drop (min i 2)) sock := by
  have hdrop : ∀ {S l rest : List UInt8} {n m : ℕ}, n ≤ m → Piece S (l.drop n) rest →
      Piece S (l.drop m) rest := by
    intro S l rest n m hnm h
    have hm : l.drop m = (l.drop n).drop (m - n) := by
      rw [List.drop_drop]
      congr 1
      omega
    rw [hm]
    exact h.drop _
  induction h with
  | first =>
    have hwhole : Piece S (S.take 32) (S.drop 32) :=
      ⟨[], S.take 32, by rw [List.nil_append, List.take_append_drop], .refl _⟩
    exact hwhole.drop 1
  | pass _ _ _ ih => exact hdrop (by omega) ih
  | @drop sock buf y hs hab hy ih =>
    have hbuf := (hs.window hS).1
    have hend : (buf.drop 2).getLast? = some 0xAB := by
      rw [List.getLast?_drop, if_neg (by omega), List.getLast?_eq_getElem?, hbuf,
        ← hab, List.getD_eq_getElem?_getD, List.getElem?_eq_getElem (by omega), Option.getD_some]
    exact ih.dropByte hy hend
  | reject hs hi hc _ ih =>
    have hwin := hs.window hS
    have hp := (hc.piece hwin.1 hwin.2.1 hi ih).tail.tail
    rw [min_eq_right (by omega)]
    exact hp
  | @slide sock buf nb hs ih =>
    have hbuf := (hs.window hS).1
    have hshift : (buf.drop 1 ++ [nb]).drop 1 = buf.drop 2 ++ [nb] := by
      rw [List.drop_append_of_le_length (by simp [hbuf]), List.drop_drop]
    rw [min_eq_left (by omega), hshift]
    exact Piece.append ih

/-! ### When a header is found -/

/-- A header lies at offset `k` of the stream. -/
def HeaderAt (S : List UInt8) (k : ℕ) : Prop :=
  k + 32 ≤ S.length ∧ headerOk ((S.drop k).take 32) = true

instance (S : List UInt8) (k : ℕ) : Decidable (HeaderAt S k) :=
  inferInstanceAs (Decidable (_ ∧ _))

/-- A header starts with CD AB: its magic in the order of the wire. -/
theorem headerOk_cons {hdr : List UInt8} (hlen : hdr.length = 32) (h : headerOk hdr = true) :
    ∃ body, body.length = 30 ∧ hdr = 0xCD :: 0xAB :: body := by
  obtain ⟨x, y, body, rfl⟩ : ∃ x y body, hdr = x :: y :: body := by
    rcases hdr with _ | ⟨x, _ | ⟨y, body⟩⟩
    · simp at hlen
    · simp at hlen
    · exact ⟨x, y, body, rfl⟩
  rw [headerOk, Bool.and_eq_true, beq_iff_eq, beq_iff_eq] at h
  have hmagic : UInt16.ofNat (x.toNat + 256 * y.toNat) = 0xABCD := by
    simpa [ofBytes, field, leNat, frameMagic] using h.1
  have hnat : x.toNat + 256 * y.toNat = 0xABCD := by
    have := congrArg UInt16.toNat hmagic
    have hx := x.toNat_lt
    have hy := y.toNat_lt
    rw [UInt16.toNat_ofNat', Nat.mod_eq_of_lt (by omega)] at this
    exact this
  have hx := x.toNat_lt
  have hy := y.toNat_lt
  refine ⟨body, by simpa using hlen, ?_⟩
  rw [show x = 0xCD from UInt8.toNat_inj.mp (show x.toNat = 0xCD by omega),
    show y = 0xAB from UInt8.toNat_inj.mp (show y.toNat = 0xAB by omega)]

/-- A candidate whose 30 bytes are those of a header at offset `k` and that ends
with it was paired with the CD of that header: the AB of the header's magic was
taken for the low byte of its `data_len`. -/
theorem lowByte_of_piece {S body : List UInt8} {k : ℕ} (hbody : body.length = 30)
    (hhdr : (S.drop k).take 32 = 0xCD :: 0xAB :: body)
    (h : Piece S (0xAB :: 0xCD :: body) (S.drop (k + 32))) : body.head? = some 0xAB := by
  obtain ⟨pre, raw, hS, hg⟩ := h
  have hfront : pre ++ raw = S.take k ++ 0xCD :: 0xAB :: body := by
    have hall : (pre ++ raw) ++ S.drop (k + 32) =
        (S.take k ++ 0xCD :: 0xAB :: body) ++ S.drop (k + 32) := by
      rw [List.append_assoc, ← hS, ← hhdr, List.append_assoc, ← List.drop_drop,
        List.take_append_drop, List.take_append_drop]
    exact List.append_cancel_right hall
  have hlen := hg.length_le
  -- the piece reaches back before the header
  obtain ⟨A, hraw⟩ : ∃ A, raw = A ++ 0xCD :: 0xAB :: body := by
    rcases List.append_eq_append_iff.mp hfront with ⟨A, -, h2⟩ | ⟨A, h1, h2⟩
    · exact ⟨A, h2⟩
    · have hA : A = [] := List.eq_nil_of_length_eq_zero (by
        have := congrArg List.length h2
        rw [List.length_append, List.length_cons, List.length_cons] at this
        simp only [List.length_cons] at hlen
        omega)
      exact ⟨[], by rw [h2, hA]; rfl⟩
  rw [hraw] at hg
  have hA : 0xCD ∉ A := by
    have hcount := hg.count_eq
    rw [List.count_append, List.count_cons_self, List.count_cons_of_ne (by decide),
      List.count_cons_of_ne (by decide), List.count_cons_self] at hcount
    exact List.count_eq_zero.mp (by omega)
  have hrest : Gapped (0xAB :: body) body :=
    hg.after_first (B := [0xAB]) hA (by decide)
  rcases body with _ | ⟨b, body⟩
  · simp at hbody
  · rw [List.head?_cons, ← hrest.head]

/-- The least offset behind the start of the stream where a header lies. -/
def FirstHeader (S : List UInt8) (k : ℕ) : Prop :=
  1 ≤ k ∧ HeaderAt S k ∧ ∀ j, 1 ≤ j → j < k → ¬ HeaderAt S j

/-- What resynchronisation is expected to do on a stream whose first 32 bytes are
no header. -/
def ResyncLaw (S : List UInt8) : Prop :=
  (∀ k, FirstHeader S k → tcpSearchFrameHeader (S.drop 32) (S.take 32) =
    some ((S.drop k).take 32, S.drop (k + 32))) ∧
  ∀ hdr rest, tcpSearchFrameHeader (S.drop 32) (S.take 32) = some (hdr, rest) →
    ∃ j, j + 32 ≤ S.length ∧ hdr = (S.drop j).take 32

theorem HeaderAt.bytes {S : List UInt8} {k : ℕ} (h : HeaderAt S k) :
    (S.drop k).take 32 = 0xCD :: 0xAB :: (S.drop (k + 2)).take 30 := by
  have hlen : ((S.drop k).take 32).length = 32 := by
    have := h.1
    simp
    omega
  obtain ⟨body, hbody, hhdr⟩ := headerOk_cons hlen h.2
  have htail : ((S.drop k).take 32).drop 2 = (S.drop (k + 2)).take 30 := by
    rw [List.drop_take, List.drop_drop]
  rw [hhdr] at htail
  rw [hhdr, ← htail]
  rfl

theorem FirstHeader.unique {S : List UInt8} {j k : ℕ} (hj : FirstHeader S j)
    (hk : FirstHeader S k) : j = k := by
  rcases lt_trichotomy j k with h | h | h
  · exact absurd hj.2.1 (hk.2.2 j hj.1 h)
  · exact h
  · exact absurd hk.2.1 (hj.2.2 k hk.1 h)

theorem exists_firstHeader {S : List UInt8} {k : ℕ} (hk : 1 ≤ k) (h : HeaderAt S k) :
    ∃ j, FirstHeader S j := by
  classical
  have hex : ∃ j, 1 ≤ j ∧ HeaderAt S j := ⟨k, hk, h⟩
  refine ⟨Nat.find hex, (Nat.find_spec hex).1, (Nat.find_spec hex).2, ?_⟩
  intro j hj hlt hhdr
  exact Nat.find_min hex hlt ⟨hj, hhdr⟩

/-- **The search returns the header at an offset only by chance**: when the low
byte of the header's `data_len` is AB. -/
theorem lowByte_of_found {S : List UInt8} {k : ℕ} (hS : 32 ≤ S.length) (hk : HeaderAt S k)
    (h : tcpSearchFrameHeader (S.drop 32) (S.take 32) =
      some ((S.drop k).take 32, S.drop (k + 32))) : S[k + 2]? = some 0xAB := by
  obtain ⟨sock, buf, i, body, hs, hi, hc, -, hhdr⟩ := exists_scan_of_search hS h
  have hwin := hs.window hS
  have hlow := lowByte_of_piece hc.1 hhdr (hc.piece hwin.1 hwin.2.1 hi (hs.gapped hS))
  rw [hk.bytes, List.cons.injEq, List.cons.injEq] at hhdr
  rwa [← hhdr.2.2, List.head?_take, if_neg (by omega), List.head?_drop] at hlow

end Sentry
