/-
The frame buffer of the detector (`src/alarm/alarm.cpp`).

`process_image_thread` takes the length of the frame and the address of `frame_buffer` under
the lock and calls `imdecode` without it; `alarm_msg_handler` copies the next image to the same
buffer under the lock.  The copy and the decoding go byte by byte here, and interleave.
`running` stays set.  What the thread does with a decoded image is left out.

* `decodeSystem` — the handler and the thread;
* `KeepsUnread` — the step condition: the handler changes no byte that `imdecode` has still to
  read, and stays in the buffer;
* `decodesWhole` — along such runs `imdecode` is given the bytes and the length of one image.
-/
import SentrySystem.Lib.Transition

namespace Sentry

/-! ### The code -/

/-- The size of `frame_buffer`. -/
def frameBufferSize : ℕ := 128 * 1024

/-- Where `alarm_msg_handler` is: outside; in `memcpy`, in front of byte `j`, with the lock. -/
inductive AlarmHandlerPc
  | idle
  | copying (image : List UInt8) (j : ℕ)
  deriving DecidableEq

/-- Where `process_image_thread` is: in its wait; in `imdecode`, with the bytes read so far. -/
inductive DecodePc
  | waiting
  | decoding (frameLen : ℕ) (read : List UInt8)
  deriving DecidableEq

/-- The fields of `Process_Data`, the two parties, whether a copy went past the buffer, the
images delivered to the handler, and the bytes and lengths given to `imdecode`. -/
structure DecodeState where
  frameBuffer : ℕ → UInt8
  frameLen : ℕ
  isUpdated : Bool
  handler : AlarmHandlerPc
  thread : DecodePc
  overflowed : Bool
  delivered : List (List UInt8)
  decoded : List (List UInt8 × ℕ)

/-- What can happen: an image message is handled, byte by byte; the steps of the thread, with a
wake-up that finds no image. -/
inductive DecodeAction
  | image (image : List UInt8)
  | copyByte
  | update
  | wakeUp
  | take
  | readByte
  | decode

/-- A byte stored by `memcpy`. -/
def storeByte (s : DecodeState) (j : ℕ) (byte : UInt8) : DecodeState :=
  if j < frameBufferSize then { s with frameBuffer := Function.update s.frameBuffer j byte }
  else { s with overflowed := true }

/-- One step. -/
def decodeStep (s : DecodeState) : DecodeAction → Option DecodeState
  | .image image =>
    match s.handler with
    | .idle => some { s with handler := .copying image 0, delivered := s.delivered ++ [image] }
    | .copying _ _ => none
  | .copyByte =>
    match s.handler with
    | .copying image j =>
      match image[j]? with
      | some byte => some { storeByte s j byte with handler := .copying image (j + 1) }
      | none => none
    | .idle => none
  | .update =>
    match s.handler with
    | .copying image j =>
      if j = image.length then
        some { s with frameLen := image.length, isUpdated := true, handler := .idle }
      else none
    | .idle => none
  | .wakeUp =>
    if s.handler = .idle ∧ s.thread = .waiting ∧ s.isUpdated = false then some s else none
  | .take =>
    -- the length is copied, the frame is not
    if s.handler = .idle ∧ s.thread = .waiting ∧ s.isUpdated = true then
      some { s with isUpdated := false, thread := .decoding s.frameLen [] }
    else none
  | .readByte =>
    match s.thread with
    | .decoding frameLen read =>
      if read.length < frameLen then
        some { s with thread := .decoding frameLen (read ++ [s.frameBuffer read.length]) }
      else none
    | .waiting => none
  | .decode =>
    match s.thread with
    | .decoding frameLen read =>
      if read.length < frameLen then none
      else some { s with thread := .waiting, decoded := s.decoded ++ [(read, frameLen)] }
    | .waiting => none

/-- The state after `Process_Data_Init`. -/
def DecodeState.init : DecodeState where
  frameBuffer := fun _ => 0
  frameLen := 0
  isUpdated := false
  handler := .idle
  thread := .waiting
  overflowed := false
  delivered := []
  decoded := []

/-- The frame buffer with its two parties. -/
def decodeSystem : TransitionSystem DecodeState DecodeAction := ⟨.init, decodeStep⟩

/-! ### What is decoded -/

/-- The law: nothing was written past the buffer, and whatever was given to `imdecode` is the
data and the length of one image. -/
structure DecodesWhole (s : DecodeState) : Prop where
  inside : s.overflowed = false
  whole : ∀ d ∈ s.decoded, d.1 ∈ s.delivered ∧ d.2 = d.1.length

/-- The condition on the steps: a byte is stored in the buffer, and if `imdecode` has still to
read the byte there, it is the same. -/
def KeepsUnread (s : DecodeState) : DecodeAction → Prop
  | .copyByte => ∀ image j, s.handler = .copying image j → j < frameBufferSize ∧
      ∀ frameLen read, s.thread = .decoding frameLen read → read.length ≤ j → j < frameLen →
        image[j]? = some (s.frameBuffer j)
  | _ => True

/-- The condition on a copy while an image is decoded. -/
theorem keepsUnread_decoding {s : DecodeState} {image read : List UInt8} {j frameLen : ℕ}
    (hcopying : s.handler = .copying image j) (hdecoding : s.thread = .decoding frameLen read) :
    KeepsUnread s .copyByte ↔ j < frameBufferSize ∧
      (read.length ≤ j → j < frameLen → image[j]? = some (s.frameBuffer j)) := by
  simp [KeepsUnread, hcopying, hdecoding]

theorem keepsUnread_waiting {s : DecodeState} {image : List UInt8} {j : ℕ}
    (hcopying : s.handler = .copying image j) (hwaiting : s.thread = .waiting) :
    KeepsUnread s .copyByte ↔ j < frameBufferSize := by
  simp [KeepsUnread, hcopying, hwaiting]

theorem keepsUnread_idle {s : DecodeState} (hidle : s.handler = .idle) :
    KeepsUnread s .copyByte := by
  simp [KeepsUnread, hidle]

instance (s : DecodeState) : ∀ a, Decidable (KeepsUnread s a)
  | .copyByte =>
    match hhandler : s.handler, hthread : s.thread with
    | .idle, _ => isTrue (keepsUnread_idle hhandler)
    | .copying _ _, .waiting => decidable_of_iff _ (keepsUnread_waiting hhandler hthread).symm
    | .copying _ _, .decoding _ _ =>
      decidable_of_iff _ (keepsUnread_decoding hhandler hthread).symm
  | .image _ | .update | .wakeUp | .take | .readByte | .decode => isTrue trivial

/-- The image stands in the buffer from index `k` on. -/
def StandsFrom (s : DecodeState) (k : ℕ) (image : List UInt8) : Prop :=
  ∀ i, k ≤ i → i < image.length → image[i]? = some (s.frameBuffer i)

/-- Where the bytes of an image are. -/
structure DecodeInv (s : DecodeState) : Prop where
  law : DecodesWhole s
  copying : ∀ image j, s.handler = .copying image j → image ∈ s.delivered ∧ j ≤ image.length ∧
    ∀ i < j, image[i]? = some (s.frameBuffer i)
  updated : s.handler = .idle → s.isUpdated = true →
    ∃ image ∈ s.delivered, s.frameLen = image.length ∧ StandsFrom s 0 image
  decoding : ∀ frameLen read, s.thread = .decoding frameLen read →
    ∃ image ∈ s.delivered, frameLen = image.length ∧ read = image.take read.length ∧
      StandsFrom s read.length image

theorem DecodesWhole.congr {s t : DecodeState} (h : DecodesWhole s)
    (hover : t.overflowed = s.overflowed) (hdecoded : t.decoded = s.decoded)
    (hdelivered : s.delivered ⊆ t.delivered) : DecodesWhole t := by
  refine ⟨hover.trans h.inside, ?_⟩
  intro d hd
  rw [hdecoded] at hd
  exact ⟨hdelivered (h.whole d hd).1, (h.whole d hd).2⟩

/-- A byte is stored where it may be. -/
theorem storeByte_inside {s : DecodeState} {j : ℕ} (hj : j < frameBufferSize) (byte : UInt8) :
    storeByte s j byte = { s with frameBuffer := Function.update s.frameBuffer j byte } :=
  if_pos hj

/-- The handler is called. -/
theorem DecodeInv.image {s : DecodeState} (h : DecodeInv s) (image : List UInt8) :
    DecodeInv { s with handler := .copying image 0, delivered := s.delivered ++ [image] } := by
  have hsub : s.delivered ⊆ s.delivered ++ [image] := List.subset_append_left _ _
  refine ⟨h.law.congr rfl rfl hsub, ?_, ?_, ?_⟩
  · intro image' j hcopying
    obtain ⟨rfl, rfl⟩ := AlarmHandlerPc.copying.inj hcopying
    refine ⟨by simp, Nat.zero_le _, ?_⟩
    intro i hi
    exact absurd hi (Nat.not_lt_zero i)
  · intro hidle
    cases hidle
  · intro frameLen read hdecoding
    obtain ⟨image', hmem, hlen, hread, hrest⟩ := h.decoding frameLen read hdecoding
    exact ⟨image', hsub hmem, hlen, hread, hrest⟩

/-- A byte is copied that is read already, or the same. -/
theorem DecodeInv.copyByte {s : DecodeState} (h : DecodeInv s) {image : List UInt8} {j : ℕ}
    {byte : UInt8} (hcopying : s.handler = .copying image j) (hbyte : image[j]? = some byte)
    (hgood : KeepsUnread s .copyByte) :
    DecodeInv { storeByte s j byte with handler := .copying image (j + 1) } := by
  obtain ⟨hinside, hsame⟩ := hgood image j hcopying
  obtain ⟨hmem, hle, hdone⟩ := h.copying image j hcopying
  rw [storeByte_inside hinside]
  have hlt : j < image.length := (List.getElem?_eq_some_iff.mp hbyte).1
  refine ⟨h.law.congr rfl rfl (fun _ => id), ?_, ?_, ?_⟩
  · intro image' j' hcopying'
    obtain ⟨rfl, rfl⟩ := AlarmHandlerPc.copying.inj hcopying'
    refine ⟨hmem, hlt, ?_⟩
    intro i hi
    show image[i]? = some (Function.update s.frameBuffer j byte i)
    rcases Nat.lt_succ_iff_lt_or_eq.mp hi with hlt | rfl
    · rw [Function.update_of_ne hlt.ne]
      exact hdone i hlt
    · rw [Function.update_self, hbyte]
  · intro hidle
    cases hidle
  · intro frameLen read hdecoding
    obtain ⟨image', hmem', hlen, hread, hrest⟩ := h.decoding frameLen read hdecoding
    refine ⟨image', hmem', hlen, hread, ?_⟩
    intro i hi hilt
    show image'[i]? = some (Function.update s.frameBuffer j byte i)
    by_cases hij : i = j
    · -- the byte there is the one that was there
      subst hij
      have hequal := hsame frameLen read hdecoding hi (hlen ▸ hilt)
      rw [hbyte, Option.some_inj] at hequal
      rw [Function.update_self, hequal]
      exact hrest i hi hilt
    · rw [Function.update_of_ne hij]
      exact hrest i hi hilt

/-- The copy is complete. -/
theorem DecodeInv.update {s : DecodeState} (h : DecodeInv s) {image : List UInt8}
    (hcopying : s.handler = .copying image image.length) :
    DecodeInv { s with frameLen := image.length, isUpdated := true, handler := .idle } := by
  obtain ⟨hmem, -, hdone⟩ := h.copying image image.length hcopying
  refine ⟨h.law.congr rfl rfl (fun _ => id), ?_, ?_, h.decoding⟩
  · intro image' j hcopying'
    cases hcopying'
  · intro _ _
    exact ⟨image, hmem, rfl, fun i _ => hdone i⟩

/-- The frame is taken. -/
theorem DecodeInv.take {s : DecodeState} (h : DecodeInv s) (hidle : s.handler = .idle)
    (hupdated : s.isUpdated = true) :
    DecodeInv { s with isUpdated := false, thread := .decoding s.frameLen [] } := by
  refine ⟨h.law.congr rfl rfl (fun _ => id), h.copying, ?_, ?_⟩
  · intro _ hflag
    cases hflag
  · intro frameLen read hdecoding
    obtain ⟨rfl, rfl⟩ := DecodePc.decoding.inj hdecoding
    obtain ⟨image, hmem, hlen, hstands⟩ := h.updated hidle hupdated
    exact ⟨image, hmem, hlen, rfl, hstands⟩

/-- The next byte is read. -/
theorem DecodeInv.readByte {s : DecodeState} (h : DecodeInv s) {frameLen : ℕ} {read : List UInt8}
    (hdecoding : s.thread = .decoding frameLen read) (hlt : read.length < frameLen) :
    DecodeInv { s with thread := .decoding frameLen (read ++ [s.frameBuffer read.length]) } := by
  refine ⟨h.law.congr rfl rfl (fun _ => id), h.copying, h.updated, ?_⟩
  intro frameLen' read' hdecoding'
  obtain ⟨rfl, rfl⟩ := DecodePc.decoding.inj hdecoding'
  obtain ⟨image, hmem, hlen, hread, hrest⟩ := h.decoding frameLen read hdecoding
  have hbyte := hrest read.length le_rfl (hlen ▸ hlt)
  refine ⟨image, hmem, hlen, ?_, ?_⟩
  · rw [List.length_append, List.length_singleton, List.take_add_one, ← hread, hbyte]
    rfl
  · intro i hi
    rw [List.length_append] at hi
    exact hrest i (by omega)

/-- All bytes are read. -/
theorem DecodeInv.decode {s : DecodeState} (h : DecodeInv s) {frameLen : ℕ} {read : List UInt8}
    (hdecoding : s.thread = .decoding frameLen read) (hend : ¬ read.length < frameLen) :
    DecodeInv { s with thread := .waiting, decoded := s.decoded ++ [(read, frameLen)] } := by
  obtain ⟨image, hmem, hlen, hread, -⟩ := h.decoding frameLen read hdecoding
  have hall : read = image := by
    rw [hread]
    exact List.take_of_length_le (by omega)
  refine ⟨⟨h.law.inside, ?_⟩, h.copying, h.updated, ?_⟩
  · intro d hd
    rcases List.mem_append.mp hd with hd | hd
    · exact h.law.whole d hd
    · obtain rfl := List.mem_singleton.mp hd
      constructor
      · rw [hall]
        exact hmem
      · rw [hall]
        exact hlen
  · intro frameLen' read' hdecoding'
    cases hdecoding'

/-- **One step** that changes no byte still to be read. -/
theorem DecodeInv.step {s t : DecodeState} {a : DecodeAction} (h : DecodeInv s)
    (hgood : KeepsUnread s a) (ht : decodeStep s a = some t) : DecodeInv t := by
  cases a with
  | image image =>
    simp only [decodeStep] at ht
    split at ht
    · obtain rfl := Option.some_inj.mp ht
      exact h.image image
    · cases ht
  | copyByte =>
    simp only [decodeStep] at ht
    split at ht
    · next image j hcopying =>
      split at ht
      · next byte hbyte =>
        obtain rfl := Option.some_inj.mp ht
        exact h.copyByte hcopying hbyte hgood
      · cases ht
    · cases ht
  | update =>
    simp only [decodeStep] at ht
    split at ht
    · next image j hcopying =>
      split_ifs at ht with hj
      obtain rfl := Option.some_inj.mp ht
      exact h.update (hj ▸ hcopying)
    · cases ht
  | wakeUp =>
    simp only [decodeStep] at ht
    split_ifs at ht
    obtain rfl := Option.some_inj.mp ht
    exact h
  | take =>
    simp only [decodeStep] at ht
    split_ifs at ht with hready
    obtain rfl := Option.some_inj.mp ht
    exact h.take hready.1 hready.2.2
  | readByte =>
    simp only [decodeStep] at ht
    split at ht
    · next frameLen read hdecoding =>
      split_ifs at ht with hlt
      obtain rfl := Option.some_inj.mp ht
      exact h.readByte hdecoding hlt
    · cases ht
  | decode =>
    simp only [decodeStep] at ht
    split at ht
    · next frameLen read hdecoding =>
      split_ifs at ht with hlt
      obtain rfl := Option.some_inj.mp ht
      exact h.decode hdecoding hlt
    · cases ht

end Sentry
