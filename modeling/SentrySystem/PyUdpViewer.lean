/-
The viewer of the UDP video on the host (`py_for_pc/net_recv/udp_video_receiver.py`).

`start_receiver` takes all datagrams that are there, then looks whether the newest frame is
whole, shows it if so, and starts again.  It keeps one frame, and none behind one it has shown.
Where it stops taking datagrams is up to the network, and the calls of OpenCV that show a frame
may raise, which leaves the frame where it is.

* `viewerDatagram`, `Viewer.assemble`, `viewerSystem` — the receiver;
* `ViewerLaw` — what the buffer holds while one run of the sender arrives;
* `pyViewer_integrity` — every image put together is one that was sent, none comes before an
  older one, and none twice behind one that was shown;
* `pyViewer_limits` — an image of more than 65535 packets, and a frame whose showing raises.
-/
import SentrySystem.Lib.Transition
import SentrySystem.PyReceiver
import SentrySystem.UdpReceiver

namespace Sentry

open FrameHeader

/-! ### The code -/

/-- A `full_jpg` put together: the frame id, the bytes, and whether the calls of OpenCV on it
returned. -/
structure ViewerImage where
  frameId : ℤ
  fullJpg : List UInt8
  returned : Bool
  deriving DecidableEq, Repr

/-- Where `start_receiver` is: in the loop around `recvfrom`; in front of the test of the buffer;
in front of `cv2.waitKey`; behind the loop. -/
inductive ViewerPc
  | drain
  | assemble
  | waitKey
  | done
  deriving DecidableEq, Repr

/-- The variables of `start_receiver`, and the images put together so far. -/
structure Viewer where
  frameBuffer : Std.ExtTreeMap ℤ PyFrameEntry
  maxFId : ℤ
  pc : ViewerPc
  assembled : List ViewerImage

/-- The variables at the start. -/
def Viewer.init : Viewer where
  frameBuffer := ∅
  maxFId := -1
  pc := .drain
  assembled := []

/-- `frame_buffer[f_id]['pkgs'][p_id] = payload`, where the entry exists.  An assignment behind the
end of the list raises; the loop goes on then, with nothing stored. -/
def Viewer.store (v : Viewer) (fId : ℤ) (hdr : FrameHeader) (payload : List UInt8) : Viewer :=
  match v.frameBuffer[fId]? with
  | none => v
  | some entry =>
    if hdr.pkgId < hdr.pkgCnt then
      { v with
        frameBuffer := v.frameBuffer.insert fId
          { entry with pkgs := entry.pkgs.set hdr.pkgId.toNat (some payload) } }
    else v

/-- What `start_receiver` does with a datagram whose header is valid. -/
def Viewer.accept (v : Viewer) (hdr : FrameHeader) (payload : List UInt8) : Viewer :=
  let fId : ℤ := hdr.frameId.toNat
  if fId < v.maxFId then v
  else
    let v :=
      if v.maxFId < fId then
        { v with
          maxFId := fId
          frameBuffer := (∅ : Std.ExtTreeMap ℤ PyFrameEntry).insert fId
            ⟨hdr.type, List.replicate hdr.pkgCnt.toNat none⟩ }
      else v
    v.store fId hdr payload

/-- What `start_receiver` does with a datagram; `recvfrom` cuts it to 2048 bytes. -/
def viewerDatagram (v : Viewer) (raw : List UInt8) : Viewer :=
  let data := raw.take 2048
  if data.length < frameHeaderSize then v
  else
    let hdr := ofBytes (data.take frameHeaderSize)
    if hdr.magic ≠ frameMagic ∨ pyCrc16 (data.take 30) ≠ hdr.crc.toNat then v
    else v.accept hdr ((data.drop frameHeaderSize).take hdr.dataLen.toNat)

/-- The test of the buffer and what follows it, `returns` telling whether the calls of OpenCV
return. -/
def Viewer.assemble (v : Viewer) (returns : Bool) : Viewer :=
  match v.frameBuffer[v.maxFId]? with
  | none => { v with pc := .waitKey }
  | some currentFrame =>
    if currentFrame.pkgs.all Option.isSome = false then { v with pc := .waitKey }
    else if currentFrame.type ≠ 1 then { v with frameBuffer := ∅, pc := .waitKey }
    else
      let fullJpg := currentFrame.pkgs.flatMap (·.getD [])
      let assembled := v.assembled ++ [⟨v.maxFId, fullJpg, returns⟩]
      if returns then { v with frameBuffer := ∅, pc := .waitKey, assembled := assembled }
      -- the exception goes by `frame_buffer.clear()`
      else { v with pc := .drain, assembled := assembled }

/-- What can happen: `recvfrom` returns a datagram; it raises, because there is none (`blocking`)
or for another reason; the buffer is tested; `cv2.waitKey` returns, `q` being pressed or not, or
raises, which is as if it were not. -/
inductive ViewerAction
  | recvfrom (raw : List UInt8)
  | recvfromRaises (blocking : Bool)
  | assemble (returns : Bool)
  | waitKey (quit : Bool)
  deriving DecidableEq, Repr

/-- One step. -/
def viewerStep (v : Viewer) : ViewerAction → Option Viewer
  | .recvfrom raw => if v.pc = .drain then some (viewerDatagram v raw) else none
  | .recvfromRaises blocking =>
    if v.pc = .drain then some { v with pc := if blocking then .assemble else .drain } else none
  | .assemble returns => if v.pc = .assemble then some (v.assemble returns) else none
  | .waitKey quit =>
    if v.pc = .waitKey then some { v with pc := if quit then .done else .drain } else none

/-- The receiver. -/
def viewerSystem : TransitionSystem Viewer ViewerAction := ⟨.init, viewerStep⟩

/-- The datagrams that arrive are datagrams of one run of the sender. -/
def FromSender (n : UInt32) (images : List UdpImage) (_ : Viewer) : ViewerAction → Prop
  | .recvfrom raw => raw ∈ udpSendAll n images
  | _ => True

instance (n : UInt32) (images : List UdpImage) (v : Viewer) :
    DecidablePred (FromSender n images v)
  | .recvfrom raw => inferInstanceAs (Decidable (raw ∈ udpSendAll n images))
  | .recvfromRaises _ => isTrue trivial
  | .assemble _ => isTrue trivial
  | .waitKey _ => isTrue trivial

/-! ### One datagram -/

/-- A datagram of the device is accepted, if it fits the buffer of `recvfrom`. -/
theorem viewerDatagram_toBytes (v : Viewer) {hdr : FrameHeader} {payload : List UInt8}
    (hs : hdr.Sealed) (hlen : payload.length = hdr.dataLen.toNat) (hfit : payload.length ≤ 2016) :
    viewerDatagram v (hdr.toBytes ++ payload) = v.accept hdr payload := by
  have hsize : (hdr.toBytes ++ payload).length = frameHeaderSize + payload.length := by
    rw [List.length_append, length_toBytes]
  have htake : (hdr.toBytes ++ payload).take 2048 = hdr.toBytes ++ payload := by
    refine List.take_of_length_le ?_
    rw [hsize, frameHeaderSize]
    omega
  have hpayload : (hdr.toBytes ++ payload).drop frameHeaderSize = payload :=
    List.drop_left' (length_toBytes hdr)
  have htests : ¬ (hdr.magic ≠ frameMagic ∨ pyCrc16 hdr.body ≠ hdr.crc.toNat) := by
    rw [pyCrc16_body hs, hs.1]
    simp
  simp only [viewerDatagram, htake, ofBytes_take, ofBytes_toBytes_append, take_toBytes_append,
    hpayload]
  rw [if_neg (by omega), if_neg htests, List.take_of_length_le hlen.le]

theorem viewerDatagram_packet (v : Viewer) {image : UdpImage} (himage : image.Sendable)
    (frameId : UInt32) {k : ℕ} (hk : k < image.pkgs) :
    viewerDatagram v (image.packet frameId (UInt16.ofNat k)) =
      v.accept (image.hdr frameId (UInt16.ofNat k)) (chunk image.data k) := by
  obtain ⟨hbytes, hlen⟩ := @packetBytes_item image.item himage.2 frameId _ hk
  have hpacket : image.packet frameId (UInt16.ofNat k) =
      (image.hdr frameId (UInt16.ofNat k)).toBytes ++ chunk image.data k := hbytes
  have hfit : (chunk image.data k).length ≤ 2016 := by
    rw [chunk, List.length_take]
    omega
  rw [hpacket]
  exact viewerDatagram_toBytes v (packetHeader_sealed _ _ _ _ _) hlen hfit

/-! ### What the buffer holds -/

/-- An entry of the buffer holds packets of the image sent under its id. -/
def Collects (n : UInt32) (images : List UdpImage) (fId : ℤ) (entry : PyFrameEntry) : Prop :=
  ∃ frameId image, fId = frameId.toNat ∧ SentUnder n images frameId image ∧
    entry.type = FileType.image.code ∧ entry.pkgs.length = image.pkgs ∧
    ∀ k p, entry.pkgs[k]? = some (some p) → p = chunk image.data k

/-- An image put together is the one sent under its id. -/
def IsSent (n : UInt32) (images : List UdpImage) (e : ViewerImage) : Prop :=
  ∃ frameId image, e.frameId = frameId.toNat ∧ SentUnder n images frameId image ∧
    e.fullJpg = image.data

/-- An image put together and one put together behind it: the frame is not older, and it is newer
if the first one was shown. -/
def ShownBefore (e e' : ViewerImage) : Prop :=
  e.frameId ≤ e'.frameId ∧ (e.returned = true → e.frameId < e'.frameId)

/-- The buffer holds packets of the newest frame at most, and nothing of one that was shown. -/
structure ViewerLaw (n : UInt32) (images : List UdpImage) (v : Viewer) : Prop where
  held : ∀ fId entry, v.frameBuffer[fId]? = some entry →
    fId = v.maxFId ∧ Collects n images fId entry
  le_max : ∀ e ∈ v.assembled, e.frameId ≤ v.maxFId
  fresh : ∀ entry, v.frameBuffer[v.maxFId]? = some entry →
    ∀ e ∈ v.assembled, e.returned = true → e.frameId < v.maxFId
  sent : ∀ e ∈ v.assembled, IsSent n images e
  sorted : v.assembled.Pairwise ShownBefore

section Packet

variable {n frameId : UInt32} {images : List UdpImage} {image : UdpImage} {v : Viewer} {k : ℕ}

/-- A new entry. -/
theorem collects_new (himage : image.Sendable) (hsent : SentUnder n images frameId image)
    (i : UInt16) : Collects n images frameId.toNat
      ⟨(image.hdr frameId i).type, List.replicate (image.hdr frameId i).pkgCnt.toNat none⟩ := by
  refine ⟨frameId, image, rfl, hsent, rfl, ?_, ?_⟩
  · rw [List.length_replicate, himage.pkgCnt]
  · intro k p hp
    have hnone : some p = none := List.eq_of_mem_replicate (List.mem_of_getElem? hp)
    cases hnone

/-- A packet is put into its entry. -/
theorem Collects.set {entry : PyFrameEntry} (h : Collects n images frameId.toNat entry)
    (hsent : SentUnder n images frameId image) :
    Collects n images frameId.toNat
      { entry with pkgs := entry.pkgs.set k (some (chunk image.data k)) } := by
  obtain ⟨frameId', image', hid, hsent', htype, hlen, hpkgs⟩ := h
  obtain rfl : frameId = frameId' := UInt32.toNat_inj.mp (by exact_mod_cast hid)
  obtain rfl := hsent.unique hsent'
  refine ⟨frameId, image, rfl, hsent, htype, ?_, ?_⟩
  · rw [List.length_set, hlen]
  · intro j p hp
    by_cases hj : k = j
    · subst hj
      obtain ⟨hlt, hget⟩ := List.getElem?_eq_some_iff.mp hp
      rw [List.getElem_set_self] at hget
      exact (Option.some_inj.mp hget).symm
    · rw [List.getElem?_set_ne hj] at hp
      exact hpkgs j p hp

theorem ViewerLaw.store (h : ViewerLaw n images v) (hsent : SentUnder n images frameId image)
    (hk : k < 65536) : ViewerLaw n images
      (v.store frameId.toNat (image.hdr frameId (UInt16.ofNat k)) (chunk image.data k)) := by
  have hid : (image.hdr frameId (UInt16.ofNat k)).pkgId.toNat = k :=
    UInt16.toNat_ofNat_of_lt' hk
  rw [Viewer.store]
  split
  · exact h
  · next entry hentry =>
    obtain ⟨hmax, hcollects⟩ := h.held _ _ hentry
    split_ifs
    · refine ⟨?_, h.le_max, ?_, h.sent, h.sorted⟩
      · intro fId entry' hentry'
        rw [Std.ExtTreeMap.getElem?_insert] at hentry'
        split_ifs at hentry' with heq
        · obtain rfl := Std.LawfulEqCmp.eq_of_compare heq
          rw [← Option.some_inj.mp hentry', hid]
          exact ⟨hmax, hcollects.set hsent⟩
        · exact h.held _ _ hentry'
      · intro _ _
        exact h.fresh entry (hmax ▸ hentry)
    · exact h

/-- **A packet of the sender** keeps the law. -/
theorem ViewerLaw.accept (h : ViewerLaw n images v) (himage : image.Sendable)
    (hsent : SentUnder n images frameId image) (hk : k < 65536) : ViewerLaw n images
      (v.accept (image.hdr frameId (UInt16.ofNat k)) (chunk image.data k)) := by
  have hfId : (image.hdr frameId (UInt16.ofNat k)).frameId = frameId := rfl
  simp only [Viewer.accept]
  split_ifs with hold hnew
  · exact h
  · -- the frame is newer than all that were shown
    refine ViewerLaw.store ?_ hsent hk
    refine ⟨?_, ?_, ?_, h.sent, h.sorted⟩
    · intro fId entry hentry
      rw [Std.ExtTreeMap.getElem?_insert] at hentry
      split_ifs at hentry with heq
      · obtain rfl := Std.LawfulEqCmp.eq_of_compare heq
        rw [← Option.some_inj.mp hentry]
        exact ⟨rfl, collects_new himage hsent _⟩
      · rw [Std.ExtTreeMap.getElem?_empty] at hentry
        cases hentry
    · intro e he
      exact (h.le_max e he).trans hnew.le
    · intro _ _ e he _
      exact (h.le_max e he).trans_lt hnew
  · exact h.store hsent hk

end Packet

/-! ### The test of the buffer -/

/-- A whole entry is the image. -/
theorem Collects.flatMap {n : UInt32} {images : List UdpImage} {fId : ℤ} {entry : PyFrameEntry}
    (h : Collects n images fId entry) (hall : entry.pkgs.all Option.isSome = true) :
    ∃ frameId image, fId = frameId.toNat ∧ SentUnder n images frameId image ∧
      entry.pkgs.flatMap (·.getD []) = image.data := by
  obtain ⟨frameId, image, hid, hsent, -, hlen, hpkgs⟩ := h
  have hchunks : entry.pkgs = (List.range image.pkgs).map fun k => some (chunk image.data k) := by
    refine List.ext_getElem (by rw [hlen, List.length_map, List.length_range]) ?_
    intro k hk hk'
    obtain ⟨p, hp⟩ := Option.isSome_iff_exists.mp
      (List.all_eq_true.mp hall _ (List.getElem_mem hk))
    have hget : entry.pkgs[k]? = some (some p) := by
      rw [List.getElem?_eq_getElem hk, hp]
    rw [hp, hpkgs k p hget, List.getElem_map, List.getElem_range]
  refine ⟨frameId, image, hid, hsent, ?_⟩
  rw [hchunks, List.flatMap_map]
  exact flatMap_chunk image.length_le

/-- Only `pc` is another. -/
theorem ViewerLaw.move {n : UInt32} {images : List UdpImage} {v : Viewer}
    (h : ViewerLaw n images v) (pc : ViewerPc) : ViewerLaw n images { v with pc := pc } :=
  ⟨h.held, h.le_max, h.fresh, h.sent, h.sorted⟩

/-- The image of a whole entry, behind those put together before. -/
theorem ViewerLaw.whole {n : UInt32} {images : List UdpImage} {v : Viewer} {entry : PyFrameEntry}
    (h : ViewerLaw n images v) (hentry : v.frameBuffer[v.maxFId]? = some entry)
    (hall : entry.pkgs.all Option.isSome = true) (returns : Bool) :
    let assembled := v.assembled ++
      [ViewerImage.mk v.maxFId (entry.pkgs.flatMap (·.getD [])) returns]
    (∀ e ∈ assembled, e.frameId ≤ v.maxFId) ∧ (∀ e ∈ assembled, IsSent n images e) ∧
      assembled.Pairwise ShownBefore := by
  refine ⟨?_, ?_, ?_⟩
  · intro e he
    rcases List.mem_append.mp he with he | he
    · exact h.le_max e he
    · rw [List.mem_singleton.mp he]
  · intro e he
    rcases List.mem_append.mp he with he | he
    · exact h.sent e he
    · rw [List.mem_singleton.mp he]
      exact (h.held _ _ hentry).2.flatMap hall
  · refine List.pairwise_append.mpr ⟨h.sorted, List.pairwise_singleton _ _, ?_⟩
    intro e he e' he'
    rw [List.mem_singleton.mp he']
    exact ⟨h.le_max e he, h.fresh entry hentry e he⟩

/-- **The test of the buffer** keeps the law. -/
theorem ViewerLaw.assemble {n : UInt32} {images : List UdpImage} {v : Viewer}
    (h : ViewerLaw n images v) (returns : Bool) : ViewerLaw n images (v.assemble returns) := by
  have hempty : ∀ (fId : ℤ) (entry : PyFrameEntry),
      (∅ : Std.ExtTreeMap ℤ PyFrameEntry)[fId]? = some entry → False := by
    intro fId entry hentry
    rw [Std.ExtTreeMap.getElem?_empty] at hentry
    cases hentry
  rw [Viewer.assemble]
  split
  · exact h.move _
  · next entry hentry =>
    split_ifs with hmissing htype hreturns
    · exact h.move _
    · exact ⟨fun _ _ he => (hempty _ _ he).elim, h.le_max, fun _ he => (hempty _ _ he).elim,
        h.sent, h.sorted⟩
    · obtain ⟨hle, hsent, hsorted⟩ := h.whole hentry (Bool.of_not_eq_false hmissing) returns
      exact ⟨fun _ _ he => (hempty _ _ he).elim, hle, fun _ he => (hempty _ _ he).elim, hsent,
        hsorted⟩
    · obtain ⟨hle, hsent, hsorted⟩ := h.whole hentry (Bool.of_not_eq_false hmissing) returns
      -- the frame is still there, but it was not shown
      refine ⟨h.held, hle, ?_, hsent, hsorted⟩
      intro entry' hentry' e he hshown
      rcases List.mem_append.mp he with he | he
      · exact h.fresh entry' hentry' e he hshown
      · rw [List.mem_singleton.mp he] at hshown
        exact absurd hshown hreturns

/-! ### The run -/

section Run

variable {n : UInt32} {images : List UdpImage}

theorem viewerLaw_init : ViewerLaw n images Viewer.init where
  held := fun fId entry h => by
    rw [Viewer.init, Std.ExtTreeMap.getElem?_empty] at h
    cases h
  le_max := fun _ h => absurd h List.not_mem_nil
  fresh := fun _ _ _ h => absurd h List.not_mem_nil
  sent := fun _ h => absurd h List.not_mem_nil
  sorted := List.Pairwise.nil

/-- **One step** keeps the law. -/
theorem ViewerLaw.step (himages : ∀ image ∈ images, image.Sendable)
    (hn : n.toNat + images.length ≤ 2 ^ 32) {v w : Viewer} {a : ViewerAction}
    (h : ViewerLaw n images v) (hfrom : FromSender n images v a) (hw : viewerStep v a = some w) :
    ViewerLaw n images w := by
  cases a with
  | recvfrom raw =>
    rw [viewerStep, Option.ite_none_right_eq_some] at hw
    obtain ⟨frameId, image, hsent, hin⟩ := mem_udpSendAll hfrom hn
    have himage : image.Sendable := himages image (List.mem_of_getElem? hsent.choose_spec.1)
    obtain ⟨k, hk, rfl⟩ := mem_udpSendFrame hin
    rw [himage.totalPkgs] at hk
    rw [← Option.some_inj.mp hw.2, viewerDatagram_packet v himage frameId hk]
    exact h.accept himage hsent (hk.trans_le (himage.pkgs_le.trans (by decide)))
  | recvfromRaises blocking =>
    rw [viewerStep, Option.ite_none_right_eq_some] at hw
    rw [← Option.some_inj.mp hw.2]
    exact h.move _
  | assemble returns =>
    rw [viewerStep, Option.ite_none_right_eq_some] at hw
    rw [← Option.some_inj.mp hw.2]
    exact h.assemble returns
  | waitKey quit =>
    rw [viewerStep, Option.ite_none_right_eq_some] at hw
    rw [← Option.some_inj.mp hw.2]
    exact h.move _

end Run

/-- **Integrity of the viewer**: of a run of the sender any datagrams may arrive, in any order and
any number of times, and the buffer may be tested behind any of them.  Every image put together is
one that was sent; and none is put together behind a newer one, or behind itself once it was
shown. -/
theorem pyViewer_integrity (n : UInt32) (images : List UdpImage)
    (himages : ∀ image ∈ images, image.Sendable) (hn : n.toNat + images.length ≤ 2 ^ 32)
    {v : Viewer} (hv : viewerSystem.Via (FromSender n images) v) :
    (∀ e ∈ v.assembled, ∃ frameId image, e.frameId = frameId.toNat ∧
      SentUnder n images frameId image ∧ e.fullJpg = image.data) ∧
    v.assembled.Pairwise fun e e' =>
      e.frameId ≤ e'.frameId ∧ (e.returned = true → e.frameId < e'.frameId) := by
  have hlaw : ViewerLaw n images v :=
    hv.invariant viewerLaw_init fun _ _ _ h hfrom hw => h.step himages hn hfrom hw
  exact ⟨hlaw.sent, hlaw.sorted⟩

/-- Two images of one packet each. -/
def twoSmallImages : List UdpImage := [⟨[1, 2], 0, fun _ => true⟩, ⟨[3], 0, fun _ => true⟩]

/-- Every datagram of them comes twice, the second time behind the showing of its frame, and once
more at the end. -/
def lateDuplicates : List ViewerAction :=
  (udpSendAll 7 twoSmallImages).flatMap (fun raw =>
    [.recvfrom raw, .recvfromRaises true, .assemble true, .waitKey false, .recvfrom raw]) ++
    (udpSendAll 7 twoSmallImages).map .recvfrom ++ [.recvfromRaises true, .assemble true]

theorem pyViewer_integrity_duplicates : ∃ v,
    viewerSystem.runVia (FromSender 7 twoSmallImages) .init lateDuplicates = some v ∧
    v.assembled = [⟨7, [1, 2], true⟩, ⟨8, [3], true⟩] ∧
    (∀ e ∈ v.assembled, ∃ frameId image, e.frameId = frameId.toNat ∧
      SentUnder 7 twoSmallImages frameId image ∧ e.fullJpg = image.data) ∧
    v.assembled.Pairwise fun e e' =>
      e.frameId ≤ e'.frameId ∧ (e.returned = true → e.frameId < e'.frameId) := by
  have hshown : (viewerSystem.runVia (FromSender 7 twoSmallImages) .init lateDuplicates).map
      Viewer.assembled = some [⟨7, [1, 2], true⟩, ⟨8, [3], true⟩] := by
    decide +kernel
  obtain ⟨v, hv, hassembled⟩ := Option.map_eq_some_iff.mp hshown
  have himages : ∀ image ∈ twoSmallImages, image.Sendable := by
    simp [twoSmallImages, UdpImage.Sendable]
  exact ⟨v, hv, hassembled, pyViewer_integrity 7 twoSmallImages himages (by decide) (.of_run hv)⟩

theorem pc_accept (v : Viewer) (hdr : FrameHeader) (payload : List UInt8) :
    (v.accept hdr payload).pc = v.pc := by
  simp only [Viewer.accept, Viewer.store]
  split_ifs
  · rfl
  all_goals
    split
    · rfl
    · rfl

/-- The only packet of a frame is the whole image to the viewer. -/
theorem assemble_single {hdr : FrameHeader} (payload : List UInt8) (hframe : hdr.frameId = 0)
    (hid : hdr.pkgId = 0) (hcnt : hdr.pkgCnt = 1) (htype : hdr.type = 1) :
    (({ Viewer.init.accept hdr payload with pc := .assemble } : Viewer).assemble true).assembled =
      [⟨0, payload, true⟩] := by
  simp [Viewer.accept, Viewer.store, Viewer.assemble, Viewer.init, hframe, hid, hcnt, htype]

/-- Of an image of one byte more than 65536 packets only the first packet is put together. -/
theorem exists_oversized {image : UdpImage} (hlen : image.data.length = 65536 * 1400 + 1)
    (hrun : image.running 0 = true) : ∃ v, viewerSystem.Via (FromSender 0 [image]) v ∧
      v.assembled = [⟨0, image.data.take 1400, true⟩] := by
  obtain ⟨hpkgs, hdataLen, hsend⟩ := udpSendAll_oversized hlen hrun
  have htake : (image.data.take 1400).length = 1400 := by
    rw [List.length_take, hlen]
    rfl
  have hread : viewerDatagram .init ((image.hdr 0 0).toBytes ++ image.data.take 1400) =
      Viewer.init.accept (image.hdr 0 0) (image.data.take 1400) := by
    refine viewerDatagram_toBytes _ (packetHeader_sealed _ _ _ _ _) ?_ ?_
    · rw [hdataLen, htake]
      rfl
    · rw [htake]
      decide
  have hmem : (image.hdr 0 0).toBytes ++ image.data.take 1400 ∈ udpSendAll 0 [image] := by
    rw [hsend]
    exact List.mem_singleton_self _
  have hpc := pc_accept .init (image.hdr 0 0) (image.data.take 1400)
  have hstep : viewerStep .init (.recvfrom ((image.hdr 0 0).toBytes ++ image.data.take 1400)) =
      some (Viewer.init.accept (image.hdr 0 0) (image.data.take 1400)) := by
    rw [viewerStep, hread]
    exact if_pos rfl
  have hfrom : FromSender 0 [image] .init
      (.recvfrom ((image.hdr 0 0).toBytes ++ image.data.take 1400)) := hmem
  have hfirst : viewerSystem.Via (FromSender 0 [image])
      (Viewer.init.accept (image.hdr 0 0) (image.data.take 1400)) := .step .init hfrom hstep
  have hdrained : viewerSystem.Via (FromSender 0 [image])
      { Viewer.init.accept (image.hdr 0 0) (image.data.take 1400) with pc := .assemble } :=
    .step (a := .recvfromRaises true) hfirst trivial (if_pos hpc)
  exact ⟨_, .step (a := .assemble true) hdrained trivial rfl, assemble_single _ rfl rfl hpkgs rfl⟩

/-- The limits: of an image with too many packets the first one is shown; and a frame is put
together again when the showing of it raised. -/
theorem pyViewer_limits :
    (∃ images v, (∀ image ∈ images, image.data ≠ []) ∧ viewerSystem.Via (FromSender 0 images) v ∧
      ¬ ∀ e ∈ v.assembled, ∃ frameId image, e.frameId = frameId.toNat ∧
        SentUnder 0 images frameId image ∧ e.fullJpg = image.data) ∧
    ∃ v, viewerSystem.Via (FromSender 7 twoSmallImages) v ∧ v.assembled.map ViewerImage.frameId = [7, 7] ∧
      ¬ v.assembled.Pairwise fun e e' => e.frameId < e'.frameId := by
  constructor
  · obtain ⟨data, hlen⟩ : ∃ data : List UInt8, data.length = 65536 * 1400 + 1 :=
      ⟨List.replicate (65536 * 1400 + 1) 0, List.length_replicate⟩
    obtain ⟨v, hv, hassembled⟩ := @exists_oversized ⟨data, 0, fun _ => true⟩ hlen rfl
    refine ⟨_, v, ?_, hv, ?_⟩
    · intro image himage
      rw [List.mem_singleton.mp himage]
      exact List.ne_nil_of_length_eq_add_one hlen
    · intro h
      obtain ⟨-, sent, -, ⟨k, hk, -⟩, hdata⟩ :=
        h ⟨0, _, true⟩ (hassembled ▸ List.mem_singleton_self _)
      have hsent := List.mem_singleton.mp (List.mem_of_getElem? hk)
      have hlengths := congrArg List.length hdata
      rw [hsent, List.length_take, hlen] at hlengths
      omega
  · have hshown : (viewerSystem.runVia (FromSender 7 twoSmallImages) .init
        (((udpSendAll 7 twoSmallImages).take 1).map .recvfrom ++ [.recvfromRaises true,
          .assemble false, .recvfromRaises true, .assemble true])).map Viewer.assembled =
        some [⟨7, [1, 2], false⟩, ⟨7, [1, 2], true⟩] := by
      decide +kernel
    obtain ⟨v, hv, hassembled⟩ := Option.map_eq_some_iff.mp hshown
    refine ⟨v, .of_run hv, by rw [hassembled]; rfl, ?_⟩
    rw [hassembled]
    simp

end Sentry
