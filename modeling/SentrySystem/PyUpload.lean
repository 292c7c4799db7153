/-
The upload from the device to the Python host
(`src/net/tcp_send.c`, `py_for_pc/net_recv/tcp_video_receiver.py`).

The device sends frames of up to 65535 packets and counts frame ids modulo 2³².  The host
takes a packet count above 1000 for a broken header, and a frame id below the newest one for
an old frame.

* `silent_stuck` — behind the frame with the greatest id nothing is put together;
* `exists_missed` — an upload outside these limits can lose a frame;
* `pyUpload_iff` — uploads are put together however the stream is cut, exactly if they
  keep to them.
-/
import SentrySystem.PyResync

namespace Sentry

open FrameHeader

/-! ### Behind the greatest id -/

/-- The frame with the greatest id was put together. -/
def Stuck (s : PyState) : Prop :=
  s.raised = false ∧ s.maxFId = 2 ^ 32 - 1 ∧ s.frameBuffer[(2 ^ 32 - 1 : ℤ)]? = none

theorem stuck_pyPacket {s : PyState} (h : Stuck s) (hdr : FrameHeader) (payload : List UInt8) :
    Stuck (pyPacket s hdr payload).1 ∧ (pyPacket s hdr payload).2 = [] := by
  obtain ⟨hraised, hmax, hentry⟩ := h
  have hid : (hdr.frameId.toNat : ℤ) ≤ s.maxFId := by
    have hlt := hdr.frameId.toNat_lt
    rw [hmax]
    omega
  rw [pyPacket]
  split_ifs with hfirst
  · exact ⟨⟨hraised, hmax, hentry⟩, rfl⟩
  · simp only [if_neg (not_lt.mpr hid)]
    by_cases hold : (hdr.frameId.toNat : ℤ) < s.maxFId
    · rw [if_pos hold]
      exact ⟨⟨hraised, hmax, hentry⟩, rfl⟩
    · -- the frame with the greatest id once more
      have hsame : (hdr.frameId.toNat : ℤ) = 2 ^ 32 - 1 := by
        rw [← hmax]
        omega
      rw [if_neg hold, hsame]
      simp only [PyState.store, hentry, hraised, Bool.false_eq_true, if_false, PyState.takeFrame,
        hmax]
      exact ⟨⟨rfl, rfl, hentry⟩, trivial⟩

theorem stuck_pyHeader {s s' : PyState} {buf rest : List UInt8} {os : List PyFrame}
    (h : Stuck s) (hround : pyHeader s buf = some (s', os, rest)) : Stuck s' ∧ os = [] := by
  simp only [pyHeader] at hround
  split_ifs at hround with hreject hhalf
  · rw [Option.some_inj, Prod.mk.injEq, Prod.mk.injEq] at hround
    obtain ⟨rfl, rfl, -⟩ := hround
    exact ⟨h, rfl⟩
  · rw [Option.some_inj, Prod.mk.injEq, Prod.mk.injEq] at hround
    obtain ⟨rfl, rfl, -⟩ := hround
    exact stuck_pyPacket h _ _

/-- **Behind the frame with the greatest id** nothing is put together any more. -/
theorem silent_stuck : pyReader.Silent Stuck := by
  intro s s' buf rest os h hround
  obtain ⟨n, -, -, ⟨-, rfl, rfl, -⟩ | ⟨-, -, hheader⟩⟩ := pyRound_cases hround
  · exact ⟨h, rfl⟩
  · exact stuck_pyHeader h hheader

/-! ### The uploads -/

/-- An item the device can send that has at most 1000 packets. -/
theorem UploadItem.Sendable.fits {item : UploadItem} (h : item.Sendable)
    (hmax : item.data.length ≤ 1000 * 1400) : item.Fits := by
  refine ⟨h.2.1, ?_⟩
  rw [UploadItem.pkgs]
  omega

theorem toNat_next {frameId : UInt32} (h : frameId.toNat + 1 < 2 ^ 32) :
    (frameId + 1).toNat = frameId.toNat + 1 := by
  rw [UInt32.toNat_add, UInt32.toNat_one, Nat.mod_eq_of_lt h]

theorem Taken.before_next {frameId : UInt32} {s : PyState} (h : Taken frameId.toNat s)
    (hnext : frameId.toNat + 1 < 2 ^ 32) : Before (frameId + 1).toNat s := by
  refine h.before ?_
  rw [UInt32.lt_iff_toNat_lt, toNat_next hnext]
  exact Nat.lt_succ_self _

/-- Uploads within the limits are put together one after the other. -/
theorem pyDue_upload {items : List UploadItem} : ∀ {frameId : UInt32} {s : PyState},
    (∀ item ∈ items, item.Fits) → frameId.toNat + items.length ≤ 2 ^ 32 →
      Before frameId.toNat s → PyDue s (uploadBytes frameId items) (items.map UploadItem.pyFrame) := by
  induction items with
  | nil =>
    intro frameId s _ _ hbefore
    exact .nil hbefore.raised
  | cons item items ih =>
    intro frameId s hfits hwrap hbefore
    rw [List.length_cons] at hwrap
    obtain ⟨s', htaken, hpackets⟩ := packets_frame (hfits item List.mem_cons_self) hbefore
    have hrest : PyDue s' (uploadBytes (frameId + 1) items) (items.map UploadItem.pyFrame) := by
      cases items with
      | nil => exact .nil htaken.raised
      | cons next items =>
        rw [List.length_cons] at hwrap
        have hnext : frameId.toNat + 1 < 2 ^ 32 := by omega
        refine ih (fun it hit => hfits it (List.mem_cons_of_mem _ hit)) ?_
          (htaken.before_next hnext)
        rw [toNat_next hnext, List.length_cons]
        omega
    exact hpackets.due hrest

/-- The first header of an item of more than 1000 packets fails the tests. -/
theorem rejects_frame {item : UploadItem} (hitem : item.Sendable)
    (hbig : 1000 * 1400 < item.data.length) (frameId : UInt32) (rest : List UInt8) :
    pyRejects ((item.hdr frameId 0).toBytes ++ rest) = true := by
  have hsealed : (item.hdr frameId 0).Sealed := packetHeader_sealed _ _ _ _ _
  refine Bool.eq_true_of_not_eq_false ?_
  intro haccept
  have hcnt := ((pyRejects_toBytes hsealed rest).mp haccept).pkgCnt_le
  rw [toNat_pkgCnt hitem.2.2, UploadItem.pkgs] at hcnt
  omega

/-- An item of more than 1000 packets can take all that follows it along. -/
theorem exists_lost_upload {item : UploadItem} (hitem : item.Sendable)
    (hbig : 1000 * 1400 < item.data.length) {s : PyState} (hraised : s.raised = false)
    (frameId : UInt32) (items : List UploadItem) :
    ∃ chunks, Chunking (uploadBytes frameId (item :: items)) chunks ∧
      (pyReader.receive s [] chunks).2.1 = [] := by
  obtain ⟨rest, hrest⟩ := frame_header hitem.2.1 hitem.2.2 frameId
  have hsealed : (item.hdr frameId 0).Sealed := packetHeader_sealed _ _ _ _ _
  have hstream : uploadBytes frameId (item :: items) =
      (item.hdr frameId 0).toBytes ++ (rest ++ uploadBytes (frameId + 1) items) := by
    rw [uploadBytes, hrest, List.append_assoc]
  have hlen : frameHeaderSize ≤
      ((item.hdr frameId 0).toBytes ++ (rest ++ uploadBytes (frameId + 1) items)).length := by
    rw [List.length_append, length_toBytes]
    exact Nat.le_add_right _ _
  rw [hstream]
  exact exists_lost_header hraised [] _ (startsMagic_toBytes_append hsealed.1 _) (by simp) hlen
    (rejects_frame hitem hbig frameId _)

theorem Taken.stuck {frameId : UInt32} {s : PyState} (h : Taken frameId.toNat s)
    (hlast : frameId.toNat + 1 = 2 ^ 32) : Stuck s := by
  have hid : (frameId.toNat : ℤ) = 2 ^ 32 - 1 := by omega
  exact ⟨h.raised, by rw [h.max, hid], hid ▸ h.entry⟩

/-- **Uploads outside the limits can lose a frame.** -/
theorem exists_missed {items : List UploadItem} : ∀ {frameId : UInt32} {s : PyState},
    (∀ item ∈ items, item.Sendable) →
      ¬ ((∀ item ∈ items, item.data.length ≤ 1000 * 1400) ∧
        frameId.toNat + items.length ≤ 2 ^ 32) →
      Before frameId.toNat s →
      ∃ chunks, Chunking (uploadBytes frameId items) chunks ∧
        (pyReader.receive s [] chunks).2.1.length < items.length := by
  induction items with
  | nil =>
    intro frameId s _ hno _
    exact absurd ⟨by simp, frameId.toNat_lt.le⟩ hno
  | cons item items ih =>
    intro frameId s hitems hno hbefore
    have hitem := hitems item List.mem_cons_self
    by_cases hbig : 1000 * 1400 < item.data.length
    · -- nothing of the stream need arrive
      obtain ⟨chunks, hchunks, hlost⟩ :=
        exists_lost_upload hitem hbig hbefore.raised frameId items
      refine ⟨chunks, hchunks, ?_⟩
      rw [hlost]
      exact Nat.succ_pos _
    · -- the frame arrives packet by packet, and the rest does not
      have hsmall := Nat.not_lt.mp hbig
      obtain ⟨s', htaken, hpackets⟩ := packets_frame (hitem.fits hsmall) hbefore
      obtain ⟨chunks, hchunks, hreceive⟩ := hpackets.receive
      have hrest : ∃ chunks', Chunking (uploadBytes (frameId + 1) items) chunks' ∧
          (pyReader.receive s' [] chunks').2.1.length < items.length := by
        by_cases hnext : frameId.toNat + 1 < 2 ^ 32
        · refine ih (fun it hit => hitems it (List.mem_cons_of_mem _ hit)) ?_
            (htaken.before_next hnext)
          rintro ⟨hitems, hwrap⟩
          refine hno ⟨List.forall_mem_cons.mpr ⟨hsmall, hitems⟩, ?_⟩
          rw [toNat_next hnext] at hwrap
          rw [List.length_cons]
          omega
        · -- the ids start again
          have hlast : frameId.toNat + 1 = 2 ^ 32 := by
            have hlt := frameId.toNat_lt
            omega
          refine ⟨_, chunking_bytes _, ?_⟩
          rw [silent_stuck.receive _ (htaken.stuck hlast)]
          refine List.length_pos_iff.mpr ?_
          rintro rfl
          refine hno ⟨List.forall_mem_singleton.mpr hsmall, ?_⟩
          rw [List.length_singleton]
          omega
      obtain ⟨chunks', hchunks', hfew⟩ := hrest
      refine ⟨chunks ++ chunks', hchunks.append hchunks', ?_⟩
      rw [StreamReader.receive_append, hreceive]
      show ([item.pyFrame] ++ (pyReader.receive s' [] chunks').2.1).length < _
      rw [List.length_append, List.length_singleton, List.length_cons]
      omega

/-- **The upload to the Python host**: what the device sends over one connection is put
together, frame for frame and however the stream is cut, exactly if each item has at most 1000
packets and the frame id does not wrap. -/
theorem pyUpload_iff {items : List UploadItem} {frameId : UInt32} {room : ℕ} {sock' : Socket}
    (hitems : ∀ item ∈ items, item.Sendable)
    (hsend : uploadAll frameId ⟨[], room⟩ items = some sock') :
    Reassembles sock'.out (items.map UploadItem.pyFrame) ↔
      (∀ item ∈ items, item.data.length ≤ 1000 * 1400) ∧
        frameId.toNat + items.length ≤ 2 ^ 32 := by
  have hout : sock'.out = uploadBytes frameId items := uploadAll_out hitems hsend
  rw [hout]
  constructor
  · intro hall
    by_contra hno
    obtain ⟨chunks, hchunks, hfew⟩ := exists_missed hitems hno (before_init frameId)
    rw [← handleClient_of_chunking hchunks, hall chunks hchunks, List.length_map] at hfew
    exact lt_irrefl _ hfew
  · rintro ⟨hsmall, hwrap⟩
    have hfits : ∀ item ∈ items, item.Fits :=
      fun item hitem => (hitems item hitem).fits (hsmall item hitem)
    exact (pyDue_upload hfits hwrap (before_init frameId)).reassembles

/-- A reply and a picture. -/
theorem pyUpload_iff_two :
    ∃ sock', uploadAll 0 ⟨[], 100⟩ [⟨.json, [1, 2, 3], 7, fun _ => true⟩,
        ⟨.image, [4], 8, fun _ => true⟩] = some sock' ∧
      Reassembles sock'.out [⟨5, [1, 2, 3]⟩, ⟨1, [4]⟩] := by
  have hsend : (uploadAll 0 ⟨[], 100⟩ [⟨.json, [1, 2, 3], 7, fun _ => true⟩,
      ⟨.image, [4], 8, fun _ => true⟩]).isSome = true := by decide +kernel
  obtain ⟨sock', hsend⟩ := Option.isSome_iff_exists.mp hsend
  refine ⟨sock', hsend, (pyUpload_iff ?_ hsend).mpr ⟨by simp, by decide⟩⟩
  simp [UploadItem.Sendable]

/-- An item of more than 1000 packets that the device sends can get lost. -/
theorem exists_lost_item {item : UploadItem} (hitem : item.Sendable)
    (hbig : 1000 * 1400 < item.data.length) (hrun : ∀ i, item.running i = true) :
    ∃ room sock', uploadAll 0 ⟨[], room⟩ [item] = some sock' ∧
      ¬ Reassembles sock'.out [item.pyFrame] := by
  obtain ⟨room, hroom⟩ : ∃ room, (totalPkgs (item.call 0).sendLen).toNat * 65567 ≤ room :=
    ⟨_, le_rfl⟩
  obtain ⟨sock', hframe⟩ := @tcpSendFrame_of_room (item.call 0) hrun ⟨[], room⟩ hroom
  have hsend : uploadAll 0 ⟨[], room⟩ [item] = some sock' := by
    rw [uploadAll, hframe]
    rfl
  refine ⟨room, sock', hsend, ?_⟩
  intro hall
  have hitems : ∀ it ∈ [item], it.Sendable := List.forall_mem_singleton.mpr hitem
  obtain ⟨chunks, hchunks, hfew⟩ := exists_missed hitems
    (fun hsmall => absurd (hsmall.1 item List.mem_cons_self) (Nat.not_le.mpr hbig))
    (before_init 0)
  have hout := uploadAll_out hitems hsend
  rw [List.nil_append] at hout
  rw [← hout] at hchunks
  rw [← handleClient_of_chunking hchunks, hall chunks hchunks] at hfew
  exact lt_irrefl _ hfew

/-- A database of 1000 full packets and one byte. -/
def bigDatabase : UploadItem := ⟨.db, List.replicate (1000 * 1400 + 1) 0, 0, fun _ => true⟩

/-- A database of 1001 packets can get lost. -/
theorem pyUpload_bigDatabase :
    bigDatabase.Sendable ∧ ∃ room sock', uploadAll 0 ⟨[], room⟩ [bigDatabase] = some sock' ∧
      ¬ Reassembles sock'.out [bigDatabase.pyFrame] := by
  have hlen : bigDatabase.data.length = 1000 * 1400 + 1 := List.length_replicate
  have hitem : bigDatabase.Sendable := by
    refine ⟨?_, List.ne_nil_of_length_pos (by omega), by omega⟩
    show FileType.db ∈ _
    decide
  exact ⟨hitem, exists_lost_item hitem (by omega) fun _ => rfl⟩

end Sentry
