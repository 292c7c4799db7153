/-
The lengths `Tcp_Send_Frame` sends completely (`src/net/tcp_send.c`).

`total_pkgs` has 16 bits, and the sum it is computed from has 32.  A payload of more than
65535 packets is cut short, or not sent at all, and the call still returns 0.

* `CompleteSend` — the whole payload was written, in numbered packets;
* `completeSend_iff` — a call that returns 0 did so exactly for the lengths up to
  65535 packets.
-/
import SentrySystem.TcpUpload

namespace Sentry

open FrameHeader

/-- A packet as it is written. -/
def packetOut (p : FrameHeader × List UInt8) : List UInt8 := p.1.toBytes ++ p.2

/-- What a call wrote is the whole payload in packets of 1 to 1400 bytes, numbered from 0
on, each with the number of packets in its header. -/
def CompleteSend (c : SendCall) (sock sock' : Socket) : Prop :=
  ∃ packets : List (FrameHeader × List UInt8),
    sock'.out = sock.out ++ packets.flatMap packetOut ∧
    packets.flatMap Prod.snd = c.sendData ∧
    (∀ p ∈ packets, 1 ≤ p.2.length ∧ p.2.length ≤ 1400 ∧ p.1.dataLen.toNat = p.2.length) ∧
    packets.map (fun p => p.1.pkgId.toNat) = List.range packets.length ∧
    ∀ p ∈ packets, p.1.pkgCnt.toNat = packets.length

/-- Packets of at most 1400 bytes carry at most 1400 bytes each. -/
theorem length_payloads_le {α : Type} {packets : List (α × List UInt8)}
    (h : ∀ p ∈ packets, p.2.length ≤ 1400) :
    (packets.flatMap Prod.snd).length ≤ packets.length * 1400 := by
  induction packets with
  | nil => simp
  | cons p packets ih =>
    have hp := h p List.mem_cons_self
    have hrest := ih fun q hq => h q (List.mem_cons_of_mem _ hq)
    rw [List.flatMap_cons, List.length_append, List.length_cons]
    omega

/-- A packet count of 16 bits bounds what was sent. -/
theorem CompleteSend.length_le {c : SendCall} {sock sock' : Socket}
    (h : CompleteSend c sock sock') : c.sendData.length ≤ 65535 * 1400 := by
  obtain ⟨packets, -, hdata, hlen, -, hcnt⟩ := h
  rw [← hdata]
  have hle := length_payloads_le fun p hp => (hlen p hp).2.1
  cases packets with
  | nil => simp
  | cons p packets =>
    have hp := hcnt p List.mem_cons_self
    have hcount : (p :: packets).length ≤ 65535 := by
      rw [← hp]
      exact Nat.le_of_lt_succ p.1.pkgCnt.toNat_lt
    exact hle.trans (Nat.mul_le_mul_right 1400 hcount)

/-- The packets of an item. -/
def UploadItem.packets (item : UploadItem) (frameId : UInt32) : List (FrameHeader × List UInt8) :=
  (List.range item.pkgs).map fun k => (item.hdr frameId k, chunk item.data k)

theorem length_chunk {data : List UInt8} {k : ℕ} (hk : k < (data.length + 1399) / 1400) :
    1 ≤ (chunk data k).length ∧ (chunk data k).length ≤ 1400 := by
  rw [chunk, List.length_take, List.length_drop]
  omega

theorem flatMap_packets {item : UploadItem} (hmax : item.data.length ≤ 65535 * 1400)
    (frameId : UInt32) : (item.packets frameId).flatMap packetOut = item.frame frameId := by
  rw [UploadItem.packets, UploadItem.frame, List.flatMap_map]
  have hpackets : ∀ k ∈ List.range item.pkgs,
      packetOut (item.hdr frameId k, chunk item.data k) =
        packetBytes (item.call frameId) (UInt16.ofNat k) := by
    intro k hk
    exact (packetBytes_item hmax frameId (List.mem_range.mp hk)).1.symm
  exact List.flatMap_congr hpackets

theorem UploadItem.completeSend (item : UploadItem) (hne : item.data ≠ [])
    (hmax : item.data.length ≤ 65535 * 1400) {frameId : UInt32} {sock sock' : Socket}
    (h : tcpSendFrame (item.call frameId) sock = (true, sock')) :
    CompleteSend (item.call frameId) sock sock' := by
  have hpkgs : item.pkgs ≤ 65535 := by
    rw [UploadItem.pkgs]
    omega
  have hlength : (item.packets frameId).length = item.pkgs := by
    rw [UploadItem.packets, List.length_map, List.length_range]
  refine ⟨item.packets frameId, ?_, ?_, ?_, ?_, ?_⟩
  · rw [flatMap_packets hmax, UploadItem.sendFrame_out hne hmax h]
  · rw [UploadItem.packets, List.flatMap_map]
    exact flatMap_chunk item.length_le
  · intro p hp
    obtain ⟨k, hk, rfl⟩ := List.mem_map.mp hp
    rw [List.mem_range] at hk
    exact ⟨(length_chunk hk).1, (length_chunk hk).2, (packetBytes_item hmax frameId hk).2.symm⟩
  · rw [hlength, UploadItem.packets, List.map_map]
    have hid : ∀ k ∈ List.range item.pkgs, (item.hdr frameId k).pkgId.toNat = k := by
      intro k hk
      rw [List.mem_range] at hk
      exact UInt16.toNat_ofNat_of_lt' (Nat.lt_succ_of_le (by omega))
    exact (List.map_congr_left hid).trans (List.map_id _)
  · intro p hp
    obtain ⟨k, -, rfl⟩ := List.mem_map.mp hp
    rw [hlength]
    exact toNat_pkgCnt hmax frameId k

/-- **A call of `Tcp_Send_Frame` that returns 0 sent the whole payload exactly when 65535
packets hold it.** -/
theorem completeSend_iff (c : SendCall) (sock sock' : Socket) (hlen : c.sendLen ≠ 0)
    (hdata : c.sendData.length = c.sendLen.toNat) (h : tcpSendFrame c sock = (true, sock')) :
    CompleteSend c sock sock' ↔ c.sendLen.toNat ≤ 65535 * 1400 := by
  rw [← hdata]
  constructor
  · exact CompleteSend.length_le
  · intro hmax
    obtain ⟨frameId, data, sendLen, type, ts, running⟩ := c
    have hne : data ≠ [] := by
      intro hnil
      have hzero : sendLen.toNat = 0 := by
        rw [← hdata, hnil]
        rfl
      exact hlen (UInt32.toNat_inj.mp hzero)
    have hsend : sendLen = UInt32.ofNat data.length := by
      rw [show data.length = sendLen.toNat from hdata, UInt32.ofNat_toNat]
    subst hsend
    exact UploadItem.completeSend ⟨type, data, ts, running⟩ hne hmax h

/-- A payload of one byte more than a packet holds. -/
def twoPackets : SendCall where
  currentFrameId := 7
  sendData := List.replicate 1400 1 ++ [2]
  sendLen := 1401
  type := .json
  ts := 0
  running := fun _ => true

theorem completeSend_iff_two : ∃ sock',
    tcpSendFrame twoPackets ⟨[], 2 * 65567⟩ = (true, sock') ∧
    totalPkgs twoPackets.sendLen = 2 ∧ CompleteSend twoPackets ⟨[], 2 * 65567⟩ sock' := by
  have hpkgs : totalPkgs twoPackets.sendLen = 2 := by decide
  have hlength : twoPackets.sendData.length = twoPackets.sendLen.toNat := by
    rw [twoPackets, List.length_append, List.length_replicate]
    rfl
  obtain ⟨sock', h⟩ := tcpSendFrame_of_room (c := twoPackets) (fun _ => rfl)
    (show (totalPkgs twoPackets.sendLen).toNat * 65567 ≤ (Socket.mk [] (2 * 65567)).room by
      rw [hpkgs]
      exact le_rfl)
  exact ⟨sock', h, hpkgs, (completeSend_iff twoPackets _ sock' (by decide) hlength h).mpr
    (by decide)⟩

/-- A payload of one byte more than 65535 packets hold. -/
def longCall : SendCall where
  currentFrameId := 0
  sendData := List.replicate 91749001 0
  sendLen := 91749001
  type := .db
  ts := 0
  running := fun _ => true

/-- Nothing is sent of it, and 0 is returned. -/
theorem longCall_not_completeSend : longCall.sendData.length = longCall.sendLen.toNat ∧
    tcpSendFrame longCall ⟨[], 65567⟩ = (true, ⟨[], 65567⟩) ∧
    ¬ CompleteSend longCall ⟨[], 65567⟩ ⟨[], 65567⟩ := by
  have hlength : longCall.sendData.length = 91749001 := List.length_replicate
  have hpkgs : totalPkgs longCall.sendLen = 0 := by decide
  refine ⟨hlength, ?_, ?_⟩
  · rw [tcpSendFrame, if_neg (by decide), hpkgs]
    rfl
  · intro h
    have hle := h.length_le
    rw [hlength] at hle
    omega

end Sentry
