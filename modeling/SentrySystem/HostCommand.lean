/-
Commands from the Qt host to the device.

`TcpControlWorker::sendCommandFrame` writes a command as one packet,
`tcp_recv_thread` reads the packets off its socket.

* `sendCommandFrame` — the host's end;
* `recvThread_commands` — what the device makes of a sequence of commands;
* `commandsReach_iff` — they all reach `cmd_deliver` exactly when each has less than 512
  bytes, while the host sends 512.
-/
import SentrySystem.DeviceStream

namespace Sentry

open FrameHeader

/-! ### The host -/

/-- `buildFrameHeader`. -/
def buildFrameHeader (type frameId : UInt32) (pkgCnt pkgId dataLen : UInt16)
    (timestampUs : UInt64) : FrameHeader :=
  let hdr : FrameHeader :=
    { magic := frameMagic
      dataLen := dataLen
      frameId := frameId
      pkgCnt := pkgCnt
      pkgId := pkgId
      type := type
      timestamp := timestampUs
      reserved1 := 0
      reserved2 := 0
      crc := 0 }
  { hdr with crc := crc16Xmodem hdr.body }

/-- A call of `sendCommandFrame`: its arguments, the clock, and whether the socket takes
the frame. -/
structure HostCommand where
  type : UInt32
  payload : List UInt8
  tsUs : UInt64
  writeOk : Bool

/-- `isConnected()`, `m_nextFrameId` and what was written to the socket. -/
structure ControlWorker where
  isConnected : Bool
  nextFrameId : UInt32
  written : List UInt8

/-- The frame of a command. -/
def HostCommand.frame (c : HostCommand) (frameId : UInt32) : List UInt8 :=
  (buildFrameHeader c.type frameId 1 0 (UInt16.ofNat c.payload.length) c.tsUs).toBytes ++ c.payload

/-- `sendCommandFrame`: what it returns and the worker it leaves. -/
def sendCommandFrame (w : ControlWorker) (c : HostCommand) : Bool × ControlWorker :=
  if w.isConnected = false then (false, w)
  else if 512 < c.payload.length then (false, w)
  else if c.writeOk = false then (false, { w with nextFrameId := w.nextFrameId + 1 })
  else
    (true,
      { w with
        nextFrameId := w.nextFrameId + 1
        written := w.written ++ c.frame w.nextFrameId })

/-- One call after the other: the worker left, and the commands accepted. -/
def sendCommands (w : ControlWorker) : List HostCommand → ControlWorker × List HostCommand
  | [] => (w, [])
  | c :: cs =>
    let r := sendCommandFrame w c
    let rest := sendCommands r.2 cs
    (rest.1, if r.1 = true then c :: rest.2 else rest.2)

/-! ### One command -/

theorem buildFrameHeader_sealed (type frameId : UInt32) (pkgCnt pkgId dataLen : UInt16)
    (timestampUs : UInt64) :
    (buildFrameHeader type frameId pkgCnt pkgId dataLen timestampUs).Sealed :=
  ⟨rfl, (crc16Ccitt_eq_crc16Xmodem _).symm⟩

/-- The header of a command. -/
def HostCommand.hdr (c : HostCommand) (frameId : UInt32) : FrameHeader :=
  buildFrameHeader c.type frameId 1 0 (UInt16.ofNat c.payload.length) c.tsUs

/-- A payload the host accepts, which is not empty. -/
def HostCommand.Sendable (c : HostCommand) : Prop := c.payload ≠ [] ∧ c.payload.length ≤ 512

theorem HostCommand.Sendable.dataLen {c : HostCommand} (h : c.Sendable) (frameId : UInt32) :
    (c.hdr frameId).dataLen.toNat = c.payload.length :=
  UInt16.toNat_ofNat_of_lt' (lt_of_le_of_lt h.2 (by norm_num))

/-! ### Sequences of commands -/

/-- The bytes of the accepted commands, each with its frame id. -/
def commandBytes (cs : List (UInt32 × HostCommand)) : List UInt8 :=
  cs.flatMap fun c => c.2.frame c.1

/-- Whether the receive buffer has room for a command and its terminator. -/
def HostCommand.fits (c : HostCommand) : Bool := decide (c.payload.length < 512)

/-- A command as a packet of the stream. -/
def HostCommand.packet {c : HostCommand} (hc : c.Sendable) (frameId : UInt32) : SealedPacket where
  hdr := c.hdr frameId
  payload := c.payload
  isSealed := buildFrameHeader_sealed _ _ _ _ _ _
  length_eq := (hc.dataLen frameId).symm

/-- The commands are a stream of packets. -/
theorem exists_packets : ∀ {cs : List (UInt32 × HostCommand)}, (∀ c ∈ cs, c.2.Sendable) →
    ∃ ps : List SealedPacket, (∀ p ∈ ps, p.payload.length ≤ 512) ∧
      ps.flatMap SealedPacket.bytes = commandBytes cs ∧
      deliveries ps = (cs.filter fun c => c.2.fits).map fun c => (c.2.hdr c.1, c.2.payload) := by
  intro cs
  induction cs with
  | nil =>
    intro _
    exact ⟨[], by simp, rfl, rfl⟩
  | cons c cs ih =>
    intro hcs
    have hc := hcs c List.mem_cons_self
    obtain ⟨ps, hlen, hbytes, hdeliveries⟩ := ih fun d hd => hcs d (List.mem_cons_of_mem _ hd)
    have hpos : 1 ≤ c.2.payload.length := List.length_pos_iff.mpr hc.1
    refine ⟨HostCommand.packet hc c.1 :: ps, ?_, ?_, ?_⟩
    · intro p hp
      rcases List.mem_cons.mp hp with rfl | hp
      · exact hc.2
      · exact hlen p hp
    · rw [List.flatMap_cons, hbytes]
      rfl
    · rw [deliveries] at hdeliveries ⊢
      by_cases hfits : c.2.payload.length < 512
      · have hsent : (HostCommand.packet hc c.1).isDelivered = true :=
          decide_eq_true ⟨hpos, Nat.le_of_lt_succ hfits⟩
        have hkept : c.2.fits = true := decide_eq_true hfits
        rw [List.filter_cons, if_pos hsent, List.filter_cons, if_pos hkept, List.map_cons,
          List.map_cons, hdeliveries]
        rfl
      · have hnone : ¬ (HostCommand.packet hc c.1).isDelivered = true :=
          fun h => hfits (Nat.lt_succ_of_le (of_decide_eq_true h).2)
        have hdropped : ¬ c.2.fits = true := fun h => hfits (of_decide_eq_true h)
        rw [List.filter_cons, if_neg hnone, List.filter_cons, if_neg hdropped, hdeliveries]

/-- **What the device makes of a sequence of commands**: those that fit are delivered. -/
theorem recvThread_commands {cs : List (UInt32 × HostCommand)} (hcs : ∀ c ∈ cs, c.2.Sendable)
    {segs : List (List UInt8)} (hsegs : segs.flatten = commandBytes cs) (recvBuffer : List UInt8) :
    (recvThread ⟨segs, recvBuffer, []⟩).1 = true ∧
      (recvThread ⟨segs, recvBuffer, []⟩).2.delivered =
        (cs.filter fun c => c.2.fits).map fun c => (c.2.hdr c.1, c.2.payload) := by
  obtain ⟨ps, hlen, hbytes, hdeliveries⟩ := exists_packets hcs
  have hstart : FrameAligned ps ⟨segs, recvBuffer, []⟩ :=
    ⟨[], ps, rfl, hsegs.trans hbytes.symm, rfl⟩
  obtain ⟨hok, -, hdelivered⟩ := hstart.recvThread hlen
  exact ⟨hok, hdelivered.trans hdeliveries⟩

/-- What `sendCommands` writes is the bytes of the commands it accepts. -/
theorem sendCommands_written : ∀ (cs : List HostCommand) (w : ControlWorker),
    ∃ numbered : List (UInt32 × HostCommand), numbered.map Prod.snd = (sendCommands w cs).2 ∧
      (∀ c ∈ numbered, c.2.payload.length ≤ 512) ∧
      (sendCommands w cs).1.written = w.written ++ commandBytes numbered := by
  intro cs
  induction cs with
  | nil =>
    intro w
    exact ⟨[], rfl, by simp, (List.append_nil _).symm⟩
  | cons c cs ih =>
    intro w
    obtain ⟨numbered, hmap, hlen, hwritten⟩ := ih (sendCommandFrame w c).2
    rw [sendCommands]
    by_cases hsent : w.isConnected = true ∧ c.payload.length ≤ 512 ∧ c.writeOk = true
    · -- the command goes out behind what was written
      have hcall : sendCommandFrame w c = (true,
          { w with
            nextFrameId := w.nextFrameId + 1
            written := w.written ++ c.frame w.nextFrameId }) := by
        rw [sendCommandFrame, if_neg (by simp [hsent.1]), if_neg (by omega),
          if_neg (by simp [hsent.2.2])]
      refine ⟨(w.nextFrameId, c) :: numbered, ?_, ?_, ?_⟩
      · rw [List.map_cons, hmap]
        simp [hcall]
      · intro d hd
        rcases List.mem_cons.mp hd with rfl | hd
        · exact hsent.2.1
        · exact hlen d hd
      · show (sendCommands (sendCommandFrame w c).2 cs).1.written = _
        rw [hwritten, hcall, commandBytes, commandBytes, List.flatMap_cons, List.append_assoc]
    · have hcall : (sendCommandFrame w c).1 = false ∧
          (sendCommandFrame w c).2.written = w.written := by
        rw [sendCommandFrame]
        by_cases hconn : w.isConnected = false
        · rw [if_pos hconn]
          exact ⟨rfl, rfl⟩
        · rw [if_neg hconn]
          by_cases hlong : 512 < c.payload.length
          · rw [if_pos hlong]
            exact ⟨rfl, rfl⟩
          · rw [if_neg hlong]
            have hwrite : c.writeOk = false := by
              by_contra hok
              exact hsent ⟨by simpa using hconn, by omega, by simpa using hok⟩
            rw [if_pos hwrite]
            exact ⟨rfl, rfl⟩
      refine ⟨numbered, ?_, hlen, ?_⟩
      · rw [hmap]
        simp [hcall.1]
      · show (sendCommands (sendCommandFrame w c).2 cs).1.written = _
        rw [hwritten, hcall.2]

/-- The commands reach `cmd_deliver`, each once with its own payload, and the connection
holds. -/
def CommandsReach (accepted : List HostCommand) (r : Bool × RecvThread) : Prop :=
  r.1 = true ∧ r.2.delivered.map Prod.snd = accepted.map HostCommand.payload ∧
    ∀ p ∈ r.2.delivered, p.1.dataLen.toNat = p.2.length

/-- All of a stream of commands is delivered exactly when all of them fit. -/
theorem commandsReach_numbered {numbered : List (UInt32 × HostCommand)} {segs : List (List UInt8)}
    (recvBuffer : List UInt8) (hsendable : ∀ c ∈ numbered, c.2.Sendable)
    (hflatten : segs.flatten = commandBytes numbered) :
    CommandsReach (numbered.map Prod.snd) (recvThread ⟨segs, recvBuffer, []⟩) ↔
      ∀ c ∈ numbered, c.2.payload.length < 512 := by
  obtain ⟨hok, hdelivered⟩ := recvThread_commands hsendable hflatten recvBuffer
  rw [CommandsReach, hdelivered, List.map_map, List.map_map]
  constructor
  · rintro ⟨-, hpayloads, -⟩ c hc
    -- as many were delivered as were accepted
    have hlength := congrArg List.length hpayloads
    rw [List.length_map, List.length_map] at hlength
    exact of_decide_eq_true (List.length_filter_eq_length_iff.mp hlength c hc)
  · intro hall
    have hfilter : numbered.filter (fun c => c.2.fits) = numbered := by
      rw [List.filter_eq_self]
      intro c hc
      exact decide_eq_true (hall c hc)
    rw [hfilter]
    refine ⟨hok, rfl, ?_⟩
    intro p hp
    obtain ⟨c, hc, rfl⟩ := List.mem_map.mp hp
    exact (hsendable c hc).dataLen c.1

/-- **The commands accepted by the host reach the device** exactly when each of them has
less than 512 bytes. -/
theorem commandsReach_iff (w : ControlWorker) (cs : List HostCommand)
    (segs : List (List UInt8)) (recvBuffer : List UInt8)
    (hne : ∀ c ∈ (sendCommands w cs).2, c.payload ≠ [])
    (hstream : (sendCommands w cs).1.written = w.written ++ segs.flatten) :
    CommandsReach (sendCommands w cs).2 (recvThread ⟨segs, recvBuffer, []⟩) ↔
      ∀ c ∈ (sendCommands w cs).2, c.payload.length < 512 := by
  obtain ⟨numbered, hmap, hlen, hwritten⟩ := sendCommands_written cs w
  rw [← hmap] at hne ⊢
  have hsendable : ∀ c ∈ numbered, c.2.Sendable := by
    intro c hc
    exact ⟨hne c.2 (List.mem_map_of_mem hc), hlen c hc⟩
  have hflatten : segs.flatten = commandBytes numbered :=
    List.append_cancel_left (hstream.symm.trans hwritten)
  rw [commandsReach_numbered recvBuffer hsendable hflatten, List.forall_mem_map]

/-- A worker that is connected and has sent nothing. -/
def connectedWorker : ControlWorker := ⟨true, 0, []⟩

/-- A command of two bytes. -/
def shortCommand : HostCommand := ⟨5, [0x7B, 0x7D], 1000, true⟩

/-- Its frame, cut behind the third byte. -/
theorem commandsReach_iff_short :
    CommandsReach (sendCommands connectedWorker [shortCommand]).2
        (recvThread ⟨[(shortCommand.frame 0).take 3, [], (shortCommand.frame 0).drop 3], [], []⟩) ↔
      ∀ c ∈ (sendCommands connectedWorker [shortCommand]).2, c.payload.length < 512 :=
  commandsReach_iff connectedWorker [shortCommand] _ []
    (by simp [sendCommands, sendCommandFrame, connectedWorker, shortCommand])
    (by simp [sendCommands, sendCommandFrame, connectedWorker, shortCommand])

/-- A command of 512 bytes. -/
def fullCommand : HostCommand := ⟨5, List.replicate 512 0x20, 1000, true⟩

/-- The host accepts it and the device drops it. -/
theorem fullCommand_dropped :
    (sendCommandFrame connectedWorker fullCommand).1 = true ∧
      (sendCommandFrame connectedWorker fullCommand).2.written = fullCommand.frame 0 ∧
      ¬ CommandsReach [fullCommand] (recvThread ⟨[fullCommand.frame 0], [], []⟩) := by
  have hlength : fullCommand.payload.length = 512 := List.length_replicate
  have hne : fullCommand.payload ≠ [] := by
    intro hnil
    rw [hnil] at hlength
    simp at hlength
  have hcall : sendCommandFrame connectedWorker fullCommand =
      (true, ⟨true, 1, fullCommand.frame 0⟩) := by
    rw [sendCommandFrame, hlength]
    rfl
  rw [hcall]
  refine ⟨rfl, rfl, ?_⟩
  intro h
  have hsendable : ∀ c ∈ [((0 : UInt32), fullCommand)], c.2.Sendable := by
    intro c hc
    rw [List.mem_singleton.mp hc]
    exact ⟨hne, hlength.le⟩
  have hflatten : [fullCommand.frame 0].flatten = commandBytes [((0 : UInt32), fullCommand)] := by
    simp [commandBytes]
  have hall := (commandsReach_numbered [] hsendable hflatten).mp h
  have hlt := hall _ List.mem_cons_self
  rw [hlength] at hlt
  exact Nat.lt_irrefl 512 hlt

end Sentry
