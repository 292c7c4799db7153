/-
Commands from the Python host to the device (`py_for_pc/net_recv/tcp_video_receiver.py`).

`send_command` writes a command as one packet, with the text of `json.dumps`.  The numbers come from
the keyboard and are any integers; on the device they are `int`s.

* `sendCommand` — what is handed to `sendall`;
* `sendCommand_eq` — it is a frame of the Qt host, without a frame id and a type;
* `saturated` — a Python integer on the device;
* `sendCommand_handled` — what the device does with a sequence of commands.
-/
import SentrySystem.HostCommand
import SentrySystem.HostJson
import SentrySystem.PyReceiver

namespace Sentry

open FrameHeader

/-! ### The host -/

/-- The style of `json.dumps`, for strings of printable ASCII characters. -/
def pyStyle : JsonStyle ℤ (List UInt8) where
  number z := (DecimalLit.ofInt z).text
  string s := Ascii.quote :: (s.flatMap escapeText ++ [Ascii.quote])
  comma := [0x20]
  colon := [0x20]

/-- The arguments of `send_command`, and `int(time.time() * 1000)`. -/
structure PyCommand where
  modId : ℤ
  cmdId : ℤ
  cmdType : ℤ
  timeMs : UInt64

namespace PyCommand

/-- `cmd_obj`. -/
def cmdObj (c : PyCommand) : JsonObject ℤ (List UInt8) :=
  .cons verKey (.number 0) (.cons modKey (.number c.modId) (.cons cmdKey (.number c.cmdId)
    (.cons typeKey (.number c.cmdType) (.cons paramKey (.object .nil) .nil))))

/-- `payload`. -/
def payload (c : PyCommand) : List UInt8 := (Json.object c.cmdObj).write pyStyle

/-- `header_temp`, with a CRC of 0. -/
def headerTemp (c : PyCommand) : FrameHeader where
  magic := 0xABCD
  dataLen := UInt16.ofNat c.payload.length
  frameId := 0
  pkgCnt := 1
  pkgId := 0
  type := 0
  timestamp := c.timeMs
  reserved1 := 0
  reserved2 := 0
  crc := 0

end PyCommand

/-- `send_command`: the bytes handed to `sendall`, `none` where `struct.pack` raises. -/
def sendCommand (c : PyCommand) : Option (List UInt8) :=
  if 65535 < c.payload.length then none
  else
    let calcCrc := pyCrc16 c.headerTemp.body
    some ({ c.headerTemp with crc := UInt16.ofNat calcCrc }.toBytes ++ c.payload)

/-! ### One command -/

/-- The command, as one of the Qt host. -/
def PyCommand.host (c : PyCommand) : HostCommand := ⟨0, c.payload, c.timeMs, true⟩

/-- The packet of a command. -/
theorem sendCommand_eq {c : PyCommand} (h : c.payload.length < 512) :
    sendCommand c = some (c.host.frame 0) := by
  have hcrc : UInt16.ofNat (pyCrc16 c.headerTemp.body) = crc16Xmodem c.headerTemp.body := by
    rw [pyCrc16_eq, UInt16.ofNat_toNat]
  rw [sendCommand, if_neg (by omega)]
  show some (FrameHeader.toBytes { c.headerTemp with
    crc := UInt16.ofNat (pyCrc16 c.headerTemp.body) } ++ c.payload) = _
  rw [hcrc]
  rfl

theorem PyCommand.sendable {c : PyCommand} (h : c.payload.length < 512) : c.host.Sendable :=
  ⟨List.cons_ne_nil _ _, h.le⟩

/-- Numbers of at most 100 digits leave room for the terminator. -/
theorem PyCommand.length_payload_lt {c : PyCommand} (hmod : c.modId.natAbs < 10 ^ 100)
    (hcmd : c.cmdId.natAbs < 10 ^ 100) (htype : c.cmdType.natAbs < 10 ^ 100) :
    c.payload.length < 512 := by
  have hmod := DecimalLit.length_text_ofInt (k := 99) hmod
  have hcmd := DecimalLit.length_text_ofInt (k := 99) hcmd
  have htype := DecimalLit.length_text_ofInt (k := 99) htype
  have hver := DecimalLit.length_text_ofInt (k := 0) (z := 0) (by norm_num)
  have hkeys : (pyStyle.string verKey).length = 5 ∧ (pyStyle.string modKey).length = 5 ∧
      (pyStyle.string cmdKey).length = 5 ∧ (pyStyle.string typeKey).length = 6 ∧
      (pyStyle.string paramKey).length = 7 := by
    decide +kernel
  obtain ⟨h₁, h₂, h₃, h₄, h₅⟩ := hkeys
  simp only [payload, cmdObj, Json.write, JsonObject.write, List.length_cons, List.length_append,
    List.length_nil, h₁, h₂, h₃, h₄, h₅]
  simp only [pyStyle, List.length_singleton]
  omega

/-! ### Numbers -/

/-- A Python integer as an `int` of the device. -/
def saturated (z : ℤ) : ℤ := max (-2 ^ 31) (min z (2 ^ 31 - 1))

theorem moduleOf_saturated (z : ℤ) : moduleOf (saturated z) = moduleOf z := by
  by_cases hz : 0 ≤ z ∧ z < 8
  · have hsame : saturated z = z := by
      rw [saturated]
      omega
    rw [hsame]
  · have hout : ¬ (0 ≤ saturated z ∧ saturated z < 8) := by
      rw [saturated]
      omega
    rw [moduleOf_eq_none.mpr hz, moduleOf_eq_none.mpr hout]

theorem saturated_type {z : ℤ} : saturated z = 0 ∨ saturated z = 1 ↔ z = 0 ∨ z = 1 := by
  rw [saturated]
  omega

/-! ### The device -/

theorem pyStyle_writes : pyStyle.Writes standardJson (fun z : ℤ => (z : ℚ)) id where
  number z := ⟨_, DecimalLit.standard_ofInt z, rfl, (DecimalLit.value_ofInt z).symm⟩
  string s := ⟨_, rfl, jsonChars_escapeText s⟩
  comma _ hc := .inl (List.mem_singleton.mp hc)
  colon _ hc := .inl (List.mem_singleton.mp hc)

/-- The members of a command, on the device. -/
def PyCommand.members (c : PyCommand) : JsonObject Binary64 (List UInt8) :=
  (c.cmdObj.map (fun z : ℤ => (z : ℚ)) id).map .ofRat id

/-- What the device parses of a command. -/
theorem cJSONParse_payload (c : PyCommand) : ∃ b, cJSONParse (cString c.payload) =
    .ok (itemFields (.object c.members), memberItems c.members) b := by
  have htext : JsonText standardJson 2 c.payload
      (.object (c.cmdObj.map (fun z : ℤ => (z : ℚ)) id)) :=
    pyStyle_writes.jsonText (.object c.cmdObj) le_rfl
  have hparse := cJSONParse_standard_payload (w := []) [] (.inl rfl) (by simp) htext (by decide)
  rwa [List.nil_append, List.nil_append, List.append_nil] at hparse

/-- What `cmd_deliver` does with a command. -/
theorem handled_payload (c : PyCommand) (s : CmdState) :
    Handled s c.modId ⟨saturated c.cmdId, .tcpRecv, c.cmdType, some ⟨s.trees.length, 4⟩⟩
      (cmdDeliver parseRoot s c.payload) := by
  have hver : intOf c.members verKey = some (Binary64.ofRat ((0 : ℤ) : ℚ)).toInt := rfl
  have hmod : intOf c.members modKey = some (Binary64.ofRat c.modId).toInt := rfl
  have hcmd : intOf c.members cmdKey = some (Binary64.ofRat c.cmdId).toInt := rfl
  have htype : intOf c.members typeKey = some (Binary64.ofRat c.cmdType).toInt := rfl
  rw [Binary64.toInt_ofRat_intCast] at hver hmod hcmd htype
  rcases handled_object s (List.cons_ne_nil _ _) (parseRoot_object (cJSONParse_payload c)) hver hmod hcmd htype with
    ⟨dst, hdst, htypes, hsent⟩ | ⟨hno, hdropped⟩
  · have htypes : saturated c.cmdType = 0 ∨ saturated c.cmdType = 1 := htypes
    have hsame : saturated c.cmdType = c.cmdType := by
      rw [saturated] at htypes ⊢
      omega
    exact .inl ⟨dst, (moduleOf_saturated c.modId).symm.trans hdst, saturated_type.mp htypes,
      hsame ▸ hsent⟩
  · exact .inr ⟨hno.imp (moduleOf_saturated c.modId).symm.trans (mt saturated_type.mpr), hdropped⟩

/-- **The commands of the Python host**, in any segments: each whose text has less than 512 bytes is
handed to `cmd_deliver` once, in order, which sends exactly this command to its module, or drops it
where there is no such module or type. -/
theorem sendCommand_handled {cs : List PyCommand} (hfits : ∀ c ∈ cs, c.payload.length < 512)
    {segs : List (List UInt8)} (hsegs : segs.flatten = cs.flatMap fun c => (sendCommand c).getD [])
    (recvBuffer : List UInt8) :
    (recvThread ⟨segs, recvBuffer, []⟩).1 = true ∧
      List.Forall₂ (fun c call => ∀ s, Handled s c.modId
          ⟨saturated c.cmdId, .tcpRecv, c.cmdType, some ⟨s.trees.length, 4⟩⟩
          (cmdDeliver parseRoot s call.2))
        cs (recvThread ⟨segs, recvBuffer, []⟩).2.delivered := by
  set numbered : List (UInt32 × HostCommand) := cs.map fun c => (0, c.host) with hnumbered
  have hsendable : ∀ c ∈ numbered, c.2.Sendable := by
    rw [hnumbered, List.forall_mem_map]
    exact fun c hc => PyCommand.sendable (hfits c hc)
  have hbytes : segs.flatten = commandBytes numbered := by
    rw [hsegs, commandBytes, hnumbered, List.flatMap_map]
    refine List.flatMap_congr fun c hc => ?_
    rw [sendCommand_eq (hfits c hc), Option.getD_some]
  have hall : numbered.filter (fun c => c.2.fits) = numbered := by
    rw [List.filter_eq_self, hnumbered, List.forall_mem_map]
    exact fun c hc => decide_eq_true (hfits c hc)
  obtain ⟨hok, hdelivered⟩ := recvThread_commands hsendable hbytes recvBuffer
  refine ⟨hok, ?_⟩
  rw [hdelivered, hall, hnumbered, List.map_map, List.forall₂_map_right_iff, List.forall₂_same]
  exact fun c _ s => handled_payload c s

/-- An upload of the log, and a command for a number no module has. -/
def uploadThenUnknown : List PyCommand := [⟨3, 0x301, 0, 5⟩, ⟨2 ^ 64 + 3, 0x301, 0, 6⟩]

/-- The stream is cut inside the first. -/
theorem sendCommand_handled_unknown :
    let bytes := uploadThenUnknown.flatMap fun c => (sendCommand c).getD []
    ∃ first second, (recvThread ⟨[bytes.take 40, bytes.drop 40], [], []⟩).2.delivered =
        [first, second] ∧
      CommandSent .init .logger ⟨0x301, .tcpRecv, 0, some ⟨0, 4⟩⟩
        (cmdDeliver parseRoot .init first.2) ∧
      Dropped .init 0 (cmdDeliver parseRoot .init second.2) := by
  intro bytes
  have hshort : ∀ c ∈ uploadThenUnknown, c.modId.natAbs < 10 ^ 100 ∧ c.cmdId.natAbs < 10 ^ 100 ∧
      c.cmdType.natAbs < 10 ^ 100 := by
    decide +kernel
  have hfits : ∀ c ∈ uploadThenUnknown, c.payload.length < 512 := by
    intro c hc
    obtain ⟨hmod, hcmd, htype⟩ := hshort c hc
    exact PyCommand.length_payload_lt hmod hcmd htype
  have hcut : [bytes.take 40, bytes.drop 40].flatten = bytes := by
    rw [List.flatten_cons, List.flatten_singleton, List.take_append_drop]
  obtain ⟨-, hhandled⟩ := sendCommand_handled hfits hcut []
  obtain ⟨first, rest, hfirst, hrest, hdelivered⟩ := List.forall₂_cons_left_iff.mp hhandled
  obtain ⟨second, none, hsecond, hnone, rfl⟩ := List.forall₂_cons_left_iff.mp hrest
  obtain rfl := List.forall₂_nil_left_iff.mp hnone
  refine ⟨first, second, hdelivered, ?_, ?_⟩
  · rcases hfirst .init with ⟨dst, hdst, -, hsent⟩ | ⟨hno | hno, -⟩
    · obtain rfl : ModuleId.logger = dst := Option.some_inj.mp hdst
      exact hsent
    · cases hno
    · exact absurd (.inl rfl) hno
  · rcases hsecond .init with ⟨dst, hdst, -, -⟩ | ⟨-, hdropped⟩
    · cases hdst
    · exact hdropped

end Sentry
