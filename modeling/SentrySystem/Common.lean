/-
Enumerations and records shared by the device's modules (`inc/common.h`).
-/
import Mathlib.Tactic

namespace Sentry

/-- `FILE_TYPE`; the hosts use the same values. -/
inductive FileType
  | normal
  | image
  | db
  | video
  | command
  | json
  deriving DecidableEq, Repr

/-- The value of a file type in the `type` field of a header. -/
def FileType.code : FileType → UInt32
  | normal => 0
  | image => 1
  | db => 2
  | video => 3
  | command => 4
  | json => 5

/-- `Module_ID_e`; `max`, the bound `MODULE_ID_MAX`, is the id of no module. -/
inductive ModuleId
  | v4l2
  | udp
  | alarm
  | logger
  | storage
  | tcpSend
  | tcpRecv
  | command
  | max
  deriving DecidableEq, Repr

/-- `Msg_Type_e`. -/
inductive MsgType
  | image
  | alarm
  | log
  | command
  | bigdata
  deriving DecidableEq, Repr

/-- `Msg_Priority_e`. -/
inductive MsgPriority
  | low
  | normal
  | high
  | urgent
  deriving DecidableEq, Repr

/-- The value of a priority. -/
def MsgPriority.code : MsgPriority → ℕ
  | low => 0
  | normal => 1
  | high => 2
  | urgent => 3

/-- `STATUS`: how far the delivery of a `BigData_Msg_t` is. -/
inductive Status
  | idle
  | send
  | resend
  | done
  | fileDeliverError
  deriving DecidableEq, Repr

/-- `BigData_Msg_t` at an address, without its `status` and `fd`. -/
structure BigDataMsg where
  addr : ℕ
  dataPtr : Option ℕ
  totalLen : UInt32
  type : FileType
  deriving DecidableEq, Repr

/-- The `data` pointer of a message: null, an address of the sender, or a slot of the
queue's own ring of log messages. -/
inductive DataPtr
  | null
  | address (a : ℕ)
  | logSlot (i : ℕ)
  deriving DecidableEq, Repr

/-- `Common_Msg_t`; `priority` is there in the `MSG_ENABLE_PRIORITY` build only. -/
structure CommonMsg where
  srcModule : ModuleId
  dstModule : ModuleId
  dataLen : UInt32
  msgType : MsgType
  priority : MsgPriority
  data : DataPtr
  deriving DecidableEq, Repr

end Sentry
