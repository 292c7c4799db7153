/-
The text of a log message, from `log_make` (`src/log/log.c`) to the statement `db_save_batch`
(`src/log/sqlite_about.c`) binds it to.

`log_make` copies 64 bytes from wherever the text is; the message is then copied into a slot of
the queue, and from there into the input buffer of the logger; and `db_save_batch` lets SQLite
read its content up to the first NUL.  The messages are here the bytes they are in memory.

* `logMake`, `LogItems.loggerMsgHandler`, `boundRow` — the functions, on memory;
* `rows_getElem?` — the row bound for a message: the one of `LogMsg.row`, if the text has at
  most 63 bytes;
* `logTextKept_iff` — texts of exactly 63 bytes are the ones that survive, and that `log_make`
  does not read past;
* `at_of_live` — a message in the queue is the one `log_make` made.
-/
import SentrySystem.LogBuffer
import SentrySystem.LogRing
import SentrySystem.Lib.Buffer
import SentrySystem.Lib.LittleEndian

namespace Sentry

/-! ### Texts in memory -/

/-- A string of C, without its NUL. -/
structure CString where
  bytes : List UInt8
  no_nul : 0 ∉ bytes

/-- The memory at a string: its bytes, its NUL, and whatever lies behind. -/
def CString.memory (s : CString) (beyond : ℕ → UInt8) : ℕ → UInt8 :=
  storeAt beyond 0 (s.bytes ++ [0])

/-- `sizeof(log_msg->content)`. -/
def sizeofContent : ℕ := 64

/-- What `sqlite3_bind_text` makes of a field of characters, its length given as `-1`: the text in
front of the first NUL; `none` if it has to read past the field. -/
def bindText (field : List UInt8) : Option (List UInt8) :=
  if 0 ∈ field then some (field.takeWhile fun b => b ≠ 0) else none

/-- The text in a field filled from a string. -/
theorem bindText_load (s : CString) (beyond : ℕ → UInt8) :
    bindText (load (s.memory beyond) 0 sizeofContent) =
      if s.bytes.length < sizeofContent then some s.bytes else none := by
  have hlen : (s.bytes ++ [0]).length = s.bytes.length + 1 := List.length_append
  split_ifs with hshort
  · -- the field holds the NUL, and something behind it
    obtain ⟨rest, hrest⟩ : ∃ rest, load (s.memory beyond) 0 sizeofContent =
        s.bytes ++ 0 :: rest := by
      have hfront := load_storeAt_self beyond 0 (s.bytes ++ [0])
      rw [hlen] at hfront
      obtain ⟨r, hr⟩ := Nat.exists_eq_add_of_le hshort
      refine ⟨load (s.memory beyond) (s.bytes.length + 1) r, ?_⟩
      rw [hr, Nat.succ_eq_add_one, load_add, Nat.zero_add, CString.memory, hfront,
        List.append_assoc]
      rfl
    have htext : (s.bytes ++ 0 :: rest).takeWhile (fun b => decide (b ≠ 0)) = s.bytes := by
      rw [List.takeWhile_append_of_pos, List.takeWhile_cons_of_neg, List.append_nil]
      · simp
      · intro b hb
        exact decide_eq_true fun hzero => s.no_nul (hzero ▸ hb)
    rw [hrest, bindText, if_pos (List.mem_append_right _ List.mem_cons_self), htext]
  · -- the field is full before the NUL comes
    have hfield : load (s.memory beyond) 0 sizeofContent = s.bytes.take sizeofContent := by
      have hfront := load_storeAt beyond 0 (s.bytes ++ [0]) (k := 0)
        (n := sizeofContent) (by omega)
      rw [CString.memory, ← Nat.zero_add 0, hfront, List.drop_zero,
        List.take_append_of_le_length (by omega)]
    rw [hfield, bindText, if_neg]
    intro hmem
    exact s.no_nul (List.mem_of_mem_take hmem)

/-! ### The code -/

/-- `log_make`: the message at `log_msg`, and the offsets read at `content`.  In memory the level is
at 0, the time at 8, the module at 16 and the content at 20. -/
def logMake (logMsg : ℕ → UInt8) (level : LogLevel) (timestamp : UInt64) (moduleId : ModuleId)
    (content : ℕ → UInt8) : (ℕ → UInt8) × List ℕ :=
  let logMsg := storeAt logMsg 0 (leBytes 4 level.code)
  let logMsg := storeAt logMsg 8 (leBytes 8 timestamp.toNat)
  let logMsg := storeAt logMsg 16 (leBytes 4 moduleId.code)
  copyTo logMsg 20 content sizeofContent

/-- `Log_Buffer_t`: the memory from `items` on, and `count`.  A store behind the array is kept in
the memory, too. -/
structure LogItems where
  items : ℕ → UInt8
  count : ℕ

/-- The branch `MSG_TYPE_LOG` of `logger_msg_handler`, with the buffer at `input_ptr` and the bytes
at `data`. -/
def LogItems.loggerMsgHandler (buffer : LogItems) (data : List UInt8) : LogItems :=
  let item := sizeofLogMsg * buffer.count
  let items := storeAt buffer.items item (data.take sizeofLogMsg)
  -- the time is assigned once more
  ⟨storeAt items (item + 8) ((data.drop 8).take 8), buffer.count + 1⟩

/-- The values `db_save_batch` binds for the `i`-th item; `none` if the text of the content does not
end in it. -/
def boundRow (items : ℕ → UInt8) (i : ℕ) : Option LogRow :=
  let item := sizeofLogMsg * i
  (bindText (load items (item + 20) sizeofContent)).map fun text =>
    { level := leNat (load items item 4)
      timestamp := (BitVec.ofNat 64 (leNat (load items (item + 8) 8))).toInt
      moduleId := leNat (load items (item + 16) 4)
      content := text }

/-- The loop of `db_save_batch`: what it binds, item by item. -/
def dbSaveBatchBinds (buffer : LogItems) : List (Option LogRow) :=
  (List.range buffer.count).map (boundRow buffer.items)

/-- The ring of the queue, its index inside it. -/
structure LogSlots extends LogRing where
  size_eq : logMsgBuffer.length = maxLogMsgSize
  logIdx_lt : logIdx < maxLogMsgSize

/-- The bytes at the data pointer of a queued log message. -/
def LogRing.at (ring : LogRing) : DataPtr → List UInt8
  | .logSlot i => ring.logMsgBuffer[i]?.getD []
  | _ => []

/-! ### A message on its way -/

/-- A call of `log_make` and what surrounds it: the level, the time and the module; the message
before it, and the memory behind the text; the address of the message and its priority; the ring
of the queue and the input buffer of the logger when it gets there; and the messages handled
behind it, before the batch is saved. -/
structure LogCall where
  level : LogLevel
  timestamp : UInt64
  moduleId : ModuleId
  before : ℕ → UInt8
  beyond : ℕ → UInt8
  addr : ℕ
  priority : MsgPriority
  slots : LogSlots
  input : LogItems
  later : List (List UInt8)

namespace LogCall

/-- `log_make` with the text `s`. -/
def made (c : LogCall) (s : CString) : (ℕ → UInt8) × List ℕ :=
  logMake c.before c.level c.timestamp c.moduleId (s.memory c.beyond)

/-- The message its sender dispatches. -/
def msg (c : LogCall) : CommonMsg :=
  { srcModule := c.moduleId
    dstModule := .logger
    dataLen := UInt32.ofNat sizeofLogMsg
    msgType := .log
    priority := c.priority
    data := .address c.addr }

/-- The bytes the handler of the logger finds at its pointer. -/
def delivered (c : LogCall) (s : CString) : List UInt8 :=
  let queued := msgPrepareForQueue c.slots.toLogRing c.msg (load (c.made s).1 0 sizeofLogMsg)
  queued.2.at queued.1.data

/-- What `db_save_batch` binds, once the message is in the buffer and the later ones are. -/
def rows (c : LogCall) (s : CString) : List (Option LogRow) :=
  dbSaveBatchBinds
    (c.later.foldl LogItems.loggerMsgHandler (c.input.loggerMsgHandler (c.delivered s)))

/-- The message as the model of the logger has it. -/
def logMsg (c : LogCall) (s : CString) : LogMsg := ⟨c.level, c.timestamp, c.moduleId, s.bytes⟩

end LogCall

/-! ### The message in memory -/

/-- The fields of the message made. -/
theorem load_logMake (logMsg : ℕ → UInt8) (level : LogLevel) (timestamp : UInt64)
    (moduleId : ModuleId) (content : ℕ → UInt8) :
    let made := (logMake logMsg level timestamp moduleId content).1
    load made 0 4 = leBytes 4 level.code ∧ load made 8 8 = leBytes 8 timestamp.toNat ∧
      load made 16 4 = leBytes 4 moduleId.code ∧
      load made 20 sizeofContent = load content 0 sizeofContent := by
  -- each field as it is loaded where it was just stored
  have hlevel := load_storeAt_self logMsg 0 (leBytes 4 level.code)
  have htime := load_storeAt_self (storeAt logMsg 0 (leBytes 4 level.code)) 8 (leBytes 8 timestamp.toNat)
  have hmodule := load_storeAt_self (storeAt (storeAt logMsg 0 (leBytes 4 level.code)) 8
    (leBytes 8 timestamp.toNat)) 16 (leBytes 4 moduleId.code)
  rw [length_leBytes] at hlevel htime hmodule
  have hcontent := load_storeAt_self (storeAt (storeAt (storeAt logMsg 0 (leBytes 4 level.code)) 8
    (leBytes 8 timestamp.toNat)) 16 (leBytes 4 moduleId.code)) 20 (load content 0 sizeofContent)
  rw [length_load] at hcontent
  refine ⟨?_, ?_, ?_, hcontent⟩
  · rw [logMake, copyTo, load_storeAt_of_disjoint _ (by omega), load_storeAt_of_disjoint _ (by omega),
      load_storeAt_of_disjoint _ (by omega), hlevel]
  · rw [logMake, copyTo, load_storeAt_of_disjoint _ (by omega), load_storeAt_of_disjoint _ (by omega),
      htime]
  · rw [logMake, copyTo, load_storeAt_of_disjoint _ (by omega), hmodule]

/-- A slot keeps a whole message as it is. -/
theorem logSlotContent_load (made : ℕ → UInt8) :
    logSlotContent (load made 0 sizeofLogMsg) sizeofLogMsg = load made 0 sizeofLogMsg := by
  have hlen := length_load made 0 sizeofLogMsg
  rw [logSlotContent_eq, List.take_of_length_le hlen.le, hlen, Nat.sub_self, List.replicate_zero,
    List.append_nil]

/-- The handler finds the message that was made. -/
theorem LogCall.delivered_eq (c : LogCall) (s : CString) :
    c.delivered s = load (c.made s).1 0 sizeofLogMsg := by
  have hidx : c.slots.logIdx < c.slots.logMsgBuffer.length := by
    rw [c.slots.size_eq]
    exact c.slots.logIdx_lt
  have hlog : c.msg.msgType = .log ∧ c.msg.data ≠ .null := ⟨rfl, DataPtr.noConfusion⟩
  have hcopy : (copyLen c.msg).toNat = sizeofLogMsg := by
    rw [copyLen_toNat]
    rfl
  simp only [LogCall.delivered, prepare_of_log c.slots.toLogRing _ hlog, LogRing.at]
  rw [List.getElem?_set_self hidx, hcopy, logSlotContent_load]
  rfl

/-! ### The message in the buffer -/

/-- The second assignment of the time changes nothing. -/
theorem items_loggerMsgHandler (buffer : LogItems) {data : List UInt8}
    (h : data.length = sizeofLogMsg) : (buffer.loggerMsgHandler data).items =
      storeAt buffer.items (sizeofLogMsg * buffer.count) data := by
  have htime := load_storeAt buffer.items (sizeofLogMsg * buffer.count) data (k := 8)
    (n := 8) (by rw [h, sizeofLogMsg]; omega)
  rw [LogItems.loggerMsgHandler, List.take_of_length_le h.le, ← htime, storeAt_load]

/-- The row depends on the fields of the item only. -/
theorem boundRow_congr {items items' : ℕ → UInt8} {i j : ℕ}
    (h : ∀ k n, k + n ≤ sizeofLogMsg →
      load items (sizeofLogMsg * i + k) n = load items' (sizeofLogMsg * j + k) n) :
    boundRow items i = boundRow items' j := by
  have hlevel := h 0 4 (by decide)
  rw [Nat.add_zero, Nat.add_zero] at hlevel
  simp only [boundRow]
  rw [h 20 sizeofContent (by decide), h 8 8 (by decide), h 16 4 (by decide), hlevel]

/-- The row of a message in the buffer. -/
theorem boundRow_loggerMsgHandler (buffer : LogItems) {made : ℕ → UInt8} :
    boundRow (buffer.loggerMsgHandler (load made 0 sizeofLogMsg)).items buffer.count =
      boundRow made 0 := by
  have hlen := length_load made 0 sizeofLogMsg
  -- a field of the item is a field of the message
  refine boundRow_congr ?_
  intro k n hk
  rw [items_loggerMsgHandler buffer hlen, load_storeAt _ _ _ (by rw [hlen]; exact hk),
    take_drop_load _ _ hk, Nat.mul_zero]

/-- The rows in front of a message stay. -/
theorem boundRow_of_lt (buffer : LogItems) (data : List UInt8) {i : ℕ} (h : i < buffer.count) :
    boundRow (buffer.loggerMsgHandler data).items i = boundRow buffer.items i := by
  have hbefore : sizeofLogMsg * i + sizeofLogMsg ≤ sizeofLogMsg * buffer.count :=
    Nat.mul_le_mul_left sizeofLogMsg h
  refine boundRow_congr ?_
  intro k n hk
  simp only [LogItems.loggerMsgHandler]
  rw [load_storeAt_of_disjoint _ (by omega), load_storeAt_of_disjoint _ (by omega)]

/-- Later messages go behind it. -/
theorem boundRow_foldl (later : List (List UInt8)) (buffer : LogItems) {i : ℕ}
    (h : i < buffer.count) : i < (later.foldl LogItems.loggerMsgHandler buffer).count ∧
      boundRow (later.foldl LogItems.loggerMsgHandler buffer).items i = boundRow buffer.items i := by
  induction later generalizing buffer with
  | nil => exact ⟨h, rfl⟩
  | cons data later ih =>
    obtain ⟨hcount, hrow⟩ := ih (buffer.loggerMsgHandler data) (Nat.lt_succ_of_lt h)
    exact ⟨hcount, hrow.trans (boundRow_of_lt buffer data h)⟩

/-! ### The row -/

/-- The row of a message as `log_make` made it. -/
theorem boundRow_made (c : LogCall) (s : CString) :
    boundRow (c.made s).1 0 =
      if s.bytes.length < sizeofContent then some (c.logMsg s).row else none := by
  obtain ⟨hlevel, htime, hmodule, hcontent⟩ := load_logMake c.before c.level c.timestamp c.moduleId
    (s.memory c.beyond)
  have hlevel' : leNat (leBytes 4 c.level.code) = c.level.code :=
    leNat_leBytes_of_lt (by rcases c.level <;> decide)
  have hmodule' : leNat (leBytes 4 c.moduleId.code) = c.moduleId.code :=
    leNat_leBytes_of_lt (by rcases c.moduleId <;> decide)
  have htime' : BitVec.ofNat 64 (leNat (leBytes 8 c.timestamp.toNat)) = c.timestamp.toBitVec := by
    rw [leNat_leBytes_of_lt c.timestamp.toNat_lt]
    exact BitVec.ofNat_toNat 64 c.timestamp.toBitVec
  simp only [boundRow, Nat.mul_zero, Nat.zero_add]
  rw [LogCall.made, hlevel, htime, hmodule, hcontent, hlevel', hmodule', htime', bindText_load]
  split_ifs with h
  · rfl
  · rfl

/-- **The row bound for the message**: the one of the message, if its text has at most 63 bytes;
otherwise the reading goes past the content. -/
theorem rows_getElem? (c : LogCall) (s : CString) :
    (c.rows s)[c.input.count]? =
      some (if s.bytes.length < sizeofContent then some (c.logMsg s).row else none) := by
  obtain ⟨hcount, hrow⟩ := boundRow_foldl c.later (c.input.loggerMsgHandler (c.delivered s))
    (Nat.lt_succ_self _)
  have hitem : boundRow (c.input.loggerMsgHandler (c.delivered s)).items c.input.count =
      boundRow (c.made s).1 0 := by
    rw [c.delivered_eq s]
    exact boundRow_loggerMsgHandler c.input
  rw [LogCall.rows, dbSaveBatchBinds, List.getElem?_map, List.getElem?_range hcount, Option.map_some,
    hrow, hitem, boundRow_made]

/-! ### Which texts survive -/

/-- The text survives the pipeline: `log_make` reads the string and its NUL only, and the text bound
for the row is the string, cut to 63 bytes. -/
structure LogTextKept (c : LogCall) (s : CString) : Prop where
  reads_le : ∀ i ∈ (c.made s).2, i ≤ s.bytes.length
  bound : ∃ row, (c.rows s)[c.input.count]? = some (some row) ∧ row.content = s.bytes.take 63

/-- **The texts that survive** are those of exactly 63 bytes: a shorter one is read past its NUL, a
longer one leaves the content without a NUL. -/
theorem logTextKept_iff (c : LogCall) (s : CString) :
    LogTextKept c s ↔ s.bytes.length = 63 := by
  constructor
  · rintro ⟨hreads, row, hrow, -⟩
    have hlast : 63 ≤ s.bytes.length := hreads 63 (List.mem_range.mpr (by decide))
    rw [rows_getElem?, Option.some_inj] at hrow
    split_ifs at hrow with hshort
    rw [sizeofContent] at hshort
    omega
  · intro hlen
    have hshort : s.bytes.length < sizeofContent := by
      rw [hlen]
      decide
    constructor
    · intro i hi
      have hlt : i < sizeofContent := List.mem_range.mp hi
      rw [sizeofContent] at hlt
      omega
    · refine ⟨(c.logMsg s).row, ?_, (List.take_of_length_le hlen.le).symm⟩
      rw [rows_getElem?, if_pos hshort]

/-- A warning of the receiver, at the start of a program whose memory is zero. -/
def firstWarning : LogCall where
  level := .warn
  timestamp := 7
  moduleId := .tcpRecv
  before := fun _ => 0
  beyond := fun _ => 0
  addr := 1
  priority := .normal
  slots := ⟨LogRing.init, rfl, by decide⟩
  input := ⟨fun _ => 0, 0⟩
  later := []

/-- "Bad header, sync search..." -/
def badHeaderText : CString :=
  ⟨[66, 97, 100, 32, 104, 101, 97, 100, 101, 114, 44, 32, 115, 121, 110, 99, 32, 115, 101, 97, 114,
    99, 104, 46, 46, 46], by decide⟩

/-- `log_make` reads 37 bytes behind the NUL of this text. -/
theorem logTextKept_short : ¬ LogTextKept firstWarning badHeaderText := by
  intro h
  have hlast : 63 ≤ badHeaderText.bytes.length := h.reads_le 63 (List.mem_range.mpr (by decide))
  exact absurd hlast (by decide)

/-! ### In the queue -/

/-- A message is the one `log_make` made for as long as it is in the queue or in its handler,
whatever else is sent meanwhile. -/
theorem at_of_live {build : Build} {p : MsgPriority} {s : MsgState} {e : Entry} {made : ℕ → UInt8}
    (hs : (msgSystem build).Via (OneLogPriority build p) s) (he : e ∈ s.live)
    (hlog : e.arg.msgType = .log ∧ e.arg.data ≠ .null)
    (hlen : e.arg.dataLen = UInt32.ofNat sizeofLogMsg)
    (hbytes : e.bytes = load made 0 sizeofLogMsg) :
    s.ring.at e.queued.data = load made 0 sizeofLogMsg := by
  have hwin := window hs
  have hmem : e ∈ logs s := List.mem_filter.mpr ⟨he, decide_eq_true hlog⟩
  obtain ⟨j, hj⟩ := List.getElem?_of_mem hmem
  have hslot := hwin.slot j e hj
  have hcopy : (copyLen e.arg).toNat = sizeofLogMsg := by
    rw [copyLen_toNat, hlen]
    rfl
  rw [hslot, LogRing.at, hwin.content e hmem _ hslot, sentContent, hcopy, hbytes,
    logSlotContent_load]
  rfl

end Sentry
