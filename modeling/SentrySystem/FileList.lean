/-
The file list on the host (`parseFileListResponse` of `src/QT/Desktop/src/json/jsonParseCreate.cpp`).

`QJsonDocument::fromJson` is a parameter.  Strings are the bytes of their UTF-8 encoding.

* `parseFileListResponse` — the parser of the response;
* `ReadsJson` — what is assumed of `fromJson`: it reads standard JSON;
* `parseFileListResponse_answer` — what it makes of an answer of the device;
* `handleQueryFiles_received` — the query, from the files found to the list on the host.
-/
import SentrySystem.Response
import SentrySystem.TcpUpload

namespace Sentry

/-! ### The parser of the response -/

/-- A value of `QJsonObject::value`, if there is one. -/
abbrev QJsonValue := Option (Json Binary64 (List UInt8))

/-- `QJsonValue::toString`. -/
def qToString : QJsonValue → List UInt8
  | some (.string s) => s
  | _ => []

/-- `QJsonValue::toInt`. -/
def qToInt (value : QJsonValue) (defaultValue : Int32) : Int32 :=
  match value with
  | some (.number (.finite q)) =>
    if q.den = 1 ∧ -2 ^ 31 ≤ q.num ∧ q.num < 2 ^ 31 then Int32.ofInt q.num else defaultValue
  | _ => defaultValue

/-- `QJsonValue::toArray`. -/
def qToArray : QJsonValue → JsonArray Binary64 (List UInt8)
  | some (.array es) => es
  | _ => .nil

/-- `QJsonObject::value`. -/
def qValue (root : JsonObject Binary64 (List UInt8)) (key : List UInt8) : QJsonValue :=
  root.find fun name => decide (name = key)

/-- The loop over the array. -/
def appendFiles : JsonArray Binary64 (List UInt8) → List (List UInt8)
  | .nil => []
  | .cons v arr => qToString (some v) :: appendFiles arr

/-- `FileListResult`. -/
structure FileListResult where
  ok : Bool := false
  status : List UInt8 := []
  errCode : Int32 := 0
  errMsg : List UInt8 := []
  files : List (List UInt8) := []
  count : Int32 := 0
  deriving DecidableEq

/-- `"parse_error"`. -/
def parseErrorText : List UInt8 :=
  [0x70, 0x61, 0x72, 0x73, 0x65, 0x5f, 0x65, 0x72, 0x72, 0x6f, 0x72]

/-- `parseFileListResponse`; `fromJson` is the document, if there is no error, and the text of the
error. -/
def parseFileListResponse
    (fromJson : List UInt8 → Option (Json Binary64 (List UInt8)) × List UInt8)
    (json : List UInt8) : FileListResult :=
  match fromJson json with
  | (some (.object root), _) =>
    let r : FileListResult :=
      { status := qToString (qValue root statusKey)
        errCode := qToInt (qValue root errCodeKey) 0
        errMsg := qToString (qValue root errMsgKey) }
    if r.status ≠ okText then r
    else
      let files := appendFiles (qToArray (qValue root filesKey))
      { r with
        files := files
        count := qToInt (qValue root countKey) (Int32.ofNat files.length)
        ok := true }
  | (_, errorString) => { status := parseErrorText, errMsg := errorString }

/-! ### What is assumed of Qt -/

/-- `fromJson` reads standard JSON in UTF-8: an object whose names are distinct is read as one with
the same values.  Only objects in which no others are nested are asked for. -/
def ReadsJson (fromJson : List UInt8 → Option (Json Binary64 (List UInt8)) × List UInt8) : Prop :=
  ∀ (l : Members) (d : ℕ) (s : List UInt8), IsUtf8 s → d ≤ 512 →
    JsonText standardJson d s (.object ((JsonObject.ofList l).map (fun z => (z.toInt : ℚ)) id)) →
    (l.map Prod.fst).Nodup → (∀ m ∈ l, m.2.ObjectFree) →
    ∃ root, (fromJson s).1 = some (.object root) ∧
      ∀ key, qValue root key = qValue ((JsonObject.ofList l).map doubleOf id) key

/-! ### Lookups -/

theorem qValue_ofList (l : Members) (key : List UInt8) :
    qValue ((JsonObject.ofList l).map doubleOf id) key =
      ((l.find? fun m => decide (m.1 = key)).map Prod.snd).map (Json.map doubleOf id) := by
  rw [qValue, JsonObject.find_map, JsonObject.find_ofList]
  rfl

/-- The one member of a name. -/
theorem find?_eq_of_mem {l : Members} (hl : (l.map Prod.fst).Nodup) {key : List UInt8}
    {v : Json Int32 (List UInt8)} (h : (key, v) ∈ l) :
    l.find? (fun m => decide (m.1 = key)) = some (key, v) := by
  induction l with
  | nil => cases h
  | cons m l ih =>
    rw [List.map_cons, List.nodup_cons] at hl
    rcases List.mem_cons.mp h with rfl | hmem
    · rw [List.find?_cons_of_pos (by simp)]
    · have hne : m.1 ≠ key := by
        intro heq
        exact hl.1 (heq ▸ List.mem_map_of_mem hmem)
      rw [List.find?_cons_of_neg (by simpa using hne)]
      exact ih hl.2 hmem

theorem qValue_of_mem {l : Members} (hl : (l.map Prod.fst).Nodup) {key : List UInt8}
    {v : Json Int32 (List UInt8)} (h : (key, v) ∈ l) :
    qValue ((JsonObject.ofList l).map doubleOf id) key = some (v.map doubleOf id) := by
  rw [qValue_ofList, find?_eq_of_mem hl h]
  rfl

theorem qValue_of_not_mem {l : Members} {key : List UInt8} (h : key ∉ l.map Prod.fst) :
    qValue ((JsonObject.ofList l).map doubleOf id) key = none := by
  have hnone : l.find? (fun m => decide (m.1 = key)) = none := by
    rw [List.find?_eq_none]
    intro m hm
    simp only [decide_eq_true_eq]
    rintro rfl
    exact h (List.mem_map_of_mem hm)
  rw [qValue_ofList, hnone]
  rfl

theorem toInt_doubleOf_qValue (z defaultValue : Int32) :
    qToInt (some ((Json.number z).map doubleOf id)) defaultValue = z := by
  have hlt := z.toInt_lt
  have hle := z.le_toInt
  show (if ((z.toInt : ℤ) : ℚ).den = 1 ∧ -2 ^ 31 ≤ ((z.toInt : ℤ) : ℚ).num ∧
    ((z.toInt : ℤ) : ℚ).num < 2 ^ 31 then Int32.ofInt ((z.toInt : ℤ) : ℚ).num else _) = z
  rw [Rat.den_intCast, Rat.num_intCast, if_pos ⟨rfl, hle, hlt⟩, Int32.ofInt_toInt]

theorem appendFiles_strings (fs : List (List UInt8)) :
    appendFiles ((JsonArray.ofList (fs.map .string)).map doubleOf id) = fs := by
  induction fs with
  | nil => rfl
  | cons f fs ih => exact congrArg (f :: ·) ih

/-! ### The encoding of an answer -/

/-- A name the device may send: UTF-8, without a zero byte. -/
def IsName (s : List UInt8) : Prop := IsUtf8 s ∧ untilNul s = s

theorem escapeText_high {c : UInt8} (h : 0x80 ≤ c) : escapeText c = [c] := by
  have hne : ∀ d : UInt8, d < 0x80 → c ≠ d := by
    rintro d hd rfl
    exact absurd hd (UInt8.not_lt.mpr h)
  exact if_pos ⟨UInt8.lt_of_lt_of_le (by decide) h, hne _ (by decide), hne _ (by decide)⟩

theorem escapeText_ascii {c : UInt8} (h : c < 0x80) : ∀ d ∈ escapeText c, d < 0x80 := by
  rw [escapeText]
  split_ifs with hplain
  · rintro d hd
    obtain rfl := List.mem_singleton.mp hd
    exact h
  · cases hshort : shortEscape c with
    | some e =>
      -- the second byte of an escape is one of seven
      have he : e < 0x80 := by
        rw [shortEscape] at hshort
        split_ifs at hshort
        all_goals obtain rfl := Option.some_inj.mp hshort
        · exact h
        all_goals decide
      intro d hd
      simp only [List.mem_cons, List.not_mem_nil, or_false] at hd
      rcases hd with rfl | rfl
      · decide
      · exact he
    | none =>
      have hhex : ∀ n < 16, hexByte n < 0x80 := by decide
      have hlt := c.toNat_lt
      intro d hd
      simp only [unicodeDigits, List.mem_cons, List.not_mem_nil, or_false] at hd
      rcases hd with rfl | rfl | rfl | rfl | rfl | rfl
      · decide
      · decide
      · decide
      · decide
      · exact hhex _ (by omega)
      · exact hhex _ (by omega)

/-- Escapes keep the encoding. -/
theorem isUtf8_escapeText {s : List UInt8} (h : IsUtf8 s) : IsUtf8 (s.flatMap escapeText) := by
  obtain ⟨cs, rfl⟩ := h
  induction cs with
  | nil => exact .nil
  | cons c cs ih =>
    rw [List.flatMap_cons, List.flatMap_append]
    refine .append ?_ ih
    rcases utf8EncodeChar_cases c with ⟨b, hb, henc⟩ | hhigh
    · rw [henc, List.flatMap_singleton]
      exact .of_ascii (escapeText_ascii hb)
    · have hsame : (String.utf8EncodeChar c).flatMap escapeText = String.utf8EncodeChar c := by
        rw [List.flatMap_congr fun b hb => escapeText_high (hhigh b hb), List.flatMap_singleton']
      rw [hsame]
      exact ⟨[c], (List.flatMap_singleton _ _).symm⟩

theorem isNumberByte_ascii {c : UInt8} (h : isNumberByte c = true) : c < 0x80 := by
  by_contra hle
  have hall : ∀ n < 256, 128 ≤ n → isNumberByte (UInt8.ofNat n) = false := by decide +kernel
  have hc := hall c.toNat c.toNat_lt (UInt8.le_iff_toNat_le.mp (UInt8.not_lt.mp hle))
  rw [UInt8.ofNat_toNat, h] at hc
  cases hc

theorem deviceStyle_writesUtf8 : deviceStyle.WritesUtf8 IsName where
  number z := .of_ascii fun c hc => isNumberByte_ascii (isNumberByte_of_mem hc)
  string s hs := by
    show IsUtf8 (Ascii.quote :: ((untilNul s).flatMap escapeText ++ [Ascii.quote]))
    rw [hs.2]
    exact .cons (by decide) ((isUtf8_escapeText hs.1).append (.singleton (by decide)))
  comma := .nil
  colon := .nil

/-- A member of an answer. -/
structure IsAnswerMember (m : List UInt8 × Json Int32 (List UInt8)) : Prop where
  objectFree : m.2.ObjectFree
  name : IsName m.1
  strings : m.2.Strings IsName
  depth : m.2.depth ≤ 1

/-- The members of an answer. -/
structure IsAnswerList (l : Members) : Prop where
  nodup : (l.map Prod.fst).Nodup
  member : ∀ m ∈ l, IsAnswerMember m

/-- The host reads what the device writes. -/
theorem ReadsJson.answer {fromJson : List UInt8 → Option (Json Binary64 (List UInt8)) × List UInt8}
    (hjson : ReadsJson fromJson) {l : Members} (hl : IsAnswerList l) :
    ∃ root, (fromJson ((Json.object (.ofList l)).write deviceStyle)).1 = some (.object root) ∧
      ∀ key, qValue root key = qValue ((JsonObject.ofList l).map doubleOf id) key := by
  have hdepth := JsonObject.depth_ofList_le fun m hm => (hl.member m hm).depth
  have hstrings := JsonObject.strings_ofList fun m hm =>
    And.intro (hl.member m hm).name (hl.member m hm).strings
  have htext := deviceStyle_writes.jsonText (d := 2) (.object (.ofList l)) (Nat.succ_le_succ hdepth)
  have hnames : (Json.object (.ofList l)).map (fun z : Int32 => (z.toInt : ℚ)) untilNul =
      .object ((JsonObject.ofList l).map (fun z => (z.toInt : ℚ)) id) :=
    Json.map_congr_strings (fun s hs => hs.2) (.object (.ofList l)) hstrings
  rw [hnames] at htext
  exact hjson l 2 _ (deviceStyle_writesUtf8.write (.object (.ofList l)) hstrings) (by decide) htext
    hl.nodup fun m hm => (hl.member m hm).objectFree

/-! ### What is read of an answer -/

section Read

variable {fromJson : List UInt8 → Option (Json Binary64 (List UInt8)) × List UInt8}
variable {malloc : ℕ → Bool}

/-- What is read of an object with these members. -/
theorem parseFileListResponse_members (hjson : ReadsJson fromJson) {l : Members}
    (hl : IsAnswerList l) :
    parseFileListResponse fromJson ((Json.object (.ofList l)).write deviceStyle) =
      let root := (JsonObject.ofList l).map doubleOf id
      let r : FileListResult :=
        { status := qToString (qValue root statusKey)
          errCode := qToInt (qValue root errCodeKey) 0
          errMsg := qToString (qValue root errMsgKey) }
      if r.status ≠ okText then r
      else
        let files := appendFiles (qToArray (qValue root filesKey))
        { r with
          files := files
          count := qToInt (qValue root countKey) (Int32.ofNat files.length)
          ok := true } := by
  obtain ⟨root, hroot, hvalue⟩ := hjson.answer hl
  rw [parseFileListResponse, show fromJson _ = (some (.object root), (fromJson _).2) from
    Prod.ext hroot rfl]
  simp only [hvalue]

/-- The list the host shows: files of these names, all of them where no allocation failed. -/
def IsShown (malloc : ℕ → Bool) (names : List (List UInt8)) (r : FileListResult) : Prop :=
  (r.ok = true → r.files.Sublist names ∧
    (r.count = Int32.ofNat names.length ∨ r.count = Int32.ofNat r.files.length)) ∧
  (NeverFails malloc → r = ⟨true, okText, 0, [], names, Int32.ofNat names.length⟩)

theorem isAnswerMember_number {key : List UInt8} (hkey : IsName key) (z : Int32) :
    IsAnswerMember (key, .number z) :=
  ⟨trivial, hkey, trivial, Nat.zero_le _⟩

theorem isAnswerMember_string {key s : List UInt8} (hkey : IsName key) (hs : IsName s) :
    IsAnswerMember (key, .string s) :=
  ⟨trivial, hkey, hs, Nat.zero_le _⟩

theorem isAnswerMember_files {fs : List (List UInt8)} (hkey : IsName filesKey)
    (hfs : ∀ f ∈ fs, IsName f) : IsAnswerMember (filesKey, .array (.ofList (fs.map .string))) where
  objectFree := JsonArray.objectFree_ofList (by simp [Json.ObjectFree])
  name := hkey
  strings := JsonArray.strings_ofList (by simpa [Json.Strings] using hfs)
  depth := Nat.succ_le_succ (JsonArray.depth_ofList_le (by simp [Json.depth]))

/-- The strings of the device itself. -/
def deviceStrings : List (List UInt8) :=
  [verKey, typeKey, statusKey, filesKey, countKey, errCodeKey, errMsgKey, okText, errorText,
    scanFailedText]

theorem isName_deviceStrings {s : List UInt8} (h : s ∈ deviceStrings) : IsName s := by
  have hascii : ∀ s ∈ deviceStrings, (∀ c ∈ s, c < 0x80) ∧ untilNul s = s := by decide +kernel
  exact ⟨.of_ascii (hascii s h).1, (hascii s h).2⟩

theorem isAnswerMember_response {status : List UInt8} (hstatus : IsName status) (type : Int32) :
    ∀ m ∈ responseMembers type status, IsAnswerMember m := by
  intro m hm
  simp only [responseMembers, List.mem_cons, List.not_mem_nil, or_false] at hm
  rcases hm with rfl | rfl | rfl
  · exact isAnswerMember_number (isName_deviceStrings (by simp [deviceStrings])) 0
  · exact isAnswerMember_number (isName_deviceStrings (by simp [deviceStrings])) type
  · exact isAnswerMember_string (isName_deviceStrings (by simp [deviceStrings])) hstatus

theorem isAnswerList_fileList {l c : Members} {fs : List (List UInt8)} {count : Int32}
    (hl : l.Sublist (responseMembers 1 okText)) (hc : c.Sublist [(countKey, .number count)])
    (hfs : ∀ f ∈ fs, IsName f) :
    IsAnswerList (l ++ (filesKey, .array (.ofList (fs.map .string))) :: c) where
  nodup := by
    have hkeys : [verKey, typeKey, statusKey, filesKey, countKey].Nodup := by decide
    refine hkeys.sublist ?_
    rw [List.map_append]
    exact (hl.map Prod.fst).append ((hc.map Prod.fst).cons_cons filesKey)
  member := by
    intro m hm
    rcases List.mem_append.mp hm with hm | hm
    · exact isAnswerMember_response (isName_deviceStrings (by simp [deviceStrings])) 1 m (hl.subset hm)
    rcases List.mem_cons.mp hm with rfl | hm
    · exact isAnswerMember_files (isName_deviceStrings (by simp [deviceStrings])) hfs
    · obtain rfl := List.mem_singleton.mp (hc.subset hm)
      exact isAnswerMember_number (isName_deviceStrings (by simp [deviceStrings])) count

theorem isShown_fileList (hjson : ReadsJson fromJson) {names : List (List UInt8)}
    {v : Json Int32 (List UInt8)} (hnames : ∀ f ∈ names, IsName f)
    (h : IsFileList malloc names (Int32.ofNat names.length) v) :
    IsShown malloc names (parseFileListResponse fromJson (v.write deviceStyle)) := by
  obtain ⟨l, c, fs, hl, hfs, hc, rfl, hall⟩ := h
  have hlist := isAnswerList_fileList hl hc fun f hf => hnames f (hfs.subset hf)
  rw [parseFileListResponse_members hjson hlist]
  set members := l ++ (filesKey, .array (.ofList (fs.map .string))) :: c with hmembers
  have hfiles : qValue ((JsonObject.ofList members).map doubleOf id) filesKey =
      some ((Json.array (.ofList (fs.map .string))).map doubleOf id) :=
    qValue_of_mem hlist.nodup (by simp [hmembers])
  have happend : appendFiles (qToArray
      (some ((Json.array (.ofList (fs.map .string))).map doubleOf id))) = fs :=
    appendFiles_strings fs
  simp only [hfiles, happend]
  refine ⟨?_, ?_⟩
  · intro hok
    split_ifs at hok ⊢ with hstatus
    refine ⟨hfs, ?_⟩
    rcases List.sublist_singleton.mp hc with rfl | rfl
    · -- without a count the host counts the files
      right
      have hkeys : ((members.map Prod.fst)).Sublist [verKey, typeKey, statusKey, filesKey] := by
        rw [hmembers, List.map_append]
        exact (hl.map Prod.fst).append (List.Sublist.refl [filesKey])
      have hnone : qValue ((JsonObject.ofList members).map doubleOf id) countKey = none :=
        qValue_of_not_mem fun hmem => absurd (hkeys.subset hmem) (by decide)
      simp only [hnone]
      rfl
    · left
      have hcount : qValue ((JsonObject.ofList members).map doubleOf id) countKey =
          some ((Json.number (Int32.ofNat names.length)).map doubleOf id) :=
        qValue_of_mem hlist.nodup (by simp [hmembers])
      simp only [hcount]
      exact toInt_doubleOf_qValue _ _
  · intro hm
    obtain ⟨rfl, rfl, rfl⟩ := hall hm
    have hstatus : qValue ((JsonObject.ofList members).map doubleOf id) statusKey =
        some ((Json.string okText).map doubleOf id) :=
      qValue_of_mem hlist.nodup (by simp [hmembers, responseMembers])
    have hcount : qValue ((JsonObject.ofList members).map doubleOf id) countKey =
        some ((Json.number (Int32.ofNat fs.length)).map doubleOf id) :=
      qValue_of_mem hlist.nodup (by simp [hmembers])
    have hnone : ∀ key ∈ [errCodeKey, errMsgKey],
        qValue ((JsonObject.ofList members).map doubleOf id) key = none := by
      intro key hkey
      refine qValue_of_not_mem fun hmem => ?_
      have hdisjoint : ∀ key ∈ [errCodeKey, errMsgKey],
          key ∉ [verKey, typeKey, statusKey, filesKey, countKey] := by decide
      exact hdisjoint key hkey hmem
    simp only [hstatus, hcount, hnone errCodeKey (by simp), hnone errMsgKey (by simp),
      toInt_doubleOf_qValue]
    rfl

theorem isShown_error (hjson : ReadsJson fromJson) {names : List (List UInt8)} {l : Members}
    (hfails : ¬ NeverFails malloc)
    (hl : l.Sublist (responseMembers 1 errorText ++
      [(errCodeKey, .number (-1)), (errMsgKey, .string scanFailedText)])) :
    IsShown malloc names
      (parseFileListResponse fromJson ((Json.object (.ofList l)).write deviceStyle)) := by
  have hlist : IsAnswerList l := by
    refine ⟨?_, fun m hm => ?_⟩
    · have hkeys : [verKey, typeKey, statusKey, errCodeKey, errMsgKey].Nodup := by decide
      exact hkeys.sublist (hl.map Prod.fst)
    · rcases List.mem_append.mp (hl.subset hm) with hm | hm
      · exact isAnswerMember_response (isName_deviceStrings (by simp [deviceStrings])) 1 m hm
      · simp only [List.mem_cons, List.not_mem_nil, or_false] at hm
        rcases hm with rfl | rfl
        · exact isAnswerMember_number (isName_deviceStrings (by simp [deviceStrings])) (-1)
        · exact isAnswerMember_string (isName_deviceStrings (by simp [deviceStrings]))
            (isName_deviceStrings (by simp [deviceStrings]))
  have hstatus : qToString (qValue ((JsonObject.ofList l).map doubleOf id) statusKey) ≠ okText := by
    by_cases hmem : (statusKey, Json.string errorText) ∈ l
    · rw [qValue_of_mem hlist.nodup hmem]
      show errorText ≠ okText
      decide
    · rw [qValue_of_not_mem ?_]
      · show [] ≠ okText
        decide
      · intro hkey
        obtain ⟨m, hm, hkey⟩ := List.mem_map.mp hkey
        have hm' := hl.subset hm
        simp only [responseMembers, List.cons_append, List.nil_append, List.mem_cons,
          List.not_mem_nil, or_false] at hm'
        rcases hm' with rfl | rfl | rfl | rfl | rfl
        · exact absurd hkey (by decide)
        · exact absurd hkey (by decide)
        · exact hmem hm
        · exact absurd hkey (by decide)
        · exact absurd hkey (by decide)
  rw [parseFileListResponse_members hjson hlist]
  simp only
  rw [if_pos hstatus]
  exact ⟨fun hok => (by cases hok), fun hm => absurd hm hfails⟩

/-- **What the host shows of an answer**: files that were found, and all of them if no allocation
failed. -/
theorem isShown_answer (hjson : ReadsJson fromJson) {glob : Option (List (List UInt8))}
    (hnames : ∀ f ∈ fileNames (scannedPaths glob), IsName f) {v : Json Int32 (List UInt8)}
    (h : IsAnswer malloc glob v) :
    IsShown malloc (fileNames (scannedPaths glob))
      (parseFileListResponse fromJson (v.write deviceStyle)) := by
  rcases h with h | ⟨hfails, l, hl, rfl⟩
  · refine isShown_fileList hjson hnames ?_
    rwa [fileNames, List.length_map]
  · exact isShown_error hjson hfails hl

theorem untilNul_fileNames {paths : List (List UInt8)} : ∀ f ∈ fileNames paths, untilNul f = f := by
  intro f hf
  obtain ⟨path, -, rfl⟩ := List.mem_map.mp hf
  exact untilNul_untilNul _

/-- What `Tcp_Send_Frame` is given of an answer. -/
def SentJson.item (j : SentJson) (ts : UInt64) (running : UInt16 → Bool) : UploadItem :=
  ⟨.json, j.dataPtr.take j.totalLen.toNat, ts, running⟩

/-- **The query for the files, from end to end**: what is sent for the files found, over a
connection that is new, in whatever segments, is one response on the host, if it is not longer than
65535 packets.  It shows some of the first 256 files that were found, and all of these where no
allocation failed. -/
theorem handleQueryFiles_received (hjson : ReadsJson fromJson) (env : PrintEnv) (accepted : Bool)
    {glob : Option (List (List UInt8))} (hnames : ∀ f ∈ fileNames (scannedPaths glob), IsUtf8 f)
    (h : Heap) {j : SentJson} (hj : j ∈ (handleQueryFiles malloc env accepted glob h).1.2)
    {ts : UInt64} {running : UInt16 → Bool} {frameId : UInt32} {room : ℕ} {sock' : Socket}
    {chunks : List (List UInt8)} (hlen : j.totalLen.toNat ≤ 65535 * 1400)
    (hsend : tcpSendFrame ((j.item ts running).call frameId) ⟨[], room⟩ = (true, sock'))
    (hchunks : chunks.flatten = sock'.out) :
    ∃ json, (receive .connected chunks).2 = [.jsonResponseReceived json] ∧
      IsShown malloc (fileNames (scannedPaths glob)) (parseFileListResponse fromJson json) := by
  obtain ⟨v, hv, hsent⟩ := (accounts_handleQueryFiles env accepted glob h).1 j hj
  obtain ⟨hdata, htotal⟩ := isSentOf_itemOf hsent
  have htext : (j.item ts running).data = v.write deviceStyle := by
    show j.dataPtr.take j.totalLen.toNat = _
    rw [hdata, htotal, List.take_left]
  refine ⟨v.write deviceStyle, ?_, isShown_answer hjson
    (fun f hf => ⟨hnames f hf, untilNul_fileNames f hf⟩) hv⟩
  have hne : v.write deviceStyle ≠ [] := by
    rcases hv with ⟨l, c, fs, -, -, -, rfl, -⟩ | ⟨-, l, -, rfl⟩
    · exact List.cons_ne_nil _ _
    · exact List.cons_ne_nil _ _
  have hitem : (j.item ts running).Sendable := by
    refine ⟨?_, ?_, ?_⟩
    · show FileType.json ∈ _
      decide
    · rwa [htext]
    · rwa [htext, ← htotal]
  have hout := UploadItem.sendFrame_out hitem.2.1 hitem.2.2 hsend
  have hfirst : (0 : UInt32).toNat ≤ frameId.toNat := Nat.zero_le _
  have hread := (consumes_frame hitem hfirst).drain (step_of_short (by decide))
  rw [receive_connected, hchunks, hout, List.nil_append]
  show (packetParser.drain ⟨∅, 0⟩ ((j.item ts running).frame frameId)).2.1 = _
  rw [hread, UploadItem.signal, htext]
  rfl

end Read

/-! ### A concrete reader -/

/-- The value of an item, from those of its children. -/
def treeValue (fields : CJsonFields) (elements : JsonArray Binary64 (List UInt8))
    (members : JsonObject Binary64 (List UInt8)) : Json Binary64 (List UInt8) :=
  match fields.type with
  | .invalid => .null
  | .false => .bool false
  | .true => .bool true
  | .null => .null
  | .number => .number fields.valuedouble
  | .string => .string (fields.valuestring.getD [])
  | .array => .array elements
  | .object => .object members

mutual

/-- The elements of a list of items. -/
def treeElements : CJson → JsonArray Binary64 (List UInt8)
  | .null => .nil
  | .item _ fields child next =>
    .cons (treeValue fields (treeElements child) (treeMembers child)) (treeElements next)

/-- The members of a list of items. -/
def treeMembers : CJson → JsonObject Binary64 (List UInt8)
  | .null => .nil
  | .item string fields child next =>
    .cons (string.getD []) (treeValue fields (treeElements child) (treeMembers child))
      (treeMembers next)

end

mutual

theorem treeValue_item : ∀ v : Json Binary64 (List UInt8),
    treeValue (itemFields v) (treeElements (itemChild v)) (treeMembers (itemChild v)) = v
  | .null | .bool true | .bool false | .number _ | .string _ => rfl
  | .array es => congrArg Json.array (treeElements_items es)
  | .object ms => congrArg Json.object (treeMembers_items ms)

theorem treeElements_items : ∀ es : JsonArray Binary64 (List UInt8),
    treeElements (elementItems es) = es
  | .nil => rfl
  | .cons e rest => congrArg₂ JsonArray.cons (treeValue_item e) (treeElements_items rest)

theorem treeMembers_items : ∀ ms : JsonObject Binary64 (List UInt8),
    treeMembers (memberItems ms) = ms
  | .nil => rfl
  | .cons name v rest =>
    congrArg₂ (JsonObject.cons name) (treeValue_item v) (treeMembers_items rest)

end

/-- A reader made of the device's parser. -/
def deviceReader (s : List UInt8) : Option (Json Binary64 (List UInt8)) × List UInt8 :=
  match cJSONParse s with
  | .ok item _ => (some (treeValue item.1 (treeElements item.2) (treeMembers item.2)), [])
  | _ => (none, [])

theorem readsJson_deviceReader : ReadsJson deviceReader := by
  intro l d s _ hd htext _ _
  obtain ⟨b, hparse⟩ := cJSONParseWithLength_standard (w := []) (.inl rfl) (by simp) htext
    (hd.trans (by decide)) (List.cons_ne_nil 0 []) (by rintro ⟨_, ⟨⟩⟩)
  have hrounded : rounded (.object ((JsonObject.ofList l).map (fun z => (z.toInt : ℚ)) id)) =
      .object ((JsonObject.ofList l).map doubleOf id) := rounded_map (.object (.ofList l)) id
  rw [hrounded, List.nil_append, List.nil_append, List.length_append,
    List.length_singleton] at hparse
  refine ⟨(JsonObject.ofList l).map doubleOf id, ?_, fun key => rfl⟩
  rw [deviceReader, cJSONParse, hparse]
  exact congrArg some (treeValue_item (.object _))

/-- One file, the stream cut behind its first byte. -/
theorem handleQueryFiles_received_one :
    let env : PrintEnv := ⟨fun _ => some fun _ => 0xff, fun _ => [], by simp⟩
    let glob := some [[0x2f, 0x61, 0x2e, 0x61, 0x76, 0x69]]
    ∃ j sock' json, j ∈ (handleQueryFiles (fun _ => true) env true glob ⟨0, 0⟩).1.2 ∧
      tcpSendFrame ((j.item 7 fun _ => true).call 0) ⟨[], 1000⟩ = (true, sock') ∧
      (receive .connected [sock'.out.take 1, sock'.out.drop 1]).2 = [.jsonResponseReceived json] ∧
      parseFileListResponse deviceReader json =
        ⟨true, okText, 0, [], [[0x61, 0x2e, 0x61, 0x76, 0x69]], 1⟩ := by
  intro env glob
  have hsent : (handleQueryFiles (fun _ => true) env true glob ⟨0, 0⟩).1.2.any (fun j =>
      decide (j.totalLen.toNat ≤ 65535 * 1400) &&
        (tcpSendFrame ((j.item 7 fun _ => true).call 0) ⟨[], 1000⟩).1) = true := by
    decide +kernel
  obtain ⟨j, hj, hok⟩ := (Option.any_eq_true _ _).mp hsent
  rw [Bool.and_eq_true, decide_eq_true_eq] at hok
  obtain ⟨sock', hsock⟩ : ∃ sock', tcpSendFrame ((j.item 7 fun _ => true).call 0) ⟨[], 1000⟩ =
      (true, sock') := ⟨_, Prod.ext hok.2 rfl⟩
  have hnames : ∀ f ∈ fileNames (scannedPaths glob), IsUtf8 f := by
    intro f hf
    obtain rfl : f = [0x61, 0x2e, 0x61, 0x76, 0x69] := List.mem_singleton.mp hf
    exact .of_ascii (by decide +kernel)
  have hcut : [sock'.out.take 1, sock'.out.drop 1].flatten = sock'.out := by
    rw [List.flatten_cons, List.flatten_singleton, List.take_append_drop]
  obtain ⟨json, hsignal, -, hshown⟩ := handleQueryFiles_received readsJson_deviceReader env true
    hnames ⟨0, 0⟩ hj hok.1 hsock hcut
  exact ⟨j, sock', json, hj, hsock, hsignal, hshown fun _ => rfl⟩

end Sentry
