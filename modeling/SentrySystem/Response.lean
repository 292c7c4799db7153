/-
The responses of the device (`src/json/json_about.c`, `src/command/file_query.c`).

Any allocation may fail, each on its own.  The blocks that live are counted; an item has one, and
one for each of its strings.

* `addItemToObject`, `createString` — the constructors of cJSON that are used;
* `jsonCreateFilelist`, `jsonCreateError` — the responses;
* `sendResponse` — what is handed to the sender;
* `scanAviFiles`, `handleQueryFiles` — the query.
-/
import Mathlib.Data.List.ReduceOption
import SentrySystem.CommandJson
import SentrySystem.Lib.Heap

namespace Sentry

open HeapM

/-! ### Items -/

/-- The blocks of an item without its name, its children and what comes behind it. -/
def CJsonFields.blocks (fields : CJsonFields) : ℕ := 1 + if fields.valuestring.isSome then 1 else 0

/-- The blocks of a list of items. -/
def CJson.blocks : CJson → ℕ
  | .null => 0
  | .item string fields child next =>
    fields.blocks + (if string.isSome then 1 else 0) + child.blocks + next.blocks

/-- `suffix_object`: an item behind the last one of a list. -/
def CJson.append : CJson → CJson → CJson
  | .null, last => last
  | .item string fields child next, last => .item string fields child (next.append last)

/-- The children of the last item of a list are changed. -/
def CJson.onLast (f : CJson → CJson) : CJson → CJson
  | .null => .null
  | .item string fields child .null => .item string fields (f child) .null
  | .item string fields child next => .item string fields child (next.onLast f)

/-- An item that is in no list yet. -/
abbrev NewItem := CJsonFields × CJson

/-- `cJSON_Delete`. -/
def cJSONDelete (item : NewItem) : HeapM PUnit := release (item.1.blocks + item.2.blocks)

section Code

variable (malloc : ℕ → Bool)

/-- `cJSON_New_Item`, and the type set. -/
def createItem (fields : CJsonFields) : HeapM (Option NewItem) := do
  if ← allocate malloc then return some (fields, .null) else return none

/-- `strdup`. -/
def strdup (s : List UInt8) : HeapM (Option (List UInt8)) := do
  if ← allocate malloc then return some (untilNul s) else return none

/-- `cJSON_strdup`. -/
def cJSONStrdup (string : Option (List UInt8)) : HeapM (Option (List UInt8)) := do
  match string with
  | none => return none
  | some s => strdup malloc s

/-- `cJSON_CreateObject`. -/
def createObject : HeapM (Option NewItem) := createItem malloc { newItem with type := .object }

/-- `cJSON_CreateArray`. -/
def createArray : HeapM (Option NewItem) := createItem malloc { newItem with type := .array }

/-- `cJSON_CreateNumber`. -/
def createNumber (num : Int32) : HeapM (Option NewItem) :=
  createItem malloc (itemFields (.number (doubleOf num)))

/-- `cJSON_CreateString`. -/
def createString (string : Option (List UInt8)) : HeapM (Option NewItem) := do
  match ← createItem malloc { newItem with type := .string } with
  | none => return none
  | some item =>
    match ← cJSONStrdup malloc string with
    | some s => return some ({ item.1 with valuestring := some s }, item.2)
    | none =>
      cJSONDelete item
      return none

/-- `add_item_to_object`, with the deletion of what could not be added. -/
def addItemToObject (child : CJson) (name : List UInt8) (item : Option NewItem) :
    HeapM (Bool × CJson) := do
  match item with
  | none => return (false, child)
  | some item =>
    match ← cJSONStrdup malloc (some name) with
    | some key => return (true, child.append (.item (some key) item.1 item.2 .null))
    | none =>
      cJSONDelete item
      return (false, child)

/-- `cJSON_AddNumberToObject`, whose result nobody looks at. -/
def addNumberToObject (child : CJson) (name : List UInt8) (number : Int32) : HeapM CJson := do
  return (← addItemToObject malloc child name (← createNumber malloc number)).2

/-- `cJSON_AddStringToObject`. -/
def addStringToObject (child : CJson) (name string : List UInt8) : HeapM CJson := do
  return (← addItemToObject malloc child name (← createString malloc (some string))).2

/-- `cJSON_AddItemToArray`, to the array that is the last member. -/
def addItemToArray (child : CJson) (item : Option NewItem) : CJson :=
  match item with
  | none => child
  | some item => child.onLast fun elements => elements.append (.item none item.1 item.2 .null)

/-! ### Responses -/

/-- `"status"`. -/
def statusKey : List UInt8 := [0x73, 0x74, 0x61, 0x74, 0x75, 0x73]

/-- `"files"`. -/
def filesKey : List UInt8 := [0x66, 0x69, 0x6c, 0x65, 0x73]

/-- `"count"`. -/
def countKey : List UInt8 := [0x63, 0x6f, 0x75, 0x6e, 0x74]

/-- `"err_code"`. -/
def errCodeKey : List UInt8 := [0x65, 0x72, 0x72, 0x5f, 0x63, 0x6f, 0x64, 0x65]

/-- `"err_msg"`. -/
def errMsgKey : List UInt8 := [0x65, 0x72, 0x72, 0x5f, 0x6d, 0x73, 0x67]

/-- `"ok"`. -/
def okText : List UInt8 := [0x6f, 0x6b]

/-- `"error"`. -/
def errorText : List UInt8 := [0x65, 0x72, 0x72, 0x6f, 0x72]

/-- `json_create_response`. -/
def jsonCreateResponse (type : Int32) : HeapM (Option NewItem) := do
  match ← createObject malloc with
  | none => return none
  | some (fields, child) =>
    let child ← addNumberToObject malloc child verKey 0
    let child ← addNumberToObject malloc child typeKey type
    let child ← addStringToObject malloc child statusKey okText
    return some (fields, child)

/-- The loop of `json_create_filelist`. -/
def addFiles (child : CJson) : List (Option (List UInt8)) → HeapM CJson
  | [] => return child
  | file :: files => do
    let item ← createString malloc file
    addFiles (addItemToArray child item) files

/-- `json_create_filelist`. -/
def jsonCreateFilelist (files : List (Option (List UInt8))) : HeapM (Option NewItem) := do
  match ← jsonCreateResponse malloc 1 with
  | none => return none
  | some (fields, child) =>
    match ← addItemToObject malloc child filesKey (← createArray malloc) with
    | (false, child) =>
      cJSONDelete (fields, child)
      return none
    | (true, child) =>
      let child ← addFiles malloc child files
      let child ← addNumberToObject malloc child countKey (Int32.ofNat files.length)
      return some (fields, child)

/-- `json_create_error`. -/
def jsonCreateError (type errCode : Int32) (errMsg : Option (List UInt8)) :
    HeapM (Option NewItem) := do
  match ← createObject malloc with
  | none => return none
  | some (fields, child) =>
    let child ← addNumberToObject malloc child verKey 0
    let child ← addNumberToObject malloc child typeKey type
    let child ← addStringToObject malloc child statusKey errorText
    let child ← addNumberToObject malloc child errCodeKey errCode
    match errMsg with
    | none => return some (fields, child)
    | some errMsg =>
      let child ← addStringToObject malloc child errMsgKey errMsg
      return some (fields, child)

/-- What the sender gets of a message: the memory at `data_ptr`, and `total_len`. -/
structure SentJson where
  dataPtr : List UInt8
  totalLen : UInt32
  deriving DecidableEq

/-- `cJSON_PrintUnformatted`: the string is a block.  The buffer the printer moves from allocation
to allocation is this block, or given back where the printer fails, and is not counted on the way. -/
def printRoot (env : PrintEnv) (root : NewItem) : HeapM (Option (List UInt8)) := fun h =>
  match cJSONPrintUnformatted env root.1 root.2 with
  | .ok text _ => (some text, { h with live := h.live + 1 })
  | .fail _ => (none, h)
  | .fault => (none, h)
  | .outOfFuel => (none, h)

/-- `json_send_response`; `accepted` says whether `msg_dispatch` takes the message. -/
def sendResponse (env : PrintEnv) (accepted : Bool) (root : Option NewItem) :
    HeapM (Option SentJson) := do
  match root with
  | none => return none
  | some root =>
    let text ← printRoot env root
    cJSONDelete root
    match text with
    | none => return none
    | some text =>
      if ← allocate malloc then
        if accepted then return some ⟨text, UInt32.ofNat (untilNul text).length⟩
        else
          release 2
          return none
      else
        release 1
        return none

/-! ### The query -/

/-- `MAX_AVI_FILES`. -/
def maxAviFiles : ℕ := 256

/-- What is behind the last slash. -/
def basename (path : List UInt8) : List UInt8 :=
  (path.reverse.takeWhile fun c => decide (c ≠ 0x2f)).reverse

/-- The `strdup`s of `scan_avi_files`. -/
def strdupFiles : List (List UInt8) → HeapM (List (Option (List UInt8)))
  | [] => return []
  | path :: paths => do
    let file ← strdup malloc (basename path)
    return file :: (← strdupFiles paths)

/-- `scan_avi_files`: `none` when it fails, and an array of the names, which is null where `glob`
found nothing.  `glob` is the paths found, `none` when it fails; its own memory, which `globfree`
gives back on both ways out, is not counted. -/
def scanAviFiles (glob : Option (List (List UInt8))) :
    HeapM (Option (Option (List (Option (List UInt8))))) := do
  match glob with
  | none => return some none
  | some paths =>
    if ← allocate malloc then return some (some (← strdupFiles malloc (paths.take maxAviFiles)))
    else return none

/-- The blocks of an array of names. -/
def fileBlocks (files : Option (List (Option (List UInt8)))) : ℕ :=
  match files with
  | none => 0
  | some files => 1 + (files.filter Option.isSome).length

/-- `free_file_list`. -/
def freeFileList (files : Option (List (Option (List UInt8)))) : HeapM PUnit :=
  release (fileBlocks files)

/-- `"scan failed"`. -/
def scanFailedText : List UInt8 :=
  [0x73, 0x63, 0x61, 0x6e, 0x20, 0x66, 0x61, 0x69, 0x6c, 0x65, 0x64]

/-- `handle_query_files`: what is logged, and what the sender gets. -/
def handleQueryFiles (env : PrintEnv) (accepted : Bool) (glob : Option (List (List UInt8))) :
    HeapM (Option String × Option SentJson) := do
  match ← scanAviFiles malloc glob with
  | none =>
    let root ← jsonCreateError malloc 1 (-1) (some scanFailedText)
    return (some "scan avi failed", ← sendResponse malloc env accepted root)
  | some files =>
    let root ← jsonCreateFilelist malloc (files.getD [])
    freeFileList files
    return (none, ← sendResponse malloc env accepted root)

end Code

/-! ### Lists of items -/

/-- The members of an object. -/
abbrev Members := List (List UInt8 × Json Int32 (List UInt8))

/-- The items of these members. -/
def childOf (l : Members) : CJson := memberItems ((JsonObject.ofList l).map doubleOf id)

/-- The item of a value. -/
def itemOf (v : Json Int32 (List UInt8)) : NewItem :=
  (itemFields (v.map doubleOf id), itemChild (v.map doubleOf id))

/-- The blocks of an item that is in no list. -/
def NewItem.blocks (item : NewItem) : ℕ := item.1.blocks + item.2.blocks

/-- The blocks of an item, if there is one. -/
def blocksOf (item : Option NewItem) : ℤ := (item.map NewItem.blocks).getD 0

theorem CJson.blocks_append (a b : CJson) : (a.append b).blocks = a.blocks + b.blocks := by
  induction a with
  | null => exact (Nat.zero_add _).symm
  | item string fields child next _ ih =>
    rw [CJson.append, CJson.blocks, CJson.blocks, ih]
    omega

theorem childOf_append (l : Members) (name : List UInt8) (v : Json Int32 (List UInt8)) :
    (childOf l).append (.item (some name) (itemOf v).1 (itemOf v).2 .null) =
      childOf (l ++ [(name, v)]) := by
  induction l with
  | nil => rfl
  | cons m l ih => exact congrArg (CJson.item (some m.1) _ _) ih

theorem elementItems_append (es : List (Json Int32 (List UInt8))) (v : Json Int32 (List UInt8)) :
    (elementItems ((JsonArray.ofList es).map doubleOf id)).append
        (.item none (itemOf v).1 (itemOf v).2 .null) =
      elementItems ((JsonArray.ofList (es ++ [v])).map doubleOf id) := by
  induction es with
  | nil => rfl
  | cons e es ih => exact congrArg (CJson.item none _ _) ih

theorem childOf_onLast (l : Members) (name : List UInt8) (es : List (Json Int32 (List UInt8)))
    (v : Json Int32 (List UInt8)) :
    addItemToArray (childOf (l ++ [(name, .array (.ofList es))])) (some (itemOf v)) =
      childOf (l ++ [(name, .array (.ofList (es ++ [v])))]) := by
  rw [addItemToArray]
  induction l with
  | nil => exact congrArg (fun c => CJson.item (some name) _ c .null) (elementItems_append es v)
  | cons m l ih =>
    have hne : ∃ string fields child next, childOf (l ++ [(name, .array (.ofList es))]) =
        .item string fields child next := by
      cases l with
      | nil => exact ⟨_, _, _, _, rfl⟩
      | cons m l => exact ⟨_, _, _, _, rfl⟩
    obtain ⟨string, fields, child, next, hitem⟩ := hne
    show CJson.onLast _ (.item (some m.1) _ _ (childOf (l ++ [(name, .array (.ofList es))]))) = _
    rw [hitem] at ih ⊢
    exact congrArg (CJson.item (some m.1) _ _) ih

theorem blocks_childOf_concat (l : Members) (name : List UInt8) (v : Json Int32 (List UInt8)) :
    (childOf (l ++ [(name, v)])).blocks = (childOf l).blocks + ((itemOf v).blocks + 1) := by
  rw [← childOf_append, CJson.blocks_append]
  show _ + ((itemOf v).1.blocks + 1 + (itemOf v).2.blocks + 0) =
    _ + ((itemOf v).1.blocks + (itemOf v).2.blocks + 1)
  omega

theorem blocks_array_concat (es : List (Json Int32 (List UInt8))) (v : Json Int32 (List UInt8)) :
    (itemOf (.array (.ofList (es ++ [v])))).blocks =
      (itemOf (.array (.ofList es))).blocks + (itemOf v).blocks := by
  show 1 + (elementItems ((JsonArray.ofList (es ++ [v])).map doubleOf id)).blocks =
    1 + (elementItems ((JsonArray.ofList es).map doubleOf id)).blocks + (itemOf v).blocks
  rw [← elementItems_append, CJson.blocks_append]
  show 1 + (_ + ((itemOf v).1.blocks + 0 + (itemOf v).2.blocks + 0)) =
    1 + _ + ((itemOf v).1.blocks + (itemOf v).2.blocks)
  omega

/-! ### What is built -/

section Built

variable {malloc : ℕ → Bool} {base : Members}

/-- Every allocation succeeds, also those no call asks for. -/
def NeverFails (malloc : ℕ → Bool) : Prop := ∀ n, malloc n = true

/-- The items of members that are there, and behind them of some of these, in order; of all if no
allocation fails. -/
def BuiltFrom (malloc : ℕ → Bool) (base ms : Members) (child : CJson) : Prop :=
  ∃ l : Members, l.Sublist ms ∧ child = childOf (base ++ l) ∧ (NeverFails malloc → l = ms)

theorem accounts_createItem (fields : CJsonFields) (hfields : fields.valuestring = none) :
    Accounts (createItem malloc fields)
      (fun r => (∀ item ∈ r, item = (fields, .null)) ∧ (NeverFails malloc → r.isSome))
      blocksOf := by
  rw [createItem]
  refine (Accounts.allocate malloc).bind ?_
  intro ok hok
  cases ok with
  | false =>
    refine .ret ⟨fun item h => (by cases h), fun hall => ?_⟩ rfl
    exact absurd (hok hall) (by decide)
  | true =>
    refine .ret ⟨fun item h => (Option.some_inj.mp h).symm, fun _ => rfl⟩ ?_
    show ((fields.blocks + 0 : ℕ) : ℤ) - 1 = 0
    rw [CJsonFields.blocks, hfields]
    rfl

theorem accounts_strdup (s : List UInt8) :
    Accounts (strdup malloc s)
      (fun r => (∀ t ∈ r, t = untilNul s) ∧ (NeverFails malloc → r.isSome))
      (fun r => if r.isSome then 1 else 0) := by
  rw [strdup]
  refine (Accounts.allocate malloc).bind ?_
  intro ok hok
  cases ok with
  | false =>
    refine .ret ⟨fun item h => (by cases h), fun hall => ?_⟩ rfl
    exact absurd (hok hall) (by decide)
  | true => exact .ret ⟨fun item h => (Option.some_inj.mp h).symm, fun _ => rfl⟩ rfl

theorem accounts_cJSONDelete (item : NewItem) :
    Accounts (cJSONDelete item) (fun _ => True) fun _ => -(item.blocks : ℤ) :=
  .release _

/-- An item that is deleted before the call returns. -/
theorem accounts_delete_then {α : Type} {item : NewItem} {a : α} {P : α → Prop} {cost : α → ℤ}
    (hP : P a) (hcost : cost a = -(item.blocks : ℤ)) :
    Accounts (do
      cJSONDelete item
      return a) P cost :=
  (accounts_cJSONDelete item).bind fun _ _ => .ret hP (by omega)

theorem accounts_createString (string : Option (List UInt8)) :
    Accounts (createString malloc string)
      (fun r => (∀ item ∈ r, ∃ s ∈ string, item = itemOf (.string (untilNul s))) ∧
        (NeverFails malloc → r.isSome = string.isSome))
      blocksOf := by
  rw [createString]
  refine (accounts_createItem { newItem with type := .string } rfl).bind ?_
  rintro (_ | item) ⟨hitem, hall⟩
  · refine .ret ⟨fun item h => (by cases h), fun h => ?_⟩ rfl
    cases hall h
  obtain rfl := hitem item rfl
  cases string with
  | none =>
    have hnone : Accounts (cJSONStrdup malloc none) (fun r => r = none) (fun _ => 0) :=
      .ret rfl rfl
    refine hnone.bind ?_
    rintro _ rfl
    exact accounts_delete_then ⟨fun item h => (by cases h), fun _ => rfl⟩ rfl
  | some s =>
    refine (accounts_strdup s).bind ?_
    rintro (_ | t) ⟨ht, hsome⟩
    · refine accounts_delete_then ⟨fun item h => (by cases h), fun h => ?_⟩ rfl
      cases hsome h
    · obtain rfl := ht t rfl
      refine .ret ⟨?_, fun _ => rfl⟩ rfl
      rintro _ ⟨⟩
      exact ⟨s, rfl, rfl⟩

theorem accounts_addItemToObject (child : CJson) (name : List UInt8) (item : Option NewItem) :
    Accounts (addItemToObject malloc child name item)
      (fun r => (r.1 = true → ∃ i ∈ item,
          r.2 = child.append (.item (some (untilNul name)) i.1 i.2 .null)) ∧
        (r.1 = false → r.2 = child) ∧ (NeverFails malloc → r.1 = item.isSome))
      (fun r => r.2.blocks - child.blocks - blocksOf item) := by
  cases item with
  | none =>
    rw [addItemToObject]
    refine .ret ⟨fun h => (by cases h), fun _ => rfl, fun _ => rfl⟩ ?_
    show (child.blocks : ℤ) - child.blocks - 0 = 0
    omega
  | some item =>
    rw [addItemToObject]
    refine (accounts_strdup name).bind ?_
    rintro (_ | key) ⟨hkey, hall⟩
    · refine accounts_delete_then ⟨fun h => (by cases h), fun _ => rfl, fun h => hall h⟩ ?_
      show (child.blocks : ℤ) - child.blocks - item.blocks - 0 = _
      omega
    · obtain rfl := hkey key rfl
      refine .ret ⟨fun _ => ⟨item, rfl, rfl⟩, fun h => (by cases h), fun _ => rfl⟩ ?_
      have hblocks : (child.append (.item (some (untilNul name)) item.1 item.2 .null)).blocks =
          child.blocks + (item.blocks + 1) := by
        rw [CJson.blocks_append]
        show _ + (item.1.blocks + 1 + item.2.blocks + 0) = _ + (item.1.blocks + item.2.blocks + 1)
        omega
      show (((child.append _).blocks : ℕ) : ℤ) - child.blocks - item.blocks - 1 = 0
      rw [hblocks]
      push_cast
      omega

/-- A member is added, or it is not. -/
theorem BuiltFrom.add {ms : Members} {child : CJson} (h : BuiltFrom malloc base ms child) {name : List UInt8}
    (hname : untilNul name = name) {v : Json Int32 (List UInt8)} {item : Option NewItem}
    (hitem : ∀ i ∈ item, i = itemOf v) (hall : NeverFails malloc → item.isSome) :
    Accounts (addItemToObject malloc child name item)
      (fun r => BuiltFrom malloc base (ms ++ [(name, v)]) r.2)
      (fun r => r.2.blocks - child.blocks - blocksOf item) := by
  obtain ⟨l, hl, rfl, hlall⟩ := h
  refine (accounts_addItemToObject (childOf (base ++ l)) name item).imp ?_ fun _ _ => rfl
  rintro ⟨added, child⟩ ⟨htrue, hfalse, hadded⟩
  cases added with
  | true =>
    obtain ⟨i, hi, rfl⟩ := htrue rfl
    obtain rfl := hitem i hi
    refine ⟨l ++ [(name, v)], hl.append (.refl _), ?_, fun hm => by rw [hlall hm]⟩
    rw [hname, childOf_append, List.append_assoc]
  | false =>
    obtain rfl := hfalse rfl
    refine ⟨l, hl.trans (List.sublist_append_left _ _), rfl, fun hm => ?_⟩
    have hsome := (hadded hm).trans (hall hm)
    cases hsome

theorem BuiltFrom.addNumber {ms : Members} {child : CJson} (h : BuiltFrom malloc base ms child)
    (name : List UInt8) (hname : untilNul name = name) (n : Int32) :
    Accounts (addNumberToObject malloc child name n) (BuiltFrom malloc base (ms ++ [(name, .number n)]))
      (fun c => c.blocks - child.blocks) := by
  rw [addNumberToObject]
  refine (accounts_createItem (itemFields (.number (doubleOf n))) rfl).bind ?_
  rintro item ⟨hitem, hall⟩
  refine (h.add hname (v := .number n) hitem hall).bind ?_
  intro r hr
  exact .ret hr (by omega)

theorem BuiltFrom.addString {ms : Members} {child : CJson} (h : BuiltFrom malloc base ms child)
    (name : List UInt8) {string : List UInt8} (hname : untilNul name = name) (hstring : untilNul string = string) :
    Accounts (addStringToObject malloc child name string)
      (BuiltFrom malloc base (ms ++ [(name, .string string)])) (fun c => c.blocks - child.blocks) := by
  rw [addStringToObject]
  refine (accounts_createString (some string)).bind ?_
  rintro item ⟨hitem, hall⟩
  refine (h.add hname (v := .string string) ?_ hall).bind ?_
  · intro i hi
    obtain ⟨s, hs, rfl⟩ := hitem i hi
    obtain rfl := Option.some_inj.mp hs
    rw [hstring]
  · intro r hr
    exact .ret hr (by omega)

/-! ### The responses -/

/-- The members of every response. -/
def responseMembers (type : Int32) (status : List UInt8) : Members :=
  [(verKey, .number 0), (typeKey, .number type), (statusKey, .string status)]

/-- An object without children. -/
def objectFields : CJsonFields := { newItem with type := .object }

theorem blocksOf_object (child : CJson) :
    blocksOf (some (objectFields, child)) = 1 + child.blocks := by
  show (((1 + 0) + child.blocks : ℕ) : ℤ) = _
  push_cast
  omega

theorem builtFrom_nil (base : Members) : BuiltFrom malloc base [] (childOf base) :=
  ⟨[], .slnil, by rw [List.append_nil], fun _ => rfl⟩

theorem accounts_jsonCreateResponse (type : Int32) :
    Accounts (jsonCreateResponse malloc type)
      (fun r => (∀ i ∈ r, i.1 = objectFields ∧ BuiltFrom malloc [] (responseMembers type okText) i.2) ∧
        (NeverFails malloc → r.isSome))
      blocksOf := by
  rw [jsonCreateResponse]
  refine (accounts_createItem objectFields rfl).bind ?_
  rintro (_ | ⟨fields, child⟩) ⟨hitem, hall⟩
  · exact .ret ⟨fun i h => (by cases h), fun h => hall h⟩ rfl
  obtain ⟨rfl, rfl⟩ := Prod.mk.inj (hitem _ rfl)
  refine ((builtFrom_nil []).addNumber verKey rfl 0).bind ?_
  intro child h
  refine (h.addNumber typeKey rfl type).bind ?_
  intro child h
  refine (h.addString statusKey rfl (by decide)).bind ?_
  intro child h
  refine .ret ⟨?_, fun _ => rfl⟩ ?_
  · rintro _ ⟨⟩
    exact ⟨rfl, h⟩
  · have hnone : blocksOf (some (objectFields, CJson.null)) = 1 := rfl
    have hnil : (childOf []).blocks = 0 := rfl
    rw [blocksOf_object]
    omega

theorem accounts_jsonCreateError (type errCode : Int32) (errMsg : List UInt8)
    (hmsg : untilNul errMsg = errMsg) :
    Accounts (jsonCreateError malloc type errCode (some errMsg))
      (fun r => ∀ i ∈ r, i.1 = objectFields ∧ BuiltFrom malloc []
        (responseMembers type errorText ++ [(errCodeKey, .number errCode),
          (errMsgKey, .string errMsg)]) i.2)
      blocksOf := by
  rw [jsonCreateError]
  refine (accounts_createItem objectFields rfl).bind ?_
  rintro (_ | ⟨fields, child⟩) ⟨hitem, hall⟩
  · exact .ret (fun i h => (by cases h)) rfl
  obtain ⟨rfl, rfl⟩ := Prod.mk.inj (hitem _ rfl)
  refine ((builtFrom_nil []).addNumber verKey rfl 0).bind ?_
  intro child h
  refine (h.addNumber typeKey rfl type).bind ?_
  intro child h
  refine (h.addString statusKey rfl (by decide)).bind ?_
  intro child h
  refine (h.addNumber errCodeKey rfl errCode).bind ?_
  intro child h
  refine (h.addString errMsgKey rfl hmsg).bind ?_
  intro child h
  refine .ret ?_ ?_
  · rintro _ ⟨⟩
    exact ⟨rfl, h⟩
  · have hnone : blocksOf (some (objectFields, CJson.null)) = 1 := rfl
    have hnil : (childOf []).blocks = 0 := rfl
    rw [blocksOf_object]
    omega

/-- The items behind the array of these names. -/
def filesChild (l : Members) (fs : List (List UInt8)) : CJson :=
  childOf (l ++ [(filesKey, .array (.ofList (fs.map .string)))])

theorem addItemToArray_filesChild (l : Members) (fs : List (List UInt8)) (s : List UInt8) :
    addItemToArray (filesChild l fs) (some (itemOf (.string s))) = filesChild l (fs ++ [s]) := by
  rw [filesChild, childOf_onLast, filesChild, List.map_append]
  rfl

theorem accounts_addFiles (l : Members) : ∀ (files : List (Option (List UInt8)))
    (fs : List (List UInt8)), Accounts (addFiles malloc (filesChild l fs) files)
      (fun c => ∃ gs : List (List UInt8), gs.Sublist (files.reduceOption.map untilNul) ∧
        c = filesChild l (fs ++ gs) ∧
        (NeverFails malloc → gs = files.reduceOption.map untilNul))
      (fun c => c.blocks - (filesChild l fs).blocks) := by
  intro files
  induction files with
  | nil =>
    intro fs
    refine .ret ⟨[], .slnil, by rw [List.append_nil], fun _ => rfl⟩ ?_
    omega
  | cons file files ih =>
    intro fs
    rw [addFiles]
    refine (accounts_createString file).bind ?_
    rintro (_ | item) ⟨hitem, hall⟩
    · refine (ih fs).imp ?_ ?_
      · rintro c ⟨gs, hgs, rfl, hgsall⟩
        cases file with
        | none => exact ⟨gs, hgs, rfl, hgsall⟩
        | some s =>
          rw [List.reduceOption_cons_of_some, List.map_cons]
          exact ⟨gs, hgs.cons _, rfl, fun hm => by cases hall hm⟩
      · intro c _
        exact (sub_zero _).symm
    · obtain ⟨s, hs, rfl⟩ := hitem item rfl
      obtain rfl := Option.mem_def.mp hs
      have hblocks : (filesChild l (fs ++ [untilNul s])).blocks =
          (filesChild l fs).blocks + (itemOf (.string (untilNul s))).blocks := by
        rw [filesChild, filesChild, blocks_childOf_concat, blocks_childOf_concat, List.map_append,
          List.map_singleton, blocks_array_concat]
        omega
      rw [addItemToArray_filesChild, List.reduceOption_cons_of_some, List.map_cons]
      refine (ih (fs ++ [untilNul s])).imp ?_ ?_
      · rintro c ⟨gs, hgs, rfl, hgsall⟩
        refine ⟨untilNul s :: gs, hgs.cons_cons _, ?_, fun hm => by rw [hgsall hm]⟩
        rw [List.append_assoc, List.singleton_append]
      · intro c _
        have hitem : blocksOf (some (itemOf (.string (untilNul s)))) =
            (itemOf (.string (untilNul s))).blocks := rfl
        rw [hitem, hblocks]
        push_cast
        omega

/-- An array of these names among the members of a response, some of which may be missing. -/
def IsFileList (malloc : ℕ → Bool) (names : List (List UInt8)) (count : Int32)
    (v : Json Int32 (List UInt8)) : Prop :=
  ∃ (l c : Members) (fs : List (List UInt8)), l.Sublist (responseMembers 1 okText) ∧
    fs.Sublist names ∧ c.Sublist [(countKey, .number count)] ∧
    v = .object (.ofList (l ++ (filesKey, .array (.ofList (fs.map .string))) :: c)) ∧
    (NeverFails malloc → l = responseMembers 1 okText ∧ fs = names ∧
      c = [(countKey, .number count)])

theorem accounts_jsonCreateFilelist (files : List (Option (List UInt8))) :
    Accounts (jsonCreateFilelist malloc files)
      (fun r => (∀ i ∈ r, ∃ v, IsFileList malloc (files.reduceOption.map untilNul)
          (Int32.ofNat files.length) v ∧ i = itemOf v) ∧ (NeverFails malloc → r.isSome))
      blocksOf := by
  rw [jsonCreateFilelist]
  refine (accounts_jsonCreateResponse 1).bind ?_
  rintro (_ | ⟨fields, child⟩) ⟨hitem, hall⟩
  · exact .ret ⟨fun i h => (by cases h), fun h => hall h⟩ rfl
  obtain ⟨rfl, l, hl, rfl, hlall⟩ := hitem _ rfl
  refine (accounts_createItem { newItem with type := .array } rfl).bind ?_
  rintro array ⟨harray, harrayall⟩
  refine (accounts_addItemToObject _ filesKey array).bind ?_
  rintro ⟨_ | _, child⟩ ⟨htrue, hfalse, hadded⟩
  · obtain rfl := hfalse rfl
    refine accounts_delete_then ⟨fun i h => (by cases h), fun hm => ?_⟩ ?_
    · cases (hadded hm).trans (harrayall hm)
    · show (0 : ℤ) - blocksOf (some (objectFields, childOf ([] ++ l))) - blocksOf array -
        ((childOf ([] ++ l)).blocks - (childOf ([] ++ l)).blocks - blocksOf array) =
          -blocksOf (some (objectFields, childOf ([] ++ l)))
      omega
  obtain ⟨i, hi, hchild⟩ := htrue rfl
  obtain rfl := harray i hi
  obtain rfl : child = filesChild l [] := hchild.trans (childOf_append l filesKey (.array .nil))
  refine (accounts_addFiles l files []).bind ?_
  rintro _ ⟨fs, hfs, rfl, hfsall⟩
  have hfiles : BuiltFrom malloc (l ++ [(filesKey, .array (.ofList (fs.map .string)))]) []
      (filesChild l fs) := builtFrom_nil _
  refine (hfiles.addNumber countKey rfl (Int32.ofNat files.length)).bind ?_
  rintro _ ⟨c, hc, rfl, hcall⟩
  refine .ret ⟨?_, fun _ => rfl⟩ ?_
  · rintro _ ⟨⟩
    refine ⟨.object (.ofList (l ++ (filesKey, .array (.ofList (fs.map .string))) :: c)),
      ⟨l, c, fs, hl, hfs, hc, rfl, fun hm => ⟨hlall hm, hfsall hm, hcall hm⟩⟩, ?_⟩
    rw [List.append_assoc, List.singleton_append]
    rfl
  · rw [blocksOf_object, blocksOf_object]
    dsimp only [List.nil_append]
    rw [filesChild, filesChild]
    omega

/-! ### What is sent -/

theorem accounts_printRoot (env : PrintEnv) (root : NewItem) :
    Accounts (printRoot env root)
      (fun r => ∀ text ∈ r, ∃ s, itemText env root.1 root.2 = some s ∧ s.length < intMax ∧
        text = s ++ [0])
      (fun r => if r.isSome then 1 else 0) := by
  intro h
  rw [printRoot, cJSONPrintUnformatted]
  rcases (print_ends env root.1 root.2).cases with ⟨text, p, hok, s, hs, hshort, rfl⟩ |
    ⟨p, hfail, -⟩
  · rw [hok]
    refine ⟨?_, rfl⟩
    rintro _ ⟨⟩
    exact ⟨s, hs, hshort, rfl⟩
  · rw [hfail]
    refine ⟨?_, (add_zero _).symm⟩
    rintro _ ⟨⟩

/-- What is sent of a tree: its text, with the terminator, and the length of the text. -/
def IsSentOf (env : PrintEnv) (root : NewItem) (j : SentJson) : Prop :=
  ∃ s, itemText env root.1 root.2 = some s ∧ j.dataPtr = s ++ [0] ∧ j.totalLen.toNat = s.length

theorem accounts_sendResponse (env : PrintEnv) (accepted : Bool) (root : Option NewItem) :
    Accounts (sendResponse malloc env accepted root)
      (fun r => ∀ j ∈ r, ∃ i ∈ root, IsSentOf env i j)
      (fun r => (if r.isSome then 2 else 0) - blocksOf root) := by
  cases root with
  | none =>
    rw [sendResponse]
    exact .ret (fun j h => (by cases h)) rfl
  | some root =>
    have hblocks : blocksOf (some root) = root.blocks := rfl
    rw [sendResponse, hblocks]
    refine (accounts_printRoot env root).bind ?_
    intro text htext
    refine (accounts_cJSONDelete root).bind ?_
    rintro _ -
    cases text with
    | none =>
      refine .ret (fun j h => (by cases h)) ?_
      show (0 : ℤ) - root.blocks - 0 - -root.blocks = 0
      omega
    | some text =>
      obtain ⟨s, hs, hshort, rfl⟩ := htext _ rfl
      have hstring : untilNul (s ++ [0]) = s := untilNul_append (itemText_nulFree _ _ s hs)
      refine (Accounts.allocate malloc).bind ?_
      intro ok _
      cases ok with
      | false =>
        refine (Accounts.release 1).bind fun _ _ => .ret (fun j h => (by cases h)) ?_
        show (0 : ℤ) - root.blocks - 1 - -root.blocks - 0 - -((1 : ℕ) : ℤ) = 0
        omega
      | true =>
        cases accepted with
        | false =>
          refine (Accounts.release 2).bind fun _ _ => .ret (fun j h => (by cases h)) ?_
          show (0 : ℤ) - root.blocks - 1 - -root.blocks - 1 - -((2 : ℕ) : ℤ) = 0
          omega
        | true =>
          refine .ret ?_ ?_
          · rintro _ ⟨⟩
            refine ⟨root, rfl, s, hs, rfl, ?_⟩
            rw [hstring]
            exact UInt32.toNat_ofNat_of_lt' (hshort.trans (by decide))
          · show (2 : ℤ) - root.blocks - 1 - -root.blocks - 1 = 0
            omega

/-- The names of the files at these paths. -/
def fileNames (paths : List (List UInt8)) : List (List UInt8) :=
  paths.map fun path => untilNul (basename path)

theorem untilNul_untilNul (s : List UInt8) : untilNul (untilNul s) = untilNul s :=
  List.takeWhile_idem

theorem accounts_strdupFiles : ∀ paths : List (List UInt8),
    Accounts (strdupFiles malloc paths)
      (fun files => files.length = paths.length ∧
        (files.reduceOption.map untilNul).Sublist (fileNames paths) ∧
        (NeverFails malloc → files.reduceOption.map untilNul = fileNames paths))
      (fun files => (files.filter Option.isSome).length) := by
  intro paths
  induction paths with
  | nil => exact .ret ⟨rfl, .slnil, fun _ => rfl⟩ rfl
  | cons path paths ih =>
    rw [strdupFiles]
    refine (accounts_strdup (basename path)).bind ?_
    rintro file ⟨hfile, hall⟩
    refine ih.bind ?_
    rintro files ⟨hlen, hsub, hfiles⟩
    cases file with
    | none =>
      refine .ret ⟨congrArg (· + 1) hlen, hsub.cons _, fun hm => by cases hall hm⟩ ?_
      show ((files.filter Option.isSome).length : ℤ) - 0 - _ = 0
      omega
    | some s =>
      obtain rfl := hfile s rfl
      have hcons : (some (untilNul (basename path)) :: files).reduceOption.map untilNul =
          untilNul (basename path) :: files.reduceOption.map untilNul := by
        rw [List.reduceOption_cons_of_some, List.map_cons, untilNul_untilNul]
      refine .ret ⟨congrArg (· + 1) hlen, ?_, fun hm => ?_⟩ ?_
      · rw [hcons]
        exact hsub.cons_cons _
      · rw [hcons, hfiles hm]
        rfl
      · show (((files.filter Option.isSome).length + 1 : ℕ) : ℤ) - 1 - _ = 0
        push_cast
        omega

/-- The paths that are looked at. -/
def scannedPaths (glob : Option (List (List UInt8))) : List (List UInt8) :=
  (glob.getD []).take maxAviFiles

theorem accounts_scanAviFiles (glob : Option (List (List UInt8))) :
    Accounts (scanAviFiles malloc glob)
      (fun r => (∀ files ∈ r, (files.getD []).length = (scannedPaths glob).length ∧
          ((files.getD []).reduceOption.map untilNul).Sublist (fileNames (scannedPaths glob)) ∧
          (NeverFails malloc →
            (files.getD []).reduceOption.map untilNul = fileNames (scannedPaths glob))) ∧
        (NeverFails malloc → r.isSome))
      (fun r => fileBlocks r.join) := by
  cases glob with
  | none =>
    refine .ret ⟨?_, fun _ => rfl⟩ rfl
    rintro _ ⟨⟩
    exact ⟨rfl, .slnil, fun _ => rfl⟩
  | some paths =>
    rw [scanAviFiles]
    refine (Accounts.allocate malloc).bind ?_
    intro ok hok
    cases ok with
    | false =>
      refine .ret ⟨fun files h => (by cases h), fun hm => ?_⟩ rfl
      exact absurd (hok hm) (by decide)
    | true =>
      refine (accounts_strdupFiles (paths.take maxAviFiles)).bind ?_
      intro files hfiles
      refine .ret ⟨?_, fun _ => rfl⟩ ?_
      · rintro _ ⟨⟩
        exact hfiles
      · show ((1 + (files.filter Option.isSome).length : ℕ) : ℤ) - 1 - _ = 0
        push_cast
        omega

/-- What the query may answer: the error, or an array of files that were found. -/
def IsAnswer (malloc : ℕ → Bool) (glob : Option (List (List UInt8))) (v : Json Int32 (List UInt8)) :
    Prop :=
  IsFileList malloc (fileNames (scannedPaths glob)) (Int32.ofNat (scannedPaths glob).length) v ∨
    (¬ NeverFails malloc ∧ ∃ l : Members, l.Sublist (responseMembers 1 errorText ++
      [(errCodeKey, .number (-1)), (errMsgKey, .string scanFailedText)]) ∧ v = .object (.ofList l))

theorem IsFileList.of_sublist {names names' : List (List UInt8)} {count : Int32}
    {v : Json Int32 (List UInt8)} (h : IsFileList malloc names count v)
    (hsub : names.Sublist names') (hall : NeverFails malloc → names = names') :
    IsFileList malloc names' count v := by
  obtain ⟨l, c, fs, hl, hfs, hc, hv, hm⟩ := h
  refine ⟨l, c, fs, hl, hfs.trans hsub, hc, hv, fun hnever => ?_⟩
  obtain ⟨h₁, h₂, h₃⟩ := hm hnever
  exact ⟨h₁, h₂.trans (hall hnever), h₃⟩

theorem isSentOf_itemOf {env : PrintEnv} {v : Json Int32 (List UInt8)} {j : SentJson}
    (h : IsSentOf env (itemOf v) j) : j.dataPtr = v.write deviceStyle ++ [0] ∧
      j.totalLen.toNat = (v.write deviceStyle).length := by
  obtain ⟨s, hs, hdata, hlen⟩ := h
  obtain rfl : v.write deviceStyle = s :=
    Option.some_inj.mp ((itemText_deviceStyle env v).symm.trans hs)
  exact ⟨hdata, hlen⟩

theorem accounts_handleQueryFiles (env : PrintEnv) (accepted : Bool)
    (glob : Option (List (List UInt8))) :
    Accounts (handleQueryFiles malloc env accepted glob)
      (fun r => ∀ j ∈ r.2, ∃ v, IsAnswer malloc glob v ∧ IsSentOf env (itemOf v) j)
      (fun r => if r.2.isSome then 2 else 0) := by
  rw [handleQueryFiles]
  refine (accounts_scanAviFiles glob).bind ?_
  rintro (_ | files) ⟨hfiles, hscan⟩
  · have hfails : ¬ NeverFails malloc := fun hm => by cases hscan hm
    refine (accounts_jsonCreateError 1 (-1) scanFailedText (by decide)).bind ?_
    intro root hroot
    refine (accounts_sendResponse env accepted root).bind ?_
    intro sent hsent
    refine .ret ?_ ?_
    · intro j hj
      obtain ⟨⟨fields, child⟩, hi, hj⟩ := hsent j hj
      obtain ⟨rfl, l, hl, rfl, -⟩ := hroot _ hi
      exact ⟨.object (.ofList l), .inr ⟨hfails, l, hl, rfl⟩, hj⟩
    · have hbalance : ∀ k b : ℤ, k - ((0 : ℕ) : ℤ) - b - (k - b) = 0 := by
        intro k b
        omega
      exact hbalance _ _
  · obtain ⟨hlen, hsub, hall⟩ := hfiles files rfl
    refine (accounts_jsonCreateFilelist (files.getD [])).bind ?_
    rintro root ⟨hroot, -⟩
    refine (Accounts.release _).bind ?_
    rintro _ -
    refine (accounts_sendResponse env accepted root).bind ?_
    intro sent hsent
    refine .ret ?_ ?_
    · intro j hj
      obtain ⟨i, hi, hj⟩ := hsent j hj
      obtain ⟨v, hv, rfl⟩ := hroot i hi
      rw [hlen] at hv
      exact ⟨v, .inl (hv.of_sublist hsub hall), hj⟩
    · have hbalance : ∀ k f b : ℤ, k - f - b - -f - (k - b) = 0 := by
        intro k f b
        omega
      exact hbalance _ _ _

/-- **The query for the files**, whatever fails: nothing leaks and nothing is freed twice, as two
blocks are left where a response is sent, and none where it is not.  What is sent is the text of
an answer. -/
theorem handleQueryFiles_accounts (malloc : ℕ → Bool) (env : PrintEnv) (accepted : Bool)
    (glob : Option (List (List UInt8))) (h : Heap) :
    ((handleQueryFiles malloc env accepted glob h).2.live =
      h.live + if (handleQueryFiles malloc env accepted glob h).1.2.isSome then 2 else 0) ∧
    ∀ j ∈ (handleQueryFiles malloc env accepted glob h).1.2, ∃ v, IsAnswer malloc glob v ∧
      j.dataPtr = v.write deviceStyle ++ [0] ∧
      j.totalLen.toNat = (v.write deviceStyle).length := by
  obtain ⟨hsent, hlive⟩ := accounts_handleQueryFiles env accepted glob h
  refine ⟨hlive, fun j hj => ?_⟩
  obtain ⟨v, hv, hj⟩ := hsent j hj
  exact ⟨v, hv, isSentOf_itemOf hj⟩

end Built

end Sentry
