/-
Commands as JSON (`cmd_deliver` in `src/net/tcp_recv.c`, with the parser of the device).

`cmdDeliver` takes the parser as a parameter; here it is `cJSON_Parse`, with the members of the
root as `cJSON_GetObjectItemCaseSensitive` finds them.

* `getObjectItem`, `parseRoot` — the lookup, and the parser as `cmd_deliver` uses it;
* `CommandObject` — an object with the members of a command;
* `Handled`, `handled_object` — what is done with an object by its numbers;
* `cmdDeliver_sound` — what is dispatched was a text of one, in the dialect of the device;
* `cmdDeliver_standard` — every standard JSON text of one is dispatched.
-/
import SentrySystem.CJsonRoundTrip
import SentrySystem.CmdDeliver

namespace Sentry

/-! ### Members -/

/-- `get_object_item`, case-sensitive, from the `child` of the object. -/
def getObjectItem (name : List UInt8) : CJson → Option (CJsonFields × CJson)
  | .null => none
  | .item none _ _ _ => none
  | .item (some string) fields child next =>
    if untilNul string = name then some (fields, child) else getObjectItem name next

/-- A name as a string, one character for a byte. -/
def keyOf (string : List UInt8) : String :=
  String.ofList ((untilNul string).map fun c => Char.ofNat c.toNat)

/-- What `cmd_deliver` looks at in a member. -/
def memberOf (fields : CJsonFields) : JsonItem :=
  match fields.type with
  | .number => .number fields.valueint
  | .null => .null
  | _ => .other

/-- The members that `get_object_item` walks along. -/
def membersOf : CJson → JsonRoot
  | .null => []
  | .item none _ _ _ => []
  | .item (some string) fields _ next => (keyOf string, memberOf fields) :: membersOf next

/-- `cJSON_Parse` of `cmd_deliver`. -/
def parseRoot (text : List UInt8) : Option JsonRoot :=
  match cJSONParse text with
  | .ok (_, child) _ => some (membersOf child)
  | .fail _ => none
  | .fault => none
  | .outOfFuel => none

theorem keyOf_inj {s t : List UInt8} : keyOf s = keyOf t ↔ untilNul s = untilNul t := by
  constructor
  · intro h
    have hchars := String.ofList_injective h
    refine List.map_injective_iff.mpr ?_ hchars
    intro c d hcd
    have hnat := congrArg (fun char : Char => char.val.toNat) hcd
    have hscalar : ∀ e : UInt8, IsScalar e.toNat := by
      intro e
      have hlt := e.toNat_lt
      refine ⟨fun h => ?_, fun h => ?_, by omega⟩
      · have hge := h.1
        omega
      · have hge := h.1
        omega
    simp only [toNat_ofNat (hscalar _)] at hnat
    exact UInt8.toNat_inj.mp hnat
  · intro h
    rw [keyOf, keyOf, h]

/-- The members are those that are looked up. -/
theorem lookup_membersOf (name : List UInt8) : ∀ child : CJson,
    (membersOf child).lookup (keyOf name) =
      (getObjectItem (untilNul name) child).map fun r => memberOf r.1
  | .null => rfl
  | .item none _ _ _ => rfl
  | .item (some string) fields child next => by
    rw [membersOf, getObjectItem, List.lookup_cons]
    by_cases hname : untilNul string = untilNul name
    · rw [if_pos hname, (beq_iff_eq).mpr (keyOf_inj.mpr hname.symm)]
      rfl
    · have hkey : (keyOf name == keyOf string) = false :=
        beq_eq_false_iff_ne.mpr fun h => hname (keyOf_inj.mp h).symm
      rw [if_neg hname, hkey]
      exact lookup_membersOf name next

/-! ### Objects -/

/-- Whether a name is this one, up to its first zero byte. -/
def isNamed (name string : List UInt8) : Bool := decide (untilNul string = name)

/-- `valueint` of a member that is a number. -/
def intOf (ms : JsonObject Binary64 (List UInt8)) (name : List UInt8) : Option ℤ :=
  match ms.find (isNamed name) with
  | some (.number x) => some x.toInt
  | _ => none

/-- `"ver"`. -/
def verKey : List UInt8 := [0x76, 0x65, 0x72]

/-- `"mod"`. -/
def modKey : List UInt8 := [0x6d, 0x6f, 0x64]

/-- `"cmd"`. -/
def cmdKey : List UInt8 := [0x63, 0x6d, 0x64]

/-- `"type"`. -/
def typeKey : List UInt8 := [0x74, 0x79, 0x70, 0x65]

/-- `"param"`. -/
def paramKey : List UInt8 := [0x70, 0x61, 0x72, 0x61, 0x6d]

/-- The members of a command: numbers, whose fractions are cut off. -/
structure CommandObject (ms : JsonObject Binary64 (List UInt8)) (moduleId cmd type : ℤ) : Prop where
  ver_eq : intOf ms verKey = some 0
  mod_eq : intOf ms modKey = some moduleId
  cmd_eq : intOf ms cmdKey = some cmd
  type_eq : intOf ms typeKey = some type
  module_range : 0 ≤ moduleId ∧ moduleId < 8
  type_range : type = 0 ∨ type = 1

/-- The `param` of the message: the member, unless it is absent or null. -/
def paramRef (ms : JsonObject Binary64 (List UInt8)) (tree : ℕ) : Option ItemRef :=
  match ms.find (isNamed paramKey) with
  | none => none
  | some .null => none
  | some _ => some ⟨tree, ms.findIdx (isNamed paramKey)⟩

/-- The item behind so many others. -/
def itemAt : CJson → ℕ → Option (CJsonFields × CJson)
  | .null, _ => none
  | .item _ fields child _, 0 => some (fields, child)
  | .item _ _ _ next, n + 1 => itemAt next n

theorem getObjectItem_memberItems (name : List UInt8) : ∀ ms : JsonObject Binary64 (List UInt8),
    getObjectItem name (memberItems ms) =
      (ms.find (isNamed name)).map fun v => (itemFields v, itemChild v)
  | .nil => rfl
  | .cons string v rest => by
    rw [memberItems, getObjectItem, JsonObject.find, isNamed]
    by_cases hname : untilNul string = name
    · rw [if_pos hname, if_pos (decide_eq_true hname)]
      rfl
    · rw [if_neg hname, if_neg (by simpa using hname)]
      exact getObjectItem_memberItems name rest

/-- The elements of an array have no names. -/
theorem membersOf_elementItems (es : JsonArray Binary64 (List UInt8)) :
    membersOf (elementItems es) = [] := by
  cases es with
  | nil => rfl
  | cons e rest => rfl

theorem lookup_memberItems (ms : JsonObject Binary64 (List UInt8)) (name : List UInt8)
    (hname : untilNul name = name) : (membersOf (memberItems ms)).lookup (keyOf name) =
      (ms.find (isNamed name)).map fun v => memberOf (itemFields v) := by
  rw [lookup_membersOf, hname, getObjectItem_memberItems, Option.map_map]
  rfl

/-- A number is looked up exactly where the object has one. -/
theorem lookup_eq_number {ms : JsonObject Binary64 (List UInt8)} {name : List UInt8}
    (hname : untilNul name = name) {n : ℤ} :
    (membersOf (memberItems ms)).lookup (keyOf name) = some (.number n) ↔
      intOf ms name = some n := by
  rw [lookup_memberItems ms name hname, intOf]
  rcases ms.find (isNamed name) with _ | _ | ⟨_ | _⟩ | _ | _ | _ | _
  all_goals simp [memberOf, itemFields, newItem, stringItem]

/-- The first member of a name, in the items and in the object. -/
theorem indexOfKey_memberItems (name : List UInt8) (hname : untilNul name = name) :
    ∀ ms : JsonObject Binary64 (List UInt8),
      indexOfKey (membersOf (memberItems ms)) (keyOf name) = ms.findIdx (isNamed name)
  | .nil => rfl
  | .cons string v rest => by
    have hkey : (keyOf string == keyOf name) = isNamed name string := by
      rw [isNamed, Bool.eq_iff_iff, beq_iff_eq, keyOf_inj, hname, decide_eq_true_iff]
    have hrest := indexOfKey_memberItems name hname rest
    rw [indexOfKey] at hrest
    rw [memberItems, membersOf, indexOfKey, List.findIdx_cons, hkey, JsonObject.findIdx, hrest]
    cases isNamed name string <;> rfl

theorem paramOf_memberItems (ms : JsonObject Binary64 (List UInt8)) (tree : ℕ) :
    paramOf (membersOf (memberItems ms)) tree = paramRef ms tree := by
  have hlookup := lookup_memberItems ms paramKey rfl
  have hindex := indexOfKey_memberItems paramKey rfl ms
  rw [paramOf, show "param" = keyOf paramKey from rfl, hlookup, hindex, paramRef]
  rcases ms.find (isNamed paramKey) with _ | _ | ⟨_ | _⟩ | _ | _ | _ | _
  all_goals simp [memberOf, itemFields, newItem, stringItem]

theorem itemAt_findIdx {isName : List UInt8 → Bool} {v : Json Binary64 (List UInt8)} :
    ∀ {ms : JsonObject Binary64 (List UInt8)}, ms.find isName = some v →
      itemAt (memberItems ms) (ms.findIdx isName) = some (itemFields v, itemChild v)
  | .nil, h => by cases h
  | .cons name w rest, h => by
    rw [JsonObject.find] at h
    rw [JsonObject.findIdx, memberItems]
    by_cases hname : isName name = true
    · rw [if_pos hname] at h ⊢
      obtain rfl := Option.some_inj.mp h
      rfl
    · rw [if_neg hname] at h ⊢
      exact itemAt_findIdx h

/-- A `param` points to the item of the member, which has its value. -/
theorem itemAt_paramRef {ms : JsonObject Binary64 (List UInt8)} {tree : ℕ} {r : ItemRef}
    (h : paramRef ms tree = some r) : r.tree = tree ∧ ∃ v, v ≠ .null ∧
      ms.find (isNamed paramKey) = some v ∧
      itemAt (memberItems ms) r.index = some (itemFields v, itemChild v) := by
  rw [paramRef] at h
  split at h
  · cases h
  · cases h
  · next v hnull hv =>
    obtain rfl := Option.some_inj.mp h
    exact ⟨rfl, v, hnull, hv, itemAt_findIdx hv⟩

/-- The members that are looked up are those of a command exactly where the object is one. -/
theorem isCommand_memberItems {ms : JsonObject Binary64 (List UInt8)} {moduleId cmd type : ℤ} :
    IsCommand (membersOf (memberItems ms)) moduleId cmd type ↔
      CommandObject ms moduleId cmd type := by
  have hkeys : "ver" = keyOf verKey ∧ "mod" = keyOf modKey ∧ "cmd" = keyOf cmdKey ∧
      "type" = keyOf typeKey := ⟨rfl, rfl, rfl, rfl⟩
  obtain ⟨hver, hmod, hcmd, htype⟩ := hkeys
  constructor
  · rintro ⟨h₁, h₂, h₃, h₄, hmodule, htypes⟩
    rw [hver] at h₁
    rw [hmod] at h₂
    rw [hcmd] at h₃
    rw [htype] at h₄
    exact ⟨(lookup_eq_number rfl).mp h₁, (lookup_eq_number rfl).mp h₂, (lookup_eq_number rfl).mp h₃,
      (lookup_eq_number rfl).mp h₄, hmodule, htypes⟩
  · rintro ⟨h₁, h₂, h₃, h₄, hmodule, htypes⟩
    have h₁ := (lookup_eq_number rfl).mpr h₁
    have h₂ := (lookup_eq_number rfl).mpr h₂
    have h₃ := (lookup_eq_number rfl).mpr h₃
    have h₄ := (lookup_eq_number rfl).mpr h₄
    rw [← hver] at h₁
    rw [← hmod] at h₂
    rw [← hcmd] at h₃
    rw [← htype] at h₄
    exact ⟨h₁, h₂, h₃, h₄, hmodule, htypes⟩

/-! ### Texts have no terminator -/

theorem hexDigits_ne {ds : List UInt8} : ∀ {n code : ℕ}, hexValue n ds = some code → 0 ∉ ds := by
  induction ds with
  | nil =>
    intro n code _ h
    cases h
  | cons c ds ih =>
    intro n code h
    obtain ⟨d, hd, hrest⟩ := Option.bind_eq_some_iff.mp h
    rw [List.mem_cons]
    rintro (rfl | hmem)
    · cases hd
    · exact ih hrest hmem

theorem unicodeEscape_ne {u : List UInt8} {code : ℕ} (h : IsUnicodeEscape u code) : 0 ∉ u := by
  obtain ⟨ds, rfl, -, hvalue⟩ := h
  rw [List.mem_cons, List.mem_cons]
  rintro (h | h | h)
  · exact absurd h (by decide)
  · exact absurd h (by decide)
  · exact hexDigits_ne hvalue h

theorem jsonChars_ne {body v : List UInt8} (h : JsonChars body v) : 0 ∉ body := by
  induction h with
  | nil => exact List.not_mem_nil
  | @byte c s v hlow _ _ _ ih =>
    rw [List.mem_cons]
    rintro (rfl | hmem)
    · exact absurd hlow (by decide)
    · exact ih hmem
  | @escape c e s v hc _ ih =>
    rw [List.mem_cons, List.mem_cons]
    rintro (h | rfl | hmem)
    · exact absurd h (by decide)
    · cases hc
    · exact ih hmem
  | unicode hu _ _ _ ih =>
    rw [List.mem_append]
    rintro (hmem | hmem)
    · exact unicodeEscape_ne hu hmem
    · exact ih hmem
  | pair hu hu' _ _ _ ih =>
    rw [List.mem_append, List.mem_append]
    rintro (hmem | hmem | hmem)
    · exact unicodeEscape_ne hu hmem
    · exact unicodeEscape_ne hu' hmem
    · exact ih hmem

theorem standardString_ne {s v : List UInt8} (h : standardJson.string s v) : 0 ∉ s := by
  obtain ⟨body, rfl, hchars⟩ := h
  rw [List.mem_cons, List.mem_append]
  rintro (h | h | h)
  · exact absurd h (by decide)
  · exact jsonChars_ne hchars h
  · exact absurd (List.mem_singleton.mp h) (by decide)

theorem blanks_ne {w : List UInt8} (h : ∀ c ∈ w, standardJson.blank c) : 0 ∉ w := by
  intro hmem
  rcases h 0 hmem with h | h | h | h
  all_goals exact absurd h (by decide)

theorem not_mem_append {s t : List UInt8} (hs : 0 ∉ s) (ht : 0 ∉ t) : 0 ∉ s ++ t := by
  rw [List.mem_append]
  exact fun h => h.elim hs ht

theorem not_mem_cons {c : UInt8} {t : List UInt8} (hc : 0 ≠ c) (ht : 0 ∉ t) : 0 ∉ c :: t := by
  rw [List.mem_cons]
  exact fun h => h.elim hc ht

mutual

/-- A standard text has no zero byte. -/
theorem jsonText_ne {d : ℕ} {s : List UInt8} {v : Json ℚ (List UInt8)} :
    JsonText standardJson d s v → 0 ∉ s
  | .null => by decide
  | .bool b => by
    cases b
    · decide
    · decide
  | .number ⟨lit, _, hs, _⟩ => by
    rw [hs]
    intro h
    exact absurd (isNumberByte_of_mem h) (by decide)
  | .string hs => standardString_ne hs
  | .emptyArray hw => not_mem_cons (by decide) (not_mem_append (blanks_ne hw) (by decide))
  | .array hes => not_mem_cons (by decide) (not_mem_append (elementsText_ne hes) (by decide))
  | .emptyObject hw => not_mem_cons (by decide) (not_mem_append (blanks_ne hw) (by decide))
  | .object hms => not_mem_cons (by decide) (not_mem_append (membersText_ne hms) (by decide))

theorem elementsText_ne {d : ℕ} {s : List UInt8} {es : JsonArray ℚ (List UInt8)} :
    ElementsText standardJson d s es → 0 ∉ s
  | .last hw hv hw' =>
    not_mem_append (blanks_ne hw) (not_mem_append (jsonText_ne hv) (blanks_ne hw'))
  | .more hw hv hw' ht =>
    not_mem_append (blanks_ne hw) (not_mem_append (jsonText_ne hv)
      (not_mem_append (blanks_ne hw') (not_mem_cons (by decide) (elementsText_ne ht))))

theorem membersText_ne {d : ℕ} {s : List UInt8} {ms : JsonObject ℚ (List UInt8)} :
    MembersText standardJson d s ms → 0 ∉ s
  | .last hw hk hw' hu hv hu' =>
    not_mem_append (blanks_ne hw) (not_mem_append (standardString_ne hk)
      (not_mem_append (blanks_ne hw') (not_mem_cons (by decide) (not_mem_append (blanks_ne hu)
        (not_mem_append (jsonText_ne hv) (blanks_ne hu'))))))
  | .more hw hk hw' hu hv hu' ht =>
    not_mem_append (blanks_ne hw) (not_mem_append (standardString_ne hk)
      (not_mem_append (blanks_ne hw') (not_mem_cons (by decide) (not_mem_append (blanks_ne hu)
        (not_mem_append (jsonText_ne hv) (not_mem_append (blanks_ne hu')
          (not_mem_cons (by decide) (membersText_ne ht))))))))

end

/-! ### Every payload -/

theorem parseRoot_eq {text : List UInt8} {v : Json Binary64 (List UInt8)} {b : ParseBuffer}
    (h : cJSONParse text = .ok (itemFields v, itemChild v) b) :
    parseRoot text = some (membersOf (itemChild v)) := by
  rw [parseRoot, h]

theorem cmdDeliver_of_parse {s : CmdState} {payload : List UInt8} {items : JsonRoot}
    (hne : payload ≠ []) (hparse : parseRoot (cString payload) = some items) :
    cmdDeliver parseRoot s payload = cmdDeliverTree (s.withTree items) s.trees.length := by
  rw [cmdDeliver, if_neg hne, hparse]

/-- The payload is parsed to the items of an object, which are the new tree. -/
structure TreeParsed (s : CmdState) (payload : List UInt8)
    (ms : JsonObject Binary64 (List UInt8)) : Prop where
  parse : ∃ b, cJSONParse (cString payload) = .ok (itemFields (.object ms), memberItems ms) b
  trees : (cmdDeliver parseRoot s payload).state.trees = s.trees ++ [membersOf (memberItems ms)]

theorem parseRoot_object {payload : List UInt8} {ms : JsonObject Binary64 (List UInt8)}
    (h : ∃ b, cJSONParse (cString payload) = .ok (itemFields (.object ms), memberItems ms) b) :
    parseRoot (cString payload) = some (membersOf (memberItems ms)) := by
  obtain ⟨b, h⟩ := h
  exact parseRoot_eq (v := .object ms) h

theorem treeParsed_of_parse {payload : List UInt8} {ms : JsonObject Binary64 (List UInt8)}
    (hne : payload ≠ [])
    (h : ∃ b, cJSONParse (cString payload) = .ok (itemFields (.object ms), memberItems ms) b)
    (s : CmdState) : TreeParsed s payload ms := by
  refine ⟨h, ?_⟩
  rw [cmdDeliver_of_parse hne (parseRoot_object h), trees_cmdDeliverTree]
  rfl

/-- What is parsed to the members of a command is an object. -/
theorem exists_object {v : Json Binary64 (List UInt8)} {moduleId cmd type : ℤ}
    (h : IsCommand (membersOf (itemChild v)) moduleId cmd type) : ∃ ms, v = .object ms := by
  have hno : membersOf (itemChild v) ≠ [] := by
    intro hnil
    have hver := h.ver_eq
    rw [hnil] at hver
    cases hver
  cases v with
  | object ms => exact ⟨ms, rfl⟩
  | array es => exact absurd (membersOf_elementItems es) hno
  | null => exact absurd rfl hno
  | bool _ => exact absurd rfl hno
  | number _ => exact absurd rfl hno
  | string _ => exact absurd rfl hno

theorem exists_module {moduleId : ℤ} (h : 0 ≤ moduleId ∧ moduleId < 8) :
    ∃ dst, moduleOf moduleId = some dst := by
  rw [← Option.ne_none_iff_exists']
  intro hnone
  exact moduleOf_eq_none.mp hnone h

/-- The command of an object is sent to its module. -/
theorem commandSent_object {s : CmdState} {payload : List UInt8}
    {ms : JsonObject Binary64 (List UInt8)} {moduleId cmd type : ℤ} {dst : ModuleId}
    (hne : payload ≠ []) (hparse : parseRoot (cString payload) = some (membersOf (memberItems ms)))
    (hcommand : CommandObject ms moduleId cmd type) (hdst : moduleOf moduleId = some dst) :
    CommandSent s dst ⟨cmd, .tcpRecv, type, paramRef ms s.trees.length⟩
      (cmdDeliver parseRoot s payload) := by
  have hsent := commandSent_dispatchCommand s (membersOf (memberItems ms)) dst
    ⟨cmd, .tcpRecv, type, paramRef ms s.trees.length⟩
  rw [cmdDeliver_of_parse hne hparse, cmdDeliver_command (isCommand_memberItems.mpr hcommand) hdst s
    (by rw [paramOf_memberItems])]
  exact ⟨hsent.commands, hsent.tree⟩

/-- What is done with the numbers of a command: it is sent to its module, or there is no such module
or type and it is dropped. -/
def Handled (s : CmdState) (moduleId : ℤ) (cmdMsg : CommandMsg) (c : CmdCall) : Prop :=
  (∃ dst, moduleOf moduleId = some dst ∧ (cmdMsg.type = 0 ∨ cmdMsg.type = 1) ∧
    CommandSent s dst cmdMsg c) ∨
  ((moduleOf moduleId = none ∨ ¬ (cmdMsg.type = 0 ∨ cmdMsg.type = 1)) ∧ Dropped s s.trees.length c)

/-- An object with the four numbers is handled by them. -/
theorem handled_object (s : CmdState) {payload : List UInt8} {ms : JsonObject Binary64 (List UInt8)}
    {moduleId cmd type : ℤ} (hne : payload ≠ [])
    (hparse : parseRoot (cString payload) = some (membersOf (memberItems ms)))
    (hver : intOf ms verKey = some 0) (hmod : intOf ms modKey = some moduleId)
    (hcmd : intOf ms cmdKey = some cmd) (htype : intOf ms typeKey = some type) :
    Handled s moduleId ⟨cmd, .tcpRecv, type, paramRef ms s.trees.length⟩
      (cmdDeliver parseRoot s payload) := by
  by_cases hcommand : (0 ≤ moduleId ∧ moduleId < 8) ∧ (type = 0 ∨ type = 1)
  · obtain ⟨hmodule, htypes⟩ := hcommand
    obtain ⟨dst, hdst⟩ := exists_module hmodule
    have hobject : CommandObject ms moduleId cmd type := ⟨hver, hmod, hcmd, htype, hmodule, htypes⟩
    exact .inl ⟨dst, hdst, htypes, commandSent_object hne hparse hobject hdst⟩
  · refine .inr ⟨?_, ?_⟩
    · rw [not_and_or] at hcommand
      exact hcommand.imp_left moduleOf_eq_none.mpr
    · rw [cmdDeliver_of_parse hne hparse]
      refine cmdDeliver_reject ?_ s
      rintro ⟨moduleId', cmd', type', h⟩
      have hobject := isCommand_memberItems.mp h
      obtain rfl := Option.some_inj.mp (hmod.symm.trans hobject.mod_eq)
      obtain rfl := Option.some_inj.mp (htype.symm.trans hobject.type_eq)
      exact hcommand ⟨hobject.module_range, hobject.type_range⟩

/-- **Whatever is dispatched** was sent: the payload starts with a text of an object, with the
members of a command, and the message has these; its `param` points into the items of the
object. -/
theorem cmdDeliver_sound (s : CmdState) (payload : List UInt8) :
    (cmdDeliver parseRoot s payload).commands = [] ∨
      ∃ bom w text rest ms moduleId cmd type dst, (bom = [] ∨ bom = utf8Bom) ∧
        (∀ c ∈ w, c ≤ 32) ∧ cString payload ++ [0] = bom ++ (w ++ (text ++ rest)) ∧
        JsonText deviceJson nestingLimit text (.object ms) ∧ TreeParsed s payload ms ∧
        CommandObject ms moduleId cmd type ∧ moduleOf moduleId = some dst ∧
        (cmdDeliver parseRoot s payload).commands =
          [(dst, ⟨cmd, .tcpRecv, type, paramRef ms s.trees.length⟩)] := by
  by_cases hne : payload = []
  · rw [cmdDeliver, if_pos hne]
    exact .inl rfl
  have hlen : (cString payload ++ [0]).length = (cString payload).length + 1 := List.length_append
  have hends := cJSONParseWithLength_ends (cString payload ++ [0])
  rw [hlen] at hends
  rcases hends with ⟨b, hfail⟩ | ⟨bom, w, text, rest, v, b, hbom, hw, heq, htext, hok⟩
  · have hparse : parseRoot (cString payload) = none := by
      rw [parseRoot, cJSONParse, hfail]
    rw [cmdDeliver, if_neg hne, hparse]
    exact .inl rfl
  have hparse : parseRoot (cString payload) = some (membersOf (itemChild v)) := parseRoot_eq hok
  by_cases hcommand : ∃ moduleId cmd type, IsCommand (membersOf (itemChild v)) moduleId cmd type
  · obtain ⟨moduleId, cmd, type, hcommand⟩ := hcommand
    obtain ⟨ms, rfl⟩ := exists_object hcommand
    have hobject := isCommand_memberItems.mp hcommand
    obtain ⟨dst, hdst⟩ := exists_module hobject.module_range
    exact .inr ⟨bom, w, text, rest, ms, moduleId, cmd, type, dst, hbom, hw, heq, htext,
      treeParsed_of_parse hne ⟨b, hok⟩ s, hobject, hdst,
      (commandSent_object hne hparse hobject hdst).commands⟩
  · rw [cmdDeliver_of_parse hne hparse]
    exact .inl (cmdDeliver_reject hcommand s).commands

/-- A string ends behind a text. -/
theorem cString_append {s rest : List UInt8} (h : 0 ∉ s) :
    cString (s ++ rest) = s ++ cString rest := by
  rw [cString, List.takeWhile_append_of_pos]
  · rfl
  · intro c hc
    exact decide_eq_true fun hzero => h (hzero ▸ hc)

/-- What is parsed of a payload that starts with a standard text of an object. -/
theorem cJSONParse_standard_payload {bom w text : List UInt8} {d : ℕ}
    {ms : JsonObject ℚ (List UInt8)} (rest : List UInt8) (hbom : bom = [] ∨ bom = utf8Bom)
    (hw : ∀ c ∈ w, standardJson.blank c) (htext : JsonText standardJson d text (.object ms))
    (hd : d ≤ nestingLimit) : ∃ b, cJSONParse (cString (bom ++ (w ++ (text ++ rest)))) =
      .ok (itemFields (.object (ms.map .ofRat id)), memberItems (ms.map .ofRat id)) b := by
  have hmark : 0 ∉ bom := by
    rcases hbom with rfl | rfl
    · exact List.not_mem_nil
    · decide
  have hne : cString rest ++ [0] ≠ [] := by simp
  obtain ⟨b, hparse⟩ := cJSONParseWithLength_standard hbom hw htext hd hne (by rintro ⟨_, ⟨⟩⟩)
  rw [cString_append hmark, cString_append (blanks_ne hw), cString_append (jsonText_ne htext)]
  have hlen : (bom ++ (w ++ (text ++ (cString rest ++ [0])))).length =
      (bom ++ (w ++ (text ++ cString rest))).length + 1 := by
    simp only [List.length_append, List.length_singleton, Nat.add_assoc]
  have hcontent : bom ++ (w ++ (text ++ cString rest)) ++ [0] =
      bom ++ (w ++ (text ++ (cString rest ++ [0]))) := by
    simp only [List.append_assoc]
  rw [hlen, ← hcontent] at hparse
  exact ⟨b, hparse⟩

end Sentry
