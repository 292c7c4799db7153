/-
The parser of the device (`src/json/cJSON.c`).

The functions work on a `parse_buffer`, whose memory is the string with its terminator; a read
behind it is a fault, and so is a byte written behind an allocation.  No allocation fails.

* `CJson` — the items, linked by `child` and `next`;
* `ParseBuffer`, `Parse` — the buffer, and the calls on it;
* `parseNumber`, `parseString` — numbers and strings;
* `parseValue`, `parseArray`, `parseObject` — the recursion, cut off by fuel;
* `cJSONParse` — `cJSON_Parse`.
-/
import SentrySystem.Lib.Binary64
import SentrySystem.Lib.Checked
import SentrySystem.Lib.Json

namespace Sentry

/-! ### Items -/

/-- `type`, without the flags, which no item of the device has. -/
inductive CJsonType
  | invalid
  | false
  | true
  | null
  | number
  | string
  | array
  | object
  deriving DecidableEq

/-- The members of an item that are no pointers to items. -/
structure CJsonFields where
  type : CJsonType
  valuestring : Option (List UInt8)
  valueint : ℤ
  valuedouble : Binary64

/-- What `cJSON_New_Item` makes. -/
def newItem : CJsonFields := ⟨.invalid, none, 0, .finite 0⟩

/-- A pointer to an item; `prev` only finds the last item of a list. -/
inductive CJson
  | null
  | item (string : Option (List UInt8)) (fields : CJsonFields) (child next : CJson)

/-! ### The buffer -/

/-- `parse_buffer`. -/
structure ParseBuffer where
  content : List UInt8
  length : ℕ
  offset : ℕ
  depth : ℕ

/-- `CJSON_NESTING_LIMIT`. -/
def nestingLimit : ℕ := 1000

namespace ParseBuffer

/-- `can_read`. -/
def canRead (b : ParseBuffer) (size : ℕ) : Bool := decide (b.offset + size ≤ b.length)

/-- `can_access_at_index`. -/
def canAccessAtIndex (b : ParseBuffer) (index : ℕ) : Bool := decide (b.offset + index < b.length)

/-- The bytes that may be accessed. -/
def ahead (b : ParseBuffer) : List UInt8 := (b.content.take b.length).drop b.offset

end ParseBuffer

/-- A call on the buffer. -/
abbrev Parse (α : Type) := Checked ParseBuffer α

/-- The byte at an address. -/
def byteAt (address : ℕ) : Parse UInt8 := fun b =>
  match b.content[address]? with
  | some c => .ok c b
  | none => .fault

/-- `buffer_at_offset(input_buffer)[index]`. -/
def bufferAtOffset (index : ℕ) : Parse UInt8 := fun b => byteAt (b.offset + index) b

/-- `input_buffer->offset += n`. -/
def advance (n : ℕ) : Parse PUnit := Checked.modify fun b => { b with offset := b.offset + n }

/-- `input_buffer->offset--`. -/
def stepBack : Parse PUnit := Checked.modify fun b => { b with offset := b.offset - 1 }

/-- `return false`, with the offset at the error. -/
def failAt {α : Type} (offset : ℕ) : Parse α := fun b => .fail { b with offset := offset }

/-- Whether the buffer goes on with `word`: `can_read` and `strncmp`. -/
def startsWith (word : List UInt8) : Parse Bool := fun b =>
  if b.canRead word.length then
    if b.offset + word.length ≤ b.content.length then
      .ok (decide ((b.content.drop b.offset).take word.length = word)) b
    else .fault
  else .ok false b

/-- Whether the next byte can be accessed and is `c`. -/
def nextIs (c : UInt8) : Parse Bool := do
  if (← Checked.get).canAccessAtIndex 0 then
    return decide ((← bufferAtOffset 0) = c)
  else return false

/-- `buffer_skip_whitespace`; at the end it steps back. -/
def bufferSkipWhitespace : Parse PUnit := Checked.modify fun b =>
  if b.canAccessAtIndex 0 then
    let offset := b.offset + (b.ahead.takeWhile fun c => decide (c ≤ 32)).length
    { b with offset := if offset = b.length then offset - 1 else offset }
  else b

/-- `skip_utf8_bom`. -/
def skipUtf8Bom : Parse PUnit := do
  if (← Checked.get).canAccessAtIndex 4 then
    if ← startsWith [0xef, 0xbb, 0xbf] then advance 3

/-! ### Numbers -/

/-- `strtod` of a string of number bytes: the number, and how many bytes it takes. -/
def strtod (s : List UInt8) : Option (Binary64 × ℕ) :=
  (scanDecimal s).map fun r => (.ofRat r.1.value, s.length - r.2.length)

/-- `parse_number`. -/
def parseNumber : Parse CJsonFields := fun b =>
  match strtod (b.ahead.takeWhile isNumberByte) with
  | none => .fail b
  | some (number, n) =>
    .ok { newItem with type := .number, valuedouble := number, valueint := number.toInt }
      { b with offset := b.offset + n }

/-! ### Strings -/

/-- The first loop of `parse_string`: the bytes in front of the closing quote, and the
`skipped_bytes` among them. -/
def scanString : List UInt8 → Option (ℕ × ℕ)
  | [] => none
  | c :: rest =>
    if c = Ascii.quote then some (0, 0)
    else if c = Ascii.backslash then
      match rest with
      | [] => none
      | _ :: rest => (scanString rest).map fun r => (r.1 + 2, r.2 + 1)
    else (scanString rest).map fun r => (r.1 + 1, r.2)

/-- `parse_hex4`, with `n` digits to go: 0 when one of them is none. -/
def parseHex4 : (n : ℕ) → (input h : ℕ) → Parse ℕ
  | 0, _, h => pure h
  | n + 1, input, h => do
    match hexDigit (← byteAt input) with
    | none => return 0
    | some d => parseHex4 n (input + 1) (if n = 0 then h + d else (h + d) <<< 4)

/-- The loop that encodes a codepoint, down to its first byte: what is left of the codepoint, and
the bytes. -/
def encodeRest : ℕ → ℕ → List UInt8 → ℕ × List UInt8
  | 0, codepoint, rest => (codepoint, rest)
  | n + 1, codepoint, rest =>
    encodeRest n (codepoint >>> 6) (UInt8.ofNat ((codepoint ||| 0x80) &&& 0xBF) :: rest)

/-- The bytes of a codepoint, `none` above 0x10FFFF. -/
def encodeUtf8 (codepoint : ℕ) : Option (List UInt8) :=
  let encode (utf8Length firstByteMark : ℕ) : List UInt8 :=
    let r := encodeRest (utf8Length - 1) codepoint []
    UInt8.ofNat ((r.1 ||| firstByteMark) &&& 0xFF) :: r.2
  if codepoint < 0x80 then some [UInt8.ofNat (codepoint &&& 0x7F)]
  else if codepoint < 0x800 then some (encode 2 0xC0)
  else if codepoint < 0x10000 then some (encode 3 0xE0)
  else if codepoint ≤ 0x10FFFF then some (encode 4 0xF0)
  else none

/-- `utf16_literal_to_utf8`: the length of the sequence and the bytes, `none` when it fails. -/
def utf16LiteralToUtf8 (input inputEnd : ℕ) : Parse (Option (ℕ × List UInt8)) := do
  if inputEnd < input + 6 then return none
  else
    let firstCode ← parseHex4 4 (input + 2) 0
    if 0xDC00 ≤ firstCode ∧ firstCode ≤ 0xDFFF then return none
    else if 0xD800 ≤ firstCode ∧ firstCode ≤ 0xDBFF then
      if inputEnd < input + 12 then return none
      else if (← byteAt (input + 6)) ≠ Ascii.backslash then return none
      else if (← byteAt (input + 7)) ≠ 0x75 then return none
      else
        let secondCode ← parseHex4 4 (input + 8) 0
        if secondCode < 0xDC00 ∨ 0xDFFF < secondCode then return none
        else
          let codepoint := 0x10000 + (((firstCode &&& 0x3FF) <<< 10) ||| (secondCode &&& 0x3FF))
          return (encodeUtf8 codepoint).map fun bytes => (12, bytes)
    else return (encodeUtf8 firstCode).map fun bytes => (6, bytes)

/-- Bytes stored at `output_pointer`, behind `output` in an allocation of `size` bytes. -/
def store (size : ℕ) (output bytes : List UInt8) : Parse (List UInt8) :=
  if output.length + bytes.length ≤ size then pure (output ++ bytes) else Checked.fault

/-- The second loop of `parse_string`, from `input_pointer`, with the output so far. -/
def unescape (inputEnd size : ℕ) : ℕ → (input : ℕ) → List UInt8 → Parse (List UInt8)
  | 0, _, _ => Checked.outOfFuel
  | fuel + 1, input, output => do
    if inputEnd ≤ input then return output
    else
      let c ← byteAt input
      if c ≠ Ascii.backslash then unescape inputEnd size fuel (input + 1) (← store size output [c])
      else
        let e ← byteAt (input + 1)
        if e = 0x75 then
          match ← utf16LiteralToUtf8 input inputEnd with
          | none => failAt input
          | some (n, bytes) => unescape inputEnd size fuel (input + n) (← store size output bytes)
        else
          match escapedByte e with
          | none => failAt input
          | some c => unescape inputEnd size fuel (input + 2) (← store size output [c])

/-- `parse_string`. -/
def parseString : Parse (List UInt8) := do
  let b ← Checked.get
  let input := b.offset + 1
  if (← bufferAtOffset 0) ≠ Ascii.quote then failAt input
  else
    match scanString ((b.content.take b.length).drop input) with
    | none => failAt input
    | some (n, skippedBytes) =>
      let inputEnd := input + n
      let allocationLength := inputEnd - b.offset - skippedBytes
      let output ← unescape inputEnd (allocationLength + 1) (n + 1) input []
      -- the terminator
      let _ ← store (allocationLength + 1) output [0]
      Checked.modify fun b => { b with offset := inputEnd + 1 }
      return output

/-! ### The recursion -/

/-- `item->valuestring`. -/
def stringItem (valuestring : List UInt8) : CJsonFields :=
  { newItem with type := .string, valuestring := some valuestring }

/-- Whether a number comes. -/
def nextIsNumber : Parse Bool := do
  if (← Checked.get).canAccessAtIndex 0 then
    let c ← bufferAtOffset 0
    return decide (c = minusByte) || (byteDigit c).isSome
  else return false

/-- Behind the closing byte: an item of `type`, with its children. -/
def closeItem (type : CJsonType) (head : CJson) : Parse (CJsonFields × CJson) := do
  Checked.modify fun b => { b with depth := b.depth - 1, offset := b.offset + 1 }
  return ({ newItem with type := type }, head)

/-- `parse_array` and `parse_object`, which differ in how they look at the first byte, in the
closing byte and in the loop. -/
def parseChildren (opened : Parse Bool) (closing : UInt8) (type : CJsonType)
    (loop : Parse CJson) : Parse (CJsonFields × CJson) := do
  if nestingLimit ≤ (← Checked.get).depth then Checked.fail
  else
    Checked.modify fun b => { b with depth := b.depth + 1 }
    if (← opened) = false then Checked.fail
    else
      advance 1
      bufferSkipWhitespace
      if (← nextIs closing) = true then closeItem type .null
      else if (← Checked.get).canAccessAtIndex 0 = false then
        stepBack
        Checked.fail
      else
        -- in front of the first element
        stepBack
        let head ← loop
        if (← nextIs closing) = true then closeItem type head else Checked.fail

/-- One round of their loops, from the byte in front of the value. -/
def parseItem (string : Option (List UInt8)) (value : Parse (CJsonFields × CJson))
    (more : Parse CJson) : Parse CJson := do
  advance 1
  bufferSkipWhitespace
  let (fields, child) ← value
  bufferSkipWhitespace
  if (← nextIs Ascii.comma) = true then return .item string fields child (← more)
  else return .item string fields child .null

/-- The name of a member, up to the colon. -/
def parseName : Parse (List UInt8) := do
  if (← Checked.get).canAccessAtIndex 1 = false then Checked.fail
  else
    advance 1
    bufferSkipWhitespace
    let string ← parseString
    bufferSkipWhitespace
    if (← nextIs Ascii.colon) = true then return string else Checked.fail

mutual

/-- `parse_value`: the members of the item, and its `child`. -/
def parseValue : ℕ → Parse (CJsonFields × CJson)
  | 0 => Checked.outOfFuel
  | fuel + 1 => do
    if (← startsWith Ascii.null) = true then
      advance 4
      return ({ newItem with type := .null }, .null)
    else if (← startsWith Ascii.false) = true then
      advance 5
      return ({ newItem with type := .false }, .null)
    else if (← startsWith Ascii.true) = true then
      advance 4
      return ({ newItem with type := .true, valueint := 1 }, .null)
    else if (← nextIs Ascii.quote) = true then return (stringItem (← parseString), .null)
    else if (← nextIsNumber) = true then return (← parseNumber, .null)
    else if (← nextIs Ascii.lbracket) = true then parseArray fuel
    else if (← nextIs Ascii.lbrace) = true then parseObject fuel
    else Checked.fail

/-- `parse_array`. -/
def parseArray : ℕ → Parse (CJsonFields × CJson)
  | 0 => Checked.outOfFuel
  | fuel + 1 =>
    parseChildren (do return decide ((← bufferAtOffset 0) = Ascii.lbracket)) Ascii.rbracket .array
      (parseElements fuel)

/-- The loop of `parse_array`. -/
def parseElements : ℕ → Parse CJson
  | 0 => Checked.outOfFuel
  | fuel + 1 => parseItem none (parseValue fuel) (parseElements fuel)

/-- `parse_object`. -/
def parseObject : ℕ → Parse (CJsonFields × CJson)
  | 0 => Checked.outOfFuel
  | fuel + 1 => parseChildren (nextIs Ascii.lbrace) Ascii.rbrace .object (parseMembers fuel)

/-- The loop of `parse_object`. -/
def parseMembers : ℕ → Parse CJson
  | 0 => Checked.outOfFuel
  | fuel + 1 => do
    let string ← parseName
    parseItem (some string) (parseValue fuel) (parseMembers fuel)

end

/-- `cJSON_ParseWithLengthOpts`, which asks for no terminator. -/
def cJSONParseWithLength (value : List UInt8) (bufferLength : ℕ) :
    Outcome ParseBuffer (CJsonFields × CJson) :=
  let parse : Parse (CJsonFields × CJson) := do
    skipUtf8Bom
    bufferSkipWhitespace
    parseValue (3 * bufferLength + 3)
  parse ⟨value, bufferLength, 0, 0⟩

/-- `cJSON_Parse` of the string `value`, which has no zero byte. -/
def cJSONParse (value : List UInt8) : Outcome ParseBuffer (CJsonFields × CJson) :=
  cJSONParseWithLength (value ++ [0]) (value.length + 1)

end Sentry
