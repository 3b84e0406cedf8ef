import Chttp2.Hpack.Huffman
import Chttp2.Hpack.Table

/-!
# The HPACK encoder and decoder

`Hpack` of `hpack.cpp`. The encoder appends to a byte list; a block that is transferred stays far
below the 2^31 bytes at which the growth of the source's buffer stops working. The decoder reads
through `ByteSpan` and is `Guarded`. Its members `decodeBuffer` and `firstField` live only during
one call of `decode`, so they are part of the state of its loop here.
-/

set_option autoImplicit false

namespace Chttp2

/-- `HPack`: a table for each direction, and the table sizes that the next block has to announce. -/
structure Hpack where
  decodeTable : HpackTable := {}
  decodeTableLimit : Nat := initMaxTableSize
  encodeTable : HpackTable := {}
  encodeTableDirty : Bool := false
  encodeMinSize : Nat := 2 ^ 64 - 1
  deriving DecidableEq

namespace Hpack

/-- `setDecodeTableLimit`: the limit of this side's SETTINGS, which also evicts at once. -/
def setDecodeTableLimit (h : Hpack) (limit : Nat) : Hpack :=
  { h with decodeTableLimit := limit, decodeTable := h.decodeTable.setMaxSize limit }

/-- `setEncodeTableSize`: the smallest of the sizes since the last block is remembered. -/
def setEncodeTableSize (h : Hpack) (size : Nat) : Hpack :=
  { h with
    encodeMinSize := min size h.encodeMinSize
    encodeTableDirty := true
    encodeTable := h.encodeTable.setMaxSize size }

/-! ## Encoding -/

/-- `buffer[pos] |= flag`. -/
def orAt (buffer : Bytes) (pos : Nat) (flag : UInt8) : Bytes := buffer.modify pos (· ||| flag)

/-- The loop of `encodeVInt`; a 64-bit value has at most ten groups of seven bits. -/
def encodeVIntLoop : Nat → Bytes → Nat → Bytes
  | 0, buffer, value => buffer ++ [value.toUInt8]
  | fuel + 1, buffer, value =>
    if value ≥ 128 then
      encodeVIntLoop fuel (buffer ++ [(0x80 ||| (value &&& 0x7f)).toUInt8]) (value >>> 7)
    else buffer ++ [value.toUInt8]

/-- `encodeVInt` with a prefix of `width` bits. -/
def encodeVInt (buffer : Bytes) (width value : Nat) : Bytes :=
  let maxPrefix := 1 <<< width - 1
  if value < maxPrefix then buffer ++ [value.toUInt8]
  else encodeVIntLoop 10 (buffer ++ [maxPrefix.toUInt8]) (value - maxPrefix)

/-- A string literal: Huffman coded if that is shorter. -/
def encodeString (buffer str : Bytes) : Bytes :=
  let huffmanLength := Huffman.encodedLength str
  if huffmanLength < str.length then
    orAt (encodeVInt buffer 7 huffmanLength ++ Huffman.encode str) buffer.length 0x80
  else encodeVInt buffer 7 str.length ++ str

/-- An indexed field. -/
def encodeIndexedHeader (buffer : Bytes) (index : Nat) : Bytes :=
  orAt (encodeVInt buffer 7 index) buffer.length 0x80

/-- A literal with incremental indexing. -/
def encodeIndexLiteralHeader (buffer : Bytes) (index : Nat) (header : HeaderField) : Bytes :=
  let named :=
    if index > 0 then orAt (encodeVInt buffer 6 index) buffer.length 0x40
    else encodeString (buffer ++ [0x40]) header.name
  encodeString named header.value

/-- A literal without indexing. -/
def encodeUnIndexLiteralHeader (buffer : Bytes) (index : Nat) (header : HeaderField) : Bytes :=
  let named :=
    if index > 0 then encodeVInt buffer 4 index
    else encodeString (buffer ++ [0]) header.name
  encodeString named header.value

/-- A literal that is never indexed. -/
def encodeNeverIndexLiteralHeader (buffer : Bytes) (index : Nat) (header : HeaderField) : Bytes :=
  let named :=
    if index > 0 then orAt (encodeVInt buffer 4 index) buffer.length 0x10
    else encodeString (buffer ++ [0x10]) header.name
  encodeString named header.value

/-- A table size update. -/
def encodeTableSizeUpdate (buffer : Bytes) (size : Nat) : Bytes :=
  orAt (encodeVInt buffer 5 size) buffer.length 0x20

/-- `couldIndex`, for the table `encodeTable`. -/
def couldIndex (t : HpackTable) (header : HeaderField) : Bool :=
  !header.sensitivity && t.dynamicBytes + header.size ≤ t.maxSize

/-- One round of the loop of `encode` over the headers. -/
def encodeHeader (st : Bytes × HpackTable) (header : HeaderField) : Bytes × HpackTable :=
  let (buffer, t) := st
  let (exactMatch, idx) := t.find header
  if header.sensitivity then (encodeNeverIndexLiteralHeader buffer idx header, t)
  else if exactMatch then (encodeIndexedHeader buffer idx, t)
  else if couldIndex t header then (encodeIndexLiteralHeader buffer idx header, t.insert header)
  else (encodeUnIndexLiteralHeader buffer idx header, t)

/-- The table size updates at the start of a block. -/
def encodeSizeUpdates (h : Hpack) : Bytes :=
  if h.encodeTableDirty then
    let buffer :=
      if h.encodeMinSize < h.encodeTable.maxSize then encodeTableSizeUpdate [] h.encodeMinSize
      else []
    encodeTableSizeUpdate buffer h.encodeTable.maxSize
  else []

/-- `encode`: the size updates that are due, then the headers in their order. -/
def encode (h : Hpack) (headers : List HeaderField) : Bytes × Hpack :=
  let (buffer, t) := headers.foldl encodeHeader (h.encodeSizeUpdates, h.encodeTable)
  (buffer, { h with
    encodeTable := t
    encodeTableDirty := false
    encodeMinSize := if h.encodeTableDirty then 2 ^ 64 - 1 else h.encodeMinSize })

/-! ## Decoding -/

/-- The loop of `decodeVInt` over the continuation bytes; `shift` stops it after nine rounds. -/
def decodeVIntLoop (buffer : ByteSpan) (bytesBefore : Nat) :
    Nat → ByteSpan → Nat → Nat → Guarded (Option (Nat × ByteSpan))
  | 0, _, _, _ => return none
  | fuel + 1, view, value, shift =>
    if view.empty then return none
    else do
      let (byte, view) ← view.readAs 1
      let value := (value + (byte &&& 0x7f) <<< shift) % 2 ^ 64
      if byte &&& 0x80 = 0 then
        let buffer ← buffer.advance (bytesBefore - view.size)
        return some (value, buffer)
      else if shift + 7 ≥ 63 then return none
      else decodeVIntLoop buffer bytesBefore fuel view value (shift + 7)

/-- `decodeVInt`: the value and the buffer after it; `none` stands for `false`. -/
def decodeVInt (buffer : ByteSpan) (width : Nat) : Guarded (Option (Nat × ByteSpan)) :=
  if width < 1 ∨ width > 8 then return none
  else if buffer.empty then return none
  else do
    let bytesBefore := buffer.size
    let maxPrefix := 1 <<< width - 1
    let (byte, view) ← buffer.readAs 1
    let value := byte &&& maxPrefix
    if value < maxPrefix then
      let buffer ← buffer.advance (bytesBefore - view.size)
      return some (value, buffer)
    else decodeVIntLoop buffer bytesBefore 9 view value 0

/-- `decodeString`: a length with the Huffman bit, then that many bytes. -/
def decodeString (buffer : ByteSpan) : Guarded (Option (Bytes × ByteSpan)) :=
  if buffer.empty then return none
  else do
    let isHuffman := (← buffer.peek 1) &&& 0x80 != 0
    match ← decodeVInt buffer 7 with
    | none => return none
    | some (length, buffer) =>
      if buffer.size < length then return none
      else
        let str ← if isHuffman then do
            let view ← buffer.subspan 0 (length % 2 ^ 32)
            Huffman.decode view.rest
          else pure (some (buffer.rest.take length))
        match str with
        | none => return none
        | some str =>
          let buffer ← buffer.advance (length % 2 ^ 32)
          return some (str, buffer)

/-- The state of the loop of `decode`. -/
structure DecodeState where
  decodeBuffer : ByteSpan
  firstField : Bool := true
  decodeTable : HpackTable
  headers : List HeaderField := []
  deriving DecidableEq

/-- An indexed field; its index has to be in one of the tables. -/
def decodeIndexedHeader (st : DecodeState) : Guarded (Option DecodeState) := do
  match ← decodeVInt st.decodeBuffer 7 with
  | none => return none
  | some (index, buffer) =>
    match st.decodeTable.at? index with
    | none => return none
    | some header => return some { st with decodeBuffer := buffer, headers := st.headers ++ [header] }

/-- `decodeTableSizeUpdate` under the limit `decodeTableLimit`. -/
def decodeTableSizeUpdate (limit : Nat) (st : DecodeState) : Guarded (Option DecodeState) := do
  match ← decodeVInt st.decodeBuffer 5 with
  | none => return none
  | some (size, buffer) =>
    if size > limit then return none
    else return some { st with
      decodeBuffer := buffer, decodeTable := st.decodeTable.setMaxSize size }

/-- The name of a literal field: a string, or the name of an indexed field. -/
def decodeName (st : DecodeState) (index : Nat) (buffer : ByteSpan) :
    Guarded (Option (Bytes × ByteSpan)) :=
  if index = 0 then decodeString buffer
  else
    match st.decodeTable.at? index with
    | none => return none
    | some indexedHeader => return some (indexedHeader.name, buffer)

/-- A literal field, its index coded in `width` bits; it is inserted if `indexed` says so. -/
def decodeHeaderField (st : DecodeState) (width : Nat) (indexed sensitive : Bool) :
    Guarded (Option DecodeState) := do
  match ← decodeVInt st.decodeBuffer width with
  | none => return none
  | some (index, buffer) =>
    match ← decodeName st index buffer with
    | none => return none
    | some (name, buffer) =>
      match ← decodeString buffer with
      | none => return none
      | some (value, buffer) =>
        let header : HeaderField := { name, value, sensitivity := sensitive }
        return some { st with
          decodeBuffer := buffer
          decodeTable := if indexed then st.decodeTable.insert header else st.decodeTable
          headers := st.headers ++ [header] }

/-- One representation, told by the first bits of its first byte. -/
def decodeHeader (limit : Nat) (st : DecodeState) : Guarded (Option DecodeState) := do
  let flag ← st.decodeBuffer.peek 1
  if flag >>> 7 = 1 then decodeIndexedHeader st
  else if flag >>> 6 = 1 then decodeHeaderField st 6 true false
  else if flag >>> 5 = 1 then
    if !st.firstField then return none else decodeTableSizeUpdate limit st
  else if flag >>> 4 = 1 then decodeHeaderField st 4 false true
  else decodeHeaderField st 4 false false

/-- The loop of `decode`; every round reads at least one byte. The result is the table and, unless
the block is rejected, the fields. -/
def decodeLoop (limit : Nat) :
    Nat → DecodeState → Guarded (HpackTable × Option (List HeaderField))
  | 0, st => return (st.decodeTable, some st.headers)
  | fuel + 1, st =>
    if st.decodeBuffer.empty then return (st.decodeTable, some st.headers)
    else do
      match ← decodeHeader limit st with
      | none => return (st.decodeTable, none)
      | some next =>
        decodeLoop limit fuel
          { next with
            firstField := if next.headers.length > st.headers.length then false
              else next.firstField }

/-- `decode`; the second component is `none` where the source returns `false`. -/
def decode (h : Hpack) (data : Bytes) : Guarded (Hpack × Option (List HeaderField)) :=
  if data = [] then return (h, some [])
  else do
    let (t, headers) ← decodeLoop h.decodeTableLimit data.length
      { decodeBuffer := ByteSpan.ofBytes data, decodeTable := h.decodeTable }
    return ({ h with decodeTable := t }, headers)

end Hpack

end Chttp2
