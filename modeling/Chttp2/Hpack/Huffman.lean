import Chttp2.Hpack.HuffmanTable

/-!
# The Huffman coder of HPACK

`huffman.cpp`. The decoding tree has a node for every eight bits of a code; a code whose length is
no multiple of eight ends in as many leaves as there are bytes that start with its last bits.

`Node*` is the path of child indices from the root, and the tree maps a path to the fields of the
node that `buildTree` allocated there. The null pointer is a path without a node.

The 64-bit and 32-bit bit buffers wrap; `nbits`, `avail` and `pending` stay below 256 on every
input.
-/

set_option autoImplicit false

namespace Chttp2.Huffman

/-- `codes[sym]`. -/
def codeOf (sym : UInt8) : Nat := codes.getD sym.toNat 0

/-- `lengths[sym]`. -/
def lengthOf (sym : UInt8) : Nat := lengths.getD sym.toNat 0

/-! ## The tree -/

/-- The fields of a `Node` besides its children. -/
structure Node where
  leaf : Bool := false
  bits : Nat := 0
  symbol : UInt8 := 0
  deriving DecidableEq, Repr

/-- The allocated nodes by their path from the root. -/
abbrev Tree := Bytes → Option Node

/-- `if (!node->children[idx]) node->children[idx] = ...` for the child at path `π`. -/
def Tree.allocIfNull (t : Tree) (π : Bytes) (n : Node) : Tree :=
  fun ρ => (t ρ).or (if ρ = π then some n else none)

/-- The loop over the intermediate nodes: `len` bits of the code are left below the node `π`. -/
def descend (code : Nat) : Nat → Tree → Bytes → Nat → Tree × Bytes × Nat
  | 0, t, π, len => (t, π, len)
  | fuel + 1, t, π, len =>
    if len > 8 then
      let idx := (code >>> (len - 8)).toUInt8
      descend code fuel (t.allocIfNull (π ++ [idx]) {}) (π ++ [idx]) (len - 8)
    else (t, π, len)

/-- The loop over the leaves: `count` children of `π` from `start` on. -/
def fillLeaves (π : Bytes) (n : Node) : Nat → Nat → Tree → Tree
  | _, 0, t => t
  | start, count + 1, t =>
    fillLeaves π n (start + 1) count (t.allocIfNull (π ++ [start.toUInt8]) n)

/-- One round of the loop of `buildTree`. -/
def insertSymbol (t : Tree) (sym : UInt8) : Tree :=
  let code := codeOf sym
  let (t, π, len) := descend code (lengthOf sym) t [] (lengthOf sym)
  let shift := 8 - len
  fillLeaves π ⟨true, len, sym⟩ (code <<< shift % 256) (1 <<< shift) t

/-- `buildTree`. -/
def buildTree : Tree :=
  ((List.range 256).map Nat.toUInt8).foldl insertSymbol fun π => if π = [] then some {} else none

/-! ## Encoding -/

/-- `encodedLength`. -/
def encodedLength (str : Bytes) : Nat := ((str.map lengthOf).sum + 7) / 8

/-- `buf` and `nbits` of `encode` with the bytes written so far. -/
structure EncodeState where
  out : Bytes := []
  buf : Nat := 0
  nbits : Nat := 0
  deriving DecidableEq, Repr

/-- One round of the loop over the characters. -/
def encodeChar (st : EncodeState) (c : UInt8) : EncodeState :=
  let buf := (st.buf <<< lengthOf c ||| codeOf c) % 2 ^ 64
  let nbits := st.nbits + lengthOf c
  if nbits ≥ 32 then
    let nbits := nbits - 32
    let word := (buf >>> nbits) % 2 ^ 32
    { out := st.out ++ [(word >>> 24).toUInt8, (word >>> 16).toUInt8, (word >>> 8).toUInt8,
        word.toUInt8]
      buf, nbits }
  else { st with buf, nbits }

/-- The loop that flushes the last bytes. -/
def flushBytes (buf : Nat) : Nat → Nat → Bytes → Bytes
  | 0, _, out => out
  | fuel + 1, nbits, out =>
    if nbits ≥ 8 then
      flushBytes buf fuel (nbits - 8) (out ++ [(buf >>> (nbits - 8)).toUInt8])
    else out

/-- `encode`: the last byte is filled up with ones. -/
def encode (str : Bytes) : Bytes :=
  let st := str.foldl encodeChar {}
  let rem := st.nbits % 8
  if rem > 0 then
    let pad := 8 - rem
    let nbits := st.nbits + pad
    flushBytes ((st.buf <<< pad ||| (1 <<< pad - 1)) % 2 ^ 64) nbits nbits st.out
  else flushBytes st.buf st.nbits st.nbits st.out

/-! ## Decoding -/

/-- The locals of `decode`; `node` is the path of the current node. -/
structure DecodeState where
  result : Bytes := []
  node : Bytes := []
  buf : Nat := 0
  avail : Nat := 0
  pending : Nat := 0
  deriving DecidableEq, Repr

section Decoding

variable (root : Tree)

/-- `node->children[idx]`; the pointer must not be null. -/
def child (node : Bytes) (idx : UInt8) : Guarded (Bytes × Option Node) :=
  match root node with
  | none => .error .nullHuffmanNode
  | some _ => .ok (node ++ [idx], root (node ++ [idx]))

/-- The inner loop over whole bytes of the bit buffer; `none` stands for `INVALID_CODE`. -/
def decodeWhile : Nat → DecodeState → Guarded (Option DecodeState)
  | 0, st => return some st
  | fuel + 1, st =>
    if st.avail ≥ 8 then do
      let idx := (st.buf >>> (st.avail - 8)).toUInt8
      match ← child root st.node idx with
      | (_, none) => return none
      | (node, some n) =>
        if n.leaf then
          let avail := st.avail - n.bits
          decodeWhile fuel
            { st with result := st.result ++ [n.symbol], avail, node := [], pending := avail }
        else decodeWhile fuel { st with node, avail := st.avail - 8 }
    else return some st

/-- The loop over the input bytes. -/
def decodeBytes : Bytes → DecodeState → Guarded (Option DecodeState)
  | [], st => return some st
  | byte :: data, st => do
    let st := { st with
      buf := (st.buf <<< 8 ||| byte.toNat) % 2 ^ 32, avail := st.avail + 8,
      pending := st.pending + 8 }
    match ← decodeWhile root st.avail st with
    | none => return none
    | some st => decodeBytes data st

/-- The loop over the bits that are left, fewer than eight. -/
def decodeTail : Nat → DecodeState → Guarded DecodeState
  | 0, st => return st
  | fuel + 1, st =>
    if st.avail > 0 then do
      let idx := (st.buf <<< (8 - st.avail)).toUInt8
      match ← child root st.node idx with
      | (_, none) => return st
      | (_, some n) =>
        if !n.leaf || n.bits > st.avail then return st
        else
          let avail := st.avail - n.bits
          decodeTail fuel
            { st with result := st.result ++ [n.symbol], avail, node := [], pending := avail }
    else return st

/-- `decode` with the tree that `getRoot` returns; `none` stands for `INVALID_CODE`. -/
def decodeWith (data : Bytes) : Guarded (Option Bytes) := do
  match ← decodeBytes root data {} with
  | none => return none
  | some st =>
    let st ← decodeTail root st.avail st
    let mask := 1 <<< st.avail - 1
    if st.pending > 7 then return none
    else if st.buf &&& mask ≠ mask then return none
    else return some st.result

end Decoding

/-- `decode`. -/
def decode (data : Bytes) : Guarded (Option Bytes) := decodeWith buildTree data

end Chttp2.Huffman
