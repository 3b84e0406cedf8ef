import Chttp2.Hpack.Grammar

/-!
# A reference decoder for header blocks

The decoder of RFC 7541 in its own terms. `Reference.Table` is the dynamic table, newest entry
first; `Continues`, `IsInteger`, `IsString` and `Encodes` say which bytes stand for an integer, a
string and a representation; `Reference.Decodes` puts representations one after another and applies
each to the table.
-/

set_option autoImplicit false

namespace Chttp2.Hpack.Reference

open EvictingFifo

/-! ## Tables -/

/-- The dynamic table, newest entry first, within its maximum size. -/
@[ext] structure Table where
  entries : List HeaderField
  maxSize : Nat
  fits : total HeaderField.size entries ≤ maxSize

namespace Table

/-- The address space: the static table, then the dynamic table, counted from one. -/
def lookup (t : Table) (index : Nat) : Option HeaderField :=
  if index = 0 then none else (staticEntryTable ++ t.entries)[index - 1]?

/-- Evict the oldest entries down to `size`. -/
def resize (t : Table) (size : Nat) : Table :=
  ⟨newestWithin HeaderField.size size t.entries, size, total_newestWithin_le _ _⟩

/-- Add an entry and evict the oldest ones; an entry larger than the table empties it. -/
def insert (t : Table) (header : HeaderField) : Table :=
  ⟨newestWithin HeaderField.size t.maxSize (header :: t.entries), t.maxSize,
    total_newestWithin_le _ _⟩

@[simp] theorem entries_resize (t : Table) (size : Nat) :
    (t.resize size).entries = newestWithin HeaderField.size size t.entries := rfl

@[simp] theorem maxSize_resize (t : Table) (size : Nat) : (t.resize size).maxSize = size := rfl

@[simp] theorem entries_insert (t : Table) (header : HeaderField) : (t.insert header).entries =
    newestWithin HeaderField.size t.maxSize (header :: t.entries) := rfl

@[simp] theorem maxSize_insert (t : Table) (header : HeaderField) :
    (t.insert header).maxSize = t.maxSize := rfl

end Table

/-! ## Wire forms -/

/-- Continuation bytes: seven bits each, the lowest first, all but the last with the top bit set. -/
inductive Continues : Bytes → Nat → Prop where
  | last {b : UInt8} : b.toNat < 128 → Continues [b] b.toNat
  | more {b : UInt8} {bs : Bytes} {value : Nat} : 128 ≤ b.toNat → Continues bs value →
      Continues (b :: bs) (b.toNat - 128 + 128 * value)

/-- A prefix integer: the low `width` bits of the first byte, and up to nine continuation bytes
where these bits are all ones. -/
inductive IsInteger (width : Nat) : Bytes → Nat → Prop where
  | short {b : UInt8} : b.toNat % 2 ^ width < 2 ^ width - 1 →
      IsInteger width [b] (b.toNat % 2 ^ width)
  | long {b : UInt8} {bs : Bytes} {value : Nat} : b.toNat % 2 ^ width = 2 ^ width - 1 →
      Continues bs value → bs.length ≤ 9 → IsInteger width (b :: bs) (2 ^ width - 1 + value)

/-- The first byte of a part. -/
def lead (part : Bytes) : Nat := (part.headD 0).toNat

/-- A string: its length in bytes, with the Huffman flag on top, and its bytes. -/
inductive IsString : Bytes → Bytes → Prop where
  | raw {bs str : Bytes} : lead bs < 128 → IsInteger 7 bs str.length → IsString (bs ++ str) str
  | huffman {bs payload str : Bytes} : 128 ≤ lead bs → IsInteger 7 bs payload.length →
      Huffman.Accepts (BitString.bytesBits payload) str → IsString (bs ++ payload) str

/-- The name of a literal field whose index is `index`. -/
inductive IsName : Nat → Bytes → NameRef → Prop where
  | index {i : Nat} : i ≠ 0 → IsName i [] (.index i)
  | literal {bs name : Bytes} : IsString bs name → IsName 0 bs (.literal name)

/-- The bits of the first byte that hold the index of a literal field. -/
def indexWidth : Indexing → Nat
  | .incremental => 6
  | .without | .never => 4

/-- The pattern of the first byte of a literal field. -/
def HasPattern : Indexing → Nat → Prop
  | .incremental, b => 64 ≤ b ∧ b < 128
  | .without, b => b < 16
  | .never, b => 16 ≤ b ∧ b < 32

/-- A representation of a header block. -/
inductive Encodes : Bytes → Representation → Prop where
  | indexed {bs : Bytes} {i : Nat} : 128 ≤ lead bs → IsInteger 7 bs i → Encodes bs (.indexed i)
  | literal {mode : Indexing} {bs names values : Bytes} {i : Nat} {name : NameRef}
      {value : Bytes} : HasPattern mode (lead bs) → IsInteger (indexWidth mode) bs i →
      IsName i names name → IsString values value →
      Encodes (bs ++ (names ++ values)) (.literal mode name value)
  | sizeUpdate {bs : Bytes} {size : Nat} : 32 ≤ lead bs → lead bs < 64 → IsInteger 5 bs size →
      Encodes bs (.sizeUpdate size)

/-! ## Decoding -/

/-- What has been decoded of a block. -/
@[ext] structure Progress where
  table : Table
  fresh : Bool := true
  fields : List HeaderField := []

/-- Add a field; after it no size update is allowed. -/
def Progress.push (d : Progress) (header : HeaderField) (table : Table) : Progress :=
  ⟨table, false, d.fields ++ [header]⟩

/-- The name that a literal field refers to. -/
inductive Names (t : Table) : NameRef → Bytes → Prop where
  | index {i : Nat} {header : HeaderField} : t.lookup i = some header →
      Names t (.index i) header.name
  | literal (name : Bytes) : Names t (.literal name) name

/-- The effect of a representation. -/
inductive Step (limit : Nat) (d : Progress) : Representation → Progress → Prop where
  | indexed {i : Nat} {header : HeaderField} : d.table.lookup i = some header →
      Step limit d (.indexed i) (d.push header d.table)
  | incremental {ref : NameRef} {name value : Bytes} : Names d.table ref name →
      Step limit d (.literal .incremental ref value)
        (d.push ⟨name, value, false⟩ (d.table.insert ⟨name, value, false⟩))
  | without {ref : NameRef} {name value : Bytes} : Names d.table ref name →
      Step limit d (.literal .without ref value) (d.push ⟨name, value, false⟩ d.table)
  | never {ref : NameRef} {name value : Bytes} : Names d.table ref name →
      Step limit d (.literal .never ref value) (d.push ⟨name, value, true⟩ d.table)
  | sizeUpdate {size : Nat} : d.fresh = true → size ≤ limit →
      Step limit d (.sizeUpdate size) { d with table := d.table.resize size }

/-- The bytes are a sequence of representations that lead from `d` to `d'`. -/
inductive Decodes (limit : Nat) : Progress → Bytes → Progress → Prop where
  | nil (d : Progress) : Decodes limit d [] d
  | cons {d d' d'' : Progress} {part rest : Bytes} {r : Representation} : Encodes part r →
      Step limit d r d' → Decodes limit d' rest d'' → Decodes limit d (part ++ rest) d''

/-- The block is accepted with these fields and this table after it. -/
def Accepts (limit : Nat) (t : Table) (block : Bytes) (fields : List HeaderField) (t' : Table) :
    Prop :=
  ∃ fresh, Decodes limit ⟨t, true, []⟩ block ⟨t', fresh, fields⟩

end Chttp2.Hpack.Reference
