import Chttp2.Hpack.Refinement
import Chttp2.Hpack.RoundTrip

/-!
# The encoder and the decoder of its peer

`InStepWith enc limit table` relates the encoder to the reference decoder of its peer, whose dynamic
table is `table` under the limit `limit`. The peer accepts every encoded block with exactly the
fields that were encoded, and its table is within the limit afterwards (`InStepWith.encode`).
-/

set_option autoImplicit false

namespace Chttp2.Hpack

open Reference

/-- A decoder with this table under this limit is in step with the encoder. -/
def InStepWith (enc : Hpack) (limit : Nat) (table : Table) : Prop :=
  ∃ t : HpackTable, Abstracts t table ∧
    Exchange.InStep ⟨enc, { decodeTableLimit := limit, decodeTable := t }⟩

variable {enc enc' : Hpack} {limit : Nat} {table : Table}

/-- The encoder and the decoder of a new connection. -/
theorem inStepWith_init :
    InStepWith {} initMaxTableSize ⟨[], initMaxTableSize, Nat.zero_le _⟩ :=
  ⟨{}, ⟨HpackTable.ok_empty, rfl, rfl⟩, Exchange.inStep_init⟩

theorem InStepWith.congr (h : InStepWith enc limit table)
    (htable : enc'.encodeTable = enc.encodeTable)
    (hdirty : enc'.encodeTableDirty = enc.encodeTableDirty)
    (hmin : enc'.encodeMinSize = enc.encodeMinSize) : InStepWith enc' limit table := by
  obtain ⟨t, ht, hstep⟩ := h
  exact ⟨t, ht, hstep.congr htable hdirty hmin⟩

/-- The peer has announced a new limit, and the encoder follows it. -/
theorem InStepWith.setEncodeTableSize (h : InStepWith enc limit table) {size : Nat}
    (hsize : size < 2 ^ 63 + 31) : InStepWith (enc.setEncodeTableSize size) size table := by
  obtain ⟨t, ht, hstep⟩ := h
  exact ⟨t, ht, hstep.follow hsize⟩

/-- The peer decodes the block to the encoded fields. -/
theorem InStepWith.encode (h : InStepWith enc limit table) {headers : List HeaderField}
    (hlen : (enc.encode headers).1.length < 2 ^ 31) :
    ∃ table', Accepts limit table (enc.encode headers).1 headers table' ∧ table'.maxSize ≤ limit ∧
      InStepWith (enc.encode headers).2 limit table' := by
  obtain ⟨t, ht, hstep⟩ := h
  obtain ⟨x', hx', hinstep, -⟩ := hstep.transfer hlen
  have hshort : (enc.encode headers).1.length < 2 ^ 32 := by omega
  have hdecode := decode_eq { decodeTableLimit := limit, decodeTable := t } hshort
  simp only [Exchange.step, hdecode, ok_bind] at hx'
  obtain ⟨ht', hiff⟩ := decodeBlock_refines limit ht.ok (enc.encode headers).1
  obtain ⟨hx'', hfields⟩ := Prod.mk.inj (Except.ok.inj hx')
  refine ⟨ofTable ht', ?_, ?_, _, abstracts_ofTable ht', ?_⟩
  · rw [← ht.eq_ofTable]
    exact (hiff _ _).2 ⟨hfields, rfl⟩
  -- nothing is pending after a block, so the two tables have one maximum size
  · rw [← hx''] at hinstep
    obtain ⟨-, hsize, -⟩ := hinstep.clean rfl
    exact hsize.ge.trans hinstep.maxSize_le
  · rw [← hx''] at hinstep
    exact hinstep

end Chttp2.Hpack
