import Chttp2.Lib.MachineArith
import Chttp2.Hpack.Writing

/-!
# Prefix integers on the machine

`decodeVIntMetered` is `decodeVInt` of `hpack.cpp` with its parameters as the source passes them and
with every shift and addition on a machine integer recorded. `unsigned long` has 64 bits, as on the
platforms of the library, Linux and macOS.

Without the record it is the decoder of the codec (`value_decodeVIntMetered`). On every input its
operations are exact (`exact_decodeVIntMetered`), and where it returns `false` the caller's buffer is
as it was (`buffer_of_returned_false`). On the bytes of the encoder it returns the encoded value and
moves the buffer past them (`decodeVIntMetered_encodeVInt`).
-/

set_option autoImplicit false

namespace Chttp2.Hpack

open MachineArith Metered

/-- What a call leaves behind: the returned `bool`, the caller's buffer and `value`. -/
structure VIntCall where
  returned : Bool
  buffer : ByteSpan
  value : Nat
  deriving DecidableEq

/-- The value and the buffer after a successful call. -/
def VIntCall.result (c : VIntCall) : Option (Nat × ByteSpan) :=
  if c.returned then some (c.value, c.buffer) else none

/-- `buffer.advance(bytesBefore - view.size()); return true;` -/
def returnTrue (buffer : ByteSpan) (bytesBefore : Nat) (view : ByteSpan) (value : Nat) :
    Guarded VIntCall :=
  (buffer.advance (bytesBefore - view.size)).map fun buffer => ⟨true, buffer, value⟩

/-- The loop over the continuation bytes, with the arithmetic of `value` and `shift`. -/
def decodeVIntMeteredLoop (buffer : ByteSpan) (bytesBefore : Nat) :
    Nat → ByteSpan → Nat → Nat → Metered (Guarded VIntCall)
  | 0, _, value, _ => pure (.ok ⟨false, buffer, value⟩)
  | fuel + 1, view, value, shift =>
    if view.empty then pure (.ok ⟨false, buffer, value⟩)
    else
      match view.readAs 1 with
      | .error e => pure (.error e)
      | .ok (byte, view) => do
        let group ← shiftLeft 64 (byte &&& 0x7f) shift
        let value ← add 64 value group
        if byte &&& 0x80 = 0 then pure (returnTrue buffer bytesBefore view value)
        else do
          let shift ← add 8 shift 7
          if shift ≥ 63 then pure (.ok ⟨false, buffer, value⟩)
          else decodeVIntMeteredLoop buffer bytesBefore fuel view value shift

/-- `decodeVInt` with the operations it performs. -/
def decodeVIntMetered (buffer : ByteSpan) (width value : Nat) : Metered (Guarded VIntCall) :=
  if width < 1 ∨ width > 8 then pure (.ok ⟨false, buffer, value⟩)
  else if buffer.empty then pure (.ok ⟨false, buffer, value⟩)
  else do
    let bytesBefore := buffer.size
    let power ← shiftLeft 31 1 width
    let maxPrefix ← toUnsigned 8 (power - 1)
    match buffer.readAs 1 with
    | .error e => pure (.error e)
    | .ok (byte, view) =>
      let value := byte &&& maxPrefix.toNat
      if value < maxPrefix.toNat then pure (returnTrue buffer bytesBefore view value)
      else decodeVIntMeteredLoop buffer bytesBefore 9 view value 0

/-! ## The record does not change the result -/

section Loop

variable {buffer : ByteSpan} {bytesBefore : Nat}

theorem result_returnTrue (view : ByteSpan) (value : Nat) :
    (returnTrue buffer bytesBefore view value).map VIntCall.result =
      (buffer.advance (bytesBefore - view.size)).map fun buffer => some (value, buffer) := by
  rw [returnTrue]
  cases buffer.advance (bytesBefore - view.size) <;> rfl

theorem value_decodeVIntMeteredLoop (fuel : Nat) : ∀ (view : ByteSpan) (value shift : Nat),
    shift + 7 * fuel = 63 →
    (decodeVIntMeteredLoop buffer bytesBefore fuel view value shift).value.map VIntCall.result =
      decodeVIntLoop buffer bytesBefore fuel view value shift := by
  induction fuel with
  | zero =>
    intro view value shift _
    rfl
  | succ fuel ih =>
    intro view value shift hshift
    rw [decodeVIntMeteredLoop, decodeVIntLoop]
    by_cases hempty : view.empty = true
    · rw [if_pos hempty, if_pos hempty]
      rfl
    · rw [if_neg hempty, if_neg hempty]
      cases view.readAs 1 with
      | error e => rfl
      | ok read =>
        obtain ⟨byte, view⟩ := read
        -- the group is cut to 64 bits before the addition here and with it in the codec
        have hsum : (value + ((byte &&& 0x7f) <<< shift) % 2 ^ 64) % 2 ^ 64 =
            (value + (byte &&& 0x7f) <<< shift) % 2 ^ 64 := by
          rw [Nat.add_mod, Nat.mod_mod, ← Nat.add_mod]
        -- the counter of the shift has eight bits and stays below 64
        have hnext : (add 8 shift 7).value = shift + 7 := value_add (by omega)
        simp only [value_bind, ok_bind]
        rw [show (add 64 value (shiftLeft 64 (byte &&& 0x7f) shift).value).value =
          (value + (byte &&& 0x7f) <<< shift) % 2 ^ 64 from hsum]
        by_cases hlast : byte &&& 0x80 = 0
        · rw [if_pos hlast, if_pos hlast]
          exact result_returnTrue view _
        · rw [if_neg hlast, if_neg hlast, value_bind, hnext]
          by_cases hover : shift + 7 ≥ 63
          · rw [if_pos hover, if_pos hover]
            rfl
          · rw [if_neg hover, if_neg hover]
            exact ih view _ _ (by omega)

end Loop

/-- `(1 << prefix) - 1` in eight bits. -/
theorem value_maxPrefix (width : Nat) (h1 : 1 ≤ width) (h8 : width ≤ 8) :
    (toUnsigned 8 ((shiftLeft 31 1 width).value - 1)).value.toNat = 1 <<< width - 1 := by
  interval_cases width <;> decide

theorem exact_maxPrefix (width : Nat) (h1 : 1 ≤ width) (h8 : width ≤ 8) :
    (shiftLeft 31 1 width).Exact ∧ (toUnsigned 8 ((shiftLeft 31 1 width).value - 1)).Exact := by
  interval_cases width <;> exact ⟨exact_shiftLeft.2 (by decide), exact_toUnsigned.2 (by decide)⟩

/-- Without the record it is the decoder of the codec. -/
theorem value_decodeVIntMetered (buffer : ByteSpan) (width value : Nat) :
    (decodeVIntMetered buffer width value).value.map VIntCall.result = decodeVInt buffer width := by
  rw [decodeVIntMetered, decodeVInt]
  by_cases hwidth : width < 1 ∨ width > 8
  · rw [if_pos hwidth, if_pos hwidth]
    rfl
  · rw [if_neg hwidth, if_neg hwidth]
    by_cases hempty : buffer.empty = true
    · rw [if_pos hempty, if_pos hempty]
      rfl
    · rw [if_neg hempty, if_neg hempty]
      simp only [value_bind, value_maxPrefix width (by omega) (by omega)]
      cases buffer.readAs 1 with
      | error e => rfl
      | ok read =>
        obtain ⟨byte, view⟩ := read
        simp only [ok_bind]
        by_cases hshort : byte &&& (1 <<< width - 1) < 1 <<< width - 1
        · rw [if_pos hshort, if_pos hshort]
          exact result_returnTrue view _
        · rw [if_neg hshort, if_neg hshort]
          exact value_decodeVIntMeteredLoop 9 view _ 0 rfl

/-! ## Every operation is exact -/

/-- The value stays below the next shifted bit and the eight bits of the prefix. -/
theorem exact_decodeVIntMeteredLoop {buffer : ByteSpan} {bytesBefore : Nat} (fuel : Nat) :
    ∀ (view : ByteSpan) (value shift : Nat), shift + 7 * fuel = 63 → value < 2 ^ 8 + 2 ^ shift →
    (decodeVIntMeteredLoop buffer bytesBefore fuel view value shift).Exact := by
  induction fuel with
  | zero =>
    intro view value shift _ _
    exact exact_pure _
  | succ fuel ih =>
    intro view value shift hshift hvalue
    rw [decodeVIntMeteredLoop]
    by_cases hempty : view.empty = true
    · rw [if_pos hempty]
      exact exact_pure _
    · rw [if_neg hempty]
      cases view.readAs 1 with
      | error e => exact exact_pure _
      | ok read =>
        obtain ⟨byte, view⟩ := read
        -- seven bits at the shift
        have hgroup : (byte &&& 0x7f) * 2 ^ shift ≤ 127 * 2 ^ shift :=
          Nat.mul_le_mul_right _ Nat.and_le_right
        have hpow : 2 ^ shift ≤ 2 ^ 56 := Nat.pow_le_pow_right (by omega) (by omega)
        have hnext : 2 ^ (shift + 7) = 128 * 2 ^ shift := by
          rw [Nat.pow_add]
          omega
        -- the shift is at most 56 here
        have hsum : value + (byte &&& 0x7f) * 2 ^ shift < 2 ^ 64 := by omega
        simp only [exact_bind, exact_shiftLeft,
          value_shiftLeft (show (byte &&& 0x7f) * 2 ^ shift < 2 ^ 64 by omega),
          exact_add, value_add hsum]
        refine ⟨⟨by omega, by omega⟩, hsum, ?_⟩
        by_cases hlast : byte &&& 0x80 = 0
        · rw [if_pos hlast]
          exact exact_pure _
        · rw [if_neg hlast, exact_bind, exact_add, value_add (by omega)]
          refine ⟨by omega, ?_⟩
          by_cases hover : shift + 7 ≥ 63
          · rw [if_pos hover]
            exact exact_pure _
          · rw [if_neg hover]
            exact ih view _ _ (by omega) (by omega)

/-- No shift is out of range and no addition wraps, whatever the bytes are. -/
theorem exact_decodeVIntMetered (buffer : ByteSpan) (width value : Nat) :
    (decodeVIntMetered buffer width value).Exact := by
  rw [decodeVIntMetered]
  by_cases hwidth : width < 1 ∨ width > 8
  · rw [if_pos hwidth]
    exact exact_pure _
  · rw [if_neg hwidth]
    by_cases hempty : buffer.empty = true
    · rw [if_pos hempty]
      exact exact_pure _
    · rw [if_neg hempty]
      have hmax : 1 <<< width - 1 < 2 ^ 8 := by
        have : 2 ^ width ≤ 2 ^ 8 := Nat.pow_le_pow_right (by omega) (by omega)
        rw [Nat.one_shiftLeft]
        omega
      obtain ⟨hpower, hmask⟩ := exact_maxPrefix width (by omega) (by omega)
      simp only [exact_bind, value_maxPrefix width (by omega) (by omega)]
      refine ⟨hpower, hmask, ?_⟩
      cases buffer.readAs 1 with
      | error e => exact exact_pure _
      | ok read =>
        obtain ⟨byte, view⟩ := read
        have hbyte : byte &&& (1 <<< width - 1) ≤ 1 <<< width - 1 := Nat.and_le_right
        by_cases hshort : byte &&& (1 <<< width - 1) < 1 <<< width - 1
        · simp only [if_pos hshort]
          exact exact_pure _
        · simp only [if_neg hshort]
          exact exact_decodeVIntMeteredLoop 9 view _ 0 rfl (by omega)

/-! ## A rejected integer leaves the buffer -/

theorem returned_of_returnTrue {buffer view : ByteSpan} {bytesBefore value : Nat} {c : VIntCall}
    (h : returnTrue buffer bytesBefore view value = .ok c) :
    c.returned = true ∧ c.buffer.data = buffer.data := by
  rw [returnTrue, ByteSpan.advance] at h
  split at h
  · cases h
  · cases h
    exact ⟨rfl, rfl⟩

/-- The buffer of a call has the bytes it had before, and it is the same buffer where the call
returns `false`. -/
def Keeps (buffer : ByteSpan) (x : Guarded VIntCall) : Prop :=
  ∀ c, x = .ok c → c.buffer.data = buffer.data ∧ (c.returned = false → c.buffer = buffer)

theorem keeps_false (buffer : ByteSpan) (value : Nat) : Keeps buffer (.ok ⟨false, buffer, value⟩) := by
  intro c h
  cases h
  exact ⟨rfl, fun _ => rfl⟩

theorem keeps_error (buffer : ByteSpan) (e : Fault) : Keeps buffer (.error e) := by
  intro c h
  cases h

theorem keeps_returnTrue (buffer view : ByteSpan) (bytesBefore value : Nat) :
    Keeps buffer (returnTrue buffer bytesBefore view value) := by
  intro c h
  obtain ⟨htrue, hdata⟩ := returned_of_returnTrue h
  refine ⟨hdata, fun hfalse => ?_⟩
  rw [htrue] at hfalse
  cases hfalse

theorem keeps_decodeVIntMeteredLoop {buffer : ByteSpan} {bytesBefore : Nat} (fuel : Nat) :
    ∀ (view : ByteSpan) (value shift : Nat),
    Keeps buffer (decodeVIntMeteredLoop buffer bytesBefore fuel view value shift).value := by
  induction fuel with
  | zero =>
    intro view value shift
    exact keeps_false buffer value
  | succ fuel ih =>
    intro view value shift
    rw [decodeVIntMeteredLoop]
    split
    · exact keeps_false buffer value
    · cases view.readAs 1 with
      | error e => exact keeps_error buffer e
      | ok read =>
        simp only [value_bind]
        split
        · exact keeps_returnTrue buffer _ _ _
        · simp only [value_bind]
          split
          · exact keeps_false buffer _
          · exact ih _ _ _

theorem keeps_decodeVIntMetered (buffer : ByteSpan) (width value : Nat) :
    Keeps buffer (decodeVIntMetered buffer width value).value := by
  rw [decodeVIntMetered]
  split
  · exact keeps_false buffer value
  · split
    · exact keeps_false buffer value
    · simp only [value_bind]
      cases buffer.readAs 1 with
      | error e => exact keeps_error buffer e
      | ok read =>
        dsimp only
        split
        · exact keeps_returnTrue buffer _ _ _
        · exact keeps_decodeVIntMeteredLoop 9 _ _ _

/-! ## The decoder on the bytes of the encoder -/

theorem VIntCall.eq_of_result {c : VIntCall} {value : Nat} {buffer : ByteSpan}
    (h : c.result = some (value, buffer)) : c = ⟨true, buffer, value⟩ := by
  obtain ⟨returned, buffer', value'⟩ := c
  cases returned with
  | false => cases h
  | true =>
    cases h
    rfl

/-- A span is given by its bytes and what is left of them. -/
theorem eq_of_rest {s : ByteSpan} {before suffix : Bytes} (hs : s.Fits)
    (hdata : s.data = before ++ suffix) (hrest : s.rest = suffix) :
    s = ⟨before ++ suffix, before.length⟩ := by
  have hle := hs.cur_le
  have hlen := congrArg List.length hrest
  rw [ByteSpan.length_rest, ByteSpan.size] at hlen
  rw [hdata, List.length_append] at hle hlen
  obtain ⟨data, cur⟩ := s
  simp only at hdata hle hlen
  subst hdata
  rw [show cur = before.length by omega]

/-- A prefix integer is decoded to its value under any flag bits, between any bytes, and the buffer
moves past it. -/
theorem decodeVIntMetered_encodeVInt {width value : Nat} {flag : UInt8} (before suffix : Bytes)
    (value₀ : Nat) (h1 : 1 ≤ width) (h8 : width ≤ 8) (hvalue : value < 2 ^ 63 + 2 ^ width - 1)
    (hflag : flag.toNat % 2 ^ width = 0)
    (hlen : (encodeVInt before width value ++ suffix).length < 2 ^ 32) :
    (decodeVIntMetered ⟨orAt (encodeVInt before width value) before.length flag ++ suffix,
        before.length⟩ width value₀).value =
      .ok ⟨true, ⟨orAt (encodeVInt before width value) before.length flag ++ suffix,
        (encodeVInt before width value).length⟩, value⟩ := by
  obtain ⟨b, bs, hb, -, -, hread⟩ := readVInt_encodeVInt width value flag h1 h8 hvalue hflag
  rw [encodeVInt_append, hb] at hlen ⊢
  rw [orAt_append]
  set buffer : ByteSpan := ⟨before ++ (b ||| flag) :: bs ++ suffix, before.length⟩ with hbuffer
  have hfits : buffer.Fits := by
    refine ⟨?_, ?_⟩
    · rw [hbuffer, List.append_assoc, List.length_append]
      exact Nat.le_add_right _ _
    · simpa [hbuffer] using hlen
  have hrest : buffer.rest = (b ||| flag) :: bs ++ suffix := by
    rw [hbuffer, ByteSpan.rest, List.append_assoc, List.drop_left]
  -- the decoder of the codec, then the call that it abstracts
  have hagrees := decodeVInt_agrees hfits width h1 h8
  rw [hrest, hread suffix] at hagrees
  obtain ⟨after, hdecode, hafter, hsuffix⟩ := hagrees
  have hcall := value_decodeVIntMetered buffer width value₀
  rw [hdecode] at hcall
  cases hx : (decodeVIntMetered buffer width value₀).value with
  | error e =>
    rw [hx] at hcall
    cases hcall
  | ok c =>
    rw [hx] at hcall
    obtain rfl := VIntCall.eq_of_result (Except.ok.inj hcall)
    have hdata := (keeps_decodeVIntMetered buffer width value₀ _ hx).1
    rw [eq_of_rest hafter hdata hsuffix]
    congr 3
    simp

/-- Prefix integers: the decoder inverts the encoder and stops behind its bytes; on every input each
shift and addition is exact, and a call that returns `false` leaves the caller's buffer. -/
theorem decodeVIntMetered_correct :
    (∀ (width value value₀ : Nat) (flag : UInt8) (before suffix : Bytes), 1 ≤ width → width ≤ 8 →
      value < 2 ^ 63 + 2 ^ width - 1 → flag.toNat % 2 ^ width = 0 →
      (encodeVInt before width value ++ suffix).length < 2 ^ 32 →
      (decodeVIntMetered ⟨orAt (encodeVInt before width value) before.length flag ++ suffix,
          before.length⟩ width value₀).value =
        .ok ⟨true, ⟨orAt (encodeVInt before width value) before.length flag ++ suffix,
          (encodeVInt before width value).length⟩, value⟩) ∧
    ∀ (buffer : ByteSpan) (width value₀ : Nat),
      (decodeVIntMetered buffer width value₀).Exact ∧
      ∀ c, (decodeVIntMetered buffer width value₀).value = .ok c → c.returned = false →
        c.buffer = buffer := by
  constructor
  · intro width value value₀ flag before suffix h1 h8 hvalue hflag hlen
    exact decodeVIntMetered_encodeVInt before suffix value₀ h1 h8 hvalue hflag hlen
  · intro buffer width value₀
    refine ⟨exact_decodeVIntMetered buffer width value₀, fun c hc hfalse => ?_⟩
    exact (keeps_decodeVIntMetered buffer width value₀ c hc).2 hfalse

/-- 1337 in five bits under the flag of a size update, with one byte before it and one after it. -/
theorem decodeVIntMetered_1337 :
    (decodeVIntMetered ⟨[0x82, 0x3f, 0x9a, 0x0a, 0x84], 1⟩ 5 0).value =
      .ok ⟨true, ⟨[0x82, 0x3f, 0x9a, 0x0a, 0x84], 4⟩, 1337⟩ :=
  decodeVIntMetered_correct.1 5 1337 0 0x20 [0x82] [0x84] (by decide) (by decide) (by decide) (by decide)
    (by decide)

end Chttp2.Hpack
