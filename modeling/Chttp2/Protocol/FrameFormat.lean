import Chttp2.Protocol.Delivery
import Chttp2.Protocol.FrameStep

/-!
# The frame format

`TypedFrame` is a frame of one of the nine types that the library builds and parses; `toBytes` and
`ofRaw` are the serialiser and the constructor of its type. `WellFormed` says that the header
describes the payload.

`ofRaw_raw` reads a well-formed frame back from the raw frame with its payload, and
`exists_wellFormed` shows that every raw frame which the checks of the protocol let through is the
raw frame of a well-formed one. `FrameCodec.popAll_flatMap` cuts a stream of written frames into
their raw frames, and `FrameCodec.buffer_of_tryPop` is its converse. `frame_format` puts them
together.
-/

set_option autoImplicit false

namespace Chttp2

/-! ## Headers -/

theorem FrameType.toByte_ofByte (b : UInt8) : (FrameType.ofByte b).toByte = b := by
  unfold FrameType.ofByte
  split <;> rename_i h
  case h_11 => rfl
  all_goals exact UInt8.toNat_inj.1 h.symm

/-- The type is one that a header can be read with. -/
def FrameType.Canonical (t : FrameType) : Prop := FrameType.ofByte t.toByte = t

namespace FrameHeader

theorem length_encode (h : FrameHeader) : h.encode.length = encodedSize := by
  simp [encode, encodedSize]

/-- A header that has been written is read back. -/
theorem decode_encode {h : FrameHeader} (ht : h.type.Canonical) (hlen : h.payloadLength < 2 ^ 24)
    (hid : h.streamId < 2 ^ 31) : decode (ByteSpan.ofBytes h.encode) = .ok h := by
  have hlength := bigEndian_toBigEndian (n := 3) (v := h.payloadLength) hlen
  have hstream := bigEndian_toBigEndian (n := 4) (v := h.streamId) (hid.trans (by decide))
  have hsize : (ByteSpan.ofBytes h.encode).size = encodedSize := h.length_encode
  simp only [toBigEndian] at hlength hstream
  simp only [decode, hsize, ne_eq, not_true_eq_false, if_false]
  simp only [encode, toBigEndian, ByteSpan.get, ByteSpan.ofBytes, List.cons_append, List.nil_append,
    List.getElem?_cons_zero, List.getElem?_cons_succ, ok_bind, hlength, hstream]
  rw [Nat.mod_eq_of_lt hid, ht]
  rfl

theorem eq_of_length_nine {b : Bytes} (h : b.length = 9) :
    ∃ b0 b1 b2 b3 b4 b5 b6 b7 b8, b = [b0, b1, b2, b3, b4, b5, b6, b7, b8] := by
  rcases b with _ | ⟨b0, _ | ⟨b1, _ | ⟨b2, _ | ⟨b3, _ | ⟨b4, _ | ⟨b5, _ | ⟨b6, _ | ⟨b7, _ |
    ⟨b8, _ | ⟨b9, l⟩⟩⟩⟩⟩⟩⟩⟩⟩⟩ <;> simp at h ⊢

/-- Nine bytes with a clear reserved bit are written back. -/
theorem encode_of_decode {b : Bytes} {h : FrameHeader} (hd : decode (ByteSpan.ofBytes b) = .ok h)
    (hr : bigEndian ((b.drop 5).take 4) < 2 ^ 31) : h.encode = b := by
  unfold decode at hd
  split at hd
  · cases hd
  · rename_i hsize
    have hlen : b.length = 9 := by simpa [encodedSize, ByteSpan.size, ByteSpan.ofBytes] using hsize
    obtain ⟨b0, b1, b2, b3, b4, b5, b6, b7, b8, rfl⟩ := eq_of_length_nine hlen
    have hlength := toBigEndian_bigEndian [b0, b1, b2]
    have hstream := toBigEndian_bigEndian [b5, b6, b7, b8]
    have hr' : bigEndian [b5, b6, b7, b8] < 2 ^ 31 := hr
    cases hd
    simp only [List.length_cons, List.length_nil, Nat.zero_add, Nat.reduceAdd] at hlength hstream
    simp only [encode, Nat.mod_eq_of_lt hr', hlength, hstream, FrameType.toByte_ofByte]
    rfl

end FrameHeader

/-! ## Typed frames -/

/-- The frames that the library builds and parses. -/
inductive TypedFrame where
  | data (frame : DataFrame)
  | headers (frame : HeadersFrame)
  | rstStream (frame : RstStreamFrame)
  | settings (frame : SettingFrame)
  | pushPromise (frame : PushPromiseFrame)
  | ping (frame : PingFrame)
  | goAway (frame : GoAwayFrame)
  | windowUpdate (frame : WindowUpdateFrame)
  | continuation (frame : ContinuationFrame)
  deriving DecidableEq, Repr

namespace TypedFrame

/-- The header of a frame of any type. -/
def header : TypedFrame → FrameHeader
  | .data f => f.header
  | .headers f => f.header
  | .rstStream f => f.header
  | .settings f => f.header
  | .pushPromise f => f.header
  | .ping f => f.header
  | .goAway f => f.header
  | .windowUpdate f => f.header
  | .continuation f => f.header

/-- The bytes of a frame of any type. -/
def toBytes : TypedFrame → Bytes
  | .data f => f.toBytes
  | .headers f => f.toBytes
  | .rstStream f => f.toBytes
  | .settings f => f.toBytes
  | .pushPromise f => f.toBytes
  | .ping f => f.toBytes
  | .goAway f => f.toBytes
  | .windowUpdate f => f.toBytes
  | .continuation f => f.toBytes

/-- The constructor of the frame's type; `none` for a type without one. -/
def ofRaw (frame : RawFrame) : Guarded (Option TypedFrame) :=
  match frame.header.type with
  | .data => do return some (.data (← DataFrame.ofRaw frame))
  | .headers => do return some (.headers (← HeadersFrame.ofRaw frame))
  | .rstStream => do return some (.rstStream (← RstStreamFrame.ofRaw frame))
  | .settings => do return some (.settings (← SettingFrame.ofRaw frame))
  | .pushPromise => do return some (.pushPromise (← PushPromiseFrame.ofRaw frame))
  | .ping => return some (.ping (PingFrame.ofRaw frame))
  | .goAway => do return some (.goAway (← GoAwayFrame.ofRaw frame))
  | .windowUpdate => do return some (.windowUpdate (← WindowUpdateFrame.ofRaw frame))
  | .continuation => return some (.continuation (ContinuationFrame.ofRaw frame))
  | .priority | .other _ => return none

/-- The type of frame that a constructor stands for. -/
def type : TypedFrame → FrameType
  | .data _ => .data
  | .headers _ => .headers
  | .rstStream _ => .rstStream
  | .settings _ => .settings
  | .pushPromise _ => .pushPromise
  | .ping _ => .ping
  | .goAway _ => .goAway
  | .windowUpdate _ => .windowUpdate
  | .continuation _ => .continuation

/-- The bytes that the fields of a setting take. -/
def settingBytes (s : Nat × Nat) : Bytes := toBigEndian 2 s.1 ++ toBigEndian 4 s.2

/-- The optional priority fields of a HEADERS frame. -/
def priorityBytes (f : HeadersFrame) : Bytes :=
  if f.header.hasAnyFlag .priority then
    toBigEndian 4 f.streamDependency ++ toBigEndian 1 f.weight else []

/-- What follows the header. -/
def payload : TypedFrame → Bytes
  | .data f => padLengthBytes f.header f.padLength ++ (f.data ++ paddingBytes f.header f.padding)
  | .headers f => padLengthBytes f.header f.padLength ++
      (priorityBytes f ++ (f.data ++ paddingBytes f.header f.padding))
  | .rstStream f => toBigEndian 4 f.errorCode
  | .settings f => f.settings.flatMap settingBytes
  | .pushPromise f => padLengthBytes f.header f.padLength ++
      (toBigEndian 4 f.promisedStreamId ++ (f.data ++ paddingBytes f.header f.padding))
  | .ping f => f.data
  | .goAway f => toBigEndian 4 f.lastStreamId ++ (toBigEndian 4 f.errorCode ++ f.data)
  | .windowUpdate f => toBigEndian 4 f.windowSizeIncrement
  | .continuation f => f.data

theorem toBytes_eq (f : TypedFrame) : f.toBytes = f.header.encode ++ f.payload := by
  cases f <;> simp [toBytes, header, payload, DataFrame.toBytes, HeadersFrame.toBytes,
    RstStreamFrame.toBytes, SettingFrame.toBytes, PushPromiseFrame.toBytes, PingFrame.toBytes,
    GoAwayFrame.toBytes, WindowUpdateFrame.toBytes, ContinuationFrame.toBytes, priorityBytes,
    List.append_assoc]
  rfl

/-- Padding is there exactly as the flag and the pad length say. -/
def PaddingMatches (header : FrameHeader) (padLength : Nat) (padding : Bytes) : Prop :=
  padLength < 256 ∧ padding.length = padLength ∧
    (header.hasAnyFlag .padded = false → padLength = 0)

/-- The fields have values of their types; padding and priority fields are those of the flags. -/
def FieldsOk : TypedFrame → Prop
  | .data f => PaddingMatches f.header f.padLength f.padding
  | .headers f => PaddingMatches f.header f.padLength f.padding ∧ f.streamDependency < 2 ^ 32 ∧
      f.weight < 256 ∧
      (f.header.hasAnyFlag .priority = false → f.streamDependency = 0 ∧ f.weight = 0)
  | .rstStream f => f.errorCode < 2 ^ 32
  | .settings f => ∀ s ∈ f.settings, s.1 < 2 ^ 16 ∧ s.2 < 2 ^ 32
  | .pushPromise f => PaddingMatches f.header f.padLength f.padding ∧ f.promisedStreamId < 2 ^ 31
  | .goAway f => f.lastStreamId < 2 ^ 31 ∧ f.errorCode < 2 ^ 32
  | .windowUpdate f => f.windowSizeIncrement < 2 ^ 32
  | .ping _ | .continuation _ => True

/-- A frame whose header describes it. -/
structure WellFormed (f : TypedFrame) : Prop where
  type : f.header.type = f.type
  payloadLength : f.header.payloadLength = f.payload.length
  length_lt : f.header.payloadLength < 2 ^ 24
  streamId_lt : f.header.streamId < 2 ^ 31
  fields : f.FieldsOk

/-- The raw frame of a well-formed frame. -/
def raw (f : TypedFrame) (h : f.WellFormed) : RawFrame where
  header := f.header
  data := f.payload
  length_data := h.payloadLength.symm
  payloadLength_lt := h.length_lt
  streamId_lt := h.streamId_lt

/-! ## Reading typed frames back -/

section OfRaw

variable {header : FrameHeader} {padLength : Nat} {data padding rest : Bytes}

/-- The pad length is read back, and the bytes after it are left. -/
theorem readPadLength_append (hp : PaddingMatches header padLength padding)
    (hlen : (padLengthBytes header padLength ++ rest).length < 2 ^ 32) :
    ∃ s, readPadLength header (ByteSpan.ofBytes (padLengthBytes header padLength ++ rest)) =
      .ok (padLength, s) ∧ s.Fits ∧ s.rest = rest := by
  obtain ⟨hlt, -, hzero⟩ := hp
  have hfits := ByteSpan.fits_ofBytes hlen
  unfold readPadLength
  cases hflag : header.hasAnyFlag .padded with
  | false =>
    rw [padLengthBytes, hflag] at hfits ⊢
    refine ⟨_, ?_, hfits, rfl⟩
    rw [hzero hflag]
    rfl
  | true =>
    have hbytes : padLengthBytes header padLength ++ rest = padLength.toUInt8 :: rest := by
      rw [padLengthBytes, hflag]
      rfl
    have hnat : padLength.toUInt8.toNat = padLength := by
      rw [Nat.toUInt8_eq, UInt8.toNat_ofNat', Nat.mod_eq_of_lt hlt]
    rw [hbytes] at hfits ⊢
    obtain ⟨s, hs1, hs2, -, hs4⟩ := ByteSpan.advance_eq hfits (n := 1) (by simp)
    have hget : (ByteSpan.ofBytes (padLength.toUInt8 :: rest)).get 0 = .ok padLength.toUInt8 :=
      ByteSpan.get_eq rfl
    refine ⟨s, ?_, hs2, hs4⟩
    simp only [if_true, hget, ok_bind, hs1, hnat]
    rfl

/-- Data and padding are read back. -/
theorem splitPadding_paddingBytes (hp : PaddingMatches header padLength padding) {s : ByteSpan}
    (hs : s.Fits) (h : s.rest = data ++ paddingBytes header padding) :
    splitPadding padLength s = .ok (data, padding) := by
  obtain ⟨-, hlen, hzero⟩ := hp
  have hbytes : paddingBytes header padding = padding := by
    unfold paddingBytes
    split
    · rfl
    · rename_i hflag
      have h0 := hzero (Bool.not_eq_true _ ▸ hflag)
      exact (List.length_eq_zero_iff.1 (hlen.trans h0)).symm
  rw [← hlen]
  exact splitPadding_append hs (h.trans (by rw [hbytes]))

/-- The settings that have been written are read back. -/
theorem settingsOf_flatMap {settings : List (Nat × Nat)}
    (h : ∀ s ∈ settings, s.1 < 2 ^ 16 ∧ s.2 < 2 ^ 32) :
    settingsOf settings.length (settings.flatMap settingBytes) = settings := by
  induction settings with
  | nil => rfl
  | cons s settings ih =>
    obtain ⟨hid, hvalue⟩ := h s (by simp)
    have h2 : (toBigEndian 2 s.1).length = 2 := length_toBigEndian 2 s.1
    have h4 : (toBigEndian 4 s.2).length = 4 := length_toBigEndian 4 s.2
    have h6 : (settingBytes s).length = 6 := by simp [settingBytes]
    have htake : (settingBytes s ++ settings.flatMap settingBytes).take 2 = toBigEndian 2 s.1 := by
      rw [settingBytes, List.append_assoc, List.take_left' h2]
    have hdrop : ((settingBytes s ++ settings.flatMap settingBytes).drop 2).take 4 =
        toBigEndian 4 s.2 := by
      rw [settingBytes, List.append_assoc, List.drop_left' h2, List.take_left' h4]
    rw [List.length_cons, List.flatMap_cons, settingsOf, htake, hdrop, List.drop_left' h6,
      ih fun s' hs' => h s' (List.mem_cons_of_mem _ hs'), bigEndian_toBigEndian hid,
      bigEndian_toBigEndian hvalue]

theorem length_flatMap_settingBytes (settings : List (Nat × Nat)) :
    (settings.flatMap settingBytes).length = 6 * settings.length := by
  induction settings with
  | nil => rfl
  | cons s settings ih =>
    rw [List.flatMap_cons, List.length_append, ih, List.length_cons]
    simp only [settingBytes, List.length_append, length_toBigEndian]
    omega

/-- A HEADERS frame is read back, with or without its priority fields. -/
theorem ofRaw_headers {f : HeadersFrame} (h : (headers f).WellFormed) :
    HeadersFrame.ofRaw ((headers f).raw h) = .ok f := by
  have hlen : (payload (.headers f)).length < 2 ^ 32 := (raw (.headers f) h).length_data_lt
  obtain ⟨hp, hd, hw, hzero⟩ := h.fields
  obtain ⟨s, hs1, hs2, hs3⟩ := readPadLength_append hp hlen
  cases hflag : f.header.hasAnyFlag .priority with
  | false =>
    obtain ⟨hd0, hw0⟩ := hzero hflag
    have hprio : priorityBytes f = [] := by simp [priorityBytes, hflag]
    rw [hprio] at hs3
    have hsplit := splitPadding_paddingBytes hp hs2 hs3
    simp only [HeadersFrame.ofRaw, raw, header, payload, hflag, hs1, ok_bind, Bool.false_eq_true,
      if_false, pure_bind, hsplit]
    cases f
    cases hd0
    cases hw0
    rfl
  | true =>
    have hprio : priorityBytes f = toBigEndian 4 f.streamDependency ++ toBigEndian 1 f.weight := by
      simp [priorityBytes, hflag]
    rw [hprio, List.append_assoc] at hs3
    obtain ⟨s1, h11, h12, h13⟩ := ByteSpan.readAs_toBigEndian hs2 (by decide) hd hs3
    obtain ⟨s2, h21, h22, h23⟩ := ByteSpan.readAs_toBigEndian h12 (by decide) hw h13
    have hsplit := splitPadding_paddingBytes hp h22 h23
    simp only [HeadersFrame.ofRaw, raw, header, payload, hflag, hs1, ok_bind, if_true, h11, h21,
      pure_bind, hsplit]
    rfl

/-- The constructor of its type reads a well-formed frame back from its raw frame. -/
theorem ofRaw_raw {f : TypedFrame} (h : f.WellFormed) : ofRaw (f.raw h) = .ok (some f) := by
  have htype : (f.raw h).header.type = f.type := h.type
  have hlen : f.payload.length < 2 ^ 32 := (f.raw h).length_data_lt
  have hfields := h.fields
  unfold ofRaw
  rw [htype]
  cases f with
  | data f =>
    obtain ⟨s, hs1, hs2, hs3⟩ := readPadLength_append hfields hlen
    have hsplit := splitPadding_paddingBytes hfields hs2 hs3
    simp only [type, DataFrame.ofRaw, raw, TypedFrame.header, payload, hs1, ok_bind, hsplit]
    rfl
  | headers f =>
    simp only [type, ofRaw_headers h, ok_bind]
    rfl
  | rstStream f =>
    obtain ⟨s, hs, -, -⟩ := ByteSpan.readAs_toBigEndian (ByteSpan.fits_ofBytes hlen) (w := 4)
      (by decide) hfields (List.append_nil _).symm
    simp only [type, RstStreamFrame.ofRaw, raw, TypedFrame.header, hs, ok_bind]
    rfl
  | settings f =>
    have hbytes : (f.settings.flatMap settingBytes).length = 6 * f.settings.length :=
      length_flatMap_settingBytes f.settings
    have hpayload : (raw (.settings f) h).header.payloadLength = 6 * f.settings.length :=
      h.payloadLength.trans hbytes
    -- six bytes for each setting
    have hmod : (raw (.settings f) h).header.payloadLength % 6 = 0 := by
      rw [hpayload]
      omega
    have hread := SettingFrame.ofRaw_eq hmod
    have hsettings := settingsOf_flatMap hfields
    rw [hpayload, Nat.mul_div_cancel_left _ (by decide)] at hread
    simp only [type, hread, ok_bind]
    simp only [raw, payload, hsettings, TypedFrame.header]
    rfl
  | pushPromise f =>
    obtain ⟨hp, hid⟩ := hfields
    obtain ⟨s, hs1, hs2, hs3⟩ := readPadLength_append hp hlen
    obtain ⟨s', hs1', hs2', hs3'⟩ := ByteSpan.readAs_toBigEndian hs2 (by decide)
      (hid.trans (by decide)) hs3
    have hsplit := splitPadding_paddingBytes hp hs2' hs3'
    simp only [type, PushPromiseFrame.ofRaw, raw, TypedFrame.header, payload, hs1, ok_bind, hs1',
      hsplit, Nat.mod_eq_of_lt hid]
    rfl
  | ping f => rfl
  | goAway f =>
    obtain ⟨hid, hcode⟩ := hfields
    obtain ⟨s, hs1, hs2, hs3⟩ := ByteSpan.readAs_toBigEndian (ByteSpan.fits_ofBytes hlen)
      (w := 4) (by decide) (hid.trans (by decide)) rfl
    obtain ⟨s', hs1', -, hs3'⟩ := ByteSpan.readAs_toBigEndian hs2 (by decide) hcode hs3
    simp only [type, GoAwayFrame.ofRaw, raw, TypedFrame.header, hs1, ok_bind, hs1', hs3',
      Nat.mod_eq_of_lt hid]
    rfl
  | windowUpdate f =>
    obtain ⟨s, hs, -, -⟩ := ByteSpan.readAs_toBigEndian (ByteSpan.fits_ofBytes hlen) (w := 4)
      (by decide) hfields (List.append_nil _).symm
    simp only [type, WindowUpdateFrame.ofRaw, raw, TypedFrame.header, hs, ok_bind]
    rfl
  | continuation f => rfl

end OfRaw

end TypedFrame

/-! ## Writing parsed frames back -/

namespace RawFrame

/-- The frame is of a type with a constructor. -/
def HasConstructor (f : RawFrame) : Prop :=
  match f.header.type with
  | .priority | .other _ => False
  | _ => True

/-- The frame passes the size and padding checks of the handler of its type. -/
structure Passes (f : RawFrame) : Prop where
  length : ¬ f.BadLength
  padding : ∀ k, f.fixedPrefix = some k → validatePaddedPayload f k = .ok none

/-- The reserved bit before the stream id in the payload is clear. -/
def ReservedClear (f : RawFrame) : Prop :=
  match f.header.type with
  | .pushPromise => bigEndian ((f.data.drop (f.dataOffset 0)).take 4) < 2 ^ 31
  | .goAway => bigEndian (f.data.take 4) < 2 ^ 31
  | _ => True

/-- The bytes that the frame was cut from, if its header had a clear reserved bit. -/
def toBytes (f : RawFrame) : Bytes := f.header.encode ++ f.data

/-- The fields of the payload that are read after the pad length. -/
def prefixBytes (f : RawFrame) (k : Nat) : Bytes := (f.data.drop (f.dataOffset 0)).take k

variable {raw : RawFrame} {k : Nat}

theorem Passes.paddingOk (h : raw.Passes) (hk : raw.fixedPrefix = some k) : raw.PaddingOk k := by
  rcases validatePaddedPayload_cases raw k with ⟨hpad, -⟩ | ⟨-, code, text, heq, -⟩
  · exact hpad
  · rw [h.padding k hk] at heq
    cases heq

/-- An accepted payload is its pad length, its prefix, its data and its padding. -/
theorem PaddingOk.data_eq (h : raw.PaddingOk k) :
    ∃ padding, TypedFrame.PaddingMatches raw.header raw.padLength padding ∧
      (raw.prefixBytes k).length = k ∧
      raw.data = padLengthBytes raw.header raw.padLength ++ (raw.prefixBytes k ++
        (raw.paddedFragment k ++ paddingBytes raw.header padding)) := by
  obtain ⟨h1, h2⟩ := h
  unfold prefixBytes paddedFragment dataOffset padLengthBytes paddingBytes
    TypedFrame.PaddingMatches padLength at *
  cases hflag : raw.header.hasAnyFlag .padded with
  | false =>
    simp only [hflag, Bool.false_eq_true, if_false, List.drop_zero, Nat.sub_zero] at h1 h2 ⊢
    have hrest : (raw.data.drop k).take (raw.data.length - k) = raw.data.drop k :=
      List.take_of_length_le (by rw [List.length_drop])
    refine ⟨[], ⟨by decide, rfl, fun _ => trivial⟩, by rw [List.length_take]; omega, ?_⟩
    rw [hrest, List.append_nil, List.nil_append, List.take_append_drop]
  | true =>
    cases hd : raw.data with
    | nil =>
      simp only [hflag, if_true, hd, List.length_nil] at h1
      omega
    | cons b bs =>
      simp only [hflag, if_true, hd, List.length_cons, List.headD_cons, forall_const] at h1 h2 ⊢
      have hpad : b.toNat ≤ (bs.drop k).length := by
        rw [List.length_drop]
        omega
      have hlen : bs.length + 1 - (1 + k) - b.toNat = (bs.drop k).length - b.toNat := by
        rw [List.length_drop]
        omega
      refine ⟨(bs.drop k).drop ((bs.drop k).length - b.toNat), ⟨b.toNat_lt, ?_, by simp⟩, ?_, ?_⟩
      · rw [List.length_drop (i := _ - _)]
        omega
      · rw [List.drop_succ_cons, List.drop_zero, List.length_take]
        omega
      · rw [Nat.add_comm 1 k, List.drop_succ_cons, List.drop_succ_cons, List.drop_zero,
          Nat.add_comm k 1, hlen, List.take_append_drop, List.take_append_drop]
        simp

end RawFrame

namespace TypedFrame

/-- A header of a raw frame describes the payload that the frame was made from. -/
theorem wellFormed_of_payload {f : TypedFrame} {raw : RawFrame} (hheader : f.header = raw.header)
    (htype : raw.header.type = f.type) (hpayload : f.payload = raw.data) (hfields : f.FieldsOk) :
    ∃ h : f.WellFormed, f.raw h = raw := by
  refine ⟨⟨?_, ?_, ?_, ?_, hfields⟩, ?_⟩
  · rw [hheader, htype]
  · rw [hheader, hpayload, raw.length_data]
  · rw [hheader]
    exact raw.payloadLength_lt
  · rw [hheader]
    exact raw.streamId_lt
  · obtain ⟨header, data, _, _, _⟩ := raw
    cases hheader
    cases hpayload
    rfl

/-- Settings that have been read are written back. -/
theorem flatMap_settingsOf (n : Nat) : ∀ bs : Bytes, bs.length = 6 * n →
    (settingsOf n bs).flatMap settingBytes = bs ∧
      ∀ s ∈ settingsOf n bs, s.1 < 2 ^ 16 ∧ s.2 < 2 ^ 32 := by
  induction n with
  | zero =>
    intro bs hlen
    rw [List.length_eq_zero_iff.1 hlen]
    exact ⟨rfl, by simp [settingsOf]⟩
  | succ n ih =>
    intro bs hlen
    have h2 : (bs.take 2).length = 2 := by rw [List.length_take]; omega
    have h4 : ((bs.drop 2).take 4).length = 4 := by
      rw [List.length_take, List.length_drop]
      omega
    obtain ⟨hbytes, hbounds⟩ := ih (bs.drop 6) (by rw [List.length_drop]; omega)
    have hid := toBigEndian_bigEndian (bs.take 2)
    have hvalue := toBigEndian_bigEndian ((bs.drop 2).take 4)
    have hidlt := bigEndian_lt (bs.take 2)
    have hvaluelt := bigEndian_lt ((bs.drop 2).take 4)
    rw [h2] at hid hidlt
    rw [h4] at hvalue hvaluelt
    refine ⟨?_, ?_⟩
    · have hrest : (bs.drop 2).drop 4 = bs.drop 6 := List.drop_drop
      rw [settingsOf, List.flatMap_cons, hbytes, settingBytes, hid, hvalue, List.append_assoc,
        ← hrest, List.take_append_drop, List.take_append_drop]
    · rw [settingsOf, List.forall_mem_cons]
      exact ⟨⟨hidlt, hvaluelt⟩, hbounds⟩

/-- A four-byte field is written back. -/
theorem toBigEndian_four {bs : Bytes} (h : bs.length = 4) :
    toBigEndian 4 (bigEndian bs) = bs ∧ bigEndian bs < 2 ^ 32 := by
  have hbytes := toBigEndian_bigEndian bs
  have hlt := bigEndian_lt bs
  rw [h] at hbytes hlt
  exact ⟨hbytes, hlt⟩

variable {raw : RawFrame}

/-- The HEADERS frame in an accepted payload. -/
theorem exists_headers (htype : raw.header.type = .headers)
    (hpad : raw.PaddingOk raw.priorityPrefix) :
    ∃ (f : TypedFrame) (h : f.WellFormed), f.raw h = raw := by
  obtain ⟨padding, hmatch, hprefix, hdata⟩ := hpad.data_eq
  unfold RawFrame.priorityPrefix at hprefix hdata
  cases hflag : raw.header.hasAnyFlag .priority with
  | false =>
    simp only [hflag, Bool.false_eq_true, if_false] at hprefix hdata
    refine ⟨.headers ⟨raw.header, raw.padLength, 0, 0, raw.paddedFragment 0, padding⟩,
      wellFormed_of_payload rfl htype ?_ ⟨hmatch, by norm_num, by norm_num, fun _ => ⟨rfl, rfl⟩⟩⟩
    have hnil : raw.prefixBytes 0 = [] := List.length_eq_zero_iff.1 hprefix
    rw [hnil] at hdata
    rw [hdata]
    simp [payload, priorityBytes, hflag]
  | true =>
    simp only [hflag, if_true] at hprefix hdata
    have h4 : ((raw.prefixBytes 5).take 4).length = 4 := by rw [List.length_take]; omega
    have h1 : ((raw.prefixBytes 5).drop 4).length = 1 := by rw [List.length_drop]; omega
    obtain ⟨hdependency, hdlt⟩ := toBigEndian_four h4
    have hweight := toBigEndian_bigEndian ((raw.prefixBytes 5).drop 4)
    have hwlt := bigEndian_lt ((raw.prefixBytes 5).drop 4)
    rw [h1] at hweight hwlt
    refine ⟨.headers ⟨raw.header, raw.padLength, bigEndian ((raw.prefixBytes 5).take 4),
      bigEndian ((raw.prefixBytes 5).drop 4), raw.paddedFragment 5, padding⟩,
      wellFormed_of_payload rfl htype ?_
        ⟨hmatch, hdlt, hwlt, fun hno => absurd (hflag.symm.trans hno) (by decide)⟩⟩
    have hprio : toBigEndian 4 (bigEndian ((raw.prefixBytes 5).take 4)) ++
        toBigEndian 1 (bigEndian ((raw.prefixBytes 5).drop 4)) = raw.prefixBytes 5 := by
      rw [hdependency, hweight, List.take_append_drop]
    rw [payload, priorityBytes, if_pos hflag]
    dsimp only
    rw [hprio]
    exact hdata.symm

/-- The PUSH_PROMISE frame in an accepted payload. -/
theorem exists_pushPromise (htype : raw.header.type = .pushPromise) (hpad : raw.PaddingOk 4)
    (hreserved : bigEndian (raw.prefixBytes 4) < 2 ^ 31) :
    ∃ (f : TypedFrame) (h : f.WellFormed), f.raw h = raw := by
  obtain ⟨padding, hmatch, hprefix, hdata⟩ := hpad.data_eq
  obtain ⟨hbytes, -⟩ := toBigEndian_four hprefix
  refine ⟨.pushPromise ⟨raw.header, raw.padLength, bigEndian (raw.prefixBytes 4),
    raw.paddedFragment 4, padding⟩, wellFormed_of_payload rfl htype ?_ ⟨hmatch, hreserved⟩⟩
  rw [payload]
  dsimp only
  rw [hbytes]
  exact hdata.symm

/-- The GOAWAY frame in an accepted payload. -/
theorem exists_goAway (htype : raw.header.type = .goAway) (hlen : 8 ≤ raw.header.payloadLength)
    (hreserved : bigEndian (raw.data.take 4) < 2 ^ 31) :
    ∃ (f : TypedFrame) (h : f.WellFormed), f.raw h = raw := by
  rw [← raw.length_data] at hlen
  have hfirst : (raw.data.take 4).length = 4 := by
    rw [List.length_take]
    omega
  have hsecond : ((raw.data.drop 4).take 4).length = 4 := by
    rw [List.length_take, List.length_drop]
    omega
  obtain ⟨hid, -⟩ := toBigEndian_four hfirst
  obtain ⟨hcode, hclt⟩ := toBigEndian_four hsecond
  refine ⟨.goAway ⟨raw.header, bigEndian (raw.data.take 4), bigEndian ((raw.data.drop 4).take 4),
    raw.data.drop 8⟩, wellFormed_of_payload rfl htype ?_ ⟨hreserved, hclt⟩⟩
  have hrest : (raw.data.drop 4).drop 4 = raw.data.drop 8 := List.drop_drop
  rw [payload]
  dsimp only
  rw [hid, hcode, ← hrest, List.take_append_drop, List.take_append_drop]

/-- Every frame that passes the checks, with clear reserved bits, is the raw frame of a well-formed
one. -/
theorem exists_wellFormed (htype : raw.HasConstructor) (hpasses : raw.Passes)
    (hreserved : raw.ReservedClear) : ∃ (f : TypedFrame) (h : f.WellFormed), f.raw h = raw := by
  have hlength := hpasses.length
  have hdata := raw.length_data
  unfold RawFrame.HasConstructor at htype
  unfold RawFrame.ReservedClear at hreserved
  unfold RawFrame.BadLength at hlength
  cases ht : raw.header.type with
  | data =>
    -- the payload splits into pad length, data and padding
    have hpad := hpasses.paddingOk (k := 0) (by simp [RawFrame.fixedPrefix, ht])
    obtain ⟨padding, hmatch, hprefix, hbytes⟩ := hpad.data_eq
    refine ⟨.data ⟨raw.header, raw.padLength, raw.paddedFragment 0, padding⟩,
      wellFormed_of_payload rfl ht ?_ hmatch⟩
    rw [List.length_eq_zero_iff.1 hprefix] at hbytes
    exact hbytes.symm
  | headers => exact exists_headers ht (hpasses.paddingOk (by simp [RawFrame.fixedPrefix, ht]))
  -- there is no constructor for PRIORITY frames
  | priority =>
    rw [ht] at htype
    exact htype.elim
  | rstStream =>
    rw [ht] at hlength
    obtain ⟨hbytes, hlt⟩ := toBigEndian_four (hdata.trans (not_not.1 hlength))
    exact ⟨.rstStream ⟨raw.header, bigEndian raw.data⟩, wellFormed_of_payload rfl ht hbytes hlt⟩
  | settings =>
    rw [ht] at hlength
    have hsix : raw.header.payloadLength % 6 = 0 := by
      by_contra hne
      exact hlength (Or.inl hne)
    obtain ⟨hbytes, hbounds⟩ := flatMap_settingsOf (raw.header.payloadLength / 6) raw.data
      (by omega)
    exact ⟨.settings ⟨raw.header, raw.settings⟩, wellFormed_of_payload rfl ht hbytes hbounds⟩
  | pushPromise =>
    rw [ht] at hreserved
    exact exists_pushPromise ht (hpasses.paddingOk (by simp [RawFrame.fixedPrefix, ht])) hreserved
  | ping => exact ⟨.ping ⟨raw.header, raw.data⟩, wellFormed_of_payload rfl ht rfl trivial⟩
  | goAway =>
    rw [ht] at hlength hreserved
    exact exists_goAway ht (not_lt.1 hlength) hreserved
  | windowUpdate =>
    rw [ht] at hlength
    obtain ⟨hbytes, hlt⟩ := toBigEndian_four (hdata.trans (not_not.1 hlength))
    exact ⟨.windowUpdate ⟨raw.header, bigEndian raw.data⟩,
      wellFormed_of_payload rfl ht hbytes hlt⟩
  | continuation =>
    exact ⟨.continuation ⟨raw.header, raw.data⟩, wellFormed_of_payload rfl ht rfl trivial⟩
  | other code =>
    rw [ht] at htype
    exact htype.elim

/-- The raw frame of a well-formed frame is cut from the bytes of the frame. -/
theorem toBytes_raw {f : TypedFrame} (h : f.WellFormed) : (f.raw h).toBytes = f.toBytes :=
  f.toBytes_eq.symm

end TypedFrame

/-! ## Cutting the byte stream -/

namespace FrameCodec

/-- The frames that `tryPop` cuts from the buffer until it returns none; `fuel` bounds them. -/
def drain : Nat → FrameCodec → Guarded (List RawFrame × FrameCodec)
  | 0, c => return ([], c)
  | fuel + 1, c => do
    match ← c.tryPop with
    | none => return ([], c)
    | some (frame, c) =>
      let (frames, c) ← drain fuel c
      return (frame :: frames, c)

/-- All complete frames of the buffer. Each of them shortens it, so that its length is enough. -/
def popAll (c : FrameCodec) : Guarded (List RawFrame × FrameCodec) := drain c.buffer.length c

/-- A frame that has been written is cut from the front of the buffer. -/
theorem tryPop_toBytes {raw : RawFrame} (ht : raw.header.type.Canonical) (rest : Bytes) :
    tryPop ⟨raw.toBytes ++ rest⟩ = .ok (some (raw, ⟨rest⟩)) := by
  have hheader : raw.header.encode.length = FrameHeader.encodedSize := raw.header.length_encode
  have hlen : (raw.toBytes ++ rest).length =
      FrameHeader.encodedSize + raw.header.payloadLength + rest.length := by
    rw [RawFrame.toBytes, List.length_append, List.length_append, hheader, raw.length_data]
  refine tryPop_eq_some.2 ⟨?_, ?_, ?_, ?_, ?_⟩
  · dsimp only
    omega
  · dsimp only
    rw [RawFrame.toBytes, List.append_assoc, List.take_left' hheader]
    exact FrameHeader.decode_encode ht raw.payloadLength_lt raw.streamId_lt
  · dsimp only
    omega
  · dsimp only
    rw [RawFrame.toBytes, List.append_assoc, List.drop_left' hheader,
      List.take_left' raw.length_data]
  · dsimp only
    rw [List.drop_left']
    rw [RawFrame.toBytes, List.length_append, hheader, raw.length_data]

/-- A stream of written frames is cut into these frames, and nothing is left. -/
theorem drain_flatMap {raws : List RawFrame} (h : ∀ raw ∈ raws, raw.header.type.Canonical) :
    ∀ fuel, raws.length ≤ fuel →
      drain fuel ⟨raws.flatMap RawFrame.toBytes⟩ = .ok (raws, {}) := by
  induction raws with
  | nil =>
    intro fuel _
    cases fuel with
    | zero => rfl
    | succ fuel => rfl
  | cons raw raws ih =>
    intro fuel hfuel
    rw [List.length_cons] at hfuel
    obtain ⟨fuel, rfl⟩ : ∃ n, fuel = n + 1 := ⟨fuel - 1, by omega⟩
    have hpop := tryPop_toBytes (h raw (by simp)) (raws.flatMap RawFrame.toBytes)
    have hrest := ih (fun raw' hraw => h raw' (List.mem_cons_of_mem _ hraw)) fuel (by omega)
    rw [List.flatMap_cons, drain, hpop, ok_bind]
    dsimp only
    rw [hrest]
    rfl

theorem popAll_flatMap {raws : List RawFrame} (h : ∀ raw ∈ raws, raw.header.type.Canonical) :
    popAll ⟨raws.flatMap RawFrame.toBytes⟩ = .ok (raws, {}) := by
  refine drain_flatMap h _ ?_
  dsimp only
  induction raws with
  | nil => exact Nat.zero_le _
  | cons raw raws ih =>
    have hle := ih fun raw' hraw => h raw' (List.mem_cons_of_mem _ hraw)
    have hheader : raw.header.encode.length = FrameHeader.encodedSize := raw.header.length_encode
    rw [List.flatMap_cons, List.length_append, RawFrame.toBytes, List.length_append, hheader,
      List.length_cons, FrameHeader.encodedSize]
    omega

/-- What `tryPop` cuts from the buffer, written again. -/
theorem buffer_of_tryPop {c c' : FrameCodec} {raw : RawFrame}
    (h : c.tryPop = .ok (some (raw, c')))
    (hreserved : bigEndian ((c.buffer.drop 5).take 4) < 2 ^ 31) :
    c.buffer = raw.toBytes ++ c'.buffer := by
  obtain ⟨hsize, hd, -, hdata, hrest⟩ := tryPop_eq_some.1 h
  have hfield : ((c.buffer.take FrameHeader.encodedSize).drop 5).take 4 =
      (c.buffer.drop 5).take 4 := by
    rw [List.drop_take]
    exact List.take_of_length_le (List.length_take_le _ _)
  have hencode := FrameHeader.encode_of_decode hd (by rw [hfield]; exact hreserved)
  rw [RawFrame.toBytes, hencode, hdata, hrest, List.append_assoc, ← List.drop_drop,
    List.take_append_drop, List.take_append_drop]

end FrameCodec

namespace TypedFrame

theorem WellFormed.canonical {f : TypedFrame} (h : f.WellFormed) : f.header.type.Canonical := by
  rw [h.type]
  cases f <;> rfl

/-- Well-formed frames that are written one after the other are cut and parsed back, with nothing
left over; and a frame that passes the checks is written back as the bytes it was cut from. -/
theorem frame_format :
    (∀ frames : List TypedFrame, (∀ f ∈ frames, f.WellFormed) →
      ∃ raws, (({} : FrameCodec).feed (frames.flatMap toBytes)).popAll = .ok (raws, {}) ∧
        List.Forall₂ (fun f raw => ofRaw raw = .ok (some f)) frames raws) ∧
    ∀ (c c' : FrameCodec) (raw : RawFrame), c.tryPop = .ok (some (raw, c')) →
      bigEndian ((c.buffer.drop 5).take 4) < 2 ^ 31 → raw.HasConstructor → raw.Passes →
        raw.ReservedClear →
          ∃ f, ofRaw raw = .ok (some f) ∧ c.buffer = f.toBytes ++ c'.buffer := by
  refine ⟨?_, ?_⟩
  · intro frames h
    have hraws : ∃ raws : List RawFrame, (∀ raw ∈ raws, raw.header.type.Canonical) ∧
        raws.flatMap RawFrame.toBytes = frames.flatMap toBytes ∧
        List.Forall₂ (fun f raw => ofRaw raw = .ok (some f)) frames raws := by
      induction frames with
      | nil => exact ⟨[], by simp, rfl, .nil⟩
      | cons f frames ih =>
        have hf := h f (by simp)
        obtain ⟨raws, hcanonical, hbytes, hparsed⟩ :=
          ih fun f' hf' => h f' (List.mem_cons_of_mem _ hf')
        refine ⟨f.raw hf :: raws, ?_, ?_, .cons (ofRaw_raw hf) hparsed⟩
        · rw [List.forall_mem_cons]
          exact ⟨hf.canonical, hcanonical⟩
        · rw [List.flatMap_cons, List.flatMap_cons, hbytes, toBytes_raw]
    obtain ⟨raws, hcanonical, hbytes, hparsed⟩ := hraws
    refine ⟨raws, ?_, hparsed⟩
    rw [← hbytes]
    exact FrameCodec.popAll_flatMap hcanonical
  · intro c c' raw hpop hheader htype hpasses hreserved
    obtain ⟨f, hf, rfl⟩ := exists_wellFormed htype hpasses hreserved
    refine ⟨f, ofRaw_raw hf, ?_⟩
    rw [FrameCodec.buffer_of_tryPop hpop hheader, toBytes_raw]

end TypedFrame

end Chttp2
