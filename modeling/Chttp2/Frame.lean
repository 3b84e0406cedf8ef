import Chttp2.Constants

/-!
# Frames and the frame codec

The frame structures of `frame.hpp`, their constructors from a `RawFrame`, their serialisation,
and the buffer of `frame_codec.cpp` that cuts received bytes into raw frames.

The typed constructors read through `ByteSpan`, so they are `Guarded`; `validatePaddedPayload` is
the check that the protocol runs before them. `paddedFragment` is the payload without its prefix and
padding, and the constructors of padded frames return it on every payload the check accepts
(`DataFrame.ofRaw_eq`, `HeadersFrame.ofRaw_eq`, `PushPromiseFrame.ofRaw_eq`).
-/

set_option autoImplicit false

namespace Chttp2

/-- The nine bytes in front of a payload. -/
structure FrameHeader where
  payloadLength : Nat := 0
  type : FrameType := .other 0xff
  flags : UInt8 := 0
  streamId : StreamId := 0
  deriving DecidableEq, Repr

namespace FrameHeader

/-- `encodedSize()`. -/
def encodedSize : Nat := 9

/-- `hasAnyFlag`, for one flag. -/
def hasAnyFlag (h : FrameHeader) (validFlag : FrameFlag) : Bool := h.flags &&& validFlag.toByte != 0

/-- `setFlag`. -/
def setFlag (h : FrameHeader) (flag : FrameFlag) : FrameHeader :=
  { h with flags := h.flags ||| flag.toByte }

def setEndStreamFlag (h : FrameHeader) : FrameHeader := h.setFlag .endStream
def setAckFlag (h : FrameHeader) : FrameHeader := h.setFlag .ack
def setEndHeadersFlag (h : FrameHeader) : FrameHeader := h.setFlag .endHeaders
def hasEndHeadersFlag (h : FrameHeader) : Bool := h.hasAnyFlag .endHeaders
def hasEndStreamFlag (h : FrameHeader) : Bool := h.hasAnyFlag .endStream
def hasAckFlag (h : FrameHeader) : Bool := h.hasAnyFlag .ack

/-- `FrameHeader::decode`: nine bytes, the reserved bit of the stream id cleared. -/
def decode (data : ByteSpan) : Guarded FrameHeader :=
  if data.size ≠ encodedSize then .error .headerSize
  else do
    let b0 ← data.get 0
    let b1 ← data.get 1
    let b2 ← data.get 2
    let b3 ← data.get 3
    let b4 ← data.get 4
    let b5 ← data.get 5
    let b6 ← data.get 6
    let b7 ← data.get 7
    let b8 ← data.get 8
    return {
      payloadLength := bigEndian [b0, b1, b2]
      type := FrameType.ofByte b3
      flags := b4
      streamId := bigEndian [b5, b6, b7, b8] % 2 ^ 31 }

/-- `FrameHeader::encode`: nine bytes, length and stream id big-endian. -/
def encode (h : FrameHeader) : Bytes :=
  toBigEndian 3 h.payloadLength ++ [h.type.toByte, h.flags] ++ toBigEndian 4 h.streamId

end FrameHeader

/-- A frame as it is cut from the byte stream. The codec takes the payload by the length in the
header, so the two agree in every raw frame. -/
structure RawFrame where
  header : FrameHeader
  data : Bytes
  length_data : data.length = header.payloadLength
  payloadLength_lt : header.payloadLength < 2 ^ 24
  streamId_lt : header.streamId < 2 ^ 31
  deriving DecidableEq, Repr

/-- A raw frame from a payload. -/
def RawFrame.ofPayload (header : FrameHeader) (data : Bytes) (hlen : data.length < 2 ^ 24)
    (hid : header.streamId < 2 ^ 31) : RawFrame where
  header := { header with payloadLength := data.length }
  data := data
  length_data := rfl
  payloadLength_lt := hlen
  streamId_lt := hid

/-- DATA. `padLength` is the byte in front of the data of a padded frame. -/
structure DataFrame where
  header : FrameHeader := { type := .data }
  padLength : Nat := 0
  data : Bytes := []
  padding : Bytes := []
  deriving DecidableEq, Repr

/-- HEADERS, with the fields that the flags for padding and priority add. -/
structure HeadersFrame where
  header : FrameHeader := { type := .headers }
  padLength : Nat := 0
  streamDependency : Nat := 0
  weight : Nat := 0
  data : Bytes := []
  padding : Bytes := []
  deriving DecidableEq, Repr

/-- RST_STREAM. -/
structure RstStreamFrame where
  header : FrameHeader := { type := .rstStream }
  errorCode : Nat := 0
  deriving DecidableEq, Repr

/-- SETTINGS, as the pairs of identifier and value in the order of the frame. -/
structure SettingFrame where
  header : FrameHeader := { type := .settings }
  settings : List (Nat × Nat) := []
  deriving DecidableEq, Repr

/-- PUSH_PROMISE. -/
structure PushPromiseFrame where
  header : FrameHeader := { type := .pushPromise }
  padLength : Nat := 0
  promisedStreamId : Nat
  data : Bytes := []
  padding : Bytes := []
  deriving DecidableEq, Repr

/-- PING; its payload is eight opaque bytes. -/
structure PingFrame where
  header : FrameHeader := { type := .ping }
  data : Bytes := []
  deriving DecidableEq, Repr

/-- GOAWAY. `data` is the debug data. -/
structure GoAwayFrame where
  header : FrameHeader := { type := .goAway }
  lastStreamId : Nat
  errorCode : Nat
  data : Bytes := []
  deriving DecidableEq, Repr

/-- WINDOW_UPDATE. -/
structure WindowUpdateFrame where
  header : FrameHeader := { type := .windowUpdate }
  windowSizeIncrement : Nat
  deriving DecidableEq, Repr

/-- CONTINUATION. -/
structure ContinuationFrame where
  header : FrameHeader := { type := .continuation }
  data : Bytes := []
  deriving DecidableEq, Repr

/-! ## Typed constructors -/

/-- The first lines of the padded constructors: read the pad length if the frame is padded. -/
def readPadLength (header : FrameHeader) (payload : ByteSpan) : Guarded (Nat × ByteSpan) :=
  if header.hasAnyFlag .padded then do
    let padLength ← payload.get 0
    let payload ← payload.advance 1
    return (padLength.toNat, payload)
  else return (0, payload)

/-- The last lines of the padded constructors: cut what is left of the payload into data and
padding, in 32-bit arithmetic. -/
def splitPadding (padLength : Nat) (payload : ByteSpan) : Guarded (Bytes × Bytes) :=
  if padLength > 0 then do
    let dataSize := (payload.size + 2 ^ 32 - padLength) % 2 ^ 32
    let data := payload.rest.take dataSize
    let payload ← payload.advance dataSize
    return (data, payload.rest)
  else return (payload.rest, [])

/-- The constructor from a raw frame: the padding is cut off. -/
def DataFrame.ofRaw (frame : RawFrame) : Guarded DataFrame := do
  let payload := ByteSpan.ofBytes frame.data
  let (padLength, payload) ← readPadLength frame.header payload
  let (data, padding) ← splitPadding padLength payload
  return { header := frame.header, padLength, data, padding }

/-- The constructor from a raw frame: padding and priority are cut off. -/
def HeadersFrame.ofRaw (frame : RawFrame) : Guarded HeadersFrame := do
  let payload := ByteSpan.ofBytes frame.data
  let (padLength, payload) ← readPadLength frame.header payload
  let (streamDependency, weight, payload) ←
    if frame.header.hasAnyFlag .priority then do
      let (streamDependency, payload) ← payload.readAs 4
      let (weight, payload) ← payload.readAs 1
      pure (streamDependency, weight, payload)
    else pure (0, 0, payload)
  let (data, padding) ← splitPadding padLength payload
  return { header := frame.header, padLength, streamDependency, weight, data, padding }

/-- The constructor from a raw frame: the error code is the first four bytes. -/
def RstStreamFrame.ofRaw (frame : RawFrame) : Guarded RstStreamFrame := do
  let (errorCode, _) ← (ByteSpan.ofBytes frame.data).readAs 4
  return { header := frame.header, errorCode }

/-- The loop of the `SettingFrame` constructor; `fuel` bounds its rounds. -/
def SettingFrame.readSettings : Nat → ByteSpan → Guarded (List (Nat × Nat))
  | 0, _ => return []
  | fuel + 1, payload =>
    if payload.empty then return []
    else do
      let (id, payload) ← payload.readAs 2
      let (value, payload) ← payload.readAs 4
      let settings ← SettingFrame.readSettings fuel payload
      return (id, value) :: settings

/-- The constructor from a raw frame: six bytes for each setting. -/
def SettingFrame.ofRaw (frame : RawFrame) : Guarded SettingFrame := do
  let payload := ByteSpan.ofBytes frame.data
  if payload.size % 6 ≠ 0 then return { header := frame.header }
  else
    let settings ← SettingFrame.readSettings payload.size payload
    return { header := frame.header, settings }

/-- The constructor from a raw frame: the padding is cut off, the reserved bit cleared. -/
def PushPromiseFrame.ofRaw (frame : RawFrame) : Guarded PushPromiseFrame := do
  let payload := ByteSpan.ofBytes frame.data
  let (padLength, payload) ← readPadLength frame.header payload
  let (promisedStreamId, payload) ← payload.readAs 4
  let (data, padding) ← splitPadding padLength payload
  return {
    header := frame.header, padLength, promisedStreamId := promisedStreamId % 2 ^ 31, data,
    padding }

/-- The constructor from a raw frame. -/
def PingFrame.ofRaw (frame : RawFrame) : PingFrame :=
  { header := frame.header, data := frame.data }

/-- The constructor from a raw frame: eight bytes, and the rest is debug data. -/
def GoAwayFrame.ofRaw (frame : RawFrame) : Guarded GoAwayFrame := do
  let payload := ByteSpan.ofBytes frame.data
  let (lastStreamId, payload) ← payload.readAs 4
  let (errorCode, payload) ← payload.readAs 4
  return {
    header := frame.header, lastStreamId := lastStreamId % 2 ^ 31, errorCode,
    data := payload.rest }

/-- The constructor from a raw frame: the reserved bit is cleared. -/
def WindowUpdateFrame.ofRaw (frame : RawFrame) : Guarded WindowUpdateFrame := do
  let (windowSizeIncrement, _) ← (ByteSpan.ofBytes frame.data).readAs 4
  return { header := frame.header, windowSizeIncrement }

/-- The constructor from a raw frame. -/
def ContinuationFrame.ofRaw (frame : RawFrame) : ContinuationFrame :=
  { header := frame.header, data := frame.data }

/-! ## Serialisation -/

/-- The optional pad-length byte of a padded frame. -/
def padLengthBytes (header : FrameHeader) (padLength : Nat) : Bytes :=
  if header.hasAnyFlag .padded then [padLength.toUInt8] else []

/-- The optional padding of a padded frame. -/
def paddingBytes (header : FrameHeader) (padding : Bytes) : Bytes :=
  if header.hasAnyFlag .padded then padding else []

/-- The frame on the wire. -/
def DataFrame.toBytes (f : DataFrame) : Bytes :=
  f.header.encode ++ padLengthBytes f.header f.padLength ++ f.data ++
    paddingBytes f.header f.padding

/-- The frame on the wire, with padding and priority where the flags say so. -/
def HeadersFrame.toBytes (f : HeadersFrame) : Bytes :=
  f.header.encode ++ padLengthBytes f.header f.padLength ++
    (if f.header.hasAnyFlag .priority then
      toBigEndian 4 f.streamDependency ++ toBigEndian 1 f.weight else []) ++
    f.data ++ paddingBytes f.header f.padding

def RstStreamFrame.toBytes (f : RstStreamFrame) : Bytes :=
  f.header.encode ++ toBigEndian 4 f.errorCode

def SettingFrame.toBytes (f : SettingFrame) : Bytes :=
  f.header.encode ++ f.settings.flatMap fun s => toBigEndian 2 s.1 ++ toBigEndian 4 s.2

def PushPromiseFrame.toBytes (f : PushPromiseFrame) : Bytes :=
  f.header.encode ++ padLengthBytes f.header f.padLength ++ toBigEndian 4 f.promisedStreamId ++
    f.data ++ paddingBytes f.header f.padding

def PingFrame.toBytes (f : PingFrame) : Bytes := f.header.encode ++ f.data

def GoAwayFrame.toBytes (f : GoAwayFrame) : Bytes :=
  f.header.encode ++ toBigEndian 4 f.lastStreamId ++ toBigEndian 4 f.errorCode ++ f.data

def WindowUpdateFrame.toBytes (f : WindowUpdateFrame) : Bytes :=
  f.header.encode ++ toBigEndian 4 f.windowSizeIncrement

def ContinuationFrame.toBytes (f : ContinuationFrame) : Bytes := f.header.encode ++ f.data

/-- A buffer that the protocol hands to the transport: the connection preface or one frame. -/
inductive OutboundBuffer where
  | preface
  | data (frame : DataFrame)
  | headers (frame : HeadersFrame)
  | rstStream (frame : RstStreamFrame)
  | settings (frame : SettingFrame)
  | ping (frame : PingFrame)
  | goAway (frame : GoAwayFrame)
  | windowUpdate (frame : WindowUpdateFrame)
  | continuation (frame : ContinuationFrame)
  deriving DecidableEq, Repr

/-- The bytes of a buffer, as `appendOutboundFrame` queues them. -/
def OutboundBuffer.toBytes : OutboundBuffer → Bytes
  | .preface => http2ConnectionPreface
  | .data f => f.toBytes
  | .headers f => f.toBytes
  | .rstStream f => f.toBytes
  | .settings f => f.toBytes
  | .ping f => f.toBytes
  | .goAway f => f.toBytes
  | .windowUpdate f => f.toBytes
  | .continuation f => f.toBytes

/-! ## Padding check -/

/-- `validatePaddedPayload`; `none` stands for `true`, and a rejection carries its error code and
debug text. -/
def validatePaddedPayload (frame : RawFrame) (fixedPrefixBytes : Nat) :
    Guarded (Option (ErrorCode × String)) :=
  if !frame.header.hasAnyFlag .padded then
    if frame.header.payloadLength < fixedPrefixBytes then
      return some (.frameSizeError, "frame payload shorter than required prefix")
    else return none
  else if frame.header.payloadLength = 0 then
    return some (.protocolError, "PADDED frame missing pad length")
  else do
    let padLength ← (ByteSpan.ofBytes frame.data).get 0
    if frame.header.payloadLength < 1 + fixedPrefixBytes then
      return some (.frameSizeError, "frame payload shorter than padded prefix")
    else
      let remaining := frame.header.payloadLength - 1 - fixedPrefixBytes
      if padLength.toNat ≥ remaining then
        return some (.protocolError, "padding exceeds frame payload")
      else return none

/-- The pad length of a padded payload, and zero otherwise. -/
def RawFrame.padLength (frame : RawFrame) : Nat :=
  if frame.header.hasAnyFlag .padded then (frame.data.headD 0).toNat else 0

/-- The number of bytes before the data of a frame with a fixed prefix of `k` bytes. -/
def RawFrame.dataOffset (frame : RawFrame) (k : Nat) : Nat :=
  if frame.header.hasAnyFlag .padded then 1 + k else k

/-- The payload without the pad length, the fixed prefix of `k` bytes and the padding. -/
def RawFrame.paddedFragment (frame : RawFrame) (k : Nat) : Bytes :=
  (frame.data.drop (frame.dataOffset k)).take
    (frame.data.length - frame.dataOffset k - frame.padLength)

/-- The padding at the end of the payload. -/
def RawFrame.trailingPadding (frame : RawFrame) : Bytes :=
  frame.data.drop (frame.data.length - frame.padLength)

/-- The payloads that `validatePaddedPayload` lets through: there is room for the prefix, and in a
padded frame at least one byte besides the padding. -/
def RawFrame.PaddingOk (frame : RawFrame) (k : Nat) : Prop :=
  frame.dataOffset k ≤ frame.data.length ∧
    (frame.header.hasAnyFlag .padded = true →
      frame.padLength < frame.data.length - frame.dataOffset k)

section Padding

variable {frame : RawFrame} {k : Nat}

theorem RawFrame.length_data_lt (frame : RawFrame) : frame.data.length < 2 ^ 32 := by
  have h1 := frame.length_data
  have h2 := frame.payloadLength_lt
  omega

/-- The padding check never reads outside the payload, and it accepts exactly `PaddingOk`. -/
theorem validatePaddedPayload_cases (frame : RawFrame) (k : Nat) :
    (frame.PaddingOk k ∧ validatePaddedPayload frame k = .ok none) ∨
      (¬ frame.PaddingOk k ∧ ∃ code text, validatePaddedPayload frame k = .ok (some (code, text)) ∧
        (code = .protocolError ∨ code = .frameSizeError)) := by
  have hlen := frame.length_data
  unfold validatePaddedPayload RawFrame.PaddingOk RawFrame.dataOffset RawFrame.padLength
  cases hp : frame.header.hasAnyFlag .padded with
  | false =>
    by_cases hk : frame.header.payloadLength < k
    · right
      refine ⟨by simp; omega, .frameSizeError, "frame payload shorter than required prefix", ?_,
        Or.inr rfl⟩
      simp only [Bool.not_false, if_true, if_pos hk]
      rfl
    · left
      refine ⟨⟨by simp; omega, by simp⟩, ?_⟩
      simp only [Bool.not_false, if_true, if_neg hk]
      rfl
  | true =>
    cases hd : frame.data with
    | nil =>
      right
      refine ⟨by simp, .protocolError, "PADDED frame missing pad length", ?_, Or.inl rfl⟩
      have h0 : frame.header.payloadLength = 0 := by rw [← hlen, hd, List.length_nil]
      simp only [Bool.not_true, Bool.false_eq_true, if_false, if_pos h0]
      rfl
    | cons b bs =>
      rw [hd] at hlen
      simp only [List.length_cons] at hlen
      have h0 : frame.header.payloadLength ≠ 0 := by omega
      -- the pad length is read only where the payload has a byte
      have hget : (ByteSpan.ofBytes (b :: bs)).get 0 = .ok b := ByteSpan.get_eq rfl
      simp only [Bool.not_true, Bool.false_eq_true, if_false, if_neg h0, hget, ok_bind, if_true,
        List.headD_cons, List.length_cons, forall_const]
      by_cases hk : frame.header.payloadLength < 1 + k
      · right
        refine ⟨by omega, .frameSizeError, "frame payload shorter than padded prefix", ?_,
          Or.inr rfl⟩
        rw [if_pos hk]
        rfl
      · by_cases hpad : b.toNat ≥ frame.header.payloadLength - 1 - k
        · right
          refine ⟨by omega, .protocolError, "padding exceeds frame payload", ?_, Or.inl rfl⟩
          rw [if_neg hk, if_pos hpad]
          rfl
        · left
          refine ⟨⟨by omega, by omega⟩, ?_⟩
          rw [if_neg hk, if_neg hpad]
          rfl

/-- Reading the pad length of an accepted payload. -/
theorem readPadLength_eq (h : frame.PaddingOk k) :
    ∃ s, readPadLength frame.header (ByteSpan.ofBytes frame.data) = .ok (frame.padLength, s) ∧
      s.Fits ∧ s.rest = frame.data.drop (frame.dataOffset 0) := by
  obtain ⟨h1, h2⟩ := h
  have hfits := ByteSpan.fits_ofBytes frame.length_data_lt
  unfold readPadLength RawFrame.padLength RawFrame.dataOffset at *
  cases hp : frame.header.hasAnyFlag .padded with
  | false => exact ⟨ByteSpan.ofBytes frame.data, by simp; rfl, hfits, by simp⟩
  | true =>
    simp only [hp, if_true] at h1
    cases hd : frame.data with
    | nil =>
      rw [hd] at h1
      simp at h1
    | cons b bs =>
      rw [hd] at hfits
      obtain ⟨s, hs1, hs2, -, hs4⟩ := ByteSpan.advance_eq hfits (n := 1) (by simp)
      have hget : (ByteSpan.ofBytes (b :: bs)).get 0 = .ok b := ByteSpan.get_eq rfl
      refine ⟨s, ?_, hs2, ?_⟩
      · simp only [if_true, hget, ok_bind, hs1, List.headD_cons]
        rfl
      · rw [hs4]
        simp

/-- Data and padding that follow each other are told apart by the length of the padding. -/
theorem splitPadding_append {s : ByteSpan} (hs : s.Fits) {data padding : Bytes}
    (h : s.rest = data ++ padding) :
    splitPadding padding.length s = .ok (data, padding) := by
  have hsize : s.size = data.length + padding.length := by
    rw [← ByteSpan.length_rest, h, List.length_append]
  have hlt : s.size < 2 ^ 32 := lt_of_le_of_lt (Nat.sub_le _ _) hs.length_lt
  unfold splitPadding
  by_cases hp : 0 < padding.length
  · have hds : (s.size + 2 ^ 32 - padding.length) % 2 ^ 32 = data.length := by omega
    obtain ⟨s', hs1, -, -, hs4⟩ := ByteSpan.advance_eq hs (n := data.length)
      (by rw [ByteSpan.length_rest]; omega)
    simp only [if_pos hp, hds, hs1, ok_bind]
    rw [hs4, h, List.take_left' rfl, List.drop_left' rfl]
    rfl
  · have hnil : padding = [] := List.length_eq_zero_iff.1 (by omega)
    rw [if_neg hp, h, hnil, List.append_nil]
    rfl

/-- Cutting off the padding of what is left after the prefix. -/
theorem splitPadding_eq (h : frame.PaddingOk k) {s : ByteSpan} (hs : s.Fits)
    (hrest : s.rest = frame.data.drop (frame.dataOffset k)) :
    splitPadding frame.padLength s = .ok (frame.paddedFragment k, frame.trailingPadding) := by
  obtain ⟨h1, h2⟩ := h
  have hle : frame.padLength ≤ frame.data.length - frame.dataOffset k := by
    by_cases hflag : frame.header.hasAnyFlag .padded = true
    · exact (h2 hflag).le
    · simp [RawFrame.padLength, hflag]
  have hsplit := splitPadding_append hs (hrest.trans (List.take_append_drop
    (frame.data.length - frame.dataOffset k - frame.padLength) _).symm)
  have hend : frame.dataOffset k + (frame.data.length - frame.dataOffset k - frame.padLength) =
      frame.data.length - frame.padLength := by omega
  rw [List.length_drop, List.length_drop, Nat.sub_sub_self hle, List.drop_drop, hend] at hsplit
  exact hsplit

theorem DataFrame.ofRaw_eq (h : frame.PaddingOk 0) :
    ∃ f, DataFrame.ofRaw frame = .ok f ∧ f.header = frame.header ∧
      f.data = frame.paddedFragment 0 ∧ f.padLength = frame.padLength ∧
      f.padding = frame.trailingPadding := by
  obtain ⟨s, hs1, hs2, hs3⟩ := readPadLength_eq h
  have hp := splitPadding_eq h hs2 hs3
  refine ⟨⟨frame.header, frame.padLength, frame.paddedFragment 0, frame.trailingPadding⟩, ?_, rfl,
    rfl, rfl, rfl⟩
  simp only [DataFrame.ofRaw, hs1, ok_bind, hp]
  rfl

/-- The length of the priority fields of a HEADERS frame. -/
def RawFrame.priorityPrefix (frame : RawFrame) : Nat :=
  if frame.header.hasAnyFlag .priority then 5 else 0

theorem HeadersFrame.ofRaw_eq (h : frame.PaddingOk frame.priorityPrefix) :
    ∃ f, HeadersFrame.ofRaw frame = .ok f ∧ f.header = frame.header ∧
      f.data = frame.paddedFragment frame.priorityPrefix ∧ f.padLength = frame.padLength ∧
      f.padding = frame.trailingPadding ∧ (frame.header.hasAnyFlag .priority = true →
        f.streamDependency = bigEndian ((frame.data.drop (frame.dataOffset 0)).take 4) ∧
        f.weight = bigEndian ((frame.data.drop (frame.dataOffset 0 + 4)).take 1)) := by
  obtain ⟨s, hs1, hs2, hs3⟩ := readPadLength_eq h
  cases hp : frame.header.hasAnyFlag .priority with
  | false =>
    have hk : frame.priorityPrefix = 0 := by simp [RawFrame.priorityPrefix, hp]
    rw [hk] at h ⊢
    have hsplit := splitPadding_eq h hs2 hs3
    refine ⟨⟨frame.header, frame.padLength, 0, 0, frame.paddedFragment 0, frame.trailingPadding⟩,
      ?_, rfl, rfl, rfl, rfl, by simp⟩
    simp only [HeadersFrame.ofRaw, hs1, ok_bind, hp, Bool.false_eq_true, if_false, pure_bind,
      hsplit]
    rfl
  | true =>
    have hk : frame.priorityPrefix = 5 := by simp [RawFrame.priorityPrefix, hp]
    rw [hk] at h ⊢
    -- the padding check has made room for the priority fields
    have hroom : 5 ≤ s.rest.length := by
      have := h.1
      rw [hs3, List.length_drop]
      unfold RawFrame.dataOffset at *
      split at this
      · simp_all
        omega
      · simp_all
    obtain ⟨s1, h11, h12, -, h14⟩ := ByteSpan.readAs_eq hs2 (w := 4) (by omega) (by omega)
    obtain ⟨s2, h21, h22, -, h24⟩ := ByteSpan.readAs_eq h12 (w := 1) (by omega)
      (by rw [h14, List.length_drop]; omega)
    have hrest : s2.rest = frame.data.drop (frame.dataOffset 5) := by
      rw [h24, h14, hs3, List.drop_drop, List.drop_drop]
      unfold RawFrame.dataOffset
      split <;> rfl
    have hsplit := splitPadding_eq h h22 hrest
    refine ⟨⟨frame.header, frame.padLength, bigEndian (s.rest.take 4), bigEndian (s1.rest.take 1),
      frame.paddedFragment 5, frame.trailingPadding⟩, ?_, rfl, rfl, rfl, rfl, fun _ => ⟨?_, ?_⟩⟩
    rotate_left
    · rw [hs3]
    · rw [h14, hs3, List.drop_drop]
    simp only [HeadersFrame.ofRaw, hs1, ok_bind, hp, if_true, h11, h21, pure_bind, hsplit]
    rfl

theorem PushPromiseFrame.ofRaw_eq (h : frame.PaddingOk 4) :
    ∃ f, PushPromiseFrame.ofRaw frame = .ok f ∧ f.header = frame.header ∧
      f.data = frame.paddedFragment 4 ∧ f.padLength = frame.padLength ∧
      f.padding = frame.trailingPadding ∧ f.promisedStreamId =
        bigEndian ((frame.data.drop (frame.dataOffset 0)).take 4) % 2 ^ 31 := by
  obtain ⟨s, hs1, hs2, hs3⟩ := readPadLength_eq h
  have hroom : 4 ≤ s.rest.length := by
    have := h.1
    rw [hs3, List.length_drop]
    unfold RawFrame.dataOffset at *
    split at this
    · simp_all
      omega
    · simp_all
  obtain ⟨s1, h11, h12, -, h14⟩ := ByteSpan.readAs_eq hs2 (w := 4) (by omega) (by omega)
  have hrest : s1.rest = frame.data.drop (frame.dataOffset 4) := by
    rw [h14, hs3, List.drop_drop]
    unfold RawFrame.dataOffset
    split <;> rfl
  have hsplit := splitPadding_eq h h12 hrest
  refine ⟨⟨frame.header, frame.padLength, bigEndian (s.rest.take 4) % 2 ^ 31,
    frame.paddedFragment 4, frame.trailingPadding⟩, ?_, rfl, rfl, rfl, rfl, by rw [hs3]⟩
  simp only [PushPromiseFrame.ofRaw, hs1, ok_bind, h11, hsplit]
  rfl

end Padding

/-! ## Fixed-size frames -/

section FixedSize

variable {frame : RawFrame}

theorem RstStreamFrame.ofRaw_eq (h : frame.header.payloadLength = 4) :
    RstStreamFrame.ofRaw frame = .ok ⟨frame.header, bigEndian frame.data⟩ := by
  have hlen : frame.data.length = 4 := by rw [frame.length_data, h]
  obtain ⟨s, hs, -, -, -⟩ := ByteSpan.readAs_eq (ByteSpan.fits_ofBytes frame.length_data_lt)
    (w := 4) (by omega) (by simp [hlen])
  simp only [RstStreamFrame.ofRaw, hs, ok_bind, ByteSpan.rest_ofBytes]
  rw [List.take_of_length_le (by omega)]
  rfl

theorem WindowUpdateFrame.ofRaw_eq (h : frame.header.payloadLength = 4) :
    WindowUpdateFrame.ofRaw frame = .ok ⟨frame.header, bigEndian frame.data⟩ := by
  have hlen : frame.data.length = 4 := by rw [frame.length_data, h]
  obtain ⟨s, hs, -, -, -⟩ := ByteSpan.readAs_eq (ByteSpan.fits_ofBytes frame.length_data_lt)
    (w := 4) (by omega) (by simp [hlen])
  simp only [WindowUpdateFrame.ofRaw, hs, ok_bind, ByteSpan.rest_ofBytes]
  rw [List.take_of_length_le (by omega)]
  rfl

theorem GoAwayFrame.ofRaw_eq (h : 8 ≤ frame.header.payloadLength) :
    GoAwayFrame.ofRaw frame = .ok ⟨frame.header, bigEndian (frame.data.take 4) % 2 ^ 31,
      bigEndian ((frame.data.drop 4).take 4), frame.data.drop 8⟩ := by
  have hlen : 8 ≤ frame.data.length := by rw [frame.length_data]; exact h
  obtain ⟨s, h1, h2, -, h4⟩ := ByteSpan.readAs_eq (ByteSpan.fits_ofBytes frame.length_data_lt)
    (w := 4) (by omega) (by simp; omega)
  obtain ⟨s', h1', -, -, h4'⟩ := ByteSpan.readAs_eq h2 (w := 4) (by omega)
    (by rw [h4]; simp; omega)
  simp only [GoAwayFrame.ofRaw, h1, ok_bind, h1', h4', h4, ByteSpan.rest_ofBytes, List.drop_drop]
  rfl

/-- The settings a payload lists, six bytes each. -/
def settingsOf : Nat → Bytes → List (Nat × Nat)
  | 0, _ => []
  | n + 1, bs => (bigEndian (bs.take 2), bigEndian ((bs.drop 2).take 4)) :: settingsOf n (bs.drop 6)

theorem SettingFrame.readSettings_eq (n : Nat) :
    ∀ (fuel : Nat) (s : ByteSpan), s.Fits → s.rest.length = 6 * n → n ≤ fuel →
      SettingFrame.readSettings fuel s = .ok (settingsOf n s.rest) := by
  induction n with
  | zero =>
    intro fuel s _ hlen _
    have hempty : s.empty = true := ByteSpan.empty_iff.2 (List.length_eq_zero_iff.1 hlen)
    cases fuel with
    | zero => rfl
    | succ fuel =>
      rw [SettingFrame.readSettings, if_pos hempty]
      rfl
  | succ n ih =>
    intro fuel s hs hlen hfuel
    obtain ⟨fuel, rfl⟩ : ∃ m, fuel = m + 1 := ⟨fuel - 1, by omega⟩
    have hempty : s.empty = false := by
      rw [ByteSpan.empty_eq_false_iff]
      intro h
      rw [h] at hlen
      simp at hlen
    obtain ⟨s1, h11, h12, -, h14⟩ := ByteSpan.readAs_eq hs (w := 2) (by omega) (by omega)
    obtain ⟨s2, h21, h22, -, h24⟩ := ByteSpan.readAs_eq h12 (w := 4) (by omega)
      (by rw [h14, List.length_drop]; omega)
    have hrec := ih fuel s2 h22 (by rw [h24, h14]; simp only [List.length_drop]; omega) (by omega)
    rw [SettingFrame.readSettings, hempty]
    simp only [Bool.false_eq_true, if_false, h11, ok_bind, h21, hrec, settingsOf, h24, h14,
      List.drop_drop]
    rfl

theorem SettingFrame.ofRaw_eq (h : frame.header.payloadLength % 6 = 0) :
    SettingFrame.ofRaw frame =
      .ok ⟨frame.header, settingsOf (frame.header.payloadLength / 6) frame.data⟩ := by
  have hlen := frame.length_data
  have hsize : (ByteSpan.ofBytes frame.data).size = frame.header.payloadLength := by
    rw [← ByteSpan.length_rest, ByteSpan.rest_ofBytes, hlen]
  have hread := SettingFrame.readSettings_eq (frame.header.payloadLength / 6)
    frame.header.payloadLength (ByteSpan.ofBytes frame.data)
    (ByteSpan.fits_ofBytes frame.length_data_lt)
    (by rw [ByteSpan.rest_ofBytes, hlen]; omega) (by omega)
  simp only [SettingFrame.ofRaw, hsize, h, ne_eq, not_true_eq_false, if_false, hread, ok_bind,
    ByteSpan.rest_ofBytes]
  rfl

end FixedSize

/-! ## Frame codec -/

/-- `FrameCodec`: the bytes that have not been cut into frames. -/
structure FrameCodec where
  buffer : Bytes := []
  deriving DecidableEq, Repr

namespace FrameCodec

/-- `feed`: the bytes are appended to those that wait. -/
def feed (c : FrameCodec) (data : Bytes) : FrameCodec := { c with buffer := c.buffer ++ data }

/-- A header read from nine bytes is a header of a raw frame. -/
theorem decode_bounds {s : ByteSpan} {h : FrameHeader} (hd : FrameHeader.decode s = .ok h) :
    h.payloadLength < 2 ^ 24 ∧ h.streamId < 2 ^ 31 := by
  unfold FrameHeader.decode at hd
  split at hd
  · cases hd
  · simp only [bind_eq_ok] at hd
    obtain ⟨b0, -, b1, -, b2, -, b3, -, b4, -, b5, -, b6, -, b7, -, b8, -, hd⟩ := hd
    cases hd
    exact ⟨by simpa using bigEndian_lt [b0, b1, b2], Nat.mod_lt _ (by decide)⟩

/-- `tryPop`: cut the first complete frame from the buffer; `none` stands for `false`. -/
def tryPop (c : FrameCodec) : Guarded (Option (RawFrame × FrameCodec)) :=
  if c.buffer.length < FrameHeader.encodedSize then return none
  else
    match hd : FrameHeader.decode (ByteSpan.ofBytes (c.buffer.take FrameHeader.encodedSize)) with
    | .error e => .error e
    | .ok header =>
      let totalSize := FrameHeader.encodedSize + header.payloadLength
      if hlen : c.buffer.length < totalSize then return none
      else
        let payload := (c.buffer.drop FrameHeader.encodedSize).take header.payloadLength
        let frame : RawFrame := {
          header
          data := payload
          length_data := by
            simp only [payload, List.length_take, List.length_drop]
            simp only [totalSize] at hlen
            omega
          payloadLength_lt := (decode_bounds hd).1
          streamId_lt := (decode_bounds hd).2 }
        return some (frame, { c with buffer := c.buffer.drop totalSize })

end FrameCodec

/-- Decoding a header from nine bytes does not fail. -/
theorem FrameHeader.decode_ok {b : Bytes} (h : b.length = FrameHeader.encodedSize) :
    ∃ header, FrameHeader.decode (ByteSpan.ofBytes b) = .ok header := by
  have hsize : (ByteSpan.ofBytes b).size = FrameHeader.encodedSize := by
    rw [← ByteSpan.length_rest, ByteSpan.rest_ofBytes, h]
  have hget : ∀ i, i < 9 → ∃ x, (ByteSpan.ofBytes b).get i = .ok x := by
    intro i hi
    have hb : i < b.length := by rw [h]; exact hi
    exact ⟨b[i], by simp [ByteSpan.get, ByteSpan.ofBytes, hb]⟩
  obtain ⟨b0, h0⟩ := hget 0 (by omega)
  obtain ⟨b1, h1⟩ := hget 1 (by omega)
  obtain ⟨b2, h2⟩ := hget 2 (by omega)
  obtain ⟨b3, h3⟩ := hget 3 (by omega)
  obtain ⟨b4, h4⟩ := hget 4 (by omega)
  obtain ⟨b5, h5⟩ := hget 5 (by omega)
  obtain ⟨b6, h6⟩ := hget 6 (by omega)
  obtain ⟨b7, h7⟩ := hget 7 (by omega)
  obtain ⟨b8, h8⟩ := hget 8 (by omega)
  simp only [FrameHeader.decode, hsize, ne_eq, not_true_eq_false, if_false, h0, h1, h2, h3, h4, h5,
    h6, h7, h8, ok_bind]
  exact ⟨_, rfl⟩

namespace FrameCodec

/-- `tryPop` does not fail, and a popped frame leaves a shorter buffer. -/
theorem tryPop_cases (c : FrameCodec) :
    c.tryPop = .ok none ∨
      ∃ frame c', c.tryPop = .ok (some (frame, c')) ∧ c'.buffer.length < c.buffer.length := by
  unfold tryPop
  split
  · exact Or.inl rfl
  · rename_i hlen
    obtain ⟨header, hh⟩ := FrameHeader.decode_ok (b := c.buffer.take FrameHeader.encodedSize)
      (by rw [List.length_take]; omega)
    split
    · rename_i e he
      rw [hh] at he
      cases he
    · rename_i header' he
      dsimp only
      split
      · exact Or.inl rfl
      · rename_i htot
        refine Or.inr ⟨_, _, rfl, ?_⟩
        simp only [List.length_drop, FrameHeader.encodedSize] at *
        omega

end FrameCodec

end Chttp2
