import Chttp2.Bytes

/-!
# Protocol constants

Frame types, flags, error codes, setting parameters, stream states and the default values of
`http2_constants.hpp`. A frame type and an error code read from the wire may hold any value of
their underlying type, which the constructors `other` keep.
-/

set_option autoImplicit false

namespace Chttp2

abbrev StreamId := Nat

/-- `HTTP2_CONNECTION_PREFACE`. -/
def http2ConnectionPreface : Bytes := ascii "PRI * HTTP/2.0\r\n\r\nSM\r\n\r\n"

/-- `enum class FrameType : uint8_t`. -/
inductive FrameType where
  | data
  | headers
  | priority
  | rstStream
  | settings
  | pushPromise
  | ping
  | goAway
  | windowUpdate
  | continuation
  | other (code : UInt8)
  deriving DecidableEq, Repr

/-- `static_cast<FrameType>` of a byte. -/
def FrameType.ofByte (b : UInt8) : FrameType :=
  match b.toNat with
  | 0x0 => .data
  | 0x1 => .headers
  | 0x2 => .priority
  | 0x3 => .rstStream
  | 0x4 => .settings
  | 0x5 => .pushPromise
  | 0x6 => .ping
  | 0x7 => .goAway
  | 0x8 => .windowUpdate
  | 0x9 => .continuation
  | _ => .other b

/-- The byte of a frame type on the wire. -/
def FrameType.toByte : FrameType → UInt8
  | .data => 0x0
  | .headers => 0x1
  | .priority => 0x2
  | .rstStream => 0x3
  | .settings => 0x4
  | .pushPromise => 0x5
  | .ping => 0x6
  | .goAway => 0x7
  | .windowUpdate => 0x8
  | .continuation => 0x9
  | .other b => b

/-- `enum class FrameFlag : uint8_t`. -/
inductive FrameFlag where
  | endStream
  | ack
  | endHeaders
  | padded
  | priority
  deriving DecidableEq, Repr

/-- The bit of a flag. Several flags share one, for frames of different types. -/
def FrameFlag.toByte : FrameFlag → UInt8
  | .endStream => 0x1
  | .ack => 0x1
  | .endHeaders => 0x4
  | .padded => 0x8
  | .priority => 0x20

/-- `enum class ErrorCode : uint32_t`. -/
inductive ErrorCode where
  | noError
  | protocolError
  | internalError
  | flowControlError
  | settingsTimeout
  | streamClosed
  | frameSizeError
  | refusedStream
  | cancel
  | compressionError
  | connectError
  | enhanceYourCalm
  | inadequateSecurity
  | http11Required
  | other (code : Nat)
  deriving DecidableEq, Repr

/-- `static_cast<ErrorCode>` of a 32-bit value. -/
def ErrorCode.ofNat : Nat → ErrorCode
  | 0x0 => .noError
  | 0x1 => .protocolError
  | 0x2 => .internalError
  | 0x3 => .flowControlError
  | 0x4 => .settingsTimeout
  | 0x5 => .streamClosed
  | 0x6 => .frameSizeError
  | 0x7 => .refusedStream
  | 0x8 => .cancel
  | 0x9 => .compressionError
  | 0xa => .connectError
  | 0xb => .enhanceYourCalm
  | 0xc => .inadequateSecurity
  | 0xd => .http11Required
  | n => .other n

/-- The error code as RST_STREAM and GOAWAY carry it. -/
def ErrorCode.toNat : ErrorCode → Nat
  | .noError => 0x0
  | .protocolError => 0x1
  | .internalError => 0x2
  | .flowControlError => 0x3
  | .settingsTimeout => 0x4
  | .streamClosed => 0x5
  | .frameSizeError => 0x6
  | .refusedStream => 0x7
  | .cancel => 0x8
  | .compressionError => 0x9
  | .connectError => 0xa
  | .enhanceYourCalm => 0xb
  | .inadequateSecurity => 0xc
  | .http11Required => 0xd
  | .other n => n

/-- `enum class Http2SettingParameter : uint16_t`. -/
inductive Http2SettingParameter where
  | headerTableSize
  | enablePush
  | maxConcurrentStreams
  | initialWindowSize
  | maxFrameSize
  | maxHeaderListSize
  | other (code : Nat)
  deriving DecidableEq, Repr

/-- The parameter with this identifier; the receiver ignores the others. -/
def Http2SettingParameter.ofNat : Nat → Http2SettingParameter
  | 0x1 => .headerTableSize
  | 0x2 => .enablePush
  | 0x3 => .maxConcurrentStreams
  | 0x4 => .initialWindowSize
  | 0x5 => .maxFrameSize
  | 0x6 => .maxHeaderListSize
  | n => .other n

/-- The identifier of a parameter in a SETTINGS frame. -/
def Http2SettingParameter.toNat : Http2SettingParameter → Nat
  | .headerTableSize => 0x1
  | .enablePush => 0x2
  | .maxConcurrentStreams => 0x3
  | .initialWindowSize => 0x4
  | .maxFrameSize => 0x5
  | .maxHeaderListSize => 0x6
  | .other n => n

/-- The states of `enum class StreamState` that a stream of this client passes through. -/
inductive StreamState where
  | idle
  | open
  | halfClosedLocal
  | halfClosedRemote
  | closed
  deriving DecidableEq, Repr

namespace Http2SettingInfo

def defaultMaxConcurrentStreams : Nat := 250
def defaultHeaderTableSize : Nat := 4096
def defaultEnablePush : Bool := false
def defaultInitialWindowSize : Nat := 65535
def maximumWindowSize : Nat := 0x7fffffff
def defaultMaxFrameSize : Nat := 16384
def minimumMaxFrameSize : Nat := 16384
def maximumMaxFrameSize : Nat := 2 ^ 24 - 1
def defaultMaxHeaderListSize : Nat := 10 * 2 ^ 20

end Http2SettingInfo

/-- `INT32_MAX`. -/
def int32Max : Int := 2 ^ 31 - 1

/-- `INT32_MIN`. -/
def int32Min : Int := -2 ^ 31

/-- The value of a 32-bit word read as a signed integer, as `static_cast<int32_t>` gives it. -/
def wrapInt32 (v : Int) : Int := (v + 2 ^ 31) % 2 ^ 32 - 2 ^ 31

theorem wrapInt32_of_range {v : Int} (h0 : int32Min ≤ v) (h1 : v ≤ int32Max) :
    wrapInt32 v = v := by
  unfold wrapInt32 int32Min int32Max at *
  omega

theorem wrapInt32_le {v : Int} (h : int32Min ≤ v) : wrapInt32 v ≤ v := by
  unfold wrapInt32 int32Min at *
  omega

theorem wrapInt32_range (v : Int) : int32Min ≤ wrapInt32 v ∧ wrapInt32 v ≤ int32Max := by
  unfold wrapInt32 int32Min int32Max
  omega

end Chttp2
