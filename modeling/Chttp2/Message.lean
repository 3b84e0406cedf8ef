import Chttp2.Constants
import Chttp2.Hpack.StaticTable

/-!
# Requests, responses, events and the client configuration

The data that the protocol takes from its owner and hands back to it: `Request`, `Response`,
`ProtocolEvent` and the part of `ClientConfig` that the protocol reads.
-/

set_option autoImplicit false

namespace Chttp2

/-! ## Requests -/

/-- `std::map<std::string, std::string>`: the entries in the order of their keys. -/
structure HeaderMap where
  entries : List (Bytes × Bytes) := []
  sorted : entries.Pairwise (fun a b => a.1 < b.1) := by decide
  deriving DecidableEq

namespace HeaderMap

/-- The value of a key. -/
def find (m : HeaderMap) (key : Bytes) : Option Bytes :=
  (m.entries.find? fun e => e.1 = key).map Prod.snd

end HeaderMap

/-- The request as the protocol takes it: header fields and a body. -/
structure Request where
  headers : HeaderMap := {}
  body : Bytes := []
  deriving DecidableEq

/-- `isValid`: the pseudo-header fields that RFC 9113, section 8.3.1 and section 8.5 ask for. -/
def Request.isValid (r : Request) : Bool :=
  if r.headers.entries = [] then false
  else
    match r.headers.find (ascii ":method") with
    | none => false
    | some method =>
      if method = ascii "CONNECT" then
        (r.headers.find (ascii ":authority")).isSome && (r.headers.find (ascii ":scheme")).isNone &&
          (r.headers.find (ascii ":path")).isNone
      else (r.headers.find (ascii ":scheme")).isSome && (r.headers.find (ascii ":path")).isSome

/-! ## Responses -/

/-- The response of a stream, or the error in its place. -/
structure Response where
  headers : List HeaderField := []
  trailers : List HeaderField := []
  body : Bytes := []
  isError : Bool := false
  errorCode : ErrorCode := .noError
  errorMsg : Bytes := []
  extraMsg : Bytes := []
  deriving DecidableEq, Repr

/-- The white space that `std::stoi` skips. -/
def isSpace (c : UInt8) : Bool := c = 0x20 || (0x09 ≤ c && c ≤ 0x0d)

def isDigit (c : UInt8) : Bool := 0x30 ≤ c && c ≤ 0x39

/-- The number that a digit string denotes. -/
def digitsValue (ds : Bytes) : Nat := ds.foldl (fun n c => n * 10 + (c.toNat - 0x30)) 0

/-- `std::stoi`: white space, an optional sign and digits; what follows is ignored. It throws
without a digit and outside the range of `int`. -/
def stoi (s : Bytes) : Guarded Int :=
  let s := s.dropWhile isSpace
  let negative := s.head? = some 0x2d
  let digits := (if s.head? = some 0x2d ∨ s.head? = some 0x2b then s.drop 1 else s).takeWhile isDigit
  let value : Int := if negative then -digitsValue digits else digitsValue digits
  if digits = [] then .error .stoi
  else if int32Min ≤ value ∧ value ≤ int32Max then .ok value
  else .error .stoi

namespace Response

/-- `getStatusCode`; it is -1 without a `:status`. -/
def getStatusCode (r : Response) : Guarded Int :=
  match r.headers.find? fun header => header.name = ascii ":status" with
  | some header => stoi header.value
  | none => .ok (-1)

/-- The response of a request whose connection failed. -/
def failConnectionError (msg : Bytes) : Response :=
  { isError := true, errorMsg := ascii "Connection error", extraMsg := msg }

/-- The response that carries an error of the client itself. -/
def customError (msg : Bytes) : Response := { isError := true, errorMsg := msg }

/-- The response of a stream that failed with an error code. -/
def protocolError (code : ErrorCode) (msg : Bytes) : Response :=
  { isError := true, errorCode := code, errorMsg := ascii "Protocol error", extraMsg := msg }

end Response

/-! ## Events -/

/-- `ProtocolEvent`, one constructor for each of its factory functions. -/
inductive ProtocolEvent where
  | connectionStarted
  | settingsReceived
  | settingsAckReceived
  | pingReceived (opaqueData : Bytes)
  | pingAckReceived (opaqueData : Bytes)
  | goAwaySent (lastStreamId : StreamId) (errorCode : ErrorCode) (debugData : Bytes)
  | goAwayReceived (lastStreamId : StreamId) (errorCode : ErrorCode) (debugData : Bytes)
  | connectionError (errorCode : ErrorCode)
  | connectionClosed (errorCode : ErrorCode)
  | transportClosed
  | streamOpened (streamId : StreamId)
  | streamHeadersReceived (streamId : StreamId) (response : Response)
  | streamResetReceived (streamId : StreamId) (errorCode : ErrorCode)
  | streamClosed (streamId : StreamId) (errorCode : ErrorCode)
  | windowUpdateReceived (streamId : StreamId) (increment : Nat)
  | pushPromiseReceived (streamId promisedStreamId : StreamId)
  | unknownFrameReceived (frameType : FrameType) (streamId : StreamId) (flags : UInt8)
      (opaqueData : Bytes)
  | responseCompleted (streamId : StreamId) (response : Response)
  | responseFailed (streamId : StreamId) (errorCode : ErrorCode)
  deriving DecidableEq, Repr

/-! ## Configuration -/

/-- The fields of `ClientConfig` that the protocol reads, all of type `uint32_t`. -/
structure ClientConfig where
  maxConcurrentStreams : Nat := 100
  initialWindowSize : Nat := 65535
  maxFrameSize : Nat := 16384
  maxHeaderListSize : Nat := 0
  headerTableSize : Nat := 4096
  deriving DecidableEq, Repr

end Chttp2
