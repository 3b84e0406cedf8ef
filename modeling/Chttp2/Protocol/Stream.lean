import Chttp2.Flow
import Chttp2.Message

/-!
# Streams and the validation of response header blocks

The `Stream` record of `stream.hpp` and the checks that `http2_protocol.cpp` runs on a decoded
header block. `scanHeaders` is the loop of `validateResponseHeaderBlock`; a rejected field ends it.

The member `lastEC` is left out: it is written only on a stream that is erased in the same step.
-/

set_option autoImplicit false

namespace Chttp2

/-- `Stream`: the request that is sent, the response that is received, and the windows of both. -/
structure Stream where
  streamId : StreamId
  streamState : StreamState := .idle
  requestStarted : Bool := false
  localEndStreamSent : Bool := false
  remoteEndStreamReceived : Bool := false
  waitingForContinuation : Bool := false
  pendingHeaderEndStream : Bool := false
  finalResponseHeadersReceived : Bool := false
  trailingHeadersReceived : Bool := false
  responseComplete : Bool := false
  isHeadRequest : Bool := false
  requestBodyOffset : Nat := 0
  expectedContentLength : Int := -1
  receivedContentLength : Int := 0
  rqst : Request := {}
  resp : Response := {}
  pendingHeaderBlock : Bytes := []
  inflow : InFlow := {}
  outflow : OutFlow := {}
  deriving DecidableEq

namespace Stream

def isClosed (s : Stream) : Bool := s.streamState = .closed

def hasBody (s : Stream) : Bool := !s.rqst.body.isEmpty

/-- The bytes of the request body that have not been sent. -/
def remainingBodySize (s : Stream) : Nat := s.rqst.body.length - s.requestBodyOffset

/-- HEAD, 204 and 304 forbid a response body. -/
def expectsNoBody (s : Stream) : Guarded Bool := do
  let status ← s.resp.getStatusCode
  return s.isHeadRequest || status = 204 || status = 304

/-- The condition of `finalizeRemoteStream` under which a response fails: a length was declared, a
body is allowed and the declared length is not the received one. -/
def contentLengthMismatch (s : Stream) : Guarded Bool :=
  if s.expectedContentLength ≥ 0 then do
    let noBody ← s.expectsNoBody
    return !noBody && s.receivedContentLength ≠ s.expectedContentLength
  else return false

/-- `setRequest`. -/
def setRequest (s : Stream) (request : Request) : Stream :=
  { s with
    rqst := request
    isHeadRequest := request.headers.find (ascii ":method") = some (ascii "HEAD") }

/-! ### Storing a header block -/

/-- The stream without its assembled header block. -/
def clearBlock (s : Stream) : Stream :=
  { s with
    pendingHeaderBlock := []
    waitingForContinuation := false
    pendingHeaderEndStream := false }

/-- The stream after an informational response. -/
def withInformational (s : Stream) (cl : Int) : Stream :=
  { s.clearBlock with expectedContentLength := cl }

/-- The stream after the header block of its final response. -/
def withHeaders (s : Stream) (cl : Int) (headers : List HeaderField) : Stream :=
  { s.clearBlock with
    expectedContentLength := cl
    resp := { s.resp with headers := s.resp.headers ++ headers }
    finalResponseHeadersReceived := true }

/-- The stream after its trailers. -/
def withTrailers (s : Stream) (cl : Int) (headers : List HeaderField) : Stream :=
  { s.clearBlock with
    expectedContentLength := cl
    resp := { s.resp with trailers := s.resp.trailers ++ headers }
    trailingHeadersReceived := true }

/-- The request method is CONNECT. -/
def isConnectRequest (s : Stream) : Bool :=
  s.rqst.headers.find (ascii ":method") = some (ascii "CONNECT")

end Stream

/-! ## Field checks -/

/-- RFC 9113, section 8.2.1: field names. -/
def hasInvalidFieldNameChar (name : Bytes) : Bool :=
  name.any fun ch => ch ≤ 0x20 || (0x41 ≤ ch && ch ≤ 0x5a) || 0x7f ≤ ch

/-- RFC 9113, section 8.2.1: field values. -/
def hasInvalidFieldValue (value : Bytes) : Bool :=
  if value = [] then false
  else
    let first := value.headD 0
    let last := value.getLastD 0
    if first = 0x20 || first = 0x09 || last = 0x20 || last = 0x09 then true
    else value.any fun c => c = 0x00 || c = 0x0a || c = 0x0d

def toLowerAscii (c : UInt8) : UInt8 := if 0x41 ≤ c && c ≤ 0x5a then c - 0x41 + 0x61 else c

def equalsIgnoreCaseAscii (lhs rhs : Bytes) : Bool := lhs.map toLowerAscii = rhs.map toLowerAscii

/-- The headers that HTTP/2 forbids in a message. -/
def isConnectionSpecificHeader (header : HeaderField) : Bool :=
  equalsIgnoreCaseAscii header.name (ascii "connection") ||
    equalsIgnoreCaseAscii header.name (ascii "proxy-connection") ||
    equalsIgnoreCaseAscii header.name (ascii "keep-alive") ||
    equalsIgnoreCaseAscii header.name (ascii "upgrade") ||
    equalsIgnoreCaseAscii header.name (ascii "transfer-encoding") ||
    equalsIgnoreCaseAscii header.name (ascii "te")

/-- The size of a header list as SETTINGS_MAX_HEADER_LIST_SIZE counts it. -/
def headerListSize (headers : List HeaderField) : Nat :=
  (headers.map fun header => header.name.length + header.value.length + 32).sum

/-- `none` stands for `false`. -/
def tryParseStatusCode (value : Bytes) : Option Nat :=
  if value.length ≠ 3 then none
  else if !value.all isDigit then none
  else if digitsValue value < 100 ∨ digitsValue value > 599 then none
  else some (digitsValue value)

/-- The loop of `tryParseContentLength`. -/
def parseContentLength : Bytes → Int → Option Int
  | [], n => some n
  | i :: rest, n =>
    if !isDigit i then none
    else if n > 1000000000000000 then none
    else parseContentLength rest (n * 10 + (i.toNat - 0x30 : Nat))

/-- `none` stands for `false`. -/
def tryParseContentLength (value : Bytes) : Option Int :=
  if value = [] then none else parseContentLength value 0

/-! ## Response header blocks -/

/-- The locals of the loop of `validateResponseHeaderBlock`, and the member of the stream that it
writes. -/
structure HeaderScan where
  sawRegularHeader : Bool := false
  sawStatus : Bool := false
  statusCode : Nat := 0
  expectedContentLength : Int
  deriving DecidableEq, Repr

/-- One round of the loop, for a stream that has received its final response headers or not;
`none` stands for `PROTOCOL_ERROR`. -/
def scanHeader (finalResponseHeadersReceived : Bool) (scan : HeaderScan) (header : HeaderField) :
    Option HeaderScan :=
  if header.name = [] || hasInvalidFieldNameChar header.name then none
  else if hasInvalidFieldValue header.value then none
  else if isConnectionSpecificHeader header then none
  else if header.name.headD 0 = 0x3a then
    if scan.sawRegularHeader then none
    else if finalResponseHeadersReceived then none
    else if header.name ≠ ascii ":status" then none
    else if scan.sawStatus then none
    else (tryParseStatusCode header.value).map fun statusCode =>
      { scan with statusCode, sawStatus := true }
  else if header.name.contains 0x3a then none
  else if !finalResponseHeadersReceived &&
      equalsIgnoreCaseAscii header.name (ascii "content-length") then
    match tryParseContentLength header.value with
    | none => none
    | some cl =>
      if scan.expectedContentLength ≥ 0 ∧ scan.expectedContentLength ≠ cl then none
      else some { scan with sawRegularHeader := true, expectedContentLength := cl }
  else some { scan with sawRegularHeader := true }

/-- The loop over the fields. -/
def scanHeaders (finalResponseHeadersReceived : Bool) :
    HeaderScan → List HeaderField → Option HeaderScan
  | scan, [] => some scan
  | scan, header :: headers =>
    match scanHeader finalResponseHeadersReceived scan header with
    | none => none
    | some scan => scanHeaders finalResponseHeadersReceived scan headers

/-- The outcome of `validateResponseHeaderBlock`. The content length that a rejected block leaves on
the stream is not kept: the stream is erased in the same step. -/
inductive HeaderVerdict where
  | rejected (code : ErrorCode)
  | informational (expectedContentLength : Int)
  | accepted (expectedContentLength : Int)
  deriving DecidableEq, Repr

/-- `validateResponseHeaderBlock`: a block after the final response is one of trailers, the others
carry a status. -/
def validateResponseHeaderBlock (stream : Stream) (headers : List HeaderField) (endStream : Bool) :
    HeaderVerdict :=
  if headers = [] then .rejected .protocolError
  else
    match scanHeaders stream.finalResponseHeadersReceived
        { expectedContentLength := stream.expectedContentLength } headers with
    | none => .rejected .protocolError
    | some scan =>
      if !stream.finalResponseHeadersReceived then
        if !scan.sawStatus then .rejected .protocolError
        else if scan.statusCode / 100 = 1 then
          if scan.statusCode = 101 then .rejected .protocolError
          else if endStream then .rejected .protocolError
          else .informational scan.expectedContentLength
        else .accepted scan.expectedContentLength
      else if scan.sawStatus then .rejected .protocolError
      else if !endStream then .rejected .protocolError
      else .accepted scan.expectedContentLength

end Chttp2
