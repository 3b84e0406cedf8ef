import Mathlib.Data.List.TakeWhile
import Chttp2.Hpack.Grammar
import Chttp2.Protocol.Failure

/-!
# What a complete header block and the end of a stream do

`Ending` lists the ways in which data or headers leave a stream, with or without END_STREAM, and
`BlockStep` the ways in which a complete header block ends. A stream whose `:status` field parses
keeps that property (`StatusOk`), so `finalizeRemoteStream_eq` and `completeHeaderBlock_eq` hold
without failure.
-/

set_option autoImplicit false

namespace Chttp2

/-! ## The status code -/

section Status

variable {ds : Bytes} {c : UInt8}

theorem not_isSpace_of_isDigit (h : isDigit c = true) : isSpace c = false := by
  simp only [isDigit, Bool.and_eq_true, decide_eq_true_eq, UInt8.le_iff_toNat_le] at h
  simp only [isSpace, Bool.or_eq_false_iff, Bool.and_eq_false_iff, decide_eq_false_iff_not,
    UInt8.le_iff_toNat_le, ← UInt8.toNat_inj]
  obtain ⟨h1, h2⟩ := h
  simp only [UInt8.reduceToNat] at *
  omega

theorem ne_sign_of_isDigit (h : isDigit c = true) : c ≠ 0x2d ∧ c ≠ 0x2b := by
  simp only [isDigit, Bool.and_eq_true, decide_eq_true_eq, UInt8.le_iff_toNat_le] at h
  simp only [ne_eq, ← UInt8.toNat_inj]
  obtain ⟨h1, h2⟩ := h
  simp only [UInt8.reduceToNat] at *
  omega

/-- `std::stoi` of a non-empty digit string in the range of `int`. -/
theorem stoi_of_digits (hne : ds ≠ []) (hd : ds.all isDigit = true)
    (hmax : digitsValue ds ≤ 999) : stoi ds = .ok (digitsValue ds : Int) := by
  cases ds with
  | nil => exact absurd rfl hne
  | cons c cs =>
    have hc : isDigit c = true := by
      simp only [List.all_cons, Bool.and_eq_true] at hd
      exact hd.1
    have hsp : (c :: cs).dropWhile isSpace = c :: cs := by
      simp [not_isSpace_of_isDigit hc]
    obtain ⟨hm, hp⟩ := ne_sign_of_isDigit hc
    have htake : (c :: cs).takeWhile isDigit = c :: cs :=
      List.takeWhile_eq_self_iff.2 (List.all_eq_true.1 hd)
    have hrange : int32Min ≤ (digitsValue (c :: cs) : Int) ∧
        (digitsValue (c :: cs) : Int) ≤ int32Max := by
      unfold int32Min int32Max
      omega
    simp only [stoi, hsp, List.head?_cons, Option.some.injEq, hm, hp, or_self, if_false, htake,
      reduceCtorEq, if_pos hrange]

/-- The values that `tryParseStatusCode` accepts do not make `std::stoi` throw. -/
theorem stoi_of_tryParseStatusCode {n : Nat} (h : tryParseStatusCode ds = some n) :
    stoi ds = .ok (n : Int) := by
  unfold tryParseStatusCode at h
  split at h
  · cases h
  · rename_i hlen
    split at h
    · cases h
    · rename_i hd
      split at h
      · cases h
      · rename_i hrange
        cases h
        refine stoi_of_digits ?_ (by simpa using hd) (by omega)
        rintro rfl
        simp at hlen

end Status

/-- The status code of the stored response headers can be read. -/
def Stream.StatusOk (s : Stream) : Prop := ∃ code, s.resp.getStatusCode = .ok code

theorem Stream.StatusOk.expectsNoBody {s : Stream} (h : s.StatusOk) :
    ∃ b, s.expectsNoBody = .ok b := by
  obtain ⟨code, hcode⟩ := h
  refine ⟨s.isHeadRequest || code = 204 || code = 304, ?_⟩
  simp only [Stream.expectsNoBody, hcode, ok_bind]
  rfl

/-- A field list whose `:status` fields all parse. -/
def StatusFields (headers : List HeaderField) : Prop :=
  ∀ header ∈ headers, header.name = ascii ":status" →
    ∃ code, tryParseStatusCode header.value = some code

/-- Adding checked fields to readable ones keeps the status readable. -/
theorem Response.getStatusCode_append {r : Response} {headers : List HeaderField} {code : Int}
    (h : r.getStatusCode = .ok code) (hs : StatusFields headers) :
    ∃ code, ({ r with headers := r.headers ++ headers } : Response).getStatusCode = .ok code := by
  unfold Response.getStatusCode at *
  rw [List.find?_append]
  cases hfind : r.headers.find? fun header => header.name = ascii ":status" with
  | some header =>
    rw [hfind] at h
    exact ⟨code, h⟩
  | none =>
    rw [Option.none_or]
    cases hnew : headers.find? fun header => header.name = ascii ":status" with
    | none => exact ⟨-1, rfl⟩
    | some header =>
      obtain ⟨n, hn⟩ := hs header (List.mem_of_find?_eq_some hnew)
        (by simpa using List.find?_some hnew)
      exact ⟨n, stoi_of_tryParseStatusCode hn⟩

theorem statusFields_of_scanHeaders {final : Bool} {headers : List HeaderField} :
    ∀ {scan scan' : HeaderScan}, scanHeaders final scan headers = some scan' →
      StatusFields headers := by
  induction headers with
  | nil =>
    intro _ _ _ header hmem
    cases hmem
  | cons field fields ih =>
    intro scan scan' h
    simp only [scanHeaders] at h
    cases hfield : scanHeader final scan field with
    | none => simp [hfield] at h
    | some scan₁ =>
      simp only [hfield] at h
      intro header hmem hname
      rcases List.mem_cons.1 hmem with rfl | hmem
      · have hcolon : header.name.headD 0 = 0x3a := by rw [hname]; decide
        unfold scanHeader at hfield
        rw [if_pos hcolon] at hfield
        cases hparse : tryParseStatusCode header.value with
        | some code => exact ⟨code, rfl⟩
        | none => simp [hparse] at hfield
      · exact ih h header hmem hname

theorem validate_rejected {s : Stream} {headers : List HeaderField} {endStream : Bool}
    {code : ErrorCode} (h : validateResponseHeaderBlock s headers endStream = .rejected code) :
    code = .protocolError := by
  unfold validateResponseHeaderBlock at h
  repeat' split at h
  all_goals first | cases h; rfl | cases h

theorem validate_accepted {s : Stream} {headers : List HeaderField} {endStream : Bool} {cl : Int}
    (h : validateResponseHeaderBlock s headers endStream = .accepted cl) : StatusFields headers := by
  unfold validateResponseHeaderBlock at h
  split at h
  · cases h
  · split at h
    · cases h
    · rename_i hscan
      exact statusFields_of_scanHeaders hscan

/-! ## The end of a stream -/

/-- The stream after its response has been handed over while its request body is still pending. -/
def Stream.answered (s : Stream) : Stream :=
  { s with
    remoteEndStreamReceived := true
    responseComplete := true
    resp := {}
    streamState := .halfClosedRemote }

namespace ProtocolState

/-- How a frame leaves its stream, whose record has become `s`; the flag is END_STREAM. -/
inductive Ending (p : ProtocolState) (s : Stream) :
    Bool → ProtocolState → ProtocolStepResult → Prop
  | goesOn : Ending p s false (p.putStream s) {}
  | mismatch (h : s.contentLengthMismatch = .ok true) :
      Ending p s true (p.removeStream s) (p.streamFailure s.streamId .protocolError true)
  | finished (h : s.contentLengthMismatch = .ok false) (hlocal : s.localEndStreamSent = true) :
      Ending p s true { p with streams := p.streams.erase s.streamId }
        { events := [.responseCompleted s.streamId s.resp, .streamClosed s.streamId .noError] }
  | answered (h : s.contentLengthMismatch = .ok false) (hlocal : s.localEndStreamSent = false) :
      Ending p s true (p.putStream s.answered)
        { events := [.responseCompleted s.streamId s.resp] }

/-- The end of a frame changes the streams and the block without a stream only. -/
theorem Ending.eq_with {p p' : ProtocolState} {s : Stream} {b : Bool} {r : ProtocolStepResult}
    (h : Ending p s b p' r) :
    p' = { p with streams := p'.streams, ghostHeaderBlock := p'.ghostHeaderBlock } := by
  cases h <;> rfl

/-- It sends one RST_STREAM frame at most. -/
theorem Ending.outbound {p p' : ProtocolState} {s : Stream} {b : Bool} {r : ProtocolStepResult}
    (h : Ending p s b p' r) : r.outbound = [] ∨ ∃ frame, r.outbound = [.rstStream frame] := by
  cases h with
  | mismatch => exact (streamFailure_outbound _ _ _ _).imp_right fun h => ⟨_, h⟩
  | _ => exact Or.inl rfl

variable {p : ProtocolState} {s : Stream}

theorem contentLengthMismatch_eq (hst : s.StatusOk) : ∃ b, s.contentLengthMismatch = .ok b := by
  obtain ⟨noBody, hno⟩ := hst.expectsNoBody
  unfold Stream.contentLengthMismatch
  split
  · rw [hno]
    exact ⟨_, rfl⟩
  · exact ⟨_, rfl⟩

/-- `finalizeRemoteStream` of the record that has just been written back. -/
theorem finalizeRemoteStream_eq (hkey : s.streamId ∈ p.streams.keys) (hst : s.StatusOk) :
    ∃ p' r, (p.putStream s).finalizeRemoteStream s = .ok (p', r) ∧ Ending p s true p' r := by
  obtain ⟨b, hb⟩ := contentLengthMismatch_eq (s := { s with remoteEndStreamReceived := true }) hst
  simp only [finalizeRemoteStream, hb, ok_bind]
  rw [putStream_putStream p (by rfl)]
  cases b with
  | true =>
    have hfail := failStream_putStream (s := { s with remoteEndStreamReceived := true }) hkey
      .protocolError true
    rw [if_pos rfl, hfail]
    exact ⟨_, _, rfl, .mismatch hb⟩
  | false =>
    rw [if_neg (by decide)]
    by_cases hlocal : s.localEndStreamSent = true
    · rw [if_pos hlocal]
      refine ⟨_, _, rfl, ?_⟩
      have herase : (p.putStream { s with remoteEndStreamReceived := true }).streams.erase
          s.streamId = p.streams.erase s.streamId :=
        KeyedTable.erase_set p.streams { s with remoteEndStreamReceived := true }
      rw [herase]
      exact .finished hb hlocal
    · rw [if_neg hlocal, putStream_putStream p (by rfl)]
      exact ⟨_, _, rfl, .answered hb (by simpa using hlocal)⟩

end ProtocolState

/-! ## A complete header block -/

namespace ProtocolState

/-- What the decoder makes of a block: the table afterwards, and the fields unless it fails. -/
def decodedBlock (p : ProtocolState) (block : Bytes) : HpackTable × Option (List HeaderField) :=
  Hpack.decodeBlock p.hpack.decodeTableLimit p.hpack.decodeTable block

/-- The state after a call of `hpack.decode`. -/
def afterDecode (p : ProtocolState) (streamId : StreamId) (block : Bytes) : ProtocolState :=
  { p with
    hpack := { p.hpack with decodeTable := (p.decodedBlock block).1 }
    decodeLog := p.decodeLog ++ [⟨streamId, block, (p.decodedBlock block).2⟩] }

theorem hpackDecode_eq (p : ProtocolState) (streamId : StreamId) {block : Bytes}
    (h : block.length < 2 ^ 32) :
    p.hpackDecode streamId block =
      .ok (p.afterDecode streamId block, (p.decodedBlock block).2) := by
  simp only [hpackDecode, Hpack.decode_eq p.hpack h, ok_bind]
  rfl

/-- The check of the decoded size of a header list. -/
def HeaderListTooLarge (p : ProtocolState) (headers : List HeaderField) : Prop :=
  (p.maxHeaderListSize > 0 && headerListSize headers > p.maxHeaderListSize) = true

/-- What the complete header block of a stream, with the record `s`, does to the state, unless the
block cannot be decoded. -/
inductive BlockStep (p : ProtocolState) (s : Stream) (endStream : Bool) :
    ProtocolState → ProtocolStepResult → Prop
  | tooLarge (headers : List HeaderField)
      (hd : (p.decodedBlock s.pendingHeaderBlock).2 = some headers)
      (h : p.HeaderListTooLarge headers) :
      BlockStep p s endStream ((p.afterDecode s.streamId s.pendingHeaderBlock).removeStream s)
        (p.streamFailure s.streamId .enhanceYourCalm true)
  | rejected (headers : List HeaderField)
      (hd : (p.decodedBlock s.pendingHeaderBlock).2 = some headers)
      (hsize : ¬ p.HeaderListTooLarge headers)
      (h : validateResponseHeaderBlock s.clearBlock headers endStream = .rejected .protocolError ∨
        (s.finalResponseHeadersReceived = true ∧ s.isConnectRequest = true)) :
      BlockStep p s endStream
        ((p.afterDecode s.streamId s.pendingHeaderBlock).removeStream s.clearBlock)
        (p.streamFailure s.streamId .protocolError true)
  | informational (headers : List HeaderField) (cl : Int)
      (hd : (p.decodedBlock s.pendingHeaderBlock).2 = some headers)
      (hsize : ¬ p.HeaderListTooLarge headers)
      (h : validateResponseHeaderBlock s.clearBlock headers endStream = .informational cl) :
      BlockStep p s endStream
        ((p.afterDecode s.streamId s.pendingHeaderBlock).putStream (s.withInformational cl))
        { events := [.streamHeadersReceived s.streamId { headers }] }
  | headers (headers : List HeaderField) (cl : Int)
      (hd : (p.decodedBlock s.pendingHeaderBlock).2 = some headers)
      (hsize : ¬ p.HeaderListTooLarge headers)
      (h : validateResponseHeaderBlock s.clearBlock headers endStream = .accepted cl)
      (hfinal : s.finalResponseHeadersReceived = false) {p' r}
      (hend : Ending (p.afterDecode s.streamId s.pendingHeaderBlock) (s.withHeaders cl headers)
        endStream p' r) :
      BlockStep p s endStream p' (ProtocolStepResult.merge
        { events := [.streamHeadersReceived s.streamId (s.withHeaders cl headers).resp] } r)
  | trailers (headers : List HeaderField) (cl : Int)
      (hd : (p.decodedBlock s.pendingHeaderBlock).2 = some headers)
      (hsize : ¬ p.HeaderListTooLarge headers)
      (h : validateResponseHeaderBlock s.clearBlock headers endStream = .accepted cl)
      (hfinal : s.finalResponseHeadersReceived = true) (hconnect : s.isConnectRequest = false)
      {p' r} (hend : Ending (p.afterDecode s.streamId s.pendingHeaderBlock)
        (s.withTrailers cl headers) endStream p' r) :
      BlockStep p s endStream p' (ProtocolStepResult.merge
        { events := [.streamHeadersReceived s.streamId (s.withTrailers cl headers).resp] } r)

/-- A header block changes, besides, what the decoder keeps. -/
theorem BlockStep.eq_with {p p' : ProtocolState} {s : Stream} {b : Bool} {r : ProtocolStepResult}
    (h : BlockStep p s b p' r) :
    p' = { p with
      streams := p'.streams
      ghostHeaderBlock := p'.ghostHeaderBlock
      hpack := { p.hpack with decodeTable := p'.hpack.decodeTable }
      decodeLog := p'.decodeLog } := by
  have hending {q q' : ProtocolState} {t : Stream} {r : ProtocolStepResult}
      (hq : q = p.afterDecode s.streamId s.pendingHeaderBlock) (h : Ending q t b q' r) :
      q' = { p with
        streams := q'.streams
        ghostHeaderBlock := q'.ghostHeaderBlock
        hpack := { p.hpack with decodeTable := q'.hpack.decodeTable }
        decodeLog := q'.decodeLog } := by
    rw [h.eq_with, hq]
    rfl
  cases h with
  | headers headers cl hd hsize hv hfinal hend => exact hending rfl hend
  | trailers headers cl hd hsize hv hfinal hconnect hend => exact hending rfl hend
  | _ => rfl

theorem BlockStep.outbound {p p' : ProtocolState} {s : Stream} {b : Bool} {r : ProtocolStepResult}
    (h : BlockStep p s b p' r) : r.outbound = [] ∨ ∃ frame, r.outbound = [.rstStream frame] := by
  cases h with
  | tooLarge => exact (streamFailure_outbound _ _ _ _).imp_right fun h => ⟨_, h⟩
  | rejected => exact (streamFailure_outbound _ _ _ _).imp_right fun h => ⟨_, h⟩
  | informational => exact Or.inl rfl
  | headers headers cl hd hsize hv hfinal hend => exact hend.outbound
  | trailers headers cl hd hsize hv hfinal hconnect hend => exact hend.outbound

variable {p : ProtocolState} {s : Stream}

theorem reportHeaders_eq (hkey : s.streamId ∈ p.streams.keys) (hst : s.StatusOk)
    (endStream : Bool) :
    ∃ p' r, p.reportHeaders s endStream = .ok (p', ProtocolStepResult.merge
        { events := [.streamHeadersReceived s.streamId s.resp] } r) ∧
      Ending p s endStream p' r := by
  cases endStream with
  | false =>
    refine ⟨_, _, ?_, .goesOn⟩
    simp only [reportHeaders, ProtocolStepResult.merge_nil]
    rfl
  | true =>
    obtain ⟨p', r, heq, hend⟩ := finalizeRemoteStream_eq hkey hst
    refine ⟨p', r, ?_, hend⟩
    simp only [reportHeaders, if_true, heq, ok_bind]
    rfl

theorem reportHeaders_putStream {s' : Stream} (h : s.streamId = s'.streamId) (endStream : Bool) :
    (p.putStream s).reportHeaders s' endStream = p.reportHeaders s' endStream := by
  simp only [reportHeaders, putStream_putStream p h]

/-- The decoder's verdict on the block of the record that has just been written back. -/
theorem hpackDecode_putStream (p : ProtocolState) (hlen : s.pendingHeaderBlock.length < 2 ^ 32) :
    (p.putStream s).hpackDecode s.streamId s.pendingHeaderBlock =
      .ok ((p.afterDecode s.streamId s.pendingHeaderBlock).putStream s,
        (p.decodedBlock s.pendingHeaderBlock).2) :=
  hpackDecode_eq (p.putStream s) s.streamId hlen

theorem completeHeaderBlock_undecodable (hlen : s.pendingHeaderBlock.length < 2 ^ 32)
    (hd : (p.decodedBlock s.pendingHeaderBlock).2 = none) (endStream : Bool) :
    (p.putStream s).completeHeaderBlock s endStream =
      .ok (((p.afterDecode s.streamId s.pendingHeaderBlock).putStream s).failConnection
        .compressionError "HPACK decode error") := by
  simp only [completeHeaderBlock, decodeResponseHeaders, hpackDecode_putStream p hlen, ok_bind, hd]
  rfl

theorem completeHeaderBlock_eq (hkey : s.streamId ∈ p.streams.keys) (hst : s.StatusOk)
    (hlen : s.pendingHeaderBlock.length < 2 ^ 32) {headers : List HeaderField}
    (hd : (p.decodedBlock s.pendingHeaderBlock).2 = some headers) (endStream : Bool) :
    ∃ p' r, (p.putStream s).completeHeaderBlock s endStream = .ok (p', r) ∧
      BlockStep p s endStream p' r := by
  have hmax : ((p.afterDecode s.streamId s.pendingHeaderBlock).putStream s).maxHeaderListSize =
      p.maxHeaderListSize := rfl
  have hkey' : s.streamId ∈ (p.afterDecode s.streamId s.pendingHeaderBlock).streams.keys := hkey
  simp only [completeHeaderBlock, decodeResponseHeaders, hpackDecode_putStream p hlen, ok_bind, hd]
  rw [hmax]
  -- the checks in the order of the source: the size of the list, then its fields
  by_cases hsize : p.HeaderListTooLarge headers
  · refine ⟨_, _, ?_, .tooLarge headers hd hsize⟩
    unfold HeaderListTooLarge at hsize
    rw [if_pos hsize]
    exact congrArg Except.ok (failStream_putStream hkey' .enhanceYourCalm true)
  have hsmall := hsize
  unfold HeaderListTooLarge at hsmall
  rw [if_neg hsmall]
  cases hv : validateResponseHeaderBlock s.clearBlock headers endStream with
  | rejected code =>
    obtain rfl := validate_rejected hv
    refine ⟨_, _, ?_, .rejected headers hd hsize (Or.inl hv)⟩
    dsimp only
    rw [putStream_putStream _ (by rfl)]
    exact congrArg Except.ok (failStream_putStream (s := s.clearBlock) hkey' .protocolError true)
  | informational cl =>
    refine ⟨_, _, ?_, .informational headers cl hd hsize hv⟩
    dsimp only
    rw [putStream_putStream _ (by rfl)]
    rfl
  | accepted cl =>
    have hfields := validate_accepted hv
    dsimp only
    by_cases hfinal : s.finalResponseHeadersReceived = true
    · rw [if_neg (by simp [hfinal])]
      -- trailers, which the response to a CONNECT must not have
      by_cases hconnect : s.isConnectRequest = true
      · refine ⟨_, _, ?_, .rejected headers hd hsize (Or.inr ⟨hfinal, hconnect⟩)⟩
        rw [if_pos hconnect, putStream_putStream _ (by rfl)]
        exact congrArg Except.ok
          (failStream_putStream (s := s.withInformational cl) hkey' .protocolError true)
      · obtain ⟨p', r, heq, hend⟩ := reportHeaders_eq (s := s.withTrailers cl headers) hkey' hst
          endStream
        refine ⟨_, _, ?_, .trailers headers cl hd hsize hv hfinal (by simpa using hconnect) hend⟩
        rw [if_neg hconnect, reportHeaders_putStream (by rfl), heq]
        rfl
    · rw [if_pos (by simpa using hfinal)]
      have hst' : (s.withHeaders cl headers).StatusOk := by
        obtain ⟨code, hcode⟩ := hst
        exact Response.getStatusCode_append hcode hfields
      obtain ⟨p', r, heq, hend⟩ := reportHeaders_eq (s := s.withHeaders cl headers) hkey' hst'
        endStream
      refine ⟨_, _, ?_, .headers headers cl hd hsize hv (by simpa using hfinal) hend⟩
      rw [reportHeaders_putStream (by rfl), heq]
      rfl

end ProtocolState

end Chttp2
