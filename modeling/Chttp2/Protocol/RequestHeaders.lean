import Chttp2.Protocol.StreamTable
import Chttp2.Protocol.Upload

/-!
# Request headers

`emitRequestHeaders` cuts a header block into a HEADERS frame and CONTINUATION frames. The frames
carry the block for every size of it (`carriesBlock_emitRequestHeaders`), but the HEADERS frame ends
the stream of a request without body only if the block fits into it
(`emitRequestHeaders_correct_iff`). With CONTINUATION frames END_STREAM is never sent.
-/

set_option autoImplicit false

namespace Chttp2

namespace ProtocolState

/-! ## The frames of a header block -/

/-- The CONTINUATION frames carry `block` in order, none of them empty, and the last one, and no
other, has END_HEADERS. -/
structure Continuations (maxFrameSize : Nat) (streamId : StreamId) (block : Bytes)
    (frames : List ContinuationFrame) : Prop where
  streamId : ∀ f ∈ frames, f.header.streamId = streamId
  block : frames.flatMap ContinuationFrame.data = block
  size : ∀ f ∈ frames, 0 < f.data.length ∧ f.data.length ≤ maxFrameSize
  payloadLength : ∀ f ∈ frames, f.header.payloadLength = f.data.length
  endHeaders : ∀ a f b, frames = a ++ f :: b → (f.header.hasEndHeadersFlag = true ↔ b = [])

/-- A HEADERS frame followed by CONTINUATION frames carries `block`; END_HEADERS is set exactly on
the last frame. -/
structure CarriesBlock (maxFrameSize : Nat) (id : StreamId) (block : Bytes)
    (headers : HeadersFrame) (continuations : List ContinuationFrame) : Prop where
  streamId : headers.header.streamId = id
  size : headers.data.length ≤ maxFrameSize
  payloadLength : headers.header.payloadLength = headers.data.length
  endHeaders : headers.header.hasEndHeadersFlag = true ↔ continuations = []
  rest : ∃ more, headers.data ++ more = block ∧
    Continuations maxFrameSize id more continuations

/-- The stream `s'` and the frames `out` are what the headers of a request on `s` ask for: the frames
carry the block, and the stream is ended, on the wire and on record, iff the request has no body. -/
def HeadersSent (maxFrameSize : Nat) (s : Stream) (block : Bytes) (s' : Stream)
    (out : List OutboundBuffer) : Prop :=
  ∃ headers continuations, out = .headers headers :: continuations.map .continuation ∧
    CarriesBlock maxFrameSize s.streamId block headers continuations ∧
    (headers.header.hasEndStreamFlag = true ↔ s.hasBody = false) ∧
    (s'.localEndStreamSent = true ↔ s.hasBody = false)

/-- A CONTINUATION frame that carries a chunk of a block. -/
def continuationFrame (id : StreamId) (chunk : Bytes) (last : Bool) : ContinuationFrame :=
  let header : FrameHeader := { type := .continuation, streamId := id, payloadLength := chunk.length }
  { header := if last then header.setEndHeadersFlag else header, data := chunk }

/-- The HEADERS frame that carries the first chunk of a block. -/
def headersFrame (id : StreamId) (chunk : Bytes) (last endStream : Bool) : HeadersFrame :=
  let header : FrameHeader := { type := .headers, streamId := id, payloadLength := chunk.length }
  let header := if last then header.setEndHeadersFlag else header
  { header := if endStream then header.setEndStreamFlag else header, data := chunk }

section Frames

variable (id : StreamId) (chunk : Bytes) (last endStream : Bool)

@[simp] theorem continuationFrame_streamId :
    (continuationFrame id chunk last).header.streamId = id := by
  cases last <;> rfl

@[simp] theorem continuationFrame_payloadLength :
    (continuationFrame id chunk last).header.payloadLength = chunk.length := by
  cases last <;> rfl

theorem continuationFrame_flags :
    (continuationFrame id chunk last).header.flags = if last then 0x4 else 0x0 := by
  cases last <;> simp [continuationFrame, FrameHeader.setEndHeadersFlag, FrameHeader.setFlag,
    FrameFlag.toByte]

@[simp] theorem continuationFrame_endHeaders :
    (continuationFrame id chunk last).header.hasEndHeadersFlag = last := by
  rw [FrameHeader.hasEndHeadersFlag, FrameHeader.hasAnyFlag, continuationFrame_flags]
  cases last <;> decide

@[simp] theorem headersFrame_streamId :
    (headersFrame id chunk last endStream).header.streamId = id := by
  cases last <;> cases endStream <;> rfl

@[simp] theorem headersFrame_payloadLength :
    (headersFrame id chunk last endStream).header.payloadLength = chunk.length := by
  cases last <;> cases endStream <;> rfl

theorem headersFrame_flags : (headersFrame id chunk last endStream).header.flags =
    (if last then 0x4 else 0x0) ||| if endStream then 0x1 else 0x0 := by
  cases last <;> cases endStream <;> simp [headersFrame, FrameHeader.setEndHeadersFlag,
    FrameHeader.setEndStreamFlag, FrameHeader.setFlag, FrameFlag.toByte]

@[simp] theorem headersFrame_endHeaders :
    (headersFrame id chunk last endStream).header.hasEndHeadersFlag = last := by
  rw [FrameHeader.hasEndHeadersFlag, FrameHeader.hasAnyFlag, headersFrame_flags]
  cases last <;> cases endStream <;> decide

@[simp] theorem headersFrame_endStream :
    (headersFrame id chunk last endStream).header.hasEndStreamFlag = endStream := by
  rw [FrameHeader.hasEndStreamFlag, FrameHeader.hasAnyFlag, headersFrame_flags]
  cases last <;> cases endStream <;> decide

end Frames

section Emission

variable {maxFrameSize : Nat} {id : StreamId} {rest : Bytes}

theorem Continuations.nil : Continuations maxFrameSize id [] [] where
  streamId := by simp
  block := rfl
  size := by simp
  payloadLength := by simp
  endHeaders := by simp

/-- One frame more in front; it has END_HEADERS if nothing follows. -/
theorem Continuations.cons {f : ContinuationFrame} {frames : List ContinuationFrame}
    (hid : f.header.streamId = id) (hpos : 0 < f.data.length) (hmax : f.data.length ≤ maxFrameSize)
    (hlen : f.header.payloadLength = f.data.length)
    (hend : f.header.hasEndHeadersFlag = true ↔ frames = [])
    (h : Continuations maxFrameSize id rest frames) :
    Continuations maxFrameSize id (f.data ++ rest) (f :: frames) where
  streamId := List.forall_mem_cons.2 ⟨hid, h.streamId⟩
  block := by rw [List.flatMap_cons, h.block]
  size := List.forall_mem_cons.2 ⟨⟨hpos, hmax⟩, h.size⟩
  payloadLength := List.forall_mem_cons.2 ⟨hlen, h.payloadLength⟩
  endHeaders := by
    intro a g b heq
    cases a with
    | nil =>
      obtain ⟨rfl, rfl⟩ : f = g ∧ frames = b := by simpa using heq
      exact hend
    | cons a₀ a =>
      obtain ⟨rfl, rfl⟩ : f = a₀ ∧ frames = a ++ g :: b := by simpa using heq
      exact h.endHeaders a g b rfl

/-- The rest of a block is carried by CONTINUATION frames, whatever its length. -/
theorem emitContinuations_eq (hmax : 0 < maxFrameSize) (fuel : Nat) :
    ∀ span : Bytes, span.length ≤ fuel → ∃ frames : List ContinuationFrame,
      emitContinuations maxFrameSize id fuel span = frames.map .continuation ∧
        Continuations maxFrameSize id span frames ∧ (frames = [] ↔ span = []) := by
  induction fuel with
  | zero =>
    intro span hlen
    have hnil : span = [] := List.length_eq_zero_iff.1 (Nat.le_zero.1 hlen)
    rw [hnil]
    exact ⟨[], rfl, .nil, by simp⟩
  | succ fuel ih =>
    intro span hlen
    by_cases hnil : span = []
    · rw [hnil]
      exact ⟨[], by rw [emitContinuations, if_pos rfl]; rfl, .nil, by simp⟩
    · have hpos : 0 < span.length := List.length_pos_iff.2 hnil
      generalize hc : min maxFrameSize span.length = c
      have hlength : (span.take c).length = c := by
        rw [List.length_take]
        omega
      -- one frame is cut off, and the rest has less fuel and fewer bytes
      obtain ⟨frames, heq, hframes, hempty⟩ := ih (span.drop c) (by rw [List.length_drop]; omega)
      refine ⟨continuationFrame id (span.take c) (span.drop c = []) :: frames, ?_, ?_,
        by simp [hnil]⟩
      · rw [emitContinuations, if_neg hnil, List.map_cons, ← heq, hc]
        simp [continuationFrame, hlength]
      · have hcons := hframes.cons (f := continuationFrame id (span.take c) (span.drop c = []))
          (by simp) (by show 0 < (span.take c).length; omega)
          (by show (span.take c).length ≤ maxFrameSize; omega)
          (continuationFrame_payloadLength _ _ _) (by rw [hempty]; simp)
        have hsplit : (continuationFrame id (span.take c) (span.drop c = [])).data ++ span.drop c =
            span := List.take_append_drop c span
        rwa [hsplit] at hcons

end Emission

/-! ## END_STREAM -/

section EndStream

variable {p : ProtocolState} {s : Stream}

/-- The frames of a request carry its header block, and END_STREAM is set and recorded exactly where
the request has no body and the block fits into the HEADERS frame. -/
theorem carriesBlock_emitRequestHeaders (hmax : 0 < p.maxFrameSize)
    (hfresh : s.localEndStreamSent = false) (encoded : Bytes) :
    ∃ headers continuations,
      (p.emitRequestHeaders s encoded).2 = .headers headers :: continuations.map .continuation ∧
        CarriesBlock p.maxFrameSize s.streamId encoded headers continuations ∧
        (headers.header.hasEndStreamFlag = true ↔
          encoded.length ≤ p.maxFrameSize ∧ s.hasBody = false) ∧
        ((p.emitRequestHeaders s encoded).1.localEndStreamSent = true ↔
          encoded.length ≤ p.maxFrameSize ∧ s.hasBody = false) := by
  generalize hc : min p.maxFrameSize encoded.length = c
  have hlength : (encoded.take c).length = c := by
    rw [List.length_take]
    omega
  -- the HEADERS frame takes the whole block exactly if it is no longer than a frame
  have hrest : encoded.drop c = [] ↔ encoded.length ≤ p.maxFrameSize := by
    rw [List.drop_eq_nil_iff]
    omega
  obtain ⟨frames, heq, hframes, hempty⟩ : ∃ frames : List ContinuationFrame,
      emitContinuations p.maxFrameSize s.streamId (encoded.drop c).length (encoded.drop c) =
          frames.map .continuation ∧
        Continuations p.maxFrameSize s.streamId (encoded.drop c) frames ∧
          (frames = [] ↔ encoded.drop c = []) :=
    emitContinuations_eq hmax (encoded.drop c).length (encoded.drop c) le_rfl
  refine ⟨headersFrame s.streamId (encoded.take c) (encoded.drop c = [])
    (encoded.drop c = [] && !s.hasBody), frames, ?_, ⟨?_, ?_, ?_, ?_, encoded.drop c, ?_, hframes⟩,
    ?_, ?_⟩
  · rw [← heq, emitRequestHeaders, hc]
    by_cases h : encoded.drop c = [] <;> cases hbody : s.hasBody <;>
      simp [headersFrame, hlength, h]
  · simp
  · show (encoded.take c).length ≤ p.maxFrameSize
    omega
  · rw [headersFrame_payloadLength]
    rfl
  · rw [hempty, headersFrame_endHeaders, decide_eq_true_iff]
  · exact List.take_append_drop c encoded
  · rw [headersFrame_endStream, ← hrest]
    simp
  · rw [emitRequestHeaders, hc, ← hrest]
    dsimp only
    by_cases h : encoded.drop c = [] <;> cases hbody : s.hasBody <;> simp [h, hfresh]

/-- The headers are emitted as they should be unless a request without body needs CONTINUATION
frames. -/
theorem headersSent_iff (hmax : 0 < p.maxFrameSize) (hfresh : s.localEndStreamSent = false)
    (encoded : Bytes) :
    HeadersSent p.maxFrameSize s encoded (p.emitRequestHeaders s encoded).1
        (p.emitRequestHeaders s encoded).2 ↔
      encoded.length ≤ p.maxFrameSize ∨ s.hasBody = true := by
  obtain ⟨headers, continuations, hout, hcarries, hend, hrecord⟩ :=
    carriesBlock_emitRequestHeaders hmax hfresh encoded
  constructor
  · rintro ⟨-, -, -, -, -, hrecord'⟩
    cases hbody : s.hasBody with
    | false => exact Or.inl (hrecord.1 (hrecord'.2 hbody)).1
    | true => exact Or.inr rfl
  · intro h
    have hfits : encoded.length ≤ p.maxFrameSize ∧ s.hasBody = false ↔ s.hasBody = false := by
      rcases h with hle | hbody
      · exact and_iff_right hle
      · simp [hbody]
    exact ⟨headers, continuations, hout, hcarries, hend.trans hfits, hrecord.trans hfits⟩

end EndStream

variable {config : ClientConfig} {tr : List OperationEntry} {p : ProtocolState}

/-- A connection that accepts requests has a frame size in force. -/
theorem maxFrameSize_pos (h : Machine.Runs operate (ofConfig config) tr p)
    (hopen : p.canSubmitRequests = true) : 0 < p.maxFrameSize := by
  have hclosed : p.closed ≠ true := by
    rw [canSubmitRequests_open hopen]
    decide
  exact lt_of_lt_of_le (by decide) ((minimum_le_maxFrameSize h).resolve_left hclosed)

/-- For a header block of any size: `emitRequestHeaders` does what the request asks for exactly where
the block fits into one frame or the request has a body. -/
theorem emitRequestHeaders_correct_iff (h : Machine.Runs operate (ofConfig config) tr p)
    (hopen : p.canSubmitRequests = true) (request : Request) (encoded : Bytes) :
    HeadersSent p.maxFrameSize (p.newStream request) encoded
        (p.emitRequestHeaders (p.newStream request) encoded).1
        (p.emitRequestHeaders (p.newStream request) encoded).2 ↔
      encoded.length ≤ p.maxFrameSize ∨ request.body ≠ [] := by
  rw [headersSent_iff (maxFrameSize_pos h hopen) rfl]
  have hbody : (p.newStream request).hasBody = true ↔ request.body ≠ [] := by
    show (!request.body.isEmpty) = true ↔ _
    simp
  rw [hbody]

/-- The state after `start`. -/
theorem runs_start : ∃ tr p, Machine.Runs operate (ofConfig {}) tr p ∧ p.canSubmitRequests = true ∧
    p.maxFrameSize = 16384 := by
  have hrun : (Machine.run operate (ofConfig {}) [.act .start]).map (fun x =>
      (x.1.canSubmitRequests, x.1.maxFrameSize)) = .ok (true, 16384) := by
    decide +kernel
  obtain ⟨p, tr, hr, -, hresult⟩ := Machine.exists_runs_of_map hrun
  exact ⟨tr, p, hr, (Prod.mk.inj hresult).1, (Prod.mk.inj hresult).2⟩

/-- A GET request with a block of one byte. -/
theorem emitRequestHeaders_correct_of_small_block :
    ∃ tr p, Machine.Runs operate (ofConfig {}) tr p ∧ p.canSubmitRequests = true ∧
      (HeadersSent p.maxFrameSize (p.newStream getRequest) [0x82]
          (p.emitRequestHeaders (p.newStream getRequest) [0x82]).1
          (p.emitRequestHeaders (p.newStream getRequest) [0x82]).2 ↔
        [0x82].length ≤ p.maxFrameSize ∨ getRequest.body ≠ []) := by
  obtain ⟨tr, p, hr, hopen, -⟩ := runs_start
  exact ⟨tr, p, hr, hopen, emitRequestHeaders_correct_iff hr hopen getRequest [0x82]⟩

/-- A GET request whose block is one byte longer than a frame does not end its stream. -/
theorem emitRequestHeaders_of_long_block :
    ∃ tr p, Machine.Runs operate (ofConfig {}) tr p ∧ p.canSubmitRequests = true ∧
      ¬ HeadersSent p.maxFrameSize (p.newStream getRequest) (List.replicate 16385 0)
          (p.emitRequestHeaders (p.newStream getRequest) (List.replicate 16385 0)).1
          (p.emitRequestHeaders (p.newStream getRequest) (List.replicate 16385 0)).2 := by
  obtain ⟨tr, p, hr, hopen, hmax⟩ := runs_start
  refine ⟨tr, p, hr, hopen, fun hsent => ?_⟩
  rcases (headersSent_iff (by omega) rfl _).1 hsent with hle | hbody
  · rw [List.length_replicate, hmax] at hle
    omega
  · cases hbody

end ProtocolState

end Chttp2
