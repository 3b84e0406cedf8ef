import Chttp2.Protocol.Failure

/-!
# What sending request bodies does

`dataFramesOn`, `sentOn` and `sent` measure the DATA frames among outbound buffers. `BodySent`
describes the rounds of `emitBodyLoop` and `BodyStep` a call of `emitPendingRequestBody`;
`emitPendingRequestBody_eq` and `emitPendingBodies_eq` show that these calls never fail.
-/

set_option autoImplicit false

namespace Chttp2

/-! ## Measures of outbound buffers -/

namespace OutboundBuffer

/-- The DATA frame that a buffer is. -/
def dataFrame? : OutboundBuffer → Option DataFrame
  | .data frame => some frame
  | _ => none

/-- The credit that a buffer announces on a stream, or on the connection for stream 0. -/
def creditOn (streamId : StreamId) : OutboundBuffer → Nat
  | .windowUpdate frame =>
    if frame.header.streamId = streamId then frame.windowSizeIncrement else 0
  | _ => 0

end OutboundBuffer

/-- The DATA frames among outbound buffers. -/
def dataFrames (out : List OutboundBuffer) : List DataFrame :=
  out.filterMap OutboundBuffer.dataFrame?

/-- The DATA frames on a stream. -/
def dataFramesOn (streamId : StreamId) (out : List OutboundBuffer) : List DataFrame :=
  (dataFrames out).filter fun f => f.header.streamId = streamId

/-- The body bytes that DATA frames carry. -/
def payload (frames : List DataFrame) : Bytes := frames.flatMap DataFrame.data

/-- The total payload of the DATA frames. -/
def sent (out : List OutboundBuffer) : Nat := (payload (dataFrames out)).length

/-- The total payload of the DATA frames on a stream. -/
def sentOn (streamId : StreamId) (out : List OutboundBuffer) : Nat :=
  (payload (dataFramesOn streamId out)).length

/-- The total of the WINDOW_UPDATE increments on a stream. -/
def creditOn (streamId : StreamId) (out : List OutboundBuffer) : Nat :=
  (out.map (OutboundBuffer.creditOn streamId)).sum

section Measures

variable {id : StreamId} {a b : List OutboundBuffer}

@[simp] theorem payload_nil : payload [] = [] := rfl

@[simp] theorem payload_append (x y : List DataFrame) : payload (x ++ y) = payload x ++ payload y :=
  List.flatMap_append

@[simp] theorem payload_cons (f : DataFrame) (x : List DataFrame) :
    payload (f :: x) = f.data ++ payload x := rfl

@[simp] theorem dataFrames_nil : dataFrames [] = [] := rfl

@[simp] theorem dataFrames_append : dataFrames (a ++ b) = dataFrames a ++ dataFrames b :=
  List.filterMap_append

theorem dataFrames_map_data (frames : List DataFrame) :
    dataFrames (frames.map OutboundBuffer.data) = frames := by
  induction frames with
  | nil => rfl
  | cons f frames ih => exact congrArg (f :: ·) ih

@[simp] theorem dataFramesOn_nil : dataFramesOn id [] = [] := rfl

@[simp] theorem dataFramesOn_append :
    dataFramesOn id (a ++ b) = dataFramesOn id a ++ dataFramesOn id b := by
  simp [dataFramesOn]

@[simp] theorem sent_nil : sent [] = 0 := rfl
@[simp] theorem sentOn_nil : sentOn id [] = 0 := rfl
@[simp] theorem creditOn_nil : creditOn id [] = 0 := rfl

@[simp] theorem sent_append : sent (a ++ b) = sent a + sent b := by simp [sent]

@[simp] theorem sentOn_append : sentOn id (a ++ b) = sentOn id a + sentOn id b := by simp [sentOn]

@[simp] theorem creditOn_append : creditOn id (a ++ b) = creditOn id a + creditOn id b := by
  simp [creditOn]

/-- Buffers without DATA frames. -/
def NoData (out : List OutboundBuffer) : Prop := dataFrames out = []

/-- Buffers without WINDOW_UPDATE frames. -/
def NoCredit (out : List OutboundBuffer) : Prop := ∀ b ∈ out, ∀ id, b.creditOn id = 0

theorem NoData.sent (h : NoData a) : sent a = 0 := by
  rw [Chttp2.sent, h, payload_nil, List.length_nil]

theorem NoData.dataFramesOn (h : NoData a) (id : StreamId) : dataFramesOn id a = [] := by
  rw [Chttp2.dataFramesOn, h, List.filter_nil]

theorem NoData.sentOn (h : NoData a) (id : StreamId) : sentOn id a = 0 := by
  rw [Chttp2.sentOn, h.dataFramesOn, payload_nil, List.length_nil]

theorem NoCredit.creditOn (h : NoCredit a) (id : StreamId) : creditOn id a = 0 := by
  rw [Chttp2.creditOn, List.sum_eq_zero]
  intro x hx
  obtain ⟨b, hb, rfl⟩ := List.mem_map.1 hx
  exact h b hb id

theorem NoData.append (ha : NoData a) (hb : NoData b) : NoData (a ++ b) := by
  rw [NoData, dataFrames_append, ha, hb, List.append_nil]

theorem NoCredit.append (ha : NoCredit a) (hb : NoCredit b) : NoCredit (a ++ b) := fun x hx =>
  (List.mem_append.1 hx).elim (ha x) (hb x)

/-- Buffers that are neither DATA nor WINDOW_UPDATE frames. -/
structure Plain (out : List OutboundBuffer) : Prop where
  noData : NoData out
  noCredit : NoCredit out

theorem Plain.nil : Plain [] := ⟨rfl, fun _ h => (List.not_mem_nil h).elim⟩

theorem Plain.append (ha : Plain a) (hb : Plain b) : Plain (a ++ b) :=
  ⟨ha.noData.append hb.noData, ha.noCredit.append hb.noCredit⟩

theorem Plain.singleton {b : OutboundBuffer} (hdata : b.dataFrame? = none)
    (hcredit : ∀ id, b.creditOn id = 0) : Plain [b] := by
  refine ⟨List.filterMap_cons_none hdata, fun x hx => ?_⟩
  rw [List.mem_singleton.1 hx]
  exact hcredit

theorem Plain.cons {b : OutboundBuffer} (hdata : b.dataFrame? = none)
    (hcredit : ∀ id, b.creditOn id = 0) (ha : Plain a) : Plain (b :: a) :=
  (Plain.singleton hdata hcredit).append ha

/-- An RST_STREAM frame at most. -/
theorem Plain.of_reset (h : a = [] ∨ ∃ frame, a = [.rstStream frame]) : Plain a := by
  rcases h with rfl | ⟨frame, rfl⟩
  · exact .nil
  · exact .singleton rfl fun _ => rfl

theorem noCredit_map_data (frames : List DataFrame) : NoCredit (frames.map .data) := by
  intro b hb id
  obtain ⟨f, -, rfl⟩ := List.mem_map.1 hb
  rfl

end Measures

/-! ## One request body -/

namespace Stream

/-- The stream after `n` more bytes of its request body have been sent, the last byte of the body
with END_STREAM. -/
def advanceBody (s : Stream) (n : Nat) : Stream :=
  { s with
    outflow := ⟨s.outflow.window - n⟩
    requestBodyOffset := s.requestBodyOffset + n
    localEndStreamSent := s.localEndStreamSent || decide (0 < n ∧ n = s.remainingBodySize) }

theorem advanceBody_zero (s : Stream) : s.advanceBody 0 = s := by
  simp [advanceBody]

theorem remainingBodySize_advanceBody (s : Stream) (n : Nat) :
    (s.advanceBody n).remainingBodySize = s.remainingBodySize - n := by
  simp only [remainingBodySize, advanceBody]
  omega

theorem advanceBody_advanceBody (s : Stream) {n m : Nat} (h : n + m ≤ s.remainingBodySize) :
    (s.advanceBody n).advanceBody m = s.advanceBody (n + m) := by
  have hw : s.outflow.window - (n : Int) - (m : Int) = s.outflow.window - ((n + m : Nat) : Int) := by
    omega
  have hend : (decide (0 < n ∧ n = s.remainingBodySize) ||
      decide (0 < m ∧ m = s.remainingBodySize - n)) =
        decide (0 < n + m ∧ n + m = s.remainingBodySize) := by
    rw [← Bool.decide_or, decide_eq_decide]
    omega
  rw [advanceBody, remainingBodySize_advanceBody]
  simp only [advanceBody, hw, Nat.add_assoc, Bool.or_assoc, hend]

end Stream

/-- `frames` carry the next `n` bytes of the body of a stream within both windows, and they stop
only at the end of the body or where a window is used up. The frame that carries the last byte has
END_STREAM, and no other. -/
structure BodySent (maxFrameSize : Nat) (s : Stream) (conn : OutFlow) (n : Nat)
    (frames : List DataFrame) : Prop where
  streamId : ∀ f ∈ frames, f.header.streamId = s.streamId
  size : ∀ f ∈ frames, 0 < f.data.length ∧ f.data.length ≤ maxFrameSize
  body : payload frames = (s.rqst.body.drop s.requestBodyOffset).take n
  endStream : ∀ a f b, frames = a ++ f :: b → (f.header.hasEndStreamFlag = true ↔
    payload (a ++ [f]) = s.rqst.body.drop s.requestBodyOffset)
  le : n ≤ s.remainingBodySize
  window : n = 0 ∨ (n : Int) ≤ s.outflow.available conn
  blocked : n < s.remainingBodySize → maxFrameSize = 0 ∨
    (s.advanceBody n).outflow.available ⟨conn.window - n⟩ ≤ 0

/-- The DATA frame that carries the next `c` bytes of a body. -/
def bodyFrame (s : Stream) (c : Nat) : DataFrame :=
  let header : FrameHeader := { type := .data, streamId := s.streamId, payloadLength := c }
  { header := if s.remainingBodySize - c = 0 then header.setEndStreamFlag else header
    data := (s.rqst.body.drop s.requestBodyOffset).take c }

section BodyFrame

variable {s : Stream} {c : Nat}

theorem hasEndStreamFlag_of_flags {h : FrameHeader} (hf : h.flags = 0) :
    h.hasEndStreamFlag = false ∧ h.setEndStreamFlag.hasEndStreamFlag = true := by
  simp only [FrameHeader.hasEndStreamFlag, FrameHeader.hasAnyFlag, FrameHeader.setEndStreamFlag,
    FrameHeader.setFlag, hf]
  decide

theorem bodyFrame_streamId (s : Stream) (c : Nat) :
    (bodyFrame s c).header.streamId = s.streamId := by
  unfold bodyFrame
  split <;> rfl

theorem bodyFrame_length (hc : c ≤ s.remainingBodySize) : (bodyFrame s c).data.length = c := by
  unfold Stream.remainingBodySize at hc
  simp only [bodyFrame, List.length_take, List.length_drop]
  omega

/-- END_STREAM marks the frame that carries all that is left. -/
theorem bodyFrame_endStream (hc : c ≤ s.remainingBodySize) :
    (bodyFrame s c).header.hasEndStreamFlag = true ↔ c = s.remainingBodySize := by
  have hflags := hasEndStreamFlag_of_flags
    (h := { type := .data, streamId := s.streamId, payloadLength := c }) rfl
  simp only [bodyFrame]
  by_cases h : s.remainingBodySize - c = 0
  · rw [if_pos h, hflags.2, eq_self_iff_true, true_iff]
    omega
  · rw [if_neg h, hflags.1, iff_comm]
    constructor
    · intro he
      omega
    · intro hflag
      cases hflag

end BodyFrame

namespace BodySent

variable {maxFrameSize n : Nat} {s : Stream} {conn : OutFlow} {frames : List DataFrame}

theorem dataFramesOn_eq (h : BodySent maxFrameSize s conn n frames) (id : StreamId) :
    dataFramesOn id (frames.map .data) = if id = s.streamId then frames else [] := by
  rw [dataFramesOn, dataFrames_map_data]
  by_cases hid : id = s.streamId
  · rw [if_pos hid, List.filter_eq_self]
    intro f hf
    simp [h.streamId f hf, hid]
  · rw [if_neg hid, List.filter_eq_nil_iff]
    intro f hf
    have hne : f.header.streamId ≠ id := fun he => hid (he.symm.trans (h.streamId f hf))
    simp [hne]

theorem length_payload (h : BodySent maxFrameSize s conn n frames) : (payload frames).length = n := by
  have hle := h.le
  rw [h.body, List.length_take, List.length_drop]
  unfold Stream.remainingBodySize at hle
  omega

theorem sent_eq (h : BodySent maxFrameSize s conn n frames) : sent (frames.map .data) = n := by
  rw [sent, dataFrames_map_data, h.length_payload]

theorem sentOn_eq (h : BodySent maxFrameSize s conn n frames) (id : StreamId) :
    sentOn id (frames.map .data) = if id = s.streamId then n else 0 := by
  rw [sentOn, h.dataFramesOn_eq]
  by_cases hid : id = s.streamId
  · rw [if_pos hid, if_pos hid, h.length_payload]
  · rw [if_neg hid, if_neg hid, payload_nil, List.length_nil]

/-- Nothing is sent. -/
theorem zero (hblocked : s.remainingBodySize = 0 ∨ maxFrameSize = 0 ∨
    s.outflow.available conn ≤ 0) : BodySent maxFrameSize s conn 0 [] where
  streamId := by simp
  size := by simp
  body := by simp
  endStream := by simp
  le := Nat.zero_le _
  window := Or.inl rfl
  blocked := by
    intro hpos
    rcases hblocked with h | h | h
    · omega
    · exact Or.inl h
    · refine Or.inr ?_
      simpa [Stream.advanceBody] using h

/-- One frame more in front. -/
theorem cons {c : Nat} (hc0 : c ≠ 0) (hc : c ≤ s.remainingBodySize) (hmax : c ≤ maxFrameSize)
    (hw : (c : Int) ≤ s.outflow.available conn)
    (h : BodySent maxFrameSize (s.advanceBody c) ⟨conn.window - c⟩ n frames) :
    BodySent maxFrameSize s conn (c + n) (bodyFrame s c :: frames) where
  streamId := by
    intro f hf
    rcases List.mem_cons.1 hf with rfl | hf
    · exact bodyFrame_streamId s c
    · exact h.streamId f hf
  size := by
    intro f hf
    rcases List.mem_cons.1 hf with rfl | hf
    · rw [bodyFrame_length hc]
      omega
    · exact h.size f hf
  body := by
    have hrest := h.body
    rw [payload_cons, hrest]
    show (s.rqst.body.drop s.requestBodyOffset).take c ++
      ((s.rqst.body.drop (s.requestBodyOffset + c)).take n) = _
    rw [List.take_add, List.drop_drop]
  endStream := by
    intro a f b heq
    -- the rest of the body starts with the bytes of the new frame
    have hsplit : s.rqst.body.drop s.requestBodyOffset = (bodyFrame s c).data ++
        (s.advanceBody c).rqst.body.drop (s.advanceBody c).requestBodyOffset := by
      show _ = (s.rqst.body.drop s.requestBodyOffset).take c ++
        s.rqst.body.drop (s.requestBodyOffset + c)
      rw [← List.drop_drop, List.take_append_drop]
    cases a with
    | nil =>
      obtain ⟨rfl, rfl⟩ : bodyFrame s c = f ∧ frames = b := by simpa using heq
      rw [bodyFrame_endStream hc, hsplit]
      simp only [List.nil_append, payload_cons, payload_nil, List.append_right_inj]
      show _ ↔ [] = s.rqst.body.drop (s.requestBodyOffset + c)
      rw [eq_comm (a := []), List.drop_eq_nil_iff]
      unfold Stream.remainingBodySize at hc ⊢
      omega
    | cons a₀ a =>
      obtain ⟨rfl, rfl⟩ : bodyFrame s c = a₀ ∧ frames = a ++ f :: b := by simpa using heq
      rw [h.endStream a f b rfl, hsplit]
      simp only [List.cons_append, payload_cons, List.append_right_inj]
  le := by
    have := h.le
    rw [Stream.remainingBodySize_advanceBody] at this
    omega
  window := by
    refine Or.inr ?_
    rcases h.window with rfl | hn
    · simpa using hw
    · have h1 := OutFlow.available_le (s.advanceBody c).outflow ⟨conn.window - c⟩
      simp only [Stream.advanceBody] at h1 hn
      unfold OutFlow.available at hn ⊢
      push_cast
      split at hn <;> split <;> simp only at * <;> omega
  blocked := by
    intro hlt
    have hb := h.blocked (by rw [Stream.remainingBodySize_advanceBody]; omega)
    rcases hb with hb | hb
    · exact Or.inl hb
    · refine Or.inr ?_
      rw [s.advanceBody_advanceBody (by omega)] at hb
      have hcast : conn.window - (c : Int) - (n : Int) = conn.window - ((c + n : Nat) : Int) := by
        omega
      simpa only [hcast] using hb

/-- The bytes that are sent of a body: all that is left, or as much as fits into the windows. -/
theorem amount (h : BodySent maxFrameSize s conn n frames) (hmax : 0 < maxFrameSize) :
    n = min s.remainingBodySize (min s.outflow.window conn.window).toNat := by
  have havailable : s.outflow.available conn = min s.outflow.window conn.window := by
    unfold OutFlow.available
    split <;> omega
  have hle := h.le
  have hwindow := h.window
  rw [havailable] at hwindow
  rcases Nat.lt_or_ge n s.remainingBodySize with hlt | hge
  · rcases h.blocked hlt with h0 | hblocked
    · omega
    · have hrest : (s.advanceBody n).outflow.available ⟨conn.window - n⟩ =
          s.outflow.available conn - n := by
        unfold OutFlow.available
        show (if conn.window - n < s.outflow.window - n then conn.window - (n : Int)
          else s.outflow.window - n) = _
        split <;> split <;> omega
      rw [hrest, havailable] at hblocked
      omega
  · omega

end BodySent

namespace ProtocolState

/-- A round of the loop that sends `c` bytes. -/
theorem emitBodyLoop_succ {maxFrameSize fuel c : Nat} {s : Stream} {conn : OutFlow}
    (hc : min (min maxFrameSize s.remainingBodySize)
      (max 0 (s.outflow.available conn)).toNat = c) (hc0 : c ≠ 0) :
    emitBodyLoop maxFrameSize (fuel + 1) s conn = (do
      let r ← emitBodyLoop maxFrameSize fuel (s.advanceBody c) ⟨conn.window - c⟩
      return (r.1, r.2.1, .data (bodyFrame s c) :: r.2.2)) := by
  have hav : (c : Int) ≤ s.outflow.available conn := by omega
  have hrem : s.remainingBodySize = s.rqst.body.length - s.requestBodyOffset := rfl
  simp only [emitBodyLoop, if_neg (show s.remainingBodySize ≠ 0 by omega), hc, if_neg hc0,
    OutFlow.take_eq_ok hav, ok_bind]
  by_cases hlast : s.remainingBodySize - c = 0
  · have hend : c = s.remainingBodySize := by omega
    have hs : s.advanceBody c = { s with
        outflow := ⟨s.outflow.window - c⟩
        requestBodyOffset := s.requestBodyOffset + c
        localEndStreamSent := true } := by
      simp [Stream.advanceBody, ← hend, Nat.pos_of_ne_zero hc0]
    have hoff : s.rqst.body.length - (s.requestBodyOffset + c) = 0 := by omega
    simp only [bodyFrame, hlast, if_true, hs]
    simp only [Stream.remainingBodySize, hoff, if_true]
  · have hs : s.advanceBody c = { s with
        outflow := ⟨s.outflow.window - c⟩
        requestBodyOffset := s.requestBodyOffset + c } := by
      have hne : c ≠ s.remainingBodySize := by omega
      simp [Stream.advanceBody, hne]
    have hoff : s.rqst.body.length - (s.requestBodyOffset + c) ≠ 0 := by omega
    simp only [bodyFrame, if_neg hlast, hs]
    simp only [Stream.remainingBodySize, hoff, if_false]

/-- `emitBodyLoop` sends what `BodySent` describes; it never takes more than a window holds. -/
theorem emitBodyLoop_eq (maxFrameSize fuel : Nat) :
    ∀ (s : Stream) (conn : OutFlow), s.remainingBodySize ≤ fuel →
      ∃ n frames,
        emitBodyLoop maxFrameSize fuel s conn =
          .ok (s.advanceBody n, ⟨conn.window - n⟩, frames.map .data) ∧
        BodySent maxFrameSize s conn n frames := by
  induction fuel with
  | zero =>
    intro s conn hfuel
    refine ⟨0, [], ?_, .zero (Or.inl (by omega))⟩
    simp [emitBodyLoop, Stream.advanceBody_zero]
    rfl
  | succ fuel ih =>
    intro s conn hfuel
    have hstop : (s.remainingBodySize = 0 ∨ maxFrameSize = 0 ∨ s.outflow.available conn ≤ 0) →
        ∃ n frames,
          (.ok (s, conn, []) : Guarded (Stream × OutFlow × List OutboundBuffer)) =
            .ok (s.advanceBody n, ⟨conn.window - n⟩, frames.map .data) ∧
          BodySent maxFrameSize s conn n frames := by
      intro h
      refine ⟨0, [], ?_, .zero h⟩
      simp [Stream.advanceBody_zero]
    by_cases hrem : s.remainingBodySize = 0
    · simp only [emitBodyLoop, if_pos hrem]
      exact hstop (Or.inl hrem)
    -- the size of the next frame, bounded by both windows
    generalize hc : min (min maxFrameSize s.remainingBodySize)
      (max 0 (s.outflow.available conn)).toNat = c
    by_cases hc0 : c = 0
    · simp only [emitBodyLoop, if_neg hrem, hc, if_pos hc0]
      exact hstop (by omega)
    have hle : c ≤ s.remainingBodySize := by omega
    obtain ⟨n, frames, heq, hsent⟩ := ih (s.advanceBody c) ⟨conn.window - c⟩
      (by rw [Stream.remainingBodySize_advanceBody]; omega)
    have hn := hsent.le
    rw [Stream.remainingBodySize_advanceBody] at hn
    refine ⟨c + n, bodyFrame s c :: frames, ?_, .cons hc0 hle (by omega) (by omega) hsent⟩
    have hconn : conn.window - (c : Int) - (n : Int) = conn.window - ((c + n : Nat) : Int) := by
      omega
    rw [emitBodyLoop_succ hc hc0, heq]
    simp only [ok_bind, s.advanceBody_advanceBody (show c + n ≤ s.remainingBodySize by omega),
      hconn]
    rfl

/-- What a call of `emitPendingRequestBody` does to the state: nothing, or `n` bytes are sent and
the stream stays, has ended its side, or is finished. -/
inductive BodyStep (p : ProtocolState) (s : Stream) :
    ProtocolState → ProtocolStepResult → Prop
  | idle (h : s.localEndStreamSent = true ∨ s.isClosed = true) : BodyStep p s p {}
  | partly (n : Nat) (frames : List DataFrame)
      (hopen : s.localEndStreamSent = false)
      (h : BodySent p.maxFrameSize s p.connectionOutFlow n frames)
      (hend : (s.advanceBody n).localEndStreamSent = false) :
      BodyStep p s
        ({ p with connectionOutFlow := ⟨p.connectionOutFlow.window - n⟩ }.putStream
          (s.advanceBody n))
        { outbound := frames.map .data }
  | wholly (n : Nat) (frames : List DataFrame)
      (hopen : s.localEndStreamSent = false)
      (h : BodySent p.maxFrameSize s p.connectionOutFlow n frames)
      (hend : (s.advanceBody n).localEndStreamSent = true)
      (hremote : s.remoteEndStreamReceived = false) :
      BodyStep p s
        ({ p with connectionOutFlow := ⟨p.connectionOutFlow.window - n⟩ }.putStream
          { s.advanceBody n with streamState := .halfClosedLocal })
        { outbound := frames.map .data }
  | finished (n : Nat) (frames : List DataFrame)
      (hopen : s.localEndStreamSent = false)
      (h : BodySent p.maxFrameSize s p.connectionOutFlow n frames)
      (hend : (s.advanceBody n).localEndStreamSent = true)
      (hremote : s.remoteEndStreamReceived = true) :
      BodyStep p s
        { p with
          connectionOutFlow := ⟨p.connectionOutFlow.window - n⟩
          streams := p.streams.erase s.streamId }
        { outbound := frames.map .data, events := [.streamClosed s.streamId .noError] }

theorem emitPendingRequestBody_eq (p : ProtocolState) (s : Stream) :
    ∃ p' r, p.emitPendingRequestBody s = .ok (p', r) ∧ BodyStep p s p' r := by
  unfold emitPendingRequestBody
  by_cases hidle : (s.localEndStreamSent || s.isClosed) = true
  · rw [if_pos hidle]
    exact ⟨p, {}, rfl, .idle (by simpa using hidle)⟩
  rw [if_neg hidle]
  have hopen : s.localEndStreamSent = false := by
    simp only [Bool.or_eq_true, not_or, Bool.not_eq_true] at hidle
    exact hidle.1
  obtain ⟨n, frames, heq, hsent⟩ := emitBodyLoop_eq p.maxFrameSize s.remainingBodySize s
    p.connectionOutFlow (le_refl _)
  rw [heq]
  simp only [ok_bind]
  have hremote : (s.advanceBody n).remoteEndStreamReceived = s.remoteEndStreamReceived := rfl
  by_cases hend : (s.advanceBody n).localEndStreamSent = true
  · rw [if_pos hend]
    by_cases hr : s.remoteEndStreamReceived = true
    · rw [if_pos (hremote.trans hr)]
      exact ⟨_, _, rfl, .finished n frames hopen hsent hend hr⟩
    · rw [if_neg (by rwa [hremote])]
      exact ⟨_, _, rfl, .wholly n frames hopen hsent hend (by simpa using hr)⟩
  · rw [if_neg hend]
    exact ⟨_, _, rfl, .partly n frames hopen hsent (by simpa using hend)⟩

/-- A body step changes the streams and the window of the connection only. -/
theorem BodyStep.eq_with {p p' : ProtocolState} {s : Stream} {r : ProtocolStepResult}
    (h : BodyStep p s p' r) :
    p' = { p with streams := p'.streams, connectionOutFlow := p'.connectionOutFlow } := by
  cases h <;> rfl

/-- It sends DATA frames of the stream, and reports its end at most. -/
theorem BodyStep.outbound {p p' : ProtocolState} {s : Stream} {r : ProtocolStepResult}
    (h : BodyStep p s p' r) : ∃ frames : List DataFrame, r.outbound = frames.map .data ∧
      ∀ f ∈ frames, f.header.streamId = s.streamId := by
  cases h with
  | idle => exact ⟨[], rfl, fun _ hf => (List.not_mem_nil hf).elim⟩
  | partly n frames _ hsent => exact ⟨frames, rfl, hsent.streamId⟩
  | wholly n frames _ hsent => exact ⟨frames, rfl, hsent.streamId⟩
  | finished n frames _ hsent => exact ⟨frames, rfl, hsent.streamId⟩

theorem BodyStep.events {p p' : ProtocolState} {s : Stream} {r : ProtocolStepResult}
    (h : BodyStep p s p' r) : ∀ e ∈ r.events, e = .streamClosed s.streamId .noError := by
  cases h <;> simp

/-! ## Several request bodies -/

/-- What `emitPendingBodies` does for a list of ids: one `BodyStep` for each that is still in the
table. -/
inductive BodySteps : List StreamId → ProtocolState → ProtocolState → ProtocolStepResult → Prop
  | nil (p : ProtocolState) : BodySteps [] p p {}
  | gone {id : StreamId} {ids : List StreamId} {p p' : ProtocolState} {r : ProtocolStepResult}
      (hfind : p.streams.find? id = none) (hrest : BodySteps ids p p' r) :
      BodySteps (id :: ids) p p' r
  | cons {id : StreamId} {ids : List StreamId} {s : Stream} {p p₁ p' : ProtocolState}
      {r₁ r : ProtocolStepResult} (hfind : p.streams.find? id = some s)
      (hstep : BodyStep p s p₁ r₁) (hrest : BodySteps ids p₁ p' r) :
      BodySteps (id :: ids) p p' (r₁.merge r)

theorem emitPendingBodies_eq (ids : List StreamId) :
    ∀ p, ∃ p' r, emitPendingBodies ids p = .ok (p', r) ∧ BodySteps ids p p' r := by
  induction ids with
  | nil => exact fun p => ⟨p, {}, rfl, .nil p⟩
  | cons id ids ih =>
    intro p
    cases hfind : p.streams.find? id with
    | none =>
      obtain ⟨p', r, heq, hsteps⟩ := ih p
      refine ⟨p', r, ?_, .gone hfind hsteps⟩
      simp only [emitPendingBodies, hfind, heq]
    | some s =>
      obtain ⟨p₁, r₁, heq₁, hstep⟩ := p.emitPendingRequestBody_eq s
      obtain ⟨p', r, heq, hsteps⟩ := ih p₁
      refine ⟨p', r₁.merge r, ?_, .cons hfind hstep hsteps⟩
      simp only [emitPendingBodies, hfind, heq₁, ok_bind, heq]
      rfl

/-- One step is a sequence. -/
theorem BodySteps.single {id : StreamId} {s : Stream} {p p' : ProtocolState}
    {r : ProtocolStepResult} (hfind : p.streams.find? id = some s) (hstep : BodyStep p s p' r) :
    BodySteps [id] p p' r := by
  have h := BodySteps.cons hfind hstep (.nil p')
  rwa [ProtocolStepResult.merge_nil] at h

theorem BodySteps.eq_with {ids : List StreamId} {p p' : ProtocolState} {r : ProtocolStepResult}
    (h : BodySteps ids p p' r) :
    p' = { p with streams := p'.streams, connectionOutFlow := p'.connectionOutFlow } := by
  induction h with
  | nil => rfl
  | gone _ _ ih => exact ih
  | @cons _ _ _ p p₁ p' _ _ _ hstep _ ih =>
    calc p' = { p₁ with streams := p'.streams, connectionOutFlow := p'.connectionOutFlow } := ih
      _ = { p with streams := p'.streams, connectionOutFlow := p'.connectionOutFlow } := by
        rw [hstep.eq_with]

theorem BodySteps.outbound {ids : List StreamId} {p p' : ProtocolState} {r : ProtocolStepResult}
    (h : BodySteps ids p p' r) : ∃ frames : List DataFrame, r.outbound = frames.map .data := by
  induction h with
  | nil => exact ⟨[], rfl⟩
  | gone _ _ ih => exact ih
  | cons _ hstep _ ih =>
    obtain ⟨frames, hframes, -⟩ := hstep.outbound
    obtain ⟨rest, hrest⟩ := ih
    refine ⟨frames ++ rest, ?_⟩
    rw [List.map_append, ← hframes, ← hrest]
    rfl

theorem BodySteps.events {ids : List StreamId} {p p' : ProtocolState} {r : ProtocolStepResult}
    (h : BodySteps ids p p' r) : ∀ e ∈ r.events, ∃ id, e = .streamClosed id .noError := by
  induction h with
  | nil => exact fun e he => (List.not_mem_nil he).elim
  | gone _ _ ih => exact ih
  | cons _ hstep _ ih =>
    intro e he
    rcases List.mem_append.1 he with he | he
    · exact ⟨_, hstep.events e he⟩
    · exact ih e he

/-- What every `BodyStep` keeps, every sequence of them keeps. -/
theorem BodySteps.invariant {I : ProtocolState → Prop}
    (hstep : ∀ {p s p' r}, p.streams.find? s.streamId = some s → BodyStep p s p' r → I p →
      I p') {ids : List StreamId} {p p' : ProtocolState} {r : ProtocolStepResult}
    (h : BodySteps ids p p' r) (hp : I p) : I p' := by
  induction h with
  | nil p => exact hp
  | gone _ _ ih => exact ih hp
  | cons hfind h₁ _ ih =>
    refine ih (hstep ?_ h₁ hp)
    rw [KeyedTable.key_of_find? hfind]
    exact hfind

end ProtocolState

end Chttp2
