import Chttp2.Protocol.Settings

/-!
# Chunks of received bytes

However the bytes of the peer are cut into chunks, the protocol reports the same events, sends the
same frames and ends in the same state (`receiveBytes_append`, `delivery_independent`); only the
bytes behind the frame that closes the connection may stay in the frame codec or be dropped. Nothing
is asked of the state that the bytes meet.
-/

set_option autoImplicit false

namespace Chttp2

namespace ProtocolState

/-! ## Handlers and the transport -/

/-- A handler does not touch `transportClosed`. -/
def KeepsTransport {α : Type} (p : ProtocolState) (x : Guarded (ProtocolState × α)) : Prop :=
  ∀ q y, x = .ok (q, y) → q.transportClosed = p.transportClosed

section KeepsTransport

variable {α β : Type} {p q : ProtocolState}

theorem KeepsTransport.ok {y : α} (h : q.transportClosed = p.transportClosed) :
    KeepsTransport p (.ok (q, y)) := by
  intro q' y' heq
  cases heq
  exact h

theorem KeepsTransport.error (e : Fault) :
    KeepsTransport p (.error e : Guarded (ProtocolState × α)) := by
  intro q' y' heq
  cases heq

theorem KeepsTransport.bind {x : Guarded β} {f : β → Guarded (ProtocolState × α)}
    (h : ∀ b, KeepsTransport p (f b)) : KeepsTransport p (x >>= f) := by
  cases x with
  | error e => exact .error e
  | ok b => exact h b

theorem KeepsTransport.bindState {x : Guarded (ProtocolState × β)}
    {f : ProtocolState × β → Guarded (ProtocolState × α)} (hx : KeepsTransport p x)
    (h : ∀ q y, q.transportClosed = p.transportClosed → KeepsTransport p (f (q, y))) :
    KeepsTransport p (x >>= f) := by
  cases x with
  | error e => exact .error e
  | ok b => exact h b.1 b.2 (hx b.1 b.2 rfl)

theorem KeepsTransport.of_eq {x : Guarded (ProtocolState × α)} (hx : KeepsTransport q x)
    (h : q.transportClosed = p.transportClosed) : KeepsTransport p x :=
  fun q' y heq => (hx q' y heq).trans h

@[simp] theorem transportClosed_failStream (p : ProtocolState) (id : StreamId) (code : ErrorCode)
    (rst : Bool) : (p.failStream id code rst).1.transportClosed = p.transportClosed := by
  unfold failStream
  split <;> rfl

@[simp] theorem transportClosed_failStreams (code : ErrorCode) (ids : List StreamId) :
    ∀ (p : ProtocolState) (r : ProtocolStepResult),
      (failStreams code ids p r).1.transportClosed = p.transportClosed := by
  induction ids with
  | nil => exact fun _ _ => rfl
  | cons id ids ih => exact fun p r => (ih _ _).trans (transportClosed_failStream p id code false)

@[simp] theorem transportClosed_failConnection (p : ProtocolState) (code : ErrorCode)
    (text : String) : (p.failConnection code text).1.transportClosed = p.transportClosed :=
  transportClosed_failStreams code _ _ _

theorem keepsTransport_emitPendingRequestBody (p : ProtocolState) (s : Stream) :
    KeepsTransport p (p.emitPendingRequestBody s) := by
  unfold emitPendingRequestBody
  split
  · exact .ok rfl
  · refine .bind fun x => ?_
    dsimp only
    split
    · split <;> exact .ok rfl
    · exact .ok rfl

theorem keepsTransport_emitPendingBodies (ids : List StreamId) :
    ∀ p : ProtocolState, KeepsTransport p (emitPendingBodies ids p) := by
  induction ids with
  | nil => exact fun _ => .ok rfl
  | cons id ids ih =>
    intro p
    simp only [emitPendingBodies]
    split
    · exact ih p
    · refine .bindState (keepsTransport_emitPendingRequestBody p _) fun q y hq => ?_
      exact .bindState ((ih q).of_eq hq) fun q' y' hq' => .ok hq'

theorem keepsTransport_finalizeRemoteStream (p : ProtocolState) (s : Stream) :
    KeepsTransport p (p.finalizeRemoteStream s) := by
  unfold finalizeRemoteStream
  refine .bind fun mismatch => ?_
  split
  · exact .ok (transportClosed_failStream _ _ _ _)
  · split <;> exact .ok rfl

theorem keepsTransport_reportHeaders (p : ProtocolState) (s : Stream) (endStream : Bool) :
    KeepsTransport p (p.reportHeaders s endStream) := by
  unfold reportHeaders
  dsimp only
  split
  · exact .bindState ((keepsTransport_finalizeRemoteStream _ s).of_eq rfl) fun q y hq => .ok hq
  · exact .ok rfl

theorem keepsTransport_hpackDecode (p : ProtocolState) (id : StreamId) (block : Bytes) :
    KeepsTransport p (p.hpackDecode id block) :=
  .bind fun _ => .ok rfl

theorem keepsTransport_decodeResponseHeaders (p : ProtocolState) (s : Stream) (endStream : Bool) :
    KeepsTransport p (p.decodeResponseHeaders s endStream) := by
  unfold decodeResponseHeaders
  refine .bindState (keepsTransport_hpackDecode p _ _) fun q fields hq => ?_
  cases fields with
  | none => exact .ok hq
  | some headers =>
    dsimp only
    split
    · exact .ok hq
    split
    · exact .ok hq
    · exact .ok hq
    · split
      · exact .bindState ((keepsTransport_reportHeaders q _ endStream).of_eq hq) fun _ _ h => .ok h
      · split
        · exact .ok hq
        · exact .bindState ((keepsTransport_reportHeaders q _ endStream).of_eq hq) fun _ _ h => .ok h

theorem keepsTransport_completeHeaderBlock (p : ProtocolState) (s : Stream) (endStream : Bool) :
    KeepsTransport p (p.completeHeaderBlock s endStream) := by
  unfold completeHeaderBlock
  refine .bindState (keepsTransport_decodeResponseHeaders p s endStream) fun q y hq => ?_
  obtain ⟨result, code⟩ := y
  cases code with
  | none => exact .ok hq
  | some code =>
    dsimp only [handleHeaderBlockError]
    split
    · exact .ok ((transportClosed_failConnection _ _ _).trans hq)
    · exact .ok ((transportClosed_failStream _ _ _ _).trans hq)

theorem transportClosed_applyPeerSettings (settings : List (Nat × Nat)) (p : ProtocolState) :
    (applyPeerSettings settings p).1.transportClosed = p.transportClosed := by
  have h := (tuned_applyPeerSettings settings p).eq
  rw [h]

theorem transportClosed_processDataOnUnknownStream (p : ProtocolState) (frame : DataFrame) :
    (p.processDataOnUnknownStream frame).1.transportClosed = p.transportClosed := by
  unfold processDataOnUnknownStream
  dsimp only
  split
  · exact transportClosed_failConnection _ _ _
  split
  · exact transportClosed_failConnection _ _ _
  split
  · exact transportClosed_failConnection _ _ _
  · split
    · exact transportClosed_failConnection _ _ _
    · rfl

theorem keepsTransport_storeData (p : ProtocolState) (s : Stream) (frame : DataFrame) :
    KeepsTransport p (p.storeData s frame) := by
  unfold storeData
  dsimp only
  split
  · exact .ok (transportClosed_failConnection _ _ _)
  split
  · exact .ok (transportClosed_failStream _ _ _ _)
  split
  · exact .bindState ((keepsTransport_finalizeRemoteStream _ _).of_eq rfl) fun q y hq => .ok hq
  · exact .ok rfl

theorem keepsTransport_processDataFrame (p : ProtocolState) (frame : RawFrame) :
    KeepsTransport p (p.processDataFrame frame) := by
  unfold processDataFrame
  split
  · exact .ok (transportClosed_failConnection _ _ _)
  refine .bind fun checked => ?_
  cases checked with
  | some failure => exact .ok (transportClosed_failConnection _ _ _)
  | none =>
    refine .bind fun dataFrame => ?_
    split
    · exact .ok (transportClosed_processDataOnUnknownStream _ _)
    split
    · exact .ok (transportClosed_failStream _ _ _ _)
    split
    · exact .ok (transportClosed_failStream _ _ _ _)
    split
    · exact .ok (transportClosed_failConnection _ _ _)
    · dsimp only
      split <;>
      · refine .bind fun noBody => ?_
        split
        · exact .ok (transportClosed_failStream _ _ _ _)
        · exact (keepsTransport_storeData _ _ _).of_eq rfl

theorem keepsTransport_processGhostHeaders (p : ProtocolState) (frame : HeadersFrame) :
    KeepsTransport p (p.processGhostHeaders frame) := by
  unfold processGhostHeaders
  dsimp only
  split
  · exact .ok (transportClosed_failConnection _ _ _)
  split
  · exact .ok (transportClosed_failConnection _ _ _)
  split
  · refine .bindState (keepsTransport_hpackDecode p _ _) fun q fields hq => ?_
    cases fields with
    | none => exact .ok ((transportClosed_failConnection _ _ _).trans hq)
    | some headers => exact .ok hq
  · exact .bind fun block => .ok rfl

theorem keepsTransport_processHeadersFrame (p : ProtocolState) (frame : RawFrame) :
    KeepsTransport p (p.processHeadersFrame frame) := by
  unfold processHeadersFrame
  split
  · exact .ok (transportClosed_failConnection _ _ _)
  refine .bind fun checked => ?_
  cases checked with
  | some failure => exact .ok (transportClosed_failConnection _ _ _)
  | none =>
    refine .bind fun headersFrame => ?_
    split
    · exact keepsTransport_processGhostHeaders p _
    split
    · exact .ok (transportClosed_failStream _ _ _ _)
    · refine .bind fun block => ?_
      dsimp only
      split
      · exact .ok (transportClosed_failConnection _ _ _)
      split
      · exact .ok rfl
      · exact (keepsTransport_completeHeaderBlock _ _ _).of_eq rfl

theorem transportClosed_processPriorityFrame (p : ProtocolState) (frame : RawFrame) :
    (p.processPriorityFrame frame).1.transportClosed = p.transportClosed := by
  unfold processPriorityFrame
  split
  · exact transportClosed_failConnection _ _ _
  · split <;> rfl

theorem keepsTransport_processRstStreamFrame (p : ProtocolState) (frame : RawFrame) :
    KeepsTransport p (p.processRstStreamFrame frame) := by
  unfold processRstStreamFrame
  split
  · exact .ok (transportClosed_failConnection _ _ _)
  split
  · exact .ok (transportClosed_failConnection _ _ _)
  split
  · split
    · exact .ok (transportClosed_failConnection _ _ _)
    · exact .ok rfl
  · exact .bind fun rst => .ok (transportClosed_failStream _ _ _ _)

theorem keepsTransport_processSettingFrame (p : ProtocolState) (frame : RawFrame) :
    KeepsTransport p (p.processSettingFrame frame) := by
  unfold processSettingFrame
  split
  · exact .ok (transportClosed_failConnection _ _ _)
  split
  · exact .ok (transportClosed_failConnection _ _ _)
  split
  · split
    · exact .ok (transportClosed_failConnection _ _ _)
    · exact .ok rfl
  refine .bind fun settingsFrame => ?_
  have happlied := transportClosed_applyPeerSettings settingsFrame.settings
    { p with gotPeerSettings := true }
  split
  · rename_i q code heq
    rw [heq] at happlied
    exact .ok ((transportClosed_failConnection _ _ _).trans happlied)
  · rename_i q heq
    rw [heq] at happlied
    exact .bindState ((keepsTransport_emitPendingBodies _ q).of_eq happlied) fun _ _ h => .ok h

theorem keepsTransport_processPushPromiseFrame (p : ProtocolState) (frame : RawFrame) :
    KeepsTransport p (p.processPushPromiseFrame frame) := by
  unfold processPushPromiseFrame
  split
  · exact .ok (transportClosed_failConnection _ _ _)
  refine .bind fun checked => ?_
  cases checked with
  | some failure => exact .ok (transportClosed_failConnection _ _ _)
  | none =>
    refine .bind fun push => ?_
    split
    · exact .ok (transportClosed_failConnection _ _ _)
    split
    · exact .ok (transportClosed_failConnection _ _ _)
    · dsimp only
      split
      · exact .ok (transportClosed_failConnection _ _ _)
      · exact .ok rfl

theorem transportClosed_processPingFrame (p : ProtocolState) (frame : RawFrame) :
    (p.processPingFrame frame).1.transportClosed = p.transportClosed := by
  unfold processPingFrame
  split
  · exact transportClosed_failConnection _ _ _
  split
  · exact transportClosed_failConnection _ _ _
  · dsimp only
    split <;> rfl

theorem keepsTransport_processGoAwayFrame (p : ProtocolState) (frame : RawFrame) :
    KeepsTransport p (p.processGoAwayFrame frame) := by
  unfold processGoAwayFrame
  split
  · exact .ok (transportClosed_failConnection _ _ _)
  split
  · exact .ok (transportClosed_failConnection _ _ _)
  · exact .bind fun goaway => .ok (transportClosed_failStreams _ _ _ _)

theorem keepsTransport_processWindowUpdateFrame (p : ProtocolState) (frame : RawFrame) :
    KeepsTransport p (p.processWindowUpdateFrame frame) := by
  unfold processWindowUpdateFrame
  split
  · exact .ok (transportClosed_failConnection _ _ _)
  refine .bind fun window => ?_
  dsimp only
  split
  · split
    · exact .ok (transportClosed_failConnection _ _ _)
    · exact .ok (transportClosed_failStream _ _ _ _)
  split
  · split
    · exact .ok (transportClosed_failConnection _ _ _)
    · exact .bindState ((keepsTransport_emitPendingBodies _ _).of_eq rfl) fun _ _ h => .ok h
  split
  · split
    · exact .ok (transportClosed_failConnection _ _ _)
    · exact .ok rfl
  · split
    · exact .ok (transportClosed_failStream _ _ _ _)
    · exact .bindState ((keepsTransport_emitPendingRequestBody _ _).of_eq rfl) fun _ _ h => .ok h

theorem keepsTransport_processGhostContinuation (p : ProtocolState) (frame : ContinuationFrame) :
    KeepsTransport p (p.processGhostContinuation frame) := by
  unfold processGhostContinuation
  refine .bind fun block => ?_
  split
  · exact .ok (transportClosed_failConnection _ _ _)
  split
  · exact .ok rfl
  · refine .bindState ((keepsTransport_hpackDecode _ _ _).of_eq rfl) fun q fields hq => ?_
    cases fields with
    | none => exact .ok ((transportClosed_failConnection _ _ _).trans hq)
    | some headers => exact .ok hq

theorem keepsTransport_processContinuationFrame (p : ProtocolState) (frame : RawFrame) :
    KeepsTransport p (p.processContinuationFrame frame) := by
  unfold processContinuationFrame
  split
  · exact .ok (transportClosed_failConnection _ _ _)
  split
  · exact .ok (transportClosed_failConnection _ _ _)
  dsimp only
  split
  · exact keepsTransport_processGhostContinuation p _
  · refine .bind fun block => ?_
    split
    · exact .ok (transportClosed_failConnection _ _ _)
    split
    · exact .ok rfl
    · exact (keepsTransport_completeHeaderBlock _ _ _).of_eq rfl

theorem keepsTransport_receiveFrame (p : ProtocolState) (frame : RawFrame) :
    KeepsTransport p (p.receiveFrame frame) := by
  unfold receiveFrame
  split
  · exact .ok (transportClosed_failConnection _ _ _)
  split
  · exact .ok (transportClosed_failConnection _ _ _)
  split
  · exact .ok (transportClosed_failConnection _ _ _)
  split
  · exact keepsTransport_processDataFrame p frame
  · exact keepsTransport_processHeadersFrame p frame
  · exact .ok (transportClosed_processPriorityFrame p frame)
  · exact keepsTransport_processRstStreamFrame p frame
  · exact keepsTransport_processSettingFrame p frame
  · exact keepsTransport_processPushPromiseFrame p frame
  · exact .ok (transportClosed_processPingFrame p frame)
  · exact keepsTransport_processGoAwayFrame p frame
  · exact keepsTransport_processWindowUpdateFrame p frame
  · exact keepsTransport_processContinuationFrame p frame
  · exact .ok rfl

end KeepsTransport

end ProtocolState

/-! ## The frame codec -/

namespace FrameCodec

/-- `tryPop` where the buffer starts with a complete frame. -/
theorem tryPop_eq_some {c c' : FrameCodec} {frame : RawFrame} :
    c.tryPop = .ok (some (frame, c')) ↔
      FrameHeader.encodedSize ≤ c.buffer.length ∧
      FrameHeader.decode (ByteSpan.ofBytes (c.buffer.take FrameHeader.encodedSize)) =
        .ok frame.header ∧
      FrameHeader.encodedSize + frame.header.payloadLength ≤ c.buffer.length ∧
      frame.data = (c.buffer.drop FrameHeader.encodedSize).take frame.header.payloadLength ∧
      c'.buffer = c.buffer.drop (FrameHeader.encodedSize + frame.header.payloadLength) := by
  unfold tryPop
  constructor
  · intro h
    split at h
    · cases h
    · rename_i hsize
      split at h
      · cases h
      · rename_i header hd
        dsimp only at h
        split at h
        · cases h
        · rename_i htotal
          cases h
          exact ⟨not_lt.1 hsize, hd, not_lt.1 htotal, rfl, rfl⟩
  · rintro ⟨hsize, hd, htotal, hdata, hrest⟩
    rw [if_neg (not_lt.2 hsize)]
    split
    · rename_i e he
      rw [hd] at he
      cases he
    · rename_i header he
      rw [hd] at he
      obtain rfl := Except.ok.inj he
      dsimp only
      rw [dif_neg (not_lt.2 htotal)]
      -- the frame and the rest of the buffer are determined by what has been read
      obtain ⟨buffer⟩ := c'
      cases hrest
      obtain ⟨header, data, _, _, _⟩ := frame
      dsimp only at hdata
      subst hdata
      rfl

/-- A complete frame is popped alike when more bytes follow. -/
theorem tryPop_feed {c c' : FrameCodec} {frame : RawFrame} (h : c.tryPop = .ok (some (frame, c')))
    (data : Bytes) : (c.feed data).tryPop = .ok (some (frame, c'.feed data)) := by
  obtain ⟨hsize, hd, htotal, hdata, hrest⟩ := tryPop_eq_some.1 h
  have hlength : (c.feed data).buffer.length = c.buffer.length + data.length :=
    List.length_append
  refine tryPop_eq_some.2 ⟨by omega, ?_, by omega, ?_, ?_⟩
  · rw [feed, List.take_append_of_le_length hsize]
    exact hd
  · rw [feed, List.drop_append_of_le_length hsize, List.take_append_of_le_length, hdata]
    rw [List.length_drop]
    omega
  · rw [feed, feed, List.drop_append_of_le_length htotal, hrest]

end FrameCodec

/-! ## Chunks -/

namespace Http2Protocol

open ProtocolState

/-- The same connection, up to bytes in the codec that a closed connection no longer looks at. -/
def Same (p q : Http2Protocol) : Prop :=
  q.state = p.state ∧ (q.frameCodec = p.frameCodec ∨ p.state.closed = true)

/-- Two computations fail alike, or they report the same result and end in the same connection. -/
def SameDelivery (x y : Guarded (Http2Protocol × ProtocolStepResult)) : Prop :=
  (∃ e, x = .error e ∧ y = .error e) ∨
    ∃ p q r, x = .ok (p, r) ∧ y = .ok (q, r) ∧ Same p q

/-- Two computations in a row, reported as one. -/
def andThen (x : Guarded (Http2Protocol × ProtocolStepResult))
    (f : Http2Protocol → Guarded (Http2Protocol × ProtocolStepResult)) :
    Guarded (Http2Protocol × ProtocolStepResult) := do
  let (p, result) ← x
  let (p, more) ← f p
  return (p, result.merge more)

variable {p q : Http2Protocol} {x y : Guarded (Http2Protocol × ProtocolStepResult)}

theorem Same.refl (p : Http2Protocol) : Same p p := ⟨rfl, Or.inl rfl⟩

theorem Same.symm (h : Same p q) : Same q p :=
  ⟨h.1.symm, h.2.imp Eq.symm fun hclosed => h.1 ▸ hclosed⟩

theorem Same.trans {q' : Http2Protocol} (h : Same p q) (h' : Same q q') : Same p q' := by
  refine ⟨h'.1.trans h.1, ?_⟩
  rcases h.2 with heq | hclosed
  · rcases h'.2 with heq' | hclosed'
    · exact Or.inl (heq'.trans heq)
    · exact Or.inr (h.1 ▸ hclosed')
  · exact Or.inr hclosed

theorem SameDelivery.refl (x : Guarded (Http2Protocol × ProtocolStepResult)) :
    SameDelivery x x := by
  cases x with
  | error e => exact Or.inl ⟨e, rfl, rfl⟩
  | ok result => exact Or.inr ⟨result.1, result.1, result.2, rfl, rfl, .refl _⟩

theorem SameDelivery.symm (h : SameDelivery x y) : SameDelivery y x := by
  rcases h with ⟨e, hx, hy⟩ | ⟨p, q, r, hx, hy, hsame⟩
  · exact Or.inl ⟨e, hy, hx⟩
  · exact Or.inr ⟨q, p, r, hy, hx, hsame.symm⟩

theorem SameDelivery.trans {z : Guarded (Http2Protocol × ProtocolStepResult)}
    (h : SameDelivery x y) (h' : SameDelivery y z) : SameDelivery x z := by
  rcases h with ⟨e, rfl, rfl⟩ | ⟨p, q, r, rfl, rfl, hsame⟩
  · rcases h' with ⟨e', he, rfl⟩ | ⟨p, q, r, he, -, -⟩
    · cases he
      exact Or.inl ⟨e, rfl, rfl⟩
    · cases he
  · rcases h' with ⟨e', he, -⟩ | ⟨p', q', r', he, rfl, hsame'⟩
    · cases he
    · cases he
      exact Or.inr ⟨p, q', r, rfl, rfl, hsame.trans hsame'⟩

/-- Two computations in a row. -/
theorem SameDelivery.andThen {f g : Http2Protocol → Guarded (Http2Protocol × ProtocolStepResult)}
    (h : SameDelivery x y) (hfg : ∀ p q, Same p q → SameDelivery (f p) (g q)) :
    SameDelivery (andThen x f) (andThen y g) := by
  rcases h with ⟨e, rfl, rfl⟩ | ⟨p, q, r, rfl, rfl, hsame⟩
  · exact Or.inl ⟨e, rfl, rfl⟩
  · simp only [Http2Protocol.andThen, ok_bind]
    rcases hfg p q hsame with ⟨e, hf, hg⟩ | ⟨p', q', r', hf, hg, hsame'⟩
    · rw [hf, hg]
      exact Or.inl ⟨e, rfl, rfl⟩
    · rw [hf, hg]
      exact Or.inr ⟨p', q', r.merge r', rfl, rfl, hsame'⟩

/-- A first part in common. -/
theorem SameDelivery.merge (h : SameDelivery x y) (result : ProtocolStepResult) :
    SameDelivery (x >>= fun z => return (z.1, result.merge z.2))
      (y >>= fun z => return (z.1, result.merge z.2)) := by
  rcases h with ⟨e, rfl, rfl⟩ | ⟨p, q, r, rfl, rfl, hsame⟩
  · exact Or.inl ⟨e, rfl, rfl⟩
  · exact Or.inr ⟨p, q, result.merge r, rfl, rfl, hsame⟩

/-- The loop of `receiveBytes` does not depend on its fuel once it covers the bytes. -/
theorem receiveFrames_fuel (fuel : Nat) : ∀ (fuel' : Nat) (p : Http2Protocol),
    p.frameCodec.buffer.length ≤ fuel → p.frameCodec.buffer.length ≤ fuel' →
      receiveFrames fuel p = receiveFrames fuel' p := by
  -- the loop without fuel has no bytes left, so `tryPop` ends the other one, too
  have hzero : ∀ (fuel : Nat) (p : Http2Protocol), p.frameCodec.buffer.length ≤ 0 →
      receiveFrames fuel p = .ok (p, {}) := by
    intro fuel p hlen
    cases fuel with
    | zero => rfl
    | succ fuel =>
      rcases p.frameCodec.tryPop_cases with hpop | ⟨f, codec, -, hlt⟩
      · simp only [receiveFrames, hpop, ok_bind]
        rfl
      · omega
  induction fuel with
  | zero =>
    intro fuel' p hle _
    rw [hzero 0 p hle, hzero fuel' p hle]
  | succ fuel ih =>
    intro fuel' p hle hle'
    cases fuel' with
    | zero => rw [hzero _ p hle', hzero 0 p hle']
    | succ fuel' =>
      rcases p.frameCodec.tryPop_cases with hpop | ⟨f, codec, hpop, hlt⟩
      · simp only [receiveFrames, hpop, ok_bind]
      · simp only [receiveFrames, hpop, ok_bind]
        have hrest : ∀ state, receiveFrames fuel ⟨codec, state⟩ =
            receiveFrames fuel' ⟨codec, state⟩ := by
          intro state
          exact ih fuel' ⟨codec, state⟩ (by show codec.buffer.length ≤ fuel; omega)
            (by show codec.buffer.length ≤ fuel'; omega)
        simp only [hrest]

theorem receiveBytes_open (hopen : p.state.closed = false) (hup : p.state.transportClosed = false)
    (data : Bytes) {n : Nat} (hn : (p.frameCodec.feed data).buffer.length ≤ n) :
    p.receiveBytes data = receiveFrames n { p with frameCodec := p.frameCodec.feed data } := by
  simp only [receiveBytes, hopen, hup, Bool.or_self, Bool.false_eq_true, if_false]
  exact receiveFrames_fuel _ _ _ (le_refl _) hn

theorem receiveBytes_closed {data : Bytes} (hclosed : p.state.closed = true) :
    p.receiveBytes data = .ok (p, {}) := by
  simp [receiveBytes, hclosed]
  rfl

/-- Nothing happens before the second part. -/
theorem andThen_idle (p : Http2Protocol)
    (f : Http2Protocol → Guarded (Http2Protocol × ProtocolStepResult)) :
    andThen (.ok (p, {})) f = f p := by
  simp only [andThen, ok_bind, ProtocolStepResult.nil_merge]
  cases f p with
  | error e => rfl
  | ok z => rfl

/-- A closed connection receives nothing more. -/
theorem andThen_closed {data : Bytes} (hclosed : p.state.closed = true)
    (result : ProtocolStepResult) :
    andThen (.ok (p, result)) (fun p => p.receiveBytes data) = .ok (p, result) := by
  simp only [andThen, ok_bind, receiveBytes_closed hclosed, ProtocolStepResult.merge_nil]
  rfl

/-- A result in front of two computations in a row. -/
theorem andThen_merge (result : ProtocolStepResult)
    (f : Http2Protocol → Guarded (Http2Protocol × ProtocolStepResult)) :
    andThen (x >>= fun z => return (z.1, result.merge z.2)) f =
      andThen x f >>= fun z => return (z.1, result.merge z.2) := by
  cases x with
  | error e => rfl
  | ok z =>
    simp only [andThen, ok_bind]
    show (f z.1 >>= fun y => return (y.1, (result.merge z.2).merge y.2)) =
      (f z.1 >>= fun y => return (y.1, z.2.merge y.2)) >>= fun z => return (z.1, result.merge z.2)
    cases f z.1 with
    | error e => rfl
    | ok y => exact congrArg (fun r => Except.ok (y.1, r)) (ProtocolStepResult.merge_assoc _ _ _)

/-- Bytes behind those in the codec are received alike when they come later. -/
theorem receiveFrames_feed (data : Bytes) (fuel : Nat) : ∀ p : Http2Protocol,
    p.frameCodec.buffer.length ≤ fuel → p.state.closed = false →
    p.state.transportClosed = false →
      SameDelivery
        (receiveFrames (fuel + data.length) { p with frameCodec := p.frameCodec.feed data })
        (andThen (receiveFrames fuel p) fun p => p.receiveBytes data) := by
  -- where the codec holds no complete frame, the bytes of both chunks are joined in it
  have hjoin : ∀ (fuel : Nat) (p : Http2Protocol), p.frameCodec.buffer.length ≤ fuel →
      p.state.closed = false → p.state.transportClosed = false →
      receiveFrames fuel p = .ok (p, {}) →
      SameDelivery
        (receiveFrames (fuel + data.length) { p with frameCodec := p.frameCodec.feed data })
        (andThen (receiveFrames fuel p) fun p => p.receiveBytes data) := by
    intro fuel p hle hopen hup hstop
    have hlength : (p.frameCodec.feed data).buffer.length ≤ fuel + data.length := by
      rw [FrameCodec.feed, List.length_append]
      omega
    rw [hstop, andThen_idle, receiveBytes_open hopen hup data hlength]
    exact .refl _
  induction fuel with
  | zero => exact fun p hle hopen hup => hjoin 0 p hle hopen hup rfl
  | succ fuel ih =>
    intro p hle hopen hup
    rcases p.frameCodec.tryPop_cases with hpop | ⟨f, codec, hpop, hlt⟩
    · refine hjoin (fuel + 1) p hle hopen hup ?_
      simp only [receiveFrames, hpop, ok_bind]
      rfl
    rw [Nat.add_right_comm]
    simp only [receiveFrames, hpop, FrameCodec.tryPop_feed hpop, ok_bind]
    cases hstep : p.state.receiveFrame f with
    | error e => exact Or.inl ⟨e, rfl, rfl⟩
    | ok next =>
      obtain ⟨state, result⟩ := next
      have hup' := (keepsTransport_receiveFrame p.state f state result hstep).trans hup
      simp only [ok_bind]
      by_cases hclosed : state.closed = true
      · simp only [hclosed, if_true]
        refine Or.inr ⟨_, ⟨codec, state⟩, _, rfl, ?_, ⟨rfl, Or.inr hclosed⟩⟩
        exact andThen_closed hclosed result
      · rw [if_neg hclosed, if_neg hclosed]
        have hle' : codec.buffer.length ≤ fuel := by omega
        have hrest := (ih ⟨codec, state⟩ hle' (by simpa using hclosed) hup').merge result
        rw [← andThen_merge] at hrest
        exact hrest

/-- Two chunks are received like the bytes of both. -/
theorem receiveBytes_append (p : Http2Protocol) (a b : Bytes) :
    SameDelivery (p.receiveBytes (a ++ b))
      (andThen (p.receiveBytes a) fun p => p.receiveBytes b) := by
  by_cases hdown : (p.state.closed || p.state.transportClosed) = true
  · have hnone : ∀ data, p.receiveBytes data = .ok (p, {}) := by
      intro data
      rw [receiveBytes, if_pos hdown]
      rfl
    rw [hnone, hnone, andThen_idle, hnone]
    exact .refl _
  · obtain ⟨hopen, hup⟩ : p.state.closed = false ∧ p.state.transportClosed = false := by
      simpa using hdown
    have hfeed : (p.frameCodec.feed a).feed b = p.frameCodec.feed (a ++ b) := by
      simp [FrameCodec.feed]
    have hlength : (p.frameCodec.feed (a ++ b)).buffer.length ≤
        (p.frameCodec.feed a).buffer.length + b.length := by
      rw [← hfeed]
      exact List.length_append.le
    rw [receiveBytes_open hopen hup (a ++ b) hlength, receiveBytes_open hopen hup a (le_refl _),
      ← hfeed]
    exact receiveFrames_feed b _ { p with frameCodec := p.frameCodec.feed a } (le_refl _) hopen hup

/-! ## Runs -/

/-- Execute a list of operations and report them as one. -/
def execute : List Op → Http2Protocol → Guarded (Http2Protocol × ProtocolStepResult)
  | [], p => return (p, {})
  | op :: ops, p => andThen (p.apply op) (execute ops)

/-- Two lists of operations that differ in how the received bytes are cut into chunks. -/
inductive Recut : List Op → List Op → Prop
  | nil : Recut [] []
  | cons (op : Op) {ops ops' : List Op} (h : Recut ops ops') : Recut (op :: ops) (op :: ops')
  | split (a b : Bytes) {ops ops' : List Op} (h : Recut ops ops') :
      Recut (.receiveBytes (a ++ b) :: ops) (.receiveBytes a :: .receiveBytes b :: ops')
  | symm {ops ops' : List Op} (h : Recut ops ops') : Recut ops' ops
  | trans {ops ops' ops'' : List Op} (h : Recut ops ops') (h' : Recut ops' ops'') : Recut ops ops''

/-- A local operation leaves a closed connection closed. -/
theorem closed_of_local {state : ProtocolState} (hclosed : state.closed = true) (a : Action)
    (hlocal : ∀ f, a ≠ .receiveFrame f) :
    ∃ state' r, state.act a = .ok (state', r) ∧ state'.closed = true := by
  cases a with
  | start =>
    simp only [act, start]
    split <;> exact ⟨_, _, rfl, hclosed⟩
  | submitRequest request rehash =>
    have hcan : state.canSubmitRequests = false := by simp [canSubmitRequests, hclosed]
    exact ⟨state, { events := [.responseFailed 0 .refusedStream] },
      by simp [act, submitRequest, hcan]; rfl, hclosed⟩
  | receiveFrame f => exact absurd rfl (hlocal f)
  | cancelStream id code => exact ⟨state, {}, by simp [act, cancelStream, hclosed], hclosed⟩
  | sendPing => exact ⟨state, {}, by simp [act, sendPing, hclosed], hclosed⟩
  | close => exact ⟨state, {}, by simp [act, close, hclosed], hclosed⟩
  | onTransportClosed => exact ⟨_, _, rfl, rfl⟩

/-- A local operation of a closed connection does not look into the codec. -/
theorem sameDelivery_lift (h : Same p q) (hclosed : p.state.closed = true) (a : Action)
    (hlocal : ∀ f, a ≠ .receiveFrame f) :
    SameDelivery (p.lift (p.state.act a)) (q.lift (q.state.act a)) := by
  obtain ⟨state', r, heq, hclosed'⟩ := closed_of_local hclosed a hlocal
  rw [h.1, heq]
  exact Or.inr ⟨{ p with state := state' }, { q with state := state' }, r, rfl, rfl, rfl,
    Or.inr hclosed'⟩

/-- An operation does the same to the same connection. -/
theorem Same.apply (h : Same p q) (op : Op) : SameDelivery (p.apply op) (q.apply op) := by
  rcases h.2 with heq | hclosed
  · obtain ⟨codec, state⟩ := q
    obtain rfl : state = p.state := h.1
    obtain rfl : codec = p.frameCodec := heq
    exact .refl _
  · cases op with
    | start => exact sameDelivery_lift h hclosed .start (by simp)
    | submitRequest request rehash =>
      exact sameDelivery_lift h hclosed (.submitRequest request rehash) (by simp)
    | receiveBytes data =>
      refine Or.inr ⟨p, q, {}, receiveBytes_closed hclosed, receiveBytes_closed ?_, h⟩
      rw [h.1]
      exact hclosed
    | cancelStream id code => exact sameDelivery_lift h hclosed (.cancelStream id code) (by simp)
    | sendPing => exact sameDelivery_lift h hclosed .sendPing (by simp)
    | close => exact sameDelivery_lift h hclosed .close (by simp)
    | onTransportClosed => exact sameDelivery_lift h hclosed .onTransportClosed (by simp)

theorem andThen_assoc (f g : Http2Protocol → Guarded (Http2Protocol × ProtocolStepResult)) :
    andThen (andThen x f) g = andThen x fun p => andThen (f p) g := by
  cases x with
  | error e => rfl
  | ok z => exact andThen_merge z.2 g

theorem Recut.execute {ops ops' : List Op} (h : Recut ops ops') :
    ∀ {p q : Http2Protocol}, Same p q → SameDelivery (execute ops p) (execute ops' q) := by
  induction h with
  | nil => exact fun {p q} hsame => Or.inr ⟨p, q, {}, rfl, rfl, hsame⟩
  | cons op h ih => exact fun hsame => (hsame.apply op).andThen fun _ _ hnext => ih hnext
  | split a b h ih =>
    intro p q hsame
    have hfirst : SameDelivery (p.receiveBytes (a ++ b))
        (andThen (q.receiveBytes a) fun p => p.receiveBytes b) :=
      (hsame.apply (.receiveBytes (a ++ b))).trans (receiveBytes_append q a b)
    have hall := hfirst.andThen fun _ _ hnext => ih hnext
    rw [andThen_assoc] at hall
    exact hall
  | symm h ih => exact fun hsame => (ih hsame.symm).symm
  | trans h h' ih ih' => exact fun hsame => (ih (.refl _)).trans (ih' hsame)

/-- Two chunks are received like the bytes of both, from every state; and a run does not depend on
how the received bytes are cut into chunks. -/
theorem delivery_independent :
    (∀ (p : Http2Protocol) (a b : Bytes), SameDelivery (p.receiveBytes (a ++ b))
      (andThen (p.receiveBytes a) fun p => p.receiveBytes b)) ∧
    ∀ (p : Http2Protocol) (ops ops' : List Op), Recut ops ops' →
      SameDelivery (execute ops p) (execute ops' p) :=
  ⟨receiveBytes_append, fun _ _ _ h => h.execute (.refl _)⟩

/-- An empty SETTINGS frame that is cut inside its header is received like the whole one. -/
theorem delivery_independent_of_cut_header :
    SameDelivery
      (execute [.start, .receiveBytes ([0, 0, 0] ++ [4, 0, 0, 0, 0, 0])] {})
      (execute [.start, .receiveBytes [0, 0, 0], .receiveBytes [4, 0, 0, 0, 0, 0]] {}) :=
  delivery_independent.2 {} _ _ (.cons .start (.split [0, 0, 0] [4, 0, 0, 0, 0, 0] .nil))

end Http2Protocol

end Chttp2
