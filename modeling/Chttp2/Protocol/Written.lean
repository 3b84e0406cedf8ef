import Chttp2.Lib.Ensures
import Chttp2.Protocol.FrameFormat
import Chttp2.Protocol.RequestHeaders

/-!
# What is written

A frame that is written has to fit its header: the payload length into 24 bits, ids, window sizes,
error codes and settings into their fields. The builders do not check any of this. It holds because
the numbers that they are given are bounded (`Bounded`), and every handler keeps the bounds
(`Writes`). So in every run every buffer is the preface or a well-formed frame (`framed_of_runs`),
and the bytes of a run are cut into exactly the frames that were written (`written_stream`).
-/

set_option autoImplicit false

namespace Chttp2

/-! ## Frames in buffers -/

/-- The frame in a buffer; the preface is not a frame. -/
def OutboundBuffer.frame : OutboundBuffer → Option TypedFrame
  | .preface => none
  | .data f => some (.data f)
  | .headers f => some (.headers f)
  | .rstStream f => some (.rstStream f)
  | .settings f => some (.settings f)
  | .ping f => some (.ping f)
  | .goAway f => some (.goAway f)
  | .windowUpdate f => some (.windowUpdate f)
  | .continuation f => some (.continuation f)

/-- A frame in the buffer is well formed. -/
def OutboundBuffer.WellFormed (b : OutboundBuffer) : Prop := ∀ f, b.frame = some f → f.WellFormed

theorem OutboundBuffer.toBytes_of_frame {b : OutboundBuffer} {f : TypedFrame}
    (h : b.frame = some f) : b.toBytes = f.toBytes := by
  cases b with
  | preface => cases h
  | _ => cases h; rfl

/-- All frames in the buffers are well formed. -/
def Framed (out : List OutboundBuffer) : Prop := ∀ b ∈ out, b.WellFormed

section Framed

variable {b : OutboundBuffer} {f : TypedFrame} {out out' : List OutboundBuffer}

theorem Framed.nil : Framed [] := fun _ h => absurd h List.not_mem_nil

theorem framed_cons : Framed (b :: out) ↔ b.WellFormed ∧ Framed out := List.forall_mem_cons

theorem Framed.append (h : Framed out) (h' : Framed out') : Framed (out ++ out') :=
  List.forall_mem_append.2 ⟨h, h'⟩

theorem OutboundBuffer.wellFormed_of_frame (h : b.frame = some f) (hf : f.WellFormed) :
    b.WellFormed := by
  intro f' hf'
  obtain rfl : f' = f := Option.some.inj (hf'.symm.trans h)
  exact hf

theorem Framed.single (h : b.frame = some f) (hf : f.WellFormed) : Framed [b] :=
  framed_cons.2 ⟨OutboundBuffer.wellFormed_of_frame h hf, .nil⟩

end Framed

/-- The buffer holds a frame that is read back from the front of every stream that it begins. -/
def OutboundBuffer.ReadsBack (b : OutboundBuffer) : Prop :=
  ∃ f raw, b.frame = some f ∧ TypedFrame.ofRaw raw = .ok (some f) ∧
    ∀ rest, FrameCodec.tryPop ⟨b.toBytes ++ rest⟩ = .ok (some (raw, ⟨rest⟩))

theorem readsBack_of_frame {b : OutboundBuffer} {f : TypedFrame} (h : b.frame = some f)
    (hf : f.WellFormed) : b.ReadsBack := by
  refine ⟨f, f.raw hf, h, TypedFrame.ofRaw_raw hf, fun rest => ?_⟩
  rw [OutboundBuffer.toBytes_of_frame h, ← TypedFrame.toBytes_raw hf]
  exact FrameCodec.tryPop_toBytes hf.canonical rest

/-! ## Builders -/

/-- The value is one of the underlying type of `ErrorCode`. -/
def ErrorCode.Fits (code : ErrorCode) : Prop := code.toNat < 2 ^ 32

instance ErrorCode.decidableFits (code : ErrorCode) : Decidable code.Fits :=
  inferInstanceAs (Decidable (_ < _))

/-- Frames with END_STREAM and END_HEADERS at most have neither padding nor priority fields. -/
theorem FrameHeader.not_padded {h : FrameHeader}
    (hflags : h.flags = 0 ∨ h.flags = 1 ∨ h.flags = 4 ∨ h.flags = 5) :
    h.hasAnyFlag .padded = false ∧ h.hasAnyFlag .priority = false := by
  unfold hasAnyFlag
  rcases hflags with hf | hf | hf | hf <;>
  · rw [hf]
    decide

/-- An announced increment fits into 31 bits. -/
theorem InFlow.add_le (f : InFlow) (n : Int) : (f.add n).1 ≤ int32Max := by
  unfold add
  split
  · show -1 ≤ int32Max
    decide
  · split
    · show 0 ≤ int32Max
      decide
    · omega

namespace TypedFrame

/-- A DATA frame without padding. -/
theorem wellFormed_data {f : DataFrame} (htype : f.header.type = .data)
    (hflag : f.header.hasAnyFlag .padded = false) (hpad : f.padLength = 0) (hnil : f.padding = [])
    (hlen : f.header.payloadLength = f.data.length) (hlt : f.data.length < 2 ^ 24)
    (hid : f.header.streamId < 2 ^ 31) : (TypedFrame.data f).WellFormed where
  type := htype
  payloadLength := by
    rw [payload, padLengthBytes, paddingBytes, hflag, hnil]
    simp [header, hlen]
  length_lt := hlen.trans_lt hlt
  streamId_lt := hid
  fields := ⟨by omega, by rw [hnil, hpad]; rfl, fun _ => hpad⟩

/-- A HEADERS frame without padding and priority. -/
theorem wellFormed_headers {f : HeadersFrame} (htype : f.header.type = .headers)
    (hflag : f.header.hasAnyFlag .padded = false)
    (hpriority : f.header.hasAnyFlag .priority = false) (hpad : f.padLength = 0)
    (hnil : f.padding = []) (hzero : f.streamDependency = 0 ∧ f.weight = 0)
    (hlen : f.header.payloadLength = f.data.length) (hlt : f.data.length < 2 ^ 24)
    (hid : f.header.streamId < 2 ^ 31) : (TypedFrame.headers f).WellFormed where
  type := htype
  payloadLength := by
    rw [payload, padLengthBytes, paddingBytes, priorityBytes, hflag, hpriority, hnil]
    simp [header, hlen]
  length_lt := hlen.trans_lt hlt
  streamId_lt := hid
  fields := ⟨⟨by omega, by rw [hnil, hpad]; rfl, fun _ => hpad⟩, by omega, by omega, fun _ => hzero⟩

theorem wellFormed_continuation {f : ContinuationFrame} (htype : f.header.type = .continuation)
    (hlen : f.header.payloadLength = f.data.length) (hlt : f.data.length < 2 ^ 24)
    (hid : f.header.streamId < 2 ^ 31) : (TypedFrame.continuation f).WellFormed :=
  ⟨htype, hlen, hlen.trans_lt hlt, hid, trivial⟩

theorem wellFormed_ping {f : PingFrame} (htype : f.header.type = .ping)
    (hlen : f.header.payloadLength = f.data.length) (hlt : f.data.length < 2 ^ 24)
    (hid : f.header.streamId < 2 ^ 31) : (TypedFrame.ping f).WellFormed :=
  ⟨htype, hlen, hlen.trans_lt hlt, hid, trivial⟩

end TypedFrame

namespace ProtocolState

theorem length_four_lt : 4 < 2 ^ 24 := by decide

theorem wellFormed_rstStream {id : StreamId} {code : ErrorCode} (hid : id < 2 ^ 31)
    (hcode : code.Fits) : (TypedFrame.rstStream (buildRstStreamFrame id code)).WellFormed :=
  ⟨rfl, (length_toBigEndian 4 code.toNat).symm, length_four_lt, hid, hcode⟩

theorem wellFormed_windowUpdate {id : StreamId} {increment : Nat} (hid : id < 2 ^ 31)
    (hincrement : increment < 2 ^ 32) :
    (TypedFrame.windowUpdate (buildWindowUpdateFrame id increment)).WellFormed :=
  ⟨rfl, (length_toBigEndian 4 increment).symm, length_four_lt, hid, hincrement⟩

theorem wellFormed_goAway {p : ProtocolState} {code : ErrorCode} {debugData : Bytes}
    (hlast : p.lastPeerStreamId < 2 ^ 31) (hcode : code.Fits)
    (hlen : debugData.length + 8 < 2 ^ 24) :
    (TypedFrame.goAway (buildGoAwayFrame p code debugData)).WellFormed where
  type := rfl
  payloadLength := by
    rw [TypedFrame.payload, List.length_append, List.length_append, length_toBigEndian,
      length_toBigEndian]
    show 8 + debugData.length = 4 + (4 + debugData.length)
    omega
  length_lt := by
    show 8 + debugData.length < 2 ^ 24
    omega
  streamId_lt := by
    show 0 < 2 ^ 31
    decide
  fields := ⟨hlast, hcode⟩

theorem wellFormed_settings {settings : List (Nat × Nat)} {flags : UInt8}
    (hlen : settings.length * 6 < 2 ^ 24) (h : ∀ s ∈ settings, s.1 < 2 ^ 16 ∧ s.2 < 2 ^ 32) :
    (TypedFrame.settings ⟨⟨settings.length * 6, .settings, flags, 0⟩, settings⟩).WellFormed where
  type := rfl
  payloadLength := by
    rw [TypedFrame.payload, TypedFrame.length_flatMap_settingBytes, Nat.mul_comm]
    rfl
  length_lt := hlen
  streamId_lt := by
    show 0 < 2 ^ 31
    decide
  fields := h

/-! ## Bounded states -/

/-- The values that the connection announces in its SETTINGS frame fit their fields. -/
def AnnouncedFits (p : ProtocolState) : Prop :=
  p.maxConcurrentStreams < 2 ^ 32 ∧ p.decodeHeaderTableSize < 2 ^ 32 ∧
    p.localMaxFrameSize < 2 ^ 32 ∧ p.initialWindowSize < 2 ^ 32 ∧ p.maxHeaderListSize < 2 ^ 32

/-- The numbers of a connection that go into frames fit their fields. -/
def Bounded (p : ProtocolState) : Prop :=
  p.maxFrameSize < 2 ^ 24 ∧ p.lastPeerStreamId < 2 ^ 31 ∧ p.AnnouncedFits ∧
    ∀ id ∈ p.streams.keys, id < 2 ^ 31

section Bounded

variable {p q : ProtocolState} {s : Stream} {id : StreamId} {code : ErrorCode}

theorem Bounded.of_keys (hp : p.Bounded) {t : StreamTable} (h : ∀ id ∈ t.keys, id ∈ p.streams.keys) :
    Bounded { p with streams := t } :=
  ⟨hp.1, hp.2.1, hp.2.2.1, fun id hid => hp.2.2.2 id (h id hid)⟩

theorem Bounded.putStream (hp : p.Bounded) (s : Stream) : (p.putStream s).Bounded :=
  hp.of_keys fun _ hid => (KeyedTable.keys_set p.streams s) ▸ hid

theorem Bounded.erase (hp : p.Bounded) (id : StreamId) :
    Bounded { p with streams := p.streams.erase id } :=
  hp.of_keys fun _ hid => noNewStreams_erase p.streams id _ hid

theorem Bounded.streamId_lt (hp : p.Bounded) (h : p.streams.find? id = some s) :
    s.streamId < 2 ^ 31 :=
  hp.2.2.2 _ (mem_keys_of_find? h)

/-- A computation that leads to a bounded state and writes well-formed frames only. -/
def Writes (x : Step) : Prop :=
  Machine.Ensures (fun _ => False) (fun y => y.1.Bounded ∧ Framed y.2.outbound) x

theorem Writes.ok {r : ProtocolStepResult} (hq : q.Bounded) (hr : Framed r.outbound) :
    Writes (.ok (q, r)) := ⟨hq, hr⟩

theorem Writes.bind {α : Type} {x : Guarded α} {f : α → Step} (h : ∀ a, Writes (f a)) :
    Writes (x >>= f) := by
  cases x with
  | error e => exact id
  | ok a => exact h a

theorem Writes.bindStep {x : Step} {f : ProtocolState × ProtocolStepResult → Step} (hx : Writes x)
    (h : ∀ q r, q.Bounded → Framed r.outbound → Writes (f (q, r))) : Writes (x >>= f) :=
  Machine.ensures_bind.2 (Machine.Ensures.mono hx fun y hy => h y.1 y.2 hy.1 hy.2)

/-! ## Failures -/

theorem writes_failStream (hp : p.Bounded) (id : StreamId) {rst : Bool}
    (hcode : rst = true → code.Fits) : Writes (.ok (p.failStream id code rst)) := by
  unfold failStream
  split
  · exact .ok hp .nil
  · rename_i s hfind
    have hid : id < 2 ^ 31 := KeyedTable.key_of_find? hfind ▸ hp.streamId_lt hfind
    refine .ok (hp.erase id) ?_
    dsimp only
    split
    · rename_i hrst
      simp only [Bool.and_eq_true] at hrst
      exact .single rfl (wellFormed_rstStream hid (hcode hrst.1.1))
    · exact .nil

theorem writes_failStreams (code : ErrorCode) (ids : List StreamId) :
    ∀ {p : ProtocolState} {r : ProtocolStepResult}, p.Bounded → Framed r.outbound →
      Writes (.ok (failStreams code ids p r)) := by
  induction ids with
  | nil => exact fun hp hr => .ok hp hr
  | cons id ids ih =>
    intro p r hp hr
    have hfailed : Writes (.ok (p.failStream id code false)) :=
      writes_failStream hp id fun h => by cases h
    obtain ⟨hq, hout⟩ := hfailed
    exact ih hq (hr.append hout)

/-- The debug text fits into a GOAWAY frame. -/
def FitsGoAway (text : String) : Prop := (ascii text).length + 8 < 2 ^ 24

instance decidableFitsGoAway (text : String) : Decidable (FitsGoAway text) :=
  inferInstanceAs (Decidable (_ < _))

theorem writes_failConnection (hp : p.Bounded) (hcode : code.Fits) {text : String}
    (htext : FitsGoAway text) : Writes (.ok (p.failConnection code text)) := by
  have hframe : Framed (if !p.sentGoaway && !p.transportClosed then
      ({ outbound := [.goAway (buildGoAwayFrame p code (ascii text))]
         events := [.goAwaySent p.lastPeerStreamId code (ascii text)] } : ProtocolStepResult)
      else {}).outbound := by
    split
    · exact .single rfl (wellFormed_goAway hp.2.1 hcode htext)
    · exact .nil
  obtain ⟨hq, hout⟩ := writes_failStreams code p.streams.keys (p := { p with
    sentGoaway := p.sentGoaway || !p.transportClosed
    connectionErrorCode := code
    connectionDebugData := ascii text
    closed := true
    expectingContinuation := false
    continuationStreamId := 0
    ghostHeaderBlock := [] }) hp hframe
  exact .ok hq (hout.append .nil)

end Bounded

/-! ## Emission -/

section Emission

variable {p : ProtocolState} {maxFrameSize : Nat} {id : StreamId}

theorem wellFormed_bodyFrame {s : Stream} {c : Nat} (hc : c ≤ s.remainingBodySize)
    (hlt : c < 2 ^ 24) (hid : s.streamId < 2 ^ 31) : (TypedFrame.data (bodyFrame s c)).WellFormed := by
  have hlen := bodyFrame_length hc
  refine TypedFrame.wellFormed_data ?_ ?_ rfl rfl ?_ (hlen.trans_lt hlt)
    ((bodyFrame_streamId s c).trans_lt hid)
  · unfold bodyFrame
    dsimp only
    split <;> rfl
  · refine (FrameHeader.not_padded ?_).1
    unfold bodyFrame
    dsimp only
    split
    · have hflag : (0 : UInt8) ||| FrameFlag.endStream.toByte = 1 := by decide
      exact Or.inr (Or.inl hflag)
    · exact Or.inl rfl
  · rw [hlen]
    unfold bodyFrame
    dsimp only
    split <;> rfl

theorem framed_emitBodyLoop (hmax : maxFrameSize < 2 ^ 24) (fuel : Nat) :
    ∀ (s : Stream) (conn : OutFlow), s.streamId < 2 ^ 31 → ∀ y,
      emitBodyLoop maxFrameSize fuel s conn = .ok y → Framed y.2.2 := by
  induction fuel with
  | zero =>
    intro s conn _ y h
    cases h
    exact .nil
  | succ fuel ih =>
    intro s conn hid y h
    generalize hc : min (min maxFrameSize s.remainingBodySize)
      (max 0 (s.outflow.available conn)).toNat = c
    by_cases hstop : s.remainingBodySize = 0 ∨ c = 0
    · -- nothing is left, or a window is used up
      have hdone : emitBodyLoop maxFrameSize (fuel + 1) s conn = .ok (s, conn, []) := by
        rw [emitBodyLoop]
        rcases hstop with hrem | hzero
        · rw [if_pos hrem]
          rfl
        · by_cases hrem : s.remainingBodySize = 0
          · rw [if_pos hrem]
            rfl
          · rw [if_neg hrem]
            dsimp only
            rw [hc, if_pos hzero]
            rfl
      rw [hdone] at h
      cases h
      exact .nil
    · -- one frame of `c` bytes, and the rest of the loop
      rw [emitBodyLoop_succ hc fun h => hstop (Or.inr h)] at h
      cases hrest : emitBodyLoop maxFrameSize fuel (s.advanceBody c) ⟨conn.window - c⟩ with
      | error e =>
        rw [hrest] at h
        cases h
      | ok z =>
        rw [hrest] at h
        cases h
        have hframe := wellFormed_bodyFrame (s := s) (c := c) (by omega) (by omega) hid
        exact framed_cons.2 ⟨OutboundBuffer.wellFormed_of_frame rfl hframe,
          ih (s.advanceBody c) _ hid z hrest⟩

theorem writes_emitPendingRequestBody (hp : p.Bounded) {s : Stream} (hid : s.streamId < 2 ^ 31) :
    Writes (p.emitPendingRequestBody s) := by
  unfold emitPendingRequestBody
  split
  · exact .ok hp .nil
  · cases hloop : emitBodyLoop p.maxFrameSize s.remainingBodySize s p.connectionOutFlow with
    | error e => exact fun h => h
    | ok y =>
      have hframes := framed_emitBodyLoop hp.1 _ s _ hid y hloop
      have hq : Bounded { p with connectionOutFlow := y.2.1 } := hp
      rw [ok_bind]
      dsimp only
      split
      · split
        · exact .ok (hq.erase _) hframes
        · exact .ok (hq.putStream _) hframes
      · exact .ok (hq.putStream _) hframes

theorem writes_emitPendingBodies (ids : List StreamId) :
    ∀ {p : ProtocolState}, p.Bounded → Writes (emitPendingBodies ids p) := by
  induction ids with
  | nil => exact fun hp => .ok hp .nil
  | cons id ids ih =>
    intro p hp
    rw [emitPendingBodies]
    split
    · exact ih hp
    · rename_i s hfind
      refine .bindStep (writes_emitPendingRequestBody hp (hp.streamId_lt hfind)) fun q r hq hr => ?_
      exact .bindStep (ih hq) fun q' r' hq' hr' => .ok hq' (hr.append hr')

theorem framed_emitContinuations (hmax : maxFrameSize < 2 ^ 24) (hid : id < 2 ^ 31) (fuel : Nat) :
    ∀ span : Bytes, Framed (emitContinuations maxFrameSize id fuel span) := by
  induction fuel with
  | zero => exact fun _ => .nil
  | succ fuel ih =>
    intro span
    rw [emitContinuations]
    split
    · exact .nil
    · refine framed_cons.2 ⟨OutboundBuffer.wellFormed_of_frame rfl ?_, ih _⟩
      have hlen : (span.take (min maxFrameSize span.length)).length =
          min maxFrameSize span.length := by
        rw [List.length_take]
        omega
      refine TypedFrame.wellFormed_continuation ?_ ?_ ?_ ?_
      · dsimp only
        split <;> rfl
      · dsimp only
        rw [hlen]
        split <;> rfl
      · dsimp only
        omega
      · dsimp only
        split <;> exact hid

theorem wellFormed_headersFrame {chunk : Bytes} (hid : id < 2 ^ 31) (hlen : chunk.length < 2 ^ 24)
    (last endStream : Bool) :
    (TypedFrame.headers (headersFrame id chunk last endStream)).WellFormed := by
  have hflags := FrameHeader.not_padded (h := (headersFrame id chunk last endStream).header) (by
    rw [headersFrame_flags]
    revert last endStream
    decide)
  refine TypedFrame.wellFormed_headers ?_ hflags.1 hflags.2 rfl rfl ⟨rfl, rfl⟩
    (headersFrame_payloadLength id chunk last endStream) hlen
    ((headersFrame_streamId id chunk last endStream).trans_lt hid)
  unfold headersFrame
  cases last <;> cases endStream <;> rfl

theorem framed_emitRequestHeaders (hp : p.Bounded) {s : Stream} (hid : s.streamId < 2 ^ 31)
    (encoded : Bytes) : Framed (p.emitRequestHeaders s encoded).2 := by
  have hmax := hp.1
  generalize hc : min p.maxFrameSize encoded.length = c
  have hlength : (encoded.take c).length = c := by
    rw [List.length_take]
    omega
  -- the first `c` bytes of the block go into HEADERS, the rest into CONTINUATION frames
  have hout : (p.emitRequestHeaders s encoded).2 =
      .headers (headersFrame s.streamId (encoded.take c) (encoded.drop c = [])
          (encoded.drop c = [] && !s.hasBody)) ::
        emitContinuations p.maxFrameSize s.streamId (encoded.drop c).length (encoded.drop c) := by
    rw [emitRequestHeaders, hc]
    by_cases h : encoded.drop c = [] <;> cases hbody : s.hasBody <;>
      simp [headersFrame, hlength, h]
  rw [hout]
  exact framed_cons.2 ⟨OutboundBuffer.wellFormed_of_frame rfl
    (wellFormed_headersFrame hid (by omega) _ _), framed_emitContinuations hmax hid _ _⟩

end Emission

/-! ## Handlers -/

section Handlers

variable {p : ProtocolState}

theorem framed_refreshFrames {id : StreamId} {n : Int} (hid : id < 2 ^ 31) (hn : n ≤ int32Max) :
    Framed (refreshFrames id n) := by
  rcases refreshFrames_cases id n with h | h
  · rw [h]
    exact .nil
  · rw [h]
    refine .single rfl (wellFormed_windowUpdate hid ?_)
    unfold int32Max at hn
    omega

/-- The texts of the padding check fit into a GOAWAY frame. -/
theorem fits_validatePaddedPayload {f : RawFrame} {k : Nat} {code : ErrorCode} {text : String}
    (h : validatePaddedPayload f k = .ok (some (code, text))) : code.Fits ∧ FitsGoAway text := by
  have hfits : Machine.Ensures (fun _ => False)
      (fun o : Option (ErrorCode × String) => ∀ x, o = some x → x.1.Fits ∧ FitsGoAway x.2)
      (validatePaddedPayload f k) := by
    have hnone : ∀ x : ErrorCode × String, none = some x → x.1.Fits ∧ FitsGoAway x.2 :=
      fun _ hx => by cases hx
    have hsome : ∀ {y : ErrorCode × String}, y.1.Fits ∧ FitsGoAway y.2 →
        ∀ x, some y = some x → x.1.Fits ∧ FitsGoAway x.2 := by
      intro y hy x hx
      cases hx
      exact hy
    unfold validatePaddedPayload
    split
    · split
      · exact hsome (by decide)
      · exact hnone
    split
    · exact hsome (by decide)
    refine Machine.ensures_bind.2 ?_
    cases (ByteSpan.ofBytes f.data).get 0 with
    | error e => exact fun h => h
    | ok padLength =>
      refine Machine.ensures_ok.2 ?_
      split
      · exact hsome (by decide)
      · dsimp only
        split
        · exact hsome (by decide)
        · exact hnone
  rw [h] at hfits
  exact hfits _ rfl

theorem writes_processDataOnUnknownStream (hp : p.Bounded) (frame : DataFrame) :
    Writes (.ok (p.processDataOnUnknownStream frame)) := by
  unfold processDataOnUnknownStream
  dsimp only
  split
  · exact writes_failConnection hp (by decide) (by decide)
  split
  · exact writes_failConnection hp (by decide) (by decide)
  split
  · exact writes_failConnection hp (by decide) (by decide)
  · rename_i inflow hinflow
    split
    · exact writes_failConnection (p := { p with connectionInflow := inflow }) hp (by decide)
        (by decide)
    · exact .ok hp (framed_refreshFrames (by decide) (inflow.add_le _))

theorem writes_finalizeRemoteStream (hp : p.Bounded) (s : Stream) :
    Writes (p.finalizeRemoteStream s) := by
  unfold finalizeRemoteStream
  refine .bind fun mismatch => ?_
  split
  · exact writes_failStream (hp.putStream _) _ fun _ => by decide
  · dsimp only
    split
    · exact .ok ((hp.putStream _).erase _) .nil
    · exact .ok ((hp.putStream _).putStream _) .nil

theorem writes_storeData (hp : p.Bounded) {s : Stream} (hid : s.streamId < 2 ^ 31)
    (frame : DataFrame) : Writes (p.storeData s frame) := by
  unfold storeData
  dsimp only
  split
  · exact writes_failConnection (hp.putStream _) (by decide) (by decide)
  split
  · refine writes_failStream ?_ _ fun _ => by decide
    exact hp.putStream _
  have hconnection : (0 : StreamId) < 2 ^ 31 := by decide
  have hframed := (framed_refreshFrames hconnection
    (p.connectionInflow.add_le frame.header.payloadLength)).append
      (framed_refreshFrames hid (s.inflow.add_le frame.header.payloadLength))
  split
  · refine .bindStep (writes_finalizeRemoteStream ?_ _) fun q r hq hr => .ok hq (hframed.append hr)
    refine Bounded.putStream ?_ _
    exact hp.putStream _
  · refine .ok (Bounded.putStream ?_ _) hframed
    exact hp.putStream _

theorem writes_processDataFrame (hp : p.Bounded) (f : RawFrame) : Writes (p.processDataFrame f) := by
  unfold processDataFrame
  split
  · exact writes_failConnection hp (by decide) (by decide)
  cases hpad : validatePaddedPayload f 0 with
  | error e => exact fun h => h
  | ok checked =>
    rw [ok_bind]
    cases checked with
    | some failure =>
      obtain ⟨hcode, htext⟩ := fits_validatePaddedPayload hpad
      exact writes_failConnection hp hcode htext
    | none =>
      refine .bind fun dataFrame => ?_
      split
      · exact writes_processDataOnUnknownStream hp dataFrame
      rename_i s hfind
      have hid := hp.streamId_lt hfind
      -- the stream has ended, or its final headers are missing
      split
      · exact writes_failStream hp _ fun _ => by decide
      split
      · exact writes_failStream hp _ fun _ => by decide
      -- the windows take the frame, and then the body has to be expected
      split
      · exact writes_failConnection hp (by decide) (by decide)
      · dsimp only
        split <;>
        · refine .bind fun noBody => ?_
          split
          · refine writes_failStream ?_ _ fun _ => by decide
            exact hp.putStream _
          · refine writes_storeData ?_ ?_ _
            · exact hp.putStream _
            · exact hid

theorem writes_reportHeaders (hp : p.Bounded) (s : Stream) (endStream : Bool) :
    Writes (p.reportHeaders s endStream) := by
  unfold reportHeaders
  dsimp only
  split
  · exact .bindStep (writes_finalizeRemoteStream (hp.putStream _) s) fun q r hq hr => .ok hq hr
  · exact .ok (hp.putStream _) .nil

theorem ensures_hpackDecode (hp : p.Bounded) (id : StreamId) (block : Bytes) :
    Machine.Ensures (fun _ => False) (fun y => y.1.Bounded) (p.hpackDecode id block) := by
  unfold hpackDecode
  cases p.hpack.decode block with
  | error e => exact fun h => h
  | ok y => exact hp

/-- The computation after a header block has been decoded. -/
theorem Writes.bindDecode (hp : p.Bounded) {id : StreamId} {block : Bytes}
    {f : ProtocolState × Option (List HeaderField) → Step}
    (h : ∀ q fields, q.Bounded → Writes (f (q, fields))) : Writes (p.hpackDecode id block >>= f) :=
  Machine.ensures_bind.2 ((ensures_hpackDecode hp id block).mono fun y hy => h y.1 y.2 hy)

theorem ensures_decodeResponseHeaders (hp : p.Bounded) (s : Stream) (endStream : Bool) :
    Machine.Ensures (fun _ => False)
      (fun y => y.1.Bounded ∧ Framed y.2.1.outbound ∧ ∀ code, y.2.2 = some code → code.Fits)
      (p.decodeResponseHeaders s endStream) := by
  have hnone : ∀ code : ErrorCode, none = some code → code.Fits := fun _ h => by cases h
  have hsome : ∀ {code : ErrorCode}, code.Fits → ∀ code', some code = some code' → code'.Fits := by
    intro code hcode code' h
    cases h
    exact hcode
  unfold decodeResponseHeaders
  refine Machine.ensures_bind.2 ((ensures_hpackDecode hp _ _).mono fun y hy => ?_)
  obtain ⟨q, fields⟩ := y
  cases fields with
  | none => exact ⟨hy, .nil, hsome (by decide)⟩
  | some headers =>
    dsimp only
    split
    · exact ⟨hy, .nil, hsome (by decide)⟩
    cases hv : validateResponseHeaderBlock s.clearBlock headers endStream with
    | rejected code =>
      obtain rfl := validate_rejected hv
      exact ⟨hy.putStream _, .nil, hsome (by decide)⟩
    | informational cl => exact ⟨hy.putStream _, .nil, hnone⟩
    | accepted cl =>
      dsimp only
      split
      · exact Machine.ensures_bind.2 (Machine.Ensures.mono (writes_reportHeaders hy _ _)
          fun z hz => ⟨hz.1, hz.2, hnone⟩)
      split
      · exact ⟨hy.putStream _, .nil, hsome (by decide)⟩
      · exact Machine.ensures_bind.2 (Machine.Ensures.mono (writes_reportHeaders hy _ _)
          fun z hz => ⟨hz.1, hz.2, hnone⟩)

theorem writes_completeHeaderBlock (hp : p.Bounded) (s : Stream) (endStream : Bool) :
    Writes (p.completeHeaderBlock s endStream) := by
  unfold completeHeaderBlock
  refine Machine.ensures_bind.2 ((ensures_decodeResponseHeaders hp s endStream).mono
    fun y hy => ?_)
  obtain ⟨q, r, code⟩ := y
  obtain ⟨hq, hr, hcode⟩ := hy
  cases code with
  | none => exact ⟨hq, hr⟩
  | some code =>
    dsimp only [handleHeaderBlockError]
    split
    · exact writes_failConnection hq (hcode code rfl) (by decide)
    · exact writes_failStream hq _ fun _ => hcode code rfl

theorem writes_processGhostHeaders (hp : p.Bounded) (frame : HeadersFrame) :
    Writes (p.processGhostHeaders frame) := by
  unfold processGhostHeaders
  dsimp only
  split
  · exact writes_failConnection hp (by decide) (by decide)
  split
  · exact writes_failConnection hp (by decide) (by decide)
  split
  · refine .bindDecode hp fun q fields hq => ?_
    cases fields with
    | none => exact writes_failConnection hq (by decide) (by decide)
    | some headers => exact .ok hq .nil
  · refine .bind fun block => .ok ?_ .nil
    exact hp

theorem writes_processHeadersFrame (hp : p.Bounded) (f : RawFrame) :
    Writes (p.processHeadersFrame f) := by
  unfold processHeadersFrame
  split
  · exact writes_failConnection hp (by decide) (by decide)
  extract_lets priorityPrefix
  cases hpad : validatePaddedPayload f priorityPrefix with
  | error e => exact fun h => h
  | ok checked =>
    rw [ok_bind]
    cases checked with
    | some failure =>
      obtain ⟨hcode, htext⟩ := fits_validatePaddedPayload hpad
      exact writes_failConnection hp hcode htext
    | none =>
      refine .bind fun headersFrame => ?_
      split
      · exact writes_processGhostHeaders hp headersFrame
      split
      · exact writes_failStream hp _ fun _ => by decide
      · refine .bind fun block => ?_
        -- the block is too large, it goes on, or it is complete
        dsimp only
        split
        · exact writes_failConnection (hp.putStream _) (by decide) (by decide)
        split
        · refine .ok (Bounded.putStream ?_ _) .nil
          exact hp.putStream _
        · exact writes_completeHeaderBlock (hp.putStream _) _ _

theorem writes_processPriorityFrame (hp : p.Bounded) (f : RawFrame) :
    Writes (.ok (p.processPriorityFrame f)) := by
  unfold processPriorityFrame
  split
  · exact writes_failConnection hp (by decide) (by decide)
  split
  · exact .ok hp (.single rfl (wellFormed_rstStream f.streamId_lt (by decide)))
  · exact .ok hp .nil

theorem writes_processRstStreamFrame (hp : p.Bounded) (f : RawFrame) :
    Writes (p.processRstStreamFrame f) := by
  unfold processRstStreamFrame
  split
  · exact writes_failConnection hp (by decide) (by decide)
  split
  · exact writes_failConnection hp (by decide) (by decide)
  split
  · split
    · exact writes_failConnection hp (by decide) (by decide)
    · exact .ok hp .nil
  · refine .bind fun rst => ?_
    have hfailed :
        Writes (.ok (p.failStream f.header.streamId (ErrorCode.ofNat rst.errorCode) false)) :=
      writes_failStream hp f.header.streamId fun h => by cases h
    obtain ⟨hq, hr⟩ := hfailed
    exact .ok hq hr

theorem bounded_applyPeerSetting (hp : p.Bounded) (parameter : Http2SettingParameter) {value : Nat}
    (hvalue : value < 2 ^ 32) : (p.applyPeerSetting parameter value).1.Bounded := by
  obtain ⟨hmax, hlast, ⟨h1, h2, h3, h4, h5⟩, hids⟩ := hp
  cases parameter with
  | maxConcurrentStreams => exact ⟨hmax, hlast, ⟨hvalue, h2, h3, h4, h5⟩, hids⟩
  | headerTableSize => exact ⟨hmax, hlast, ⟨h1, h2, h3, h4, h5⟩, hids⟩
  | enablePush =>
    simp only [applyPeerSetting]
    split <;> exact ⟨hmax, hlast, ⟨h1, h2, h3, h4, h5⟩, hids⟩
  | maxFrameSize =>
    simp only [applyPeerSetting]
    split
    · exact ⟨hmax, hlast, ⟨h1, h2, h3, h4, h5⟩, hids⟩
    · rename_i hrange
      have hle : value ≤ 2 ^ 24 - 1 := not_lt.1 fun hlt => hrange (Or.inr hlt)
      exact ⟨Nat.lt_of_le_pred (by decide) hle, hlast, ⟨h1, h2, h3, h4, h5⟩, hids⟩
  | initialWindowSize =>
    simp only [applyPeerSetting]
    split
    · exact ⟨hmax, hlast, ⟨h1, h2, h3, h4, h5⟩, hids⟩
    · -- the windows change, the streams stay
      obtain ⟨t, ok, heq, hsame, -⟩ := adjustWindows_eq
        (wrapInt32 (wrapInt32 value - wrapInt32 p.initialWindowSize)) p.streams.keys
        { p with initialWindowSize := value } p.streams.nodup_keys
      simp only [heq]
      exact ⟨hmax, hlast, ⟨h1, h2, h3, hvalue, h5⟩, fun id hid => hids id (hsame.1 ▸ hid)⟩
  | maxHeaderListSize => exact ⟨hmax, hlast, ⟨h1, h2, h3, h4, hvalue⟩, hids⟩
  | other code => exact ⟨hmax, hlast, ⟨h1, h2, h3, h4, h5⟩, hids⟩

theorem fits_applyPeerSetting {parameter : Http2SettingParameter} {value : Nat} {q : ProtocolState}
    {code : ErrorCode} (h : p.applyPeerSetting parameter value = (q, some code)) : code.Fits := by
  have hcode : (p.applyPeerSetting parameter value).2 = some code := by rw [h]
  unfold applyPeerSetting at hcode
  cases parameter <;> dsimp only at hcode
  case enablePush =>
    split at hcode <;> cases hcode
    decide
  case maxFrameSize =>
    split at hcode <;> cases hcode
    decide
  case initialWindowSize =>
    split at hcode
    · cases hcode
      decide
    · split at hcode <;> cases hcode
      decide
  all_goals cases hcode

theorem bounded_applyPeerSettings (settings : List (Nat × Nat)) :
    ∀ {p : ProtocolState}, p.Bounded → (∀ setting ∈ settings, setting.2 < 2 ^ 32) →
      (applyPeerSettings settings p).1.Bounded ∧
        ∀ code, (applyPeerSettings settings p).2 = some code → code.Fits := by
  induction settings with
  | nil => exact fun hp _ => ⟨hp, fun _ h => by cases h⟩
  | cons setting settings ih =>
    intro p hp hvalues
    obtain ⟨id, value⟩ := setting
    obtain ⟨hvalue, hvalues⟩ := List.forall_mem_cons.1 hvalues
    have hq := bounded_applyPeerSetting hp (Http2SettingParameter.ofNat id) hvalue
    simp only [applyPeerSettings]
    split
    · rename_i q code heq
      rw [heq] at hq
      refine ⟨hq, fun code' h => ?_⟩
      cases h
      exact fits_applyPeerSetting heq
    · rename_i q heq
      rw [heq] at hq
      exact ih hq hvalues

theorem writes_processSettingFrame (hp : p.Bounded) (f : RawFrame) :
    Writes (p.processSettingFrame f) := by
  unfold processSettingFrame
  split
  · exact writes_failConnection hp (by decide) (by decide)
  split
  · exact writes_failConnection hp (by decide) (by decide)
  rename_i hsix
  split
  · split
    · exact writes_failConnection hp (by decide) (by decide)
    · exact .ok hp .nil
  have hread := SettingFrame.ofRaw_eq (not_not.1 hsix)
  rw [hread, ok_bind]
  have hlen := f.length_data
  have hfields := (TypedFrame.flatMap_settingsOf (f.header.payloadLength / 6) f.data (by omega)).2
  have hq : Bounded { p with gotPeerSettings := true } := hp
  obtain ⟨hbounded, hcode⟩ := bounded_applyPeerSettings
    (settingsOf (f.header.payloadLength / 6) f.data) hq fun setting h => (hfields setting h).2
  dsimp only
  split
  · rename_i q code heq
    rw [heq] at hbounded hcode
    exact writes_failConnection hbounded (hcode code rfl) (by decide)
  · rename_i q heq
    rw [heq] at hbounded
    refine .bindStep (writes_emitPendingBodies _ hbounded) fun q' r hq' hr => .ok hq' ?_
    -- the acknowledgement is empty
    have hnone : ∀ s ∈ ([] : List (Nat × Nat)), s.1 < 2 ^ 16 ∧ s.2 < 2 ^ 32 :=
      fun _ h => absurd h List.not_mem_nil
    exact hr.append (.single rfl (wellFormed_settings (by decide) hnone))

theorem writes_processPushPromiseFrame (hp : p.Bounded) (f : RawFrame) :
    Writes (p.processPushPromiseFrame f) := by
  unfold processPushPromiseFrame
  split
  · exact writes_failConnection hp (by decide) (by decide)
  cases hpad : validatePaddedPayload f 4 with
  | error e => exact fun h => h
  | ok checked =>
    rw [ok_bind]
    cases checked with
    | some failure =>
      obtain ⟨hcode, htext⟩ := fits_validatePaddedPayload hpad
      exact writes_failConnection hp hcode htext
    | none =>
      refine .bind fun push => ?_
      split
      · exact writes_failConnection hp (by decide) (by decide)
      split
      · exact writes_failConnection hp (by decide) (by decide)
      · dsimp only
        split
        · have hfailed : Writes (.ok (p.failConnection .protocolError "server push disabled")) :=
            writes_failConnection hp (by decide) (by decide)
          obtain ⟨hq, hr⟩ := hfailed
          exact .ok hq hr
        · exact .ok hp .nil

theorem writes_processPingFrame (hp : p.Bounded) (f : RawFrame) :
    Writes (.ok (p.processPingFrame f)) := by
  unfold processPingFrame
  split
  · exact writes_failConnection hp (by decide) (by decide)
  split
  · exact writes_failConnection hp (by decide) (by decide)
  rename_i hlen
  dsimp only
  split
  · exact .ok hp .nil
  · have hdata : f.data.length = 8 := f.length_data.trans (not_not.1 hlen)
    exact .ok hp (.single rfl (TypedFrame.wellFormed_ping rfl hdata.symm
      (hdata.trans_lt (by decide)) (Nat.two_pow_pos 31)))

theorem writes_processGoAwayFrame (hp : p.Bounded) (f : RawFrame) :
    Writes (p.processGoAwayFrame f) := by
  unfold processGoAwayFrame
  split
  · exact writes_failConnection hp (by decide) (by decide)
  split
  · exact writes_failConnection hp (by decide) (by decide)
  · refine .bind fun goaway => ?_
    exact writes_failStreams _ _ (p := { p with receivedGoaway := true }) hp .nil

theorem writes_processWindowUpdateFrame (hp : p.Bounded) (f : RawFrame) :
    Writes (p.processWindowUpdateFrame f) := by
  unfold processWindowUpdateFrame
  split
  · exact writes_failConnection hp (by decide) (by decide)
  refine .bind fun window => ?_
  dsimp only
  -- an increment of zero
  split
  · split
    · exact writes_failConnection hp (by decide) (by decide)
    · exact writes_failStream hp _ fun _ => by decide
  -- the window of the connection lets all bodies go on
  split
  · split
    · exact writes_failConnection hp (by decide) (by decide)
    · refine .bindStep (writes_emitPendingBodies _ ?_) fun q r hq hr => .ok hq hr
      exact hp
  -- a stream that is not in the table, or the window of one that is
  split
  · split
    · exact writes_failConnection hp (by decide) (by decide)
    · exact .ok hp .nil
  · rename_i s hfind
    have hid := hp.streamId_lt hfind
    split
    · exact writes_failStream hp _ fun _ => by decide
    · refine .bindStep (writes_emitPendingRequestBody (hp.putStream _) ?_) fun q r hq hr => .ok hq hr
      exact hid

theorem writes_processGhostContinuation (hp : p.Bounded) (frame : ContinuationFrame) :
    Writes (p.processGhostContinuation frame) := by
  unfold processGhostContinuation
  refine .bind fun block => ?_
  split
  · exact writes_failConnection (p := { p with ghostHeaderBlock := [] }) hp (by decide) (by decide)
  split
  · refine .ok ?_ .nil
    exact hp
  · refine .bindDecode ?_ fun q fields hq => ?_
    · exact hp
    cases fields with
    | none =>
      exact writes_failConnection (p := { q with ghostHeaderBlock := [] }) hq (by decide)
        (by decide)
    | some headers => exact ⟨hq, .nil⟩

theorem writes_processContinuationFrame (hp : p.Bounded) (f : RawFrame) :
    Writes (p.processContinuationFrame f) := by
  unfold processContinuationFrame
  split
  · exact writes_failConnection hp (by decide) (by decide)
  split
  · exact writes_failConnection hp (by decide) (by decide)
  dsimp only
  -- the stream may have been erased while its block was open
  split
  · exact writes_processGhostContinuation hp _
  · refine .bind fun block => ?_
    split
    · exact writes_failConnection (hp.putStream _) (by decide) (by decide)
    split
    · exact .ok (hp.putStream _) .nil
    · refine writes_completeHeaderBlock (Bounded.putStream ?_ _) _ _
      exact hp.putStream _

theorem writes_receiveFrame (hp : p.Bounded) (f : RawFrame) : Writes (p.receiveFrame f) := by
  unfold receiveFrame
  -- SETTINGS come first, no frame is too large, and no frame cuts a header block
  split
  · exact writes_failConnection hp (by decide) (by decide)
  split
  · exact writes_failConnection hp (by decide) (by decide)
  split
  · exact writes_failConnection hp (by decide) (by decide)
  split
  · exact writes_processDataFrame hp f
  · exact writes_processHeadersFrame hp f
  · exact writes_processPriorityFrame hp f
  · exact writes_processRstStreamFrame hp f
  · exact writes_processSettingFrame hp f
  · exact writes_processPushPromiseFrame hp f
  · exact writes_processPingFrame hp f
  · exact writes_processGoAwayFrame hp f
  · exact writes_processWindowUpdateFrame hp f
  · exact writes_processContinuationFrame hp f
  · exact .ok hp .nil

/-! ## Local operations -/

theorem wellFormed_localSettings (h : p.AnnouncedFits) :
    (TypedFrame.settings p.buildLocalSettingsFrame).WellFormed := by
  obtain ⟨h1, h2, h3, h4, h5⟩ := h
  have hpush : (if p.enablePush then 1 else 0) < 2 ^ 32 := by split <;> decide
  -- five parameters, and the sixth if the header list is limited
  refine wellFormed_settings ?_ ?_
  · by_cases hpos : p.maxHeaderListSize > 0
    · rw [if_pos hpos]
      show 6 * 6 < 2 ^ 24
      decide
    · rw [if_neg hpos]
      show 5 * 6 < 2 ^ 24
      decide
  · intro s hs
    rcases List.mem_append.1 hs with hs | hs
    · simp only [List.mem_cons, List.not_mem_nil, or_false] at hs
      rcases hs with rfl | rfl | rfl | rfl | rfl
      · exact ⟨show 3 < 2 ^ 16 by decide, h1⟩
      · exact ⟨show 1 < 2 ^ 16 by decide, h2⟩
      · exact ⟨show 2 < 2 ^ 16 by decide, hpush⟩
      · exact ⟨show 5 < 2 ^ 16 by decide, h3⟩
      · exact ⟨show 4 < 2 ^ 16 by decide, h4⟩
    · split at hs
      · rw [List.mem_singleton.1 hs]
        exact ⟨show 6 < 2 ^ 16 by decide, h5⟩
      · exact absurd hs List.not_mem_nil

theorem writes_start (hp : p.Bounded) : Writes (.ok p.start) := by
  unfold start
  split
  · exact .ok hp .nil
  · refine .ok ?_ (framed_cons.2 ⟨fun f h => (by cases h), .single rfl
      (wellFormed_localSettings hp.2.2.1)⟩)
    exact hp

theorem writes_openStream (hp : p.Bounded) (hlt : p.nextStreamId < 2 ^ 31) (request : Request)
    (rehash : Reorder Stream) : Writes (p.openStream request rehash) := by
  obtain ⟨hmax, hlast, hannounced, hids⟩ := hp
  have hopening : (p.opening request rehash).Bounded := by
    refine ⟨hmax, hlast, hannounced, fun id hid => ?_⟩
    rcases KeyedTable.mem_keys_insert.1 hid with rfl | hid
    · exact hlt
    · exact hids id hid
  have hstream := (p.opening request rehash).emitRequestHeaders_fst (p.newStream request)
    (p.hpack.encode (buildRequestHeaderFields request)).1
  have hid : ((p.opening request rehash).emitRequestHeaders (p.newStream request)
      (p.hpack.encode (buildRequestHeaderFields request)).1).1.streamId < 2 ^ 31 := by
    rw [hstream]
    exact hlt
  have hheaders := framed_emitRequestHeaders hopening (s := p.newStream request) hlt
    (p.hpack.encode (buildRequestHeaderFields request)).1
  unfold openStream
  exact .bindStep (writes_emitPendingRequestBody (hopening.putStream _) hid)
    fun q r hq hr => .ok hq (hheaders.append hr)

theorem writes_submitRequest (hp : p.Bounded) (request : Request) (rehash : Reorder Stream) :
    Writes (p.submitRequest request rehash) := by
  unfold submitRequest
  -- a refused request writes nothing
  split
  · exact .ok hp .nil
  split
  · exact .ok hp .nil
  split
  · exact .ok hp .nil
  by_cases hid : p.nextStreamId = 0 ∨ p.nextStreamId > 0x7fffffff - 1
  · rw [if_pos hid]
    exact .ok hp .nil
  · -- the guard on the next id is what keeps the id within 31 bits
    rw [if_neg hid]
    have hle : p.nextStreamId ≤ 0x7fffffff - 1 := not_lt.1 fun hlt => hid (Or.inr hlt)
    exact writes_openStream hp (hle.trans_lt (by decide)) request rehash

theorem writes_cancelStream (hp : p.Bounded) (id : StreamId) {code : ErrorCode}
    (hcode : code.Fits) : Writes (.ok (p.cancelStream id code)) := by
  unfold cancelStream
  split
  · exact .ok hp .nil
  · exact writes_failStream hp id fun _ => hcode

theorem writes_sendPing (hp : p.Bounded) : Writes (.ok p.sendPing) := by
  unfold sendPing
  split
  · exact .ok hp .nil
  · have hlen : (toBigEndian 8 (p.pingCounter + 1)).length = 8 := length_toBigEndian _ _
    refine .ok ?_ (.single rfl (TypedFrame.wellFormed_ping rfl hlen.symm
      (hlen.trans_lt (by decide)) (Nat.two_pow_pos 31)))
    exact hp

theorem writes_close (hp : p.Bounded) : Writes (.ok p.close) := by
  unfold close
  split
  · exact .ok hp .nil
  · have hframe : Framed (if !p.sentGoaway then
        ({ outbound := [.goAway (buildGoAwayFrame p .noError [])]
           events := [.goAwaySent p.lastPeerStreamId .noError []] } : ProtocolStepResult)
        else {}).outbound := by
      split
      · exact .single rfl (wellFormed_goAway hp.2.1 (by decide) (by decide))
      · exact .nil
    obtain ⟨hq, hr⟩ := writes_failStreams .cancel p.streams.keys
      (p := { p with sentGoaway := true }) hp hframe
    refine .ok ?_ (hr.append .nil)
    exact hq

theorem writes_onTransportClosed (hp : p.Bounded) : Writes (.ok p.onTransportClosed) := by
  unfold onTransportClosed
  dsimp only
  split
  · obtain ⟨hq, hr⟩ := writes_failStreams .cancel p.streams.keys
      (p := { p with transportClosed := true }) (r := {}) hp .nil
    refine .ok ?_ (hr.append .nil)
    exact hq
  · exact .ok hp .nil

theorem writes_act (hp : p.Bounded) {a : Action}
    (ha : ∀ id code, a = .cancelStream id code → code.Fits) : Writes (p.act a) := by
  cases a with
  | start => exact writes_start hp
  | submitRequest request rehash => exact writes_submitRequest hp request rehash
  | receiveFrame f =>
    unfold act
    dsimp only
    split
    · exact .ok hp .nil
    · exact writes_receiveFrame hp f
  | cancelStream id code => exact writes_cancelStream hp id (ha id code rfl)
  | sendPing => exact writes_sendPing hp
  | close => exact writes_close hp
  | onTransportClosed => exact writes_onTransportClosed hp

end Handlers

end ProtocolState

/-! ## Runs -/

/-- The members of a configuration hold values of 32 bits. -/
def ClientConfig.Fits (config : ClientConfig) : Prop :=
  config.maxConcurrentStreams < 2 ^ 32 ∧ config.headerTableSize < 2 ^ 32 ∧
    config.maxFrameSize < 2 ^ 32 ∧ config.initialWindowSize < 2 ^ 32 ∧
    config.maxHeaderListSize < 2 ^ 32

instance ClientConfig.decidableFits (config : ClientConfig) : Decidable config.Fits :=
  inferInstanceAs (Decidable (_ ∧ _))

/-- The streams that are cancelled along a trace are cancelled with 32-bit codes. -/
def CancelsFit (tr : List Entry) : Prop :=
  ∀ e ∈ tr, ∀ id code, e.input = .cancelStream id code → code.Fits

open ProtocolState

theorem bounded_ofConfig {config : ClientConfig} (h : config.Fits) : (ofConfig config).Bounded :=
  ⟨show 16384 < 2 ^ 24 by decide, show 0 < 2 ^ 31 by decide, h,
    fun id hid => absurd hid List.not_mem_nil⟩

section Runs

variable {config : ClientConfig} {tr : List Entry} {p : ProtocolState}

/-- The numbers stay bounded and all frames are well formed, in every run. -/
theorem framed_of_runs (hconfig : config.Fits) (h : Runs (ofConfig config) tr p)
    (hcodes : CancelsFit tr) : p.Bounded ∧ Framed (outboundOf tr) := by
  refine h.invariant_of (I := fun tr p => p.Bounded ∧ Framed (outboundOf tr))
    ⟨bounded_ofConfig hconfig, .nil⟩ ?_ hcodes
  intro tr p a p' r _ ih hcode hact
  have hwrites := writes_act ih.1 hcode
  rw [hact] at hwrites
  rw [outboundOf_append, outboundOf_cons, outboundOf_nil, List.append_nil]
  exact ⟨hwrites.1, ih.2.append hwrites.2⟩

/-- In every run, every buffer is the preface or the bytes of a frame. Whatever follows it in the
stream, the frame codec cuts this frame from the front, and the constructor of its type reads all
its fields back. -/
theorem written_reads_back (hconfig : config.Fits) (h : Runs (ofConfig config) tr p)
    (hcodes : CancelsFit tr) {b : OutboundBuffer} (hb : b ∈ outboundOf tr) :
    b = .preface ∨ b.ReadsBack := by
  have hwell := (framed_of_runs hconfig h hcodes).2 b hb
  cases hframe : b.frame with
  | none =>
    cases b with
    | preface => exact Or.inl rfl
    | _ => cases hframe
  | some f => exact Or.inr (readsBack_of_frame hframe (hwell f hframe))

/-- The frames of a request with a body. -/
theorem written_reads_back_post : ∃ tr p b, Runs (ofConfig {}) tr p ∧ b ∈ outboundOf tr ∧
    b ≠ .preface ∧ b.ReadsBack := by
  have hrun : (Machine.run act (ofConfig {}) [.start, .submitRequest postRequest (.id _)]).map
      (fun x => (outboundOf x.2).any fun b => b.frame.isSome && b.toBytes.length = 19) =
      .ok true := by decide +kernel
  obtain ⟨p, tr, hr, hin, hresult⟩ := Machine.exists_runs_of_map hrun
  have hcodes : CancelsFit tr := by
    intro e he id code hcancel
    have hmem := List.mem_map_of_mem (f := Machine.Entry.input) he
    rw [hin, hcancel] at hmem
    simp at hmem
  obtain ⟨b, hb, hframe⟩ := List.any_eq_true.1 hresult
  have hne : b ≠ .preface := by
    rintro rfl
    cases hframe
  exact ⟨tr, p, b, hr, hb, hne, (written_reads_back (by decide) hr hcodes hb).resolve_left hne⟩

end Runs

end Chttp2
