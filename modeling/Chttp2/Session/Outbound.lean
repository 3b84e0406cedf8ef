import Chttp2.Session.Agreement

/-!
# The bytes on the wire

The outbound queue of a session is written in order: what the transport has accepted, followed by
what the queue still holds, is the concatenation of all buffers that the session has enqueued
(`sent_append_unsent`). An operation appends to the queue the buffers that it gets from the protocol
(`outbound_apply`), and the loop of `onWritable` moves bytes from the front of the queue to the
transport (`sentBy_append_unsent`).

`writeLoop` takes the answers of the transport as a list. `writeRounds` is the loop over a transport
that is asked in every round, and it ends if a successful write accepts at least one byte and no more
than it was offered (`writeRounds_eq`).
-/

set_option autoImplicit false

namespace Chttp2

/-- The bytes of a chunk that have not been written. -/
def OutboundChunk.unsent (chunk : OutboundChunk) : Bytes := chunk.data.drop chunk.offset

namespace Http2Session

/-! ## Writing -/

/-- The bytes that are left in a queue. -/
def unsent (chunks : List OutboundChunk) : Bytes := chunks.flatMap OutboundChunk.unsent

/-- The bytes of a chunk that the transport accepts in the rounds of `writeChunk`. -/
def sentOfChunk (chunk : OutboundChunk) : List WriteResult → Bytes
  | [] => []
  | write :: writes =>
    if chunk.offset ≥ chunk.data.length then []
    else
      match write with
      | .ok bytes =>
        chunk.unsent.take bytes ++ sentOfChunk { chunk with offset := chunk.offset + bytes } writes
      | .wouldBlock | .closed | .err => []

/-- The bytes of a queue that the transport accepts in `writeLoop`. -/
def sentBy : List OutboundChunk → List WriteResult → Bytes
  | [], _ => []
  | chunk :: chunks, writes =>
    sentOfChunk chunk writes ++
      match writeChunk chunk writes with
      | .written writes => sentBy chunks writes
      | .blocked _ | .failed => []

section Writing

variable {chunk chunk' : OutboundChunk} {chunks chunks' : List OutboundChunk}
  {writes writes' : List WriteResult}

@[simp] theorem unsent_cons : unsent (chunk :: chunks) = chunk.unsent ++ unsent chunks := by
  simp [unsent]

@[simp] theorem unsent_append : unsent (chunks ++ chunks') = unsent chunks ++ unsent chunks' := by
  simp [unsent]

theorem unsent_eq_nil (h : chunk.offset ≥ chunk.data.length) : chunk.unsent = [] :=
  List.drop_eq_nil_of_le h

theorem writeChunk_of_done (h : chunk.offset ≥ chunk.data.length) :
    writeChunk chunk writes = .written writes := by
  cases writes with
  | nil => rw [writeChunk, if_pos h]
  | cons write writes => cases write <;> rw [writeChunk, if_pos h]

theorem sentOfChunk_of_done (h : chunk.offset ≥ chunk.data.length) :
    sentOfChunk chunk writes = [] := by
  cases writes with
  | nil => rfl
  | cons write writes => cases write <;> rw [sentOfChunk, if_pos h]

/-- What a write accepts and what is left after it are the chunk before it. -/
theorem take_append_unsent (chunk : OutboundChunk) (n : Nat) :
    chunk.unsent.take n ++ { chunk with offset := chunk.offset + n }.unsent = chunk.unsent := by
  have hdrop : { chunk with offset := chunk.offset + n }.unsent = chunk.unsent.drop n := by
    simp [OutboundChunk.unsent, List.drop_drop]
  rw [hdrop, List.take_append_drop]

/-- The rounds on one chunk send it, or a part of it and leave the rest. -/
theorem sentOfChunk_spec (writes : List WriteResult) : ∀ chunk : OutboundChunk,
    (∀ writes', writeChunk chunk writes = .written writes' →
      sentOfChunk chunk writes = chunk.unsent) ∧
    ∀ chunk', writeChunk chunk writes = .blocked chunk' →
      sentOfChunk chunk writes ++ chunk'.unsent = chunk.unsent := by
  induction writes with
  | nil =>
    intro chunk
    by_cases hdone : chunk.offset ≥ chunk.data.length
    · rw [writeChunk_of_done hdone, sentOfChunk_of_done hdone, unsent_eq_nil hdone]
      exact ⟨fun _ _ => rfl, fun _ h => ChunkOutcome.noConfusion h⟩
    · rw [writeChunk, if_neg hdone]
      refine ⟨fun _ h => ChunkOutcome.noConfusion h, fun _ h => ?_⟩
      cases h
      rfl
  | cons write writes ih =>
    intro chunk
    by_cases hdone : chunk.offset ≥ chunk.data.length
    · rw [writeChunk_of_done hdone, sentOfChunk_of_done hdone, unsent_eq_nil hdone]
      exact ⟨fun _ _ => rfl, fun _ h => ChunkOutcome.noConfusion h⟩
    cases write with
    | ok n =>
      obtain ⟨hwritten, hblocked⟩ := ih { chunk with offset := chunk.offset + n }
      rw [writeChunk, sentOfChunk, if_neg hdone, if_neg hdone]
      refine ⟨fun writes' h => ?_, fun chunk' h => ?_⟩
      · rw [hwritten writes' h, take_append_unsent]
      · rw [List.append_assoc, hblocked chunk' h, take_append_unsent]
    | wouldBlock =>
      rw [writeChunk, sentOfChunk, if_neg hdone, if_neg hdone]
      refine ⟨fun _ h => ChunkOutcome.noConfusion h, fun _ h => ?_⟩
      cases h
      rfl
    | closed =>
      rw [writeChunk, if_neg hdone]
      exact ⟨fun _ h => ChunkOutcome.noConfusion h, fun _ h => ChunkOutcome.noConfusion h⟩
    | err =>
      rw [writeChunk, if_neg hdone]
      exact ⟨fun _ h => ChunkOutcome.noConfusion h, fun _ h => ChunkOutcome.noConfusion h⟩

/-- The loop takes nothing from the queue that the transport does not accept, and keeps the order. -/
theorem sentBy_append_unsent (chunks : List OutboundChunk) : ∀ {writes : List WriteResult},
    writeLoop chunks writes = some chunks' →
    sentBy chunks writes ++ unsent chunks' = unsent chunks := by
  induction chunks with
  | nil =>
    intro writes h
    cases h
    rfl
  | cons chunk chunks ih =>
    intro writes h
    obtain ⟨hwritten, hblocked⟩ := sentOfChunk_spec writes chunk
    rw [writeLoop] at h
    rw [sentBy]
    cases hchunk : writeChunk chunk writes with
    | written writes' =>
      rw [hchunk] at h
      dsimp only at h ⊢
      rw [hwritten writes' hchunk, List.append_assoc, ih h, unsent_cons]
    | blocked rest =>
      rw [hchunk] at h
      cases h
      dsimp only
      rw [List.append_nil, unsent_cons, unsent_cons, ← List.append_assoc, hblocked rest hchunk]
    | failed =>
      rw [hchunk] at h
      cases h

end Writing

/-! ## The loop over a transport -/

/-- A transport answers its calls of `writeSome`, which are numbered, by the bytes they offer. -/
abbrev Transport := Nat → Bytes → WriteResult

/-- A successful write of a range that is not empty accepts a part of it that is not empty. -/
def Transport.Progresses (t : Transport) : Prop :=
  ∀ i range n, range ≠ [] → t i range = .ok n → 1 ≤ n ∧ n ≤ range.length

/-- What the loop of `onWritable` leaves of the queue, `none` if the transport has failed, and the
answers it has got. -/
structure WriteEnd where
  left : Option (List OutboundChunk)
  answers : List WriteResult

/-- The loop with the answer of one more write in front. -/
def WriteEnd.after (write : WriteResult) (e : WriteEnd) : WriteEnd :=
  { e with answers := write :: e.answers }

/-- At most `fuel` rounds of the loop of `onWritable`, of which the next write is call `i`; `none` if
they do not suffice. -/
def writeRounds (t : Transport) : Nat → Nat → List OutboundChunk → Option WriteEnd
  | 0, _, _ => none
  | _ + 1, _, [] => some ⟨some [], []⟩
  | fuel + 1, i, chunk :: chunks =>
    if chunk.offset ≥ chunk.data.length then writeRounds t fuel i chunks
    else
      match t i (chunk.data.drop chunk.offset) with
      | .wouldBlock => some ⟨some (chunk :: chunks), [.wouldBlock]⟩
      | .closed => some ⟨none, [.closed]⟩
      | .err => some ⟨none, [.err]⟩
      | .ok bytes =>
        let chunk := { chunk with offset := chunk.offset + bytes }
        (if chunk.offset ≥ chunk.data.length then writeRounds t fuel (i + 1) chunks
          else writeRounds t fuel (i + 1) (chunk :: chunks)).map (.after (.ok bytes))

section Rounds

variable {chunk : OutboundChunk} {chunks : List OutboundChunk} {writes : List WriteResult}

/-- A chunk that has been written is dropped. -/
theorem writeLoop_of_done (h : chunk.offset ≥ chunk.data.length) :
    writeLoop (chunk :: chunks) writes = writeLoop chunks writes := by
  rw [writeLoop, writeChunk_of_done h]

/-- A successful write advances the chunk at the front. -/
theorem writeLoop_ok (h : ¬ chunk.offset ≥ chunk.data.length) (n : Nat) :
    writeLoop (chunk :: chunks) (.ok n :: writes) =
      writeLoop ({ chunk with offset := chunk.offset + n } :: chunks) writes := by
  rw [writeLoop, writeLoop, writeChunk, if_neg h]

/-- With a transport that makes progress the loop ends after at most one round for each byte and each
chunk, and `writeLoop` describes its result by the answers of the transport. -/
theorem writeRounds_eq {t : Transport} (ht : t.Progresses) (fuel : Nat) :
    ∀ (i : Nat) (chunks : List OutboundChunk), (unsent chunks).length + chunks.length < fuel →
      ∃ e, writeRounds t fuel i chunks = some e ∧ writeLoop chunks e.answers = e.left := by
  induction fuel with
  | zero => exact fun _ _ h => absurd h (Nat.not_lt_zero _)
  | succ fuel ih =>
    intro i chunks hfuel
    cases chunks with
    | nil => exact ⟨⟨some [], []⟩, rfl, rfl⟩
    | cons chunk chunks =>
      rw [unsent_cons, List.length_append, List.length_cons] at hfuel
      rw [writeRounds]
      by_cases hdone : chunk.offset ≥ chunk.data.length
      · obtain ⟨e, heq, hloop⟩ := ih i chunks (by omega)
        rw [if_pos hdone]
        exact ⟨e, heq, (writeLoop_of_done hdone).trans hloop⟩
      rw [if_neg hdone]
      -- the transport is asked only for bytes that are there, so it makes progress
      have hne : chunk.unsent ≠ [] := fun h => hdone (List.drop_eq_nil_iff.1 h)
      have hanswer : t i (chunk.data.drop chunk.offset) = t i chunk.unsent := rfl
      cases hwrite : t i chunk.unsent with
      | wouldBlock =>
        rw [hanswer, hwrite]
        exact ⟨_, rfl, by rw [writeLoop, writeChunk, if_neg hdone]⟩
      | closed =>
        rw [hanswer, hwrite]
        exact ⟨_, rfl, by rw [writeLoop, writeChunk, if_neg hdone]⟩
      | err =>
        rw [hanswer, hwrite]
        exact ⟨_, rfl, by rw [writeLoop, writeChunk, if_neg hdone]⟩
      | ok n =>
        rw [hanswer, hwrite]
        obtain ⟨hpos, hle⟩ := ht i _ n hne hwrite
        have hsplit := congrArg List.length (take_append_unsent chunk n)
        rw [List.length_append, List.length_take_of_le hle] at hsplit
        dsimp only
        by_cases hnow : chunk.offset + n ≥ chunk.data.length
        · obtain ⟨e, heq, hloop⟩ := ih (i + 1) chunks (by omega)
          rw [if_pos hnow, heq]
          refine ⟨_, rfl, ?_⟩
          rw [WriteEnd.after, writeLoop_ok hdone]
          exact (writeLoop_of_done hnow).trans hloop
        · -- the front chunk has become shorter by the accepted bytes
          obtain ⟨e, heq, hloop⟩ := ih (i + 1)
            ({ chunk with offset := chunk.offset + n } :: chunks)
            (by rw [unsent_cons, List.length_append, List.length_cons]; omega)
          rw [if_neg hnow, heq]
          refine ⟨_, rfl, ?_⟩
          rw [WriteEnd.after, writeLoop_ok hdone]
          exact hloop

end Rounds

/-! ## Enqueueing -/

/-- A buffer as `enqueueOutbound` puts it into the queue. -/
def enqueued (buf : OutboundBuffer) : OutboundChunk := { data := buf.toBytes }

/-- The buffers that a call of the protocol returns. -/
def buffersOf (call : Guarded (Http2Protocol × ProtocolStepResult)) : List OutboundBuffer :=
  match call with
  | .ok (_, r) => r.outbound
  | .error _ => []

/-- The buffers that the protocol returns for the chunks of a series of reads. -/
def receivedBuffers : List Bytes → Http2Protocol → List OutboundBuffer
  | [], _ => []
  | data :: chunks, protocol =>
    if data = [] then []
    else
      match protocol.apply (.receiveBytes data) with
      | .ok (protocol, r) => r.outbound ++ receivedBuffers chunks protocol
      | .error _ => []

variable {κ : Type}

/-- The buffers that an operation takes from the protocol and enqueues. -/
def enqueuedBy (s : Http2Session κ) : Op κ → List OutboundBuffer
  | .start ready => if s.started || !ready then [] else buffersOf (s.protocol.apply .start)
  | .submit request _ canceled finished rehash _ =>
    if !s.isHealthy then []
    else
      match s.protocol.apply (.submitRequest request rehash) with
      | .error _ => []
      | .ok (protocol, r) =>
        match r.submittedStreamId with
        | none => r.outbound
        | some streamId =>
          if streamId ≠ 0 && canceled && !finished then
            r.outbound ++ buffersOf (protocol.apply (.cancelStream streamId .cancel))
          else r.outbound
  | .cancelRequest streamId =>
    if streamId = 0 || !s.isHealthy then []
    else if s.streamContexts.find? streamId |>.isNone then []
    else buffersOf (s.protocol.apply (.cancelStream streamId .cancel))
  | .sendPing => if !s.isHealthy then [] else buffersOf (s.protocol.apply .sendPing)
  | .onReadable chunks _ => if !s.isHealthy then [] else receivedBuffers chunks s.protocol
  | .onWritable _ | .close => []

/-- The bytes that the transport accepts in an operation. -/
def acceptedBy (s : Http2Session κ) : Op κ → Bytes
  | .onWritable writes => if s.isHealthy then sentBy s.outbound writes else []
  | _ => []

/-- The operation closes the session, or it meets a failure of the transport. -/
def disconnects (s : Http2Session κ) : Op κ → Bool
  | .onReadable chunks last => s.isHealthy && decide (last ≠ .wouldBlock) && !chunks.contains []
  | .onWritable writes => s.isHealthy && (writeLoop s.outbound writes).isNone
  | .close => true
  | _ => false

section Enqueueing

variable {s s' : Http2Session κ} {events : List (SessionEvent κ)}

theorem unsent_map_enqueued (buffers : List OutboundBuffer) :
    unsent (buffers.map enqueued) = buffers.flatMap OutboundBuffer.toBytes := by
  rw [unsent, List.flatMap_map]
  rfl

theorem finishStream_outbound (s : Http2Session κ) (streamId : StreamId) (response : Response) :
    (s.finishStream streamId response).1.outbound = s.outbound := by
  rw [finishStream_fst]

theorem translateEvents_outbound (pes : List ProtocolEvent) :
    ∀ s : Http2Session κ, (s.translateEvents pes).1.outbound = s.outbound := by
  induction pes with
  | nil => exact fun _ => rfl
  | cons pe pes ih =>
    intro s
    refine (ih _).trans ?_
    cases pe with
    | responseCompleted streamId response => exact finishStream_outbound s streamId response
    | responseFailed streamId errorCode => exact finishStream_outbound s streamId _
    | _ => rfl

theorem absorb_outbound (s : Http2Session κ) (protocol : Http2Protocol) (r : ProtocolStepResult) :
    (s.absorb protocol r).1.outbound = s.outbound ++ r.outbound.map enqueued :=
  translateEvents_outbound _ _

theorem cancelStream_outbound {streamId : StreamId}
    (h : s.cancelStream streamId = .ok (s', events)) : s'.outbound = s.outbound ++
      (buffersOf (s.protocol.apply (.cancelStream streamId .cancel))).map enqueued := by
  obtain ⟨protocol, r, happly, rfl, -⟩ := cancelStream_cases h
  rw [finishStream_outbound, absorb_outbound, happly]
  rfl

theorem submit_outbound {request : Request} {context : κ} {canceled finished : Bool}
    {rehash : Reorder Stream} {rehashContexts : Reorder (StreamId × κ)}
    (h : s.submit request context canceled finished rehash rehashContexts = .ok (s', events)) :
    s'.outbound = s.outbound ++
      (s.enqueuedBy (.submit request context canceled finished rehash rehashContexts)).map
        enqueued := by
  unfold submit at h
  rw [enqueuedBy]
  split at h
  · rename_i hhealthy
    cases h
    rw [if_pos hhealthy, List.map_nil, List.append_nil]
  rename_i hhealthy
  rw [if_neg hhealthy]
  obtain ⟨⟨protocol, r⟩, happly, hrest⟩ := bind_eq_ok.1 h
  rw [happly]
  dsimp only at hrest ⊢
  cases hstream : r.submittedStreamId with
  | none =>
    rw [hstream] at hrest
    have hs : s' = (s.absorb protocol r).1 := congrArg Prod.fst (Except.ok.inj hrest).symm
    rw [hs, absorb_outbound]
  | some streamId =>
    rw [hstream] at hrest
    dsimp only at hrest ⊢
    split at hrest
    · rename_i hcancel
      obtain ⟨⟨s₁, more⟩, hcall, hrest⟩ := bind_eq_ok.1 hrest
      have hs : s' = s₁ := congrArg Prod.fst (Except.ok.inj hrest).symm
      rw [hs, cancelStream_outbound hcall, absorb_outbound, absorb_protocol, if_pos hcancel,
        List.map_append, List.append_assoc]
    · rename_i hcancel
      have hs := congrArg Prod.fst (Except.ok.inj hrest).symm
      dsimp only at hs
      rw [hs, absorb_outbound, if_neg hcancel]

/-- The loop of `onReadable` enqueues what the protocol returns, unless the transport fails. -/
theorem readLoop_outbound {last : ReadEnd} (chunks : List Bytes) :
    ∀ {s : Http2Session κ} {collected : List (SessionEvent κ)},
      (last = .wouldBlock ∨ [] ∈ chunks) →
      readLoop last chunks s collected = .ok (s', events) →
      s'.outbound = s.outbound ++ (receivedBuffers chunks s.protocol).map enqueued := by
  induction chunks with
  | nil =>
    intro s collected hend h
    obtain rfl : last = .wouldBlock := hend.resolve_right List.not_mem_nil
    cases h
    rw [receivedBuffers, List.map_nil, List.append_nil]
  | cons data chunks ih =>
    intro s collected hend h
    rw [readLoop] at h
    rw [receivedBuffers]
    split at h
    · rename_i hnil
      cases h
      rw [if_pos hnil, List.map_nil, List.append_nil]
    · rename_i hnil
      obtain ⟨⟨protocol, r⟩, happly, hrest⟩ := bind_eq_ok.1 h
      rw [if_neg hnil, happly]
      have hend' : last = .wouldBlock ∨ [] ∈ chunks :=
        hend.imp_right fun hmem => (List.mem_cons.1 hmem).resolve_left fun h => hnil h.symm
      refine (ih hend' hrest).trans ?_
      show (s.absorb protocol r).1.outbound ++
        (receivedBuffers chunks (s.absorb protocol r).1.protocol).map enqueued = _
      rw [absorb_outbound, absorb_protocol, List.append_assoc, ← List.map_append]

/-- What an operation makes of the queue: it enqueues the buffers of the protocol at the end, and what
the transport accepts leaves it at the front. -/
theorem outbound_apply {op : Op κ} (h : s.apply op = .ok (s', events))
    (hup : s.disconnects op = false) :
    s.acceptedBy op ++ unsent s'.outbound =
      unsent s.outbound ++ (s.enqueuedBy op).flatMap OutboundBuffer.toBytes := by
  have happends : s'.outbound = s.outbound ++ (s.enqueuedBy op).map enqueued →
      unsent s'.outbound =
        unsent s.outbound ++ (s.enqueuedBy op).flatMap OutboundBuffer.toBytes := by
    intro heq
    rw [heq, unsent_append, unsent_map_enqueued]
  cases op with
  | start ready =>
    refine happends ?_
    obtain ⟨⟨s₁, result⟩, hstart, hrest⟩ := bind_eq_ok.1 h
    have hs : s' = s₁ := congrArg Prod.fst (Except.ok.inj hrest).symm
    rw [hs, enqueuedBy]
    unfold start at hstart
    split at hstart
    · rename_i hstarted
      cases hstart
      rw [if_pos (by simp [hstarted]), List.map_nil, List.append_nil]
    rename_i hstarted
    split at hstart
    · rename_i hready
      cases hstart
      rw [if_pos (by simp [hready]), List.map_nil, List.append_nil]
    rename_i hready
    obtain ⟨⟨protocol, r⟩, happly, hrest⟩ := bind_eq_ok.1 hstart
    cases hrest
    rw [if_neg (by simp [hstarted, hready]), happly]
    rfl
  | submit => exact happends (submit_outbound h)
  | cancelRequest streamId =>
    refine happends ?_
    rw [apply, cancelRequest] at h
    rw [enqueuedBy]
    split at h
    · rename_i hguard
      cases h
      rw [if_pos hguard, List.map_nil, List.append_nil]
    rename_i hguard
    rw [if_neg hguard]
    split at h
    · rename_i hnone
      cases h
      rw [if_pos hnone, List.map_nil, List.append_nil]
    · rename_i hnone
      rw [if_neg hnone]
      exact cancelStream_outbound h
  | sendPing =>
    refine happends ?_
    rw [apply, sendPing] at h
    rw [enqueuedBy]
    split at h
    · rename_i hguard
      cases h
      rw [if_pos hguard, List.map_nil, List.append_nil]
    · rename_i hguard
      obtain ⟨⟨protocol, r⟩, happly, hrest⟩ := bind_eq_ok.1 h
      cases hrest
      rw [if_neg hguard, happly]
      rfl
  | onReadable chunks last =>
    refine happends ?_
    rw [apply, onReadable] at h
    rw [enqueuedBy]
    split at h
    · rename_i hguard
      cases h
      rw [if_pos hguard, List.map_nil, List.append_nil]
    · rename_i hguard
      rw [if_neg hguard]
      refine readLoop_outbound chunks ?_ h
      by_cases hlast : last = .wouldBlock
      · exact Or.inl hlast
      · simp only [Bool.not_eq_true', Bool.not_eq_false] at hguard
        simpa [disconnects, hguard, hlast] using hup
  | onWritable writes =>
    rw [enqueuedBy, List.flatMap_nil, List.append_nil, acceptedBy]
    obtain ⟨s₁, hwrite, hrest⟩ := bind_eq_ok.1 h
    have hs : s' = s₁ := congrArg Prod.fst (Except.ok.inj hrest).symm
    unfold onWritable at hwrite
    split at hwrite
    · rename_i hguard
      cases hwrite
      rw [if_neg (by simpa using hguard), hs, List.nil_append]
    · rename_i hguard
      have hhealthy : s.isHealthy = true := by simpa using hguard
      cases hloop : writeLoop s.outbound writes with
      | none => simp [disconnects, hhealthy, hloop] at hup
      | some outbound =>
        rw [hloop] at hwrite
        have hqueue : s₁.outbound = outbound :=
          congrArg Http2Session.outbound (Except.ok.inj hwrite).symm
        rw [if_pos hhealthy, hs, hqueue]
        exact sentBy_append_unsent _ hloop
  | close => cases hup

end Enqueueing

/-! ## Runs -/

/-- The bytes that the transport has accepted in the operations of a trace. -/
def accepted (tr : List (Entry κ)) : Bytes := tr.flatMap fun e => e.pre.acceptedBy e.input

/-- The bytes of all buffers that the operations of a trace have enqueued. -/
def allEnqueued (tr : List (Entry κ)) : Bytes :=
  tr.flatMap fun e => (e.pre.enqueuedBy e.input).flatMap OutboundBuffer.toBytes

/-- For every run of a session up to a failure of its transport or its close, the bytes that the
transport has accepted, followed by the rest of the queue, are the buffers enqueued so far. And every
loop of `onWritable` over a transport that makes progress ends. -/
theorem outbound_in_order {config : ClientConfig} {tr : List (Entry κ)} {s : Http2Session κ}
    (h : Machine.Runs apply (.ofConfig config) tr s)
    (hup : ∀ e ∈ tr, e.pre.disconnects e.input = false) :
    accepted tr ++ unsent s.outbound = allEnqueued tr ∧
      ∀ t : Transport, t.Progresses → ∀ (fuel i : Nat) (chunks : List OutboundChunk),
        (unsent chunks).length + chunks.length < fuel →
          ∃ e, writeRounds t fuel i chunks = some e ∧ writeLoop chunks e.answers = e.left := by
  refine ⟨?_, fun t ht fuel => writeRounds_eq ht fuel⟩
  refine Machine.Runs.invariant_of
    (I := fun tr s => accepted tr ++ unsent s.outbound = allEnqueued tr)
    (C := fun e => e.pre.disconnects e.input = false) rfl ?_ h hup
  intro tr s op s' events _ ih hup hop
  rw [accepted, allEnqueued, List.flatMap_append, List.flatMap_append, ← allEnqueued, ← accepted,
    ← ih, List.flatMap_singleton, List.flatMap_singleton, List.append_assoc, List.append_assoc,
    outbound_apply hop hup]

/-- The connection preface is written in two parts while a PING is enqueued behind it. -/
theorem outbound_in_order_of_partial_write :
    ∃ tr, ∃ s : Http2Session Nat, Machine.Runs apply (.ofConfig {}) tr s ∧
      accepted tr ≠ [] ∧ unsent s.outbound ≠ [] ∧
      accepted tr ++ unsent s.outbound = allEnqueued tr ∧
      ∀ t : Transport, t.Progresses → ∀ (fuel i : Nat) (chunks : List OutboundChunk),
        (unsent chunks).length + chunks.length < fuel →
          ∃ e, writeRounds t fuel i chunks = some e ∧ writeLoop chunks e.answers = e.left := by
  have hrun : (Machine.run apply (.ofConfig {} : Http2Session Nat) [.start true,
      .onWritable [.ok 10], .sendPing, .onWritable [.ok 14, .ok 3, .wouldBlock]]).map
        (fun x => (decide (accepted x.2 ≠ []), decide (unsent x.1.outbound ≠ []),
          x.2.all fun e => !e.pre.disconnects e.input)) = .ok (true, true, true) := by
    decide +kernel
  obtain ⟨s, tr, hr, -, hresult⟩ := Machine.exists_runs_of_map hrun
  simp only [Prod.mk.injEq, decide_eq_true_eq, List.all_eq_true, Bool.not_eq_true'] at hresult
  obtain ⟨haccepted, hleft, hup⟩ := hresult
  exact ⟨tr, s, hr, haccepted, hleft, outbound_in_order hr hup⟩

end Http2Session

end Chttp2
