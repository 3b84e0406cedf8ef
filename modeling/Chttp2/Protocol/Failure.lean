import Chttp2.Protocol.Api

/-!
# What failing a stream or the connection does

Closed forms of `failStream`, `failStreams` and `failConnection`. A failed stream leaves the table
with one STREAM_CLOSED and one RESPONSE_FAILED (`failStream_eq`); a list of streams leaves it in
order (`failStreams_eq`); a failed connection is closed and has no streams (`failConnection_eq`).
-/

set_option autoImplicit false

namespace Chttp2

namespace ProtocolStepResult

@[simp] theorem outbound_merge (dst src : ProtocolStepResult) :
    (dst.merge src).outbound = dst.outbound ++ src.outbound := rfl

@[simp] theorem events_merge (dst src : ProtocolStepResult) :
    (dst.merge src).events = dst.events ++ src.events := rfl

theorem merge_nil (r : ProtocolStepResult) : r.merge {} = r := by
  cases r
  simp [merge]

theorem nil_merge (r : ProtocolStepResult) : ProtocolStepResult.merge {} r = r := by
  cases r with
  | mk outbound events submitted => cases submitted <;> simp [merge]

theorem merge_assoc (a b c : ProtocolStepResult) : (a.merge b).merge c = a.merge (b.merge c) := by
  cases a with
  | mk ao ae as =>
    cases b with
    | mk bo be bs =>
      cases c with
      | mk co ce cs => cases bs <;> cases cs <;> simp [merge]

end ProtocolStepResult

/-! ## Lookup after a write -/

namespace ProtocolState

variable {p : ProtocolState} {s s' : Stream} {id : StreamId}

theorem mem_keys_of_find? (h : p.streams.find? id = some s) : s.streamId ∈ p.streams.keys := by
  rw [KeyedTable.key_of_find? h]
  exact KeyedTable.mem_keys_of_find? h

/-- Lookup after a record of the table has been written back. -/
theorem find?_putStream (h : s.streamId ∈ p.streams.keys) (k : StreamId) :
    (p.putStream s).streams.find? k = if k = s.streamId then some s else p.streams.find? k :=
  KeyedTable.find?_set h k

@[simp] theorem keys_putStream (p : ProtocolState) (s : Stream) :
    (p.putStream s).streams.keys = p.streams.keys :=
  KeyedTable.keys_set p.streams s

theorem putStream_putStream (p : ProtocolState) (h : s.streamId = s'.streamId) :
    (p.putStream s).putStream s' = p.putStream s' := by
  simp only [putStream, KeyedTable.set_set p.streams h]

/-! ## One stream -/

/-- The state without a stream. A header block that the peer has not finished yet moves to the
connection. -/
def removeStream (p : ProtocolState) (stream : Stream) : ProtocolState :=
  { p with
    ghostHeaderBlock :=
      if stream.waitingForContinuation && !stream.pendingHeaderBlock.isEmpty then
        stream.pendingHeaderBlock
      else p.ghostHeaderBlock
    streams := p.streams.erase stream.streamId }

/-- The events of a stream that fails. -/
def failureEvents (errorCode : ErrorCode) (streamId : StreamId) : List ProtocolEvent :=
  [.streamClosed streamId errorCode, .responseFailed streamId errorCode]

/-- The result of failing a stream that is in the table. -/
def streamFailure (p : ProtocolState) (streamId : StreamId) (errorCode : ErrorCode)
    (sendRst : Bool) : ProtocolStepResult where
  outbound :=
    if sendRst && !p.closed && !p.transportClosed then
      [.rstStream (buildRstStreamFrame streamId errorCode)]
    else []
  events := failureEvents errorCode streamId

theorem streamFailure_outbound (p : ProtocolState) (id : StreamId) (code : ErrorCode) (rst : Bool) :
    (p.streamFailure id code rst).outbound = [] ∨
      (p.streamFailure id code rst).outbound = [.rstStream (buildRstStreamFrame id code)] :=
  (ite_eq_or_eq _ _ _).symm

theorem failStream_eq (h : p.streams.find? id = some s) (code : ErrorCode) (rst : Bool) :
    p.failStream id code rst = (p.removeStream s, p.streamFailure id code rst) := by
  have hid : s.streamId = id := KeyedTable.key_of_find? h
  simp only [failStream, h, removeStream, hid]
  rfl

theorem failStream_of_none (h : p.streams.find? id = none) (code : ErrorCode) (rst : Bool) :
    p.failStream id code rst = (p, {}) := by
  simp only [failStream, h]

/-- A write to the record that is removed is forgotten. -/
theorem removeStream_putStream (p : ProtocolState) (s : Stream) :
    (p.putStream s).removeStream s = p.removeStream s := by
  simp only [removeStream, putStream, KeyedTable.erase_set]

/-- Failing the stream whose record has just been written. -/
theorem failStream_putStream (h : s.streamId ∈ p.streams.keys) (code : ErrorCode) (rst : Bool) :
    (p.putStream s).failStream s.streamId code rst =
      (p.removeStream s, p.streamFailure s.streamId code rst) := by
  have hfind : (p.putStream s).streams.find? s.streamId = some s := by
    rw [find?_putStream h, if_pos rfl]
  rw [failStream_eq hfind, removeStream_putStream]
  rfl

/-! ## Several streams -/

/-- Failing live streams one after the other. The orphaned header block changes only if one of the
streams was waiting for a CONTINUATION frame. -/
theorem failStreams_eq (code : ErrorCode) (ids : List StreamId) :
    ∀ (p : ProtocolState) (r : ProtocolStepResult), ids.Nodup → (∀ id ∈ ids, id ∈ p.streams.keys) →
      ∃ ghost,
        failStreams code ids p r =
          ({ p with streams := p.streams.eraseAll ids, ghostHeaderBlock := ghost },
            { r with events := r.events ++ ids.flatMap (failureEvents code) }) ∧
        ((∀ s ∈ p.streams.entries, s.waitingForContinuation = false) →
          ghost = p.ghostHeaderBlock) := by
  induction ids with
  | nil =>
    intro p r _ _
    refine ⟨p.ghostHeaderBlock, ?_, fun _ => rfl⟩
    simp [failStreams]
  | cons id ids ih =>
    intro p r hnd hlive
    obtain ⟨hnot, hnd⟩ := List.nodup_cons.1 hnd
    obtain ⟨s, hs⟩ := KeyedTable.mem_keys_iff_find?.1 (hlive id (by simp))
    have hid : s.streamId = id := KeyedTable.key_of_find? hs
    have hlive' : ∀ j ∈ ids, j ∈ (p.removeStream s).streams.keys := by
      intro j hj
      have hne : j ≠ id := fun h => hnot (h ▸ hj)
      show j ∈ (p.streams.erase s.streamId).keys
      rw [KeyedTable.keys_erase, hid]
      simpa [hne] using hlive j (by simp [hj])
    obtain ⟨ghost, heq, hghost⟩ := ih (p.removeStream s)
      (r.merge (p.streamFailure id code false)) hnd hlive'
    refine ⟨ghost, ?_, ?_⟩
    · simp only [failStreams, failStream_eq hs, heq]
      simp [removeStream, hid, KeyedTable.eraseAll_cons, ProtocolStepResult.merge, streamFailure]
    · intro hw
      have hws : s.waitingForContinuation = false := hw s (KeyedTable.mem_of_find? hs)
      have hrem : ∀ t ∈ (p.removeStream s).streams.entries, t.waitingForContinuation = false :=
        fun t ht => hw t (KeyedTable.mem_erase.1 ht).1
      rw [hghost hrem]
      simp [removeStream, hws]

/-- Failing all streams. -/
theorem failAllStreams_eq (p : ProtocolState) (code : ErrorCode) (r : ProtocolStepResult) :
    ∃ ghost, p.failAllStreams code r =
      ({ p with streams := .empty, ghostHeaderBlock := ghost },
        { r with events := r.events ++ p.streams.keys.flatMap (failureEvents code) }) := by
  obtain ⟨ghost, heq, -⟩ := failStreams_eq code p.streams.keys p r p.streams.nodup_keys
    (fun _ h => h)
  refine ⟨ghost, ?_⟩
  rw [failAllStreams, heq, KeyedTable.eraseAll_keys]

/-! ## The connection -/

/-- The result of failing the connection. -/
def connectionFailure (p : ProtocolState) (errorCode : ErrorCode) (debugData : Bytes) :
    ProtocolStepResult where
  outbound :=
    if !p.sentGoaway && !p.transportClosed then [.goAway (buildGoAwayFrame p errorCode debugData)]
    else []
  events :=
    (if !p.sentGoaway && !p.transportClosed then
      [.goAwaySent p.lastPeerStreamId errorCode debugData] else []) ++
    p.streams.keys.flatMap (failureEvents errorCode) ++
    [.connectionError errorCode, .connectionClosed errorCode]

theorem connectionFailure_outbound (p : ProtocolState) (code : ErrorCode) (debugData : Bytes) :
    (p.connectionFailure code debugData).outbound = [] ∨
      (p.connectionFailure code debugData).outbound =
        [.goAway (buildGoAwayFrame p code debugData)] :=
  (ite_eq_or_eq _ _ _).symm

/-- The state of a connection that has failed, up to the orphaned header block. -/
def failedState (p : ProtocolState) (errorCode : ErrorCode) (debugData ghost : Bytes) :
    ProtocolState :=
  { p with
    streams := .empty
    sentGoaway := p.sentGoaway || !p.transportClosed
    connectionErrorCode := errorCode
    connectionDebugData := debugData
    closed := true
    expectingContinuation := false
    continuationStreamId := 0
    ghostHeaderBlock := ghost }

theorem failConnection_eq (p : ProtocolState) (code : ErrorCode) (text : String) :
    ∃ ghost, p.failConnection code text =
      (p.failedState code (ascii text) ghost, p.connectionFailure code (ascii text)) := by
  simp only [failConnection]
  obtain ⟨ghost, heq⟩ := failAllStreams_eq { p with
      sentGoaway := p.sentGoaway || !p.transportClosed
      connectionErrorCode := code
      connectionDebugData := ascii text
      closed := true
      expectingContinuation := false
      continuationStreamId := 0
      ghostHeaderBlock := [] } code
    (if !p.sentGoaway && !p.transportClosed then
      { outbound := [.goAway (buildGoAwayFrame p code (ascii text))]
        events := [.goAwaySent (buildGoAwayFrame p code (ascii text)).lastStreamId code
          (ascii text)] }
    else {})
  refine ⟨ghost, ?_⟩
  rw [heq]
  by_cases hg : (!p.sentGoaway && !p.transportClosed) = true
  · simp only [hg, if_true, connectionFailure, ProtocolStepResult.merge, failedState,
      List.append_nil]
    rfl
  · simp only [hg, connectionFailure, ProtocolStepResult.merge, failedState, List.append_nil]
    rfl

end ProtocolState

end Chttp2
