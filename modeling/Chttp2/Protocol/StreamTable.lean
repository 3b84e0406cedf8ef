import Chttp2.Protocol.Outcome
import Chttp2.Protocol.Upload

/-!
# The table of streams

`operate` adds `reset`, which starts the life of a new connection, to the steps of a connection.
`TableOk` collects what holds of the table of streams in every reached state
(`stream_table_invariant`). The events are counted from the last `reset` on, since it forgets
streams without closing them (`reset_forgets_streams`). Where the orphaned header block belongs is
said for runs in which no `reset` has found one (`ResetsTidily`).
-/

set_option autoImplicit false

namespace Chttp2

open ProtocolState

/-! ## Operations with reset -/

/-- `reset`, besides the frame codec. It names neither the PING counter nor the orphaned header
block. -/
def ProtocolState.reset (p : ProtocolState) : ProtocolState :=
  let fresh : ProtocolState := {}
  { fresh with
    pingCounter := p.pingCounter
    ghostHeaderBlock := p.ghostHeaderBlock
    decodeLog := p.decodeLog }

/-- A step of a connection, or `reset`. -/
inductive Operation where
  | act (action : Action)
  | reset

/-- Execute an operation. -/
def ProtocolState.operate (p : ProtocolState) : Operation → Step
  | .act action => p.act action
  | .reset => .ok (p.reset, {})

/-- A step of a run with its operation, the state before it and its result. -/
abbrev OperationEntry := Machine.Entry ProtocolState Operation ProtocolStepResult

/-- The events since the last `reset`. -/
def eventsSinceReset (tr : List OperationEntry) : List ProtocolEvent :=
  tr.foldl (fun events e => match e.input with
    | .act _ => events ++ e.output.events
    | .reset => []) []

/-- No `reset` has happened. -/
def NoReset (tr : List OperationEntry) : Prop := ∀ e ∈ tr, ∃ action, e.input = .act action

/-- Every `reset` has found no orphaned header block, so it has left none behind. -/
def ResetsTidily (tr : List OperationEntry) : Prop :=
  ∀ e ∈ tr, e.input = .reset → e.pre.ghostHeaderBlock = []

theorem NoReset.resetsTidily {tr : List OperationEntry} (h : NoReset tr) : ResetsTidily tr := by
  intro e he hreset
  obtain ⟨action, hact⟩ := h e he
  rw [hact] at hreset
  cases hreset

section Traces

variable {tr : List OperationEntry} {p : ProtocolState} {r : ProtocolStepResult}

@[simp] theorem eventsSinceReset_nil : eventsSinceReset [] = [] := rfl

@[simp] theorem eventsSinceReset_act (action : Action) :
    eventsSinceReset (tr ++ [⟨p, .act action, r⟩]) = eventsSinceReset tr ++ r.events := by
  simp [eventsSinceReset]

@[simp] theorem eventsSinceReset_reset : eventsSinceReset (tr ++ [⟨p, .reset, r⟩]) = [] := by
  simp [eventsSinceReset]

end Traces

/-! ## The invariant -/

/-- The entry of a stream. -/
structure Stream.EntryOk (p : ProtocolState) (id : StreamId) (s : Stream) : Prop where
  odd : id % 2 = 1
  lt_next : id < p.nextStreamId
  streamId : s.streamId = id
  notClosed : s.streamState ≠ .closed
  state : s.streamState = if s.localEndStreamSent then .halfClosedLocal
    else if s.remoteEndStreamReceived then .halfClosedRemote else .open
  notBoth : ¬ (s.localEndStreamSent = true ∧ s.remoteEndStreamReceived = true)
  offset_le : s.requestBodyOffset ≤ s.rqst.body.length
  offset_eq : s.localEndStreamSent = true → s.requestBodyOffset = s.rqst.body.length

/-- Where the parts of header blocks are while the connection is not closed. -/
structure BlocksOk (clean : Prop) (p : ProtocolState) : Prop where
  waiting : ∀ id s, p.streams.find? id = some s → (s.waitingForContinuation = true ↔
    p.expectingContinuation = true ∧ p.continuationStreamId = id)
  pending : ∀ id s, p.streams.find? id = some s → s.waitingForContinuation = false →
    s.pendingHeaderBlock = []
  ghost : clean → p.ghostHeaderBlock ≠ [] →
    p.expectingContinuation = true ∧ p.streams.find? p.continuationStreamId = none

/-- The table of streams of a state whose events since its last `reset` are given. -/
structure TableOk (clean : Prop) (events : List ProtocolEvent) (p : ProtocolState) : Prop where
  entries : ∀ id s, p.streams.find? id = some s → s.EntryOk p id
  next_le : p.nextStreamId ≤ 2 ^ 31 - 1
  blocks : p.closed = false → BlocksOk clean p
  balance : ∀ id, openings id events = closings id events + live id p.streams
  once : ∀ id, openings id events ≤ 1

theorem HeaderState.blocksOk {clean : Prop} {p : ProtocolState} (h : HeaderState clean p) :
    BlocksOk clean p := by
  refine ⟨fun id s hfind => ?_, fun id s hfind => (h.streams.find hfind).pending, h.ghost⟩
  have hwaiting := (h.streams.find hfind).waiting
  rwa [KeyedTable.key_of_find? hfind] at hwaiting

/-- The inductive invariant behind `TableOk`. -/
structure TableInvariant (clean : Prop) (events : List ProtocolEvent) (p : ProtocolState) :
    Prop where
  sound : p.Sound
  tidy : p.Tidy
  next_le : p.nextStreamId ≤ 2 ^ 31 - 1
  streams : AllStreams Stream.StateOk p.streams
  headers : p.closed = true ∨ HeaderState clean p
  opened : ∀ id, openings id events = opened id p
  balance : ∀ id, closings id events + live id p.streams = openings id events

section Invariant

variable {clean : Prop} {events : List ProtocolEvent} {p p' : ProtocolState} {a : Action}
  {r : ProtocolStepResult}

theorem TableInvariant.tableOk (h : TableInvariant clean events p) : TableOk clean events p where
  entries id s hfind := by
    have hstate := h.streams.find hfind
    have hmem := KeyedTable.mem_keys_of_find? hfind
    refine ⟨h.tidy.odd id hmem, h.tidy.lt_next id hmem, KeyedTable.key_of_find? hfind, ?_,
      hstate.state, fun hboth => ?_, hstate.offset_le, hstate.offset_eq⟩
    · simpa [Stream.isClosed] using hstate.not_closed
    · have hremote := hstate.not_both hboth.1
      rw [hboth.2] at hremote
      cases hremote
  next_le := h.next_le
  blocks hopen := by
    rcases h.headers with hclosed | hp
    · rw [hopen] at hclosed
      cases hclosed
    · exact hp.blocksOk
  balance id := (h.balance id).symm
  once id := by
    rw [h.opened id, Chttp2.opened]
    split <;> decide

/-- The next id stays within 31 bits. -/
theorem ProtocolState.ActionStep.next_le_max (hstep : ActionStep p a p' r) (htidy : p.Tidy)
    (hp : p.nextStreamId ≤ 2 ^ 31 - 1) : p'.nextStreamId ≤ 2 ^ 31 - 1 := by
  cases hstep with
  | opened request rehash hcan hvalid hroom hpos hmax hbody =>
    have hnext : p'.nextStreamId = p.nextStreamId + 2 := (steady_bodyStep hbody).nextStreamId
    -- an odd id that is not the last one leaves room for the next
    have hroom' : ∀ n : Nat, n % 2 = 1 → n ≤ 0x7fffffff - 1 → n + 2 ≤ 2 ^ 31 - 1 := by
      intro n hodd hle
      omega
    rw [hnext]
    exact hroom' p.nextStreamId htidy.next_odd hmax
  | frame f hopen hup h =>
    rw [h.steady.nextStreamId]
    exact hp
  | _ => exact hp

theorem TableInvariant.act (h : TableInvariant clean events p) (hact : p.act a = .ok (p', r)) :
    TableInvariant clean (events ++ r.events) p' := by
  have hstep := actionStep_of_act h.sound hact
  have haccount := fun id => hstep.account h.tidy h.headers id
  refine ⟨hstep.sound h.sound, hstep.tidy h.tidy, hstep.next_le_max h.tidy h.next_le, ?_, ?_,
    fun id => ?_, fun id => ?_⟩
  · exact h.streams.actionStep keptByEmission_stateOk keptByReceiving_stateOk
      (fun _ _ h => ⟨h.1, h.2, h.3, h.4⟩) (stateOk_openedStream p) hstep
  · rcases h.headers with hclosed | hp
    · exact Or.inl (hstep.closed_of_closed hclosed)
    · exact hstep.headerState hp h.tidy
  · rw [openings_append, h.opened, Nat.add_comm, (haccount id).openings]
  · have hbalance := h.balance id
    have hclosings := (haccount id).closings
    rw [openings_append, closings_append]
    omega

/-- A state without streams and without an open header block, such as a new connection. -/
theorem TableInvariant.fresh (hsound : p.Sound) (hnext : p.nextStreamId = 1)
    (hempty : p.streams = .empty) (hexp : p.expectingContinuation = false)
    (hghost : clean → p.ghostHeaderBlock = []) : TableInvariant clean [] p where
  sound := hsound
  tidy := by
    refine ⟨?_, ?_, ?_, ?_⟩
    · rw [hnext]
    all_goals simp [hempty]
  next_le := by
    rw [hnext]
    decide
  streams := by
    rw [hempty]
    exact .empty
  headers := Or.inr (headerState_of_calm hexp hghost (by rw [hempty]; exact .empty))
  opened id := by
    refine (if_neg ?_).symm
    rw [hnext]
    rintro ⟨hodd, hlt⟩
    rw [Nat.lt_one_iff.1 hlt] at hodd
    cases hodd
  balance id := by
    rw [hempty]
    rfl

theorem TableInvariant.imp {clean' : Prop} (h : TableInvariant clean events p)
    (hc : clean' → clean) : TableInvariant clean' events p := by
  refine ⟨h.sound, h.tidy, h.next_le, h.streams, h.headers.imp_right fun hp => ?_, h.opened,
    h.balance⟩
  exact ⟨hp.streams, fun hclean => hp.ghost (hc hclean), hp.opened⟩

end Invariant

theorem tableInvariant_of_runs {config : ClientConfig} {tr : List OperationEntry}
    {p : ProtocolState} (h : Machine.Runs operate (ofConfig config) tr p) :
    TableInvariant (ResetsTidily tr) (eventsSinceReset tr) p := by
  refine h.invariant (I := fun tr p => TableInvariant (ResetsTidily tr) (eventsSinceReset tr) p) ?_ ?_
  · exact .fresh (sound_ofConfig config) rfl rfl rfl fun _ => rfl
  · intro tr p o p' r _ hp hstep
    cases o with
    | act a =>
      rw [eventsSinceReset_act]
      exact (hp.act hstep).imp fun hclean e he => hclean e (List.mem_append_left _ he)
    | reset =>
      cases hstep
      rw [eventsSinceReset_reset]
      refine .fresh (sound_iff.2 ⟨InFlow.ok_init (by decide), .empty⟩) rfl rfl rfl fun hclean => ?_
      exact hclean ⟨p, .reset, {}⟩ (by simp) rfl

/-- Induction along the operations on one connection after the other. -/
theorem operations_invariant {config : ClientConfig} {tr : List OperationEntry} {p : ProtocolState}
    {I : List OperationEntry → ProtocolState → Prop} (h0 : I [] (ofConfig config))
    (hstep : ∀ tr p a p' r, TableInvariant (ResetsTidily tr) (eventsSinceReset tr) p → I tr p →
      ActionStep p a p' r → I (tr ++ [⟨p, .act a, r⟩]) p')
    (hreset : ∀ tr p, I tr p → I (tr ++ [⟨p, .reset, {}⟩]) p.reset)
    (h : Machine.Runs operate (ofConfig config) tr p) : I tr p := by
  refine h.invariant h0 ?_
  intro tr p o p' r hr hp hact
  cases o with
  | act a =>
    have hinv := tableInvariant_of_runs hr
    exact hstep tr p a p' r hinv hp (actionStep_of_act hinv.sound hact)
  | reset =>
    cases hact
    exact hreset tr p hp

/-- The frame size in force is at least the minimum, on every connection in turn. -/
theorem minimum_le_maxFrameSize {config : ClientConfig} {tr : List OperationEntry}
    {p : ProtocolState} (h : Machine.Runs operate (ofConfig config) tr p) :
    p.closed = true ∨ Http2SettingInfo.minimumMaxFrameSize ≤ p.maxFrameSize := by
  refine operations_invariant (I := fun _ p =>
    p.closed = true ∨ Http2SettingInfo.minimumMaxFrameSize ≤ p.maxFrameSize) ?_ ?_ ?_ h
  · exact Or.inr (le_refl 16384 :)
  · intro tr p a p' r _ hp hstep
    obtain ⟨p₁, ids, r₁, hgrant, hbodies, -⟩ := hstep.sends
    rcases hp with hclosed | hmin
    · exact Or.inl (hstep.closed_of_closed hclosed)
    rcases hgrant.settings with ⟨hclosed, -⟩ | ⟨-, -, hmin₁⟩
    · exact Or.inl ((congrArg ProtocolState.closed hbodies.eq_with :).trans hclosed)
    · rw [hbodies.eq_with]
      exact Or.inr (hmin₁ hmin)
  · exact fun _ _ _ => Or.inr (le_refl 16384 :)

/-- The table of streams is in order in every state that any operations lead to. -/
theorem stream_table_invariant {config : ClientConfig} {tr : List OperationEntry}
    {p : ProtocolState} (h : Machine.Runs operate (ofConfig config) tr p) :
    TableOk (ResetsTidily tr) (eventsSinceReset tr) p :=
  (tableInvariant_of_runs h).tableOk

/-- A connection with a stream is reset while it holds no orphaned block. On the next one, a stream
is cancelled in the middle of its header block and another one is opened. -/
theorem stream_table_invariant_after_reset :
    ∃ tr p, Machine.Runs operate (ofConfig {}) tr p ∧ ResetsTidily tr ∧ p.streams.keys = [3] ∧
      p.closed = false ∧ p.ghostHeaderBlock = [0x88] ∧ openings 3 (eventsSinceReset tr) = 1 ∧
      TableOk (ResetsTidily tr) (eventsSinceReset tr) p := by
  have hrun : (Machine.run operate (ofConfig {}) [.act .start,
      .act (.submitRequest getRequest (.id _)), .reset, .act .start,
      .act (.receiveFrame emptySettingsFrame), .act (.submitRequest getRequest (.id _)),
      .act (.receiveFrame (okResponseFrame 0)), .act (.cancelStream 1 .cancel),
      .act (.submitRequest getRequest (.id _))]).map
        (fun x => (x.2.all fun e => match e.input with
            | .act _ => true
            | .reset => e.pre.ghostHeaderBlock.isEmpty,
          x.1.streams.keys, x.1.closed, x.1.ghostHeaderBlock, openings 3 (eventsSinceReset x.2))) =
      .ok (true, [3], false, [0x88], 1) := by decide +kernel
  obtain ⟨p, tr, hr, -, hresult⟩ := Machine.exists_runs_of_map hrun
  simp only [Prod.mk.injEq, List.all_eq_true] at hresult
  obtain ⟨hempty, hkeys, hclosed, hghost, hopened⟩ := hresult
  have htidy : ResetsTidily tr := by
    intro e he hreset
    have h := hempty e he
    rw [hreset] at h
    exact List.isEmpty_iff.1 h
  exact ⟨tr, p, hr, htidy, hkeys, hclosed, hghost, hopened, stream_table_invariant hr⟩

/-- `reset` forgets a stream without closing it, and its id is given out again: two STREAM_OPENED of
stream 1, no STREAM_CLOSED, one live stream. When a connection fails in the middle of a header
block, the orphaned part of the block is there on the next one, where no block is open. -/
theorem reset_forgets_streams :
    (∃ tr p, Machine.Runs operate (ofConfig {}) tr p ∧
      openings 1 (eventsOf tr) = 2 ∧ closings 1 (eventsOf tr) = 0 ∧ live 1 p.streams = 1) ∧
    ∃ tr p, Machine.Runs operate (ofConfig {}) tr p ∧ p.closed = false ∧
      p.ghostHeaderBlock ≠ [] ∧ p.expectingContinuation = false := by
  constructor
  · have hrun : (Machine.run operate (ofConfig {}) [.act .start,
        .act (.submitRequest getRequest (.id _)), .reset, .act .start,
        .act (.submitRequest getRequest (.id _))]).map
          (fun x => (openings 1 (eventsOf x.2), closings 1 (eventsOf x.2), live 1 x.1.streams)) =
        .ok (2, 0, 1) := by decide +kernel
    obtain ⟨p, tr, hr, -, hresult⟩ := Machine.exists_runs_of_map hrun
    simp only [Prod.mk.injEq] at hresult
    exact ⟨tr, p, hr, hresult⟩
  · have hrun : (Machine.run operate (ofConfig {}) [.act .start,
        .act (.receiveFrame emptySettingsFrame), .act (.submitRequest getRequest (.id _)),
        .act (.receiveFrame (okResponseFrame 0)), .act (.receiveFrame emptySettingsFrame),
        .reset]).map (fun x => (x.1.closed, x.1.ghostHeaderBlock, x.1.expectingContinuation)) =
        .ok (false, [0x88], false) := by decide +kernel
    obtain ⟨p, tr, hr, -, hresult⟩ := Machine.exists_runs_of_map hrun
    simp only [Prod.mk.injEq] at hresult
    obtain ⟨hclosed, hghost, hexp⟩ := hresult
    refine ⟨tr, p, hr, hclosed, ?_, hexp⟩
    rw [hghost]
    exact List.cons_ne_nil _ _

end Chttp2
