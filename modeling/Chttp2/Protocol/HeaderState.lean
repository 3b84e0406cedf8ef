import Chttp2.Protocol.Upload

/-!
# Open header blocks

At most one header block is open. `HeaderState` says where its bytes are: in the record of the stream
that waits for CONTINUATION, or in the orphaned block of a stream that has left the table. It holds
in every reached state that is not closed (`headerState_of_runs`).
-/

set_option autoImplicit false

namespace Chttp2

open ProtocolState

/-- A stream waits for CONTINUATION exactly if the connection does so for it; only then it holds a
part of a header block, and its peer has not ended it. -/
structure Stream.HeaderOk (expecting : Bool) (id : StreamId) (s : Stream) : Prop where
  waiting : s.waitingForContinuation = true ↔ expecting = true ∧ id = s.streamId
  pending : s.waitingForContinuation = false → s.pendingHeaderBlock = []
  remote : s.waitingForContinuation = true → s.remoteEndStreamReceived = false

/-- Where the bytes of an open header block are. That the orphaned block belongs to the open one is
asked for only if the connection started `clean`. -/
structure HeaderState (clean : Prop) (p : ProtocolState) : Prop where
  streams : AllStreams (Stream.HeaderOk p.expectingContinuation p.continuationStreamId) p.streams
  ghost : clean → p.ghostHeaderBlock ≠ [] →
    p.expectingContinuation = true ∧ p.streams.find? p.continuationStreamId = none
  opened : p.expectingContinuation = true → p.continuationStreamId < p.nextStreamId

section HeaderOk

variable {expecting : Bool} {id : StreamId} {s : Stream}

theorem Stream.HeaderOk.of_idle (hw : s.waitingForContinuation = false)
    (hp : s.pendingHeaderBlock = []) (h : ¬ (expecting = true ∧ id = s.streamId)) :
    s.HeaderOk expecting id := by
  refine ⟨⟨fun h' => ?_, fun h' => absurd h' h⟩, fun _ => hp, fun h' => ?_⟩
  · rw [hw] at h'
    cases h'
  · rw [hw] at h'
    cases h'

/-- A stream that does not wait does not change with the connection, unless that waits for it. -/
theorem Stream.HeaderOk.change {expecting' : Bool} {id' : StreamId}
    (h : s.HeaderOk expecting id) (hw : s.waitingForContinuation = false)
    (h' : ¬ (expecting' = true ∧ id' = s.streamId)) : s.HeaderOk expecting' id' :=
  .of_idle hw (h.pending hw) h'

theorem keptByEmission_headerOk : KeptByEmission (Stream.HeaderOk expecting id) :=
  ⟨fun _ _ h _ _ _ => ⟨h.1, h.2, h.3⟩, fun _ _ h _ _ _ _ => ⟨h.1, h.2, h.3⟩⟩

end HeaderOk

section Steps

variable {clean : Prop} {p p' : ProtocolState} {s : Stream} {r : ProtocolStepResult}
  {f : RawFrame}

/-- The members about header blocks, which body steps and settings leave alone. -/
structure SameHeaders (p p' : ProtocolState) : Prop where
  expectingContinuation : p'.expectingContinuation = p.expectingContinuation
  continuationStreamId : p'.continuationStreamId = p.continuationStreamId
  ghostHeaderBlock : p'.ghostHeaderBlock = p.ghostHeaderBlock
  nextStreamId : p.nextStreamId ≤ p'.nextStreamId
  hpack : p'.hpack.decodeTable = p.hpack.decodeTable
  decodeLog : p'.decodeLog = p.decodeLog

theorem sameHeaders_bodyStep (h : BodyStep p s p' r) : SameHeaders p p' := by
  rw [h.eq_with]
  exact ⟨rfl, rfl, rfl, le_refl _, rfl, rfl⟩

theorem sameHeaders_bodySteps {ids : List StreamId} (h : BodySteps ids p p' r) :
    SameHeaders p p' := by
  rw [h.eq_with]
  exact ⟨rfl, rfl, rfl, le_refl _, rfl, rfl⟩

/-- Everything about header blocks stays, and streams leave only. -/
theorem HeaderState.of_same (hp : HeaderState clean p) (h : SameHeaders p p')
    (hkeys : NoNewStreams p.streams p'.streams)
    (hs : AllStreams (Stream.HeaderOk p.expectingContinuation p.continuationStreamId) p'.streams) :
    HeaderState clean p' := by
  refine ⟨?_, fun hclean hg => ?_, fun he => ?_⟩
  · rw [h.expectingContinuation, h.continuationStreamId]
    exact hs
  · rw [h.ghostHeaderBlock] at hg
    obtain ⟨hexp, hnone⟩ := hp.ghost hclean hg
    rw [h.expectingContinuation, h.continuationStreamId]
    refine ⟨hexp, KeyedTable.find?_eq_none_iff.2 fun hmem => ?_⟩
    exact KeyedTable.find?_eq_none_iff.1 hnone (hkeys _ hmem)
  · rw [h.expectingContinuation] at he
    rw [h.continuationStreamId]
    exact (hp.opened he).trans_le h.nextStreamId

theorem HeaderState.bodyStep (hp : HeaderState clean p) (hstep : BodyStep p s p' r)
    (hs : s.HeaderOk p.expectingContinuation p.continuationStreamId) : HeaderState clean p' :=
  hp.of_same (sameHeaders_bodyStep hstep) (noNewStreams_bodyStep hstep)
    (AllStreams.bodyStep keptByEmission_headerOk hstep hp.streams hs)

theorem HeaderState.bodySteps {ids : List StreamId} (hp : HeaderState clean p)
    (hsteps : BodySteps ids p p' r) : HeaderState clean p' :=
  hp.of_same (sameHeaders_bodySteps hsteps) (noNewStreams_bodySteps hsteps)
    (AllStreams.bodySteps keptByEmission_headerOk hsteps hp.streams)

/-- Writing back a record that is as good. -/
theorem HeaderState.putStream (hp : HeaderState clean p)
    (hs : s.HeaderOk p.expectingContinuation p.continuationStreamId) :
    HeaderState clean (p.putStream s) :=
  hp.of_same ⟨rfl, rfl, rfl, le_refl _, rfl, rfl⟩ (noNewStreams_set _ _) (hp.streams.set hs)

theorem HeaderState.erase (hp : HeaderState clean p) (id : StreamId) :
    HeaderState clean { p with streams := p.streams.erase id } :=
  hp.of_same ⟨rfl, rfl, rfl, le_refl _, rfl, rfl⟩ (noNewStreams_erase _ _) (hp.streams.erase id)

/-- A removed stream hands its part of a header block over to the connection. -/
theorem HeaderState.removeStream (hp : HeaderState clean p)
    (hs : s.HeaderOk p.expectingContinuation p.continuationStreamId) :
    HeaderState clean (p.removeStream s) := by
  refine ⟨hp.streams.erase _, fun hclean hg => ?_, hp.opened⟩
  by_cases hw : s.waitingForContinuation = true
  · obtain ⟨hexp, hid⟩ := hs.waiting.1 hw
    refine ⟨hexp, ?_⟩
    show (p.streams.erase s.streamId).find? p.continuationStreamId = none
    rw [hid, KeyedTable.find?_erase_self]
  · have hghost : (p.removeStream s).ghostHeaderBlock = p.ghostHeaderBlock := by
      have hw' : s.waitingForContinuation = false := by simpa using hw
      simp [ProtocolState.removeStream, hw']
    rw [hghost] at hg
    exact (hp.erase s.streamId).ghost hclean hg

/-- No stream waits if the connection does not. -/
theorem HeaderState.not_waiting (hp : HeaderState clean p) (hexp : p.expectingContinuation = false)
    (hs : s ∈ p.streams.entries) : s.waitingForContinuation = false := by
  by_contra hw
  have h := ((hp.streams s hs).waiting.1 (by simpa using hw)).1
  rw [hexp] at h
  cases h

theorem HeaderState.ghost_nil (hp : HeaderState clean p) (hexp : p.expectingContinuation = false)
    (hclean : clean) : p.ghostHeaderBlock = [] := by
  by_contra hne
  have h := (hp.ghost hclean hne).1
  rw [hexp] at h
  cases h

/-- A HEADERS frame that CONTINUATION frames follow. -/
theorem HeaderState.openBlock {id : StreamId} (hp : HeaderState clean p) (htidy : p.Tidy)
    (hexp : p.expectingContinuation = false) (hfind : p.streams.find? id = some s)
    (hopen : ¬ s.Refuses) (fragment : Bytes) (endStream : Bool) :
    HeaderState clean ({ p with
      expectingContinuation := true
      continuationStreamId := id }.putStream (s.openBlock fragment endStream)) := by
  have hid : s.streamId = id := KeyedTable.key_of_find? hfind
  refine ⟨fun u hu => ?_, fun hclean hg => absurd (hp.ghost_nil hexp hclean) hg,
    fun _ => ?_⟩
  · rcases KeyedTable.mem_set.1 hu with ⟨rfl, -⟩ | ⟨hu, hne⟩
    · refine ⟨⟨fun _ => ⟨rfl, hid.symm⟩, fun _ => rfl⟩,
        fun h => absurd (show true = false from h) (by decide), fun _ => ?_⟩
      show s.remoteEndStreamReceived = false
      simpa using (not_or.1 hopen).2
    · refine (hp.streams u hu).change (hp.not_waiting hexp hu) fun h => hne ?_
      exact h.2.symm.trans hid.symm
  · exact htidy.lt_next id (KeyedTable.mem_keys_of_find? hfind)

/-! ### No open block -/

/-- The stream holds no part of a header block. -/
structure Stream.Calm (s : Stream) : Prop where
  waiting : s.waitingForContinuation = false
  pending : s.pendingHeaderBlock = []

/-- No header block is open, and no stream but `id` holds a part of one. -/
structure CalmBut (clean : Prop) (id : StreamId) (p : ProtocolState) : Prop where
  expecting : p.expectingContinuation = false
  ghost : clean → p.ghostHeaderBlock = []
  others : ∀ u ∈ p.streams.entries, u.streamId ≠ id → u.Calm

theorem HeaderState.calmBut (hp : HeaderState clean p) (hexp : p.expectingContinuation = false)
    (id : StreamId) : CalmBut clean id p where
  expecting := hexp
  ghost := hp.ghost_nil hexp
  others u hu _ := ⟨hp.not_waiting hexp hu, (hp.streams u hu).pending (hp.not_waiting hexp hu)⟩

theorem headerState_of_calm (hexp : p.expectingContinuation = false)
    (hghost : clean → p.ghostHeaderBlock = []) (hs : AllStreams Stream.Calm p.streams) :
    HeaderState clean p := by
  have hidle : ∀ u : Stream,
      ¬ (p.expectingContinuation = true ∧ p.continuationStreamId = u.streamId) := by
    intro u h
    rw [hexp] at h
    cases h.1
  refine ⟨fun u hu => .of_idle (hs u hu).waiting (hs u hu).pending (hidle u),
    fun hclean hg => ?_, fun he => ?_⟩
  · exact absurd (hghost hclean) hg
  · rw [hexp] at he
    cases he

namespace CalmBut

theorem putStream (h : CalmBut clean s.streamId p) (hs : s.Calm) :
    HeaderState clean (p.putStream s) := by
  refine headerState_of_calm h.expecting h.ghost fun u hu => ?_
  rcases KeyedTable.mem_set.1 hu with ⟨rfl, -⟩ | ⟨hu, hne⟩
  · exact hs
  · exact h.others u hu hne

theorem erase (h : CalmBut clean s.streamId p) :
    HeaderState clean { p with streams := p.streams.erase s.streamId } :=
  headerState_of_calm h.expecting h.ghost fun u hu =>
    h.others u (KeyedTable.mem_erase.1 hu).1 (KeyedTable.mem_erase.1 hu).2

theorem removeStream (h : CalmBut clean s.streamId p) (hw : s.waitingForContinuation = false) :
    HeaderState clean (p.removeStream s) := by
  have heq : p.removeStream s = { p with streams := p.streams.erase s.streamId } := by
    simp [ProtocolState.removeStream, hw]
  rw [heq]
  exact h.erase

theorem afterDecode {id : StreamId} (h : CalmBut clean id p) (k : StreamId) (block : Bytes) :
    CalmBut clean id (p.afterDecode k block) :=
  ⟨h.expecting, h.ghost, h.others⟩

/-- The end of a frame leaves no part of a header block. -/
theorem ending {b : Bool} (h : CalmBut clean s.streamId p) (hs : s.Calm) (hend : Ending p s b p' r) :
    HeaderState clean p' := by
  cases hend with
  | goesOn => exact h.putStream hs
  | mismatch => exact h.removeStream hs.waiting
  | finished => exact h.erase
  | answered => exact h.putStream (s := s.answered) ⟨hs.waiting, hs.pending⟩

/-- Nor does a complete header block. -/
theorem blockStep {b : Bool} (h : CalmBut clean s.streamId p) (hw : s.waitingForContinuation = false)
    (hstep : BlockStep p s b p' r) : HeaderState clean p' := by
  have h' := h.afterDecode s.streamId s.pendingHeaderBlock
  cases hstep with
  | tooLarge => exact h'.removeStream hw
  | rejected => exact CalmBut.removeStream (s := s.clearBlock) h' rfl
  | informational headers cl =>
    exact CalmBut.putStream (s := s.withInformational cl) h' ⟨rfl, rfl⟩
  | headers headers cl hd hsize hv hfinal hend =>
    exact CalmBut.ending (s := s.withHeaders cl headers) h' ⟨rfl, rfl⟩ hend
  | trailers headers cl hd hsize hv hfinal hconnect hend =>
    exact CalmBut.ending (s := s.withTrailers cl headers) h' ⟨rfl, rfl⟩ hend

end CalmBut

/-- With the last CONTINUATION frame of a block only its stream holds a part of one. -/
theorem HeaderState.calmBut_endBlock (hp : HeaderState clean p)
    (hid : p.continuationStreamId = s.streamId) (hs : s ∈ p.streams.entries) :
    CalmBut clean s.streamId { p with expectingContinuation := false, continuationStreamId := 0 } := by
  refine ⟨rfl, fun hclean => ?_, fun u hu hne => ?_⟩
  · by_contra hghost
    have hnone := (hp.ghost hclean hghost).2
    rw [hid, KeyedTable.mem_iff_find?.1 hs] at hnone
    cases hnone
  · have hw : u.waitingForContinuation = false := by
      by_contra hw
      exact hne (((hp.streams u hu).waiting.1 (by simpa using hw)).2.symm.trans hid)
    exact ⟨hw, (hp.streams u hu).pending hw⟩

/-- The settings of a SETTINGS frame. -/
theorem HeaderState.tuned (hp : HeaderState clean p)
    (h : Tuned { p with gotPeerSettings := true } p') : HeaderState clean p' := by
  have hsame : SameHeaders p p' := by
    refine ⟨?_, ?_, ?_, le_of_eq ?_, h.decodeTable, ?_⟩ <;> rw [h.eq]
  refine hp.of_same hsame (fun id hid => ?_) ?_
  · have hkeys : p'.streams.keys = p.streams.keys := h.streams.1
    rwa [← hkeys]
  · exact hp.streams.sameButWindows h.streams fun _ _ hs => ⟨hs.1, hs.2, hs.3⟩

/-- Frames that do not interrupt a header block keep its state, or they close the connection. -/
theorem ProtocolState.FrameStep.headerState (hstep : FrameStep p f p' r)
    (hp : HeaderState clean p) (htidy : p.Tidy)
    (hnext : p.expectingContinuation = true → f.header.type ≠ .continuation → p'.closed = true) :
    p'.closed = true ∨ HeaderState clean p' := by
  -- a frame of another type that leaves the connection open finds no open block
  have hcalm : f.header.type ≠ .continuation → p'.closed = true ∨
      p.expectingContinuation = false := by
    intro ht
    by_cases hexp : p.expectingContinuation = true
    · exact Or.inl (hnext hexp ht)
    · exact Or.inr (by simpa using hexp)
  cases hstep with
  | reported => exact Or.inr hp
  | connectionFailed => exact Or.inl rfl
  | dataRefused s ht hfind => exact Or.inr (hp.removeStream (hp.streams.find hfind))
  | dataOnRemoved => exact Or.inr ⟨hp.streams, hp.ghost, hp.opened⟩
  | dataOnBodiless s ht hfind =>
    have h := hp.removeStream (hp.streams.find hfind)
    exact Or.inr ⟨h.streams, h.ghost, h.opened⟩
  | @dataStored s conn inflow _ _ ht hfind hopen hfinal htake hbody hend =>
    rcases hcalm (by simp [ht]) with hclosed | hexp
    · exact Or.inl hclosed
    have hw := hp.not_waiting hexp (KeyedTable.mem_of_find? hfind)
    have hs := hp.streams.find hfind
    have hcalm : CalmBut clean s.streamId
        { p with connectionInflow := (conn.add f.header.payloadLength).2 } :=
      ⟨hexp, hp.ghost_nil hexp, (hp.calmBut hexp s.streamId).others⟩
    exact Or.inr (CalmBut.ending (s := s.withData _ _) hcalm ⟨hw, hs.pending hw⟩ hend)
  | headersRefused s ht hfind => exact Or.inr (hp.removeStream (hp.streams.find hfind))
  | ghostHeaders => exact Or.inr ⟨hp.streams, hp.ghost, hp.opened⟩
  | ghostHeadersOpen ht hnone hid hend =>
    rcases hcalm (by simp [ht]) with hclosed | hexp
    · exact Or.inl hclosed
    refine Or.inr ⟨fun s hs => ?_, fun _ _ => ⟨rfl, hnone⟩, fun _ => ?_⟩
    · refine (hp.streams s hs).change (hp.not_waiting hexp hs) fun h => ?_
      have hfind := KeyedTable.mem_iff_find?.1 hs
      rw [← h.2, hnone] at hfind
      cases hfind
    · by_contra hge
      exact hid (Or.inr (not_lt.1 hge))
  | headersOpen s ht hfind hopen hend =>
    rcases hcalm (by simp [ht]) with hclosed | hexp
    · exact Or.inl hclosed
    exact Or.inr (hp.openBlock htidy hexp hfind hopen _ _)
  | headersBlock s ht hfind hopen hend hblock =>
    rcases hcalm (by simp [ht]) with hclosed | hexp
    · exact Or.inl hclosed
    have hw : s.waitingForContinuation = false :=
      hp.not_waiting hexp (KeyedTable.mem_of_find? hfind)
    exact Or.inr (CalmBut.blockStep (s := s.withFragment _) (hp.calmBut hexp _) hw hblock)
  | streamReset s code ht hfind => exact Or.inr (hp.removeStream (hp.streams.find hfind))
  | settingsApplied ht hack happ hbodies =>
    exact Or.inr ((hp.tuned (tuned_of_settings happ)).bodySteps hbodies)
  | goAway ht hg =>
    rcases hcalm (by simp [ht]) with hclosed | hexp
    · exact Or.inl hclosed
    have hghost := hg fun s hs => hp.not_waiting hexp hs
    refine Or.inr ⟨hp.streams.eraseAll _, fun hclean hne => ?_, hp.opened⟩
    exact absurd (hghost.trans (hp.ghost_nil hexp hclean)) hne
  | @connectionWindow outflow _ _ ht hid hadd hbodies =>
    have hp₀ : HeaderState clean { p with connectionOutFlow := outflow } :=
      ⟨hp.streams, hp.ghost, hp.opened⟩
    exact Or.inr (hp₀.bodySteps hbodies)
  | windowRefused s ht hid hfind => exact Or.inr (hp.removeStream (hp.streams.find hfind))
  | @streamWindow s outflow _ _ ht hid hfind hadd hbody =>
    have hs := hp.streams.find hfind
    have hs' : (s.withOutflow outflow).HeaderOk p.expectingContinuation p.continuationStreamId :=
      ⟨hs.1, hs.2, hs.3⟩
    exact Or.inr ((hp.putStream hs').bodyStep hbody hs')
  | ghostContinuationOpen ht hexp hid hnone =>
    exact Or.inr ⟨hp.streams, fun _ _ => ⟨hexp, by rw [hid]; exact hnone⟩, hp.opened⟩
  | ghostContinuation ht hexp hid hnone =>
    refine Or.inr ⟨fun s hs => ?_, fun _ hg => absurd rfl hg, fun h => by cases h⟩
    have hs' : s ∈ p.streams.entries := hs
    have hw : s.waitingForContinuation = false := by
      by_contra hw
      have hcont := ((hp.streams s hs').waiting.1 (by simpa using hw)).2
      have hfind := KeyedTable.mem_iff_find?.1 hs'
      rw [← hcont, hid, hnone] at hfind
      cases hfind
    exact (hp.streams s hs').change hw fun h => by cases h.1
  | continuationOpen s ht hexp hid hfind =>
    have hs := hp.streams.find hfind
    have hsid : s.streamId = f.header.streamId := KeyedTable.key_of_find? hfind
    refine Or.inr (hp.putStream ⟨hs.waiting, fun hw => ?_, hs.remote⟩)
    have hw' : s.waitingForContinuation = true := hs.waiting.2 ⟨hexp, hid.trans hsid.symm⟩
    exact absurd (hw'.symm.trans hw) (by decide)
  | continuationBlock s ht hexp hid hfind hend hblock =>
    have hcalm := hp.calmBut_endBlock (hid.trans (KeyedTable.key_of_find? hfind).symm)
      (KeyedTable.mem_of_find? hfind)
    exact Or.inr (CalmBut.blockStep (s := s.endBlock _) hcalm rfl hblock)

/-- The stream of a request holds no part of a header block. -/
theorem HeaderState.opening (hp : HeaderState clean p) (request : Request)
    (rehash : Reorder Stream) :
    HeaderState clean ((p.opening request rehash).putStream (p.openedStream request)) := by
  -- its id is above that of an open block
  have hidle : ¬ (p.expectingContinuation = true ∧
      p.continuationStreamId = (p.openedStream request).streamId) := by
    rintro ⟨hexp, hid⟩
    exact absurd (hp.opened hexp) (not_lt.2 hid.ge)
  refine ⟨fun u hu => ?_, fun hclean hg => ?_, fun hexp => Nat.lt_add_right 2 (hp.opened hexp)⟩
  · rcases mem_opening hu with rfl | hu
    · exact .of_idle rfl rfl hidle
    · exact hp.streams u hu
  · obtain ⟨hexp, hnone⟩ := hp.ghost hclean hg
    refine ⟨hexp, ?_⟩
    have hlookup := find?_opening p request rehash p.continuationStreamId
    rw [if_neg (by exact fun hid => hidle ⟨hexp, hid⟩), hnone] at hlookup
    exact hlookup

theorem ProtocolState.ActionStep.headerState {a : Action} (hstep : ActionStep p a p' r)
    (hp : HeaderState clean p) (htidy : p.Tidy) : p'.closed = true ∨ HeaderState clean p' := by
  cases hstep with
  | startedAgain => exact Or.inr hp
  | started => exact Or.inr ⟨hp.streams, hp.ghost, hp.opened⟩
  | refused => exact Or.inr hp
  | opened request rehash hcan hvalid hroom hpos hmax hbody =>
    have hopened := hp.opening request rehash
    have hmem : p.openedStream request ∈
        ((p.opening request rehash).putStream (p.openedStream request)).streams.entries :=
      KeyedTable.mem_set.2 (Or.inl ⟨rfl, KeyedTable.mem_keys_insert.2 (Or.inl rfl)⟩)
    exact Or.inr (hopened.bodyStep hbody (hopened.streams _ hmem))
  | cancelIgnored => exact Or.inr hp
  | cancelled id code s hopen hfind => exact Or.inr (hp.removeStream (hp.streams.find hfind))
  | pingIgnored => exact Or.inr hp
  | pinged => exact Or.inr ⟨hp.streams, hp.ghost, hp.opened⟩
  | closedAgain h => exact Or.inl h
  | closed => exact Or.inl rfl
  | transportLost => exact Or.inl rfl
  | transportLostAgain => exact Or.inl rfl
  | frameIgnored => exact Or.inr hp
  | frame f hopen hup hframe hnext => exact hframe.headerState hp htidy hnext

end Steps

/-- In every reached state that is not closed, at most one header block is open, and its bytes are
where `HeaderState` says. -/
theorem headerState_of_runs {config : ClientConfig} {tr : List Entry} {p : ProtocolState}
    (h : Runs (ofConfig config) tr p) : p.closed = true ∨ HeaderState True p := by
  refine runs_invariant (I := fun _ p => p.closed = true ∨ HeaderState True p) ?_ ?_ h
  · exact Or.inr (headerState_of_calm rfl (fun _ => rfl) .empty)
  · intro tr p a p' r hr hp hstep
    rcases hp with hclosed | hp
    · exact Or.inl (hstep.closed_of_closed hclosed)
    · exact hstep.headerState hp (tidy_of_runs hr)

theorem headerState_of_open {config : ClientConfig} {tr : List Entry} {p : ProtocolState}
    (h : Runs (ofConfig config) tr p) (hopen : p.closed = false) : HeaderState True p := by
  rcases headerState_of_runs h with hclosed | hp
  · rw [hopen] at hclosed
    cases hclosed
  · exact hp

end Chttp2
