import Chttp2.Protocol.HeaderState

/-!
# The events of a stream

`Ledger` balances the events of a step against the table: STREAM_CLOSED against the streams that
are live, RESPONSE_COMPLETED and RESPONSE_FAILED against the streams whose response is pending. The
second account fails where a stream is failed whose response is complete (`Fails`); all other runs
give every opened stream exactly one outcome (`exactly_one_outcome`).
-/

set_option autoImplicit false

namespace Chttp2

open ProtocolState

/-! ## Accounts -/

namespace ProtocolEvent

/-- STREAM_OPENED of a stream. -/
def opens (id : StreamId) : ProtocolEvent → Bool
  | .streamOpened streamId => streamId = id
  | _ => false

/-- STREAM_CLOSED of a stream. -/
def closes (id : StreamId) : ProtocolEvent → Bool
  | .streamClosed streamId _ => streamId = id
  | _ => false

/-- RESPONSE_COMPLETED or RESPONSE_FAILED of a stream. -/
def settles (id : StreamId) : ProtocolEvent → Bool
  | .responseCompleted streamId _ => streamId = id
  | .responseFailed streamId _ => streamId = id
  | _ => false

/-- The event is none of the four. -/
def neutral : ProtocolEvent → Bool
  | .streamOpened _ | .streamClosed _ _ | .responseCompleted _ _ | .responseFailed _ _ => false
  | _ => true

end ProtocolEvent

/-- The number of STREAM_OPENED events of a stream. -/
def openings (id : StreamId) (events : List ProtocolEvent) : Nat :=
  events.countP (ProtocolEvent.opens id)

/-- The number of STREAM_CLOSED events of a stream. -/
def closings (id : StreamId) (events : List ProtocolEvent) : Nat :=
  events.countP (ProtocolEvent.closes id)

/-- The number of RESPONSE_COMPLETED and RESPONSE_FAILED events of a stream. -/
def outcomes (id : StreamId) (events : List ProtocolEvent) : Nat :=
  events.countP (ProtocolEvent.settles id)

/-- One if the stream is in the table. -/
def live (id : StreamId) (t : StreamTable) : Nat := if id ∈ t.keys then 1 else 0

/-- One if the stream is in the table and its peer has not ended it. -/
def pending (id : StreamId) (t : StreamTable) : Nat :=
  match t.find? id with
  | some s => if s.remoteEndStreamReceived = true then 0 else 1
  | none => 0

/-- One if the stream has been opened. -/
def opened (id : StreamId) (p : ProtocolState) : Nat :=
  if id % 2 = 1 ∧ id < p.nextStreamId then 1 else 0

section Accounts

variable {id k : StreamId} {t : StreamTable} {s s₀ : Stream} {a b : List ProtocolEvent}

@[simp] theorem openings_nil : openings id [] = 0 := rfl
@[simp] theorem closings_nil : closings id [] = 0 := rfl
@[simp] theorem outcomes_nil : outcomes id [] = 0 := rfl

@[simp] theorem openings_append : openings id (a ++ b) = openings id a + openings id b :=
  List.countP_append

@[simp] theorem closings_append : closings id (a ++ b) = closings id a + closings id b :=
  List.countP_append

@[simp] theorem outcomes_append : outcomes id (a ++ b) = outcomes id a + outcomes id b :=
  List.countP_append

theorem live_of_find? (h : t.find? id = some s) : live id t = 1 :=
  if_pos (KeyedTable.mem_keys_of_find? h)

theorem live_of_find?_none (h : t.find? id = none) : live id t = 0 :=
  if_neg (KeyedTable.find?_eq_none_iff.1 h)

theorem pending_of_find? (h : t.find? id = some s) :
    pending id t = if s.remoteEndStreamReceived = true then 0 else 1 := by
  rw [pending, h]

theorem pending_of_find?_none (h : t.find? id = none) : pending id t = 0 := by
  rw [pending, h]

theorem live_congr {t' : StreamTable} (h : t'.keys = t.keys) : live id t' = live id t := by
  rw [live, live, h]

end Accounts

/-! ## The ledger of a step -/

/-- The events of a step that opens no stream, balanced against the tables before and after it. The
outcomes balance if the step is `fair` to the stream. -/
structure Ledger (id : StreamId) (fair : Prop) (t t' : StreamTable) (events : List ProtocolEvent) :
    Prop where
  openings : openings id events = 0
  closings : closings id events + live id t' = live id t
  outcomes : fair → outcomes id events + pending id t' = pending id t

namespace Ledger

variable {id k : StreamId} {fair : Prop} {t t' t'' : StreamTable} {s s₀ : Stream}
  {a b : List ProtocolEvent}

/-- Nothing happens to the streams. -/
theorem neutral (h : ∀ e ∈ a, e.neutral = true) : Ledger id fair t t a := by
  have hzero : Chttp2.openings id a = 0 ∧ Chttp2.closings id a = 0 ∧ Chttp2.outcomes id a = 0 := by
    refine ⟨List.countP_eq_zero.2 ?_, List.countP_eq_zero.2 ?_, List.countP_eq_zero.2 ?_⟩ <;>
    · intro e he
      have hn := h e he
      cases e <;> first | exact Bool.false_ne_true | cases hn
  refine ⟨hzero.1, ?_, fun _ => ?_⟩
  · rw [hzero.2.1, Nat.zero_add]
  · rw [hzero.2.2, Nat.zero_add]

theorem imp {fair' : Prop} (h : Ledger id fair t t' a) (hf : fair' → fair) :
    Ledger id fair' t t' a :=
  ⟨h.openings, h.closings, fun h' => h.outcomes (hf h')⟩

theorem refl (id : StreamId) (fair : Prop) (t : StreamTable) : Ledger id fair t t [] :=
  neutral (by simp)

theorem trans (h : Ledger id fair t t' a) (h' : Ledger id fair t' t'' b) :
    Ledger id fair t t'' (a ++ b) := by
  refine ⟨?_, ?_, fun hf => ?_⟩
  · rw [openings_append, h.openings, h'.openings]
  · rw [closings_append, ← h.closings, ← h'.closings, Nat.add_assoc]
  · rw [outcomes_append, ← h.outcomes hf, ← h'.outcomes hf, Nat.add_assoc]

theorem cons {e : ProtocolEvent} (he : e.neutral = true) (h : Ledger id fair t t' b) :
    Ledger id fair t t' (e :: b) :=
  (neutral (a := [e]) (by simpa using he)).trans h

theorem snoc {e : ProtocolEvent} (h : Ledger id fair t t' b) (he : e.neutral = true) :
    Ledger id fair t t' (b ++ [e]) :=
  h.trans (neutral (by simpa using he))

/-- Writing back a record with the same END_STREAM mark of the peer. -/
theorem set (hfind : t.find? s.streamId = some s₀)
    (hremote : s.remoteEndStreamReceived = s₀.remoteEndStreamReceived) :
    Ledger id fair t (t.set s) [] := by
  have hkeys : (t.set s).keys = t.keys := KeyedTable.keys_set t s
  refine ⟨rfl, ?_, fun _ => ?_⟩
  · rw [closings_nil, Nat.zero_add, live_congr hkeys]
  · rw [outcomes_nil, Nat.zero_add, pending, KeyedTable.find?_set_of_find? hfind rfl, pending]
    by_cases hid : id = s.streamId
    · rw [if_pos hid, hid, hfind]
      simp only [hremote]
    · rw [if_neg hid]

/-- The windows of the streams are adjusted. -/
theorem sameButWindows (h : SameButWindows t t') : Ledger id fair t t' [] := by
  refine ⟨rfl, ?_, fun _ => ?_⟩
  · rw [closings_nil, Nat.zero_add, live_congr h.1]
  · obtain ⟨outflow, heq⟩ := h.2 id
    rw [outcomes_nil, Nat.zero_add, pending, pending, heq]
    cases t.find? id with
    | none => rfl
    | some s => rfl

/-- A stream leaves the table with one STREAM_CLOSED, and with an outcome if one is pending. -/
theorem erase (hfind : t.find? k = some s) (hopen : Chttp2.openings id a = 0)
    (hclose : Chttp2.closings id a = if id = k then 1 else 0)
    (houtcome : fair → Chttp2.outcomes id a =
      if id = k then (if s.remoteEndStreamReceived = true then 0 else 1) else 0) :
    Ledger id fair t (t.erase k) a := by
  refine ⟨hopen, ?_, fun hf => ?_⟩
  · rw [hclose]
    by_cases hid : id = k
    · rw [hid, if_pos rfl, live_of_find? hfind, live_of_find?_none (KeyedTable.find?_erase_self t k)]
    · have hmem : id ∈ (t.erase k).keys ↔ id ∈ t.keys := by simp [hid]
      simp only [if_neg hid, Nat.zero_add, live, hmem]
  · rw [houtcome hf]
    by_cases hid : id = k
    · rw [hid, if_pos rfl, pending_of_find? hfind,
        pending_of_find?_none (KeyedTable.find?_erase_self t k), Nat.add_zero]
    · rw [if_neg hid, Nat.zero_add, pending, KeyedTable.find?_erase_ne t hid, pending]

/-- A stream is failed whose response is pending. -/
theorem failed (code : ErrorCode) (hfind : t.find? k = some s)
    (hremote : fair → id = k → s.remoteEndStreamReceived = false) :
    Ledger id fair t (t.erase k) (failureEvents code k) := by
  refine erase hfind rfl ?_ fun hf => ?_
  · by_cases hid : id = k
    · simp [Chttp2.closings, failureEvents, ProtocolEvent.closes, hid]
    · simp [Chttp2.closings, failureEvents, ProtocolEvent.closes, hid, Ne.symm hid]
  · by_cases hid : id = k
    · simp [Chttp2.outcomes, failureEvents, ProtocolEvent.settles, hid, hremote hf hid]
    · simp [Chttp2.outcomes, failureEvents, ProtocolEvent.settles, hid, Ne.symm hid]

/-- Live streams are failed one after the other. -/
theorem failedAll (code : ErrorCode) (ids : List StreamId) :
    ∀ {t : StreamTable}, ids.Nodup → (∀ k ∈ ids, k ∈ t.keys) →
      (fair → id ∈ ids → ∀ s, t.find? id = some s → s.remoteEndStreamReceived = false) →
      Ledger id fair t (t.eraseAll ids) (ids.flatMap (failureEvents code)) := by
  induction ids with
  | nil => exact fun _ _ _ => .refl id fair _
  | cons k ids ih =>
    intro t hnd hlive hremote
    obtain ⟨hnot, hnd⟩ := List.nodup_cons.1 hnd
    obtain ⟨s, hfind⟩ := KeyedTable.mem_keys_iff_find?.1 (hlive k List.mem_cons_self)
    refine (failed code hfind fun hf hid => ?_).trans (ih hnd (fun j hj => ?_) fun hf hid u hu => ?_)
    · subst hid
      exact hremote hf List.mem_cons_self s hfind
    · have hne : j ≠ k := fun h => hnot (h ▸ hj)
      simpa [hne] using hlive j (List.mem_cons_of_mem k hj)
    · have hne : id ≠ k := fun h => hnot (h ▸ hid)
      rw [KeyedTable.find?_erase_ne t hne] at hu
      exact hremote hf (List.mem_cons_of_mem k hid) u hu

/-- All streams are failed. -/
theorem failedEverything (code : ErrorCode)
    (hremote : fair → ∀ s, t.find? id = some s → s.remoteEndStreamReceived = false) :
    Ledger id fair t .empty (t.keys.flatMap (failureEvents code)) := by
  have h : Ledger id fair t (t.eraseAll t.keys) (t.keys.flatMap (failureEvents code)) :=
    failedAll code t.keys t.nodup_keys (fun _ hk => hk) fun hf _ => hremote hf
  rwa [KeyedTable.eraseAll_keys] at h

end Ledger

section Steps

variable {id : StreamId} {fair : Prop} {p p' : ProtocolState} {s s₀ : Stream}
  {r : ProtocolStepResult} {f : RawFrame}

theorem ledger_bodyStep (hstep : BodyStep p s p' r) (hfind : p.streams.find? s.streamId = some s) :
    Ledger id fair p.streams p'.streams r.events := by
  cases hstep with
  | idle => exact .refl id fair _
  | partly n => exact .set (s := s.advanceBody n) hfind rfl
  | wholly n => exact .set (s := { s.advanceBody n with streamState := .halfClosedLocal }) hfind rfl
  | finished n frames hopen hsent hend hremote =>
    refine .erase hfind rfl ?_ fun _ => ?_
    · by_cases hid : id = s.streamId
      · simp [closings, ProtocolEvent.closes, hid]
      · simp [closings, ProtocolEvent.closes, hid, Ne.symm hid]
    · simp [outcomes, ProtocolEvent.settles, hremote]

theorem ledger_bodySteps {ids : List StreamId} (hsteps : BodySteps ids p p' r) :
    Ledger id fair p.streams p'.streams r.events := by
  induction hsteps with
  | nil => exact .refl id fair _
  | gone _ _ ih => exact ih
  | cons hfind hstep _ ih =>
    have hkey := KeyedTable.key_of_find? hfind
    rw [← hkey] at hfind
    exact (ledger_bodyStep hstep hfind).trans ih

/-- A frame leaves a stream whose response was pending. -/
theorem ledger_ending {b : Bool} (hend : Ending p s b p' r)
    (hfind : p.streams.find? s.streamId = some s₀)
    (hremote : s.remoteEndStreamReceived = s₀.remoteEndStreamReceived)
    (hpending : s₀.remoteEndStreamReceived = false) :
    Ledger id fair p.streams p'.streams r.events := by
  cases hend with
  | goesOn => exact .set hfind hremote
  | mismatch => exact .failed _ hfind fun _ _ => hpending
  | finished =>
    refine .erase hfind rfl ?_ fun _ => ?_
    · by_cases hid : id = s.streamId
      · simp [closings, ProtocolEvent.closes, hid]
      · simp [closings, ProtocolEvent.closes, hid, Ne.symm hid]
    · by_cases hid : id = s.streamId
      · simp [outcomes, ProtocolEvent.settles, hid, hpending]
      · simp [outcomes, ProtocolEvent.settles, hid, Ne.symm hid]
  | answered =>
    -- the stream stays in the table, but its response is no longer pending
    have hkeys : (p.streams.set s.answered).keys = p.streams.keys := KeyedTable.keys_set _ _
    refine ⟨rfl, ?_, fun _ => ?_⟩
    · exact (Nat.zero_add _).trans (live_congr hkeys)
    · show _ + pending id (p.streams.set s.answered) = _
      rw [pending, KeyedTable.find?_set_of_find? hfind (b := s.answered) rfl, pending]
      by_cases hid : id = s.streamId
      · rw [if_pos hid, hid, hfind]
        simp [outcomes, ProtocolEvent.settles, hpending, Stream.answered]
      · rw [if_neg hid]
        simp [outcomes, ProtocolEvent.settles, Ne.symm hid]

theorem ledger_blockStep {b : Bool} (hstep : BlockStep p s b p' r)
    (hfind : p.streams.find? s.streamId = some s₀)
    (hremote : s.remoteEndStreamReceived = s₀.remoteEndStreamReceived)
    (hpending : s₀.remoteEndStreamReceived = false) :
    Ledger id fair p.streams p'.streams r.events := by
  cases hstep with
  | tooLarge => exact .failed _ hfind fun _ _ => hpending
  | rejected => exact .failed _ hfind fun _ _ => hpending
  | informational headers cl =>
    have hset : Ledger id fair p.streams (p.streams.set (s.withInformational cl)) [] :=
      .set hfind hremote
    exact hset.snoc rfl
  | headers headers cl hd hsize hv hfinal hend =>
    exact .cons rfl (ledger_ending hend hfind hremote hpending :)
  | trailers headers cl hd hsize hv hfinal hconnect hend =>
    exact .cons rfl (ledger_ending hend hfind hremote hpending :)

/-- What fails a stream whose response is complete. -/
inductive Fails (p : ProtocolState) (id : StreamId) : Action → Prop
  | cancelled (code : ErrorCode) : Fails p id (.cancelStream id code)
  | closed : Fails p id .close
  | transportLost : Fails p id .onTransportClosed
  | connection {f : RawFrame} {code : ErrorCode} (h : Violation p f code) :
      Fails p id (.receiveFrame f)
  | frame {f : RawFrame}
      (ht : f.header.type = .data ∨ f.header.type = .headers ∨ f.header.type = .rstStream)
      (hid : f.header.streamId = id) : Fails p id (.receiveFrame f)
  | goAway {f : RawFrame} (ht : f.header.type = .goAway) (h : f.goAwayLastStreamId < id) :
      Fails p id (.receiveFrame f)
  | window {f : RawFrame} {s : Stream} (ht : f.header.type = .windowUpdate)
      (hid : f.header.streamId = id) (hfind : p.streams.find? id = some s)
      (h : f.windowIncrement = 0 ∨ s.outflow.add f.windowIncrement = none) :
      Fails p id (.receiveFrame f)

/-- A step does not fail a stream whose response is complete. -/
def Fair (p : ProtocolState) (a : Action) (id : StreamId) : Prop :=
  ∀ s, p.streams.find? id = some s → s.remoteEndStreamReceived = true → ¬ Fails p id a

/-- A stream that a fair step fails has a pending response. -/
theorem Fair.pending {a : Action} (h : Fair p a id) (hfind : p.streams.find? id = some s)
    (hfails : Fails p id a) : s.remoteEndStreamReceived = false := by
  by_contra hremote
  exact h s hfind (by simpa using hremote) hfails

/-- A stream that refuses no frame has a pending response. -/
theorem pending_of_not_refuses (h : ¬ s.Refuses) : s.remoteEndStreamReceived = false := by
  simpa using (not_or.1 h).2

/-- Every received frame balances the events of a stream. -/
theorem ProtocolState.FrameStep.ledger {clean : Prop} (hstep : FrameStep p f p' r)
    (hp : HeaderState clean p) (id : StreamId) :
    Ledger id (Fair p (.receiveFrame f) id) p.streams p'.streams r.events := by
  -- a stream that a DATA, HEADERS or RST_STREAM frame fails
  have hfailed : ∀ {s : Stream} (code : ErrorCode),
      (f.header.type = .data ∨ f.header.type = .headers ∨ f.header.type = .rstStream) →
      p.streams.find? f.header.streamId = some s →
      Ledger id (Fair p (.receiveFrame f) id) p.streams (p.streams.erase s.streamId)
        (failureEvents code f.header.streamId) := by
    intro s code ht hfind
    rw [KeyedTable.key_of_find? hfind]
    refine .failed code hfind fun hfair hid => ?_
    rw [← hid] at hfind
    exact hfair.pending hfind (.frame ht hid.symm)
  cases hstep with
  | reported h =>
    refine .neutral ?_
    cases h <;> simp [ProtocolEvent.neutral]
  | @connectionFailed p₁ _ code _ _ hv hd hpre =>
    have hall : Ledger id (Fair p (.receiveFrame f) id) p.streams .empty
        (p₁.streams.keys.flatMap (failureEvents code)) := by
      rw [hd.keys]
      exact .failedEverything code fun hfair s hfind => hfair.pending hfind (.connection hv)
    refine .trans (.neutral ?_) (.trans (.trans (.neutral ?_) hall) (.neutral ?_))
    · rcases hpre with rfl | ⟨promised, rfl⟩ <;> simp [ProtocolEvent.neutral]
    · split <;> simp [ProtocolEvent.neutral]
    · simp [ProtocolEvent.neutral]
  | dataRefused s ht hfind => exact hfailed _ (Or.inl ht) hfind
  | dataOnRemoved => exact .refl id _ _
  | dataOnBodiless s ht hfind => exact hfailed _ (Or.inl ht) hfind
  | dataStored s ht hfind hopen hfinal htake hbody hend =>
    have hkey := KeyedTable.key_of_find? hfind
    rw [← hkey] at hfind
    exact (ledger_ending hend hfind rfl (pending_of_not_refuses hopen) :)
  | headersRefused s ht hfind => exact hfailed _ (Or.inr (Or.inl ht)) hfind
  | ghostHeaders => exact .refl id _ _
  | ghostHeadersOpen => exact .refl id _ _
  | headersOpen s ht hfind hopen hend =>
    have hkey := KeyedTable.key_of_find? hfind
    rw [← hkey] at hfind
    exact .set (s := s.openBlock _ _) hfind rfl
  | headersBlock s ht hfind hopen hend hblock =>
    have hkey := KeyedTable.key_of_find? hfind
    rw [← hkey] at hfind
    exact ledger_blockStep hblock hfind rfl (pending_of_not_refuses hopen)
  | streamReset s code ht hfind =>
    exact .cons rfl (hfailed code (Or.inr (Or.inr ht)) hfind)
  | settingsApplied ht hack happ hbodies =>
    have htuned : Ledger id (Fair p (.receiveFrame f) id) p.streams _ [] :=
      .sameButWindows (tuned_of_settings happ).streams
    exact (htuned.trans (ledger_bodySteps hbodies)).snoc rfl
  | goAway ht hg =>
    refine .cons rfl (.failedAll _ _ (p.streams.nodup_keys.filter _)
      (fun k hk => (List.mem_filter.1 hk).1) ?_)
    intro hfair hmem s hfind
    exact hfair.pending hfind (.goAway ht (by simpa using (List.mem_filter.1 hmem).2))
  | connectionWindow ht hid hadd hbodies =>
    exact .cons rfl (ledger_bodySteps hbodies :)
  | windowRefused s ht hid hfind h =>
    rw [show (p.removeStream s).streams = p.streams.erase f.header.streamId by
      rw [removeStream, KeyedTable.key_of_find? hfind]]
    refine .failed _ hfind fun hfair heq => ?_
    rw [← heq] at hfind
    exact hfair.pending hfind (.window ht heq.symm hfind h)
  | @streamWindow s outflow _ _ ht hid hfind hadd hbody =>
    have hkey := KeyedTable.key_of_find? hfind
    have hset : Ledger id (Fair p (.receiveFrame f) id) p.streams
        (p.streams.set (s.withOutflow outflow)) [] := by
      rw [← hkey] at hfind
      exact .set (s := s.withOutflow outflow) hfind rfl
    have hfound : (p.streams.set (s.withOutflow outflow)).find? s.streamId =
        some (s.withOutflow outflow) :=
      (KeyedTable.find?_set_of_find? hfind (b := s.withOutflow outflow) hkey _).trans (if_pos hkey)
    exact .cons rfl (hset.trans (ledger_bodyStep hbody hfound))
  | ghostContinuationOpen => exact .refl id _ _
  | ghostContinuation => exact .refl id _ _
  | continuationOpen s ht hexp hid hfind =>
    have hkey := KeyedTable.key_of_find? hfind
    rw [← hkey] at hfind
    exact .set (s := s.withFragment _) hfind rfl
  | continuationBlock s ht hexp hid hfind hend hblock =>
    -- the stream has waited for this frame, so its peer has not ended it
    have hkey := KeyedTable.key_of_find? hfind
    have hok := hp.streams.find hfind
    have hpending := hok.remote (hok.waiting.2 ⟨hexp, hid.trans hkey.symm⟩)
    rw [← hkey] at hfind
    exact (ledger_blockStep hblock hfind rfl hpending :)

/-! ## All steps -/

/-- The events of a step, balanced against the states before and after it. -/
structure Account (id : StreamId) (fair : Prop) (p p' : ProtocolState)
    (events : List ProtocolEvent) : Prop where
  openings : openings id events + opened id p = opened id p'
  closings : closings id events + live id p'.streams =
    Chttp2.openings id events + live id p.streams
  outcomes : fair → outcomes id events + pending id p'.streams =
    Chttp2.openings id events + pending id p.streams

/-- A step that gives out no id. -/
theorem Ledger.account {events : List ProtocolEvent}
    (h : Ledger id fair p.streams p'.streams events)
    (hnext : p'.nextStreamId = p.nextStreamId) : Account id fair p p' events := by
  refine ⟨?_, ?_, fun hf => ?_⟩
  · rw [h.openings, Nat.zero_add, opened, opened, hnext]
  · rw [h.openings, Nat.zero_add, h.closings]
  · rw [h.openings, Nat.zero_add, h.outcomes hf]

/-- The next id is the first that has not been opened. -/
theorem opened_next (hodd : p.nextStreamId % 2 = 1)
    (hnext : p'.nextStreamId = p.nextStreamId + 2) (id : StreamId) :
    opened id p' = (if id = p.nextStreamId then 1 else 0) + opened id p := by
  have h : ∀ n i : Nat, n % 2 = 1 → (if i % 2 = 1 ∧ i < n + 2 then 1 else 0) =
      (if i = n then 1 else 0) + (if i % 2 = 1 ∧ i < n then 1 else 0) := by
    intro n i hn
    split <;> split <;> split <;> omega
  rw [opened, hnext]
  exact h p.nextStreamId id hodd

theorem account_opened {request : Request} {rehash : Reorder Stream} (htidy : p.Tidy)
    (hbody : BodyStep ((p.opening request rehash).putStream (p.openedStream request))
      (p.openedStream request) p' r) (id : StreamId) :
    Account id fair p p' (.streamOpened p.nextStreamId :: r.events) := by
  have hlookup := find?_opening p request rehash
  have hself : ((p.opening request rehash).putStream (p.openedStream request)).streams.find?
      (p.openedStream request).streamId = some (p.openedStream request) :=
    (hlookup _).trans (if_pos rfl)
  have h : Ledger id fair _ p'.streams r.events := ledger_bodyStep hbody hself
  have hnew : p.streams.find? p.nextStreamId = none := by
    rw [KeyedTable.find?_eq_none_iff]
    exact fun hmem => absurd (htidy.lt_next _ hmem) (lt_irrefl _)
  have hopen : openings id (.streamOpened p.nextStreamId :: r.events) =
      if id = p.nextStreamId then 1 else 0 := by
    have hcount : openings id [.streamOpened p.nextStreamId] =
        if id = p.nextStreamId then 1 else 0 := by
      simp [openings, ProtocolEvent.opens, eq_comm]
    rw [← List.singleton_append, openings_append, hcount, h.openings, Nat.add_zero]
  have hclose : closings id (.streamOpened p.nextStreamId :: r.events) = closings id r.events :=
    List.countP_cons_of_neg Bool.false_ne_true
  have houtcome : outcomes id (.streamOpened p.nextStreamId :: r.events) =
      outcomes id r.events :=
    List.countP_cons_of_neg Bool.false_ne_true
  refine ⟨?_, ?_, fun hf => ?_⟩
  · rw [hopen, opened_next htidy.next_odd (steady_bodyStep hbody).nextStreamId]
  · rw [hclose, h.closings, hopen]
    by_cases hid : id = p.nextStreamId
    · rw [if_pos hid, hid, live_of_find? ((hlookup _).trans (if_pos rfl)), live_of_find?_none hnew]
    · simp only [live, mem_keys_opening, hid, false_or, if_false, Nat.zero_add]
  · rw [houtcome, h.outcomes hf, hopen, pending, hlookup]
    by_cases hid : id = p.nextStreamId
    · rw [if_pos hid, if_pos hid, hid, pending_of_find?_none hnew]
      rfl
    · rw [if_neg hid, if_neg hid, Nat.zero_add, pending]

/-- Every step balances the events of a stream. -/
theorem ProtocolState.ActionStep.account {clean : Prop} {a : Action}
    (hstep : ActionStep p a p' r) (htidy : p.Tidy)
    (hp : p.closed = true ∨ HeaderState clean p) (id : StreamId) :
    Account id (id ≠ 0 ∧ Fair p a id) p p' r.events := by
  cases hstep with
  | startedAgain => exact Ledger.account (.cons rfl (.refl _ _ _)) rfl
  | started => exact Ledger.account (.cons rfl (.refl _ _ _)) rfl
  | refused request rehash code =>
    refine Ledger.account ⟨rfl, Nat.zero_add _, fun hfair => ?_⟩ rfl
    -- a refused request is reported on stream 0
    have hzero : outcomes id [.responseFailed 0 code] = 0 := by
      simp [outcomes, ProtocolEvent.settles, hfair.1.symm]
    rw [hzero, Nat.zero_add]
  | opened request rehash hcan hvalid hroom hpos hmax hbody => exact account_opened htidy hbody id
  | cancelIgnored => exact Ledger.account (.refl _ _ _) rfl
  | cancelled k code s hopen hfind =>
    refine Ledger.account ?_ rfl
    rw [show (p.removeStream s).streams = p.streams.erase k by
      rw [removeStream, KeyedTable.key_of_find? hfind]]
    refine .failed code hfind fun hfair heq => ?_
    subst heq
    exact hfair.2.pending hfind (.cancelled code)
  | pingIgnored => exact Ledger.account (.refl _ _ _) rfl
  | pinged => exact Ledger.account (.refl _ _ _) rfl
  | closedAgain => exact Ledger.account (.refl _ _ _) rfl
  | closed hopen =>
    refine Ledger.account (.trans (.trans (.neutral ?_) (.failedEverything _ ?_)) (.neutral ?_)) rfl
    · split <;> simp [ProtocolEvent.neutral]
    · exact fun hfair s hfind => hfair.2.pending hfind .closed
    · simp [ProtocolEvent.neutral]
  | transportLost hopen =>
    refine Ledger.account (.trans (.failedEverything _ ?_) (.neutral ?_)) rfl
    · exact fun hfair s hfind => hfair.2.pending hfind .transportLost
    · simp [ProtocolEvent.neutral]
  | transportLostAgain => exact Ledger.account (.cons rfl (.cons rfl (.refl _ _ _))) rfl
  | frameIgnored => exact Ledger.account (.refl _ _ _) rfl
  | frame f hopen hup h =>
    rcases hp with hclosed | hp
    · rw [hopen] at hclosed
      cases hclosed
    · exact ((h.ledger hp id).imp And.right).account h.steady.nextStreamId

end Steps

/-! ## Runs -/

section Runs

variable {config : ClientConfig} {tr : List Entry} {p : ProtocolState} {id : StreamId}

/-- STREAM_OPENED and STREAM_CLOSED along runs. -/
theorem openings_of_runs (h : Runs (ofConfig config) tr p) (id : StreamId) :
    openings id (eventsOf tr) = opened id p ∧
      closings id (eventsOf tr) + live id p.streams = openings id (eventsOf tr) := by
  refine runs_invariant (I := fun tr p => openings id (eventsOf tr) = opened id p ∧
    closings id (eventsOf tr) + live id p.streams = openings id (eventsOf tr)) ?_ ?_ h
  · refine ⟨(if_neg ?_).symm, rfl⟩
    rintro ⟨hodd, hlt⟩
    rw [Nat.lt_one_iff.1 hlt] at hodd
    cases hodd
  · intro tr p a p' r hr hI hstep
    have hstep' := hstep.account (tidy_of_runs hr) (headerState_of_runs hr) id
    simp only [eventsOf_append, eventsOf_cons, eventsOf_nil, List.append_nil, openings_append,
      closings_append]
    refine ⟨?_, ?_⟩
    · rw [hI.1, Nat.add_comm, hstep'.openings]
    · have hc := hstep'.closings
      omega

/-- The outcomes along runs that fail no stream whose response is complete. -/
theorem outcomes_of_runs (h : Runs (ofConfig config) tr p) (hid : id ≠ 0)
    (hfair : ∀ e ∈ tr, Fair e.pre e.input id) :
    outcomes id (eventsOf tr) + pending id p.streams = openings id (eventsOf tr) := by
  refine runs_invariant_of (C := fun e => Fair e.pre e.input id)
    (I := fun tr p => outcomes id (eventsOf tr) + pending id p.streams =
      openings id (eventsOf tr)) rfl ?_ h hfair
  intro tr p a p' r hr hI hC hstep
  have hstep' := hstep.account (tidy_of_runs hr) (headerState_of_runs hr) id
  have ho := hstep'.outcomes ⟨hid, hC⟩
  simp only [eventsOf_append, eventsOf_cons, eventsOf_nil, List.append_nil, openings_append,
    outcomes_append]
  omega

/-- A stream is opened at most once, and never stream 0. -/
theorem openings_eq_one (h : Runs (ofConfig config) tr p)
    (hopen : .streamOpened id ∈ eventsOf tr) : id ≠ 0 ∧ openings id (eventsOf tr) = 1 := by
  have hpos : 0 < openings id (eventsOf tr) := List.countP_pos_iff.2 ⟨_, hopen, by
    simp [ProtocolEvent.opens]⟩
  have heq := (openings_of_runs h id).1
  rw [heq, opened] at hpos ⊢
  split at hpos
  · rename_i hodd
    rw [if_pos hodd]
    refine ⟨?_, rfl⟩
    rintro rfl
    cases hodd.1
  · cases hpos

/-- A closed connection has given every opened stream exactly one outcome, unless a step has failed
the stream after its response was complete. -/
theorem exactly_one_outcome (h : Runs (ofConfig config) tr p)
    (hfair : ∀ e ∈ tr, Fair e.pre e.input id) (hclosed : p.closed = true)
    (hopen : .streamOpened id ∈ eventsOf tr) : outcomes id (eventsOf tr) = 1 := by
  obtain ⟨hid, hone⟩ := openings_eq_one h hopen
  have hnone : p.streams.find? id = none := by
    rw [KeyedTable.find?_eq_none_iff, (tidy_of_runs h).closed hclosed]
    exact List.not_mem_nil
  rw [← hone, ← outcomes_of_runs h hid hfair, pending_of_find?_none hnone, Nat.add_zero]

end Runs

/-- Steps from states without half-ended streams are fair. -/
theorem fair_of_pending {p : ProtocolState} {a : Action} {id : StreamId}
    (h : ∀ s ∈ p.streams.entries, s.remoteEndStreamReceived = false) : Fair p a id := by
  intro s hfind hremote
  rw [h s (KeyedTable.mem_of_find? hfind)] at hremote
  cases hremote

/-- A request is answered and another one cancelled before the connection is closed. -/
theorem exactly_one_outcome_of_two_requests :
    ∃ tr p, Runs (ofConfig {}) tr p ∧ p.closed = true ∧
      outcomes 1 (eventsOf tr) = 1 ∧ outcomes 3 (eventsOf tr) = 1 := by
  have hrun : (Machine.run act (ofConfig {}) [.start, .receiveFrame emptySettingsFrame,
      .submitRequest getRequest (.id _), .submitRequest postRequest (.id _),
      .receiveFrame (okResponseFrame 5), .cancelStream 3 .cancel, .close]).map
        (fun x => (x.1.closed, decide (.streamOpened 1 ∈ eventsOf x.2),
          decide (.streamOpened 3 ∈ eventsOf x.2),
          x.2.all fun e => e.pre.streams.entries.all fun s => !s.remoteEndStreamReceived)) =
      .ok (true, true, true, true) := by decide +kernel
  obtain ⟨p, tr, hr, -, hresult⟩ := Machine.exists_runs_of_map hrun
  simp only [Prod.mk.injEq, decide_eq_true_eq] at hresult
  obtain ⟨hclosed, h1, h3, hall⟩ := hresult
  have hfair : ∀ id, ∀ e ∈ tr, Fair e.pre e.input id := by
    intro id e he
    refine fair_of_pending fun s hs => ?_
    simpa using List.all_eq_true.1 (List.all_eq_true.1 hall e he) s hs
  exact ⟨tr, p, hr, hclosed, exactly_one_outcome hr (hfair 1) hclosed h1,
    exactly_one_outcome hr (hfair 3) hclosed h3⟩

/-- A request whose body is held back by the peer's window is answered, and then reset: its response
is reported as complete and as failed. -/
theorem completed_then_failed :
    ∃ tr p, Runs (ofConfig {}) tr p ∧ p.closed = true ∧ .streamOpened 1 ∈ eventsOf tr ∧
      (∃ resp, .responseCompleted 1 resp ∈ eventsOf tr) ∧
      (∃ code, .responseFailed 1 code ∈ eventsOf tr) ∧ outcomes 1 (eventsOf tr) = 2 := by
  have hrun : (Machine.run act (ofConfig {}) [.start, .receiveFrame (settingsFrame 4 0),
      .submitRequest postRequest (.id _), .receiveFrame (okResponseFrame 5),
      .receiveFrame resetFrame, .close]).map
        (fun x => (x.1.closed, decide (.streamOpened 1 ∈ eventsOf x.2),
          decide (.responseCompleted 1 okResponse ∈ eventsOf x.2),
          decide (.responseFailed 1 .noError ∈ eventsOf x.2), outcomes 1 (eventsOf x.2))) =
      .ok (true, true, true, true, 2) := by decide +kernel
  obtain ⟨p, tr, hr, -, hresult⟩ := Machine.exists_runs_of_map hrun
  simp only [Prod.mk.injEq, decide_eq_true_eq] at hresult
  exact ⟨tr, p, hr, hresult.1, hresult.2.1, ⟨_, hresult.2.2.1⟩, ⟨_, hresult.2.2.2.1⟩,
    hresult.2.2.2.2⟩

end Chttp2
