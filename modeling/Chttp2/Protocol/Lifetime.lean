import Chttp2.Protocol.Sound

/-!
# Stream ids along runs

A received frame never adds a stream (`FrameStep.noNewStreams`). Hence the streams of a reached state
have odd ids below `nextStreamId`, and a closed connection has no streams (`tidy_of_runs`).
-/

set_option autoImplicit false

namespace Chttp2

namespace ProtocolState

variable {p p' : ProtocolState} {s : Stream} {r : ProtocolStepResult}

/-! ## Steps that add no stream -/

/-- Every stream of `t'` has the id of a stream of `t`. -/
def NoNewStreams (t t' : StreamTable) : Prop := ∀ id ∈ t'.keys, id ∈ t.keys

theorem NoNewStreams.refl (t : StreamTable) : NoNewStreams t t := fun _ h => h

theorem NoNewStreams.trans {t t' t'' : StreamTable} (h : NoNewStreams t t')
    (h' : NoNewStreams t' t'') : NoNewStreams t t'' :=
  fun id hid => h id (h' id hid)

theorem noNewStreams_set (t : StreamTable) (s : Stream) : NoNewStreams t (t.set s) := by
  intro id hid
  rwa [KeyedTable.keys_set] at hid

theorem noNewStreams_erase (t : StreamTable) (id : StreamId) : NoNewStreams t (t.erase id) :=
  fun _ hk => KeyedTable.keys_erase_subset t id hk

theorem noNewStreams_eraseAll (t : StreamTable) (ids : List StreamId) :
    NoNewStreams t (t.eraseAll ids) :=
  fun _ hk => (KeyedTable.mem_keys_eraseAll.1 hk).1

theorem noNewStreams_empty (t : StreamTable) : NoNewStreams t .empty :=
  fun _ h => (List.not_mem_nil h).elim

theorem noNewStreams_bodyStep (h : BodyStep p s p' r) : NoNewStreams p.streams p'.streams := by
  cases h with
  | idle => exact .refl _
  | partly => exact noNewStreams_set _ _
  | wholly => exact noNewStreams_set _ _
  | finished => exact noNewStreams_erase _ _

theorem noNewStreams_bodySteps {ids : List StreamId} (h : BodySteps ids p p' r) :
    NoNewStreams p.streams p'.streams := by
  induction h with
  | nil => exact .refl _
  | gone _ _ ih => exact ih
  | cons _ hstep _ ih => exact (noNewStreams_bodyStep hstep).trans ih

theorem noNewStreams_ending {b : Bool} (h : Ending p s b p' r) :
    NoNewStreams p.streams p'.streams := by
  cases h with
  | goesOn => exact noNewStreams_set _ _
  | mismatch => exact noNewStreams_erase _ _
  | finished => exact noNewStreams_erase _ _
  | answered => exact noNewStreams_set _ _

theorem BlockStep.noNewStreams {b : Bool} (h : BlockStep p s b p' r) :
    NoNewStreams p.streams p'.streams := by
  cases h with
  | tooLarge => exact noNewStreams_erase _ _
  | rejected => exact noNewStreams_erase _ _
  | informational => exact noNewStreams_set _ _
  | headers headers cl hd hsize hv hfinal hend =>
    exact (noNewStreams_ending hend :)
  | trailers headers cl hd hsize hv hfinal hconnect hend =>
    exact (noNewStreams_ending hend :)

theorem FrameStep.noNewStreams {f : RawFrame} (h : FrameStep p f p' r) :
    NoNewStreams p.streams p'.streams := by
  cases h with
  | reported => exact .refl _
  | connectionFailed => exact noNewStreams_empty _
  | dataRefused => exact noNewStreams_erase _ _
  | dataOnRemoved => exact .refl _
  | dataOnBodiless => exact noNewStreams_erase _ _
  | dataStored s ht hfind hopen hfinal htake hbody hend =>
    exact (noNewStreams_ending hend :)
  | headersRefused => exact noNewStreams_erase _ _
  | ghostHeaders => exact .refl _
  | ghostHeadersOpen => exact .refl _
  | headersOpen => exact noNewStreams_set _ _
  | headersBlock s ht hfind hopen hend h => exact h.noNewStreams
  | streamReset => exact noNewStreams_erase _ _
  | @settingsApplied p₁ _ _ ht hack h hbodies =>
    have htuned := tuned_of_settings h
    have hkeys : p₁.streams.keys = p.streams.keys := htuned.streams.1
    intro id hid
    rw [← hkeys]
    exact noNewStreams_bodySteps hbodies id hid
  | goAway => exact noNewStreams_eraseAll _ _
  | connectionWindow ht hid hadd hbodies =>
    exact (noNewStreams_bodySteps hbodies :)
  | windowRefused => exact noNewStreams_erase _ _
  | streamWindow s ht hid hfind hadd hbody =>
    exact (noNewStreams_set _ _).trans (noNewStreams_bodyStep hbody)
  | ghostContinuationOpen => exact .refl _
  | ghostContinuation => exact .refl _
  | continuationOpen => exact noNewStreams_set _ _
  | continuationBlock s ht hexp hid hfind hend h =>
    exact (h.noNewStreams :)

/-! ## Steps that keep the connection open -/

/-- A frame that closes the connection leaves no streams. -/
theorem FrameStep.closed_cases {f : RawFrame} (h : FrameStep p f p' r) :
    p'.closed = p.closed ∨ p'.streams = .empty := by
  cases h with
  | connectionFailed => exact Or.inr rfl
  | dataStored s ht hfind hopen hfinal htake hbody hend =>
    exact Or.inl (congrArg ProtocolState.closed hend.eq_with :)
  | headersBlock s ht hfind hopen hend h =>
    exact Or.inl (congrArg ProtocolState.closed h.eq_with :)
  | @settingsApplied p₁ _ _ ht hack h hbodies =>
    have htuned := tuned_of_settings h
    have hclosed : p₁.closed = p.closed := (congrArg ProtocolState.closed htuned.eq :)
    exact Or.inl ((congrArg ProtocolState.closed hbodies.eq_with :).trans hclosed)
  | connectionWindow ht hid hadd hbodies =>
    exact Or.inl (congrArg ProtocolState.closed hbodies.eq_with :)
  | streamWindow s ht hid hfind hadd hbody =>
    exact Or.inl (congrArg ProtocolState.closed hbody.eq_with :)
  | continuationBlock s ht hexp hid hfind hend h =>
    exact Or.inl (congrArg ProtocolState.closed h.eq_with :)
  | _ => exact Or.inl rfl

/-! ## Tidy states -/

/-- The ids of the streams are odd and have been given out, and a closed connection has no
streams. -/
structure Tidy (p : ProtocolState) : Prop where
  next_odd : p.nextStreamId % 2 = 1
  odd : ∀ id ∈ p.streams.keys, id % 2 = 1
  lt_next : ∀ id ∈ p.streams.keys, id < p.nextStreamId
  closed : p.closed = true → p.streams.keys = []

theorem Tidy.of_subset (hp : p.Tidy) (hkeys : NoNewStreams p.streams p'.streams)
    (hnext : p'.nextStreamId = p.nextStreamId)
    (hclosed : p'.closed = p.closed ∨ p'.streams = .empty) : p'.Tidy where
  next_odd := hnext ▸ hp.next_odd
  odd id hid := hp.odd id (hkeys id hid)
  lt_next id hid := hnext ▸ hp.lt_next id (hkeys id hid)
  closed h := by
    rcases hclosed with heq | hempty
    · have hnone := hp.closed (heq ▸ h)
      refine List.eq_nil_iff_forall_not_mem.2 fun id hid => ?_
      have hmem := hkeys id hid
      rw [hnone] at hmem
      exact List.not_mem_nil hmem
    · rw [hempty]
      rfl

theorem canSubmitRequests_open (h : p.canSubmitRequests = true) : p.closed = false := by
  simp only [canSubmitRequests, Bool.and_eq_true, Bool.not_eq_true'] at h
  exact h.1.1.2

/-- A closed connection stays closed. -/
theorem ActionStep.closed_of_closed {a : Action} (h : ActionStep p a p' r)
    (hclosed : p.closed = true) : p'.closed = true := by
  have hcontra : p.closed = false → p'.closed = true := fun hopen => by
    rw [hclosed] at hopen
    cases hopen
  cases h with
  | opened request rehash hcan => exact hcontra (canSubmitRequests_open hcan)
  | pinged frame hid hopen => exact hcontra hopen
  | frame f hopen => exact hcontra hopen
  | closed => rfl
  | transportLost => rfl
  | transportLostAgain => rfl
  | _ => exact hclosed

theorem ActionStep.open_of_open {a : Action} (h : ActionStep p a p' r)
    (hopen : p'.closed = false) : p.closed = false := by
  by_contra hclosed
  rw [h.closed_of_closed (by simpa using hclosed)] at hopen
  cases hopen

/-- Ids are given out in order. -/
theorem ActionStep.next_le {a : Action} (h : ActionStep p a p' r) :
    p.nextStreamId ≤ p'.nextStreamId := by
  cases h with
  | opened request rehash hcan hvalid hroom hpos hmax hbody =>
    rw [(steady_bodyStep hbody).nextStreamId]
    exact Nat.le_add_right p.nextStreamId 2
  | frame f hopen hup h => exact h.steady.nextStreamId.ge
  | _ => exact Nat.le_refl _

theorem mem_keys_opening {request : Request} {rehash : Reorder Stream} {id : StreamId} :
    id ∈ ((p.opening request rehash).putStream (p.openedStream request)).streams.keys ↔
      id = p.nextStreamId ∨ id ∈ p.streams.keys := by
  rw [keys_putStream]
  exact KeyedTable.mem_keys_insert

theorem Tidy.opening (hp : p.Tidy) (request : Request) (rehash : Reorder Stream)
    (hopen : p.closed = false) :
    ((p.opening request rehash).putStream (p.openedStream request)).Tidy where
  next_odd := (Nat.add_mod_right p.nextStreamId 2).trans hp.next_odd
  odd id hid := by
    rcases mem_keys_opening.1 hid with rfl | hid
    · exact hp.next_odd
    · exact hp.odd id hid
  lt_next id hid := by
    rcases mem_keys_opening.1 hid with rfl | hid
    · exact Nat.lt_add_of_pos_right (by decide : 0 < 2)
    · exact Nat.lt_add_right 2 (hp.lt_next id hid)
  closed h := by
    have h' : p.closed = true := h
    rw [hopen] at h'
    cases h'

theorem ActionStep.tidy {a : Action} (h : ActionStep p a p' r) (hp : p.Tidy) : p'.Tidy := by
  cases h with
  | startedAgain => exact hp
  | started => exact ⟨hp.1, hp.2, hp.3, hp.4⟩
  | refused => exact hp
  | opened request rehash hcan hvalid hroom hpos hmax hbody =>
    exact (hp.opening request rehash (canSubmitRequests_open hcan)).of_subset
      (noNewStreams_bodyStep hbody) (steady_bodyStep hbody).nextStreamId
      (Or.inl (congrArg ProtocolState.closed hbody.eq_with :))
  | cancelIgnored => exact hp
  | cancelled => exact hp.of_subset (noNewStreams_erase _ _) rfl (Or.inl rfl)
  | pingIgnored => exact hp
  | pinged => exact ⟨hp.1, hp.2, hp.3, hp.4⟩
  | closedAgain => exact hp
  | closed => exact hp.of_subset (noNewStreams_empty _) rfl (Or.inr rfl)
  | transportLost => exact hp.of_subset (noNewStreams_empty _) rfl (Or.inr rfl)
  | transportLostAgain h => exact ⟨hp.1, hp.2, hp.3, fun _ => hp.4 h⟩
  | frameIgnored => exact hp
  | frame f hopen hup h => exact hp.of_subset h.noNewStreams h.steady.nextStreamId h.closed_cases

/-- A connection that has lost its transport is closed. -/
theorem ActionStep.closed_of_transportClosed {a : Action} (hstep : ActionStep p a p' r)
    (hp : p.transportClosed = true → p.closed = true) (h : p'.transportClosed = true) :
    p'.closed = true := by
  cases hstep with
  | opened request rehash hcan hvalid hroom hpos hmax hbody =>
    rw [(steady_bodyStep hbody).transportClosed] at h
    rw [hbody.eq_with]
    exact hp h
  | closed => rfl
  | transportLost => rfl
  | transportLostAgain => rfl
  | frame f hopen hup hframe =>
    rw [hframe.steady.transportClosed, hup] at h
    cases h
  | _ => exact hp h

end ProtocolState

open ProtocolState in
/-- Induction along the runs whose last state is open: all states before it are open too. -/
theorem runs_invariant_open {config : ClientConfig} {tr : List Entry} {p : ProtocolState}
    {I : List Entry → ProtocolState → Prop} (h0 : I [] (ofConfig config))
    (hstep : ∀ tr p a p' r, Runs (ofConfig config) tr p → p.closed = false → I tr p →
      ActionStep p a p' r → p'.closed = false → I (tr ++ [⟨p, a, r⟩]) p')
    (h : Runs (ofConfig config) tr p) (hopen : p.closed = false) : I tr p := by
  refine runs_invariant (I := fun tr p => p.closed = false → I tr p) (fun _ => h0) ?_ h hopen
  intro tr p a p' r hr hI hact hopen
  have hwas : p.closed = false := hact.open_of_open hopen
  exact hstep tr p a p' r hr hwas (hI hwas) hact hopen

open ProtocolState in
theorem tidy_of_runs {config : ClientConfig} {tr : List Entry} {p : ProtocolState}
    (h : Runs (ofConfig config) tr p) : p.Tidy := by
  refine runs_invariant (I := fun _ p => p.Tidy) ?_ ?_ h
  · exact ⟨rfl, fun _ h => (List.not_mem_nil h).elim, fun _ h => (List.not_mem_nil h).elim,
      fun _ => rfl⟩
  · exact fun _ _ _ _ _ _ hp hstep => hstep.tidy hp

open ProtocolState in
theorem closed_of_lost_transport {config : ClientConfig} {tr : List Entry} {p : ProtocolState}
    (h : Runs (ofConfig config) tr p) :
    p.transportClosed = true → p.closed = true :=
  runs_invariant (I := fun _ p => p.transportClosed = true → p.closed = true)
    (fun h => by cases h) (fun _ _ _ _ _ _ hp hstep => hstep.closed_of_transportClosed hp) h

end Chttp2
