import Chttp2.Session.Agreement

/-!
# Failures while writing

When a write fails, `onWritable` gives up the contexts and drops the events that report them. The
connection of the session is closed from then on, and on a closed connection the owner is told
nothing that it does not ask for: no call returns SESSION_DEAD, and a context is only reported when
it is submitted again (`silent_of_shut`). So no failure of a write is ever reported,
`write_failure_unreported`.
-/

set_option autoImplicit false

namespace Chttp2

namespace Http2Session

variable {κ : Type} {s s' : Http2Session κ} {events : List (SessionEvent κ)}
  {writes : List WriteResult}

/-! ## A closed connection -/

/-- The connection of the session is closed. -/
def Shut (s : Http2Session κ) : Prop := s.protocol.state.closed = true

theorem Shut.isHealthy (h : s.Shut) : s.isHealthy = false := by
  unfold Http2Session.isHealthy
  rw [h]
  exact Bool.and_false _

/-- Neither starting nor closing a closed connection opens it again. -/
theorem closed_of_apply {p p' : Http2Protocol} {r : ProtocolStepResult} {op : Http2Protocol.Op}
    (hclosed : p.state.closed = true) (hop : op = .start ∨ op = .close)
    (h : p.apply op = .ok (p', r)) : p'.state.closed = true := by
  rcases hop with rfl | rfl
  · have hstart : (p.state.start).1.closed = true := by
      unfold ProtocolState.start
      split <;> exact hclosed
    rw [Http2Protocol.apply] at h
    cases h
    exact hstart
  · have hsame : p.state.close = (p.state, {}) := by
      rw [ProtocolState.close, if_pos hclosed]
    rw [Http2Protocol.apply, hsame] at h
    cases h
    exact hclosed

/-- No operation opens a closed connection, and none of them returns SESSION_DEAD. -/
theorem Shut.apply {op : Op κ} (h : s.Shut) (hop : s.apply op = .ok (s', events)) :
    s'.Shut ∧ .sessionDead ∉ events := by
  cases op with
  | start ready =>
    obtain ⟨⟨s₁, result⟩, hstart, hrest⟩ := bind_eq_ok.1 hop
    cases hrest
    rcases start_cases hstart with rfl | ⟨protocol, r, happly, rfl⟩
    · exact ⟨h, List.not_mem_nil⟩
    · exact ⟨closed_of_apply h (Or.inl rfl) happly, List.not_mem_nil⟩
  -- every other entry asks for a healthy session first
  | submit request context canceled finished rehash rehashContexts =>
    rw [Http2Session.apply, submit, if_pos (by simp [h.isHealthy])] at hop
    cases hop
    exact ⟨h, by simp⟩
  | cancelRequest streamId =>
    rw [Http2Session.apply, cancelRequest, if_pos (by simp [h.isHealthy])] at hop
    cases hop
    exact ⟨h, List.not_mem_nil⟩
  | sendPing =>
    rw [Http2Session.apply, sendPing, if_pos (by simp [h.isHealthy])] at hop
    cases hop
    exact ⟨h, List.not_mem_nil⟩
  | onReadable chunks last =>
    rw [Http2Session.apply, onReadable, if_pos (by simp [h.isHealthy])] at hop
    cases hop
    exact ⟨h, List.not_mem_nil⟩
  | onWritable writes =>
    rw [Http2Session.apply, onWritable, if_pos (by simp [h.isHealthy])] at hop
    cases hop
    exact ⟨h, List.not_mem_nil⟩
  | close =>
    rcases close_cases hop with ⟨rfl, rfl⟩ | ⟨protocol, r, happly, heq⟩
    · exact ⟨h, List.not_mem_nil⟩
    · obtain ⟨rfl, rfl⟩ := Prod.mk.inj heq
      refine ⟨closed_of_apply h (Or.inr rfl) happly, ?_⟩
      simp

/-- A session whose connection is closed and that has no context left reports nothing by itself:
neither that it is dead, nor a context that is not submitted again. -/
theorem silent_of_shut [DecidableEq κ] {later : List (Entry κ)} (h : s.Shut)
    (hempty : s.streamContexts = .empty) (hr : Machine.Runs apply s later s') :
    .sessionDead ∉ eventsOf later ∧ ∀ c, completions c (eventsOf later) ≤ submissionsOf c later := by
  have hinv : s'.Shut ∧ .sessionDead ∉ eventsOf later ∧ ∀ c,
      completions c (eventsOf later) + registrations c s'.streamContexts ≤
        submissionsOf c later := by
    refine hr.invariant (I := fun tr s => s.Shut ∧ .sessionDead ∉ eventsOf tr ∧ ∀ c,
      completions c (eventsOf tr) + registrations c s.streamContexts ≤ submissionsOf c tr) ?_ ?_
    · refine ⟨h, List.not_mem_nil, fun c => ?_⟩
      rw [hempty]
      exact le_rfl
    · rintro tr s op s' events - ⟨hshut, hdead, hbalance⟩ hop
      obtain ⟨hshut', hdead'⟩ := hshut.apply hop
      refine ⟨hshut', ?_, fun c => ?_⟩
      · simp only [eventsOf, List.flatMap_append, List.flatMap_singleton, List.mem_append]
        exact not_or.2 ⟨hdead, hdead'⟩
      · have hstep := completions_apply (c := c) hop
        have hbefore := hbalance c
        simp only [eventsOf, List.flatMap_append, List.flatMap_singleton, completions_append,
          submissionsOf, Machine.total_append, Machine.total_singleton] at hbefore ⊢
        omega
  exact ⟨hinv.2.1, fun c => (Nat.le_add_right _ _).trans (hinv.2.2 c)⟩

/-! ## A failing write -/

/-- The call returns nothing, and leaves a closed connection and no context. -/
theorem onWritable_of_failure (hhealthy : s.isHealthy = true)
    (hfails : writeLoop s.outbound writes = none) :
    ∃ s', s.onWritable writes = .ok s' ∧ s'.Shut ∧ s'.streamContexts = .empty := by
  have hflag : s.healthy = true := by
    simp only [isHealthy, Bool.and_eq_true] at hhealthy
    exact hhealthy.1.2
  obtain ⟨s', events, hfailure⟩ : ∃ s' events, s.handleTransportFailure = .ok (s', events) := by
    rw [handleTransportFailure, if_neg (by simp [hflag])]
    exact ⟨_, _, rfl⟩
  refine ⟨s', ?_, ?_⟩
  · rw [onWritable, if_neg (by simp [hhealthy]), hfails, hfailure]
    rfl
  · rcases handleTransportFailure_cases hfailure with ⟨hnot, -, -⟩ | ⟨-, protocol, r, happly, rfl, -⟩
    · rw [hflag] at hnot
      cases hnot
    · cases happly
      exact ⟨rfl, rfl⟩

section Reports

variable [DecidableEq κ] (s : Http2Session κ) (writes : List WriteResult)

/-- The owner calls `onWritable` with these write results, and then whatever it likes: `later` is the
rest of the run, and `reports` is what all its calls return. -/
def Continues (later : List (Entry κ)) (reports : List (SessionEvent κ)) : Prop :=
  ∃ events s', Machine.Runs apply s (⟨s, .onWritable writes, events⟩ :: later) s' ∧
    reports = events ++ eventsOf later

/-- The context is delivered: this call, or a later call of a run in which the context is not
submitted again, returns a REQUEST_DONE for it, and a SESSION_DEAD follows. -/
def Delivered (c : κ) : Prop :=
  ∃ later reports, Continues s writes later reports ∧ submissionsOf c later = 0 ∧
    ∃ response before after, reports = before ++ .requestDone c response :: after ∧
      .sessionDead ∈ after

/-- The failure is reported: every context that the call removes is delivered, and the owner learns
that the session is dead. -/
def FailureReported : Prop :=
  (∀ s', s.onWritable writes = .ok s' → ∀ id c, (id, c) ∈ s.streamContexts.entries →
    (id, c) ∉ s'.streamContexts.entries → Delivered s writes c) ∧
  ∃ later reports, Continues s writes later reports ∧ .sessionDead ∈ reports

end Reports

/-- After a failing write no call returns SESSION_DEAD, and no context is reported that is not
submitted again. -/
theorem Continues.silent [DecidableEq κ] {later : List (Entry κ)}
    (h : Continues s writes later events) (hhealthy : s.isHealthy = true)
    (hfails : writeLoop s.outbound writes = none) :
    .sessionDead ∉ events ∧ ∀ c, completions c events ≤ submissionsOf c later := by
  obtain ⟨returned, s'', hr, rfl⟩ := h
  obtain ⟨s', hwrite, hshut, hempty⟩ := onWritable_of_failure hhealthy hfails
  obtain ⟨s₁, hcall, hlater⟩ := hr.of_cons
  rw [apply, hwrite] at hcall
  cases hcall
  exact silent_of_shut hshut hempty hlater

/-- For every healthy session and every script of write results of which one that is reached is a
failure: the failure is not reported. Every context leaves the table of the session, and no later
call returns a REQUEST_DONE for it, let alone a SESSION_DEAD, unless it is submitted again. -/
theorem write_failure_unreported [DecidableEq κ] (s : Http2Session κ) (writes : List WriteResult)
    (hhealthy : s.isHealthy = true) (hfails : writeLoop s.outbound writes = none) :
    ¬ FailureReported s writes ∧ ∃ s', s.onWritable writes = .ok s' ∧
      ∀ id c, (id, c) ∈ s.streamContexts.entries → (id, c) ∉ s'.streamContexts.entries ∧
        ∀ later reports, Continues s writes later reports → submissionsOf c later = 0 →
          completions c reports = 0 ∧ .sessionDead ∉ reports := by
  refine ⟨fun hreported => ?_, ?_⟩
  · obtain ⟨later, reports, hcalls, hdead⟩ := hreported.2
    exact (hcalls.silent hhealthy hfails).1 hdead
  · obtain ⟨s', hwrite, -, hempty⟩ := onWritable_of_failure hhealthy hfails
    refine ⟨s', hwrite, fun id c _ => ⟨?_, fun later reports hcalls hnone => ?_⟩⟩
    · rw [hempty]
      exact List.not_mem_nil
    · obtain ⟨hdead, hreports⟩ := hcalls.silent hhealthy hfails
      exact ⟨Nat.eq_zero_of_le_zero (hnone ▸ hreports c), hdead⟩

/-- A session with a request, whose first write fails. -/
theorem exists_failing_write : ∃ tr, ∃ s : Http2Session Nat, Machine.Runs apply (.ofConfig {}) tr s ∧
    s.isHealthy = true ∧ writeLoop s.outbound [.closed] = none ∧
    s.streamContexts.entries = [(1, 7)] := by
  have hrun : (Machine.run apply (.ofConfig {}) [.start true,
      .submit getRequest (7 : Nat) false false (.id _) (.id _)]).map
        (fun x => (x.1.isHealthy, writeLoop x.1.outbound [.closed], x.1.streamContexts.entries)) =
      .ok (true, none, [(1, 7)]) := by decide +kernel
  obtain ⟨s, tr, hr, -, hresult⟩ := Machine.exists_runs_of_map hrun
  simp only [Prod.mk.injEq] at hresult
  exact ⟨tr, s, hr, hresult⟩

/-- The first write fails while a request is outstanding. -/
theorem write_failure_unreported_of_request :
    ∃ tr, ∃ s : Http2Session Nat, Machine.Runs apply (.ofConfig {}) tr s ∧
      (1, 7) ∈ s.streamContexts.entries ∧ ¬ FailureReported s [.closed] := by
  obtain ⟨tr, s, hr, hhealthy, hfails, hentries⟩ := exists_failing_write
  exact ⟨tr, s, hr, by simp [hentries], (write_failure_unreported s [.closed] hhealthy hfails).1⟩

/-- A request is outstanding when the first write fails: its context leaves the table of the session,
and neither this call nor a later one delivers it. -/
theorem request_lost_at_write_failure :
    ∃ tr, ∃ s s' : Http2Session Nat, Machine.Runs apply (.ofConfig {}) tr s ∧
      s.isHealthy = true ∧ s.onWritable [.closed] = .ok s' ∧
      (1, 7) ∈ s.streamContexts.entries ∧ (1, 7) ∉ s'.streamContexts.entries ∧
      ¬ Delivered s [.closed] 7 := by
  obtain ⟨tr, s, hr, hhealthy, hfails, hentries⟩ := exists_failing_write
  obtain ⟨s', hwrite, -, hempty⟩ := onWritable_of_failure hhealthy hfails
  refine ⟨tr, s, s', hr, hhealthy, hwrite, by simp [hentries], ?_, ?_⟩
  · rw [hempty]
    exact List.not_mem_nil
  · rintro ⟨later, reports, hcalls, -, response, before, after, rfl, hdead⟩
    refine (hcalls.silent hhealthy hfails).1 ?_
    exact List.mem_append_right _ (List.mem_cons_of_mem _ hdead)

end Http2Session

end Chttp2
