import Chttp2.Protocol.Safety
import Chttp2.Protocol.StreamTable

/-!
# Closing is final

A step either keeps the connection open and sends no GOAWAY, or it closes the connection and sends a
GOAWAY at most; a closed connection sends nothing (`ActionStep.quiet_or_closes`,
`ActionStep.silent_of_closed`). `Announced` carries this through runs, and `closing_is_final` states
it for the runs of operations that begin with `start`.
-/

set_option autoImplicit false

namespace Chttp2

/-- The buffer is a GOAWAY. -/
def OutboundBuffer.isGoAway : OutboundBuffer → Bool
  | .goAway _ => true
  | _ => false

/-- The buffer is an RST_STREAM. -/
def OutboundBuffer.isRstStream : OutboundBuffer → Bool
  | .rstStream _ => true
  | _ => false

/-! ## Buffers without GOAWAY -/

/-- No buffer is a GOAWAY frame. -/
def NoGoAway (out : List OutboundBuffer) : Prop := ∀ b ∈ out, b.isGoAway = false

/-- A GOAWAY frame is the last of the buffers. -/
def GoAwayLast (out : List OutboundBuffer) : Prop :=
  ∀ a b c, out = a ++ b :: c → b.isGoAway = true → c = []

section NoGoAway

variable {a b : List OutboundBuffer}

theorem NoGoAway.nil : NoGoAway [] := by simp [NoGoAway]

theorem NoGoAway.append (ha : NoGoAway a) (hb : NoGoAway b) : NoGoAway (a ++ b) := by
  intro x hx
  rcases List.mem_append.1 hx with hx | hx
  · exact ha x hx
  · exact hb x hx

theorem NoGoAway.singleton {x : OutboundBuffer} (h : x.isGoAway = false) : NoGoAway [x] := by
  simpa [NoGoAway] using h

/-- An RST_STREAM frame at most. -/
theorem NoGoAway.of_reset (h : a = [] ∨ ∃ frame, a = [.rstStream frame]) : NoGoAway a := by
  rcases h with rfl | ⟨frame, rfl⟩
  · exact .nil
  · exact .singleton rfl

theorem NoGoAway.data (frames : List DataFrame) : NoGoAway (frames.map .data) := by
  intro x hx
  obtain ⟨f, -, rfl⟩ := List.mem_map.1 hx
  rfl

theorem NoGoAway.goAwayLast (h : NoGoAway a) : GoAwayLast a := by
  rintro x y z rfl hy
  rw [h y (by simp)] at hy
  cases hy

/-- A single buffer after buffers without GOAWAY. -/
theorem NoGoAway.append_singleton (h : NoGoAway a) (x : OutboundBuffer) : GoAwayLast (a ++ [x]) := by
  intro u y v heq hy
  rcases List.eq_nil_or_concat v with rfl | ⟨v', z, rfl⟩
  · rfl
  · rw [List.concat_eq_append, ← List.cons_append, ← List.append_assoc] at heq
    have hmem : y ∈ a := by
      rw [(List.append_inj' heq rfl).1]
      simp
    rw [h y hmem] at hy
    cases hy

/-- Then there is at most one. -/
theorem GoAwayLast.countP_le_one (h : GoAwayLast a) : a.countP OutboundBuffer.isGoAway ≤ 1 := by
  induction a with
  | nil => exact Nat.zero_le _
  | cons x a ih =>
    have hrest : GoAwayLast a := by
      rintro u y v rfl hy
      exact h (x :: u) y v rfl hy
    cases hx : x.isGoAway with
    | false =>
      rw [List.countP_cons_of_neg (by simp [hx])]
      exact ih hrest
    | true =>
      rw [h [] x a rfl hx]
      exact List.countP_le_length

end NoGoAway

namespace ProtocolState

variable {p p' : ProtocolState} {s : Stream} {f : RawFrame} {r : ProtocolStepResult}

/-! ## Quiet steps -/

/-- The connection is as open as before, and no GOAWAY is sent. -/
structure Quiet (p p' : ProtocolState) (r : ProtocolStepResult) : Prop where
  closed : p'.closed = p.closed
  sentGoaway : p'.sentGoaway = p.sentGoaway
  noGoAway : NoGoAway r.outbound

/-- The connection is closed, with nothing but a GOAWAY frame. -/
structure Closes (p' : ProtocolState) (r : ProtocolStepResult) : Prop where
  closed : p'.closed = true
  outbound : r.outbound = [] ∨ ∃ frame, r.outbound = [.goAway frame]

theorem noGoAway_streamFailure (p : ProtocolState) (id : StreamId) (code : ErrorCode) (rst : Bool) :
    NoGoAway (p.streamFailure id code rst).outbound :=
  .of_reset ((p.streamFailure_outbound id code rst).imp_right fun h => ⟨_, h⟩)

theorem noGoAway_refreshFrames (id : StreamId) (n : Int) : NoGoAway (refreshFrames id n) := by
  rcases refreshFrames_cases id n with h | h
  · rw [h]
    exact .nil
  · rw [h]
    exact .singleton rfl

theorem quiet_bodyStep (h : BodyStep p s p' r) : Quiet p p' r := by
  obtain ⟨frames, hframes, -⟩ := h.outbound
  refine ⟨(congrArg ProtocolState.closed h.eq_with :),
    (congrArg ProtocolState.sentGoaway h.eq_with :), ?_⟩
  rw [hframes]
  exact .data frames

theorem quiet_bodySteps {ids : List StreamId} (h : BodySteps ids p p' r) : Quiet p p' r := by
  obtain ⟨frames, hframes⟩ := h.outbound
  refine ⟨(congrArg ProtocolState.closed h.eq_with :),
    (congrArg ProtocolState.sentGoaway h.eq_with :), ?_⟩
  rw [hframes]
  exact .data frames

theorem quiet_ending {b : Bool} (h : Ending p s b p' r) : Quiet p p' r :=
  ⟨(congrArg ProtocolState.closed h.eq_with :), (congrArg ProtocolState.sentGoaway h.eq_with :),
    .of_reset h.outbound⟩

theorem BlockStep.quiet {b : Bool} (h : BlockStep p s b p' r) : Quiet p p' r :=
  ⟨(congrArg ProtocolState.closed h.eq_with :), (congrArg ProtocolState.sentGoaway h.eq_with :),
    .of_reset h.outbound⟩

theorem closes_connectionFailed (p : ProtocolState) (code : ErrorCode) (text ghost : Bytes) :
    Closes (p.failedState code text ghost) (p.connectionFailure code text) :=
  ⟨rfl, (p.connectionFailure_outbound code text).imp_right fun h => ⟨_, h⟩⟩

/-- A received frame is quiet, or it closes the connection. -/
theorem FrameStep.quiet_or_closes (h : FrameStep p f p' r) : Quiet p p' r ∨ Closes p' r := by
  cases h with
  | reported h =>
    left
    cases h with
    | priorityLength => exact ⟨rfl, rfl, .singleton rfl⟩
    | ping => exact ⟨rfl, rfl, .singleton rfl⟩
    | _ => exact ⟨rfl, rfl, .nil⟩
  | connectionFailed hv hd hpre =>
    right
    have hcloses := fun q code text => (closes_connectionFailed q code text []).outbound
    rcases hpre with rfl | ⟨promised, rfl⟩ <;> exact ⟨rfl, hcloses _ _ _⟩
  | dataRefused => exact Or.inl ⟨rfl, rfl, noGoAway_streamFailure _ _ _ _⟩
  | dataOnRemoved => exact Or.inl ⟨rfl, rfl, noGoAway_refreshFrames _ _⟩
  | dataOnBodiless => exact Or.inl ⟨rfl, rfl, noGoAway_streamFailure _ _ _ _⟩
  | dataStored s ht hfind hopen hfinal htake hbody hend =>
    have hrest := quiet_ending hend
    exact Or.inl ⟨hrest.closed, hrest.sentGoaway,
      ((noGoAway_refreshFrames _ _).append (noGoAway_refreshFrames _ _)).append hrest.noGoAway⟩
  | headersRefused => exact Or.inl ⟨rfl, rfl, noGoAway_streamFailure _ _ _ _⟩
  | headersBlock s ht hfind hopen hend hblock => exact Or.inl hblock.quiet
  | streamReset =>
    exact Or.inl ⟨rfl, rfl, NoGoAway.nil.append (noGoAway_streamFailure _ _ _ _)⟩
  | @settingsApplied p₁ _ _ ht hack happ hbodies =>
    have htuned := tuned_of_settings happ
    have hrest := quiet_bodySteps hbodies
    refine Or.inl ⟨hrest.closed.trans ?_, hrest.sentGoaway.trans ?_,
      hrest.noGoAway.append (.singleton rfl)⟩ <;> rw [htuned.eq]
  | connectionWindow ht hid hadd hbodies =>
    have hrest := quiet_bodySteps hbodies
    exact Or.inl ⟨hrest.closed, hrest.sentGoaway, NoGoAway.nil.append hrest.noGoAway⟩
  | windowRefused => exact Or.inl ⟨rfl, rfl, noGoAway_streamFailure _ _ _ _⟩
  | streamWindow s ht hid hfind hadd hbody =>
    have hrest := quiet_bodyStep hbody
    exact Or.inl ⟨hrest.closed, hrest.sentGoaway, NoGoAway.nil.append hrest.noGoAway⟩
  | continuationBlock s ht hexp hid hfind hend hblock =>
    have hrest := hblock.quiet
    exact Or.inl ⟨hrest.closed, hrest.sentGoaway, hrest.noGoAway⟩
  | _ => exact Or.inl ⟨rfl, rfl, .nil⟩

theorem noGoAway_emitContinuations (maxFrameSize : Nat) (id : StreamId) (fuel : Nat) :
    ∀ span, NoGoAway (emitContinuations maxFrameSize id fuel span) := by
  induction fuel with
  | zero => exact fun _ => .nil
  | succ fuel ih =>
    intro span
    rw [emitContinuations]
    split
    · exact .nil
    · exact .append (a := [_]) (.singleton rfl) (ih _)

/-- A step of an open connection is quiet, or it closes the connection. -/
theorem ActionStep.quiet_or_closes {a : Action} (h : ActionStep p a p' r) :
    Quiet p p' r ∨ Closes p' r := by
  cases h with
  | started => exact Or.inl ⟨rfl, rfl, .append (a := [_]) (.singleton rfl) (.singleton rfl)⟩
  | opened request rehash hcan hvalid hroom hpos hmax hbody =>
    have hrest := quiet_bodyStep hbody
    have hheaders : NoGoAway (p.requestHeaderFrames request) :=
      .append (a := [_]) (.singleton rfl) (noGoAway_emitContinuations _ _ _ _)
    exact Or.inl ⟨hrest.closed, hrest.sentGoaway, hheaders.append hrest.noGoAway⟩
  | cancelled => exact Or.inl ⟨rfl, rfl, noGoAway_streamFailure _ _ _ _⟩
  | pinged => exact Or.inl ⟨rfl, rfl, .singleton rfl⟩
  | closed => exact Or.inr ⟨rfl, p.closeResult_outbound.imp_right fun h => ⟨_, h⟩⟩
  | transportLost => exact Or.inr ⟨rfl, Or.inl rfl⟩
  | transportLostAgain => exact Or.inr ⟨rfl, Or.inl rfl⟩
  | frame f hopen hup h => exact h.quiet_or_closes
  | _ => exact Or.inl ⟨rfl, rfl, .nil⟩

/-- A closed connection that has been started sends nothing more. -/
theorem ActionStep.silent_of_closed {a : Action} (h : ActionStep p a p' r)
    (hclosed : p.closed = true) (hstarted : p.started = true) : r.outbound = [] := by
  have hcontra : p.closed = false → r.outbound = [] := fun hopen => by
    rw [hclosed] at hopen
    cases hopen
  cases h with
  | started h =>
    rw [hstarted] at h
    cases h
  | opened request rehash hcan => exact hcontra (canSubmitRequests_open hcan)
  | cancelled id code s hopen => exact hcontra hopen
  | pinged frame hid hopen => exact hcontra hopen
  | closed hopen => exact hcontra hopen
  | frame f hopen => exact hcontra hopen
  | _ => rfl

/-! ## Runs -/

/-- A connection that has been started and has sent `out`: a GOAWAY frame only with its end, and
then as the last frame. -/
structure Announced (out : List OutboundBuffer) (p : ProtocolState) : Prop where
  sound : p.Sound
  tidy : p.Tidy
  started : p.started = true
  quiet : p.closed = false → p.sentGoaway = false ∧ NoGoAway out
  last : GoAwayLast out

theorem Announced.step {out : List OutboundBuffer} {a : Action} (h : Announced out p)
    (hstep : ActionStep p a p' r) : Announced (out ++ r.outbound) p' := by
  refine ⟨hstep.sound h.sound, hstep.tidy h.tidy, hstep.started_of_started h.started, ?_, ?_⟩
  · intro hopen
    rcases hstep.quiet_or_closes with hquiet | hcloses
    · obtain ⟨hsent, hout⟩ := h.quiet (hquiet.closed ▸ hopen)
      exact ⟨hquiet.sentGoaway.trans hsent, hout.append hquiet.noGoAway⟩
    · rw [hcloses.closed] at hopen
      cases hopen
  · cases hclosed : p.closed with
    | true =>
      rw [hstep.silent_of_closed hclosed h.started, List.append_nil]
      exact h.last
    | false =>
      obtain ⟨-, hout⟩ := h.quiet hclosed
      rcases hstep.quiet_or_closes with hquiet | hcloses
      · exact (hout.append hquiet.noGoAway).goAwayLast
      · rcases hcloses.outbound with hnil | ⟨frame, hone⟩
        · rw [hnil, List.append_nil]
          exact hout.goAwayLast
        · rw [hone]
          exact hout.append_singleton _

theorem Announced.runs {out : List OutboundBuffer} {tr : List Entry} (h : Announced out p)
    (hr : Runs p tr p') : Announced (out ++ outboundOf tr) p' := by
  refine hr.invariant (I := fun tr q => Announced (out ++ outboundOf tr) q) ?_ ?_
  · simpa using h
  · intro tr q a q' r _ hq hact
    have hnext := hq.step (actionStep_of_act hq.sound hact)
    simpa using hnext

/-- A closed connection stays closed and silent. -/
theorem silent_run {tr : List Entry} (hr : Runs p tr p') (hp : p.Sound) (hclosed : p.closed = true)
    (hstarted : p.started = true) : p'.closed = true ∧ outboundOf tr = [] := by
  have hinv := hr.invariant (I := fun tr q => q.Sound ∧ q.closed = true ∧ q.started = true ∧
    outboundOf tr = []) ⟨hp, hclosed, hstarted, rfl⟩ ?_
  · exact ⟨hinv.2.1, hinv.2.2.2⟩
  · rintro tr q a q' r - ⟨hq, hqclosed, hqstarted, hout⟩ hact
    have hstep := actionStep_of_act hq hact
    refine ⟨hstep.sound hq, hstep.closed_of_closed hqclosed, hstep.started_of_started hqstarted, ?_⟩
    rw [outboundOf_append, hout, outboundOf_cons, outboundOf_nil,
      hstep.silent_of_closed hqclosed hqstarted]
    rfl

/-- A step that closes the connection resets no stream. -/
theorem noReset_of_closing {a : Action} (hp : p.Sound) (hopen : p.closed = false)
    (h : p.act a = .ok (p', r)) (hclosed : p'.closed = true) :
    ∀ b ∈ r.outbound, b.isRstStream = false := by
  intro b hb
  rcases (actionStep_of_act hp h).quiet_or_closes with hquiet | hcloses
  · rw [hquiet.closed, hopen] at hclosed
    cases hclosed
  · rcases hcloses.outbound with hnil | ⟨frame, hone⟩
    · rw [hnil] at hb
      exact (List.not_mem_nil hb).elim
    · rw [hone] at hb
      rw [List.mem_singleton.1 hb]
      rfl

end ProtocolState

/-! ## Operations -/

namespace Http2Protocol

open ProtocolState

variable {p p' : Http2Protocol} {tr : List (Machine.Entry Http2Protocol Op ProtocolStepResult)}

/-- The run begins with `start`. -/
def BeginsWithStart (tr : List (Machine.Entry Http2Protocol Op ProtocolStepResult)) : Prop :=
  ∃ e rest, tr = e :: rest ∧ e.input = .start

/-- What a run that begins with `start` has sent. -/
theorem announced_of_runs {config : ClientConfig} (h : Machine.Runs apply (.ofConfig config) tr p)
    (hstart : BeginsWithStart tr) : Announced (outboundOf tr) p.state := by
  obtain ⟨⟨pre, input, output⟩, rest, rfl, rfl⟩ := hstart
  obtain ⟨p₁, hfirst, hrest⟩ := h.of_cons
  cases hfirst
  have hstarted := ActionStep.started (p := ProtocolState.ofConfig config) rfl
  have hfresh : TableInvariant (ResetsTidily []) [] (ProtocolState.ofConfig config) :=
    tableInvariant_of_runs .nil
  have hannounced : Announced
      [.preface, .settings (buildLocalSettingsFrame (.ofConfig config))] _ :=
    ⟨hstarted.sound hfresh.sound, hstarted.tidy hfresh.tidy, rfl,
      fun _ => ⟨rfl, .append (a := [_]) (.singleton rfl) (.singleton rfl)⟩,
      (NoGoAway.append (a := [_]) (.singleton rfl) (.singleton rfl)).goAwayLast⟩
  obtain ⟨actions, hruns, -, hout⟩ := exists_runs_of_runs hannounced.sound hrest
  rw [outboundOf_cons, ← hout]
  exact hannounced.runs hruns

/-- In a run that begins with `start`: a closed connection has no streams, and whatever is called
stays closed and sends nothing; at most one GOAWAY frame is sent, and it is the last frame; a step
that closes the connection, also one in the middle of a chunk, resets no stream. -/
theorem closing_is_final {config : ClientConfig}
    (h : Machine.Runs apply (.ofConfig config) tr p) (hstart : BeginsWithStart tr) :
    (p.state.closed = true → ∀ tr' p', Machine.Runs apply p tr' p' →
      p'.state.closed = true ∧ p'.state.streams = .empty ∧ outboundOf tr' = []) ∧
    ((outboundOf tr).countP OutboundBuffer.isGoAway ≤ 1 ∧
      ∀ a b c, outboundOf tr = a ++ b :: c → b.isGoAway = true → c = []) ∧
    ∀ actions q, Runs p.state actions q → ∀ a q' r, q.act a = .ok (q', r) → q.closed = false →
      q'.closed = true → ∀ b ∈ r.outbound, b.isRstStream = false := by
  have hannounced := announced_of_runs h hstart
  refine ⟨fun hclosed tr' p' hrest => ?_, ⟨hannounced.last.countP_le_one, hannounced.last⟩, ?_⟩
  · obtain ⟨actions, hruns, -, hout⟩ := exists_runs_of_runs hannounced.sound hrest
    obtain ⟨hclosed', hsilent⟩ := silent_run hruns hannounced.sound hclosed hannounced.started
    have htidy := (hannounced.runs hruns).tidy
    refine ⟨hclosed', ?_, hout ▸ hsilent⟩
    exact KeyedTable.eq_empty_of_keys (htidy.closed hclosed')
  · intro actions q hruns a q' r hact hopen hclosed
    exact noReset_of_closing (hannounced.runs hruns).sound hopen hact hclosed

/-- A GET request is on its way when a frame of the peer closes the connection; nothing is sent
after the GOAWAY frame. -/
theorem closing_is_final_after_bad_frame :
    ∃ tr p, Machine.Runs apply (.ofConfig {}) tr p ∧ BeginsWithStart tr ∧
      (outboundOf tr).countP OutboundBuffer.isGoAway = 1 ∧
      ∀ tr' p', Machine.Runs apply p tr' p' →
        p'.state.closed = true ∧ p'.state.streams = .empty ∧ outboundOf tr' = [] := by
  have hrun : (Machine.run apply (.ofConfig {}) [.start, .submitRequest getRequest (.id _),
      .receiveBytes ((okResponseFrame 5).header.encode ++ (okResponseFrame 5).data),
      .sendPing]).map (fun x => (x.1.state.closed,
        (outboundOf x.2).countP OutboundBuffer.isGoAway)) = .ok (true, 1) := by
    decide +kernel
  obtain ⟨p, tr, hr, hinputs, hresult⟩ := Machine.exists_runs_of_map hrun
  obtain ⟨hclosed, hcount⟩ := Prod.mk.inj hresult
  have hstart : BeginsWithStart tr := by
    obtain ⟨e, rest, rfl, he, -⟩ := List.map_eq_cons_iff.1 hinputs
    exact ⟨e, rest, rfl, he⟩
  exact ⟨tr, p, hr, hstart, hcount, (closing_is_final hr hstart).1 hclosed⟩

end Http2Protocol

end Chttp2
