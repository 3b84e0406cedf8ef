import Chttp2.Pool.Connection
import Chttp2.Session.Submission

/-!
# What the reactor knows of a connection

The reactor calls a connection through its descriptor and its two timers. `Sound` says that a
connection that is not connected has none of them left, and that the timers take turns: the timer of
the next PING is off while a PING is unanswered, and the timer of the answer is on only then. So a
timer is never set over one that is still to fire, and the flags of the model are all there is.
-/

set_option autoImplicit false

namespace Chttp2

namespace Connection

open Http2Session

variable {config : ConnectionConfig} {c c' : Connection} {events : List (SessionEvent RequestId)}

/-- The session is in step, and the descriptor and the timers fit the state of the connection. -/
structure Sound (config : ConnectionConfig) (c : Connection) : Prop where
  session : InStep config.toClientConfig c.session
  unregistered : c.connected = false →
    c.sessionFd = false ∧ c.pingTimer = false ∧ c.pingTimeoutTimer = false
  pinged : c.pendingPing = true → c.pingTimer = false
  awaited : c.pingTimeoutTimer = true → c.pendingPing = true

/-- A connection that the connector thread has made, and that no timer has been set for. -/
structure Fresh (config : ConnectionConfig) (c : Connection) : Prop where
  session : InStep config.toClientConfig c.session
  pendingPing : c.pendingPing = false
  pingTimer : c.pingTimer = false
  pingTimeoutTimer : c.pingTimeoutTimer = false

/-- The connection is as sound as before, and as connected. -/
structure Serves (config : ConnectionConfig) (c c' : Connection) : Prop where
  sound : c'.Sound config
  connected : c'.connected = c.connected
  ref : c'.ref = c.ref

theorem Sound.serves (h : c.Sound config) : Serves config c c := ⟨h, rfl, rfl⟩

theorem Sound.setSession (h : c.Sound config) {session : Http2Session RequestId}
    (hsession : InStep config.toClientConfig session) :
    Serves config c { c with session } :=
  ⟨{ h with session := hsession }, rfl, rfl⟩

/-! ## Timers -/

@[simp] theorem connected_schedulePingTimer (c : Connection) :
    c.schedulePingTimer.connected = c.connected := by
  unfold schedulePingTimer
  split <;> rfl

/-- The timer is set only if the connection is connected and no PING is unanswered. -/
theorem Sound.schedulePingTimer (h : c.Sound config) (hpending : c.pendingPing = false) :
    Serves config c c.schedulePingTimer := by
  unfold Connection.schedulePingTimer
  split
  · exact h.serves
  · rename_i hon
    have hconnected : c.connected = true := by
      simp only [Bool.or_eq_true, decide_eq_true_eq, Bool.not_eq_eq_eq_not, Bool.not_true, not_or,
        Bool.not_eq_false] at hon
      exact hon.2
    refine ⟨{ h with
      unregistered := fun hoff => ?_, pinged := fun hpinged => ?_ }, rfl, rfl⟩
    · rw [hconnected] at hoff
      cases hoff
    · rw [hpending] at hpinged
      cases hpinged

theorem sound_disconnect {session : Http2Session RequestId}
    (hsession : InStep config.toClientConfig session) :
    ({ ({ c with connected := false }.cancelPingTimers) with
      session, sessionFd := false } : Connection).Sound config where
  session := hsession
  unregistered _ := ⟨rfl, rfl, rfl⟩
  pinged _ := rfl
  awaited hon := hon

/-! ## Operations -/

theorem fresh_make (id : ConnectionId) (ep : Endpoint) (config : ConnectionConfig) :
    (make id ep config).Fresh config :=
  ⟨.ofConfig _, rfl, rfl, rfl⟩

theorem Fresh.connect {ready ok : Bool} (h : c.Fresh config)
    (heq : c.connect ready = .ok (c', ok)) : c'.Fresh config := by
  obtain ⟨⟨session, started⟩, hstart, heq⟩ := bind_eq_ok.1 heq
  have happly : c.session.apply (.start ((StreamTransportFactory.create c.endpoint).isSome &&
      ready)) = .ok (session, []) := bind_eq_ok.2 ⟨_, hstart, rfl⟩
  have hsession := h.session.apply happly
  cases started <;> cases heq <;> exact { h with session := hsession }

/-- A connection that is registered is connected. -/
theorem Fresh.registerWithReactor {registered : Bool} (h : c.Fresh config)
    (heq : c.registerWithReactor registered = .ok (c', true)) :
    c'.Sound config ∧ c'.connected = true := by
  unfold Connection.registerWithReactor at heq
  split at heq
  · cases heq
  rename_i hon
  have hconnected : c.connected = true := by
    simp only [Bool.or_eq_true, Bool.not_eq_eq_eq_not, Bool.not_true, not_or,
      Bool.not_eq_false] at hon
    exact hon.1
  split at heq
  · obtain ⟨⟨session, dropped⟩, -, heq⟩ := bind_eq_ok.1 heq
    cases heq
  · cases heq
    have hsound : c.Sound config := {
      session := h.session
      unregistered := fun hoff => absurd (hconnected.symm.trans hoff) (by decide)
      pinged := fun _ => h.pingTimer
      awaited := fun hon => absurd (h.pingTimeoutTimer.symm.trans hon) (by decide) }
    have hserves := hsound.schedulePingTimer h.pendingPing
    exact ⟨hserves.sound, hserves.connected.trans hconnected⟩

theorem Sound.closeOnReactor (h : c.Sound config) (heq : c.closeOnReactor = .ok (c', events)) :
    c'.Sound config ∧ c'.connected = false := by
  unfold Connection.closeOnReactor at heq
  split at heq
  · rename_i hoff
    cases heq
    exact ⟨h, by simpa using hoff⟩
  · obtain ⟨⟨session, closed⟩, hclose, heq⟩ := bind_eq_ok.1 heq
    cases heq
    have happly : c.session.apply .close = .ok (session, events) := hclose
    exact ⟨sound_disconnect (h.session.apply happly), rfl⟩

theorem Sound.onSessionReadable {chunks : List Bytes} {last : ReadEnd} (h : c.Sound config)
    (heq : c.onSessionReadable chunks last = .ok (c', events)) : Serves config c c' := by
  unfold Connection.onSessionReadable at heq
  split at heq
  · cases heq
    exact h.serves
  · obtain ⟨⟨session, read⟩, hread, heq⟩ := bind_eq_ok.1 heq
    cases heq
    have happly : c.session.apply (.onReadable chunks last) = .ok (session, events) := hread
    exact h.setSession (h.session.apply happly)

theorem Sound.onSessionWritable {writes : List WriteResult} (h : c.Sound config)
    (heq : c.onSessionWritable writes = .ok c') : Serves config c c' := by
  unfold Connection.onSessionWritable at heq
  split at heq
  · cases heq
    exact h.serves
  · obtain ⟨session, hwritten, heq⟩ := bind_eq_ok.1 heq
    cases heq
    have happly : c.session.apply (.onWritable writes) = .ok (session, []) :=
      bind_eq_ok.2 ⟨session, hwritten, rfl⟩
    exact h.setSession (h.session.apply happly)

/-- When the timer of the next PING fires, no PING is unanswered. -/
theorem Sound.onPingTimer (h : c.Sound config) (hon : c.pingTimer = true)
    (heq : c.onPingTimer = .ok (c', events)) : Serves config c c' := by
  have hpending : c.pendingPing = false := by
    cases hpinged : c.pendingPing with
    | false => rfl
    | true => exact absurd (hon.symm.trans (h.pinged hpinged)) (by decide)
  have hfired : Sound config { c with pingTimer := false } := { h with
    unregistered := fun hoff => ⟨(h.unregistered hoff).1, rfl, (h.unregistered hoff).2.2⟩
    pinged := fun _ => rfl }
  simp only [Connection.onPingTimer] at heq
  split at heq
  · cases heq
    exact ⟨hfired, rfl, rfl⟩
  rename_i hconnected
  split at heq
  · -- streams keep the connection alive
    cases heq
    have hserves := hfired.schedulePingTimer hpending
    exact ⟨hserves.sound, hserves.connected, hserves.ref⟩
  split at heq
  · cases heq
    exact ⟨hfired, rfl, rfl⟩
  · obtain ⟨⟨session, sent⟩, hsent, heq⟩ := bind_eq_ok.1 heq
    cases heq
    have happly : c.session.apply .sendPing = .ok (session, sent) := hsent
    have hsession := h.session.apply happly
    refine ⟨{ session := hsession, unregistered := fun hoff => ?_, pinged := fun _ => rfl
              awaited := fun _ => rfl }, rfl, rfl⟩
    exact absurd (show c.connected = false from hoff) (by simpa using hconnected)

/-- A PING may be answered while none is out. -/
theorem Sound.handleEvent (h : c.Sound config) (event : SessionEvent RequestId) :
    (c.handleEvent event).Sound config ∧
      ((c.handleEvent event).connected = c.connected ∨ event = .sessionDead) := by
  cases event with
  | requestDone => exact ⟨h, Or.inl rfl⟩
  | sessionClosing => exact ⟨h, Or.inl rfl⟩
  | sessionDead => exact ⟨sound_disconnect h.session, Or.inr rfl⟩
  | pingAck =>
    rw [Connection.handleEvent]
    split
    · have hanswered : Sound config { c with pendingPing := false, pingTimeoutTimer := false } := {
        session := h.session
        unregistered := fun hoff => ⟨(h.unregistered hoff).1, (h.unregistered hoff).2.1, rfl⟩
        pinged := fun hpinged => Bool.noConfusion hpinged
        awaited := fun hawaited => Bool.noConfusion hawaited }
      have hserves := hanswered.schedulePingTimer rfl
      exact ⟨hserves.sound, Or.inl hserves.connected⟩
    · exact ⟨h, Or.inl rfl⟩

/-- The timer of the answer has fired. -/
theorem Sound.pingTimeout (h : c.Sound config) :
    Serves config c { c with pingTimeoutTimer := false, pendingPing := false } where
  sound := {
    session := h.session
    unregistered := fun hoff => ⟨(h.unregistered hoff).1, (h.unregistered hoff).2.1, rfl⟩
    pinged := fun hpinged => Bool.noConfusion hpinged
    awaited := fun hawaited => Bool.noConfusion hawaited }
  connected := rfl
  ref := rfl

end Connection

end Chttp2
