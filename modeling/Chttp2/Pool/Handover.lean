import Chttp2.Pool.CallStack

/-!
# Pointers in the calls of the reactor thread

The cases of `HandOverStep`, `CloseStep` and `CallStep`: requests are handed to connections, the
events of connections are processed, connections are closed. Each keeps the pointers of the calls
good, and uses none that is not (`Safe.call`). The events of a submission come back before the
submission is recorded, so they find no connection to submit other requests to, and the handlers do
not call each other any deeper.
-/

set_option autoImplicit false

namespace Chttp2

namespace ConnectionManager

open Machine (Ensures)
open Http2Session (ReportsOnly)

/-- The step uses a pointer to something that is gone, or data that another thread uses. -/
def Halt.Unsafe (halt : Halt) : Prop :=
  halt = .danglingConnection ∨ halt = .danglingQueue ∨ halt = .dataRace

theorem fault_not_unsafe (e : Fault) : ¬ Halt.Unsafe (.fault e) := by simp [Halt.Unsafe]

section Handlers

variable {config : ConnectionConfig} {K : List ConnectionId} {m : ConnectionManager}
  {conn : Connection} {connId : ConnectionId} {pr : PendingRequest} {ep : Endpoint}
  {frame rest : CallFrame} {stack : List CallFrame} {r : Managed ConnectionManager}

/-! ## Handing over -/

/-- The request has been handed over, and its events make no further call. -/
theorem Safe.handOver (h : Safe config K m) (hloops : Loops m.stack)
    (hmem : conn ∈ m.connections.entries) (hnew : pr.context ∉ m.handed)
    (hs : HandOverStep m conn pr r) : Ensures Halt.Unsafe (Safe config K) r := by
  have hhanded := h.handedOver (pr, conn.endpoint)
  cases hs with
  | fault e => exact fault_not_unsafe e
  | refused hoff response => exact hhanded.completeRequest _ _
  | @submitted hon streamId rehash session events hsubmit =>
    have hsession := h.connections conn hmem
    have hserves := hsession.setSession (hsession.session.submit hsubmit)
    have hkey : conn.connId ∈ m.connections.keys := KeyedTable.key_mem_keys hmem
    have hself := KeyedTable.find?_set_self (a := { conn with session }) hkey
    have hframe : FrameSafe { m with
        handedOver := m.handedOver ++ [(pr, conn.endpoint)]
        connections := m.connections.set { conn with session } } (.submitted pr.context conn.connId) :=
      ⟨⟨{ conn with session }, hself, hon⟩, by simp [handed], h.not_mem_requestConnections hnew⟩
    refine Safe.push (Safe.push ?_ _ ?_ ?_) _ ?_ ?_
    · exact { hhanded.setConnection hmem hserves with }
    · exact .submitted pr.context conn.connId hloops
    · exact hframe
    · exact .answered pr.context conn.connId hloops (hsession.session.reportsOnly_submit hsubmit)
    · exact KeyedTable.mem_keys_of_find? hself

theorem mem_of_pick (hpick : m.pickConnectionOnReactor ep = some conn) :
    conn ∈ m.connections.entries := by
  unfold pickConnectionOnReactor at hpick
  split at hpick
  · cases hpick
  · rcases pickLoop_mem _ _ _ hpick with hnone | hmem
    · cases hnone
    · obtain ⟨id, -, hfind⟩ := List.mem_filterMap.1 hmem
      exact KeyedTable.mem_of_find? hfind

theorem Chosen.mem (hs : Chosen m pr conn frame) : conn ∈ m.connections.entries := by
  cases hs with
  | picked hpick => exact mem_of_pick hpick
  | raw hfind => exact KeyedTable.mem_of_find? hfind

/-- A loop visits a request: it stands alone, and goes on with the others. -/
theorem Safe.visit (h : Safe config K m) (hstack : m.stack = frame :: stack)
    (hvisits : Visits frame pr ep rest) :
    Safe config K ({ m with stack }.push rest) ∧ Loops (rest :: stack) ∧ pr ∈ frame.holds := by
  have hnested : Nested (frame :: stack) := hstack ▸ h.nested
  have hframe : m.FrameSafe frame := h.frames frame (hstack ▸ List.mem_cons_self)
  cases hvisits with
  | drainSubmitQueue pr localQueue =>
    obtain rfl : stack = [] := hnested.below_task (by simp) (by simp) (by simp)
    have hpopped := h.pop hstack fun _ hdooms => hdooms
    have hloops := Loops.drainSubmitQueue localQueue
    exact ⟨hpopped.push _ (.loops hloops) trivial, hloops, List.mem_cons_self⟩
  | onConnectionEstablished ep raw pr pending =>
    obtain rfl : stack = [] := hnested.below_task (by simp) (by simp) (by simp)
    have hpopped := h.pop hstack fun _ hdooms => hdooms
    have hloops := Loops.onConnectionEstablished ep raw pending
    exact ⟨hpopped.push _ (.loops hloops) hframe, hloops, List.mem_cons_self⟩

/-- The loop is entered with a queue and a connection that are there. -/
theorem Safe.trySubmitPending (h : Safe config K m) {c : ConnectionId}
    {events : List (SessionEvent RequestId)} {below : List CallFrame}
    (hstack : m.stack = .processSessionEvents c events :: below) (hwaits : Waits below)
    (ep : Endpoint) : Safe config K (m.trySubmitPending ep) := by
  rcases m.trySubmitPending_cases ep with heq | ⟨conn, hpick, hqueue, heq⟩ <;> rw [heq]
  · exact h
  · refine h.push _ ?_ ⟨KeyedTable.key_mem_keys (mem_of_pick hpick), hqueue⟩
    rw [hstack]
    exact .loops (.trySubmitPending ep conn.connId c events hwaits)

/-- The queue of the loop changes: no other loop looks for a queue. -/
theorem Safe.setQueue (h : Safe config K m) (hstack : m.stack = .trySubmitPending ep connId :: stack)
    (pendingByEndpoint : EndpointTable (List PendingRequest)) :
    Safe config K { m with stack, pendingByEndpoint } := by
  have hnested : Nested (.trySubmitPending ep connId :: stack) := hstack ▸ h.nested
  obtain ⟨c, events, below, rfl, hwaits⟩ := hnested.below_trySubmitPending
  have hpopped := h.pop hstack fun _ hdooms => hdooms
  refine hpopped.setPending fun ep' conn' hmem => ?_
  rcases List.mem_cons.1 hmem with heq | hbelow
  · cases heq
  · exact absurd hbelow (hwaits.not_trySubmitPending ep' conn')

/-- The loop takes a request from the queue, and goes on behind it. -/
theorem Safe.next (h : Safe config K m) (hstack : m.stack = .trySubmitPending ep connId :: stack)
    (e : Endpoint) (queue : List PendingRequest) :
    Safe config K { m with
      pendingByEndpoint := m.pendingByEndpoint.set (e, queue)
      stack := .trySubmitPending ep connId :: stack } ∧
    Loops (.trySubmitPending ep connId :: stack) := by
  have hnested : Nested (.trySubmitPending ep connId :: stack) := hstack ▸ h.nested
  obtain ⟨c, events, below, rfl, hwaits⟩ := hnested.below_trySubmitPending
  obtain ⟨hconn, hqueue⟩ := h.frames (.trySubmitPending ep connId) (hstack ▸ List.mem_cons_self)
  have hloops := Loops.trySubmitPending ep connId c events hwaits
  refine ⟨(h.setQueue hstack (m.pendingByEndpoint.set (e, queue))).push
    (.trySubmitPending ep connId) (.loops hloops) ⟨hconn, ?_⟩, hloops⟩
  rw [KeyedTable.keys_set]
  exact hqueue

/-- The connection of a submission is recorded. -/
theorem Safe.record (h : Safe config K m) (hloops : Loops m.stack) {context : RequestId}
    (hframe : m.FrameSafe (.submitted context connId)) :
    Safe config K { m with
      requestConnections := m.requestConnections.insert (.id _) (context, connId) } := by
  obtain ⟨hconnected, hhanded, -⟩ := hframe
  refine { h with frames := fun frame hframe => ?_, requestConnections := fun entry hentry => ?_ }
  · have hsafe := h.frames frame hframe
    cases frame with
    | submitted context' conn' => exact absurd hframe (hloops.not_submitted context' conn')
    | _ => exact hsafe
  · rcases KeyedTable.mem_insert.1 hentry with rfl | ⟨hold, -⟩
    · refine ⟨hhanded, ?_, Or.inl hconnected⟩
      exact hconnected.elim fun conn hconn => KeyedTable.mem_keys_of_find? hconn.1
    · exact h.requestConnections entry hold

/-! ## Events -/

/-- An event is taken. The events of a submission report requests that are on no connection. -/
theorem Safe.takeEvent (h : Safe config K m) {event : SessionEvent RequestId}
    {events : List (SessionEvent RequestId)}
    (hstack : m.stack = .processSessionEvents connId (event :: events) :: stack) :
    Safe config K ({ m with stack }.push (.processSessionEvents connId events)) ∧
      (Waits stack ∨ ∃ context response, event = .requestDone context response ∧
        context ∉ m.requestConnections.keys) := by
  have hnested : Nested (.processSessionEvents connId (event :: events) :: stack) := hstack ▸ h.nested
  have hframe : connId ∈ m.connections.keys :=
    h.frames (.processSessionEvents connId (event :: events)) (hstack ▸ List.mem_cons_self)
  have hpopped := h.pop hstack fun _ hdooms => hdooms
  rcases hnested.below_events with hwaits | ⟨context, below, rfl, hloops, hreports⟩
  · exact ⟨hpopped.push _ (.events connId events hwaits) hframe, Or.inl hwaits⟩
  · -- the submission has not been recorded
    have hsubmitted : m.FrameSafe (.submitted context connId) :=
      h.frames _ (hstack ▸ List.mem_cons_of_mem _ List.mem_cons_self)
    obtain ⟨⟨response, rfl⟩, hrest⟩ := List.forall_mem_cons.1 hreports
    exact ⟨hpopped.push _ (.answered context connId hloops hrest) hframe,
      Or.inr ⟨context, response, rfl, hsubmitted.2.2⟩⟩

/-- A request that is done leaves its connection. -/
theorem Safe.reported (h : Safe config K m) (hfind : m.connections.find? connId = some conn)
    (context : RequestId) (response : Response) :
    Safe config K ({ m with
      connections := m.connections.set conn
      requestConnections := m.requestConnections.erase context
    }.completeRequest context response) := by
  have hmem := KeyedTable.mem_of_find? hfind
  have hset := h.setConnection hmem (h.connections conn hmem).serves
  exact (hset.dropRequests fun entry hentry => (KeyedTable.mem_erase.1 hentry).1).completeRequest _ _

theorem Safe.onConnectionLost (h : Safe config K m) (connId : ConnectionId) :
    Safe config K (m.onConnectionLost connId) :=
  h.dropRequests fun _ hentry => (KeyedTable.mem_eraseAll.1 hentry).1

/-- The connection has no entries any more. -/
theorem not_lost {entry : RequestId × ConnectionId}
    (hentry : entry ∈ (m.onConnectionLost connId).requestConnections.entries) :
    entry.2 ≠ connId := by
  intro hself
  obtain ⟨hmem, hgone⟩ := KeyedTable.mem_eraseAll.1 hentry
  exact hgone (List.mem_map.2 ⟨entry, List.mem_filter.2 ⟨hmem, decide_eq_true hself⟩, rfl⟩)

/-- A connection that has died is forgotten as it goes. -/
theorem Safe.died (h : Safe config K m) (hfind : m.connections.find? connId = some conn)
    (hsubmitted : ∀ context, .submitted context connId ∉ m.stack) :
    Safe config K ({ m with
      connections := m.connections.set (conn.handleEvent .sessionDead)
    }.onConnectionLost connId) := by
  have hmem := KeyedTable.mem_of_find? hfind
  have hid : conn.connId = connId := KeyedTable.key_of_find? hfind
  have hlost := h.onConnectionLost connId
  refine hlost.replaceConnection hmem (conn.ref_handleEvent _)
    ((h.connections conn hmem).handleEvent .sessionDead).1 (fun hon => by cases hon) fun _ =>
      Or.inr ⟨fun entry hentry hself => ?_, fun context => hid ▸ hsubmitted context⟩
  exact absurd (hself.trans hid) (not_lost hentry)

/-! ## Closing connections -/

/-- A connection is closed inside a call that will forget it. -/
theorem Safe.closed (h : Safe config K m) (hwaits : Waits m.stack)
    (hmem : conn ∈ m.connections.entries) (hdoomed : m.Doomed conn.connId) {conn' : Connection}
    {events : List (SessionEvent RequestId)} (hclose : conn.closeOnReactor = .ok (conn', events)) :
    Safe config K { m with connections := m.connections.set conn' } := by
  obtain ⟨hsound, hoff⟩ := (h.connections conn hmem).closeOnReactor hclose
  refine h.replaceConnection hmem (Connection.ref_closeOnReactor hclose) hsound (fun hon => ?_)
    fun _ => Or.inr ⟨fun _ _ _ => hdoomed, fun context => hwaits.not_submitted context _⟩
  rw [hoff] at hon
  cases hon

/-- A connection is closed inside `onPingTimeout`. -/
theorem Safe.closeLost (h : Safe config K m) (hstack : m.stack = [.connectionLost connId])
    (hconn : connId ∈ m.connections.keys) (hs : CloseStep m connId r) :
    Ensures Halt.Unsafe (Safe config K) r := by
  have hwaits : Waits m.stack := hstack ▸ .connectionLost connId
  cases hs with
  | fault e => exact fault_not_unsafe e
  | dangling hgone => exact absurd hconn (KeyedTable.find?_eq_none_iff.1 hgone)
  | @closed conn conn' events hfind hclose =>
    have hid : conn.connId = connId := KeyedTable.key_of_find? hfind
    have hdoomed : m.Doomed conn.connId :=
      ⟨.connectionLost connId, hstack ▸ List.mem_cons_self, hid.symm⟩
    have hclosed := h.closed hwaits (KeyedTable.mem_of_find? hfind) hdoomed hclose
    refine hclosed.push _ (.events connId events hwaits) ?_
    have hstill : connId ∈ (m.connections.set conn').keys := by
      rw [KeyedTable.keys_set]
      exact hconn
    exact hstill

/-- A round of `closeOnReactor`: the connection leaves the list when it is closed. -/
theorem Safe.closeNext (h : Safe config K m) {conns : List ConnectionId}
    (hstack : m.stack = [.closeOnReactor (connId :: conns)])
    (hs : CloseStep ({ m with stack := [] }.push (.closeOnReactor conns)) connId r) :
    Ensures Halt.Unsafe (Safe config K) r := by
  obtain ⟨hpools, hkeys⟩ := h.frames (.closeOnReactor (connId :: conns)) (hstack ▸ List.mem_cons_self)
  have hconn := hkeys connId List.mem_cons_self
  have hwaits : Waits m.stack := hstack ▸ .closeOnReactor _
  cases hs with
  | fault e => exact fault_not_unsafe e
  | dangling hgone => exact absurd hconn (KeyedTable.find?_eq_none_iff.1 hgone)
  | @closed conn conn' events hfind hclose =>
    have hmem : conn ∈ m.connections.entries := KeyedTable.mem_of_find? hfind
    have hid : conn.connId = connId := KeyedTable.key_of_find? hfind
    have hdoomed : m.Doomed conn.connId :=
      ⟨.closeOnReactor (connId :: conns), hstack ▸ List.mem_cons_self, trivial⟩
    have hclosed := h.closed hwaits hmem hdoomed hclose
    have hoff := ((h.connections conn hmem).closeOnReactor hclose).2
    have hkeySet : (m.connections.set conn').keys = m.connections.keys := KeyedTable.keys_set _ _
    have hrest : Safe config K { m with
        connections := m.connections.set conn', stack := [.closeOnReactor conns] } := by
      refine hclosed.setStack (.waits (.closeOnReactor conns)) ?_ (fun c hc hon => ?_) fun _ _ _ =>
        ⟨.closeOnReactor conns, List.mem_cons_self, trivial⟩
      · refine List.forall_mem_singleton.2 ⟨hpools, fun id hid => ?_⟩
        exact hkeySet.symm ▸ hkeys id (List.mem_cons_of_mem connId hid)
      -- whatever is connected is one of the others
      rcases hclosed.listed c hc hon with ⟨kv, hkv, -⟩ | ⟨conns', hconns', hlisted⟩
      · exact absurd hkv (hpools ▸ List.not_mem_nil)
      have hmemStack : CallFrame.closeOnReactor conns' ∈ m.stack := hconns'
      rw [hstack, List.mem_singleton] at hmemStack
      cases hmemStack
      refine Or.inr ⟨conns, List.mem_cons_self,
        (List.mem_cons.1 hlisted).resolve_left fun hself => ?_⟩
      rcases KeyedTable.mem_set.1 hc with ⟨rfl, -⟩ | ⟨-, hne⟩
      · rw [hoff] at hon
        cases hon
      · refine hne (hself.trans ?_)
        rw [← hid]
        exact (congrArg Prod.fst (Connection.ref_closeOnReactor hclose)).symm
    have hstill : connId ∈ (m.connections.set conn').keys := hkeySet.symm ▸ hconn
    exact hrest.push _ (.events connId events (.closeOnReactor conns)) hstill

/-- The connection that has been closed is forgotten. -/
theorem Safe.lost (h : Safe config K m) (hstack : m.stack = [.connectionLost connId]) :
    Safe config K (({ m with stack := [] } : ConnectionManager).onConnectionLost connId) := by
  refine (h.onConnectionLost connId).setStack (.waits .idle)
    (fun _ hframe => absurd hframe List.not_mem_nil) (fun conn hconn hon => ?_)
    fun entry hentry ⟨frame, hframe, hdooms⟩ => ?_
  · refine (h.listed conn hconn hon).imp_right ?_
    rintro ⟨conns, hconns, -⟩
    rw [hstack, List.mem_singleton] at hconns
    cases hconns
  · rw [show (m.onConnectionLost connId).stack = _ from hstack, List.mem_singleton] at hframe
    subst hframe
    exact absurd hdooms.symm (not_lost hentry)

/-- The connections are destroyed when all of them have been closed. -/
theorem Safe.closedAll (h : Safe config K m) (hK : ∀ id ∈ K, m.Connected id)
    (hstack : m.stack = [.closeOnReactor []]) :
    Safe config K { m with stack := [], requestConnections := .empty, connections := .empty } := by
  obtain ⟨hpools, -⟩ := h.frames (.closeOnReactor []) (hstack ▸ List.mem_cons_self)
  have hoff : ∀ id, ¬ m.Connected id := by
    rintro id ⟨conn, hfind, hon⟩
    rcases h.listed conn (KeyedTable.mem_of_find? hfind) hon with ⟨kv, hkv, -⟩ | ⟨conns, hconns, hid⟩
    · exact absurd hkv (hpools ▸ List.not_mem_nil)
    · rw [hstack, List.mem_singleton] at hconns
      cases hconns
      cases hid
  exact { h with
    kept := fun id hid => absurd (hK id hid) (hoff id)
    nested := .waits .idle
    frames := fun _ hframe => absurd hframe List.not_mem_nil
    pools := fun kv hkv => absurd hkv (hpools ▸ List.not_mem_nil)
    listed := fun _ hconn => absurd hconn List.not_mem_nil
    requestConnections := fun _ hentry => absurd hentry List.not_mem_nil
    connections := fun _ hconn => absurd hconn List.not_mem_nil }

/-! ## Calls that go on -/

/-- None of the requests that are still to be handed over has been handed over. -/
structure Unhanded (m : ConnectionManager) : Prop where
  stack : ∀ frame ∈ m.stack, ∀ pr ∈ frame.holds, pr.context ∉ m.handed
  pending : ∀ kv ∈ m.pendingByEndpoint.entries, ∀ pr ∈ kv.2, pr.context ∉ m.handed

theorem Safe.enqueueConnectTask (h : Safe config K m) (ep : Endpoint) :
    Safe config K (m.enqueueConnectTask ep) := by
  rcases m.enqueueConnectTask_cases ep with heq | heq <;> rw [heq]
  · exact h
  · exact { h with }

/-- The topmost call goes on, up to its next call. -/
theorem Safe.call (h : Safe config K m) (hunhanded : Unhanded m) (hK : ∀ id ∈ K, m.Connected id)
    (hstack : m.stack = frame :: stack) (hs : CallStep { m with stack } frame r) :
    Ensures Halt.Unsafe (Safe config K) r := by
  have hnested : Nested (frame :: stack) := hstack ▸ h.nested
  have hframe : m.FrameSafe frame := h.frames frame (hstack ▸ List.mem_cons_self)
  have hnew := hunhanded.stack frame (hstack ▸ List.mem_cons_self)
  cases hs with
  | fault frame e => exact fault_not_unsafe e
  | returned hreturns =>
    refine h.pop hstack fun id hdooms => ?_
    cases hreturns <;> exact hdooms
  | danglingTarget hgone => exact absurd hframe (KeyedTable.find?_eq_none_iff.1 hgone)
  | canceled hvisits response => exact (h.visit hstack hvisits).1.completeRequest _ _
  | handedOver hvisits hconn hr =>
    obtain ⟨hpushed, hloops, hpr⟩ := h.visit hstack hvisits
    have hmem := hconn.mem
    exact hpushed.handOver hloops hmem (hnew _ hpr) hr
  | parked hvisits rehash => exact (h.visit hstack hvisits).1.park _ _ _
  | dialed pr localQueue rehash =>
    obtain ⟨hpushed, -, -⟩ := h.visit hstack (.drainSubmitQueue pr localQueue)
    exact (hpushed.park _ _ _).enqueueConnectTask _
  | danglingQueue hgone => exact absurd hframe.2 (KeyedTable.find?_eq_none_iff.1 hgone)
  | danglingLoop hgone => exact absurd hframe.1 (KeyedTable.find?_eq_none_iff.1 hgone)
  | emptied hqueue => exact h.setQueue hstack _
  | nextCanceled hqueue hfind response => exact (h.next hstack _ _).1.completeRequest _ _
  | nextHandedOver hqueue hfind hr =>
    obtain ⟨hnext, hloops⟩ := h.next hstack _ _
    exact hnext.handOver hloops (KeyedTable.mem_of_find? hfind)
      (hunhanded.pending _ (KeyedTable.mem_of_find? hqueue) _ List.mem_cons_self) hr
  | recorded context connId =>
    exact (h.pop hstack fun _ hdooms => hdooms).record hnested.below_submitted hframe
  | danglingEvents hgone => exact absurd hframe (KeyedTable.find?_eq_none_iff.1 hgone)
  | danglingReport hentry hgone =>
    exact absurd (h.connection_mem hentry) (KeyedTable.find?_eq_none_iff.1 hgone)
  | reported hfind hentry => exact (h.takeEvent hstack).1.reported hfind _ _
  | @replaced connId context response events conn entry ep hfind hentry =>
    obtain ⟨htaken, hbelow⟩ := h.takeEvent hstack
    -- a submission is not recorded before its events have been processed
    have hwaits : Waits stack := by
      refine hbelow.resolve_right ?_
      rintro ⟨_, _, heq, hnot⟩
      cases heq
      exact hnot (KeyedTable.mem_keys_of_find? hentry)
    exact (htaken.reported hfind context response).trySubmitPending
      (stack_completeRequest _ _ _) hwaits ep
  | @noted connId event events conn hfind hevent =>
    have hmem : conn ∈ m.connections.entries := KeyedTable.mem_of_find? hfind
    obtain ⟨hsound, hconnected⟩ := (h.connections conn hmem).handleEvent event
    have hsame : (conn.handleEvent event).connected = conn.connected := by
      refine hconnected.resolve_right ?_
      rintro rfl
      rcases hevent with heq | heq <;> cases heq
    exact (h.takeEvent hstack).1.setConnection hmem ⟨hsound, hsame, conn.ref_handleEvent event⟩
  | @died connId events conn hfind =>
    obtain ⟨htaken, hbelow⟩ := h.takeEvent hstack
    have hwaits : Waits stack := by
      refine hbelow.resolve_right ?_
      rintro ⟨_, _, heq, -⟩
      cases heq
    refine htaken.died hfind fun context hmem => ?_
    rcases List.mem_cons.1 hmem with heq | hin
    · cases heq
    · exact hwaits.not_submitted context _ hin
  | finished context response =>
    exact (h.pop hstack fun _ hdooms => hdooms).completeRequest context response
  | destroyed =>
    obtain rfl : stack = [] := hnested.below_task (by simp) (by simp) (by simp)
    exact h.closedAll hK hstack
  | closed hs =>
    obtain rfl : stack = [] := hnested.below_task (by simp) (by simp) (by simp)
    exact h.closeNext hstack hs
  | lost connId =>
    obtain rfl : stack = [] := hnested.below_task (by simp) (by simp) (by simp)
    exact h.lost hstack

end Handlers

end ConnectionManager

end Chttp2
