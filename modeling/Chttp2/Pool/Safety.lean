import Chttp2.Pool.Handover

/-!
# No dangling pointers

Connections are destroyed while `requestConnections` and the calls of the reactor thread hold plain
pointers to them. Every step keeps the pointers good and uses none that is not (`Safe.apply`, by
cases on `ManagerStep`), so no run comes to a use of a connection or of a queue that is gone
(`no_dangling_pointer`). A connection
that is destroyed has no descriptor and no timer left (`destroyed_unregistered`).
-/

set_option autoImplicit false

namespace Chttp2

/-- What is filed stays filed, and what is pushed is there. -/
theorem EndpointTable.mem_pushBack {α : Type} {table : EndpointTable (List α)}
    {rehash : Reorder (Endpoint × List α)} {ep : Endpoint} {a b : α}
    (h : (∃ kv ∈ table.entries, b ∈ kv.2) ∨ b = a) :
    ∃ kv ∈ (table.pushBack rehash ep a).entries, b ∈ kv.2 := by
  unfold EndpointTable.pushBack
  split
  · rename_i kv hfind
    have hmem := KeyedTable.mem_of_find? hfind
    have hkeys : kv.1.key ∈ table.keys := KeyedTable.key_mem_keys hmem
    have hself : (kv.1, kv.2 ++ [a]) ∈ (table.set (kv.1, kv.2 ++ [a])).entries :=
      KeyedTable.mem_set.2 (Or.inl ⟨rfl, hkeys⟩)
    rcases h with ⟨kv', hkv', hb⟩ | rfl
    · by_cases hkey : kv'.1.key = kv.1.key
      · obtain rfl := KeyedTable.eq_of_key_eq hkv' hmem hkey
        exact ⟨_, hself, List.mem_append_left _ hb⟩
      · exact ⟨kv', KeyedTable.mem_set.2 (Or.inr ⟨hkv', hkey⟩), hb⟩
    · exact ⟨_, hself, List.mem_append_right _ List.mem_cons_self⟩
  · rename_i hnone
    rcases h with ⟨kv', hkv', hb⟩ | rfl
    · refine ⟨kv', KeyedTable.mem_insert.2 (Or.inr ⟨hkv', fun hkey => ?_⟩), hb⟩
      exact KeyedTable.find?_eq_none_iff.1 hnone (hkey ▸ KeyedTable.key_mem_keys hkv')
    · exact ⟨_, KeyedTable.mem_insert.2 (Or.inl rfl), List.mem_cons_self⟩

namespace ConnectionManager

open Machine (Ensures ensures_bind)

theorem disabled_not_unsafe : ¬ Halt.Unsafe .disabled := by simp [Halt.Unsafe]

/-- The step is the one at which the code has a data race: `cancel` finds that the reactor takes no
task any more and runs `handleCancelOnReactor` on the thread of the user, while the thread of the
reactor has not been joined or another user thread is inside the handler. -/
def Races (m : ConnectionManager) (op : Op) : Prop :=
  m.running = false ∧ (m.alive = true ∨ m.stack ≠ []) ∧ ∃ requestId, op = .cancel requestId

/-- A step is bad that is unsafe and does not race. -/
def BadAt (m : ConnectionManager) (op : Op) (halt : Halt) : Prop :=
  halt.Unsafe ∧ (halt = .dataRace → ¬ m.Races op)

section Handlers

variable {config : ConnectionConfig} {K : List ConnectionId} {m : ConnectionManager}
  {conn conn' : Connection} {connId : ConnectionId} {requestId : RequestId}
  {events : List (SessionEvent RequestId)} {r : Managed ConnectionManager}

/-! ## Tasks -/

/-- Only connections that are not connected are destroyed. -/
theorem Safe.drainSubmitQueue (h : Safe config K m) (hstack : m.stack = [])
    (hK : ∀ id ∈ K, m.Connected id) : Safe config K m.drainSubmitQueue := by
  have hgood : ∀ id, m.Connected id → id ∉ (m.connections.entries.filter fun conn =>
      !conn.isConnected).map Connection.connId := by
    rintro id ⟨conn, hfind, hon⟩ hdead
    obtain ⟨c, hc, rfl⟩ := List.mem_map.1 hdead
    obtain ⟨hmem, hoff⟩ := List.mem_filter.1 hc
    rw [KeyedTable.mem_iff_find?.1 hmem] at hfind
    cases hfind
    rw [Connection.isConnected, hon] at hoff
    cases hoff
  have hkeys : ∀ id, m.Connected id → id ∈ m.pruneConnections.connections.keys := fun id hc =>
    KeyedTable.mem_keys_eraseAll.2 ⟨hc.elim fun _ hfind => KeyedTable.mem_keys_of_find? hfind.1,
      hgood id hc⟩
  have hconnected : ∀ id, m.Connected id → m.pruneConnections.Connected id := by
    intro id hc
    obtain ⟨conn, hfind, hon⟩ := hc
    refine ⟨conn, KeyedTable.find?_eq_some_iff.2 ⟨KeyedTable.mem_eraseAll.2
      ⟨KeyedTable.mem_of_find? hfind, ?_⟩, KeyedTable.key_of_find? hfind⟩, hon⟩
    rw [show conn.connId = id from KeyedTable.key_of_find? hfind]
    exact hgood id ⟨conn, hfind, hon⟩
  have hpruned : Safe config K { m.pruneConnections with submitQueue := [] } := { h with
    kept := fun id hid => hkeys id (hK id hid)
    frames := fun frame hframe => by
      rw [show m.pruneConnections.stack = [] from hstack] at hframe
      cases hframe
    pools := fun kv hkv id hid => by
      obtain ⟨kv', hkv', rfl⟩ := List.mem_map.1 hkv
      obtain ⟨hold, hlive⟩ := List.mem_filter.1 hid
      exact KeyedTable.mem_keys_eraseAll.2 ⟨h.pools kv' hkv' id hold, of_decide_eq_true hlive⟩
    listed := fun conn hc hon => by
      obtain ⟨hmem, hlive⟩ := KeyedTable.mem_eraseAll.1 hc
      rcases h.listed conn hmem hon with ⟨kv, hkv, hid⟩ | ⟨conns, hconns, -⟩
      · exact Or.inl ⟨_, List.mem_map_of_mem hkv, List.mem_filter.2 ⟨hid, decide_eq_true hlive⟩⟩
      · rw [hstack] at hconns
        cases hconns
    requestConnections := fun entry hentry => by
      obtain ⟨hhanded, -, husable⟩ := h.requestConnections entry hentry
      have hc : m.Connected entry.2 := by
        refine husable.resolve_right ?_
        rintro ⟨frame, hframe, -⟩
        rw [hstack] at hframe
        cases hframe
      exact ⟨hhanded, hkeys _ hc, Or.inl (hconnected _ hc)⟩
    connections := fun conn hc => h.connections conn (KeyedTable.mem_eraseAll.1 hc).1 }
  refine hpruned.push _ ?_ trivial
  rw [show m.pruneConnections.stack = [] from hstack]
  exact .loops (.drainSubmitQueue m.submitQueue)

/-- The requests that wait for a connection fail with it. -/
theorem Safe.onConnectionFailed (h : Safe config K m) (hstack : m.stack = []) (ep : Endpoint) :
    Safe config K (m.onConnectionFailed ep) := by
  have herased : Safe config K { m with
      connectingEndpoints := m.connectingEndpoints.erase ep.key } := { h with }
  rw [ConnectionManager.onConnectionFailed]
  rcases drainPendingForEndpoint_cases _ ep with heq | ⟨kv, -, heq⟩ <;> rw [heq]
  · exact herased
  · exact (herased.replacePending hstack _).completeAll _ _

/-- A connection that the reactor has taken joins its pool. -/
theorem Safe.pooled (h : Safe config K m) (hstack : m.stack = []) (hsound : conn.Sound config)
    (hon : conn.connected = true) (ep : Endpoint) (rehash : Rehash) :
    Safe config K { m with
      connectingEndpoints := m.connectingEndpoints.erase ep.key
      connections := m.connections.insert (.id _) conn
      pools := m.pools.pushBack rehash.pools ep conn.connId } := by
  have hkeys : ∀ id ∈ m.connections.keys, id ∈ (m.connections.insert (.id _) conn).keys :=
    fun id hid => KeyedTable.mem_keys_insert.2 (Or.inr hid)
  refine { h with
    kept := fun id hid => hkeys id (h.kept id hid)
    frames := fun frame hframe => absurd hframe (hstack ▸ List.not_mem_nil)
    pools := EndpointTable.Files.pushBack (fun kv hkv id hid => hkeys id (h.pools kv hkv id hid))
      rehash.pools (KeyedTable.mem_keys_insert.2 (Or.inl rfl))
    listed := fun c hc hcon => Or.inl (EndpointTable.mem_pushBack ?_)
    requestConnections := fun entry hentry => ?_
    connections := fun c hc => ?_ }
  · rcases KeyedTable.mem_insert.1 hc with rfl | ⟨hold, -⟩
    · exact Or.inr rfl
    · refine Or.inl ((h.listed c hold hcon).resolve_right ?_)
      rintro ⟨conns, hconns, -⟩
      exact absurd hconns (hstack ▸ List.not_mem_nil)
  · -- a connection with the same id gives way to one that is connected
    obtain ⟨hhanded, hmem, husable⟩ := h.requestConnections entry hentry
    refine ⟨hhanded, hkeys _ hmem, Or.inl ?_⟩
    obtain ⟨c, hfind, hcon⟩ := husable.resolve_right fun ⟨frame, hframe, _⟩ =>
      absurd hframe (hstack ▸ List.not_mem_nil)
    by_cases hself : entry.2 = conn.connId
    · exact ⟨conn, (KeyedTable.find?_insert _ _ _ _).trans (if_pos hself), hon⟩
    · exact ⟨c, (KeyedTable.find?_insert _ _ _ _).trans ((if_neg hself).trans hfind), hcon⟩
  · rcases KeyedTable.mem_insert.1 hc with rfl | ⟨hold, -⟩
    · exact hsound
    · exact h.connections c hold

/-- The connections of the pools become the list of the loop. -/
theorem Safe.closeOnReactor (h : Safe config K m) (hstack : m.stack = []) :
    Safe config K m.closeOnReactor := by
  have hcompleted := h.completeAll (.failConnectionError (ascii "Connection closed"))
    (m.pendingByEndpoint.entries.flatMap fun kv => kv.2.map PendingRequest.context)
  obtain ⟨hstackSame, hconnections, hpools⟩ := completeAll_same
    (.failConnectionError (ascii "Connection closed"))
    (m.pendingByEndpoint.entries.flatMap fun kv => kv.2.map PendingRequest.context) m
  have hlisted := hcompleted.listed
  have hfiled := hcompleted.pools
  unfold ConnectionManager.closeOnReactor
  simp only
  generalize ConnectionManager.completeAll (.failConnectionError (ascii "Connection closed"))
    (m.pendingByEndpoint.entries.flatMap fun kv => kv.2.map PendingRequest.context) m = m₁ at *
  rw [hstack] at hstackSame
  rw [← hpools]
  exact { hcompleted with
    nested := .waits (hstackSame ▸ .closeOnReactor _)
    frames := by
      refine List.forall_mem_cons.2 ⟨⟨rfl, fun id hid => ?_⟩, fun frame hframe => ?_⟩
      · obtain ⟨kv, hkv, hid⟩ := List.mem_flatMap.1 hid
        exact hfiled kv hkv id hid
      · exact absurd hframe (hstackSame ▸ List.not_mem_nil)
    pools := .empty
    listed := fun conn hconn hon => by
      rcases hlisted conn hconn hon with ⟨kv, hkv, hid⟩ | ⟨conns, hconns, -⟩
      · exact Or.inr ⟨_, List.mem_cons_self, List.mem_flatMap.2 ⟨kv, hkv, hid⟩⟩
      · exact absurd hconns (hstackSame ▸ List.not_mem_nil)
    requestConnections := fun entry hentry => by
      obtain ⟨hhanded, hmem, -⟩ := hcompleted.requestConnections entry hentry
      exact ⟨hhanded, hmem, Or.inr ⟨_, List.mem_cons_self, trivial⟩⟩ }

/-- A connection reports events, inside a call that waits for them. -/
theorem Safe.pushEvents (h : Safe config K m) (hwaits : Waits m.stack)
    (hfind : m.connections.find? connId = some conn) (hserves : conn.Serves config conn') :
    Safe config K ({ m with connections := m.connections.set conn' }.push
      (.processSessionEvents connId events)) := by
  have hset := h.setConnection (KeyedTable.mem_of_find? hfind) hserves
  have hstill : connId ∈ (m.connections.set conn').keys := by
    rw [KeyedTable.keys_set]
    exact KeyedTable.mem_keys_of_find? hfind
  exact hset.push _ (.events connId events hwaits) hstill

/-- The request is taken from where it is, or from its connection inside a call that reports it. -/
theorem Safe.abandon (h : Safe config K m) (hstack : m.stack = []) (hs : AbandonStep m requestId r) :
    Ensures Halt.Unsafe (Safe config K) r := by
  have hmarked := h.markCanceled requestId
  have hwaits : ∀ response, Waits (.finishRequest requestId response :: m.stack) :=
    fun response => hstack ▸ .finishRequest requestId response
  have hlater : ∀ response, Safe config K
      ((m.markCanceled requestId).push (.finishRequest requestId response)) :=
    fun response => hmarked.push _ (.waits (hwaits response)) trivial
  cases hs with
  | fault e => exact fault_not_unsafe e
  | dangling hentry hgone =>
    exact absurd (h.connection_mem hentry) (KeyedTable.find?_eq_none_iff.1 hgone)
  | unknown => exact h
  | dequeued response =>
    have hremoved : Safe config K { m.markCanceled requestId with
        submitQueue := m.submitQueue.eraseP fun pr => pr.context = requestId } := { hmarked with }
    exact hremoved.completeRequest _ _
  | withdrawn hkv response => exact (hmarked.replacePending hstack _).completeRequest _ _
  | elsewhere response => exact hlater response
  | @onConnection entry conn streamId session events hentry hfind hcancel response =>
    have hsound := h.connections conn (KeyedTable.mem_of_find? hfind)
    have happly : conn.session.apply (.cancelRequest streamId) = .ok (session, events) := hcancel
    exact (hlater response).pushEvents (hwaits response) hfind
      (hsound.setSession (hsound.session.apply happly))

theorem Safe.task (h : Safe config K m) (hstack : m.stack = []) (hK : ∀ id ∈ K, m.Connected id)
    {task : ReactorTask} (htask : TaskFresh config task) (hs : TaskStep m task r) :
    Ensures Halt.Unsafe (Safe config K) r := by
  cases hs with
  | fault task e => exact fault_not_unsafe e
  | drainSubmitQueue => exact h.drainSubmitQueue hstack hK
  | unregistered ep conn => exact h.onConnectionFailed hstack ep
  | registered rehash hregister =>
    obtain ⟨hsound, hon⟩ := Connection.Fresh.registerWithReactor htask hregister
    exact h.pooled hstack hsound hon _ rehash
  | @dispatching ep conn conn' registered rehash kv hregister hpending =>
    obtain ⟨hsound, hon⟩ := Connection.Fresh.registerWithReactor htask hregister
    have herased := (h.pooled hstack hsound hon ep rehash).replacePending hstack
      (m.pendingByEndpoint.erase ep.key)
    have hloops : Loops (.onConnectionEstablished ep conn'.connId kv.2 :: m.stack) :=
      hstack ▸ .onConnectionEstablished ep conn'.connId kv.2
    exact herased.push _ (.loops hloops) (KeyedTable.mem_keys_insert.2 (Or.inl rfl))
  | onConnectionFailed ep => exact h.onConnectionFailed hstack ep
  | abandoned hs => exact h.abandon hstack hs
  | closeOnReactor => exact h.closeOnReactor hstack

/-! ## Steps -/

/-- A task is posted. -/
theorem Safe.post (h : Safe config K m) (task : ReactorTask) (htask : TaskFresh config task) :
    Safe config K { m with tasks := m.tasks ++ [task] } :=
  { h with tasks := List.forall_mem_append.2 ⟨h.tasks, List.forall_mem_singleton.2 htask⟩ }

/-- A connection serves the reactor and stays sound. -/
theorem serves_of_served (hsound : conn.Sound config) (hserved : conn.Served conn' events) :
    conn.Serves config conn' := by
  cases hserved with
  | readable heq => exact hsound.onSessionReadable heq
  | writable heq => exact hsound.onSessionWritable heq
  | pingTimer hon heq => exact hsound.onPingTimer hon heq

/-- The timer of the answer is on only while a PING is out. -/
theorem pinged_of_timer (hsound : conn.Sound config) (hon : conn.pingTimeoutTimer = true) :
    conn.pendingPing = true ∧ conn.connected = true := by
  refine ⟨hsound.awaited hon, ?_⟩
  by_contra hoff
  have hoff' : conn.connected = false := by simpa using hoff
  exact absurd (hon.symm.trans (hsound.unregistered hoff').2.2) (by decide)

/-- Every step keeps the pointers good and uses none that is not, and it leaves the connections in
the table that are connected. -/
theorem Safe.step (h : Safe config K m) (hunhanded : Unhanded m) (hK : ∀ id ∈ K, m.Connected id)
    {op : Op} (hs : ManagerStep m op r) : Ensures (m.BadAt op) (Safe config K) r := by
  have hsafe : ∀ {x : Managed ConnectionManager}, Ensures Halt.Unsafe (Safe config K) x →
      Ensures (m.BadAt op) (Safe config K) x := fun hx => hx.of_bad fun _ => And.left
  cases hs with
  | disabled op => exact fun hbad => disabled_not_unsafe hbad.1
  | fault op e => exact fun hbad => fault_not_unsafe e hbad.1
  | startFailed request ep timeoutMs started t response =>
    have hstarted : Safe config K ((m.register timeoutMs).setThreads t) := { h with }
    exact hstarted.completeRequest _ _
  | sent | untimed | scheduled | queued => exact { h with }
  | @unscheduled context call hcall response =>
    have hreturned : Safe config K { m with sending := m.sending.erase context } := { h with }
    exact hreturned.completeRequest _ _
  | @posted context call hcall hphase =>
    have hreturned : Safe config K { m with sending := m.sending.erase context } := { h with }
    exact hreturned.post _ trivial
  | @unposted context call hcall hphase response =>
    have hremoved : Safe config K { m with
        sending := m.sending.erase context
        submitQueue := m.submitQueue.eraseP fun pr => pr.context = context } := { h with }
    exact hremoved.completeRequest _ _
  | late | unknown => exact h
  | marked requestId => exact h.markCanceled requestId
  | cancelPosted requestId => exact (h.markCanceled requestId).post _ trivial
  | dataRace hoff hbusy => exact fun hbad => hbad.2 rfl ⟨hoff, hbusy, _, rfl⟩
  | abandoned hstack hs => exact hsafe ((h.markCanceled _).abandon hstack hs)
  | closing t => exact { h with }
  | closePosted t =>
    have hset : Safe config K (m.setThreads t) := { h with }
    exact hset.post _ trivial
  | joined t hstack => exact { h with tasks := fun _ htask => absurd htask List.not_mem_nil }
  | failedQueued t response =>
    have hemptied : Safe config K { m.setThreads t with submitQueue := [] } := { h with }
    exact hemptied.completeAll _ _
  | failedAll t response =>
    have hset : Safe config K (m.setThreads t) := { h with }
    exact hset.completeAll _ _
  | dropped htasks => exact { h with }
  | @connected ready ok task connectTasks conn htasks hconnect =>
    have htaken : Safe config K { m with connectTasks } := { h with }
    have hfresh := (Connection.fresh_make task.connId task.endpoint m.config).connect hconnect
    rw [h.configured] at hfresh
    exact htaken.post _ hfresh
  | @unconnected ready task connectTasks htasks =>
    have htaken : Safe config K { m with connectTasks } := { h with }
    exact htaken.post _ trivial
  | @ranTask registered rehash task tasks r hstack htasks hs =>
    have hall := h.tasks
    rw [htasks] at hall
    obtain ⟨htask, hrest⟩ := List.forall_mem_cons.1 hall
    have htaken : Safe config K { m with tasks } := { h with tasks := hrest }
    exact hsafe (htaken.task hstack hK htask hs)
  | @timedOut requestId r hstack hs =>
    have hfired : Safe config K (m.setTimer requestId false) := { h with }
    exact hsafe (hfired.abandon hstack hs)
  | served hop hstack hfind hserved =>
    have hsound := h.connections _ (KeyedTable.mem_of_find? hfind)
    exact h.pushEvents (hstack ▸ .idle) hfind (serves_of_served hsound hserved)
  | answered hstack hfind hon hnone =>
    have hpinged := pinged_of_timer (h.connections _ (KeyedTable.mem_of_find? hfind)) hon
    rw [hpinged.1, hpinged.2] at hnone
    exact absurd hnone (by decide)
  | @unanswered connId conn r hstack hfind hs =>
    have hmem := KeyedTable.mem_of_find? hfind
    have hset := h.setConnection hmem (h.connections conn hmem).pingTimeout
    have hwaits : Waits (.connectionLost connId :: m.stack) := hstack ▸ .connectionLost connId
    have hstill : connId ∈ (m.connections.set
        { conn with pingTimeoutTimer := false, pendingPing := false }).keys := by
      rw [KeyedTable.keys_set]
      exact KeyedTable.mem_keys_of_find? hfind
    exact hsafe ((hset.push (.connectionLost connId) (.waits hwaits) trivial).closeLost
      (congrArg _ hstack) hstill hs)
  | worked hstack hs => exact hsafe (h.call hunhanded hK hstack hs)

theorem Safe.apply (h : Safe config K m) (hunhanded : Unhanded m) (hK : ∀ id ∈ K, m.Connected id)
    (op : Op) : Ensures (m.BadAt op) (Safe config K) (m.apply op) :=
  h.step hunhanded hK (m.apply_cases op)

end Handlers

/-! ## Runs -/

section Runs

variable {config : ConnectionConfig} {tr : List (Machine.Entry ConnectionManager Op Unit)}
  {m : ConnectionManager}

/-- A request that is held in one place is not held in another. -/
theorem runs_unhanded (hr : Machine.Runs step (.ofConfig config) tr m) : Unhanded m := by
  have hnot : ∀ prs : List PendingRequest, (∀ p, prs.countP p +
      (m.handedOver.map Prod.fst).countP p ≤ m.held p) → ∀ pr ∈ prs, pr.context ∉ m.handed := by
    intro prs hprs pr hpr hmem
    obtain ⟨h, hh, heq⟩ := List.mem_map.1 hmem
    have hle := (hprs _).trans (held_le_one hr pr.context)
    have hhere : 0 < prs.countP fun x => x.context = pr.context :=
      List.countP_pos_iff.2 ⟨pr, hpr, by simp⟩
    have hthere : 0 < (m.handedOver.map Prod.fst).countP fun x => x.context = pr.context :=
      List.countP_pos_iff.2 ⟨h.1, List.mem_map_of_mem hh, by simpa using heq⟩
    omega
  constructor
  · intro frame hframe
    refine hnot frame.holds fun p => ?_
    have hle := List.single_le_sum (l := m.stack.map fun frame => frame.holds.countP p)
      (fun _ _ => Nat.zero_le _) _ (List.mem_map_of_mem hframe)
    simp only [held]
    omega
  · intro kv hkv
    refine hnot kv.2 fun p => ?_
    have htotal := KeyedTable.total_erase (fun kv => kv.2.countP p) (KeyedTable.mem_iff_find?.1 hkv)
    simp only [held]
    omega

theorem runs_safe (hr : Machine.Runs step (.ofConfig config) tr m) :
    Safe config [] m ∧ ∀ op halt, m.step op = .error halt → ¬ m.BadAt op halt := by
  refine hr.ensures (I := Safe config []) (safe_ofConfig config) fun tr m op hr h => ?_
  exact ensures_bind.2 ((h.apply (runs_unhanded hr) (fun _ hid => absurd hid List.not_mem_nil)
    op).mono fun _ hsafe => hsafe)

/-- For every configuration, in every run and at every step: no pointer to a connection that has been
destroyed is used, and no pointer to a queue that has been erased, and no data of the reactor is used
by two threads, unless a call of `cancel` races with the reactor. A run ends before such a call. -/
theorem no_dangling_pointer (hr : Machine.Runs step (.ofConfig config) tr m) (op : Op) :
    m.step op ≠ .error .danglingConnection ∧ m.step op ≠ .error .danglingQueue ∧
      (m.step op = .error .dataRace → m.Races op) := by
  have hgood := (runs_safe hr).2 op
  refine ⟨fun heq => hgood _ heq ⟨Or.inl rfl, nofun⟩,
    fun heq => hgood _ heq ⟨Or.inr (Or.inl rfl), nofun⟩, fun heq => ?_⟩
  by_contra hnot
  exact hgood _ heq ⟨Or.inr (Or.inr rfl), fun _ => hnot⟩

/-- A request waits for the only stream of a connection, and the request that has the stream is
cancelled. -/
def waitingRequest : List Op :=
  twoRequests namedEndpoint namedEndpoint ++
    [.work .none, .cancel 1, .runTask true .none, .work .none, .work .none]

/-- The connection of a request is closed with the manager. -/
def closedRequest : List Op :=
  (twoRequests namedEndpoint namedEndpoint).take 13 ++
    [.close, .close, .close, .runTask true .none, .work .none]

/-- The cancelled request makes room for the one that waits, and `trySubmitPending` hands that over
inside the events of the cancellation; and the loop of `closeOnReactor` is about to report a request
of a connection. -/
theorem no_dangling_pointer_nested :
    (∃ tr, ∃ m : ConnectionManager, Machine.Runs step (.ofConfig { maxConcurrentStreams := 1 }) tr m ∧
      m.stack.countP CallFrame.ofPending = 1 ∧ m.stack.countP CallFrame.ofEvents = 2 ∧
      ∀ op, m.step op ≠ .error .danglingConnection ∧ m.step op ≠ .error .danglingQueue ∧
        (m.step op = .error .dataRace → m.Races op)) ∧
    ∃ tr, ∃ m : ConnectionManager, Machine.Runs step (.ofConfig {}) tr m ∧
      m.stack.map CallFrame.ofClosing = [false, true] ∧ m.requestConnections.keys = [1] ∧
      ∀ op, m.step op ≠ .error .danglingConnection ∧ m.step op ≠ .error .danglingQueue ∧
        (m.step op = .error .dataRace → m.Races op) := by
  constructor
  · have hrun : (Machine.run step (.ofConfig { maxConcurrentStreams := 1 }) waitingRequest).map
        (fun x => (x.1.stack.countP CallFrame.ofPending, x.1.stack.countP CallFrame.ofEvents)) =
        .ok (1, 2) := by decide +kernel
    obtain ⟨m, tr, hr, -, hresult⟩ := Machine.exists_runs_of_map hrun
    obtain ⟨hpending, hevents⟩ := Prod.mk.inj hresult
    exact ⟨tr, m, hr, hpending, hevents, fun op => no_dangling_pointer hr op⟩
  · have hrun : (Machine.run step (.ofConfig {}) closedRequest).map
        (fun x => (x.1.stack.map CallFrame.ofClosing, x.1.requestConnections.keys)) =
        .ok ([false, true], [1]) := by decide +kernel
    obtain ⟨m, tr, hr, -, hresult⟩ := Machine.exists_runs_of_map hrun
    obtain ⟨hstack, hkeys⟩ := Prod.mk.inj hresult
    exact ⟨tr, m, hr, hstack, hkeys, fun op => no_dangling_pointer hr op⟩

/-- For every configuration and in every run: at most two calls of `processSessionEvents` are open,
and one of `trySubmitPending` and of `submitOnReactor` each, however many requests wait. -/
theorem calls_bounded (hr : Machine.Runs step (.ofConfig config) tr m) :
    m.stack.countP CallFrame.ofEvents ≤ 2 ∧ m.stack.countP CallFrame.ofPending ≤ 1 ∧
      m.stack.countP CallFrame.ofSubmission ≤ 1 :=
  (runs_safe hr).1.nested.count_le

/-- The bounds are reached when a waiting request is handed over inside a cancellation. -/
theorem calls_bounded_nested :
    ∃ tr, ∃ m : ConnectionManager,
      Machine.Runs step (.ofConfig { maxConcurrentStreams := 1 }) tr m ∧ m.stack.length = 5 ∧
      m.stack.countP CallFrame.ofEvents ≤ 2 ∧ m.stack.countP CallFrame.ofPending ≤ 1 ∧
        m.stack.countP CallFrame.ofSubmission ≤ 1 := by
  have hrun : (Machine.run step (.ofConfig { maxConcurrentStreams := 1 }) waitingRequest).map
      (fun x => x.1.stack.length) = .ok 5 := by decide +kernel
  obtain ⟨m, tr, hr, -, hlength⟩ := Machine.exists_runs_of_map hrun
  exact ⟨tr, m, hr, hlength, calls_bounded hr⟩

/-- For every configuration and in every run: a connection that leaves the table in a step is not
connected, and the reactor has neither its descriptor nor one of its timers. -/
theorem destroyed_unregistered (hr : Machine.Runs step (.ofConfig config) tr m) {op : Op}
    {m' : ConnectionManager} (hstep : m.step op = .ok (m', ())) :
    ∀ conn ∈ m.connections.entries, conn.connId ∉ m'.connections.keys →
      conn.connected = false ∧ conn.sessionFd = false ∧ conn.pingTimer = false ∧
        conn.pingTimeoutTimer = false := by
  intro conn hmem hgone
  have hsafe := (runs_safe hr).1
  have hoff : conn.connected = false := by
    by_contra hon
    -- a connection that is connected would be kept
    have hkeep : Safe config [conn.connId] m := { hsafe with
      kept := List.forall_mem_singleton.2 (KeyedTable.key_mem_keys hmem) }
    obtain ⟨m₁, happly, hret⟩ := managed_bind_eq_ok.1 hstep
    cases hret
    have hnext := hkeep.apply (runs_unhanded hr) (List.forall_mem_singleton.2
      ⟨conn, KeyedTable.mem_iff_find?.1 hmem, by simpa using hon⟩) op
    rw [happly] at hnext
    exact hgone (hnext.kept _ List.mem_cons_self)
  exact ⟨hoff, (hsafe.connections conn hmem).unregistered hoff⟩

/-- The peer closes the connection of two requests, and a third request is on its way. -/
def lostConnection : List Op :=
  twoRequests namedEndpoint namedEndpoint ++
    [.work .none, .work .none, .work .none, .onSessionReadable 1 [] .closed, .work .none,
      .work .none, .work .none, .work .none, .sendAsync getRequest namedEndpoint (-1) true,
      .continueSend 3, .continueSend 3, .continueSend 3]

/-- The third request finds the connection in the pool, and it is destroyed. -/
theorem destroyed_unregistered_lost :
    ∃ tr, ∃ m m' : ConnectionManager, Machine.Runs step (.ofConfig {}) tr m ∧
      m.step (.runTask true .none) = .ok (m', ()) ∧ m.connections.keys = [1] ∧
      m'.connections.keys = [] ∧
      ∀ conn ∈ m.connections.entries, conn.connId ∉ m'.connections.keys →
        conn.connected = false ∧ conn.sessionFd = false ∧ conn.pingTimer = false ∧
          conn.pingTimeoutTimer = false := by
  have hrun : (Machine.run step (.ofConfig {}) lostConnection).map (fun x =>
      (x.1.connections.keys, (x.1.step (.runTask true .none)).toOption.map fun r =>
        r.1.connections.keys)) = .ok ([1], some []) := by
    decide +kernel
  obtain ⟨m, tr, hr, -, hresult⟩ := Machine.exists_runs_of_map hrun
  obtain ⟨hkeys, hkeys'⟩ := Prod.mk.inj hresult
  dsimp only at hkeys hkeys'
  cases hstep : m.step (.runTask true .none) with
  | error halt =>
    rw [hstep] at hkeys'
    cases hkeys'
  | ok r =>
    rw [hstep] at hkeys'
    exact ⟨tr, m, r.1, hr, hstep, hkeys, Option.some.inj hkeys', destroyed_unregistered hr hstep⟩

end Runs

end ConnectionManager

end Chttp2
