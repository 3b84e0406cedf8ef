import Chttp2.Pool.ManagerStep

/-!
# Requests and connections under their keys

Everything that the connection manager holds is filed under the key of its endpoint: the waiting
requests, the connections of the pools, and the calls of the reactor thread that have not returned
(`Filed`). A connection id stands for the endpoint that it has been given out for. Every case of
`ManagerStep` keeps the invariant, and so does every step (`Filed.apply`).
-/

set_option autoImplicit false

namespace Chttp2

/-! ## Tables of lists -/

namespace EndpointTable

variable {α : Type} {P : EndpointKey → α → Prop} {table : EndpointTable (List α)}

/-- Whatever is filed under a key has the property that belongs to the key. -/
def Files (P : EndpointKey → α → Prop) (table : EndpointTable (List α)) : Prop :=
  ∀ kv ∈ table.entries, ∀ a ∈ kv.2, P kv.1.key a

theorem Files.empty : Files P .empty := fun _ hkv => absurd hkv List.not_mem_nil

theorem Files.of_find? (h : Files P table) {k : EndpointKey} {e : Endpoint} {l : List α}
    (hfind : table.find? k = some (e, l)) : ∀ a ∈ l, P k a := by
  obtain ⟨hmem, rfl⟩ := KeyedTable.find?_eq_some_iff.1 hfind
  exact h (e, l) hmem

theorem Files.set (h : Files P table) {e : Endpoint} {l : List α} (hl : ∀ a ∈ l, P e.key a) :
    Files P (table.set (e, l)) := by
  intro kv hkv
  rcases KeyedTable.mem_set.1 hkv with ⟨rfl, -⟩ | ⟨hmem, -⟩
  · exact hl
  · exact h kv hmem

theorem Files.erase (h : Files P table) (k : EndpointKey) : Files P (table.erase k) :=
  fun kv hkv => h kv (KeyedTable.mem_erase.1 hkv).1

theorem Files.pushBack (h : Files P table) (rehash : Reorder (Endpoint × List α)) {ep : Endpoint}
    {a : α} (ha : P ep.key a) : Files P (table.pushBack rehash ep a) := by
  unfold EndpointTable.pushBack
  split
  · rename_i kv hfind
    obtain ⟨hmem, hkey⟩ := KeyedTable.find?_eq_some_iff.1 hfind
    refine h.set fun b hb => ?_
    rcases List.mem_append.1 hb with hold | hnew
    · exact h kv hmem b hold
    · rw [List.mem_singleton.1 hnew]
      exact hkey ▸ ha
  · intro kv hkv
    rcases KeyedTable.mem_insert.1 hkv with rfl | ⟨hmem, -⟩
    · intro b hb
      rw [List.mem_singleton.1 hb]
      exact ha
    · exact h kv hmem

end EndpointTable

namespace ConnectionManager

/-! ## The invariant -/

variable {S : Endpoint → Prop} {owner : ConnectionId → Option Endpoint}

/-- The id has been given out for an endpoint with the key. -/
def OwnerKey (owner : ConnectionId → Option Endpoint) (k : EndpointKey) (id : ConnectionId) : Prop :=
  ∃ ep, owner id = some ep ∧ ep.key = k

/-- The request goes to an endpoint of the set that has the key. -/
def RequestKey (S : Endpoint → Prop) (k : EndpointKey) (pr : PendingRequest) : Prop :=
  S pr.endpoint ∧ pr.endpoint.key = k

/-- A connection that has been made carries the endpoint of its id. -/
def TaskFiled (owner : ConnectionId → Option Endpoint) : ReactorTask → Prop
  | .onConnectionEstablished ep conn => conn.endpoint = ep ∧ owner conn.connId = some ep
  | _ => True

/-- The requests and the connection of a call belong to the endpoint of the call. -/
def FrameFiled (S : Endpoint → Prop) (owner : ConnectionId → Option Endpoint) : CallFrame → Prop
  | .drainSubmitQueue localQueue => ∀ pr ∈ localQueue, S pr.endpoint
  | .onConnectionEstablished ep raw pending =>
    OwnerKey owner ep.key raw ∧ ∀ pr ∈ pending, RequestKey S ep.key pr
  | .trySubmitPending ep conn => OwnerKey owner ep.key conn
  | _ => True

/-- Every request goes to an endpoint of the set `S`, and requests and connections are filed under
the keys of their endpoints. `owner` says for which endpoint a connection id has been given out. -/
structure Filed (S : Endpoint → Prop) (owner : ConnectionId → Option Endpoint)
    (m : ConnectionManager) : Prop where
  given : ∀ id ep, owner id = some ep → S ep
  fresh : ∀ id, m.nextConnectionId ≤ id → owner id = none
  sending : ∀ call ∈ m.sending.entries, S call.pending.endpoint
  submitQueue : ∀ pr ∈ m.submitQueue, S pr.endpoint
  pendingByEndpoint : EndpointTable.Files (RequestKey S) m.pendingByEndpoint
  connectTasks : ∀ task ∈ m.connectTasks, owner task.connId = some task.endpoint
  tasks : ∀ task ∈ m.tasks, TaskFiled owner task
  connections : ∀ conn ∈ m.connections.entries, owner conn.connId = some conn.endpoint
  pools : EndpointTable.Files (OwnerKey owner) m.pools
  stack : ∀ frame ∈ m.stack, FrameFiled S owner frame
  handedOver : ∀ h ∈ m.handedOver, S h.2 ∧ RequestKey S h.2.key h.1

theorem filed_ofConfig (config : ConnectionConfig) : Filed S (fun _ => none) (ofConfig config) where
  given _ _ h := by cases h
  fresh _ _ := rfl
  sending _ h := absurd h List.not_mem_nil
  submitQueue _ h := absurd h List.not_mem_nil
  pendingByEndpoint := .empty
  connectTasks _ h := absurd h List.not_mem_nil
  tasks _ h := absurd h List.not_mem_nil
  connections _ h := absurd h List.not_mem_nil
  pools := .empty
  stack _ h := absurd h List.not_mem_nil
  handedOver _ h := absurd h List.not_mem_nil

section Steps

variable {m m' : ConnectionManager} {conn : Connection} {pr : PendingRequest} {ep : Endpoint}
  {rehash : Rehash}

/-! ## Updates -/

theorem Filed.push (h : Filed S owner m) (frame : CallFrame) (hframe : FrameFiled S owner frame) :
    Filed S owner (m.push frame) :=
  { h with stack := List.forall_mem_cons.2 ⟨hframe, h.stack⟩ }

theorem Filed.completeRequest (h : Filed S owner m) (context : RequestId) (response : Response) :
    Filed S owner (m.completeRequest context response) := by
  rcases m.completeRequest_cases context response with heq | heq <;> rw [heq]
  · exact h
  · exact { h with }

theorem Filed.completeAll (response : Response) (contexts : List RequestId) :
    ∀ {m : ConnectionManager}, Filed S owner m →
      Filed S owner (completeAll response contexts m) := by
  induction contexts with
  | nil => exact fun h => h
  | cons context contexts ih => exact fun h => ih (h.completeRequest context response)

theorem Filed.markCanceled (h : Filed S owner m) (requestId : RequestId) :
    Filed S owner (m.markCanceled requestId) :=
  { h with }

/-- A connection of the table is replaced by one with the same id and endpoint. -/
theorem Filed.setConnection (h : Filed S owner m) (hmem : conn ∈ m.connections.entries)
    (conn' : Connection) (href : conn'.ref = conn.ref) :
    Filed S owner { m with connections := m.connections.set conn' } := by
  obtain ⟨hid, hep⟩ := Prod.mk.inj href
  refine { h with connections := fun c hc => ?_ }
  rcases KeyedTable.mem_set.1 hc with ⟨rfl, -⟩ | ⟨hold, -⟩
  · rw [hid, hep]
    exact h.connections conn hmem
  · exact h.connections c hold

theorem Filed.connection (h : Filed S owner m) {id : ConnectionId} {k : EndpointKey}
    (hfind : m.connections.find? id = some conn) (hid : OwnerKey owner k id) :
    conn.endpoint.key = k := by
  obtain ⟨hmem, rfl⟩ := KeyedTable.find?_eq_some_iff.1 hfind
  obtain ⟨ep, howner, hkey⟩ := hid
  rw [h.connections conn hmem] at howner
  rw [Option.some.inj howner, hkey]

theorem Filed.park (h : Filed S owner m) (hpr : RequestKey S ep.key pr) (rehash : Rehash) :
    Filed S owner (m.park ep pr rehash) :=
  { h with pendingByEndpoint := h.pendingByEndpoint.pushBack rehash.pending hpr }

/-! ## Choosing and connecting -/

theorem pickLoop_mem (conns : List Connection) :
    ∀ (best : Option Connection) (load : Nat), pickLoop conns best load = some conn →
      best = some conn ∨ conn ∈ conns := by
  induction conns with
  | nil => exact fun best load h => Or.inl h
  | cons c conns ih =>
    intro best load h
    rw [pickLoop] at h
    split at h
    · rcases ih _ _ h with hbest | hmem
      · exact Or.inr (List.mem_cons.2 (Or.inl (Option.some.inj hbest).symm))
      · exact Or.inr (List.mem_cons_of_mem c hmem)
    · exact (ih _ _ h).imp_right (List.mem_cons_of_mem c)

/-- The connection that is chosen for an endpoint belongs to the endpoint. -/
theorem Filed.pick (h : Filed S owner m) (hpick : m.pickConnectionOnReactor ep = some conn) :
    conn ∈ m.connections.entries ∧ OwnerKey owner ep.key conn.connId ∧
      conn.endpoint.key = ep.key := by
  unfold pickConnectionOnReactor at hpick
  split at hpick
  · cases hpick
  · rename_i kv hfind
    -- the loop starts without a connection, so the one it chooses is in the pool
    rcases pickLoop_mem _ _ _ hpick with hnone | hmem
    · cases hnone
    obtain ⟨id, hid, hconn⟩ := List.mem_filterMap.1 hmem
    have howner : OwnerKey owner ep.key id := h.pools.of_find? hfind id hid
    obtain ⟨hentry, rfl⟩ := KeyedTable.find?_eq_some_iff.1 hconn
    exact ⟨hentry, howner, h.connection hconn howner⟩

/-- A new id is given out for the endpoint. -/
theorem Filed.enqueueConnectTask (h : Filed S owner m) (hS : S ep) :
    ∃ owner', Filed S owner' (m.enqueueConnectTask ep) := by
  rcases m.enqueueConnectTask_cases ep with heq | heq <;> rw [heq]
  · exact ⟨owner, h⟩
  -- the new id has not been given out, so what has been given out stays
  have hextends : ∀ id e, owner id = some e →
      Function.update owner m.nextConnectionId (some ep) id = some e := by
    intro id e hid
    have hne : id ≠ m.nextConnectionId := by
      rintro rfl
      rw [h.fresh _ le_rfl] at hid
      cases hid
    rw [Function.update_of_ne hne, hid]
  have hkey : ∀ k id, OwnerKey owner k id →
      OwnerKey (Function.update owner m.nextConnectionId (some ep)) k id :=
    fun k id hid => hid.imp fun e he => ⟨hextends id e he.1, he.2⟩
  refine ⟨Function.update owner m.nextConnectionId (some ep), {
    given := ?given, fresh := ?fresh, sending := h.sending, submitQueue := h.submitQueue
    pendingByEndpoint := h.pendingByEndpoint, connectTasks := ?connectTasks, tasks := ?tasks
    connections := ?connections, pools := ?pools, stack := ?stack, handedOver := h.handedOver }⟩
  case given =>
    intro id e hid
    by_cases hne : id = m.nextConnectionId
    · rw [hne, Function.update_self] at hid
      exact Option.some.inj hid ▸ hS
    · rw [Function.update_of_ne hne] at hid
      exact h.given id e hid
  case fresh =>
    intro id hid
    have hlt : m.nextConnectionId < id := hid
    rw [Function.update_of_ne hlt.ne', h.fresh id hlt.le]
  case connectTasks =>
    intro task htask
    rcases List.mem_append.1 htask with hold | hnew
    · exact hextends _ _ (h.connectTasks task hold)
    · rw [List.mem_singleton.1 hnew]
      exact Function.update_self ..
  case tasks =>
    intro task htask
    have hold := h.tasks task htask
    cases task with
    | onConnectionEstablished e conn => exact ⟨hold.1, hextends _ _ hold.2⟩
    | _ => trivial
  case connections => exact fun conn hconn => hextends _ _ (h.connections conn hconn)
  case pools => exact fun kv hkv id hid => hkey _ id (h.pools kv hkv id hid)
  case stack =>
    intro frame hframe
    have hold := h.stack frame hframe
    cases frame with
    | onConnectionEstablished e raw pending => exact ⟨hkey _ raw hold.1, hold.2⟩
    | trySubmitPending e conn => exact hkey _ conn hold
    | drainSubmitQueue localQueue => exact hold
    | _ => trivial

/-- The queue of the endpoint is given up. -/
theorem Filed.onConnectionFailed (h : Filed S owner m) (ep : Endpoint) :
    Filed S owner (m.onConnectionFailed ep) := by
  rw [ConnectionManager.onConnectionFailed]
  have hnot : Filed S owner { m with
      connectingEndpoints := m.connectingEndpoints.erase ep.key } := { h with }
  rcases drainPendingForEndpoint_cases _ ep with heq | ⟨kv, -, heq⟩ <;> rw [heq]
  · exact hnot
  · have herased : Filed S owner { m with
        connectingEndpoints := m.connectingEndpoints.erase ep.key
        pendingByEndpoint := m.pendingByEndpoint.erase ep.key } :=
      { hnot with pendingByEndpoint := h.pendingByEndpoint.erase _ }
    exact herased.completeAll _ _

theorem Filed.trySubmitPending (h : Filed S owner m) (ep : Endpoint) :
    Filed S owner (m.trySubmitPending ep) := by
  rcases m.trySubmitPending_cases ep with heq | ⟨conn, hpick, -, heq⟩ <;> rw [heq]
  · exact h
  · exact h.push _ (h.pick hpick).2.1

/-- A task is posted. -/
theorem Filed.post (h : Filed S owner m) (task : ReactorTask) (htask : TaskFiled owner task) :
    Filed S owner { m with tasks := m.tasks ++ [task] } :=
  { h with tasks := List.forall_mem_append.2 ⟨h.tasks, List.forall_mem_singleton.2 htask⟩ }

/-! ## Handlers -/

/-- A request is handed to a connection that belongs to its endpoint. -/
theorem Filed.handOver (h : Filed S owner m) (hmem : conn ∈ m.connections.entries)
    (hpr : RequestKey S conn.endpoint.key pr) (hs : HandOverStep m conn pr (.ok m')) :
    Filed S owner m' := by
  have hhanded : Filed S owner { m with handedOver := m.handedOver ++ [(pr, conn.endpoint)] } := by
    refine { h with handedOver := fun x hx => ?_ }
    rcases List.mem_append.1 hx with hold | hnew
    · exact h.handedOver x hold
    · rw [List.mem_singleton.1 hnew]
      exact ⟨h.given _ _ (h.connections conn hmem), hpr⟩
  cases hs with
  | refused hoff response => exact hhanded.completeRequest _ _
  | @submitted hon streamId rehash session events hsubmit =>
    have hset := hhanded.setConnection hmem { conn with session } rfl
    refine Filed.push (Filed.push ?_ _ ?_) _ trivial
    · exact { hset with }
    · trivial

theorem Filed.close (h : Filed S owner m) {connId : ConnectionId}
    (hs : CloseStep m connId (.ok m')) : Filed S owner m' := by
  cases hs with
  | closed hfind hclose =>
    have href := Connection.ref_closeOnReactor hclose
    exact (h.setConnection (KeyedTable.mem_of_find? hfind) _ href).push _ trivial

theorem Filed.abandon (h : Filed S owner m) {requestId : RequestId}
    (hs : AbandonStep m requestId (.ok m')) : Filed S owner m' := by
  have hmarked := h.markCanceled requestId
  cases hs with
  | unknown => exact h
  | dequeued response =>
    refine Filed.completeRequest ?_ _ _
    exact { hmarked with
      submitQueue := fun pr hpr => h.submitQueue pr (List.mem_of_mem_eraseP hpr) }
  | withdrawn hkv response =>
    refine Filed.completeRequest ?_ _ _
    exact { hmarked with
      pendingByEndpoint := h.pendingByEndpoint.set fun pr hpr =>
        h.pendingByEndpoint _ hkv pr (List.mem_of_mem_eraseP hpr) }
  | elsewhere response => exact hmarked.push _ trivial
  | @onConnection entry conn streamId session events hentry hfind hcancel response =>
    have hpushed := hmarked.push (.finishRequest requestId response) trivial
    have hset := hpushed.setConnection (KeyedTable.mem_of_find? hfind) { conn with session } rfl
    exact hset.push _ trivial

theorem Filed.drainSubmitQueue (h : Filed S owner m) : Filed S owner m.drainSubmitQueue := by
  have hpruned : Filed S owner m.pruneConnections := by
    refine { h with connections := fun c hc => ?_, pools := fun kv hkv id hid => ?_ }
    · exact h.connections c (KeyedTable.mem_eraseAll.1 hc).1
    · obtain ⟨kv', hkv', rfl⟩ := List.mem_map.1 hkv
      exact h.pools kv' hkv' id (List.mem_filter.1 hid).1
  have hemptied : Filed S owner { m.pruneConnections with submitQueue := [] } :=
    { hpruned with submitQueue := fun _ hpr => absurd hpr List.not_mem_nil }
  exact hemptied.push _ h.submitQueue

/-- A connection that has been made for the endpoint is there for its requests. -/
theorem Filed.pooled (h : Filed S owner m) {conn' : Connection} (rehash : Rehash)
    (hconn : owner conn.connId = some conn.endpoint) (href : conn'.ref = conn.ref) :
    Filed S owner { m with
      connectingEndpoints := m.connectingEndpoints.erase conn.endpoint.key
      connections := m.connections.insert (.id _) conn'
      pools := m.pools.pushBack rehash.pools conn.endpoint conn'.connId } ∧
    OwnerKey owner conn.endpoint.key conn'.connId := by
  obtain ⟨hid, hep⟩ := Prod.mk.inj href
  have howner : OwnerKey owner conn.endpoint.key conn'.connId := ⟨conn.endpoint, hid ▸ hconn, rfl⟩
  refine ⟨{ h with
    connections := fun c hc => ?_, pools := h.pools.pushBack rehash.pools howner }, howner⟩
  rcases KeyedTable.mem_insert.1 hc with rfl | ⟨hold, -⟩
  · rw [hid, hep, hconn]
  · exact h.connections c hold

theorem Filed.closeOnReactor (h : Filed S owner m) : Filed S owner m.closeOnReactor := by
  have hcompleted := h.completeAll (.failConnectionError (ascii "Connection closed"))
    (m.pendingByEndpoint.entries.flatMap fun kv => kv.2.map PendingRequest.context)
  have hemptied : Filed S owner { ConnectionManager.completeAll
      (.failConnectionError (ascii "Connection closed"))
      (m.pendingByEndpoint.entries.flatMap fun kv => kv.2.map PendingRequest.context) m with
        pendingByEndpoint := .empty, connectingEndpoints := .empty, pools := .empty } :=
    { hcompleted with pendingByEndpoint := .empty, pools := .empty }
  exact hemptied.push _ trivial

theorem Filed.runTask (h : Filed S owner m) {task : ReactorTask} (htask : TaskFiled owner task)
    (hs : TaskStep m task (.ok m')) : Filed S owner m' := by
  cases hs with
  | drainSubmitQueue => exact h.drainSubmitQueue
  | unregistered ep conn => exact h.onConnectionFailed ep
  | registered rehash hregister =>
    obtain ⟨rfl, hconn⟩ := htask
    exact (h.pooled rehash hconn (Connection.ref_registerWithReactor hregister)).1
  | dispatching rehash hregister hpending =>
    -- what has waited for the connection goes on in the loop
    obtain ⟨rfl, hconn⟩ := htask
    obtain ⟨hpooled, howner⟩ := h.pooled rehash hconn (Connection.ref_registerWithReactor hregister)
    refine Filed.push ?_ _ ⟨howner, h.pendingByEndpoint.of_find? hpending⟩
    exact { hpooled with pendingByEndpoint := h.pendingByEndpoint.erase _ }
  | onConnectionFailed ep => exact h.onConnectionFailed ep
  | abandoned hs => exact h.abandon hs
  | closeOnReactor => exact h.closeOnReactor

/-! ## Calls that go on -/

/-- A loop visits a request of its endpoint, and goes on with the others. -/
theorem Visits.filed {frame rest : CallFrame} (hs : Visits frame pr ep rest)
    (hframe : FrameFiled S owner frame) : RequestKey S ep.key pr ∧ FrameFiled S owner rest := by
  cases hs with
  | drainSubmitQueue pr localQueue =>
    obtain ⟨hpr, hrest⟩ := List.forall_mem_cons.1 hframe
    exact ⟨⟨hpr, rfl⟩, hrest⟩
  | onConnectionEstablished ep raw pr pending =>
    obtain ⟨hraw, hpending⟩ := hframe
    obtain ⟨hpr, hrest⟩ := List.forall_mem_cons.1 hpending
    exact ⟨hpr, hraw, hrest⟩

/-- The connection that a loop chooses belongs to the endpoint of the request. -/
theorem Chosen.filed {frame rest : CallFrame} (hs : Chosen m pr conn rest)
    (hvisits : Visits frame pr ep rest) (h : Filed S owner m) (hframe : FrameFiled S owner frame) :
    conn ∈ m.connections.entries ∧ RequestKey S conn.endpoint.key pr := by
  obtain ⟨hpr, hrest⟩ := hvisits.filed hframe
  cases hs with
  | picked hpick =>
    obtain ⟨hmem, -, hkey⟩ := h.pick hpick
    exact ⟨hmem, hpr.1, hkey.symm⟩
  | raw hfind =>
    cases hvisits with
    | onConnectionEstablished ep raw pr pending =>
      exact ⟨KeyedTable.mem_of_find? hfind, (h.connection hfind hrest.1).symm ▸ hpr⟩

/-- A request leaves the queue of its endpoint, and the loop goes on. -/
theorem Filed.next (h : Filed S owner m) {e : Endpoint} {connId : ConnectionId}
    {queue : List PendingRequest} (hconn : OwnerKey owner ep.key connId)
    (hqueue : m.pendingByEndpoint.find? ep.key = some (e, pr :: queue)) :
    Filed S owner { m with
      pendingByEndpoint := m.pendingByEndpoint.set (e, queue)
      stack := .trySubmitPending ep connId :: m.stack } ∧ RequestKey S ep.key pr := by
  have hpending := h.pendingByEndpoint.of_find? hqueue
  obtain ⟨-, hkey⟩ := KeyedTable.find?_eq_some_iff.1 hqueue
  refine ⟨{ h with
    pendingByEndpoint := h.pendingByEndpoint.set fun a ha => ?_
    stack := List.forall_mem_cons.2 ⟨hconn, h.stack⟩ }, hpending pr List.mem_cons_self⟩
  exact hkey.symm ▸ hpending a (List.mem_cons_of_mem pr ha)

theorem Filed.call (h : Filed S owner m) {frame : CallFrame} (hframe : FrameFiled S owner frame)
    (hs : CallStep m frame (.ok m')) : ∃ owner', Filed S owner' m' := by
  cases hs with
  | returned => exact ⟨owner, h⟩
  | canceled hvisits response =>
    exact ⟨owner, (h.push _ (hvisits.filed hframe).2).completeRequest _ _⟩
  | handedOver hvisits hconn hr =>
    obtain ⟨hmem, hpr⟩ := hconn.filed hvisits h hframe
    exact ⟨owner, (h.push _ (hvisits.filed hframe).2).handOver hmem hpr hr⟩
  | parked hvisits rehash =>
    obtain ⟨hpr, hrest⟩ := hvisits.filed hframe
    exact ⟨owner, (h.push _ hrest).park hpr rehash⟩
  | dialed pr localQueue rehash =>
    obtain ⟨hpr, hrest⟩ := List.forall_mem_cons.1 hframe
    have hpushed := h.push (.drainSubmitQueue localQueue) hrest
    exact (hpushed.park ⟨hpr, rfl⟩ rehash).enqueueConnectTask hpr
  | emptied hqueue =>
    exact ⟨owner, { h with pendingByEndpoint := h.pendingByEndpoint.erase _ }⟩
  | nextCanceled hqueue hfind response =>
    exact ⟨owner, (h.next hframe hqueue).1.completeRequest _ _⟩
  | nextHandedOver hqueue hfind hr =>
    -- the request and the connection of the loop are filed under the same key
    obtain ⟨hnext, hpr⟩ := h.next hframe hqueue
    have hkey := h.connection hfind hframe
    exact ⟨owner, hnext.handOver (KeyedTable.mem_of_find? hfind) (hkey.symm ▸ hpr) hr⟩
  | recorded context connId => exact ⟨owner, { h with }⟩
  | @reported connId context response events conn hfind hentry =>
    have hset := (h.push (.processSessionEvents connId events) trivial).setConnection
      (KeyedTable.mem_of_find? hfind) conn rfl
    refine ⟨owner, Filed.completeRequest ?_ _ _⟩
    exact { hset with }
  | @replaced connId context response events conn entry ep hfind hentry =>
    have hset := (h.push (.processSessionEvents connId events) trivial).setConnection
      (KeyedTable.mem_of_find? hfind) conn rfl
    refine ⟨owner, (Filed.completeRequest ?_ _ _).trySubmitPending ep⟩
    exact { hset with }
  | noted hfind hevent =>
    exact ⟨owner, (h.push _ (by trivial)).setConnection (KeyedTable.mem_of_find? hfind) _
      (Connection.ref_handleEvent _ _)⟩
  | @died connId events conn hfind =>
    have hset := (h.push (.processSessionEvents connId events) trivial).setConnection
      (KeyedTable.mem_of_find? hfind) _ (conn.ref_handleEvent .sessionDead)
    exact ⟨owner, { hset with }⟩
  | finished context response => exact ⟨owner, h.completeRequest context response⟩
  | destroyed => exact ⟨owner, { h with connections := fun _ hc => absurd hc List.not_mem_nil }⟩
  | closed hs => exact ⟨owner, (h.push _ (by trivial)).close hs⟩
  | lost connId => exact ⟨owner, { h with }⟩

/-! ## Steps -/

/-- A call of `sendAsync` goes on, or returns. -/
theorem Filed.setSending (h : Filed S owner m) {call : SendCall}
    (hcall : call ∈ m.sending.entries) (phase : SendPhase) :
    Filed S owner { m with sending := m.sending.set { call with phase } } := by
  refine { h with sending := fun c hc => ?_ }
  rcases KeyedTable.mem_set.1 hc with ⟨rfl, -⟩ | ⟨hold, -⟩
  · exact h.sending call hcall
  · exact h.sending c hold

theorem Filed.eraseSending (h : Filed S owner m) (context : RequestId) :
    Filed S owner { m with sending := m.sending.erase context } :=
  { h with sending := fun call hcall => h.sending call (KeyedTable.mem_erase.1 hcall).1 }

/-- Every step keeps everything filed under its key, if the endpoint it brings in is in the set. -/
theorem Filed.step (h : Filed S owner m) {op : Op} (hop : ∀ ep, op.endpoint = some ep → S ep)
    (hs : ManagerStep m op (.ok m')) : ∃ owner', Filed S owner' m' := by
  cases hs with
  | startFailed request ep timeoutMs started t response =>
    refine ⟨owner, Filed.completeRequest ?_ _ _⟩
    exact { h with }
  | sent request ep timeoutMs started t =>
    refine ⟨owner, { h with sending := fun call hcall => ?_ }⟩
    rcases KeyedTable.mem_insert.1 hcall with rfl | ⟨hold, -⟩
    · exact hop ep rfl
    · exact h.sending call hold
  | untimed hcall hphase => exact ⟨owner, h.setSending (KeyedTable.mem_of_find? hcall) .enqueue⟩
  | unscheduled hcall response => exact ⟨owner, (h.eraseSending _).completeRequest _ _⟩
  | scheduled hcall hphase =>
    exact ⟨owner, { h.setSending (KeyedTable.mem_of_find? hcall) .enqueue with }⟩
  | queued hcall hphase =>
    have hmem := KeyedTable.mem_of_find? hcall
    refine ⟨owner, { h.setSending hmem .post with submitQueue := fun pr hpr => ?_ }⟩
    rcases List.mem_append.1 hpr with hold | hnew
    · exact h.submitQueue pr hold
    · exact List.mem_singleton.1 hnew ▸ h.sending _ hmem
  | posted hcall hphase => exact ⟨owner, (h.eraseSending _).post .drainSubmitQueue trivial⟩
  | unposted hcall hphase response =>
    refine ⟨owner, Filed.completeRequest ?_ _ _⟩
    exact { h.eraseSending _ with
      submitQueue := fun pr hpr => h.submitQueue pr (List.mem_of_mem_eraseP hpr) }
  | late requestId => exact ⟨owner, h⟩
  | marked requestId => exact ⟨owner, h.markCanceled requestId⟩
  | unknown requestId => exact ⟨owner, h⟩
  | cancelPosted requestId => exact ⟨owner, (h.markCanceled requestId).post _ trivial⟩
  | abandoned hstack hs => exact ⟨owner, (h.markCanceled _).abandon hs⟩
  | closing t => exact ⟨owner, { h with }⟩
  | closePosted t => exact ⟨owner, { h.post .closeOnReactor trivial with }⟩
  | joined t hstack =>
    exact ⟨owner, { h with tasks := fun _ htask => absurd htask List.not_mem_nil }⟩
  | failedQueued t response =>
    refine ⟨owner, Filed.completeAll _ _ ?_⟩
    exact { h with submitQueue := fun _ hpr => absurd hpr List.not_mem_nil }
  | failedAll t response =>
    refine ⟨owner, Filed.completeAll _ _ ?_⟩
    exact { h with }
  | dropped htasks =>
    have howners := List.forall_mem_cons.1 (htasks ▸ h.connectTasks)
    exact ⟨owner, { h with connectTasks := howners.2 }⟩
  | connected htasks hconnect =>
    have howners := List.forall_mem_cons.1 (htasks ▸ h.connectTasks)
    obtain ⟨hid, hep⟩ := Prod.mk.inj (Connection.ref_connect hconnect)
    exact ⟨owner, { h.post (.onConnectionEstablished _ _) ⟨hep, hid ▸ howners.1⟩ with
      connectTasks := howners.2 }⟩
  | unconnected htasks =>
    have howners := List.forall_mem_cons.1 (htasks ▸ h.connectTasks)
    exact ⟨owner, { h.post (.onConnectionFailed _) trivial with connectTasks := howners.2 }⟩
  | ranTask hstack htasks hs =>
    -- the task was filed when it was posted
    obtain ⟨htask, hrest⟩ := List.forall_mem_cons.1 (htasks ▸ h.tasks)
    refine ⟨owner, Filed.runTask ?_ htask hs⟩
    exact { h with tasks := hrest }
  | timedOut hstack hs =>
    refine ⟨owner, Filed.abandon ?_ hs⟩
    exact { h with }
  | served hop hstack hfind hserved =>
    exact ⟨owner, (h.setConnection (KeyedTable.mem_of_find? hfind) _ hserved.ref).push _ trivial⟩
  | answered hstack hfind hon hnone =>
    exact ⟨owner, h.setConnection (KeyedTable.mem_of_find? hfind) _ rfl⟩
  | @unanswered connId conn r hstack hfind hs =>
    have hset := h.setConnection (KeyedTable.mem_of_find? hfind)
      { conn with pingTimeoutTimer := false, pendingPing := false } rfl
    exact ⟨owner, (hset.push (.connectionLost connId) trivial).close hs⟩
  | worked hstack hs =>
    -- the topmost call was filed when it was made
    obtain ⟨hframe, hrest⟩ := List.forall_mem_cons.1 (hstack ▸ h.stack)
    refine Filed.call ?_ hframe hs
    exact { h with stack := hrest }

theorem Filed.apply (h : Filed S owner m) {op : Op} (hop : ∀ ep, op.endpoint = some ep → S ep)
    (heq : m.apply op = .ok m') : ∃ owner', Filed S owner' m' :=
  h.step hop (heq ▸ m.apply_cases op)

end Steps

end ConnectionManager

end Chttp2
