import Chttp2.Lib.Ensures
import Chttp2.Pool.Holding
import Chttp2.Pool.Registration

/-!
# The calls of the reactor thread

The handlers of the reactor thread call each other, and each call keeps pointers: to a connection, to
the queue of an endpoint. `Nested` lists the ways in which the calls nest: their number does not grow
with the requests that wait (`Nested.count_le`). `Safe` says that every pointer is good: of the calls
that have not returned, of the pools, of `requestConnections`. A connection that is not connected may
still be in `requestConnections`, but only while a call is open that takes it out (`Usable`).

The lemmas of this module are about single updates of the state. The calls are in `Pool.Handover`, the
steps in `Pool.Safety`.
-/

set_option autoImplicit false

namespace Chttp2

/-- The call takes the connection out of `requestConnections` before it returns. -/
def CallFrame.dooms (id : ConnectionId) : CallFrame → Prop
  | .closeOnReactor _ => True
  | .connectionLost conn => conn = id
  | _ => False

/-- A call of `processSessionEvents`. -/
def CallFrame.ofEvents : CallFrame → Bool
  | .processSessionEvents _ _ => true
  | _ => false

/-- A call of `trySubmitPending`. -/
def CallFrame.ofPending : CallFrame → Bool
  | .trySubmitPending _ _ => true
  | _ => false

/-- A call of `submitOnReactor`, from one of the loops. -/
def CallFrame.ofSubmission : CallFrame → Bool
  | .submitted _ _ => true
  | _ => false

/-- The loop of `closeOnReactor`. -/
def CallFrame.ofClosing : CallFrame → Bool
  | .closeOnReactor _ => true
  | _ => false

namespace ConnectionManager

open Http2Session (ReportsOnly)

/-! ## How the calls nest -/

/-- The events of a connection are processed on their own, or inside a call that waits for them. -/
inductive Waits : List CallFrame → Prop
  | idle : Waits []
  | finishRequest (context : RequestId) (response : Response) :
      Waits [.finishRequest context response]
  | closeOnReactor (conns : List ConnectionId) : Waits [.closeOnReactor conns]
  | connectionLost (conn : ConnectionId) : Waits [.connectionLost conn]

/-- The topmost call is a loop that hands requests over. -/
inductive Loops : List CallFrame → Prop
  | drainSubmitQueue (localQueue : List PendingRequest) : Loops [.drainSubmitQueue localQueue]
  | onConnectionEstablished (ep : Endpoint) (raw : ConnectionId) (pending : List PendingRequest) :
      Loops [.onConnectionEstablished ep raw pending]
  | trySubmitPending (ep : Endpoint) (conn c : ConnectionId) (events : List (SessionEvent RequestId))
      {stack : List CallFrame} (h : Waits stack) :
      Loops (.trySubmitPending ep conn :: .processSessionEvents c events :: stack)

/-- The calls that have not returned. The events of a submission make no further call. -/
inductive Nested : List CallFrame → Prop
  | waits {stack : List CallFrame} (h : Waits stack) : Nested stack
  | events (conn : ConnectionId) (events : List (SessionEvent RequestId)) {stack : List CallFrame}
      (h : Waits stack) : Nested (.processSessionEvents conn events :: stack)
  | loops {stack : List CallFrame} (h : Loops stack) : Nested stack
  | submitted (context : RequestId) (conn : ConnectionId) {stack : List CallFrame} (h : Loops stack) :
      Nested (.submitted context conn :: stack)
  | answered (context : RequestId) (conn : ConnectionId) {events : List (SessionEvent RequestId)}
      {stack : List CallFrame} (h : Loops stack) (hreports : ReportsOnly context events) :
      Nested (.processSessionEvents conn events :: .submitted context conn :: stack)

section Nesting

variable {frame : CallFrame} {stack : List CallFrame}

theorem Waits.count (h : Waits stack) : stack.countP CallFrame.ofEvents = 0 ∧
    stack.countP CallFrame.ofPending = 0 ∧ stack.countP CallFrame.ofSubmission = 0 := by
  cases h <;> exact ⟨rfl, rfl, rfl⟩

theorem Loops.count (h : Loops stack) : stack.countP CallFrame.ofEvents ≤ 1 ∧
    stack.countP CallFrame.ofPending ≤ 1 ∧ stack.countP CallFrame.ofSubmission = 0 := by
  cases h with
  | drainSubmitQueue => exact ⟨Nat.zero_le _, Nat.zero_le _, rfl⟩
  | onConnectionEstablished => exact ⟨Nat.zero_le _, Nat.zero_le _, rfl⟩
  | trySubmitPending ep conn c events h =>
    obtain ⟨hevents, hpending, hsubmission⟩ := h.count
    simp [List.countP_cons, CallFrame.ofEvents, CallFrame.ofPending, CallFrame.ofSubmission,
      hevents, hpending, hsubmission]

/-- The calls do not nest more deeply the more requests wait. -/
theorem Nested.count_le (h : Nested stack) : stack.countP CallFrame.ofEvents ≤ 2 ∧
    stack.countP CallFrame.ofPending ≤ 1 ∧ stack.countP CallFrame.ofSubmission ≤ 1 := by
  cases h with
  | waits h =>
    obtain ⟨hevents, hpending, hsubmission⟩ := h.count
    simp [hevents, hpending, hsubmission]
  | events conn events h =>
    obtain ⟨hevents, hpending, hsubmission⟩ := h.count
    simp [List.countP_cons, CallFrame.ofEvents, CallFrame.ofPending, CallFrame.ofSubmission,
      hevents, hpending, hsubmission]
  | loops h =>
    obtain ⟨hevents, hpending, hsubmission⟩ := h.count
    exact ⟨hevents.trans (by decide), hpending, hsubmission.trans_le (Nat.zero_le _)⟩
  | submitted context conn h =>
    obtain ⟨hevents, hpending, hsubmission⟩ := h.count
    simp only [List.countP_cons, CallFrame.ofEvents, CallFrame.ofPending, CallFrame.ofSubmission]
    exact ⟨hevents.trans (by decide), hpending, Nat.succ_le_succ hsubmission.le⟩
  | answered context conn h =>
    obtain ⟨hevents, hpending, hsubmission⟩ := h.count
    simp only [List.countP_cons, CallFrame.ofEvents, CallFrame.ofPending, CallFrame.ofSubmission]
    exact ⟨Nat.succ_le_succ hevents, hpending, Nat.succ_le_succ hsubmission.le⟩

theorem Waits.nil_of_cons (h : Waits (frame :: stack)) : stack = [] := by
  cases h <;> rfl

/-- What is below a call that returns is nested. -/
theorem Nested.pop (h : Nested (frame :: stack)) : Nested stack := by
  cases h with
  | waits h => exact h.nil_of_cons ▸ .waits .idle
  | events conn events h => exact .waits h
  | loops h =>
    cases h with
    | drainSubmitQueue => exact .waits .idle
    | onConnectionEstablished => exact .waits .idle
    | trySubmitPending ep conn c events h => exact .events c events h
  | submitted context conn h => exact .loops h
  | answered context conn h => exact .submitted context conn h

/-- The events of a connection are processed on their own, or inside a submission. -/
theorem Nested.below_events {conn : ConnectionId} {events : List (SessionEvent RequestId)}
    (h : Nested (.processSessionEvents conn events :: stack)) :
    Waits stack ∨ ∃ context below, stack = .submitted context conn :: below ∧ Loops below ∧
      ReportsOnly context events := by
  cases h with
  | waits h => cases h
  | events _ _ h => exact Or.inl h
  | loops h => cases h
  | answered context _ h hreports => exact Or.inr ⟨context, _, rfl, h, hreports⟩

theorem Nested.below_trySubmitPending {ep : Endpoint} {conn : ConnectionId}
    (h : Nested (.trySubmitPending ep conn :: stack)) :
    ∃ c events below, stack = .processSessionEvents c events :: below ∧ Waits below := by
  cases h with
  | waits h => cases h
  | loops h =>
    cases h with
    | trySubmitPending _ _ c events h => exact ⟨c, events, _, rfl, h⟩

theorem Nested.below_submitted {context : RequestId} {conn : ConnectionId}
    (h : Nested (.submitted context conn :: stack)) : Loops stack := by
  cases h with
  | waits h => cases h
  | loops h => cases h
  | submitted _ _ h => exact h

/-- Nothing is below a call that stands for a whole task. -/
theorem Nested.below_task (h : Nested (frame :: stack))
    (hevents : ∀ conn events, frame ≠ .processSessionEvents conn events)
    (hpending : ∀ ep conn, frame ≠ .trySubmitPending ep conn)
    (hsubmitted : ∀ context conn, frame ≠ .submitted context conn) : stack = [] := by
  cases h with
  | waits h => exact h.nil_of_cons
  | events conn events => exact absurd rfl (hevents conn events)
  | loops h =>
    cases h with
    | drainSubmitQueue => rfl
    | onConnectionEstablished => rfl
    | trySubmitPending ep conn => exact absurd rfl (hpending ep conn)
  | submitted context conn => exact absurd rfl (hsubmitted context conn)
  | answered context conn => exact absurd rfl (hevents conn _)

theorem Waits.not_submitted (h : Waits stack) (context : RequestId) (conn : ConnectionId) :
    .submitted context conn ∉ stack := by
  cases h <;> simp

theorem Loops.not_submitted (h : Loops stack) (context : RequestId) (conn : ConnectionId) :
    .submitted context conn ∉ stack := by
  cases h with
  | drainSubmitQueue => simp
  | onConnectionEstablished => simp
  | trySubmitPending ep c₁ c₂ events h => simp [h.not_submitted context conn]

theorem Waits.not_trySubmitPending (h : Waits stack) (ep : Endpoint) (conn : ConnectionId) :
    .trySubmitPending ep conn ∉ stack := by
  cases h <;> simp

end Nesting

/-! ## Pointers -/

/-- The requests that have been handed to connections. -/
def handed (m : ConnectionManager) : List RequestId := m.handedOver.map fun h => h.1.context

/-- The connection is in the table and connected. -/
def Connected (m : ConnectionManager) (id : ConnectionId) : Prop :=
  ∃ conn, m.connections.find? id = some conn ∧ conn.connected = true

/-- An open call destroys the connection before it returns. -/
def Doomed (m : ConnectionManager) (id : ConnectionId) : Prop := ∃ frame ∈ m.stack, frame.dooms id

/-- A pointer that `requestConnections` may hold. -/
def Usable (m : ConnectionManager) (id : ConnectionId) : Prop :=
  id ∈ m.connections.keys ∧ (m.Connected id ∨ m.Doomed id)

/-- The connection will be closed with the others. -/
def Listed (m : ConnectionManager) (id : ConnectionId) : Prop :=
  (∃ kv ∈ m.pools.entries, id ∈ kv.2) ∨ ∃ conns, .closeOnReactor conns ∈ m.stack ∧ id ∈ conns

/-- The pointers of a call are good. -/
def FrameSafe (m : ConnectionManager) : CallFrame → Prop
  | .onConnectionEstablished _ raw _ => raw ∈ m.connections.keys
  | .trySubmitPending ep conn => conn ∈ m.connections.keys ∧ ep.key ∈ m.pendingByEndpoint.keys
  | .submitted context conn =>
    m.Connected conn ∧ context ∈ m.handed ∧ context ∉ m.requestConnections.keys
  | .processSessionEvents conn _ => conn ∈ m.connections.keys
  | .closeOnReactor conns => m.pools = .empty ∧ ∀ id ∈ conns, id ∈ m.connections.keys
  | _ => True

/-- A connection that is on its way to the reactor is fresh. -/
def TaskFresh (config : ConnectionConfig) : ReactorTask → Prop
  | .onConnectionEstablished _ conn => conn.Fresh config
  | _ => True

/-- The calls nest, every pointer is good, and the connections `K` are still there. -/
structure Safe (config : ConnectionConfig) (K : List ConnectionId) (m : ConnectionManager) :
    Prop where
  configured : m.config = config
  kept : ∀ id ∈ K, id ∈ m.connections.keys
  nested : Nested m.stack
  frames : ∀ frame ∈ m.stack, m.FrameSafe frame
  pools : EndpointTable.Files (fun _ id => id ∈ m.connections.keys) m.pools
  listed : ∀ conn ∈ m.connections.entries, conn.connected = true → m.Listed conn.connId
  requestConnections : ∀ entry ∈ m.requestConnections.entries,
    entry.1 ∈ m.handed ∧ m.Usable entry.2
  connections : ∀ conn ∈ m.connections.entries, conn.Sound config
  tasks : ∀ task ∈ m.tasks, TaskFresh config task

theorem safe_ofConfig (config : ConnectionConfig) : Safe config [] (ofConfig config) where
  configured := rfl
  kept _ h := absurd h List.not_mem_nil
  nested := .waits .idle
  frames _ h := absurd h List.not_mem_nil
  pools := .empty
  listed _ h := absurd h List.not_mem_nil
  requestConnections _ h := absurd h List.not_mem_nil
  connections _ h := absurd h List.not_mem_nil
  tasks _ h := absurd h List.not_mem_nil

section Updates

variable {config : ConnectionConfig} {K : List ConnectionId} {m m' : ConnectionManager}
  {conn conn' : Connection} {frame : CallFrame} {stack : List CallFrame}

/-- What the pointers of the calls refer to is still there. -/
structure Keeps (m m' : ConnectionManager) : Prop where
  connections : m.connections.keys ⊆ m'.connections.keys
  pending : m.pendingByEndpoint.keys ⊆ m'.pendingByEndpoint.keys
  pools : m'.pools = m.pools
  handed : m.handed ⊆ m'.handed
  requests : m'.requestConnections.keys ⊆ m.requestConnections.keys

theorem Keeps.refl (m : ConnectionManager) : Keeps m m :=
  ⟨fun _ => id, fun _ => id, rfl, fun _ => id, fun _ => id⟩

theorem FrameSafe.keeps (h : m.FrameSafe frame) (hkeeps : Keeps m m')
    (hconnected : ∀ context id, frame = .submitted context id → m.Connected id → m'.Connected id) :
    m'.FrameSafe frame := by
  cases frame with
  | onConnectionEstablished ep raw pending => exact hkeeps.connections h
  | trySubmitPending ep conn => exact ⟨hkeeps.connections h.1, hkeeps.pending h.2⟩
  | submitted context conn =>
    exact ⟨hconnected context conn rfl h.1, hkeeps.handed h.2.1, fun hmem =>
      h.2.2 (hkeeps.requests hmem)⟩
  | processSessionEvents conn events => exact hkeeps.connections h
  | closeOnReactor conns => exact ⟨hkeeps.pools.trans h.1, fun id hid => hkeeps.connections (h.2 id hid)⟩
  | _ => trivial

/-- The calls stay safe if connections stay connected. -/
theorem Safe.frames_keeps (h : Safe config K m) (hkeeps : Keeps m m')
    (hconnected : ∀ id, m.Connected id → m'.Connected id) :
    ∀ frame ∈ m.stack, m'.FrameSafe frame :=
  fun frame hframe => (h.frames frame hframe).keeps hkeeps fun _ id _ => hconnected id

theorem Safe.connection_mem (h : Safe config K m) {entry : RequestId × ConnectionId}
    {context : RequestId} (hfind : m.requestConnections.find? context = some entry) :
    entry.2 ∈ m.connections.keys :=
  (h.requestConnections entry (KeyedTable.mem_of_find? hfind)).2.1

/-- A request that has not been handed over is not on a connection. -/
theorem Safe.not_mem_requestConnections (h : Safe config K m) {context : RequestId}
    (hnew : context ∉ m.handed) : context ∉ m.requestConnections.keys := by
  intro hmem
  obtain ⟨entry, hentry, rfl⟩ := KeyedTable.mem_keys.1 hmem
  exact hnew (h.requestConnections entry hentry).1

/-! ## Requests -/

theorem Safe.completeRequest (h : Safe config K m) (context : RequestId) (response : Response) :
    Safe config K (m.completeRequest context response) := by
  rcases m.completeRequest_cases context response with heq | heq <;> rw [heq]
  · exact h
  · exact { h with }

theorem Safe.completeAll (response : Response) (contexts : List RequestId) :
    ∀ {m : ConnectionManager}, Safe config K m →
      Safe config K (completeAll response contexts m) := by
  induction contexts with
  | nil => exact fun h => h
  | cons context contexts ih => exact fun h => ih (h.completeRequest context response)

theorem Safe.markCanceled (h : Safe config K m) (requestId : RequestId) :
    Safe config K (m.markCanceled requestId) :=
  { h with }

/-! ## Calls -/

/-- A call is made. -/
theorem Safe.push (h : Safe config K m) (frame : CallFrame) (hnested : Nested (frame :: m.stack))
    (hframe : m.FrameSafe frame) : Safe config K (m.push frame) :=
  { h with
    nested := hnested
    frames := List.forall_mem_cons.2 ⟨hframe, h.frames⟩
    listed := fun conn hconn hon => (h.listed conn hconn hon).imp_right fun hclosing =>
      hclosing.imp fun conns hconns => ⟨List.mem_cons_of_mem frame hconns.1, hconns.2⟩
    requestConnections := fun entry hentry => by
      obtain ⟨hhanded, hmem, husable⟩ := h.requestConnections entry hentry
      exact ⟨hhanded, hmem, husable.imp_right fun hdoomed =>
        hdoomed.imp fun f hf => ⟨List.mem_cons_of_mem frame hf.1, hf.2⟩⟩ }

/-- The topmost call returns, or is replaced by what is left of it. -/
theorem Safe.setStack (h : Safe config K m) (hnested : Nested stack)
    (hframes : ∀ frame ∈ stack, m.FrameSafe frame)
    (hlisted : ∀ conn ∈ m.connections.entries, conn.connected = true →
      ({ m with stack } : ConnectionManager).Listed conn.connId)
    (hdoomed : ∀ entry ∈ m.requestConnections.entries, m.Doomed entry.2 →
      ({ m with stack } : ConnectionManager).Doomed entry.2) :
    Safe config K { m with stack } :=
  { h with
    nested := hnested
    frames := hframes
    listed := hlisted
    requestConnections := fun entry hentry => by
      obtain ⟨hhanded, hmem, husable⟩ := h.requestConnections entry hentry
      exact ⟨hhanded, hmem, husable.imp_right (hdoomed entry hentry)⟩ }

/-- A call that closes no connection returns. -/
theorem Safe.pop (h : Safe config K m) (hstack : m.stack = frame :: stack)
    (hdooms : ∀ id, ¬ frame.dooms id) : Safe config K { m with stack } := by
  have hnested := h.nested
  have hframes := h.frames
  rw [hstack] at hnested hframes
  refine h.setStack hnested.pop (List.forall_mem_cons.1 hframes).2 (fun conn hconn hon => ?_)
    fun entry _ hdoomed => ?_
  · refine (h.listed conn hconn hon).imp_right ?_
    rintro ⟨conns, hconns, hid⟩
    rw [hstack] at hconns
    rcases List.mem_cons.1 hconns with rfl | hbelow
    · exact absurd trivial (hdooms 0)
    · exact ⟨conns, hbelow, hid⟩
  · obtain ⟨f, hf, hdoomsId⟩ := hdoomed
    rw [hstack] at hf
    rcases List.mem_cons.1 hf with rfl | hbelow
    · exact absurd hdoomsId (hdooms entry.2)
    · exact ⟨f, hbelow, hdoomsId⟩

/-! ## Connections and queues -/

/-- A connection is replaced by one with the same id. If it stops being connected, nothing counts on
it that does not know. -/
theorem Safe.replaceConnection (h : Safe config K m) (hmem : conn ∈ m.connections.entries)
    (href : conn'.ref = conn.ref) (hsound : conn'.Sound config)
    (hon : conn'.connected = true → conn.connected = true)
    (hused : conn.connected = true → conn'.connected = true ∨
      ((∀ entry ∈ m.requestConnections.entries, entry.2 = conn.connId → m.Doomed conn.connId) ∧
        ∀ context, .submitted context conn.connId ∉ m.stack)) :
    Safe config K { m with connections := m.connections.set conn' } := by
  have hid : conn'.connId = conn.connId := congrArg Prod.fst href
  have hkey : conn'.connId ∈ m.connections.keys := hid ▸ KeyedTable.key_mem_keys hmem
  have hkeys : (m.connections.set conn').keys = m.connections.keys := KeyedTable.keys_set _ _
  have hconnected : ∀ id, m.Connected id → (id = conn.connId → conn'.connected = true) →
      Connected { m with connections := m.connections.set conn' } id := by
    rintro id ⟨c, hfind, hc⟩ hself
    by_cases hne : id = conn'.connId
    · exact ⟨conn', (KeyedTable.find?_set hkey id).trans (if_pos hne), hself (hne.trans hid)⟩
    · exact ⟨c, (KeyedTable.find?_set_ne m.connections hne).trans hfind, hc⟩
  have hwas : m.Connected conn.connId → conn.connected = true := by
    rintro ⟨c, hfind, hc⟩
    rw [KeyedTable.mem_iff_find?.1 hmem] at hfind
    exact Option.some.inj hfind ▸ hc
  exact { h with
    kept := fun id hmem => hkeys.symm ▸ h.kept id hmem
    frames := fun frame hframe => by
      refine (h.frames frame hframe).keeps { Keeps.refl m with
        connections := hkeys.symm ▸ fun _ => id } ?_
      rintro context id rfl hc
      refine hconnected id hc fun heq => ?_
      subst heq
      exact (hused (hwas hc)).resolve_right fun hnone => hnone.2 context hframe
    pools := fun kv hkv id hmem => hkeys.symm ▸ h.pools kv hkv id hmem
    listed := fun c hc hcon => by
      rcases KeyedTable.mem_set.1 hc with ⟨rfl, -⟩ | ⟨hold, -⟩
      · have hlisted := h.listed conn hmem (hon hcon)
        rw [hid]
        exact hlisted
      · exact h.listed c hold hcon
    requestConnections := fun entry hentry => by
      obtain ⟨hhanded, hmem, husable⟩ := h.requestConnections entry hentry
      refine ⟨hhanded, hkeys.symm ▸ hmem, ?_⟩
      rcases husable with hc | hdoomed
      · by_cases hself : entry.2 = conn.connId
        · rw [hself] at hc ⊢
          rcases hused (hwas hc) with hstill | ⟨hdoomed, -⟩
          · exact Or.inl (hconnected _ hc fun _ => hstill)
          · exact Or.inr (hdoomed entry hentry hself)
        · exact Or.inl (hconnected _ hc fun heq => absurd heq hself)
      · exact Or.inr hdoomed
    connections := fun c hc => by
      rcases KeyedTable.mem_set.1 hc with ⟨rfl, -⟩ | ⟨hold, -⟩
      · exact hsound
      · exact h.connections c hold }

/-- A connection serves an event of the reactor or of the manager. -/
theorem Safe.setConnection (h : Safe config K m) (hmem : conn ∈ m.connections.entries)
    (hserves : conn.Serves config conn') :
    Safe config K { m with connections := m.connections.set conn' } :=
  h.replaceConnection hmem hserves.ref hserves.sound (fun hon => hserves.connected ▸ hon)
    fun hon => Or.inl (hserves.connected.trans hon)

theorem Safe.dropRequests (h : Safe config K m)
    {requestConnections : KeyedTable (Prod.fst : RequestId × ConnectionId → RequestId)}
    (hsub : ∀ entry ∈ requestConnections.entries, entry ∈ m.requestConnections.entries) :
    Safe config K { m with requestConnections } :=
  { h with
    frames := h.frames_keeps { Keeps.refl m with
      requests := fun context hmem => by
        obtain ⟨entry, hentry, rfl⟩ := KeyedTable.mem_keys.1 hmem
        exact KeyedTable.key_mem_keys (hsub entry hentry) } fun _ => id
    requestConnections := fun entry hentry => h.requestConnections entry (hsub entry hentry) }

/-- The queues of the endpoints change, and the loops find theirs. -/
theorem Safe.setPending (h : Safe config K m) {pendingByEndpoint : EndpointTable (List PendingRequest)}
    (hkeys : ∀ ep conn, .trySubmitPending ep conn ∈ m.stack → ep.key ∈ m.pendingByEndpoint.keys →
      ep.key ∈ pendingByEndpoint.keys) :
    Safe config K { m with pendingByEndpoint } := by
  refine { h with frames := fun frame hframe => ?_ }
  have hsafe := h.frames frame hframe
  cases frame with
  | trySubmitPending ep conn => exact ⟨hsafe.1, hkeys ep conn hframe hsafe.2⟩
  | _ => exact hsafe

/-- No loop is open that could look for its queue. -/
theorem Safe.replacePending (h : Safe config K m) (hstack : m.stack = [])
    (pendingByEndpoint : EndpointTable (List PendingRequest)) :
    Safe config K { m with pendingByEndpoint } :=
  h.setPending fun _ _ hmem => absurd hmem (hstack ▸ List.not_mem_nil)

theorem Safe.park (h : Safe config K m) (ep : Endpoint) (pr : PendingRequest) (rehash : Rehash) :
    Safe config K (m.park ep pr rehash) := by
  refine h.setPending fun ep' _ _ hmem => ?_
  unfold EndpointTable.pushBack
  split
  · rw [KeyedTable.keys_set]
    exact hmem
  · exact KeyedTable.mem_keys_insert.2 (Or.inr hmem)

/-- A request is handed over. -/
theorem Safe.handedOver (h : Safe config K m) (handover : PendingRequest × Endpoint) :
    Safe config K { m with handedOver := m.handedOver ++ [handover] } := by
  have hsub : m.handed ⊆ handed { m with handedOver := m.handedOver ++ [handover] } := by
    intro context hcontext
    rw [handed, List.map_append]
    exact List.mem_append_left _ hcontext
  exact { h with
    frames := h.frames_keeps { Keeps.refl m with handed := hsub } fun _ => id
    requestConnections := fun entry hentry =>
      (h.requestConnections entry hentry).imp_left fun hhanded => hsub hhanded }

end Updates

end ConnectionManager

end Chttp2
