import Mathlib.Data.List.Perm.Subperm
import Chttp2.Pool.Targets

/-!
# Where the requests are

A request travels from a call of `sendAsync` over the submit queue, the loops of the reactor thread
and the queues of the endpoints to a connection. `held` counts the requests at all these places, the
ones that have been handed to connections included. No case of `ManagerStep` copies a request, and
none drops one without completing it (`ManagerStep.moves`). What a handler takes out of a queue
before it completes it is lost in between, and `Moves` names it. So the requests that are handed to
connections are among those that `sendAsync` has been called with, each of them at most once
(`handedOver_subperm`).
-/

set_option autoImplicit false

namespace Chttp2

/-- The request of a call of `sendAsync` that is not yet in the submit queue. -/
def SendCall.holds (call : SendCall) : List PendingRequest :=
  if call.phase = .post then [] else [call.pending]

/-- The requests that a loop of the reactor thread has still to visit. -/
def CallFrame.holds : CallFrame → List PendingRequest
  | .drainSubmitQueue localQueue => localQueue
  | .onConnectionEstablished _ _ pending => pending
  | _ => []

namespace ConnectionManager

/-! ## The count -/

/-- How many of the requests that the connection manager has, or has handed to connections, are of
a kind. -/
def held (p : PendingRequest → Bool) (m : ConnectionManager) : Nat :=
  m.sending.total (fun call => call.holds.countP p) + m.submitQueue.countP p +
    (m.stack.map fun frame => frame.holds.countP p).sum +
    m.pendingByEndpoint.total (fun kv => kv.2.countP p) + (m.handedOver.map Prod.fst).countP p

/-- The requests of an id. -/
def ofId (id : RequestId) (pr : PendingRequest) : Bool := pr.context = id

/-- The request has been registered and not been completed. -/
def Unfinished (m : ConnectionManager) (id : RequestId) : Prop :=
  ∃ ctx, m.requests.find? id = some ctx ∧ ctx.finished = false

section Steps

variable {m m₁ m' : ConnectionManager} {lost : List RequestId} {prs prs' : List PendingRequest}
  {pr : PendingRequest} {ep : Endpoint} {id : RequestId}

/-- The requests that are lost are not counted for the others. -/
theorem countP_ofId_eq_zero (h : id ∉ prs.map PendingRequest.context) :
    prs.countP (ofId id) = 0 := by
  rw [List.countP_eq_zero]
  intro pr hpr hid
  exact h (of_decide_eq_true hid ▸ List.mem_map_of_mem hpr)

/-- A queue without the request that is taken out of it. -/
theorem countP_eraseP_ofId {queue : List PendingRequest} {context : RequestId}
    (hid : id ∉ [context]) :
    (queue.eraseP fun pr => pr.context = context).countP (ofId id) = queue.countP (ofId id) := by
  induction queue with
  | nil => rfl
  | cons pr queue ih =>
    by_cases hpr : pr.context = context
    · rw [List.eraseP_cons_of_pos (by simpa using hpr), List.countP_cons_of_neg]
      intro hof
      exact hid (List.mem_singleton.2 ((of_decide_eq_true hof).symm.trans hpr))
    · rw [List.eraseP_cons_of_neg (by simpa using hpr), List.countP_cons, List.countP_cons, ih]

theorem countP_eraseP_le (queue : List PendingRequest) (context : RequestId)
    (p : PendingRequest → Bool) :
    (queue.eraseP fun pr => pr.context = context).countP p ≤ queue.countP p :=
  List.eraseP_sublist.countP_le

/-! ## What an update does to the count -/

@[simp] theorem held_push (m : ConnectionManager) (frame : CallFrame) (p : PendingRequest → Bool) :
    (m.push frame).held p = m.held p + frame.holds.countP p := by
  simp only [held, push, List.map_cons, List.sum_cons]
  omega

@[simp] theorem held_completeRequest (m : ConnectionManager) (context : RequestId)
    (response : Response) (p : PendingRequest → Bool) :
    (m.completeRequest context response).held p = m.held p := by
  rcases m.completeRequest_cases context response with heq | heq <;> rw [heq]
  rfl

theorem total_pushBack (table : EndpointTable (List PendingRequest))
    (order : Reorder (Endpoint × List PendingRequest)) (ep : Endpoint) (pr : PendingRequest)
    (p : PendingRequest → Bool) :
    (table.pushBack order ep pr).total (fun kv => kv.2.countP p) =
      table.total (fun kv => kv.2.countP p) + [pr].countP p := by
  unfold EndpointTable.pushBack
  split
  · rename_i kv hfind
    have hset := KeyedTable.total_set (b := (kv.1, kv.2 ++ [pr])) (fun kv => kv.2.countP p)
      ((KeyedTable.key_of_find? hfind).symm ▸ hfind)
    rw [List.countP_append] at hset
    omega
  · rename_i hnone
    rw [KeyedTable.total_insert, KeyedTable.erase_of_not_mem (KeyedTable.find?_eq_none_iff.1 hnone)]
    exact Nat.add_comm _ _

theorem held_park (m : ConnectionManager) (ep : Endpoint) (pr : PendingRequest) (rehash : Rehash)
    (p : PendingRequest → Bool) : (m.park ep pr rehash).held p = m.held p + [pr].countP p := by
  simp only [held, park, total_pushBack]
  omega

/-- The queue of an endpoint leaves the table, and its requests are at hand. -/
theorem held_erasePending {kv : Endpoint × List PendingRequest}
    (hfind : m.pendingByEndpoint.find? ep.key = some kv) (p : PendingRequest → Bool) :
    held p { m with pendingByEndpoint := m.pendingByEndpoint.erase ep.key } + kv.2.countP p =
      m.held p := by
  have htotal := KeyedTable.total_erase (fun kv => kv.2.countP p) hfind
  simp only [held]
  omega

/-- The queue of an endpoint is replaced. -/
theorem held_setPending {kv : Endpoint × List PendingRequest}
    (hkv : kv ∈ m.pendingByEndpoint.entries) (queue : List PendingRequest)
    (p : PendingRequest → Bool) :
    kv.2.countP p + held p { m with pendingByEndpoint := m.pendingByEndpoint.set (kv.1, queue) } =
      queue.countP p + m.held p := by
  have hset := KeyedTable.total_set (t := m.pendingByEndpoint) (a := kv) (b := (kv.1, queue))
    (fun kv => kv.2.countP p) (KeyedTable.mem_iff_find?.1 hkv)
  simp only [held] at hset ⊢
  omega

/-- A call of `sendAsync` goes on. -/
theorem held_setSending {context : RequestId} {call : SendCall}
    (hfind : m.sending.find? context = some call) (phase : SendPhase) (p : PendingRequest → Bool) :
    call.holds.countP p + held p { m with sending := m.sending.set { call with phase } } =
      { call with phase }.holds.countP p + m.held p := by
  have hset := KeyedTable.total_set (b := { call with phase }) (fun call => call.holds.countP p)
    ((KeyedTable.key_of_find? hfind).symm ▸ hfind)
  simp only [held]
  omega

/-- A call of `sendAsync` returns. -/
theorem held_eraseSending {context : RequestId} {call : SendCall}
    (hfind : m.sending.find? context = some call) (p : PendingRequest → Bool) :
    held p { m with sending := m.sending.erase context } + call.holds.countP p = m.held p := by
  have htotal := KeyedTable.total_erase (fun call => call.holds.countP p) hfind
  simp only [held]
  omega

/-- What a call holds is the request of its id. -/
theorem countP_holds_ofId {call : SendCall} (hid : id ≠ call.context) :
    call.holds.countP (ofId id) = 0 := by
  refine countP_ofId_eq_zero fun hmem => hid ?_
  obtain ⟨pr, hpr, rfl⟩ := List.mem_map.1 hmem
  unfold SendCall.holds at hpr
  split at hpr
  · cases hpr
  · rw [List.mem_singleton.1 hpr]
    rfl

/-- The call that returns holds nothing of the other requests. -/
theorem total_eraseSending {context : RequestId} (hid : id ≠ context) :
    (m.sending.erase context).total (fun call => call.holds.countP (ofId id)) =
      m.sending.total fun call => call.holds.countP (ofId id) := by
  cases hfind : m.sending.find? context with
  | none => rw [KeyedTable.erase_of_not_mem (KeyedTable.find?_eq_none_iff.1 hfind)]
  | some call =>
    have hkey : call.context = context := KeyedTable.key_of_find? hfind
    have htotal := KeyedTable.total_erase (fun call => call.holds.countP (ofId id)) hfind
    rw [countP_holds_ofId fun heq => hid (heq.trans hkey), Nat.zero_add] at htotal
    exact htotal

/-! ## Contexts -/

theorem context_of_find? {ctx : RequestContext} (h : m.requests.find? id = some ctx) :
    m.context id = ctx := by
  rw [context, h, Option.getD_some]

theorem context_requestId (m : ConnectionManager) (id : RequestId) :
    (m.context id).requestId = id := by
  rw [context]
  cases h : m.requests.find? id with
  | none => rfl
  | some ctx => exact KeyedTable.key_of_find? h

/-- A registered request whose context is not finished. -/
theorem unfinished_of_context (hkey : id ∈ m.requests.keys) (h : (m.context id).finished = false) :
    m.Unfinished id := by
  obtain ⟨ctx, hfind⟩ := KeyedTable.mem_keys_iff_find?.1 hkey
  exact ⟨ctx, hfind, context_of_find? hfind ▸ h⟩

/-- A context that is written back is not less finished than before. -/
theorem unfinished_set (ctx : RequestContext)
    (hctx : ctx.finished = false → (m.context ctx.requestId).finished = false)
    (h : Unfinished { m with requests := m.requests.set ctx } id) :
    m.Unfinished id ∧ (id = ctx.requestId → ctx.finished = false) := by
  obtain ⟨c, hfind, hc⟩ := h
  by_cases hid : id = ctx.requestId
  · subst hid
    have hkey : ctx.requestId ∈ m.requests.keys := by
      have hset := KeyedTable.mem_keys_of_find? hfind
      rwa [KeyedTable.keys_set] at hset
    obtain rfl := Option.some.inj ((KeyedTable.find?_set_self hkey).symm.trans hfind)
    exact ⟨unfinished_of_context hkey (hctx hc), fun _ => hc⟩
  · rw [KeyedTable.find?_set_ne _ hid] at hfind
    exact ⟨⟨c, hfind, hc⟩, fun heq => absurd heq hid⟩

@[simp] theorem keys_completeRequest (m : ConnectionManager) (context : RequestId)
    (response : Response) :
    (m.completeRequest context response).requests.keys = m.requests.keys := by
  rcases m.completeRequest_cases context response with heq | heq <;> rw [heq]
  exact KeyedTable.keys_set _ _

@[simp] theorem nextRequestId_completeRequest (m : ConnectionManager) (context : RequestId)
    (response : Response) :
    (m.completeRequest context response).nextRequestId = m.nextRequestId := by
  rcases m.completeRequest_cases context response with heq | heq <;> rw [heq]

@[simp] theorem pendingByEndpoint_completeRequest (m : ConnectionManager) (context : RequestId)
    (response : Response) :
    (m.completeRequest context response).pendingByEndpoint = m.pendingByEndpoint := by
  rcases m.completeRequest_cases context response with heq | heq <;> rw [heq]

/-- A request that has been completed is finished. -/
theorem unfinished_completeRequest {context : RequestId} {response : Response}
    (h : (m.completeRequest context response).Unfinished id) : m.Unfinished id ∧ id ≠ context := by
  simp only [completeRequest] at h
  split at h
  · rename_i hfinished
    refine ⟨h, ?_⟩
    rintro rfl
    obtain ⟨ctx, hfind, hopen⟩ := h
    rw [context_of_find? hfind, hopen] at hfinished
    cases hfinished
  · have hset := unfinished_set (m := m) { m.context context with
      finished := true, timer := false } (fun hfalse => Bool.noConfusion hfalse) h
    refine ⟨hset.1, fun hid => ?_⟩
    exact Bool.noConfusion (hset.2 (hid.trans (context_requestId m context).symm))

/-- All requests of a list are finished once the list has been completed. -/
theorem completeAll_spec (response : Response) (contexts : List RequestId) :
    ∀ m : ConnectionManager,
      (completeAll response contexts m).nextRequestId = m.nextRequestId ∧
      (completeAll response contexts m).requests.keys = m.requests.keys ∧
      (completeAll response contexts m).pendingByEndpoint = m.pendingByEndpoint ∧
      (∀ p, (completeAll response contexts m).held p = m.held p) ∧
      ∀ id, (completeAll response contexts m).Unfinished id → m.Unfinished id ∧ id ∉ contexts := by
  induction contexts with
  | nil => exact fun m => ⟨rfl, rfl, rfl, fun _ => rfl, fun id h => ⟨h, List.not_mem_nil⟩⟩
  | cons context contexts ih =>
    intro m
    obtain ⟨hnext, hkeys, hparked, hheld, hopen⟩ := ih (m.completeRequest context response)
    refine ⟨hnext.trans (nextRequestId_completeRequest m context response),
      hkeys.trans (keys_completeRequest m context response),
      hparked.trans (pendingByEndpoint_completeRequest m context response),
      fun p => (hheld p).trans (held_completeRequest m context response p), fun id h => ?_⟩
    obtain ⟨hrest, hnot⟩ := hopen id h
    obtain ⟨hold, hne⟩ := unfinished_completeRequest hrest
    refine ⟨hold, fun hmem => ?_⟩
    rcases List.mem_cons.1 hmem with heq | hmem
    · exact hne heq
    · exact hnot hmem

/-! ## Moves -/

/-- What `m'` has made of `m` and the requests `prs`: it holds none of them twice, and it holds every
request that it has not completed as often as before, but for those in `lost`. -/
structure Moves (lost : List RequestId) (prs : List PendingRequest) (m m' : ConnectionManager) :
    Prop where
  nextRequestId : m'.nextRequestId = m.nextRequestId
  keys : m'.requests.keys = m.requests.keys
  held : ∀ p, m'.held p ≤ m.held p + prs.countP p
  retained : ∀ id ∉ lost, m'.Unfinished id →
    m.Unfinished id ∧ m.held (ofId id) + prs.countP (ofId id) ≤ m'.held (ofId id)

/-- The contexts stay as they are, and so do the requests. -/
theorem Moves.of_held (hnext : m'.nextRequestId = m.nextRequestId)
    (hrequests : m'.requests = m.requests)
    (hheld : ∀ p, m'.held p = m.held p + prs.countP p) : Moves [] prs m m' where
  nextRequestId := hnext
  keys := congrArg KeyedTable.keys hrequests
  held p := (hheld p).le
  retained id _ hopen := by
    obtain ⟨ctx, hfind, hctx⟩ := hopen
    exact ⟨⟨ctx, hrequests ▸ hfind, hctx⟩, (hheld _).ge⟩

/-- What is taken out is lost. -/
theorem Moves.of_lost (hnext : m'.nextRequestId = m.nextRequestId)
    (hrequests : m'.requests = m.requests) (hheld : ∀ p, m'.held p ≤ m.held p)
    (hkept : ∀ id ∉ lost, m.held (ofId id) ≤ m'.held (ofId id)) : Moves lost [] m m' where
  nextRequestId := hnext
  keys := congrArg KeyedTable.keys hrequests
  held := hheld
  retained id hid hopen := by
    obtain ⟨ctx, hfind, hctx⟩ := hopen
    exact ⟨⟨ctx, hrequests ▸ hfind, hctx⟩, hkept id hid⟩

theorem Moves.refl (m : ConnectionManager) : Moves [] [] m m := .of_held rfl rfl fun _ => rfl

theorem Moves.trans (h : Moves lost prs m m₁) (h' : Moves lost prs' m₁ m') :
    Moves lost (prs ++ prs') m m' where
  nextRequestId := h'.nextRequestId.trans h.nextRequestId
  keys := h'.keys.trans h.keys
  held p := by
    have hfirst := h.held p
    have hsecond := h'.held p
    rw [List.countP_append]
    omega
  retained id hid hopen := by
    obtain ⟨hopen₁, hsecond⟩ := h'.retained id hid hopen
    obtain ⟨hopen₀, hfirst⟩ := h.retained id hid hopen₁
    refine ⟨hopen₀, ?_⟩
    rw [List.countP_append]
    omega

/-- The first step takes the requests, and the second one takes none. -/
theorem Moves.andThen (h : Moves lost prs m m₁) (h' : Moves lost [] m₁ m') : Moves lost prs m m' :=
  List.append_nil prs ▸ h.trans h'

/-- The requests and the contexts stay where they are. -/
theorem Moves.same (h : Moves [] prs m m₁) (hnext : m'.nextRequestId = m₁.nextRequestId)
    (hrequests : m'.requests = m₁.requests) (hheld : ∀ p, m'.held p = m₁.held p) :
    Moves [] prs m m' :=
  h.andThen (.of_held hnext hrequests hheld)

/-- More may be lost. -/
theorem Moves.mono {more : List RequestId} (h : Moves lost prs m m') (hsub : lost ⊆ more) :
    Moves more prs m m' :=
  ⟨h.nextRequestId, h.keys, h.held, fun id hid => h.retained id fun hlost => hid (hsub hlost)⟩

/-- Requests that are dropped are lost. -/
theorem Moves.drop (h : Moves [] [] m m') (prs : List PendingRequest) :
    Moves (prs.map PendingRequest.context) prs m m' where
  nextRequestId := h.nextRequestId
  keys := h.keys
  held p := (h.held p).trans (Nat.add_le_add_left (Nat.zero_le _) _)
  retained id hid hopen := by
    rw [countP_ofId_eq_zero hid]
    exact h.retained id List.not_mem_nil hopen

/-- The requests may be taken in another order. -/
theorem Moves.perm (h : Moves lost prs m m') (hperm : prs.Perm prs') : Moves lost prs' m m' where
  nextRequestId := h.nextRequestId
  keys := h.keys
  held p := hperm.countP_eq p ▸ h.held p
  retained id hid hopen := hperm.countP_eq (ofId id) ▸ h.retained id hid hopen

/-- What has been lost and is completed is not missed. -/
theorem Moves.completeAll {contexts : List RequestId} (h : Moves contexts prs m m₁)
    (response : Response) : Moves [] prs m (completeAll response contexts m₁) := by
  obtain ⟨hnext, hkeys, -, hheld, hopen⟩ := completeAll_spec response contexts m₁
  refine ⟨hnext.trans h.nextRequestId, hkeys.trans h.keys, fun p => (hheld p).le.trans (h.held p),
    fun id _ hafter => ?_⟩
  obtain ⟨hbefore, hnot⟩ := hopen id hafter
  rw [hheld]
  exact h.retained id hnot hbefore

theorem Moves.completeRequest {context : RequestId} (h : Moves [context] prs m m₁)
    (response : Response) : Moves [] prs m (m₁.completeRequest context response) :=
  h.completeAll response

theorem moves_completeRequest (m : ConnectionManager) (context : RequestId) (response : Response) :
    Moves [] [] m (m.completeRequest context response) :=
  ((Moves.refl m).mono (List.nil_subset _)).completeRequest response

/-- A request that is completed need not be kept. -/
theorem moves_complete (m : ConnectionManager) (pr : PendingRequest) (response : Response) :
    Moves [] [pr] m (m.completeRequest pr.context response) :=
  ((Moves.refl m).drop [pr]).completeRequest response

theorem moves_push (m : ConnectionManager) (frame : CallFrame) :
    Moves [] frame.holds m (m.push frame) :=
  .of_held rfl rfl (held_push m frame)

/-- A call that is made without a request takes none. -/
theorem Moves.push (h : Moves [] prs m m₁) (frame : CallFrame) (hframe : frame.holds = []) :
    Moves [] prs m (m₁.push frame) :=
  h.andThen (hframe ▸ moves_push m₁ frame)

/-- A context is written back, and it is not less finished than before. -/
theorem moves_set (ctx : RequestContext)
    (hctx : ctx.finished = false → (m.context ctx.requestId).finished = false) :
    Moves [] [] m { m with requests := m.requests.set ctx } :=
  ⟨rfl, KeyedTable.keys_set _ _, fun _ => le_rfl, fun _ _ hopen =>
    ⟨(unfinished_set ctx hctx hopen).1, le_rfl⟩⟩

theorem moves_markCanceled (m : ConnectionManager) (requestId : RequestId) :
    Moves [] [] m (m.markCanceled requestId) :=
  moves_set _ fun h => by
    rw [context_requestId]
    exact h

theorem moves_setTimer (m : ConnectionManager) (requestId : RequestId) (timer : Bool) :
    Moves [] [] m (m.setTimer requestId timer) :=
  moves_set _ fun h => by
    rw [context_requestId]
    exact h

/-- A request leaves the submit queue. -/
theorem moves_dequeue (m : ConnectionManager) (context : RequestId) :
    Moves [context] [] m { m with
      submitQueue := m.submitQueue.eraseP fun pr => pr.context = context } := by
  refine .of_lost rfl rfl (fun p => ?_) fun id hid => ?_
  · have hle := countP_eraseP_le m.submitQueue context p
    simp only [ConnectionManager.held]
    omega
  · simp only [ConnectionManager.held, countP_eraseP_ofId hid, le_refl]

/-- The queue of an endpoint leaves the table. -/
theorem moves_erasePending {kv : Endpoint × List PendingRequest}
    (hfind : m.pendingByEndpoint.find? ep.key = some kv) :
    Moves (kv.2.map PendingRequest.context) [] m { m with
      pendingByEndpoint := m.pendingByEndpoint.erase ep.key } := by
  refine .of_lost rfl rfl (fun p => ?_) fun id hid => ?_
  · have hheld := held_erasePending hfind p
    omega
  · have hheld := held_erasePending hfind (ofId id)
    rw [countP_ofId_eq_zero hid] at hheld
    exact hheld.ge

/-- A call of `sendAsync` returns, with the request that it may still have. -/
theorem moves_eraseSending {context : RequestId} {call : SendCall}
    (hfind : m.sending.find? context = some call) :
    Moves [context] [] m { m with sending := m.sending.erase context } := by
  refine .of_lost rfl rfl (fun p => ?_) fun id hid => ?_
  · have hheld := held_eraseSending hfind p
    omega
  · have hkept := total_eraseSending (m := m) fun heq => hid (List.mem_singleton.2 heq)
    simp only [held, hkept, le_refl]

theorem moves_enqueueConnectTask (m : ConnectionManager) (ep : Endpoint) :
    Moves [] [] m (m.enqueueConnectTask ep) := by
  rcases m.enqueueConnectTask_cases ep with heq | heq <;> rw [heq]
  · exact .refl m
  · exact .of_held rfl rfl fun _ => rfl

theorem moves_trySubmitPending (m : ConnectionManager) (ep : Endpoint) :
    Moves [] [] m (m.trySubmitPending ep) := by
  rcases m.trySubmitPending_cases ep with heq | ⟨conn, -, -, heq⟩ <;> rw [heq]
  · exact .refl m
  · exact (Moves.refl m).push _ rfl

theorem moves_onConnectionFailed (m : ConnectionManager) (ep : Endpoint) :
    Moves [] [] m (m.onConnectionFailed ep) := by
  have hnot : Moves [] [] m { m with
      connectingEndpoints := m.connectingEndpoints.erase ep.key } := .of_held rfl rfl fun _ => rfl
  rw [onConnectionFailed]
  rcases drainPendingForEndpoint_cases _ ep with heq | ⟨kv, hfind, heq⟩ <;> rw [heq]
  · exact hnot
  · exact hnot.andThen ((moves_erasePending hfind).completeAll _)

/-! ## Handlers -/

/-- The request that is handed over counts as held from then on. -/
theorem HandOverStep.moves {conn : Connection} (hs : HandOverStep m conn pr (.ok m')) :
    Moves [] [pr] m m' := by
  have hhanded : Moves [] [pr] m { m with
      handedOver := m.handedOver ++ [(pr, conn.endpoint)] } := by
    refine .of_held rfl rfl fun p => ?_
    simp only [held, List.map_append, List.countP_append, List.map_cons, List.map_nil]
    omega
  cases hs with
  | refused hoff response => exact hhanded.andThen (moves_completeRequest _ _ _)
  | submitted hon streamId hsubmit =>
    have hset := hhanded.andThen (moves_set { m.context pr.context with streamId }
      fun h => (context_requestId m pr.context).symm ▸ h)
    refine Moves.push (Moves.push ?_ _ ?_) _ rfl
    · exact hset.same rfl rfl fun _ => rfl
    · rfl

theorem CloseStep.moves {connId : ConnectionId} (hs : CloseStep m connId (.ok m')) :
    Moves [] [] m m' := by
  cases hs with
  | closed hfind hclose => exact .of_held rfl rfl fun p => held_push _ _ p

/-- A request that is taken out of a queue is completed. -/
theorem AbandonStep.moves {requestId : RequestId} (hs : AbandonStep m requestId (.ok m')) :
    Moves [] [] m m' := by
  have hmarked := moves_markCanceled m requestId
  cases hs with
  | unknown => exact .refl m
  | dequeued response =>
    exact hmarked.andThen ((moves_dequeue _ requestId).completeRequest response)
  | @withdrawn kv hkv response =>
    refine hmarked.andThen (Moves.completeRequest ?_ response)
    refine .of_lost rfl rfl (fun p => ?_) fun id hid => ?_
    · have hset := held_setPending (m := m.markCanceled requestId) hkv
        (kv.2.eraseP fun pr => pr.context = requestId) p
      have hle := countP_eraseP_le kv.2 requestId p
      dsimp only [markCanceled] at hset ⊢
      omega
    · have hset := held_setPending (m := m.markCanceled requestId) hkv
        (kv.2.eraseP fun pr => pr.context = requestId) (ofId id)
      rw [countP_eraseP_ofId hid] at hset
      exact (Nat.add_left_cancel hset).ge
  | elsewhere response => exact hmarked.push _ rfl
  | onConnection hentry hfind hcancel response =>
    have hpushed := hmarked.push (.finishRequest requestId response) rfl
    refine Moves.push ?_ _ rfl
    exact hpushed.same rfl rfl fun _ => rfl

/-- The submit queue becomes the list of the loop. -/
theorem moves_drainSubmitQueue (m : ConnectionManager) : Moves [] [] m m.drainSubmitQueue := by
  refine .of_held rfl rfl fun p => ?_
  simp only [held, drainSubmitQueue, pruneConnections, push, List.map_cons, List.sum_cons,
    CallFrame.holds, List.countP_nil]
  omega

/-- What is queued under the endpoints is completed before the table is emptied. -/
theorem moves_closeOnReactor (m : ConnectionManager) : Moves [] [] m m.closeOnReactor := by
  obtain ⟨hnext, hkeys, hsame, hheld, hopen⟩ := completeAll_spec
    (.failConnectionError (ascii "Connection closed"))
    (m.pendingByEndpoint.entries.flatMap fun kv => kv.2.map PendingRequest.context) m
  have hempty : ∀ p, (KeyedTable.empty : EndpointTable (List PendingRequest)).total
      (fun kv => kv.2.countP p) = 0 := fun _ => rfl
  have hclosed : ∀ p, m.closeOnReactor.held p +
      m.pendingByEndpoint.total (fun kv => kv.2.countP p) = m.held p := by
    intro p
    have hcompleted := hheld p
    simp only [held, closeOnReactor, push, List.map_cons, List.sum_cons, CallFrame.holds,
      List.countP_nil, hempty, hsame] at hcompleted ⊢
    omega
  refine ⟨hnext, hkeys, fun p => (Nat.le_add_right _ _).trans (hclosed p).le, fun id _ hafter => ?_⟩
  obtain ⟨hbefore, hnot⟩ := hopen id hafter
  have hparked : m.pendingByEndpoint.total (fun kv => kv.2.countP (ofId id)) = 0 := by
    rw [KeyedTable.total, List.sum_eq_zero_iff]
    rintro n hn
    obtain ⟨kv, hkv, rfl⟩ := List.mem_map.1 hn
    exact countP_ofId_eq_zero fun hid => hnot (List.mem_flatMap.2 ⟨kv, hkv, hid⟩)
  have hsum := hclosed (ofId id)
  rw [hparked] at hsum
  exact ⟨hbefore, hsum.ge⟩

theorem TaskStep.moves {task : ReactorTask} (hs : TaskStep m task (.ok m')) : Moves [] [] m m' := by
  cases hs with
  | drainSubmitQueue => exact moves_drainSubmitQueue m
  | unregistered ep conn => exact moves_onConnectionFailed m ep
  | registered rehash hregister => exact .of_held rfl rfl fun _ => rfl
  | dispatching rehash hregister hpending =>
    -- the queue of the endpoint becomes the list of the loop
    exact .of_held rfl rfl fun p => (held_push _ _ p).trans (held_erasePending hpending p)
  | onConnectionFailed ep => exact moves_onConnectionFailed m ep
  | abandoned hs => exact hs.moves
  | closeOnReactor => exact moves_closeOnReactor m

/-! ## Calls that go on -/

/-- The request that a loop visits comes before those that it still has. -/
theorem Visits.moves {frame rest : CallFrame} (hs : Visits frame pr ep rest)
    (h : Moves [] [pr] (m.push rest) m') : Moves [] frame.holds m m' := by
  have hholds : frame.holds = pr :: rest.holds := by
    cases hs <;> rfl
  rw [hholds]
  exact ((moves_push m rest).trans h).perm List.perm_append_comm

/-- A request leaves the queue of its endpoint, and what happens to it makes up for that. -/
theorem Moves.of_next {e : Endpoint} {connId : ConnectionId} {queue : List PendingRequest}
    (hqueue : m.pendingByEndpoint.find? ep.key = some (e, pr :: queue))
    (h : Moves [] [pr] { m with
      pendingByEndpoint := m.pendingByEndpoint.set (e, queue)
      stack := .trySubmitPending ep connId :: m.stack } m') : Moves [] [] m m' := by
  have hpopped : ∀ p, ConnectionManager.held p { m with
      pendingByEndpoint := m.pendingByEndpoint.set (e, queue)
      stack := .trySubmitPending ep connId :: m.stack } + [pr].countP p = m.held p := by
    intro p
    have hset := held_setPending (KeyedTable.mem_of_find? hqueue) queue p
    have hpushed : ConnectionManager.held p { m with
        pendingByEndpoint := m.pendingByEndpoint.set (e, queue)
        stack := .trySubmitPending ep connId :: m.stack } = ConnectionManager.held p { m with
          pendingByEndpoint := m.pendingByEndpoint.set (e, queue) } :=
      held_push { m with pendingByEndpoint := m.pendingByEndpoint.set (e, queue) }
        (.trySubmitPending ep connId) p
    rw [hpushed]
    simp only [List.countP_cons, List.countP_nil] at hset ⊢
    omega
  exact ⟨h.nextRequestId, h.keys, fun p => (h.held p).trans_eq (hpopped p), fun id hid hopen =>
    (h.retained id hid hopen).imp_right fun hle => (hpopped _).symm.trans_le hle⟩

/-- A call that goes on puts the requests that it still has back on the stack, but for the one it is
about. -/
theorem CallStep.moves {frame : CallFrame} (hs : CallStep m frame (.ok m')) :
    Moves [] frame.holds m m' := by
  cases hs with
  | returned hreturns =>
    have hnone : frame.holds = [] := by
      cases hreturns <;> rfl
    exact hnone ▸ .refl m
  | canceled hvisits response => exact hvisits.moves (moves_complete _ _ _)
  | handedOver hvisits hconn hr => exact hvisits.moves hr.moves
  | parked hvisits rehash => exact hvisits.moves (.of_held rfl rfl (held_park _ _ _ _))
  | dialed pr localQueue rehash =>
    refine (Visits.drainSubmitQueue pr localQueue).moves (Moves.andThen ?_
      (moves_enqueueConnectTask _ _))
    exact .of_held rfl rfl (held_park _ _ _ _)
  | emptied hqueue => exact .of_held rfl rfl fun p => held_erasePending hqueue p
  | nextCanceled hqueue hfind response => exact .of_next hqueue (moves_complete _ _ _)
  | nextHandedOver hqueue hfind hr => exact .of_next hqueue hr.moves
  | recorded context connId => exact .of_held rfl rfl fun _ => rfl
  | reported hfind hentry =>
    refine Moves.andThen ?_ (moves_completeRequest _ _ _)
    exact ((Moves.refl m).push _ rfl).same rfl rfl fun _ => rfl
  | replaced ep hfind hentry =>
    refine (Moves.andThen ?_ (moves_completeRequest _ _ _)).andThen (moves_trySubmitPending _ ep)
    exact ((Moves.refl m).push _ rfl).same rfl rfl fun _ => rfl
  | @noted connId event events conn hfind hevent =>
    exact ((Moves.refl m).push (.processSessionEvents connId events) rfl).same rfl rfl fun _ => rfl
  | @died connId events conn hfind =>
    exact ((Moves.refl m).push (.processSessionEvents connId events) rfl).same rfl rfl fun _ => rfl
  | finished context response => exact moves_completeRequest m context response
  | destroyed => exact .of_held rfl rfl fun _ => rfl
  | closed hs => exact ((Moves.refl m).push _ rfl).andThen hs.moves
  | lost connId => exact .of_held rfl rfl fun _ => rfl

/-! ## Steps -/

/-- The request that a step of a user thread brings in. -/
def submission (m : ConnectionManager) : Op → List PendingRequest
  | .sendAsync request endpoint _ _ => [⟨request, endpoint, m.nextRequestId⟩]
  | _ => []

/-- A step that brings in no request keeps those that are there, and copies none. -/
theorem ManagerStep.moves {op : Op} (hs : ManagerStep m op (.ok m'))
    (hop : m.submission op = []) : Moves [] [] m m' := by
  cases hs with
  | startFailed => cases hop
  | sent => cases hop
  | untimed hcall hphase =>
    refine .of_held rfl rfl fun p => ?_
    have hset := held_setSending hcall .enqueue p
    simp only [SendCall.holds, hphase, reduceCtorEq, if_false] at hset
    exact (Nat.add_left_cancel hset)
  | unscheduled hcall response => exact (moves_eraseSending hcall).completeRequest response
  | @scheduled context call hcall hphase =>
    refine (moves_setTimer m context true).andThen (.of_held rfl rfl fun p => ?_)
    have hset := held_setSending (m := m.setTimer context true) hcall .enqueue p
    simp only [SendCall.holds, hphase, reduceCtorEq, if_false] at hset
    exact (Nat.add_left_cancel hset)
  | queued hcall hphase =>
    -- the request goes from the call to the queue
    refine .of_held rfl rfl fun p => ?_
    have hset := held_setSending hcall .post p
    simp only [SendCall.holds, hphase, reduceCtorEq, if_false, if_true, List.countP_nil] at hset
    simp only [held, List.countP_append, List.countP_nil] at hset ⊢
    omega
  | posted hcall hphase =>
    -- the call has nothing left to lose
    refine .of_held rfl rfl fun p => ?_
    have hheld := held_eraseSending hcall p
    rw [SendCall.holds, if_pos hphase] at hheld
    exact hheld
  | unposted hcall hphase response =>
    have hreturned := moves_eraseSending hcall
    exact (hreturned.andThen (moves_dequeue _ _)).completeRequest response
  | late requestId => exact .refl m
  | marked requestId => exact moves_markCanceled m requestId
  | unknown requestId => exact .refl m
  | cancelPosted requestId =>
    exact (moves_markCanceled m requestId).andThen (.of_held rfl rfl fun _ => rfl)
  | abandoned hstack hs => exact (moves_markCanceled m _).andThen hs.moves
  | closing t => exact .of_held rfl rfl fun _ => rfl
  | closePosted t => exact .of_held rfl rfl fun _ => rfl
  | joined t hstack => exact .of_held rfl rfl fun _ => rfl
  | failedQueued t response =>
    have hemptied : Moves (m.submitQueue.map PendingRequest.context) [] m
        { m.setThreads t with submitQueue := [] } := by
      refine .of_lost rfl rfl (fun p => ?_) fun id hid => ?_
      · simp only [held, setThreads, List.countP_nil]
        omega
      · have hqueue := countP_ofId_eq_zero hid
        simp only [held, setThreads, List.countP_nil]
        omega
    exact hemptied.completeAll response
  | failedAll t response =>
    have hidle : Moves [] [] m (m.setThreads t) := .of_held rfl rfl fun _ => rfl
    exact (hidle.mono (List.nil_subset m.contexts)).completeAll response
  | dropped htasks => exact .of_held rfl rfl fun _ => rfl
  | connected htasks hconnect => exact .of_held rfl rfl fun _ => rfl
  | unconnected htasks => exact .of_held rfl rfl fun _ => rfl
  | ranTask hstack htasks hs =>
    refine Moves.andThen ?_ hs.moves
    exact .of_held rfl rfl fun _ => rfl
  | timedOut hstack hs => exact (moves_setTimer m _ false).andThen hs.moves
  | served hop hstack hfind hserved => exact .of_held rfl rfl fun p => held_push _ _ p
  | answered hstack hfind hon hnone => exact .of_held rfl rfl fun _ => rfl
  | unanswered hstack hfind hs =>
    refine Moves.andThen (Moves.push ?_ _ rfl) hs.moves
    exact .of_held rfl rfl fun _ => rfl
  | @worked rehash frame stack r hstack hs =>
    -- the topmost call leaves the stack with what it holds, and takes it up again
    have hcall := hs.moves
    have hpopped : ∀ p, held p { m with stack } + frame.holds.countP p = m.held p := by
      intro p
      simp only [held, hstack, List.map_cons, List.sum_cons]
      omega
    exact ⟨hcall.nextRequestId, hcall.keys, fun p => (hcall.held p).trans_eq (hpopped p),
      fun id hid hopen => (hcall.retained id hid hopen).imp_right fun hle =>
        (hpopped _).symm.trans_le hle⟩

/-- The request that is brought in gets the next id. It is held by its call, or it fails at once. -/
theorem ManagerStep.sends {request : Request} {timeoutMs : Int} {started : Bool}
    (hs : ManagerStep m (.sendAsync request ep timeoutMs started) (.ok m')) :
    m'.nextRequestId = m.nextRequestId + 1 ∧
    (∀ id, id ∈ m'.requests.keys ↔ id = m.nextRequestId ∨ id ∈ m.requests.keys) ∧
    (∀ p, m'.held p ≤ m.held p + [⟨request, ep, m.nextRequestId⟩].countP p) ∧
    ∀ id, m'.Unfinished id →
      (m.Unfinished id ∧ m.held (ofId id) ≤ m'.held (ofId id)) ∨ 1 ≤ m'.held (ofId id) := by
  -- the new request apart, the requests are those of `m`
  have hold : ∀ {id}, id ≠ m.nextRequestId → (m.register timeoutMs).Unfinished id →
      m.Unfinished id := by
    rintro id hid ⟨ctx, hfind, hopen⟩
    rw [register, KeyedTable.find?_insert, if_neg hid] at hfind
    exact ⟨ctx, hfind, hopen⟩
  cases hs with
  | served hop => cases hop
  | startFailed _ _ _ _ t response =>
    refine ⟨nextRequestId_completeRequest _ _ _, fun id => ?_, fun p => ?_, fun id hopen => Or.inl ?_⟩
    · rw [keys_completeRequest]
      exact KeyedTable.mem_keys_insert
    · rw [held_completeRequest]
      exact Nat.le_add_right _ _
    · obtain ⟨hbefore, hid⟩ := unfinished_completeRequest hopen
      rw [held_completeRequest]
      exact ⟨hold hid hbefore, le_rfl⟩
  | sent _ _ _ _ t =>
    have hinsert := fun p => KeyedTable.total_insert (fun call : SendCall => call.holds.countP p)
      m.sending (.id _) ⟨⟨request, ep, m.nextRequestId⟩, .schedule⟩
    have hholds : SendCall.holds ⟨⟨request, ep, m.nextRequestId⟩, .schedule⟩ =
        [⟨request, ep, m.nextRequestId⟩] := rfl
    refine ⟨rfl, fun id => KeyedTable.mem_keys_insert, fun p => ?_, fun id hopen => ?_⟩
    · have hle := KeyedTable.total_erase_le (fun call => call.holds.countP p) m.sending
        m.nextRequestId
      have hsent := hinsert p
      rw [hholds] at hsent
      simp only [held, register, setThreads, SendCall.context] at hsent ⊢
      omega
    have hsent := hinsert (ofId id)
    rw [hholds] at hsent
    by_cases hid : id = m.nextRequestId
    · rw [List.countP_cons_of_pos (by simp [ofId, hid])] at hsent
      refine Or.inr ?_
      simp only [held, register, setThreads]
      omega
    · refine Or.inl ⟨hold hid hopen, ?_⟩
      -- no call of another request is replaced
      have hkept := total_eraseSending (m := m) hid
      simp only [held, register, setThreads, SendCall.context] at hsent ⊢
      omega

/-- A step holds on to what was there and to what it brings in, and copies nothing. -/
theorem held_apply {op : Op} (heq : m.apply op = .ok m') :
    (∀ p, m'.held p ≤ m.held p + (m.submission op).countP p) ∧
      m'.nextRequestId = m.nextRequestId + (m.submission op).length := by
  have hs := heq ▸ m.apply_cases op
  by_cases hop : m.submission op = []
  · have hmoves := hs.moves hop
    rw [hop]
    exact ⟨hmoves.held, hmoves.nextRequestId⟩
  · cases op with
    | sendAsync request endpoint timeoutMs started =>
      obtain ⟨hnext, -, hheld, -⟩ := hs.sends
      exact ⟨hheld, hnext⟩
    | _ => exact absurd rfl hop

end Steps

section Runs

variable {config : ConnectionConfig} {tr : List (Machine.Entry ConnectionManager Op Unit)}
  {m : ConnectionManager}

/-- The requests that `sendAsync` has been called with, under the ids that the calls gave them. -/
def submissions (tr : List (Machine.Entry ConnectionManager Op Unit)) : List PendingRequest :=
  tr.flatMap fun e => e.pre.submission e.input

/-- Everything that is held has been submitted, and the submissions have the ids that have been
given out. -/
theorem runs_held (hr : Machine.Runs step (.ofConfig config) tr m) :
    (∀ p, m.held p ≤ (submissions tr).countP p) ∧
      (submissions tr).map PendingRequest.context = List.range' 1 (submissions tr).length ∧
      m.nextRequestId = (submissions tr).length + 1 := by
  refine hr.invariant (I := fun tr m => (∀ p, m.held p ≤ (submissions tr).countP p) ∧
    (submissions tr).map PendingRequest.context = List.range' 1 (submissions tr).length ∧
    m.nextRequestId = (submissions tr).length + 1) ⟨fun p => le_rfl, rfl, rfl⟩ ?_
  rintro tr m op m' o - ⟨hheld, hids, hnext⟩ hstep
  obtain ⟨m₁, happly, hret⟩ := managed_bind_eq_ok.1 hstep
  cases hret
  obtain ⟨hstepHeld, hstepNext⟩ := held_apply happly
  have hsnoc : submissions (tr ++ [⟨m, op, ()⟩]) = submissions tr ++ m.submission op := by
    simp [submissions]
  rw [hsnoc, List.length_append]
  refine ⟨fun p => ?_, ?_, ?_⟩
  · have hold := hheld p
    have hnew := hstepHeld p
    rw [List.countP_append]
    omega
  · rw [List.map_append, hids, ← List.range'_append_1, List.append_cancel_left_eq]
    cases op with
    | sendAsync request endpoint timeoutMs started =>
      simp [submission, hnext, Nat.add_comm]
    | _ => rfl
  · rw [hstepNext, hnext, Nat.add_right_comm]

/-- In every run, a request is held in one place at most. -/
theorem held_le_one (hr : Machine.Runs step (.ofConfig config) tr m) (id : RequestId) :
    m.held (fun pr => pr.context = id) ≤ 1 := by
  obtain ⟨hheld, hids, -⟩ := runs_held hr
  have hnodup : ((submissions tr).map PendingRequest.context).Nodup := hids ▸ List.nodup_range'
  refine (hheld _).trans (le_of_eq_of_le ?_ (List.nodup_iff_count_le_one.1 hnodup id))
  rw [List.count_eq_countP, List.countP_map]
  rfl

/-- For every configuration and in every run, which ends before a step that races: the requests that
have been handed to connections are, with everything they carry, among those that `sendAsync` has been
called with, and none of them has been handed over twice. -/
theorem handedOver_subperm (hr : Machine.Runs step (.ofConfig config) tr m) :
    (m.handedOver.map Prod.fst).Subperm (submissions tr) ∧
      (m.handedOver.map fun h => h.1.context).Nodup := by
  classical
  obtain ⟨hheld, hids, -⟩ := runs_held hr
  have hcount : ∀ p, (m.handedOver.map Prod.fst).countP p ≤ (submissions tr).countP p :=
    fun p => (Nat.le_add_left _ _).trans (hheld p)
  have hsub : (m.handedOver.map Prod.fst).Subperm (submissions tr) :=
    List.subperm_ext_iff.2 fun pr _ => hcount _
  have hnodup : ((submissions tr).map PendingRequest.context).Nodup :=
    hids ▸ List.nodup_range'
  obtain ⟨l, hperm, hsublist⟩ := hsub
  have hmap : ((m.handedOver.map Prod.fst).map PendingRequest.context).Nodup :=
    (hperm.map _).nodup_iff.1 ((hsublist.map _).nodup hnodup)
  rw [List.map_map] at hmap
  exact ⟨⟨l, hperm, hsublist⟩, hmap⟩

/-- Two requests travel over the same connection. -/
theorem handedOver_subperm_named :
    ∃ tr, ∃ m : ConnectionManager, Machine.Runs step (.ofConfig {}) tr m ∧
      m.handedOver.length = 2 ∧ (m.handedOver.map Prod.fst).Subperm (submissions tr) ∧
        (m.handedOver.map fun h => h.1.context).Nodup := by
  have hrun : (Machine.run step (.ofConfig {}) (twoRequests namedEndpoint namedEndpoint)).map
      (fun x => x.1.handedOver.length) = .ok 2 := by
    decide +kernel
  obtain ⟨m, tr, hr, -, hlength⟩ := Machine.exists_runs_of_map hrun
  exact ⟨tr, m, hr, hlength, handedOver_subperm hr⟩

end Runs

end ConnectionManager

end Chttp2
