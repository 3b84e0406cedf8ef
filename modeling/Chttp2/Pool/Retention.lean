import Chttp2.Pool.Holding

/-!
# No request is dropped

A request that `sendAsync` has been called with is held by the manager until it is completed or handed
to a connection: by the call itself, in the submit queue, by a loop of the reactor thread or in the
queue of an endpoint (`submission_held`). What the connection makes of it is not said here. A request
that is held nowhere has been completed (`runs_retained`), because no step drops one that it does not
complete (`ManagerStep.moves`).
-/

set_option autoImplicit false

namespace Chttp2

namespace ConnectionManager

/-- A step keeps what is not completed, and holds what it brings in. -/
theorem retained_apply {m m' : ConnectionManager} {op : Op} (heq : m.apply op = .ok m') :
    (∀ id, id ∈ m.requests.keys ∨ id ∈ (m.submission op).map PendingRequest.context →
      id ∈ m'.requests.keys) ∧
    ∀ id, m'.Unfinished id →
      (m.Unfinished id ∧ m.held (ofId id) ≤ m'.held (ofId id)) ∨ 1 ≤ m'.held (ofId id) := by
  have hs := heq ▸ m.apply_cases op
  by_cases hop : m.submission op = []
  · have hmoves := hs.moves hop
    refine ⟨fun id hid => ?_, fun id hopen => Or.inl (hmoves.retained id List.not_mem_nil hopen)⟩
    rw [hop] at hid
    exact hmoves.keys ▸ hid.resolve_right List.not_mem_nil
  · cases op with
    | sendAsync request endpoint timeoutMs started =>
      obtain ⟨-, hkeys, -, hopen⟩ := hs.sends
      refine ⟨fun id hid => (hkeys id).2 (hid.symm.imp_left fun hmem => ?_), hopen⟩
      simpa [submission] using hmem
    | _ => exact absurd rfl hop

/-! ## Runs -/

section Runs

variable {config : ConnectionConfig} {tr : List (Machine.Entry ConnectionManager Op Unit)}
  {m : ConnectionManager}

/-- In every run, the submissions are registered, and what is not finished is held. -/
theorem runs_retained (hr : Machine.Runs step (.ofConfig config) tr m) :
    (∀ pr ∈ submissions tr, pr.context ∈ m.requests.keys) ∧
      ∀ id, m.Unfinished id → 1 ≤ m.held (ofId id) := by
  refine hr.invariant (I := fun tr m => (∀ pr ∈ submissions tr, pr.context ∈ m.requests.keys) ∧
    ∀ id, m.Unfinished id → 1 ≤ m.held (ofId id)) ⟨fun pr hpr => ?_, ?_⟩ ?_
  · cases hpr
  · rintro id ⟨ctx, hfind, -⟩
    cases hfind
  rintro tr m op m' o - ⟨hkeys, hheld⟩ hstep
  obtain ⟨m₁, happly, hret⟩ := managed_bind_eq_ok.1 hstep
  cases hret
  obtain ⟨hstepKeys, hstepHeld⟩ := retained_apply happly
  refine ⟨fun pr hpr => hstepKeys _ ?_, fun id hopen => ?_⟩
  · rw [submissions, List.flatMap_append, List.mem_append] at hpr
    refine hpr.imp (hkeys pr) fun hnew => List.mem_map_of_mem ?_
    simpa using hnew
  · rcases hstepHeld id hopen with ⟨hbefore, hle⟩ | hone
    · exact (hheld id hbefore).trans hle
    · exact hone

/-- The places at which a request may be before it is handed to a connection, and the record that it
has been. -/
inductive Holds (m : ConnectionManager) (pr : PendingRequest) : Prop
  /-- a call of `sendAsync` that has not queued it yet -/
  | sending (call : SendCall) (hcall : call ∈ m.sending.entries) (h : pr ∈ call.holds)
  | submitQueue (h : pr ∈ m.submitQueue)
  /-- a loop of the reactor thread that has not come to it yet -/
  | loop (frame : CallFrame) (hframe : frame ∈ m.stack) (h : pr ∈ frame.holds)
  | pendingByEndpoint (kv : Endpoint × List PendingRequest)
      (hkv : kv ∈ m.pendingByEndpoint.entries) (h : pr ∈ kv.2)
  /-- it has been handed to a connection to this endpoint -/
  | handedOver (ep : Endpoint) (h : (pr, ep) ∈ m.handedOver)

/-- What is counted is at one of the places. -/
theorem exists_holds {p : PendingRequest → Bool} (h : 1 ≤ m.held p) :
    ∃ pr, m.Holds pr ∧ p pr = true := by
  have hcount : ∀ prs : List PendingRequest, 1 ≤ prs.countP p → ∃ pr ∈ prs, p pr = true :=
    fun prs hprs => List.countP_pos_iff.1 hprs
  have hsum : ∀ ns : List Nat, 1 ≤ ns.sum → ∃ n ∈ ns, 1 ≤ n := by
    intro ns hns
    by_contra hnone
    have hzero : ns.sum = 0 := List.sum_eq_zero_iff.2 fun n hn =>
      Nat.lt_one_iff.1 (not_le.1 fun hle => hnone ⟨n, hn, hle⟩)
    omega
  have hsplit : 1 ≤ m.sending.total (fun call => call.holds.countP p) ∨
      1 ≤ m.submitQueue.countP p ∨ 1 ≤ (m.stack.map fun frame => frame.holds.countP p).sum ∨
      1 ≤ m.pendingByEndpoint.total (fun kv => kv.2.countP p) ∨
      1 ≤ (m.handedOver.map Prod.fst).countP p := by
    simp only [held] at h
    omega
  rcases hsplit with hcall | hqueue | hframe | hkv | hconn
  · obtain ⟨n, hn, hle⟩ := hsum _ hcall
    obtain ⟨call, hmem, rfl⟩ := List.mem_map.1 hn
    obtain ⟨pr, hpr, hp⟩ := hcount _ hle
    exact ⟨pr, .sending call hmem hpr, hp⟩
  · obtain ⟨pr, hpr, hp⟩ := hcount _ hqueue
    exact ⟨pr, .submitQueue hpr, hp⟩
  · obtain ⟨n, hn, hle⟩ := hsum _ hframe
    obtain ⟨frame, hmem, rfl⟩ := List.mem_map.1 hn
    obtain ⟨pr, hpr, hp⟩ := hcount _ hle
    exact ⟨pr, .loop frame hmem hpr, hp⟩
  · obtain ⟨n, hn, hle⟩ := hsum _ hkv
    obtain ⟨kv, hmem, rfl⟩ := List.mem_map.1 hn
    obtain ⟨pr, hpr, hp⟩ := hcount _ hle
    exact ⟨pr, .pendingByEndpoint kv hmem hpr, hp⟩
  · obtain ⟨pr, hpr, hp⟩ := hcount _ hconn
    obtain ⟨⟨pr', ep⟩, hmem, rfl⟩ := List.mem_map.1 hpr
    exact ⟨pr', .handedOver ep hmem, hp⟩

/-- What is at one of the places is counted. -/
theorem held_pos_of_holds {pr : PendingRequest} (h : m.Holds pr) {p : PendingRequest → Bool}
    (hp : p pr = true) : 1 ≤ m.held p := by
  have hcount : ∀ prs : List PendingRequest, pr ∈ prs → 1 ≤ prs.countP p :=
    fun prs hprs => List.countP_pos_iff.2 ⟨pr, hprs, hp⟩
  simp only [held, KeyedTable.total]
  cases h with
  | sending call hcall h =>
    have hle := List.le_sum_of_mem (List.mem_map_of_mem
      (f := fun call : SendCall => call.holds.countP p) hcall)
    have hone := hcount _ h
    omega
  | submitQueue h =>
    have hone := hcount _ h
    omega
  | loop frame hframe h =>
    have hle := List.le_sum_of_mem (List.mem_map_of_mem
      (f := fun frame : CallFrame => frame.holds.countP p) hframe)
    have hone := hcount _ h
    omega
  | pendingByEndpoint kv hkv h =>
    have hle := List.le_sum_of_mem (List.mem_map_of_mem
      (f := fun kv : Endpoint × List PendingRequest => kv.2.countP p) hkv)
    have hone := hcount _ h
    omega
  | handedOver ep h =>
    have hone := hcount _ (List.mem_map_of_mem (f := Prod.fst) h)
    omega

/-- For every configuration and in every run, which ends before a step that races: a request that
`sendAsync` has been called with and that has not been completed is, with everything it carries, in
exactly one of the places, or it has been handed to a connection once. -/
theorem submission_held (hr : Machine.Runs step (.ofConfig config) tr m) {pr : PendingRequest}
    (hpr : pr ∈ submissions tr) (hopen : (m.context pr.context).finished = false) :
    m.Holds pr ∧ m.held (fun q => q.context = pr.context) = 1 := by
  classical
  obtain ⟨hkeys, hretained⟩ := runs_retained hr
  obtain ⟨hheld, hids, -⟩ := runs_held hr
  have hone := hretained _ (unfinished_of_context (hkeys pr hpr) hopen)
  refine ⟨?_, le_antisymm (held_le_one hr pr.context) hone⟩
  obtain ⟨q, hq, hid⟩ := exists_holds hone
  -- what is held has been submitted, and the submissions have different ids
  have hsubmitted : q ∈ submissions tr := by
    have hle := (held_pos_of_holds hq (p := fun q' => decide (q' = q)) (decide_eq_true rfl)).trans
      (hheld fun q' => decide (q' = q))
    obtain ⟨q', hmem, heq⟩ := List.countP_pos_iff.1 hle
    exact of_decide_eq_true heq ▸ hmem
  have hnodup : ((submissions tr).map PendingRequest.context).Nodup := hids ▸ List.nodup_range'
  obtain rfl := List.inj_on_of_nodup_map hnodup hsubmitted hpr (of_decide_eq_true hid)
  exact hq

/-- The second of two requests, over the connection that the first has opened. -/
theorem submission_held_named : ∃ tr, ∃ m : ConnectionManager, ∃ pr,
    Machine.Runs step (.ofConfig {}) tr m ∧ pr ∈ submissions tr ∧ pr.context = 2 ∧
      m.Holds pr ∧ m.held (fun q => q.context = pr.context) = 1 := by
  have hrun : (Machine.run step (.ofConfig {}) (twoRequests namedEndpoint namedEndpoint)).map
      (fun x => (x.1.nextRequestId, (x.1.context 2).finished)) = .ok (3, false) := by
    decide +kernel
  obtain ⟨m, tr, hr, -, hend⟩ := Machine.exists_runs_of_map hrun
  have hnext : m.nextRequestId = 3 := (Prod.mk.inj hend).1
  have hopen : (m.context 2).finished = false := (Prod.mk.inj hend).2
  obtain ⟨-, hids, hcount⟩ := runs_held hr
  have hmem : 2 ∈ (submissions tr).map PendingRequest.context := by
    have hlength : (submissions tr).length = 2 := Nat.succ.inj (hcount.symm.trans hnext)
    rw [hids, hlength]
    decide
  obtain ⟨pr, hpr, hid⟩ := List.mem_map.1 hmem
  exact ⟨tr, m, pr, hr, hpr, hid, submission_held hr hpr (hid ▸ hopen)⟩

end Runs

end ConnectionManager

end Chttp2
