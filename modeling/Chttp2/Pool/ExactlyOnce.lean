import Chttp2.Pool.Lifecycle

/-!
# Callbacks run exactly once

The thread that wins `tryFinish` owes the callback until it has been invoked: the debt is an
instruction of a thread, a task of the dispatcher, or what the worker is running. Debts and
invocations of a request never make more than one (`apply_balance`), so that no callback is invoked
twice.

A debt is lost only with the tasks that `CallbackDispatcher::stop` drops. There are none when
`close` is called after the threads have been started (`Dispatcher.drained`). A request that is not
finished is in `contexts` or about to be registered (`Inv.registered`). When `close` takes its list,
the reactor is off for good, so that every request that is not finished is in the list or will be
refused by the reactor (`Inv.due`). Once all the calls have returned no debt is left, and every
callback has run.
-/

set_option autoImplicit false

namespace Chttp2

namespace Callbacks

open Interleaving

/-! ## Kinds of instructions -/

namespace Instr

/-- The thread owes the callback of the request. -/
def owes (r : RequestId) : Instr → Bool
  | .eraseContext id | .isRunning id | .postCallback id | .invokeCompletion id => id = r
  | _ => false

/-- The request is about to be registered, or to be completed. -/
def early (r : RequestId) : Instr → Bool
  | .checkStarted id _ | .register id _ | .tryFinish id => id = r
  | _ => false

/-- The request is about to be completed, if the reactor is off. -/
def due (r : RequestId) : Instr → Bool
  | .checkStarted id _ | .register id _ | .schedule id | .enqueue id | .post id
  | .removeQueued id | .tryFinish id => id = r
  | _ => false

end Instr

/-! ## At most once -/

/-- The tasks of the dispatcher for a request, and the invocations of its callback. -/
def Shared.held (s : Shared) (r : RequestId) : Nat :=
  s.tasks.count r + (if s.worker = some r then 1 else 0) + (s.requests r).invoked

/-- The `finished` flag of a request as a number. -/
def Shared.finishedCount (s : Shared) (r : RequestId) : Nat :=
  if (s.requests r).finished then 1 else 0

/-- The tasks that an instruction drops. -/
def Shared.dropped (s : Shared) (r : RequestId) : Instr → Nat
  | .clearTasks _ => s.tasks.count r
  | _ => 0

section Exec

variable {choice : Choice} {s s' : Shared} {i : Instr} {new : List Instr} {r : RequestId}

/-- A debt passes from the instruction to those that it leads to, to the dispatcher or to the count
of invocations. It arises when the request is finished, and is lost when it is dropped. -/
theorem exec_balance (hexec : exec choice s i = some (s', new)) (r : RequestId) :
    new.countP (Instr.owes r) + s'.held r + s.finishedCount r + s.dropped r i =
      (if i.owes r then 1 else 0) + s.held r + s'.finishedCount r := by
  have hlist := countP_tryFinish (p := Instr.owes r) fun _ => rfl
  cases i <;> simp only [exec] at hexec <;> (try split at hexec) <;> cases hexec <;>
    simp [Instr.owes, Shared.held, Shared.finishedCount, Shared.dropped, countP_next,
      Function.update_apply, hlist] <;> grind [Instr.owes]

end Exec

namespace State

/-- The debts for a request, and the invocations of its callback. -/
def owed (s : State) (r : RequestId) : Nat :=
  s.threads.count (Instr.owes r) + s.shared.held r

/-- The tasks that a step drops. -/
def dropped (s : State) (r : RequestId) : Op → Nat
  | .run t _ =>
    match s.threads.head? t with
    | some (_, i) => s.shared.dropped r i
    | none => 0
  | _ => 0

variable {s s' : State} {op : Op}

theorem apply_of_step {o : Unit} (h : s.step op = .ok (s', o)) : s.apply op = some s' := by
  unfold step at h
  split at h
  · rename_i s₁ happly
    cases h
    exact happly
  · cases h

theorem apply_run {t : Nat} {choice : Choice} (h : s.apply (.run t choice) = some s') :
    ∃ th i new, s.threads.head? t = some (th, i) ∧
      exec choice s.shared i = some (s'.shared, new) ∧ s'.threads = s.threads.advance t th new := by
  simp only [apply, Option.bind_eq_bind, Option.bind_eq_some_iff, Option.pure_def] at h
  obtain ⟨⟨th, i⟩, hhead, ⟨shared, new⟩, hexec, hs⟩ := h
  cases hs
  exact ⟨th, i, new, hhead, hexec, rfl⟩

/-- The threads after a step of the reactor. -/
theorem apply_reactorHandles {handler : Handler} (h : s.apply (.reactorHandles handler) = some s') :
    s.shared.reactorAlive = true ∧ s'.shared = s.shared ∧
      ∃ rest, s.threads = ⟨.reactor, []⟩ :: rest ∧
        s'.threads = ⟨.reactor, handler.program⟩ :: rest := by
  simp only [apply, Option.ite_none_right_eq_some, Bool.and_eq_true] at h
  obtain ⟨⟨halive, hidle⟩, hs⟩ := h
  cases hs
  unfold reactorIdle at hidle
  split at hidle
  · rename_i rest hthreads
    exact ⟨halive, rfl, rest, hthreads, by rw [hthreads]; rfl⟩
  · cases hidle

theorem apply_reactorEnds (h : s.apply .reactorEnds = some s') :
    s.shared.reactorRunning = false ∧ s.reactorIdle = true ∧
      s' = { s with shared := { s.shared with reactorAlive := false } } := by
  simp only [apply, Option.ite_none_right_eq_some, Bool.and_eq_true, Bool.not_eq_true'] at h
  obtain ⟨⟨⟨-, hrunning⟩, hidle⟩, hs⟩ := h
  exact ⟨hrunning, hidle, (Option.some.inj hs).symm⟩

theorem apply_workerTakes (h : s.apply .workerTakes = some s') :
    ∃ r tasks, s.shared.worker = none ∧ s.shared.tasks = r :: tasks ∧
      s.shared.workerAlive = true ∧
      s' = { s with shared := { s.shared with worker := some r, tasks } } := by
  simp only [apply] at h
  split at h
  · rename_i r tasks hworker htasks
    obtain ⟨halive, hs⟩ := Option.ite_none_right_eq_some.1 h
    exact ⟨r, tasks, hworker, htasks, halive, (Option.some.inj hs).symm⟩
  · cases h

theorem apply_workerRuns (h : s.apply .workerRuns = some s') :
    ∃ r, s.shared.worker = some r ∧
      s' = { s with shared := { s.shared.invokeCompletion r with worker := none } } := by
  simp only [apply] at h
  split at h
  · rename_i r hworker
    exact ⟨r, hworker, (Option.some.inj h).symm⟩
  · cases h

theorem apply_workerEnds (h : s.apply .workerEnds = some s') :
    s.shared.worker = none ∧ s.shared.stopRequested = true ∧ s.shared.tasks = [] ∧
      s' = { s with shared := { s.shared with workerAlive := false } } := by
  simp only [apply, Option.ite_none_right_eq_some, Bool.and_eq_true, Option.isNone_iff_eq_none,
    List.isEmpty_iff] at h
  obtain ⟨⟨⟨⟨-, hworker⟩, hstop⟩, htasks⟩, hs⟩ := h
  exact ⟨hworker, hstop, htasks, (Option.some.inj hs).symm⟩

theorem apply_balance (h : s.apply op = some s') (r : RequestId) :
    s'.owed r + s.shared.finishedCount r + s.dropped r op =
      s.owed r + s'.shared.finishedCount r := by
  cases op with
  | sendAsync timed | cancel id | cancelContext id | close =>
    cases h
    simp [owed, spawn, dropped, Instr.owes, Shared.held]
    rfl
  | run t choice =>
    obtain ⟨th, i, new, hhead, hexec, hthreads⟩ := apply_run h
    have hbalance := exec_balance hexec r
    have hcount := Pool.count_advance (p := Instr.owes r) hhead new
    simp only [owed, dropped, hhead, hthreads]
    omega
  | reactorHandles handler =>
    obtain ⟨-, hshared, rest, hbefore, hafter⟩ := apply_reactorHandles h
    have hnone : handler.program.countP (Instr.owes r) = 0 := by cases handler <;> rfl
    simp [owed, dropped, hshared, hbefore, hafter, hnone]
  | reactorEnds =>
    obtain ⟨-, -, rfl⟩ := apply_reactorEnds h
    rfl
  | workerTakes =>
    -- the task passes from the queue to the worker
    obtain ⟨id, tasks, hworker, htasks, -, rfl⟩ := apply_workerTakes h
    simp only [owed, dropped, Shared.held, hworker, htasks, Shared.finishedCount]
    grind
  | workerRuns =>
    -- and from the worker to the count of invocations
    obtain ⟨id, hworker, rfl⟩ := apply_workerRuns h
    simp only [owed, dropped, Shared.held, hworker, Shared.finishedCount,
      Shared.invokeCompletion, Shared.setRequest, Function.update_apply]
    grind
  | workerEnds =>
    obtain ⟨-, -, -, rfl⟩ := apply_workerEnds h
    rfl

/-- In every run there is at most one debt or invocation for a request, and none before it is
finished. -/
theorem owed_le_of_runs {tr : List (Machine.Entry State Op Unit)} (hr : Machine.Runs step {} tr s)
    (r : RequestId) : s.owed r ≤ s.shared.finishedCount r := by
  refine hr.invariant (I := fun _ s => s.owed r ≤ s.shared.finishedCount r) (Nat.zero_le _) ?_
  intro tr s op s' o _ hinv hstep
  have hbalance := apply_balance (apply_of_step hstep) r
  omega

end State

/-! ## What single instructions do -/

section Exec

variable {choice : Choice} {s s' : Shared} {i : Instr} {new : List Instr} {r : RequestId}

/-- A request that is about to be registered or completed is registered, finished or again about to
be. -/
theorem exec_early (hexec : exec choice s i = some (s', new)) (hi : i.early r = true) :
    (s'.requests r).finished = true ∨ r ∈ s'.contexts ∨ 0 < new.countP (Instr.early r) := by
  cases i <;> simp only [exec] at hexec <;> (try split at hexec) <;> cases hexec <;>
    simp_all [Instr.early]

/-- What is finished stays finished, and a context leaves the list only by `eraseContext`. -/
theorem exec_contexts (hexec : exec choice s i = some (s', new)) (r : RequestId) :
    ((s.requests r).finished = true → (s'.requests r).finished = true) ∧
      (r ∈ s.contexts → r ∈ s'.contexts ∨ i.owes r = true) := by
  cases i <;> simp only [exec] at hexec <;> (try split at hexec) <;> cases hexec <;>
    simp_all [Function.update_apply, Instr.owes] <;> grind

/-- While the reactor is off, a request that is due stays due until it is finished. -/
theorem exec_due (hexec : exec choice s i = some (s', new)) (hoff : s.reactorRunning = false)
    (hi : i.due r = true) :
    (s'.requests r).finished = true ∨ 0 < new.countP (Instr.due r) := by
  cases i <;> simp only [exec] at hexec <;> (try split at hexec) <;> cases hexec <;>
    simp_all [Instr.due]

/-- `close` goes on until it has swept. -/
theorem exec_closing (hexec : exec choice s i = some (s', new)) :
    (i.closing = true → 0 < new.countP Instr.closing ∨ s'.swept = true) ∧
      (i.closing = false → new.countP Instr.closing = 0) := by
  have hlist := countP_tryFinish (p := Instr.closing) fun _ => rfl
  cases i <;> simp only [exec] at hexec <;> (try split at hexec) <;> cases hexec <;>
    simp_all [countP_next, Instr.closing] <;> grind [cases Caller]

theorem exec_swept (hexec : exec choice s i = some (s', new)) :
    (s.swept = true → s'.swept = true) ∧
      (s'.swept = true → s.swept = true ∨ i = .failAllContexts) := by
  cases i <;> simp only [exec] at hexec <;> (try split at hexec) <;> cases hexec <;> simp

theorem exec_reactorAlive (hexec : exec choice s i = some (s', new))
    (halive : s'.reactorAlive = false) : s.reactorAlive = false := by
  cases i <;> simp only [exec] at hexec <;> (try split at hexec) <;> cases hexec <;> simp_all

end Exec

/-! ## The invariant -/

/-- What holds in every run in which `close` is called only after the threads have been started. -/
structure Inv (s : State) : Prop where
  owed : ∀ r, s.owed r = s.shared.finishedCount r
  phases : Phases s.shared fun p => s.threads.count p
  closers : ∀ th ∈ s.threads, th.call ≠ .close → th.program.countP Instr.closing = 0
  closed : ∀ th ∈ s.threads, th.call = .close →
    s.shared.swept = true ∨ 0 < th.program.countP Instr.closing
  reactor : ∀ t th, s.threads[t]? = some th → th.call = .reactor →
    t = 0 ∧ (s.shared.reactorAlive = false → th.program = [])
  registered : ∀ th ∈ s.threads, ∀ r, th.call = .sendAsync r →
    (s.shared.requests r).finished = true ∨ r ∈ s.shared.contexts ∨
      0 < s.threads.count (Instr.early r)
  due : s.shared.swept = true → ∀ th ∈ s.threads, ∀ r, th.call = .sendAsync r →
    (s.shared.requests r).finished = true ∨ 0 < s.threads.count (Instr.due r)

namespace Inv

variable {s s' : State}

/-- The request of an instruction that owes its callback is finished. -/
theorem finished_of_owes (h : Inv s) {r : RequestId} (howes : 0 < s.threads.count (Instr.owes r)) :
    (s.shared.requests r).finished = true := by
  have howed := h.owed r
  unfold State.owed Shared.finishedCount at howed
  split at howed
  · assumption
  · omega

/-- No step drops a task. -/
theorem dropped_eq_zero (h : Inv s) (r : RequestId) (op : Op) : s.dropped r op = 0 := by
  cases op with
  | run t choice =>
    show (match s.threads.head? t with
      | some (_, i) => s.shared.dropped r i
      | none => 0) = 0
    split
    · rename_i th i hhead
      cases i with
      | clearTasks caller =>
        obtain ⟨U, hbefore, -⟩ := Pool.exists_rest hhead
        have hphases := h.phases
        simp only [hbefore] at hphases
        simp [Shared.dropped, hphases.tasks_eq_nil]
      | _ => rfl
    · rfl
  | _ => rfl

/-- A step that leaves the programs, the contexts and the flags of the requests alone. -/
theorem of_threads (h : Inv s) (hthreads : s'.threads = s.threads)
    (hcontexts : s'.shared.contexts = s.shared.contexts)
    (hfinished : ∀ r, (s'.shared.requests r).finished = (s.shared.requests r).finished)
    (hswept : s'.shared.swept = s.shared.swept)
    (howed : ∀ r, s'.owed r = s'.shared.finishedCount r)
    (hphases : Phases s'.shared fun p => s'.threads.count p)
    (hreactor : ∀ t th, s.threads[t]? = some th → th.call = .reactor →
      t = 0 ∧ (s'.shared.reactorAlive = false → th.program = [])) : Inv s' := by
  refine ⟨howed, hphases, ?_, ?_, ?_, ?_, ?_⟩
  · rw [hthreads]
    exact h.closers
  · rw [hthreads, hswept]
    exact h.closed
  · rw [hthreads]
    exact hreactor
  · simp only [hthreads, hcontexts, hfinished]
    exact h.registered
  · simp only [hthreads, hswept, hfinished]
    exact h.due

/-- A user thread enters a call. -/
theorem spawn {call : Call} {program : List Instr} (h : Inv s)
    (hshared : s'.shared = { s.shared with nextRequestId := s'.shared.nextRequestId })
    (hthreads : s'.threads = s.threads ++ [⟨call, program⟩])
    (howed : ∀ r, s'.owed r = s'.shared.finishedCount r)
    (hphases : Phases s'.shared fun p => s'.threads.count p)
    (hcloser : call ≠ .close → program.countP Instr.closing = 0)
    (hclosed : call = .close → 0 < program.countP Instr.closing) (hreactor : call ≠ .reactor)
    (hsend : ∀ r, call = .sendAsync r →
      0 < program.countP (Instr.early r) ∧ 0 < program.countP (Instr.due r)) : Inv s' := by
  have hmem : ∀ th ∈ s'.threads, th ∈ s.threads ∨ th = ⟨call, program⟩ := by
    simp [hthreads]
  have hcount : ∀ p, s'.threads.count p = s.threads.count p + program.countP p := by
    simp [hthreads]
  refine ⟨howed, hphases, ?_, ?_, ?_, ?_, ?_⟩
  · intro th hth hcall
    rcases hmem th hth with hold | rfl
    · exact h.closers th hold hcall
    · exact hcloser hcall
  · intro th hth hcall
    rw [hshared]
    rcases hmem th hth with hold | rfl
    · exact h.closed th hold hcall
    · exact .inr (hclosed hcall)
  · intro t th hth hcall
    rw [hthreads, List.getElem?_append] at hth
    rw [hshared]
    split at hth
    · exact h.reactor t th hth hcall
    · obtain rfl : th = ⟨call, program⟩ := by simpa using List.mem_of_getElem? hth
      exact absurd hcall hreactor
  · intro th hth r hcall
    rw [hshared, hcount]
    rcases hmem th hth with hold | rfl
    · rcases h.registered th hold r hcall with hdone | hin | hearly
      · exact .inl hdone
      · exact .inr (.inl hin)
      · exact .inr (.inr (Nat.add_pos_left hearly _))
    · exact .inr (.inr (Nat.add_pos_right _ (hsend r hcall).1))
  · intro hswept th hth r hcall
    rw [hshared] at hswept ⊢
    rw [hcount]
    rcases hmem th hth with hold | rfl
    · exact (h.due hswept th hold r hcall).imp_right fun hdue => Nat.add_pos_left hdue _
    · exact .inr (Nat.add_pos_right _ (hsend r hcall).2)

section Run

variable {t : Nat} {choice : Choice} {th : Thread Call Instr} {i : Instr} {new : List Instr}
variable {shared' : Shared}

theorem closers_advance (h : Inv s) (hhead : s.threads.head? t = some (th, i))
    (hexec : exec choice s.shared i = some (shared', new)) :
    ∀ th' ∈ s.threads.advance t th new, th'.call ≠ .close →
      th'.program.countP Instr.closing = 0 := by
  refine Pool.forall_advance h.closers fun hcall => ?_
  have hnone := h.closers _ (Pool.mem_of_head? hhead) hcall
  rw [List.countP_cons] at hnone
  -- the instruction is not one of `close`, and it leads to none
  have hi : i.closing = false := by
    by_contra hi
    simp [hi] at hnone
  rw [List.countP_append, (exec_closing hexec).2 hi]
  omega

theorem closed_advance (h : Inv s) (hhead : s.threads.head? t = some (th, i))
    (hexec : exec choice s.shared i = some (shared', new)) :
    ∀ th' ∈ s.threads.advance t th new, th'.call = .close →
      shared'.swept = true ∨ 0 < th'.program.countP Instr.closing := by
  obtain ⟨hswept, -⟩ := exec_swept hexec
  refine Pool.forall_advance (fun th' hth' hcall => ?_) fun hcall => ?_
  · exact (h.closed th' hth' hcall).imp_left hswept
  · rcases h.closed _ (Pool.mem_of_head? hhead) hcall with hold | hpos
    · exact .inl (hswept hold)
    · rw [List.countP_append]
      rw [List.countP_cons] at hpos
      split at hpos
      · rename_i hi
        rcases (exec_closing hexec).1 hi with hgo | hnow
        · exact .inr (Nat.add_pos_left hgo _)
        · exact .inl hnow
      · exact .inr (Nat.add_pos_right _ hpos)

/-- The reactor exists while it has a program. -/
theorem reactor_advance (h : Inv s) (hhead : s.threads.head? t = some (th, i))
    (hexec : exec choice s.shared i = some (shared', new)) :
    ∀ j th', (s.threads.advance t th new)[j]? = some th' → th'.call = .reactor →
      j = 0 ∧ (shared'.reactorAlive = false → th'.program = []) := by
  intro j th' hth' hcall
  rw [Pool.advance, List.getElem?_set] at hth'
  split at hth'
  · rename_i hj
    have hget := Pool.getElem?_of_head? hhead
    split at hth'
    · cases hth'
      obtain ⟨hzero, hended⟩ := h.reactor t _ hget hcall
      refine ⟨hj ▸ hzero, fun hdead => ?_⟩
      cases hended (exec_reactorAlive hexec hdead)
    · cases hth'
  · obtain ⟨hzero, hended⟩ := h.reactor j th' hth' hcall
    exact ⟨hzero, fun hdead => hended (exec_reactorAlive hexec hdead)⟩

theorem registered_advance (h : Inv s) (hhead : s.threads.head? t = some (th, i))
    (hexec : exec choice s.shared i = some (shared', new)) :
    ∀ th' ∈ s.threads.advance t th new, ∀ r, th'.call = .sendAsync r →
      (shared'.requests r).finished = true ∨ r ∈ shared'.contexts ∨
        0 < (s.threads.advance t th new).count (Instr.early r) := by
  intro th' hth' r hcall
  obtain ⟨hfinished, hcontexts⟩ := exec_contexts hexec r
  obtain ⟨th₀, hth₀, hsame⟩ := Pool.exists_of_mem_advance hhead hth'
  rcases h.registered th₀ hth₀ r (hsame.trans hcall) with hdone | hin | hearly
  · exact .inl (hfinished hdone)
  · rcases hcontexts hin with hin' | howes
    · exact .inr (.inl hin')
    · -- only a thread that has finished the request erases its context
      exact .inl (hfinished (h.finished_of_owes (Pool.count_pos_of_head? hhead howes)))
  · rcases Pool.count_advance_pos hhead new hearly with hi | hleft
    · exact (exec_early hexec hi).imp_right (Or.imp_right (Pool.count_advance_pos_of_new hhead))
    · exact .inr (.inr hleft)

theorem due_advance (h : Inv s) (hhead : s.threads.head? t = some (th, i))
    (hexec : exec choice s.shared i = some (shared', new)) (hswept : shared'.swept = true) :
    ∀ th' ∈ s.threads.advance t th new, ∀ r, th'.call = .sendAsync r →
      (shared'.requests r).finished = true ∨
        0 < (s.threads.advance t th new).count (Instr.due r) := by
  intro th' hth' r hcall
  obtain ⟨hfinished, -⟩ := exec_contexts hexec r
  obtain ⟨th₀, hth₀, hsame⟩ := Pool.exists_of_mem_advance hhead hth'
  rcases (exec_swept hexec).2 hswept with hold | rfl
  · -- behind the sweep the reactor is off, and a call of `sendAsync` that goes on finds that out
    have hoff := h.phases.shutdown.late (.inr hold)
    rcases h.due hold th₀ hth₀ r (hsame.trans hcall) with hdone | hdue
    · exact .inl (hfinished hdone)
    · rcases Pool.count_advance_pos hhead new hdue with hi | hleft
      · exact (exec_due hexec hoff hi).imp_right (Pool.count_advance_pos_of_new hhead)
      · exact .inr hleft
  · -- `close` takes its list: what is registered is on it
    rcases h.registered th₀ hth₀ r (hsame.trans hcall) with hdone | hin | hearly
    · exact .inl (hfinished hdone)
    · obtain ⟨-, rfl⟩ := Prod.mk.inj (Option.some.inj hexec)
      refine .inr (Pool.count_advance_pos_of_new hhead ?_)
      exact List.countP_pos_iff.2 ⟨.tryFinish r, List.mem_map_of_mem hin, by simp [Instr.due]⟩
    · rcases Pool.count_advance_pos hhead new hearly with hi | hleft
      · cases hi
      · refine .inr (hleft.trans_le (Pool.count_mono fun i => ?_))
        cases i <;> simp [Instr.early, Instr.due]

/-- A thread executes an instruction. -/
theorem run (h : Inv s) (happly : s.apply (.run t choice) = some s')
    (howed : ∀ r, s'.owed r = s'.shared.finishedCount r) : Inv s' := by
  obtain ⟨th, i, new, hhead, hexec, hthreads⟩ := State.apply_run happly
  obtain ⟨shared', threads'⟩ := s'
  obtain rfl : threads' = s.threads.advance t th new := hthreads
  refine ⟨howed, ?_, h.closers_advance hhead hexec, h.closed_advance hhead hexec,
    h.reactor_advance hhead hexec, h.registered_advance hhead hexec, h.due_advance hhead hexec⟩
  -- the phases count the instructions of all threads: those of the others stay
  obtain ⟨U, hbefore, hafter⟩ := Pool.exists_rest hhead
  have hphases := h.phases
  simp only [hbefore] at hphases
  simp only [hafter]
  exact hphases.exec hexec

end Run

/-- The reactor runs a handler. -/
theorem reactorHandles {handler : Handler} (h : Inv s)
    (happly : s.apply (.reactorHandles handler) = some s')
    (howed : ∀ r, s'.owed r = s'.shared.finishedCount r) : Inv s' := by
  obtain ⟨halive, hshared, rest, hbefore, hafter⟩ := State.apply_reactorHandles happly
  have hcount : ∀ p, s'.threads.count p = handler.program.countP p + s.threads.count p := by
    simp [hbefore, hafter]
  have hkinds : ∀ p ∈ Instr.kinds, handler.program.countP p = 0 := by
    simp only [Instr.kinds, List.forall_mem_cons]
    cases handler <;> exact ⟨rfl, rfl, rfl, rfl, rfl, rfl, rfl, rfl, rfl, List.forall_mem_nil _⟩
  have hrest : ∀ th ∈ s'.threads, th = ⟨.reactor, handler.program⟩ ∨ th ∈ s.threads := by
    simp only [hbefore, hafter, List.mem_cons]
    exact fun th hth => hth.imp_right .inr
  refine ⟨howed, ?_, ?_, ?_, ?_, ?_, ?_⟩
  · refine h.phases.congr (fun p hp => ?_) (by rw [hshared]) (.inl (by rw [hshared]))
    rw [hcount, hkinds p hp, Nat.zero_add]
  · intro th hth hcall
    rcases hrest th hth with rfl | hold
    · exact hkinds _ (by simp [Instr.kinds])
    · exact h.closers th hold hcall
  · intro th hth hcall
    rw [hshared]
    rcases hrest th hth with rfl | hold
    · cases hcall
    · exact h.closed th hold hcall
  · intro t th hth hcall
    refine ⟨?_, fun hdead => by simp [hshared, halive] at hdead⟩
    cases t with
    | zero => rfl
    | succ t => exact (h.reactor (t + 1) th (by simpa [hbefore, hafter] using hth) hcall).1
  · intro th hth r hcall
    rw [hshared, hcount]
    rcases hrest th hth with rfl | hold
    · cases hcall
    · exact (h.registered th hold r hcall).imp_right
        (Or.imp_right fun hearly => Nat.add_pos_right _ hearly)
  · intro hswept th hth r hcall
    rw [hshared] at hswept ⊢
    rw [hcount]
    rcases hrest th hth with rfl | hold
    · cases hcall
    · exact (h.due hswept th hold r hcall).imp_right fun hdue => Nat.add_pos_right _ hdue

/-- Every step keeps the invariant, if `close` is called behind the start of the threads. -/
theorem apply {op : Op} (h : Inv s) (happly : s.apply op = some s')
    (hclose : op = .close → s.shared.startOnce.isDone = true) : Inv s' := by
  have howed : ∀ r, s'.owed r = s'.shared.finishedCount r := by
    intro r
    have hbalance := State.apply_balance happly r
    rw [h.dropped_eq_zero, h.owed r] at hbalance
    omega
  cases op with
  | sendAsync timed | cancel id | cancelContext id =>
    cases happly
    refine h.spawn rfl rfl howed (h.phases.congr ?_ rfl (.inl rfl)) (fun _ => rfl) (by simp)
      (by simp) ?_
    · simp [State.spawn, Instr.kinds, Instr.boots, Instr.spawnsWorker, Instr.spawnsReactor,
        Instr.starts, Instr.closing, Instr.joinsReactor, Instr.joined, Instr.late, Instr.last]
    · simp [Instr.early, Instr.due]
  | close =>
    cases happly
    refine h.spawn rfl rfl howed ?_ (by simp) (fun _ => by decide) (by simp) (by simp)
    simpa [State.spawn] using h.phases.close (hclose rfl)
  | run t choice => exact h.run happly howed
  | reactorHandles handler => exact h.reactorHandles happly howed
  | reactorEnds =>
    obtain ⟨hrunning, hidle, rfl⟩ := State.apply_reactorEnds happly
    refine h.of_threads rfl rfl (fun _ => rfl) rfl howed h.phases.reactorEnds ?_
    intro t th hth hcall
    obtain ⟨rfl, -⟩ := h.reactor t th hth hcall
    refine ⟨rfl, fun _ => ?_⟩
    unfold State.reactorIdle at hidle
    split at hidle
    · rename_i hthreads
      simp only [hthreads, List.getElem?_cons_zero, Option.some.injEq] at hth
      rw [← hth]
    · cases hidle
  | workerTakes =>
    obtain ⟨id, tasks, -, -, halive, rfl⟩ := State.apply_workerTakes happly
    exact h.of_threads rfl rfl (fun _ => rfl) rfl howed (h.phases.workerTakes halive id tasks)
      h.reactor
  | workerRuns =>
    obtain ⟨id, -, rfl⟩ := State.apply_workerRuns happly
    refine h.of_threads rfl rfl (fun r => ?_) rfl howed (h.phases.workerRuns id) h.reactor
    simp only [Shared.invokeCompletion, Shared.setRequest, Function.update_apply]
    split
    · rename_i heq
      rw [heq]
    · rfl
  | workerEnds =>
    obtain ⟨hworker, hstop, htasks, rfl⟩ := State.apply_workerEnds happly
    exact h.of_threads rfl rfl (fun _ => rfl) rfl howed (h.phases.workerEnds hworker hstop htasks)
      h.reactor

theorem init : Inv {} where
  owed _ := rfl
  phases := ⟨⟨rfl, fun _ => ⟨rfl, rfl⟩⟩,
    ⟨fun _ => ⟨rfl, rfl, rfl⟩, nofun, fun _ => rfl, fun _ => .inl rfl, nofun, fun _ => rfl, nofun⟩,
    ⟨nofun, nofun, fun _ => rfl, fun _ => rfl⟩⟩
  closers := by simp
  closed := by simp
  reactor := by
    intro t th hth _
    cases t with
    | zero =>
      cases hth
      exact ⟨rfl, fun _ => rfl⟩
    | succ t => cases hth
  registered := by simp
  due := nofun

theorem of_runs {tr : List (Machine.Entry State Op Unit)}
    (hr : Machine.Runs State.step {} tr s) (hclose : ClosedAfterStart tr) : Inv s := by
  refine hr.invariant_of (I := fun _ s => Inv s) init ?_ hclose
  intro tr s op s' o _ hinv hclose hstep
  exact hinv.apply (State.apply_of_step hstep) hclose

/-- When all the calls have returned, one of them a call of `close`, then no thread has anything
left to do. -/
theorem programs_eq_nil (h : Inv s) (hclosed : s.Closed)
    (hreturned : s.Returned fun call => call ≠ .reactor) :
    s.shared.swept = true ∧ ∀ th ∈ s.threads, th.program = [] := by
  have hswept : s.shared.swept = true := by
    obtain ⟨th, hth, hcall⟩ := hclosed
    refine (h.closed th hth hcall).resolve_right ?_
    simp [hreturned th hth (by simp [hcall])]
  refine ⟨hswept, fun th hth => ?_⟩
  by_cases hcall : th.call = .reactor
  · obtain ⟨t, hget⟩ := List.mem_iff_getElem?.1 hth
    refine (h.reactor t th hget hcall).2 ?_
    -- a reactor that is off is being joined by a call of `close`
    by_contra halive
    have hjoins := h.phases.shutdown.joins (Bool.eq_true_of_not_eq_false halive)
      (h.phases.shutdown.late (.inr hswept))
    have hle : s.threads.count Instr.joinsReactor ≤ s.threads.count Instr.closing :=
      Pool.count_mono fun i => by cases i <;> simp [Instr.joinsReactor, Instr.closing]
    have hnone : s.threads.count Instr.closing = 0 := by
      refine Pool.count_eq_zero fun th hth => ?_
      by_cases hclose : th.call = .close
      · simp [hreturned th hth (by simp [hclose])]
      · exact h.closers th hth hclose
    omega
  · exact hreturned th hth hcall

/-- Then the callback of every request has been invoked. -/
theorem invokedOnce (h : Inv s) (hclosed : s.Closed)
    (hreturned : s.Returned fun call => call ≠ .reactor) : s.InvokedOnce := by
  obtain ⟨hswept, hdone⟩ := h.programs_eq_nil hclosed hreturned
  have hnone : ∀ p, s.threads.count p = 0 := by
    intro p
    refine Pool.count_eq_zero fun th hth => ?_
    rw [hdone th hth, List.countP_nil]
  have hdead : s.shared.workerAlive = false :=
    h.phases.dispatcher.off (h.phases.shutdown.last (.inr hswept))
  have htasks : s.shared.tasks = [] :=
    (h.phases.dispatcher.drained hdead).resolve_right (by simp [hnone])
  intro th hth r hr
  have hcall : th.call = .sendAsync r := by
    cases hc : th.call <;> simp_all [Call.submitted?]
  have hfinished : (s.shared.requests r).finished = true :=
    (h.due hswept th hth r hcall).resolve_right (by simp [hnone])
  -- the debt of the request is neither with a thread nor with the dispatcher
  simpa [State.owed, Shared.held, Shared.finishedCount, hnone, htasks, hfinished,
    h.phases.dispatcher.idle hdead] using h.owed r

end Inv

/-- In every interleaving, the callback of a request is invoked at most once. If `close` is called
only after the threads have been started, then once it has returned, and with it all calls of
`sendAsync` and `cancel`, the callback of every request has been invoked exactly once. -/
theorem completion_exactly_once {tr : List (Machine.Entry State Op Unit)} {s : State}
    (hr : Machine.Runs State.step {} tr s) :
    (∀ r, (s.shared.requests r).invoked ≤ 1) ∧
      (ClosedAfterStart tr → s.Closed → s.Returned (fun call => call ≠ .reactor) →
        s.InvokedOnce) := by
  refine ⟨fun r => ?_, fun hclose => (Inv.of_runs hr hclose).invokedOnce⟩
  have hle := State.owed_le_of_runs hr r
  have hone : s.shared.finishedCount r ≤ 1 := by
    unfold Shared.finishedCount
    split <;> omega
  unfold State.owed Shared.held at hle
  omega

/-- The thread `t` executes its next `n` instructions. -/
def executes (t n : Nat) : List Op := List.replicate n (.run t {})

/-- A request that the reactor completes when it is closed, through the dispatcher. -/
def closedWithRequest : List Op :=
  List.flatten [[.sendAsync true], executes 1 14, [.close], executes 2 2, [.reactorHandles .drain],
    executes 0 1, [.reactorHandles (.complete 1)], executes 0 4, [.reactorEnds], executes 2 3,
    [.workerTakes, .workerRuns, .workerEnds], executes 2 5]

/-- A request that a `cancel` is completing, because it has found the reactor off. -/
def closedBeforeCallback : List Op :=
  List.flatten [[.sendAsync false], executes 1 13, [.cancel 1], executes 2 3, [.close],
    executes 3 2, executes 2 6, [.reactorHandles .drain], executes 0 1, [.reactorEnds],
    executes 3 3, [.workerEnds], executes 3 6]

/-- A request behind a call of `close` that has found no threads. -/
def closedBeforeStart : List Op :=
  List.flatten [[.close], executes 1 4, [.sendAsync false], executes 2 13]

theorem completion_exactly_once_queued :
    ∃ tr s, Machine.Runs State.step {} tr s ∧ (s.shared.requests 1).invoked = 1 ∧
      (∀ r, (s.shared.requests r).invoked ≤ 1) ∧ s.InvokedOnce := by
  have hrun : (Machine.run State.step {} closedWithRequest).map
      (fun x => decide ((x.1.shared.requests 1).invoked = 1 ∧ ClosedAfterStart x.2 ∧ x.1.Closed ∧
        x.1.Returned fun call => call ≠ .reactor)) = .ok true := by
    decide +kernel
  obtain ⟨s, tr, hr, -, hend⟩ := Machine.exists_runs_of_map hrun
  obtain ⟨hone, hclose, hclosed, hreturned⟩ := of_decide_eq_true hend
  obtain ⟨hmost, honce⟩ := completion_exactly_once hr
  exact ⟨tr, s, hr, hone, hmost, honce hclose hclosed hreturned⟩

/-- `close` and `sendAsync` return while the thread of a `cancel` still owes the callback, and `close`
returns before a `sendAsync` that starts the threads. -/
theorem close_returns_before_callback :
    (∃ tr s, Machine.Runs State.step {} tr s ∧ ClosedAfterStart tr ∧ s.Closed ∧
      s.Returned (fun call => call = .close ∨ call.submitted?.isSome) ∧ ¬ s.InvokedOnce) ∧
    ∃ tr s, Machine.Runs State.step {} tr s ∧ s.Closed ∧
      s.Returned (fun call => call ≠ .reactor) ∧ ¬ s.InvokedOnce := by
  constructor
  · have hrun : (Machine.run State.step {} closedBeforeCallback).map
        (fun x => decide (ClosedAfterStart x.2 ∧ x.1.Closed ∧
          x.1.Returned (fun call => call = .close ∨ call.submitted?.isSome) ∧
          ¬ x.1.InvokedOnce)) = .ok true := by
      decide +kernel
    obtain ⟨s, tr, hr, -, hend⟩ := Machine.exists_runs_of_map hrun
    exact ⟨tr, s, hr, of_decide_eq_true hend⟩
  · have hrun : (Machine.run State.step {} closedBeforeStart).map (fun x => decide (x.1.Closed ∧
          x.1.Returned (fun call => call ≠ .reactor) ∧ ¬ x.1.InvokedOnce)) = .ok true := by
      decide +kernel
    obtain ⟨s, tr, hr, -, hend⟩ := Machine.exists_runs_of_map hrun
    exact ⟨tr, s, hr, of_decide_eq_true hend⟩

end Callbacks

end Chttp2
