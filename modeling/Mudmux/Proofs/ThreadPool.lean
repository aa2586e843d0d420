import Mudmux.Async.ThreadPool

/-!
# `Mudmux.Proofs.ThreadPool`: the pool loses and repeats no task

`PoolSound` is the account of the pool over the threads under way: the workers that are left and those
that have ended are the workers of `start`; what was taken is running or has been run; what was accepted
was taken or is in the queue. A worker ends only when the pool is stopping and its queue is empty, and
then the queue stays empty. So when `stop` has joined all workers, everything that was accepted has been
run, and the tasks it pops at its end are none (`pool_runs_tasks_once`).
-/

set_option autoImplicit false

namespace Mudmux.Async

open Mudmux.Lib ThreadSystem

/-! ### The account -/

/-- What threads stand for: waiting workers, workers with the task they run, calls of `stop` before their
first section, and joins under way with the workers that are left to join. -/
abbrev PoolParts (τ : Type) := Multiset Nat × Multiset (Nat × τ) × Nat × Multiset (List Nat)

/-- The part that a thread has. -/
def PoolThread.part {τ : Type} : PoolThread τ → PoolParts τ
  | .waiting worker => ({worker}, 0, 0, 0)
  | .running worker task => (0, {(worker, task)}, 0, 0)
  | .stopping => (0, 0, 1, 0)
  | .joining workers => (0, 0, 0, {workers})

variable {τ : Type} {count : Nat} {pool : ThreadPool τ} {waiting : Multiset Nat}
  {busy : Multiset (Nat × τ)} {calls : Nat} {joins : Multiset (List Nat)} {worker : Nat} {task : τ}

/-- The account of a pool of `count` workers. -/
structure PoolSound (count : Nat) (pool : ThreadPool τ) (waiting : Multiset Nat)
    (busy : Multiset (Nat × τ)) (calls : Nat) (joins : Multiset (List Nat)) : Prop where
  workers : waiting + busy.map Prod.fst + pool.ended = Multiset.range count
  running : busy.map Prod.snd + pool.finished = pool.taken
  order : pool.taken ++ pool.tasks = pool.accepted
  started : pool.stopping = false → pool.workers = List.range count
  unused : count = 0 → pool.accepted = []
  drained : pool.ended ≠ [] → pool.stopping = true ∧ pool.tasks = []
  called : calls + pool.stopping.toNat ≤ pool.stopCalled.toNat
  stops : joins.card + pool.stopReturned.toNat = pool.stopping.toNat
  joins : ∀ left ∈ joins, count ≠ 0 ∧ ∀ w < count, w ∈ left ∨ w ∈ pool.ended
  returned : pool.stopReturned = true → waiting = 0 ∧ busy = 0 ∧ pool.tasks = []

namespace PoolSound

section

variable (h : PoolSound count pool waiting busy calls joins)

include h

/-- A pool that is not stopping has not been stopped. -/
theorem not_returned (hopen : pool.stopping = false) : joins = 0 ∧ pool.stopReturned = false := by
  have hstops := h.stops
  rw [hopen, Bool.toNat_false, Nat.add_eq_zero_iff, Multiset.card_eq_zero] at hstops
  exact ⟨hstops.1, Bool.toNat_eq_zero.mp hstops.2⟩

theorem submit (task : τ) : PoolSound count (pool.submit task).2 waiting busy calls joins := by
  rw [ThreadPool.submit]
  split
  · exact h
  · next hopen =>
      rw [Bool.or_eq_true, not_or, Bool.not_eq_true, List.isEmpty_iff] at hopen
      obtain ⟨hstopping, hworkers⟩ := hopen
      refine { h with order := ?_, unused := fun hzero => ?_, drained := fun hended => ?_,
                      returned := fun hreturned => ?_ }
      · rw [← List.append_assoc, h.order]
      · rw [h.started hstopping, hzero] at hworkers
        exact absurd rfl hworkers
      · rw [(h.drained hended).1] at hstopping
        cases hstopping
      · rw [(h.not_returned hstopping).2] at hreturned
        cases hreturned

omit h in
/-- A worker takes the oldest task. -/
theorem take {tasks : List τ} (htasks : pool.tasks = task :: tasks)
    (h : PoolSound count pool ({worker} + waiting) busy calls joins) :
    PoolSound count { pool with tasks, taken := pool.taken ++ [task] } waiting
      ({(worker, task)} + busy) calls joins := by
  refine { h with workers := ?_, running := ?_, order := ?_, drained := fun hended => ?_,
                  returned := fun hreturned => ?_ }
  · rw [← h.workers, Multiset.map_add, Multiset.map_singleton]
    ac_rfl
  · rw [Multiset.map_add, Multiset.map_singleton, add_assoc, h.running, ← Multiset.coe_add, add_comm]
    rfl
  · rw [List.append_assoc, List.singleton_append, ← htasks, h.order]
  · exact absurd ((h.drained hended).2.symm.trans htasks) nofun
  · exact absurd ((h.returned hreturned).2.2.symm.trans htasks) nofun

omit h in
/-- A worker ends, when the pool is stopping and its queue is empty. -/
theorem leave (hempty : pool.tasks = []) (hstopping : pool.stopping = true)
    (h : PoolSound count pool ({worker} + waiting) busy calls joins) :
    PoolSound count { pool with ended := worker :: pool.ended } waiting busy calls joins := by
  refine { h with workers := ?_, drained := fun _ => ⟨hstopping, hempty⟩,
                  joins := fun left hleft => ?_, returned := fun hreturned => ?_ }
  · rw [← h.workers, ← Multiset.cons_coe, ← Multiset.singleton_add]
    ac_rfl
  · obtain ⟨hcount, hall⟩ := h.joins left hleft
    exact ⟨hcount, fun w hw => (hall w hw).imp_right (List.mem_cons_of_mem _)⟩
  · exact absurd (h.returned hreturned).1 (by simp)

omit h in
/-- A task is over. -/
theorem finish (h : PoolSound count pool waiting ({(worker, task)} + busy) calls joins) :
    PoolSound count { pool with finished := task :: pool.finished } ({worker} + waiting) busy calls
      joins := by
  refine { h with workers := ?_, running := ?_, returned := fun hreturned => ?_ }
  · rw [← h.workers, Multiset.map_add, Multiset.map_singleton]
    ac_rfl
  · rw [← h.running, Multiset.map_add, Multiset.map_singleton, ← Multiset.cons_coe,
      ← Multiset.singleton_add]
    ac_rfl
  · exact absurd (h.returned hreturned).2.1 (by simp)

/-- When all workers have ended, none is left. -/
theorem none_left (hall : ∀ w < count, w ∈ pool.ended) : waiting = 0 ∧ busy = 0 := by
  have hnone : waiting + busy.map Prod.fst = 0 := by
    refine Multiset.eq_zero_of_forall_notMem fun w hw => ?_
    have hmem : w ∈ Multiset.range count := by
      rw [← h.workers]
      exact Multiset.mem_add.mpr (.inl hw)
    -- a worker is counted once, and this one has ended
    have hnodup := Multiset.nodup_range count
    rw [← h.workers] at hnodup
    exact Multiset.disjoint_left.mp (Multiset.nodup_add.mp hnodup).2.2 hw
      (hall w (Multiset.mem_range.mp hmem))
  exact ⟨Multiset.le_zero.mp (hnone ▸ Multiset.le_add_right _ _),
    Multiset.map_eq_zero.mp (Multiset.le_zero.mp (hnone ▸ Multiset.le_add_left _ _))⟩

end

section

variable (h : PoolSound count pool waiting busy (1 + calls) joins)

include h

/-- The only call of `stop` finds a pool that is not stopping. -/
theorem open_of_call : calls = 0 ∧ pool.stopCalled = true ∧ pool.stopping = false := by
  have hcalled := h.called
  cases hstop : pool.stopping <;> cases hcall : pool.stopCalled <;>
    simp only [hstop, hcall, Bool.toNat_true, Bool.toNat_false] at hcalled
  all_goals first | omega | exact ⟨by omega, rfl, rfl⟩

/-- `stop` on a pool without workers. -/
theorem stopUnused (hnone : pool.workers.isEmpty = true) :
    PoolSound count { pool with stopping := true, stopReturned := true } waiting busy calls joins := by
  obtain ⟨hcalls, hcalled, hopen⟩ := h.open_of_call
  have hzero : count = 0 := by
    rw [h.started hopen] at hnone
    simpa using hnone
  have haccepted := h.order.trans (h.unused hzero)
  have hleft := h.none_left fun w hw => absurd hw (by omega)
  refine { h with started := nofun, drained := fun _ => ⟨rfl, (List.append_eq_nil_iff.mp haccepted).2⟩,
                  called := ?_, stops := ?_,
                  returned := fun _ => ⟨hleft.1, hleft.2, (List.append_eq_nil_iff.mp haccepted).2⟩ }
  · rw [hcalls, hcalled]
    exact Nat.le_refl 1
  · rw [(h.not_returned hopen).1]
    rfl

/-- The first section of `stop` takes the workers. -/
theorem stop (hsome : pool.workers.isEmpty = false) :
    PoolSound count { pool with stopping := true, workers := [] } waiting busy calls
      ({pool.workers} + joins) := by
  obtain ⟨hcalls, hcalled, hopen⟩ := h.open_of_call
  have hworkers := h.started hopen
  obtain ⟨hjoins, hreturned⟩ := h.not_returned hopen
  have hcount : count ≠ 0 := by
    rw [hworkers] at hsome
    simpa using hsome
  refine { h with started := nofun, drained := fun hended => ⟨rfl, (h.drained hended).2⟩, called := ?_,
                  stops := ?_, joins := fun left hleft => ⟨hcount, fun w hw => .inl ?_⟩ }
  · rw [hcalls, hcalled]
    exact Nat.le_refl 1
  · rw [hjoins, hreturned]
    rfl
  · rw [hjoins, add_zero, Multiset.mem_singleton] at hleft
    rw [hleft, hworkers]
    exact List.mem_range.mpr hw

end

/-- A worker is joined. -/
theorem join {left : List Nat} (hended : worker ∈ pool.ended)
    (h : PoolSound count pool waiting busy calls ({worker :: left} + joins)) :
    PoolSound count pool waiting busy calls ({left} + joins) := by
  refine { h with stops := ?_, joins := fun left' hleft => ?_ }
  · rw [← h.stops, Multiset.card_add, Multiset.card_add, Multiset.card_singleton, Multiset.card_singleton]
  · obtain hleft | hleft := Multiset.mem_add.mp hleft
    · obtain ⟨hcount, hall⟩ := h.joins _ (Multiset.mem_add.mpr (.inl (Multiset.mem_singleton_self _)))
      rw [Multiset.mem_singleton.mp hleft]
      refine ⟨hcount, fun w hw => ?_⟩
      obtain hmem | hmem := hall w hw
      · obtain rfl | hmem := List.mem_cons.mp hmem
        · exact .inr hended
        · exact .inl hmem
      · exact .inr hmem
    · exact h.joins left' (Multiset.mem_add.mpr (.inr hleft))

/-- `stop` returns. The queue it empties is empty: the workers have ended. -/
theorem stopped (h : PoolSound count pool waiting busy calls ({[]} + joins)) :
    PoolSound count { pool with tasks := [], stopReturned := true } waiting busy calls joins := by
  obtain ⟨hcount, hall⟩ := h.joins _ (Multiset.mem_add.mpr (.inl (Multiset.mem_singleton_self _)))
  have hended (w : Nat) (hw : w < count) : w ∈ pool.ended := (hall w hw).resolve_left List.not_mem_nil
  obtain ⟨hstopping, hempty⟩ := h.drained (List.ne_nil_of_mem (hended 0 (Nat.pos_of_ne_zero hcount)))
  obtain ⟨hwaiting, hbusy⟩ := h.none_left hended
  refine { h with order := ?_, drained := fun _ => ⟨hstopping, rfl⟩, stops := ?_,
                  joins := fun left hleft => h.joins left (Multiset.mem_add.mpr (.inr hleft)),
                  returned := fun _ => ⟨hwaiting, hbusy, rfl⟩ }
  · rw [← hempty, h.order]
  · have hstops := h.stops
    rw [hstopping, Multiset.card_add, Multiset.card_singleton, Bool.toNat_true] at hstops
    show joins.card + 1 = pool.stopping.toNat
    rw [hstopping, Bool.toNat_true]
    omega

end PoolSound

/-! ### Runs -/

/-- The account over all threads. -/
def PoolParts.Sound (count : Nat) (pool : ThreadPool τ) (parts : PoolParts τ) : Prop :=
  PoolSound count pool parts.1 parts.2.1 parts.2.2.1 parts.2.2.2

variable {thread : PoolThread τ} {pool' : ThreadPool τ} {threads : List (PoolThread τ)}

/-- One step of a thread keeps the account. -/
theorem sound_step {choice : PoolChoice τ} {rest : PoolParts τ}
    (h : (thread.part + rest).Sound count pool)
    (hstep : pool.step thread choice = some (pool', threads)) :
    ((threads.map PoolThread.part).sum + rest).Sound count pool' := by
  obtain ⟨waiting, busy, calls, joins⟩ := rest
  cases thread with
  | waiting worker =>
    simp only [PoolThread.part, PoolParts.Sound, Prod.mk_add_mk, zero_add] at h
    cases choice with
    | submit _ | throws => cases hstep
    | next =>
      rw [ThreadPool.step, ThreadPool.takeTask] at hstep
      split at hstep
      · next hempty =>
          split at hstep
          · next hstopping =>
              cases hstep
              simpa [PoolThread.part, PoolParts.Sound] using h.leave hempty hstopping
          · cases hstep
      · next htasks =>
          cases hstep
          simpa [PoolThread.part, PoolParts.Sound] using h.take htasks
  | running worker task =>
    simp only [PoolThread.part, PoolParts.Sound, Prod.mk_add_mk, zero_add] at h
    cases choice with
    | submit other =>
      cases hstep
      simpa [PoolThread.part, PoolParts.Sound] using h.submit other
    | next | throws =>
      cases hstep
      simpa [PoolThread.part, PoolParts.Sound] using h.finish
  | stopping =>
    simp only [PoolThread.part, PoolParts.Sound, Prod.mk_add_mk, zero_add] at h
    cases choice with
    | submit _ | throws => cases hstep
    | next =>
      rw [ThreadPool.step, ThreadPool.stop] at hstep
      split at hstep
      · next hnone =>
          cases hstep
          simpa [PoolThread.part, PoolParts.Sound] using h.stopUnused hnone
      · next hsome =>
          cases hstep
          simpa [PoolThread.part, PoolParts.Sound] using h.stop (eq_false_of_ne_true hsome)
  | joining left =>
    simp only [PoolThread.part, PoolParts.Sound, Prod.mk_add_mk, zero_add] at h
    cases choice with
    | submit _ | throws => cases left <;> cases hstep
    | next =>
      cases left with
      | nil =>
        cases hstep
        simpa [PoolThread.part, PoolParts.Sound] using h.stopped
      | cons worker left =>
        rw [ThreadPool.step] at hstep
        split at hstep
        · next hended =>
            cases hstep
            simpa [PoolThread.part, PoolParts.Sound] using h.join hended
        · cases hstep

/-- One action from outside keeps it. -/
theorem sound_act {action : PoolAction τ} {rest : PoolParts τ} (h : rest.Sound count pool)
    (hact : pool.act action = some (pool', threads)) :
    ((threads.map PoolThread.part).sum + rest).Sound count pool' := by
  cases action with
  | submit task =>
    cases hact
    simpa [PoolParts.Sound] using h.submit task
  | stop =>
    rw [ThreadPool.act] at hact
    split at hact
    · cases hact
    · next hcalled =>
        cases hact
        have hbefore := h.called
        rw [eq_false_of_ne_true hcalled, Bool.toNat_false] at hbefore
        have hnew : PoolSound count { pool with stopCalled := true } rest.1 rest.2.1 (1 + rest.2.2.1)
            rest.2.2.2 := { h with called := by show 1 + rest.2.2.1 + pool.stopping.toNat ≤ 1; omega }
        simpa [PoolThread.part, PoolParts.Sound] using hnew

/-- A pool that has just been started. -/
theorem sound_startPool (τ : Type) (count : Nat) :
    (total (S := poolSystem τ) PoolThread.part ↑(startPool τ count).threads).Sound count
      (startPool τ count).shared := by
  have hparts (workers : List Nat) : ((workers.map PoolThread.waiting).map PoolThread.part).sum
      = ((workers, 0, 0, 0) : PoolParts τ) := by
    induction workers with
    | nil => rfl
    | cons worker workers ih =>
      rw [List.map_cons, List.map_cons, List.sum_cons, ih, PoolThread.part, Prod.mk_add_mk]
      simp
  rw [total, Multiset.map_coe, Multiset.sum_coe, startPool, hparts]
  exact {
    workers := by
      rw [Multiset.map_zero, add_zero]
      exact add_zero _
    running := rfl
    order := rfl
    started := fun _ => rfl
    unused := fun _ => rfl
    drained := fun h => absurd rfl h
    called := Nat.le_refl 0
    stops := rfl
    joins := fun _ h => absurd h (Multiset.notMem_zero _)
    returned := by simp }

variable {c : (poolSystem τ).Config}

/-- The account holds in every run. -/
theorem sound_of_run (hrun : Run (Guard.trivial _) (startPool τ count) c) :
    (total (S := poolSystem τ) PoolThread.part ↑c.threads).Sound count c.shared :=
  sum_invariant_of_run (S := poolSystem τ) PoolThread.part (fun pool parts => parts.Sound count pool)
    (fun _ _ _ _ _ _ h _ hstep => sound_step h hstep) (fun _ _ _ _ _ h _ hact => sound_act h hact)
    (sound_startPool τ count) hrun

/-- A pool goes on stopping, and stays stopped. -/
theorem closed_of_run {c' : (poolSystem τ).Config} (hrun : Run (Guard.trivial _) c c') :
    (c.shared.stopping = true → c'.shared.stopping = true) ∧
      (c.shared.stopReturned = true → c'.shared.stopReturned = true) := by
  refine invariant_of_run (S := poolSystem τ) (fun pool _ => (c.shared.stopping = true →
    pool.stopping = true) ∧ (c.shared.stopReturned = true → pool.stopReturned = true)) ?_ ?_ ⟨id, id⟩ hrun
  · intro pool thread choice pool' threads _ h _ hstep
    simp only [ThreadPool.step, ThreadPool.takeTask, ThreadPool.stop, ThreadPool.submit] at hstep
    repeat' split at hstep
    all_goals cases hstep
    all_goals
      first
      | exact h
      | exact ⟨fun _ => rfl, h.2⟩
      | exact ⟨fun _ => rfl, fun _ => rfl⟩
      | exact ⟨h.1, fun _ => rfl⟩
  · intro pool action pool' threads _ h _ hact
    simp only [ThreadPool.act, ThreadPool.submit] at hact
    repeat' split at hact
    all_goals cases hact
    all_goals exact h

/-- What a thread stands for is part of the account. -/
theorem exists_total_eq (h : thread ∈ c.threads) :
    ∃ rest, total (S := poolSystem τ) PoolThread.part ↑c.threads = thread.part + rest := by
  obtain ⟨others, hothers⟩ := Multiset.exists_cons_of_mem (Multiset.mem_coe.mpr h)
  exact ⟨_, by rw [hothers, total_cons]⟩

/-- For any number of workers, any submissions from outside and from tasks, which may throw, and one call
of `stop`: the tasks are taken in the order in which they were accepted. Once `stop` has had the lock
every submission is refused. When `stop` has returned each accepted task has been run once, and no worker
is left, then or later. -/
theorem pool_runs_tasks_once (count : Nat) {c : (poolSystem τ).Config}
    (hrun : Run (Guard.trivial _) (startPool τ count) c) :
    c.shared.taken <+: c.shared.accepted ∧
      (c.shared.stopReturned = true → (c.shared.finished : Multiset τ) = c.shared.accepted) ∧
      ∀ c', Run (Guard.trivial _) c c' →
        (c.shared.stopping = true → ∀ task, c'.shared.submit task = (false, c'.shared)) ∧
        (c.shared.stopReturned = true → ∀ thread ∈ c'.threads, ∀ worker task,
          thread ≠ .waiting worker ∧ thread ≠ .running worker task) := by
  have h := sound_of_run hrun
  refine ⟨⟨_, h.order⟩, fun hreturned => ?_, fun c' hrun' => ⟨fun hstopping task => ?_, ?_⟩⟩
  · obtain ⟨-, hbusy, htasks⟩ := h.returned hreturned
    have hrunning := h.running
    rw [hbusy, Multiset.map_zero, zero_add] at hrunning
    rw [hrunning, ← h.order, htasks, List.append_nil]
  · rw [ThreadPool.submit, (closed_of_run hrun').1 hstopping]
    rfl
  · intro hreturned thread hthread worker task
    obtain ⟨hwaiting, hbusy, -⟩ :=
      (sound_of_run (hrun.trans hrun')).returned ((closed_of_run hrun').2 hreturned)
    obtain ⟨rest, hrest⟩ := exists_total_eq hthread
    rw [hrest] at hwaiting hbusy
    constructor
    · rintro rfl
      simp [PoolThread.part] at hwaiting
    · rintro rfl
      simp [PoolThread.part] at hbusy

/-- A worker, a task that submits another and throws, and `stop` while the second one is in the queue. -/
theorem pool_runs_tasks_once_two :
    ∃ c : (poolSystem Nat).Config, Run (Guard.trivial _) (startPool Nat 1) c ∧
      c.shared.accepted = [7, 8] ∧ (c.shared.finished : Multiset Nat) = [7, 8] := by
  obtain ⟨c, hrun, hend⟩ := exists_run_of_execAll (Guard.trivial (poolSystem Nat))
    [.env (.submit 7), .thread 0 .next, .thread 0 (.submit 8), .env .stop, .thread 1 .next,
      .thread 0 .throws, .thread 0 .next, .thread 0 .next, .thread 0 .next, .thread 0 .next,
      .thread 0 .next] (startPool Nat 1)
    (fun c => c.shared.stopReturned && c.shared.accepted = [7, 8]) (by decide +kernel)
  rw [Bool.and_eq_true, decide_eq_true_eq] at hend
  exact ⟨c, hrun, hend.2, hend.2 ▸ (pool_runs_tasks_once 1 hrun).2.1 hend.1⟩

end Mudmux.Async
