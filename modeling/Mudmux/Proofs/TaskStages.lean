import Mudmux.Server.Machine
import Mudmux.Proofs.MutualExclusion

/-!
# `Mudmux.Proofs.TaskStages`: how far the tasks of a slot have got

A task that the scheduler has accepted waits, in the queue of the slot or with a thread that is on its
way to the hook; then its hook runs; then the hook has returned and its completion is left. `TaskStep`
says once what a step of a thread does to these stages, and everything about tasks is derived from it.

`Turns` is the order that the gate of the slot enforces. A hook of the current generation runs only
while the slot has that generation, and once `HOOK_DISCONNECT` is accepted and nothing is queued behind
it, no other hook of the generation is left when its turn comes.
-/

set_option autoImplicit false

namespace Mudmux.Execution

open Mudmux.Lib
open ThreadSystem
open Mudmux.Comm (HookType DispatchResult)

variable {setup : Setup}

/-! ### Stages -/

/-- How far a task has got. -/
inductive Stage where
  | waiting
  | running
  | passed
  deriving DecidableEq, Repr

/-- A task with its stage. -/
abbrev StagedTask := Stage × SlotExecution

/-- The task that a thread carries. -/
def Point.carries : Point → Multiset StagedTask
  | enqueueSubmit task | submitNext task | pooled (.execution task) | runExecution task =>
    {(.waiting, task)}
  | hook task _ => {(.running, task)}
  | hookReturned task | completion task => {(.passed, task)}
  | _ => 0

/-- The tasks that threads carry. -/
def staged (ts : Multiset Point) : Multiset StagedTask := (ts.map Point.carries).sum

@[simp]
theorem staged_cons (t : Point) (ts : Multiset Point) : staged (t ::ₘ ts) = t.carries + staged ts := by
  rw [staged, Multiset.map_cons, Multiset.sum_cons, staged]

@[simp]
theorem staged_add (ts ts' : Multiset Point) : staged (ts + ts') = staged ts + staged ts' := by
  rw [staged, Multiset.map_add, Multiset.sum_add, staged, staged]

/-- Whoever carries a task has the turn of the slot. -/
theorem card_staged_le (ts : Multiset Point) : (staged ts).card ≤ (ts.map Point.tokens).sum := by
  induction ts using Multiset.induction with
  | empty => exact Nat.le_refl 0
  | cons t ts ih =>
    have ht : t.carries.card ≤ t.tokens := by
      cases t with
      | pooled job => cases job <;> exact Nat.le_of_ble_eq_true rfl
      | _ => exact Nat.le_of_ble_eq_true rfl
    rw [staged_cons, Multiset.card_add, Multiset.map_cons, Multiset.sum_cons]
    exact Nat.add_le_add ht ih

/-! ### What a step does to the tasks -/

/-- A step of a thread beside others that carry `n`: what is observed, the queue and the tasks that are
carried behind it. -/
inductive TaskStep (s : Slot) (n : Multiset StagedTask) :
    Point → List Server.Event → List SlotExecution → Multiset StagedTask → Prop where
  | keep (t : Point) : TaskStep s n t [] s.state.pending (t.carries + n)
  /-- `finish_slot_execution` submits the next task. -/
  | next {task : SlotExecution} {rest : List SlotExecution}
      (hpending : s.state.pending = task :: rest) :
      TaskStep s n .finish [] rest ({(.waiting, task)} + n)
  | queue (task : SlotExecution) (allowPending : Bool) :
      TaskStep s n (.enqueueLock task allowPending) [] (s.state.pending ++ [task]) n
  | take (task : SlotExecution) (allowPending : Bool) (hfree : s.state.active = false) :
      TaskStep s n (.enqueueLock task allowPending) [] s.state.pending ({(.waiting, task)} + n)
  | start {task : SlotExecution} (hgeneration : s.generation = task.generation) :
      TaskStep s n (.runExecution task) [.begun task.execution.hookType] s.state.pending
        ({(.running, task)} + n)
  | returned (task : SlotExecution) :
      TaskStep s n (.hook task none) [.returned task.execution.hookType] s.state.pending
        ({(.passed, task)} + n)
  /-- The generation has changed, or the hook throws. -/
  | drop (t : Point) : TaskStep s n t [] s.state.pending n

/-- The points from which a task is taken up or moves on. -/
def Point.turns : Point → Bool
  | enqueueLock _ _ | runExecution _ | hook _ none | finish => true
  | _ => false

variable {s : Slot} {t : Point} {choice : Choice} {r : Slot × List Point}

/-- The other steps carry their task on or drop it. -/
theorem carries_of_step (haccepting : s.accepting = true) (ht : t.turns = false)
    (hstep : step setup s t choice = some r) :
    r.1.state.pending = s.state.pending ∧ Server.pointEvents s.generation t choice = [] ∧
      (staged r.2 = t.carries ∨ staged r.2 = 0) := by
  unfold step at hstep
  split at hstep
  all_goals
    try simp only [awaitSection, finalizeSection, takeResumeSection, discardSection] at hstep
    repeat' split at hstep
  all_goals first | contradiction | cases hstep
  all_goals try cases ht
  all_goals refine ⟨rfl, rfl, ?_⟩
  all_goals first | exact .inl rfl | exact .inr rfl | skip
  next job => cases job <;> exact .inl rfl

/-- What a step of a thread does to the tasks of the slot. -/
theorem taskStep_of_step (haccepting : s.accepting = true) (hstep : step setup s t choice = some r)
    (n : Multiset StagedTask) :
    TaskStep s n t (Server.pointEvents s.generation t choice) r.1.state.pending
      (staged r.2 + n) := by
  have hgone {t : Point} {events : List Server.Event} {pending : List SlotExecution}
      (h : TaskStep s n t events pending n) : TaskStep s n t events pending (0 + n) := by
    rwa [zero_add]
  by_cases ht : t.turns = false
  · obtain ⟨hpending, hevents, hcarried | hcarried⟩ := carries_of_step haccepting ht hstep
    · rw [hpending, hevents, hcarried]
      exact .keep t
    · rw [hpending, hevents, hcarried]
      exact hgone (.drop t)
  cases t with
  | enqueueLock task allowPending =>
    cases choice <;> cases hstep
    show TaskStep s n _ [] _ _
    simp only [enqueueSection]
    split
    · split
      · exact hgone (.drop _)
      · exact hgone (.queue task allowPending)
    · next hfree => exact .take task allowPending (by simpa using hfree)
  | runExecution task =>
    cases choice <;> simp only [step, reduceCtorEq] at hstep
    split at hstep
    · next hgeneration =>
        cases hstep
        simp only [Server.pointEvents, if_pos hgeneration]
        exact .start hgeneration
    · next hgeneration =>
        cases hstep
        simp only [Server.pointEvents, if_neg hgeneration]
        exact hgone (.drop _)
  | hook task call =>
    cases call with
    | some call => exact absurd rfl ht
    | none =>
      cases choice with
      | proceed =>
        cases hstep
        exact .returned task
      | await work resume =>
        simp only [step] at hstep
        split at hstep <;> cases hstep <;> exact .keep _
      | throws =>
        cases hstep
        exact hgone (.drop _)
  | finish =>
    cases choice <;> cases hstep
    show TaskStep s n _ [] _ _
    simp only [finishSection]
    split
    · next hpending => exact .next hpending
    · exact .keep _
  | _ => exact absurd rfl ht

/-! ### Disconnect hooks -/

/-- The task is a call of `HOOK_DISCONNECT`. -/
def SlotExecution.isDisconnect (task : SlotExecution) : Bool := task.execution.hookType = .disconnect

/-- The thread is about to queue a call of `HOOK_DISCONNECT`. The code of a slot queues it at once, with
no thread in between. -/
def Point.queuesDisconnect : Point → Bool
  | enqueue execution _ => execution.hookType = .disconnect
  | enqueueLock task _ => task.isDisconnect
  | _ => false

theorem queuesDisconnect_of_step (ht : t.queuesDisconnect = false)
    (hstep : step setup s t choice = some r) : ∀ t' ∈ r.2, t'.queuesDisconnect = false := by
  unfold step at hstep
  split at hstep
  case h_1 execution allowPending =>
      split at hstep <;> cases hstep
      · simpa [Point.queuesDisconnect, SlotExecution.isDisconnect] using ht
      · simp
  -- no other step comes to `enqueue` or `enqueueLock`
  all_goals
    try simp only [enqueueSection, finalizeSection, takeResumeSection, discardSection,
      finishSection, Job.start] at hstep
    repeat' split at hstep
    all_goals cases hstep
    all_goals simp [Point.queuesDisconnect]

/-- The stages of the calls of `HOOK_DISCONNECT` among tasks. -/
def disconnectStages (c : Multiset StagedTask) : Multiset Stage :=
  (c.filter fun x => x.2.isDisconnect).map Prod.fst

/-- The stages of the calls of `HOOK_DISCONNECT`, in the queue and with threads. -/
def disconnects (pending : List SlotExecution) (c : Multiset StagedTask) : Multiset Stage :=
  disconnectStages (pending.map fun task => (Stage.waiting, task) : List StagedTask)
    + disconnectStages c

theorem disconnectStages_add (c c' : Multiset StagedTask) :
    disconnectStages (c + c') = disconnectStages c + disconnectStages c' := by
  rw [disconnectStages, Multiset.filter_add, Multiset.map_add, disconnectStages, disconnectStages]

theorem disconnectStages_singleton (x : StagedTask) :
    disconnectStages {x} = if x.2.isDisconnect then {x.1} else 0 := by
  rw [disconnectStages, Multiset.filter_singleton]
  split
  · rfl
  · rfl

theorem disconnects_add (pending : List SlotExecution) (c c' : Multiset StagedTask) :
    disconnects pending (c + c') = disconnectStages c + disconnects pending c' := by
  rw [disconnects, disconnectStages_add, disconnects, add_left_comm]

theorem disconnects_cons (task : SlotExecution) (pending : List SlotExecution)
    (c : Multiset StagedTask) :
    disconnects (task :: pending) c = disconnects pending ({(.waiting, task)} + c) := by
  have hcons : ((task :: pending).map (fun task => (Stage.waiting, task)) : List StagedTask)
      = ({(Stage.waiting, task)} : Multiset StagedTask)
        + (pending.map (fun task => (Stage.waiting, task)) : List StagedTask) := rfl
  rw [disconnects_add, disconnects, hcons, disconnectStages_add, add_assoc, disconnects]

variable {pending : List SlotExecution}

/-- The order of the queue does not matter. -/
theorem disconnects_of_perm {pending' : List SlotExecution} (h : pending.Perm pending')
    (c : Multiset StagedTask) : disconnects pending c = disconnects pending' c := by
  have hcoe : ((pending.map fun task => (Stage.waiting, task) : List StagedTask) : Multiset StagedTask)
      = (pending'.map fun task => (Stage.waiting, task) : List StagedTask) :=
    Multiset.coe_eq_coe.mpr (h.map _)
  rw [disconnects, hcoe, disconnects]

theorem disconnects_concat (task : SlotExecution) (pending : List SlotExecution)
    (c : Multiset StagedTask) :
    disconnects (pending ++ [task]) c = disconnects pending ({(.waiting, task)} + c) := by
  rw [disconnects_of_perm (List.perm_append_singleton task pending), disconnects_cons]

variable {task : SlotExecution}

/-- A task of another hook does not count. -/
theorem disconnectStages_of_not {stage : Stage} (htask : task.isDisconnect = false) :
    disconnectStages {(stage, task)} = 0 := by
  rw [disconnectStages_singleton, if_neg (by simp [htask])]

theorem disconnectStages_of_disconnect {stage : Stage} (htask : task.isDisconnect = true) :
    disconnectStages {(stage, task)} = {stage} := by
  rw [disconnectStages_singleton, if_pos htask]

theorem not_isDisconnect_of_none {c : Multiset StagedTask} (h : disconnects pending c = 0) :
    (∀ task ∈ pending, task.isDisconnect = false) ∧ ∀ x ∈ c, x.2.isDisconnect = false := by
  have hstages {c : Multiset StagedTask} (hc : disconnectStages c = 0) :
      ∀ x ∈ c, x.2.isDisconnect = false := by
    intro x hx
    have hnot := Multiset.filter_eq_nil.mp (Multiset.map_eq_zero.mp hc) x hx
    simpa using hnot
  have hcard := congrArg Multiset.card h
  rw [disconnects, Multiset.card_add, Multiset.card_zero] at hcard
  obtain ⟨hpending, hcarried⟩ := Nat.add_eq_zero_iff.mp hcard
  refine ⟨fun task htask => ?_, hstages (Multiset.card_eq_zero.mp hcarried)⟩
  exact hstages (Multiset.card_eq_zero.mp hpending) (.waiting, task) (Multiset.mem_coe.mpr (List.mem_map_of_mem htask))

/-- The event is about `HOOK_DISCONNECT` or about the connection itself. -/
def concernsDisconnect : Server.Event → Bool
  | .connected | .removed => true
  | .accepted hook | .begun hook | .returned hook => hook = .disconnect

/-- What happens to the calls of `HOOK_DISCONNECT`. -/
inductive DisconnectStep : Multiset Stage → List Server.Event → Multiset Stage → Prop where
  | keep {d : Multiset Stage} {events : List Server.Event}
      (hevents : ∀ event ∈ events, concernsDisconnect event = false) : DisconnectStep d events d
  | start (d : Multiset Stage) : DisconnectStep ({.waiting} + d) [.begun .disconnect] ({.running} + d)
  | returned (d : Multiset Stage) :
      DisconnectStep ({.running} + d) [.returned .disconnect] ({.passed} + d)
  | drop (d d' : Multiset Stage) : DisconnectStep (d' + d) [] d

variable {n : Multiset StagedTask} {events : List Server.Event}

/-- A step of a thread that does not queue one. -/
theorem TaskStep.disconnectStep {c : Multiset StagedTask} (h : TaskStep s n t events pending c)
    (ht : t.queuesDisconnect = false) :
    DisconnectStep (disconnects s.state.pending (t.carries + n)) events (disconnects pending c) := by
  have hquiet {event : Server.Event} {task : SlotExecution} (htask : ¬ task.isDisconnect = true)
      (hevent : event = .begun task.execution.hookType ∨ event = .returned task.execution.hookType) :
      ∀ e ∈ [event], concernsDisconnect e = false := by
    intro e he
    rw [List.mem_singleton.mp he]
    obtain rfl | rfl := hevent <;> simpa [concernsDisconnect, SlotExecution.isDisconnect] using htask
  cases h with
  | keep => exact .keep (by simp)
  | next hpending =>
    -- the task only moves from the queue to a thread
    rw [hpending, disconnects_cons]
    show DisconnectStep (disconnects _ ({(.waiting, _)} + (0 + n))) [] _
    rw [zero_add]
    exact .keep (by simp)
  | queue task =>
    have hn : disconnects (s.state.pending ++ [task]) n = disconnects s.state.pending n := by
      rw [disconnects_concat, disconnects_add, disconnectStages_of_not ht, zero_add]
    rw [hn]
    show DisconnectStep (disconnects s.state.pending (0 + n)) [] _
    rw [zero_add]
    exact .keep (by simp)
  | take task =>
    rw [disconnects_add, disconnects_add, disconnectStages_of_not ht]
    exact .keep (by simp)
  | @start task =>
    rw [disconnects_add, disconnects_add]
    show DisconnectStep (disconnectStages {(.waiting, task)} + _) _ _
    by_cases htask : task.isDisconnect = true
    · have htype : task.execution.hookType = .disconnect := by
        simpa [SlotExecution.isDisconnect] using htask
      rw [disconnectStages_of_disconnect htask, disconnectStages_of_disconnect htask, htype]
      exact .start _
    · rw [disconnectStages_of_not (by simpa using htask),
        disconnectStages_of_not (by simpa using htask)]
      exact .keep (hquiet htask (.inl rfl))
  | returned task =>
    rw [disconnects_add, disconnects_add]
    show DisconnectStep (disconnectStages {(.running, task)} + _) _ _
    by_cases htask : task.isDisconnect = true
    · have htype : task.execution.hookType = .disconnect := by
        simpa [SlotExecution.isDisconnect] using htask
      rw [disconnectStages_of_disconnect htask, disconnectStages_of_disconnect htask, htype]
      exact .returned _
    · rw [disconnectStages_of_not (by simpa using htask),
        disconnectStages_of_not (by simpa using htask)]
      exact .keep (hquiet htask (.inr rfl))
  | drop =>
    rw [disconnects_add]
    exact .drop _ _

/-! ### The order of turns -/

/-- A hook of the generation, `HOOK_DISCONNECT` apart. -/
def LateTask (generation : Nat) (task : SlotExecution) : Prop :=
  task.generation = generation ∧ task.isDisconnect = false

/-- `HOOK_DISCONNECT` waits and nothing of the generation is queued behind it, or nothing of the
generation is left to run. -/
def Ordered (generation : Nat) (pending : List SlotExecution) (c : Multiset StagedTask) : Prop :=
  (∃ before task behind, pending = before ++ task :: behind ∧ task.isDisconnect = true ∧
    ∀ late ∈ behind, ¬ LateTask generation late) ∨
  ((∀ task ∈ pending, ¬ LateTask generation task) ∧
    ∀ x ∈ c, x.1 ≠ .passed → ¬ LateTask generation x.2)

/-- The gate, and what it enforces. `closed` says that `HOOK_DISCONNECT` has been accepted. -/
structure Turns (closed : Prop) (s : Slot) (ts : Multiset Point) : Prop where
  gate : Gate s.state (ts.map Point.tokens).sum
  idle : s.state.active = false → s.state.pending = []
  own : ∀ task, (.running, task) ∈ staged ts → task.generation = 0 ∨ task.generation = s.generation
  order : closed → Ordered s.generation s.state.pending (staged ts)

/-- An inactive slot has no queue. -/
theorem idle_step (haccepting : s.accepting = true)
    (h : s.state.active = false → s.state.pending = []) (hstep : step setup s t choice = some r) :
    r.1.state.active = false → r.1.state.pending = [] := by
  by_cases ht : t.isSection = false
  · rw [(step_of_not_section ht hstep).1]
    exact h
  cases t with
  | enqueueLock task allowPending =>
    cases choice <;> cases hstep
    simp only [enqueueSection]
    split
    · next hactive =>
        split
        · exact h
        · intro hfree
          exact absurd (hactive.symm.trans hfree) (by decide)
    · simp
  | finalizeAwait =>
    cases choice <;> cases hstep
    simp only [finalizeSection]
    split
    · simp
    · exact h
  | takeResume | discardAwait =>
    cases choice <;> cases hstep
    simp only [takeResumeSection, discardSection]
    split <;> exact h
  | finish =>
    cases choice <;> cases hstep
    simp only [finishSection]
    split
    · next hpending =>
        intro hfree
        rw [h hfree] at hpending
        cases hpending
    · next hpending => exact fun _ => hpending
  | submitNext task =>
    cases choice <;> simp only [step, haccepting, if_true, reduceCtorEq] at hstep
    cases hstep
    exact h
  | hook task call | resume call =>
    cases call with
    | none => exact absurd rfl ht
    | some call =>
      cases choice <;> cases hstep
      simp only [awaitSection]
      split <;> exact h
  | _ => exact absurd rfl ht

/-- Nobody else carries a task when a thread with the turn of the slot carries none. -/
theorem staged_eq_zero_of_gate {state : SlotExecutionState} {ts : Multiset Point} {k : Nat}
    (h : Gate state (k + (ts.map Point.tokens).sum)) (hk : state.active.toNat ≤ k) :
    staged ts = 0 := by
  have hcard := card_staged_le ts
  have htoken := h.token
  exact Multiset.card_eq_zero.mp (by omega)

variable {generation : Nat}

theorem Ordered.mono {c c' : Multiset StagedTask} (h : Ordered generation pending c)
    (hc : ∀ x ∈ c', x.1 ≠ .passed → LateTask generation x.2 →
      ∃ y ∈ c, y.1 ≠ .passed ∧ LateTask generation y.2) : Ordered generation pending c' := by
  obtain hwaits | ⟨hpending, hcarried⟩ := h
  · exact .inl hwaits
  · refine .inr ⟨hpending, fun x hx hstage hlate => ?_⟩
    obtain ⟨y, hy, hystage, hylate⟩ := hc x hx hstage hlate
    exact hcarried y hy hystage hylate

/-- A task that is not late may be queued. -/
theorem Ordered.queue {c : Multiset StagedTask} (h : Ordered generation pending c)
    (htask : ¬ LateTask generation task) : Ordered generation (pending ++ [task]) c := by
  obtain ⟨before, disconnect, behind, rfl, hdisconnect, hbehind⟩ | ⟨hpending, hcarried⟩ := h
  · refine .inl ⟨before, disconnect, behind ++ [task], by simp, hdisconnect, fun late hlate => ?_⟩
    obtain hold | hnew := List.mem_append.mp hlate
    · exact hbehind late hold
    · rw [List.mem_singleton.mp hnew]
      exact htask
  · refine .inr ⟨fun task' hmem => ?_, hcarried⟩
    obtain hold | hnew := List.mem_append.mp hmem
    · exact hpending task' hold
    · rw [List.mem_singleton.mp hnew]
      exact htask

/-- The head of the queue gets its turn, with nobody else under way. -/
theorem Ordered.next {rest : List SlotExecution} {c : Multiset StagedTask}
    (h : Ordered generation (task :: rest) c) : Ordered generation rest {(.waiting, task)} := by
  have hsingle (htask : ¬ LateTask generation task) :
      ∀ x ∈ ({(.waiting, task)} : Multiset StagedTask), x.1 ≠ .passed → ¬ LateTask generation x.2 := by
    intro x hx _
    rw [Multiset.mem_singleton.mp hx]
    exact htask
  obtain ⟨before, disconnect, behind, hsplit, hdisconnect, hbehind⟩ | ⟨hpending, -⟩ := h
  · cases before with
    | nil =>
      cases hsplit
      refine .inr ⟨hbehind, hsingle fun hlate => ?_⟩
      exact absurd (hlate.2.symm.trans hdisconnect) (by decide)
    | cons head before =>
      cases hsplit
      exact .inl ⟨before, disconnect, behind, rfl, hdisconnect, hbehind⟩
  · exact .inr ⟨fun task' hmem => hpending task' (List.mem_cons_of_mem _ hmem),
      hsingle (hpending task List.mem_cons_self)⟩

/-- A hook begins only in its own generation. -/
theorem TaskStep.own {c : Multiset StagedTask} (h : TaskStep s n t events pending c)
    (hown : ∀ task, (.running, task) ∈ t.carries + n →
      task.generation = 0 ∨ task.generation = s.generation) :
    ∀ task, (.running, task) ∈ c → task.generation = 0 ∨ task.generation = s.generation := by
  have hrest {x : StagedTask} (hx : x.1 ≠ .running) :
      ∀ task, (.running, task) ∈ {x} + n → task.generation = 0 ∨ task.generation = s.generation := by
    intro task hmem
    obtain hnew | hold := Multiset.mem_add.mp hmem
    · rw [← Multiset.mem_singleton.mp hnew] at hx
      exact absurd rfl hx
    · exact hown task (Multiset.mem_add.mpr (.inr hold))
  cases h with
  | keep => exact hown
  | next | take | returned => exact hrest nofun
  | queue | drop => exact fun task hmem => hown task (Multiset.mem_add.mpr (.inr hmem))
  | start hgeneration =>
    intro task hmem
    obtain hnew | hold := Multiset.mem_add.mp hmem
    · cases Multiset.mem_singleton.mp hnew
      exact .inr hgeneration.symm
    · exact hown task (Multiset.mem_add.mpr (.inr hold))

/-- What a step does to the order; the two last hypotheses are what the gate gives. -/
theorem TaskStep.ordered {c : Multiset StagedTask} (h : TaskStep s n t events pending c)
    (horder : Ordered s.generation s.state.pending (t.carries + n))
    (hidle : s.state.active = false → s.state.pending = [])
    (hlate : ∀ task allowPending, t = .enqueueLock task allowPending →
      task.generation ≠ s.generation) (hfinish : t = .finish → n = 0)
    (hfree : s.state.active = false → n = 0) : Ordered s.generation pending c := by
  have hmoved (stage : Stage) {stage' : Stage} {task : SlotExecution} (hstage : stage ≠ .passed)
      (hold : Ordered s.generation s.state.pending ({(stage, task)} + n)) :
      Ordered s.generation s.state.pending ({(stage', task)} + n) := by
    refine hold.mono fun x hx hx' hxlate => ?_
    obtain hnew | hrest := Multiset.mem_add.mp hx
    · rw [Multiset.mem_singleton.mp hnew] at hxlate
      exact ⟨(stage, task), Multiset.mem_add.mpr (.inl (Multiset.mem_singleton_self _)), hstage, hxlate⟩
    · exact ⟨x, Multiset.mem_add.mpr (.inr hrest), hx', hxlate⟩
  have hrest : Ordered s.generation s.state.pending n :=
    horder.mono fun x hx hx' hxlate => ⟨x, Multiset.mem_add.mpr (.inr hx), hx', hxlate⟩
  cases h with
  | keep => exact horder
  | next hpending =>
    rw [hpending] at horder
    rw [hfinish rfl, add_zero]
    exact horder.next
  | queue task allowPending => exact hrest.queue fun h => hlate task allowPending rfl h.1
  | take task allowPending hinactive =>
    rw [hidle hinactive, hfree hinactive, add_zero]
    refine .inr ⟨nofun, fun x hx _ hxlate => ?_⟩
    rw [Multiset.mem_singleton.mp hx] at hxlate
    exact hlate task allowPending rfl hxlate.1
  | start => exact hmoved .waiting nofun horder
  | returned => exact hmoved .running nofun horder
  | drop => exact hrest

/-- A step keeps the order of turns, if it discards no request of an await and queues nothing of the
current generation behind `HOOK_DISCONNECT`. -/
theorem turns_step {closed : Prop} {rest : Multiset Point} (haccepting : s.accepting = true)
    (h : Turns closed s (t ::ₘ rest)) (hdiscard : discardsRequest s t = false)
    (hlate : closed → ∀ task allowPending, t = .enqueueLock task allowPending →
      task.generation ≠ s.generation) (hgeneration : r.1.generation = s.generation)
    (hstep : step setup s t choice = some r) : Turns closed r.1 (r.2 + rest) := by
  have hgate : Gate s.state (t.tokens + (rest.map Point.tokens).sum) := by
    simpa only [Multiset.map_cons, Multiset.sum_cons] using h.gate
  have htask := taskStep_of_step haccepting hstep (staged rest)
  have hown := h.own
  have horder := h.order
  rw [staged_cons] at hown horder
  refine ⟨?_, idle_step haccepting h.idle hstep, ?_, ?_⟩
  · rw [Multiset.map_add, Multiset.sum_add]
    exact gate_step hgate hdiscard hstep
  · rw [staged_add, hgeneration]
    exact htask.own hown
  · rw [staged_add, hgeneration]
    intro hclosed
    refine htask.ordered (horder hclosed) h.idle (hlate hclosed) (fun hfinish => ?_) fun hfree => ?_
    · rw [hfinish] at hgate
      exact staged_eq_zero_of_gate hgate s.state.active.toNat_le
    · refine staged_eq_zero_of_gate (k := t.tokens) hgate ?_
      rw [hfree]
      exact Nat.zero_le _

/-! ### Queueing `HOOK_DISCONNECT` -/

/-- A task that is accepted waits. -/
theorem disconnects_enqueueSection {capacity : Nat} (task : SlotExecution) (c : Multiset StagedTask)
    (hroom : s.state.active = true → s.state.pending.length < capacity) :
    disconnects (enqueueSection capacity s task true).1.state.pending
        (staged ((enqueueSection capacity s task true).2 : Multiset Point) + c)
      = disconnectStages {(.waiting, task)} + disconnects s.state.pending c := by
  simp only [enqueueSection]
  split
  · next hactive =>
      rw [if_neg (by simpa using hroom hactive)]
      show disconnects (s.state.pending ++ [task]) (0 + c) = _
      rw [zero_add, disconnects_concat, disconnects_add]
  · exact disconnects_add _ _ _

/-- `HOOK_DISCONNECT` takes its turn behind everything that is queued. -/
theorem turns_enqueueSection {closed : Prop} (closed' : Prop) {ts : Multiset Point} {capacity : Nat}
    (h : Turns closed s ts) (htask : task.isDisconnect = true)
    (hroom : s.state.active = true → s.state.pending.length < capacity) :
    Turns closed' (enqueueSection capacity s task true).1
      ((enqueueSection capacity s task true).2 + ts) := by
  have hgate := gate_enqueueSection capacity task true h.gate
  have hlate (generation : Nat) : ¬ LateTask generation task := by
    intro hlate
    exact absurd (hlate.2.symm.trans htask) (by decide)
  simp only [enqueueSection] at hgate ⊢
  split at hgate
  · next hactive =>
      rw [if_pos hactive]
      rw [if_neg (by simpa using hroom hactive)] at hgate ⊢
      refine ⟨by simpa using hgate, ?_, ?_, ?_⟩
      · intro hfree
        exact absurd (hactive.symm.trans hfree) (by decide)
      · intro task' hrunning
        exact h.own task' (by simpa using hrunning)
      · intro _
        exact .inl ⟨s.state.pending, task, [], rfl, htask, nofun⟩
  · next hfree =>
      rw [if_neg hfree]
      have hfree : s.state.active = false := by simpa using hfree
      have hnobody : staged ts = 0 := by
        refine staged_eq_zero_of_gate (k := 0) (by simpa using h.gate) ?_
        rw [hfree]
        exact Nat.le_refl 0
      have hstaged : staged (([.enqueueSubmit task] : List Point) + ts) = {(.waiting, task)} := by
        rw [staged_add, hnobody, add_zero]
        rfl
      refine ⟨?_, nofun, ?_, ?_⟩
      · rw [Multiset.map_add, Multiset.sum_add]
        exact hgate
      · intro task' hrunning
        rw [hstaged, Multiset.mem_singleton] at hrunning
        cases hrunning
      · intro _
        refine .inr ⟨?_, ?_⟩
        · show ∀ task' ∈ s.state.pending, _
          rw [h.idle hfree]
          nofun
        · intro x hx _
          rw [hstaged, Multiset.mem_singleton] at hx
          rw [hx]
          exact hlate _

end Mudmux.Execution
