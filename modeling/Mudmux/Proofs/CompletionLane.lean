import Mudmux.Execution.DetachedWork
import Mudmux.Lib.History

/-!
# `Mudmux.Proofs.CompletionLane`: completions run one after another and none is lost

The thread that has the lane's turn is the only one that may invoke a completion; the turn exists exactly
while `detached_completion_active` is set. What was handed to the lane is at all times what has been
invoked, then the completion that the thread with the turn carries, then the queue (`Lane`). Behind that
is the account of the submissions (`Works`): each is in the pool, in its work closure, on its way to the
lane, or in the lane.

`detached_completions_serialized` puts the two together. It has no condition: the turn is passed on
whether or not the pool accepts the next completion.
-/

set_option autoImplicit false

namespace Mudmux.Execution

open Mudmux.Lib ThreadSystem

variable {ts : List DetachedPoint} {t : DetachedPoint} {outcome : ClosureOutcome}
  {c : DetachedCompletion}

/-! ### What the log says -/

/-- The submissions whose work closure has been entered. -/
def begunWorks (log : List DetachedEvent) : List Nat :=
  log.filterMap fun
    | .workBegan task => some task
    | _ => none

/-- The submissions whose work closure is over, with the message that this calls for. -/
def endedWorks (log : List DetachedEvent) : List DetachedCompletion :=
  log.filterMap fun
    | .workEnded task threw => some ⟨task, if threw then .failed else .ok⟩
    | _ => none

/-- The completions that were handed to the lane, in that order. -/
def handedCompletions (log : List DetachedEvent) : List DetachedCompletion :=
  log.filterMap fun
    | .handed completion => some completion
    | _ => none

/-- The completions that were invoked, in that order. -/
def invokedCompletions (log : List DetachedEvent) : List DetachedCompletion :=
  log.filterMap fun
    | .invoked completion => some completion
    | _ => none

variable (s : CompletionLane)

variable (event : DetachedEvent)

@[simp] theorem observe_log :
    (s.observe event).log = s.log ++ [event] := rfl

@[simp] theorem observe_active :
    (s.observe event).active = s.active := rfl

@[simp] theorem observe_pending :
    (s.observe event).pending = s.pending := rfl

@[simp] theorem observe_submissions :
    (s.observe event).submissions = s.submissions := rfl

/-! ### The turn -/

/-- The thread has the lane's turn. -/
@[simp] def DetachedPoint.turn : DetachedPoint → Nat
  | scheduleSubmit _ | pooledCompletion _ | completion _ | nextCompletion | nextSubmit _ => 1
  | submitWork | pooledWork _ | work _ | schedule _ => 0

/-- The completion that the thread with the turn is going to invoke. -/
@[simp] def DetachedPoint.carried : DetachedPoint → Multiset DetachedCompletion
  | scheduleSubmit c | pooledCompletion c | nextSubmit c => {c}
  | submitWork | pooledWork _ | work _ | schedule _ | completion _ | nextCompletion => 0

/-- The lane, when `turns` threads have the turn and carry these completions. -/
structure Lane (s : CompletionLane) (turns : Nat) (carried : Multiset DetachedCompletion) : Prop where
  turns : turns = s.active.toNat
  idle : s.active = false → s.pending = []
  order : ∃ held : List DetachedCompletion, carried = held ∧
    handedCompletions s.log = invokedCompletions s.log ++ held ++ s.pending

/-- Only a thread with the turn carries a completion. -/
theorem card_carried_le (ts : Multiset DetachedPoint) :
    (total (S := detachedSystem) DetachedPoint.carried ts).card
      ≤ total (S := detachedSystem) DetachedPoint.turn ts := by
  induction ts using Multiset.induction with
  | empty => exact Nat.le_refl 0
  | cons t ts ih =>
    have ht : t.carried.card ≤ t.turn := by
      cases t <;> exact Nat.le_of_ble_eq_true rfl
    simp only [total, Multiset.map_cons, Multiset.sum_cons, Multiset.card_add] at ih ⊢
    exact Nat.add_le_add ht ih

variable {s' : CompletionLane}

section Turn

variable {s} {n : Nat} {m : Multiset DetachedCompletion}

/-- What has no part in the lane does not change it. -/
theorem Lane.frame (h : Lane s n m) (hactive : s'.active = s.active)
    (hpending : s'.pending = s.pending)
    (hhanded : handedCompletions s'.log = handedCompletions s.log)
    (hinvoked : invokedCompletions s'.log = invokedCompletions s.log) : Lane s' n m := by
  refine ⟨hactive ▸ h.turns, ?_, ?_⟩
  · rw [hactive, hpending]
    exact h.idle
  · rw [hpending, hhanded, hinvoked]
    exact h.order

/-- Beside the thread with the turn no other thread carries anything. -/
theorem Lane.alone {carried : Multiset DetachedCompletion} (h : Lane s (1 + n) carried)
    (hcard : m.card ≤ n) : n = 0 ∧ m = 0 ∧ s.active = true := by
  have hturns := h.turns
  cases hactive : s.active with
  | false =>
    rw [hactive] at hturns
    simp at hturns
  | true =>
    rw [hactive] at hturns
    have hn : n = 0 := by
      simp only [Bool.toNat_true] at hturns
      omega
    exact ⟨hn, Multiset.card_eq_zero.mp (by omega), rfl⟩

variable {completion : DetachedCompletion}

theorem Lane.invoke (h : Lane s (1 + n) ({completion} + m)) (hcard : m.card ≤ n) :
    Lane (s.observe (.invoked completion)) (1 + n) (0 + m) := by
  obtain ⟨-, rfl, -⟩ := h.alone hcard
  obtain ⟨held, hheld, horder⟩ := h.order
  have hone : held = [completion] := by
    rw [add_zero] at hheld
    exact Multiset.coe_eq_singleton.mp hheld.symm
  refine ⟨h.turns, h.idle, [], by simp, ?_⟩
  rw [hone] at horder
  simpa [handedCompletions, invokedCompletions] using horder

theorem Lane.schedule (h : Lane s n m) (hcard : m.card ≤ n) (completion : DetachedCompletion) :
    Lane (s.scheduleSection completion).1
      (((s.scheduleSection completion).2.map DetachedPoint.turn).sum + n)
      (((s.scheduleSection completion).2.map DetachedPoint.carried).sum + m) := by
  obtain ⟨held, hheld, horder⟩ := h.order
  have hhanded : handedCompletions (s.log ++ [.handed completion])
      = handedCompletions s.log ++ [completion] := by simp [handedCompletions]
  have hinvoked : invokedCompletions (s.log ++ [.handed completion])
      = invokedCompletions s.log := by simp [invokedCompletions]
  cases hactive : s.active with
  | true =>
    simp only [CompletionLane.scheduleSection, hactive, if_true, List.map_nil, List.sum_nil, zero_add]
    refine ⟨?_, nofun, held, hheld, ?_⟩
    · have hturns := h.turns
      rwa [hactive] at hturns
    · rw [observe_log, observe_pending, hhanded, hinvoked, horder]
      simp
  | false =>
    -- the turn is created here, and nothing was left from the one before
    have hn : n = 0 := by
      have hturns := h.turns
      rwa [hactive] at hturns
    have hm : m = 0 := Multiset.card_eq_zero.mp (by omega)
    have hnone : held = [] := (Multiset.coe_eq_zero held).mp (hheld.symm.trans hm)
    simp only [CompletionLane.scheduleSection, hactive, Bool.false_eq_true, if_false]
    refine ⟨by simp [hn], nofun, [completion], ?_, ?_⟩
    · simp [hm]
    · rw [observe_log, observe_pending, hhanded, hinvoked, horder, hnone]
      simp [h.idle hactive]

theorem Lane.next (h : Lane s (1 + n) m) (hcard : m.card ≤ n) :
    Lane s.nextSection.1 ((s.nextSection.2.map DetachedPoint.turn).sum + n)
      ((s.nextSection.2.map DetachedPoint.carried).sum + m) := by
  obtain ⟨rfl, rfl, hactive⟩ := h.alone hcard
  obtain ⟨held, hheld, horder⟩ := h.order
  have hnone : held = [] := (Multiset.coe_eq_zero held).mp hheld.symm
  rw [hnone] at horder
  cases hpending : s.pending with
  | nil =>
    simp only [CompletionLane.nextSection, hpending]
    refine ⟨rfl, fun _ => rfl, [], by simp, ?_⟩
    rw [horder, hpending]
  | cons next pending =>
    simp only [CompletionLane.nextSection, hpending]
    refine ⟨by simp [hactive], ?_, [next], ?_, ?_⟩
    · intro hidle
      exact absurd (hactive.symm.trans hidle) nofun
    · simp
    · rw [horder, hpending]
      simp

/-- Whether or not the pool accepts it, the completion stays with the turn or is invoked. -/
theorem Lane.submit (h : Lane s (1 + n) ({completion} + m)) (hcard : m.card ≤ n) :
    Lane (s.submitCompletion completion).1
      (((s.submitCompletion completion).2.map DetachedPoint.turn).sum + n)
      (((s.submitCompletion completion).2.map DetachedPoint.carried).sum + m) := by
  simp only [CompletionLane.submitCompletion]
  split
  · simpa using h
  · simpa [CompletionLane.runDetachedCompletion] using h.invoke hcard

end Turn

variable {s : CompletionLane}

theorem lane_step {n : Nat} {m : Multiset DetachedCompletion} (hcard : m.card ≤ n)
    (h : Lane s (t.turn + n) (t.carried + m)) (hstep : detachedStep s t outcome = some (s', ts)) :
    Lane s' ((ts.map DetachedPoint.turn).sum + n) ((ts.map DetachedPoint.carried).sum + m) := by
  cases t with
  | submitWork =>
    simp only [DetachedPoint.turn, DetachedPoint.carried, zero_add] at h
    simp only [detachedStep] at hstep
    split at hstep <;> cases hstep
    · refine Lane.frame (s := s) ?_ rfl rfl rfl rfl
      simpa using h
    · simpa using h
  | pooledWork task | work task =>
    cases hstep
    refine Lane.frame (s := s) ?_ rfl rfl (by simp [handedCompletions]) (by simp [invokedCompletions])
    simpa using h
  | schedule c =>
    simp only [DetachedPoint.turn, DetachedPoint.carried, zero_add] at h
    have hlane := h.schedule hcard c
    rwa [show s.scheduleSection c = (s', ts) from Option.some.inj hstep] at hlane
  | scheduleSubmit c | nextSubmit c =>
    have hlane := Lane.submit h hcard
    rwa [show s.submitCompletion c = (s', ts) from Option.some.inj hstep] at hlane
  | pooledCompletion c =>
    cases hstep
    simpa using Lane.invoke h hcard
  | completion c =>
    cases hstep
    simpa using h
  | nextCompletion =>
    simp only [DetachedPoint.turn, DetachedPoint.carried, zero_add] at h
    have hlane := h.next hcard
    rwa [show s.nextSection = (s', ts) from Option.some.inj hstep] at hlane

/-! ### The account of the submissions -/

/-- The submission whose work closure the pool has yet to enter. -/
@[simp] def DetachedPoint.pooledTask : DetachedPoint → Multiset Nat
  | pooledWork task => {task}
  | _ => 0

/-- The submission whose work closure is running. -/
@[simp] def DetachedPoint.workingTask : DetachedPoint → Multiset Nat
  | work task => {task}
  | _ => 0

/-- The completion on its way to the lane. -/
@[simp] def DetachedPoint.scheduled : DetachedPoint → Multiset DetachedCompletion
  | schedule c => {c}
  | _ => 0

/-- Where the submissions are, when threads have these. -/
structure Works (submissions : Nat) (log : List DetachedEvent) (pooled working : Multiset Nat)
    (scheduled : Multiset DetachedCompletion) : Prop where
  submitted : pooled + begunWorks log = List.range submissions
  begun : working + (endedWorks log).map DetachedCompletion.task = begunWorks log
  ended : scheduled + handedCompletions log = endedWorks log

theorem coe_append_singleton {α : Type} (l : List α) (a : α) :
    ((l ++ [a] : List α) : Multiset α) = {a} + (l : Multiset α) := by
  rw [← Multiset.coe_add, Multiset.coe_singleton, add_comm]

section Account

variable {submissions : Nat} {log : List DetachedEvent} {pooled working : Multiset Nat}
  {scheduled : Multiset DetachedCompletion}

theorem Works.submit (h : Works submissions log pooled working scheduled) :
    Works (submissions + 1) log ({submissions} + pooled) working scheduled := by
  refine ⟨?_, h.begun, h.ended⟩
  rw [List.range_succ, coe_append_singleton, add_assoc, h.submitted]

theorem Works.begin {task : Nat} (h : Works submissions log ({task} + pooled) working scheduled) :
    Works submissions (log ++ [.workBegan task]) pooled ({task} + working) scheduled := by
  have hbegun : begunWorks (log ++ [.workBegan task]) = begunWorks log ++ [task] := by
    simp [begunWorks]
  have hended : endedWorks (log ++ [.workBegan task]) = endedWorks log := by simp [endedWorks]
  refine ⟨?_, ?_, ?_⟩
  · rw [hbegun, coe_append_singleton, ← h.submitted]
    ac_rfl
  · rw [hbegun, hended, coe_append_singleton, ← h.begun, add_assoc]
  · rw [hended, ← h.ended]
    simp [handedCompletions]

theorem Works.finish {task : Nat} (h : Works submissions log pooled ({task} + working) scheduled)
    (outcome : ClosureOutcome) :
    Works submissions (log ++ [.workEnded task (outcome = .throws)]) pooled working
      ({⟨task, CompletionLane.invokeClosureSafely outcome⟩} + scheduled) := by
  have hbegun : begunWorks (log ++ [.workEnded task (outcome = .throws)]) = begunWorks log := by
    simp [begunWorks]
  have hended : endedWorks (log ++ [.workEnded task (outcome = .throws)])
      = endedWorks log ++ [⟨task, CompletionLane.invokeClosureSafely outcome⟩] := by
    cases outcome <;> simp [endedWorks, CompletionLane.invokeClosureSafely]
  refine ⟨?_, ?_, ?_⟩
  · rw [hbegun]
    exact h.submitted
  · rw [hbegun, hended, ← h.begun, List.map_append, List.map_singleton, coe_append_singleton]
    ac_rfl
  · rw [hended, coe_append_singleton, ← h.ended, add_assoc]
    simp [handedCompletions]

theorem Works.hand (h : Works submissions log pooled working ({c} + scheduled)) :
    Works submissions (log ++ [.handed c]) pooled working scheduled := by
  have hbegun : begunWorks (log ++ [.handed c]) = begunWorks log := by simp [begunWorks]
  have hended : endedWorks (log ++ [.handed c]) = endedWorks log := by simp [endedWorks]
  have hhanded : handedCompletions (log ++ [.handed c]) = handedCompletions log ++ [c] := by
    simp [handedCompletions]
  refine ⟨?_, ?_, ?_⟩
  · rw [hbegun]
    exact h.submitted
  · rw [hbegun, hended]
    exact h.begun
  · rw [hended, hhanded, coe_append_singleton, ← h.ended]
    ac_rfl

/-- A completion that is invoked has left the account. -/
theorem Works.invoke (h : Works submissions log pooled working scheduled) :
    Works submissions (log ++ [.invoked c]) pooled working scheduled := by
  have hbegun : begunWorks (log ++ [.invoked c]) = begunWorks log := by simp [begunWorks]
  have hended : endedWorks (log ++ [.invoked c]) = endedWorks log := by simp [endedWorks]
  have hhanded : handedCompletions (log ++ [.invoked c]) = handedCompletions log := by
    simp [handedCompletions]
  refine ⟨?_, ?_, ?_⟩
  · rw [hbegun]
    exact h.submitted
  · rw [hbegun, hended]
    exact h.begun
  · rw [hended, hhanded]
    exact h.ended

end Account

theorem works_step {pooled working : Multiset Nat} {scheduled : Multiset DetachedCompletion}
    (h : Works s.submissions s.log (t.pooledTask + pooled) (t.workingTask + working)
      (t.scheduled + scheduled)) (hstep : detachedStep s t outcome = some (s', ts)) :
    Works s'.submissions s'.log ((ts.map DetachedPoint.pooledTask).sum + pooled)
      ((ts.map DetachedPoint.workingTask).sum + working)
      ((ts.map DetachedPoint.scheduled).sum + scheduled) := by
  cases t with
  | submitWork =>
    simp only [DetachedPoint.pooledTask, DetachedPoint.workingTask, DetachedPoint.scheduled,
      zero_add] at h
    simp only [detachedStep] at hstep
    split at hstep <;> cases hstep
    · simpa using h.submit
    · simpa using h
  | pooledWork task =>
    cases hstep
    simpa using Works.begin (by simpa using h)
  | work task =>
    cases hstep
    simpa using Works.finish (by simpa using h) outcome
  | schedule c =>
    rw [detachedStep, CompletionLane.scheduleSection] at hstep
    split at hstep <;> cases hstep <;> simpa using Works.hand (by simpa using h)
  | scheduleSubmit c | nextSubmit c =>
    rw [detachedStep, CompletionLane.submitCompletion] at hstep
    split at hstep <;> cases hstep
    · simpa using h
    · simpa [CompletionLane.runDetachedCompletion] using h.invoke
  | pooledCompletion c =>
    cases hstep
    simpa using h.invoke
  | completion c =>
    cases hstep
    simpa using h
  | nextCompletion =>
    rw [detachedStep, CompletionLane.nextSection] at hstep
    split at hstep <;> cases hstep <;> simpa using h

/-! ### Runs -/

/-- A completion is invoked with the message that its work calls for, behind that work. -/
def WorkedBefore (before : List DetachedEvent) : DetachedEvent → Prop
  | .invoked c => c ∈ endedWorks before
  | _ => True

/-- All of it, for a lane and the threads beside it. -/
structure Detached (s : CompletionLane) (ts : Multiset DetachedPoint) : Prop where
  lane : Lane s (total (S := detachedSystem) DetachedPoint.turn ts)
    (total (S := detachedSystem) DetachedPoint.carried ts)
  works : Works s.submissions s.log (total (S := detachedSystem) DetachedPoint.pooledTask ts)
    (total (S := detachedSystem) DetachedPoint.workingTask ts)
    (total (S := detachedSystem) DetachedPoint.scheduled ts)
  history : Supported WorkedBefore s.log

/-- What a thread carries has come through the lane from work that is over. -/
theorem Detached.endedWork {ts : Multiset DetachedPoint} (h : Detached s ts)
    (hc : c ∈ total (S := detachedSystem) DetachedPoint.carried ts) : c ∈ endedWorks s.log := by
  obtain ⟨held, hheld, horder⟩ := h.lane.order
  have hheld' : c ∈ held := by
    rw [hheld] at hc
    exact hc
  have hhanded : c ∈ handedCompletions s.log := by
    rw [horder]
    exact List.mem_append_left _ (List.mem_append_right _ hheld')
  have hended : c ∈ (endedWorks s.log : Multiset DetachedCompletion) := by
    rw [← h.works.ended]
    exact Multiset.mem_add.mpr (.inr hhanded)
  exact hended

/-- Steps append to the log what it supports. -/
theorem history_step (h : Supported WorkedBefore s.log)
    (hcarried : ∀ c ∈ t.carried, c ∈ endedWorks s.log)
    (hstep : detachedStep s t outcome = some (s', ts)) : Supported WorkedBefore s'.log := by
  cases t with
  | submitWork =>
    rw [detachedStep] at hstep
    split at hstep <;> cases hstep <;> exact h
  | pooledWork task | work task =>
    cases hstep
    exact h.concat True.intro
  | schedule c =>
    rw [detachedStep, CompletionLane.scheduleSection] at hstep
    split at hstep <;> cases hstep <;> exact h.concat True.intro
  | scheduleSubmit c | nextSubmit c =>
    rw [detachedStep, CompletionLane.submitCompletion] at hstep
    split at hstep <;> cases hstep
    · exact h
    · exact h.concat (hcarried c (Multiset.mem_singleton_self c))
  | pooledCompletion c =>
    cases hstep
    exact h.concat (hcarried c (Multiset.mem_singleton_self c))
  | completion c =>
    cases hstep
    exact h
  | nextCompletion =>
    rw [detachedStep, CompletionLane.nextSection] at hstep
    split at hstep <;> cases hstep <;> exact h

/-- Actions do not touch the lane, and start threads that have no part in it. -/
theorem detached_act {action : DetachedAction} (hact : detachedAct s action = some (s', ts)) :
    s'.active = s.active ∧ s'.pending = s.pending ∧ s'.log = s.log ∧
      s'.submissions = s.submissions ∧ ∀ t ∈ ts, t = .submitWork := by
  cases action with
  | submit workValid completionValid =>
    rw [detachedAct] at hact
    split at hact <;> cases hact <;> simp
  | setRunning running | setAccepting accepting =>
    cases hact
    simp

theorem detached_of_run {c : detachedSystem.Config}
    (hrun : Run (Guard.trivial detachedSystem) detachedIdle c) : Detached c.shared c.threads := by
  refine invariant_of_run Detached ?_ ?_ ?_ hrun
  · intro s t outcome s' ts rest h _ hstep
    have hlane := h.lane
    have hworks := h.works
    rw [total_cons, total_cons] at hlane
    rw [total_cons, total_cons, total_cons] at hworks
    refine ⟨?_, ?_, ?_⟩
    · rw [total_add, total_add]
      exact lane_step (card_carried_le rest) hlane hstep
    · rw [total_add, total_add, total_add]
      exact works_step hworks hstep
    · refine history_step h.history (fun c hc => h.endedWork ?_) hstep
      rw [total_cons]
      exact Multiset.mem_add.mpr (.inl hc)
  · intro s action s' ts rest h _ hact
    obtain ⟨hactive, hpending, hlog, hsubmissions, hts⟩ := detached_act hact
    have hzero {M : Type} [AddCommMonoid M] (weight : DetachedPoint → M)
        (hweight : weight .submitWork = 0) :
        total (S := detachedSystem) weight (ts + rest) = total (S := detachedSystem) weight rest := by
      have hsum : (ts.map weight).sum = 0 := by
        refine List.sum_eq_zero fun x hx => ?_
        obtain ⟨t, ht, rfl⟩ := List.mem_map.mp hx
        rw [hts t ht, hweight]
      rw [total_add, hsum, zero_add]
    refine ⟨?_, ?_, hlog ▸ h.history⟩
    · rw [hzero _ rfl, hzero _ rfl]
      exact h.lane.frame hactive hpending (by rw [hlog]) (by rw [hlog])
    · rw [hzero _ rfl, hzero _ rfl, hzero _ rfl, hlog, hsubmissions]
      exact h.works
  · exact ⟨⟨rfl, fun _ => rfl, [], rfl, rfl⟩, ⟨rfl, rfl, rfl⟩, supported_nil _⟩

/-- The thread is in a completion closure. -/
def DetachedPoint.inCompletion : DetachedPoint → Bool
  | completion _ => true
  | _ => false

theorem length_inCompletion_le (ts : List DetachedPoint) :
    (ts.filter DetachedPoint.inCompletion).length
      ≤ total (S := detachedSystem) DetachedPoint.turn ts := by
  induction ts with
  | nil => exact Nat.le_refl 0
  | cons t ts ih =>
    rw [← Multiset.cons_coe, total_cons]
    cases t with
    | completion c =>
      rw [List.filter_cons_of_pos rfl, List.length_cons]
      show _ ≤ 1 + _
      omega
    | _ =>
      rw [List.filter_cons_of_neg (by simp [DetachedPoint.inCompletion])]
      exact ih.trans (Nat.le_add_left _ _)

/-- At most one thread is in a completion. The completions invoked so far are the first of those handed
to the lane, and each has been invoked behind its work with the message this calls for. No work closure
is entered twice. When no thread is left, every submission has had its work and then its completion, and
nothing waits in the lane. -/
theorem detached_completions_serialized (c : detachedSystem.Config)
    (hrun : Run (Guard.trivial detachedSystem) detachedIdle c) :
    (c.threads.filter DetachedPoint.inCompletion).length ≤ 1 ∧
      invokedCompletions c.shared.log <+: handedCompletions c.shared.log ∧
      Supported WorkedBefore c.shared.log ∧
      (begunWorks c.shared.log).Nodup ∧
      (c.threads = [] → c.shared.pending = [] ∧
        (begunWorks c.shared.log).Perm (List.range c.shared.submissions) ∧
        (invokedCompletions c.shared.log).Perm (endedWorks c.shared.log) ∧
        ((invokedCompletions c.shared.log).map DetachedCompletion.task).Perm
          (List.range c.shared.submissions)) := by
  have h := detached_of_run hrun
  obtain ⟨held, hheld, horder⟩ := h.lane.order
  refine ⟨?_, ?_, h.history, ?_, fun hnone => ?_⟩
  · calc (c.threads.filter DetachedPoint.inCompletion).length
        ≤ total (S := detachedSystem) DetachedPoint.turn c.threads := length_inCompletion_le c.threads
      _ = c.shared.active.toNat := h.lane.turns
      _ ≤ 1 := Bool.toNat_le _
  · exact ⟨held ++ c.shared.pending, by rw [horder, List.append_assoc]⟩
  · have hle : (begunWorks c.shared.log : Multiset Nat) ≤ List.range c.shared.submissions := by
      rw [← h.works.submitted]
      exact Multiset.le_add_left _ _
    exact Multiset.coe_nodup.mp (Multiset.nodup_of_le hle (Multiset.coe_nodup.mpr List.nodup_range))
  · -- without threads nobody has the turn, and so nothing is carried or queued
    have hturns := h.lane.turns
    have hworks := h.works
    rw [hnone] at hturns hheld hworks
    have hidle : c.shared.active = false := by
      cases hactive : c.shared.active with
      | false => rfl
      | true =>
        rw [hactive] at hturns
        exact absurd hturns (by decide)
    have hpending := h.lane.idle hidle
    have hheld' : held = [] := (Multiset.coe_eq_zero held).mp hheld.symm
    rw [hpending, hheld', List.append_nil, List.append_nil] at horder
    have hbegun : (begunWorks c.shared.log).Perm (List.range c.shared.submissions) :=
      Multiset.coe_eq_coe.mp ((zero_add _).symm.trans hworks.submitted)
    have hended : ((endedWorks c.shared.log).map DetachedCompletion.task).Perm
        (begunWorks c.shared.log) :=
      Multiset.coe_eq_coe.mp ((zero_add _).symm.trans hworks.begun)
    have hinvoked : (invokedCompletions c.shared.log).Perm (endedWorks c.shared.log) := by
      rw [← horder]
      exact Multiset.coe_eq_coe.mp ((zero_add _).symm.trans hworks.ended)
    exact ⟨hpending, hbegun, hinvoked, (hinvoked.map _).trans (hended.trans hbegun)⟩

/-- Two works end side by side, the second of them with an exception, and the pool stops while the first
completion runs. -/
def stoppedLane : List detachedSystem.Move :=
  [.env (.submit true true), .env (.submit true true), .thread 0 .returns, .thread 1 .returns,
    .thread 0 .returns, .thread 1 .returns, .thread 0 .returns, .thread 1 .throws,
    .thread 0 .returns, .thread 0 .returns, .thread 1 .returns, .thread 0 .returns,
    .env (.setAccepting false), .thread 0 .throws, .thread 0 .returns, .thread 0 .returns,
    .thread 0 .returns, .thread 0 .returns]

theorem detached_completions_serialized_stopped :
    ∃ c, Run (Guard.trivial detachedSystem) detachedIdle c ∧
      decide (c.threads = [] ∧ invokedCompletions c.shared.log = [⟨0, .ok⟩, ⟨1, .failed⟩]) = true ∧
      (invokedCompletions c.shared.log).Perm (endedWorks c.shared.log) := by
  obtain ⟨c, hrun, hc⟩ := exists_run_of_execAll (Guard.trivial detachedSystem) stoppedLane detachedIdle
    (fun c => decide (c.threads = [] ∧ invokedCompletions c.shared.log = [⟨0, .ok⟩, ⟨1, .failed⟩]))
    (by decide +kernel)
  have hnone : c.threads = [] := (of_decide_eq_true hc).1
  exact ⟨c, hrun, hc, ((detached_completions_serialized c hrun).2.2.2.2 hnone).2.2.1⟩

end Mudmux.Execution
