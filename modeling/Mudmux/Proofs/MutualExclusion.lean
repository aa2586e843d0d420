import Mudmux.Execution.Scheduler

/-!
# `Mudmux.Proofs.MutualExclusion`: one hook of a slot at a time

The gate of a slot is a token. A thread holds it from the critical section that makes the slot active
to the one in `finish_slot_execution`; while an await is pending the slot itself holds it, and the
threads that carry the work of the await do not. `Gate` counts: the threads that hold the token and the
pending await are together at most one, and none while the slot is not active.

One step breaks this. The work of an await that was cancelled still ends in `discard_slot_await`, which
takes any await of the same generation for its own, also one that a hook has requested and not
finalized. It then finishes the turn of a hook that is still running (`exclusion_breaks`). In runs
without that step the gate holds.
-/

set_option autoImplicit false

namespace Mudmux.Execution

open Mudmux.Comm (HookType DispatchResult)
open Mudmux.Lib
open ThreadSystem

variable {setup : Setup}

variable {s : Slot} {n : Nat} {r : Slot × List Point} {t : Point} {choice : Choice}

/-! ### The token -/

/-- The thread has the turn of the slot. -/
@[simp]
def Point.holds : Point → Bool
  | enqueue _ _ | enqueueLock _ _ => false
  | submitWork _ _ | pooled (.awaitWork _ _) | awaitWork _ _ | worked _ _ => false
  | takeResume _ _ _ | discardAwait _ => false
  | _ => true

/-- The thread is in a hook or in the resume closure of an await. -/
def Point.executing : Point → Bool
  | hook _ _ | resume _ => true
  | _ => false

/-- The number of tokens in a thread. -/
@[simp]
def Point.tokens (t : Point) : Nat := t.holds.toNat

theorem length_executing_le (ts : List Point) :
    (ts.filter Point.executing).length ≤ (ts.map Point.tokens).sum := by
  induction ts with
  | nil => rfl
  | cons t ts ih =>
    rw [List.map_cons, List.sum_cons]
    by_cases ht : t.executing = true
    · have hholds : t.tokens = 1 := by cases t <;> first | rfl | cases ht
      rw [List.filter_cons_of_pos ht, List.length_cons, hholds]
      omega
    · rw [List.filter_cons_of_neg ht]
      omega

/-- With `n` threads that hold the token. -/
structure Gate (state : SlotExecutionState) (n : Nat) : Prop where
  token : n + state.awaitPending.toNat ≤ state.active.toNat
  apart : (state.awaitRequested && state.awaitPending) = false

/-- The step that breaks the gate: `discard_slot_await` on an await that is requested and not yet
finalized. -/
def discardsRequest (s : Slot) : Point → Bool
  | .discardAwait generation => s.state.awaitRequested && s.state.awaitGeneration = generation
  | _ => false

/-- The condition on the steps. -/
def discardGuard (setup : Setup) : (scheduler setup).Guard where
  thread s t _ := !discardsRequest s t
  env _ _ := true

/-! ### Critical sections and the token -/

/-- The gate behind a step, with `n` other threads that hold the token. -/
@[simp]
abbrev GateAfter (r : Slot × List Point) (n : Nat) : Prop :=
  Gate r.1.state ((r.2.map Point.tokens).sum + n)

theorem gate_enqueueSection (capacity : Nat) (task : SlotExecution) (allowPending : Bool)
    (h : Gate s.state n) : GateAfter (enqueueSection capacity s task allowPending) n := by
  have htoken := h.token
  simp only [enqueueSection]
  split
  · split
    · simpa [Slot.answer] using h
    · exact ⟨by simpa [Slot.answer] using htoken, h.apart⟩
  · next hactive =>
      -- the slot was not active, so nobody had the token
      have hnone : n + s.state.awaitPending.toNat = 0 := by simpa [hactive] using htoken
      refine ⟨?_, h.apart⟩
      simp only [List.map_cons, List.map_nil, List.sum_cons, List.sum_nil, Point.tokens, Point.holds,
        Bool.toNat_true]
      omega

theorem gate_awaitSection (call : AwaitCall) (h : Gate s.state n) :
    Gate (awaitSection s call).state n := by
  simp only [awaitSection]
  split
  · exact h
  · next hfree =>
      refine ⟨h.token, ?_⟩
      simp_all [Slot.note]

theorem gate_finalizeSection (h : Gate s.state (1 + n)) : GateAfter (finalizeSection s) n := by
  have htoken := h.token
  simp only [finalizeSection]
  split
  · -- the token goes from the thread to the await
    refine ⟨?_, by simp⟩
    have hle := s.state.active.toNat_le
    simp only [List.map_cons, List.map_nil, List.sum_cons, List.sum_nil, Point.tokens, Point.holds,
      Bool.toNat_true, Bool.toNat_false]
    omega
  · exact h

theorem gate_takeResumeSection (generation : Nat) (message : ClosureMessage)
    (generationMatches : Bool) (h : Gate s.state n) :
    GateAfter (takeResumeSection s generation message generationMatches) n := by
  have htoken := h.token
  simp only [takeResumeSection]
  split
  · next hready =>
      -- the token goes from the await to the thread with its resume closure
      have hpending : s.state.awaitPending = true := by simp_all
      refine ⟨?_, by simp⟩
      rw [hpending] at htoken
      simp only [List.map_cons, List.map_nil, List.sum_cons, List.sum_nil, Point.tokens, Point.holds,
        Bool.toNat_true, Bool.toNat_false] at htoken ⊢
      omega
  · simpa using h

/-- Where the guard allows it, `discard_slot_await` takes the token from a pending await. -/
theorem gate_discardSection (generation : Nat)
    (hguard : discardsRequest s (.discardAwait generation) = false) (h : Gate s.state n) :
    GateAfter (discardSection s generation) n := by
  have htoken := h.token
  simp only [discardSection]
  split
  · next hmatch =>
      have hpending : s.state.awaitPending = true := by
        simp only [discardsRequest] at hguard
        simp_all
      refine ⟨?_, rfl⟩
      rw [hpending] at htoken
      simp only [List.map_cons, List.map_nil, List.sum_cons, List.sum_nil, Point.tokens, Point.holds,
        Slot.note, clearSlotAwait, Bool.toNat_true, Bool.toNat_false] at htoken ⊢
      omega
  · simpa using h

theorem gate_finishSection (h : Gate s.state (1 + n)) : GateAfter (finishSection s) n := by
  have htoken := h.token
  simp only [finishSection]
  split
  · exact ⟨by simpa using htoken, h.apart⟩
  · have hle := s.state.active.toNat_le
    refine ⟨?_, h.apart⟩
    simp only [List.map_nil, List.sum_nil, Bool.toNat_false]
    omega

theorem gate_cancelAwait (h : Gate s.state n) : GateAfter (mudmuxExecutionCancelAwait s) n := by
  have htoken := h.token
  simp only [mudmuxExecutionCancelAwait]
  split
  · refine ⟨?_, rfl⟩
    simp only [List.map_nil, List.sum_nil, Slot.note, clearSlotAwait, Bool.toNat_false]
    omega
  · split
    · next hpending =>
        refine ⟨?_, by simp [Slot.note]⟩
        rw [hpending] at htoken
        simp only [List.map_cons, List.map_nil, List.sum_cons, List.sum_nil, Point.tokens,
          Point.holds, Slot.note, Bool.toNat_true, Bool.toNat_false] at htoken ⊢
        omega
    · simpa using h

/-! ### Steps and runs -/

/-- The points before a critical section of the slot. -/
def Point.isSection : Point → Bool
  | enqueueLock _ _ | finalizeAwait | takeResume _ _ _ | discardAwait _ | finish | submitNext _ => true
  | hook _ call | resume call => call.isSome
  | _ => false

/-- Between critical sections a thread leaves the state of the slot alone and gains no token. -/
theorem step_of_not_section (ht : t.isSection = false) (hstep : step setup s t choice = some r) :
    r.1.state = s.state ∧ (r.2.map Point.tokens).sum ≤ t.tokens := by
  cases t with
  | enqueueLock | finalizeAwait | takeResume | discardAwait | finish | submitNext => cases ht
  | hook task call =>
    cases call with
    | some call => cases ht
    | none =>
      cases choice <;> simp only [step] at hstep
      case await => split at hstep <;> cases hstep <;> exact ⟨rfl, Nat.le_refl _⟩
      all_goals cases hstep; exact ⟨rfl, by simp⟩
  | resume call =>
    cases call with
    | some call => cases ht
    | none => cases choice <;> cases hstep <;> exact ⟨rfl, by simp⟩
  | pooled job =>
    cases choice <;> cases hstep
    cases job <;> exact ⟨rfl, Nat.le_refl _⟩
  | completion | awaitWork => cases choice <;> cases hstep <;> exact ⟨rfl, by simp⟩
  | worked =>
    cases choice <;> cases hstep
    exact ⟨rfl, Nat.le_refl _⟩
  | enqueue | enqueueSubmit | runExecution | hookReturned | submitWork | submitResume | awaitResume =>
    cases choice <;> simp only [step, reduceCtorEq] at hstep
    split at hstep <;> cases hstep <;> exact ⟨rfl, by simp⟩

/-- Every step that the guard allows keeps the gate. -/
theorem gate_step (h : Gate s.state (t.tokens + n)) (hguard : discardsRequest s t = false)
    (hstep : step setup s t choice = some r) : GateAfter r n := by
  by_cases ht : t.isSection = false
  · obtain ⟨hstate, htokens⟩ := step_of_not_section ht hstep
    rw [GateAfter, hstate]
    exact ⟨by have := h.token; omega, h.apart⟩
  cases t with
  | enqueueLock task allowPending =>
    cases choice <;> cases hstep
    exact gate_enqueueSection _ task allowPending (by simpa using h)
  | finalizeAwait =>
    cases choice <;> cases hstep
    exact gate_finalizeSection h
  | takeResume generation message generationMatches =>
    cases choice <;> cases hstep
    exact gate_takeResumeSection generation message generationMatches
      (by simpa using h)
  | discardAwait generation =>
    cases choice <;> cases hstep
    exact gate_discardSection generation hguard (by simpa using h)
  | finish =>
    cases choice <;> cases hstep
    exact gate_finishSection h
  | submitNext task =>
    cases choice <;> simp only [step, reduceCtorEq] at hstep
    split at hstep
    · cases hstep
      exact h
    · cases hstep
      have hle := s.state.active.toNat_le
      have htoken := h.token
      simp only [Point.tokens, Point.holds, Bool.toNat_true] at htoken
      refine ⟨?_, h.apart⟩
      simp only [List.map_nil, List.sum_nil, Bool.toNat_false]
      omega
  | hook task call =>
    cases call with
    | none => exact absurd rfl ht
    | some call =>
      cases choice <;> cases hstep
      exact gate_awaitSection call h
  | resume call =>
    cases call with
    | none => exact absurd rfl ht
    | some call =>
      cases choice <;> cases hstep
      exact gate_awaitSection call h
  | _ => exact absurd rfl ht

theorem gate_act {action : Action} (h : Gate s.state n) (hact : act setup s action = some r) :
    GateAfter r n := by
  cases action with
  | dispatch hookType message currentSlot =>
    simp only [act] at hact
    split at hact
    · cases hact
      simpa [Slot.answer] using h
    · split at hact <;> cases hact <;> simpa using h
  | enqueue =>
    cases hact
    simpa using h
  | cancelAwait =>
    cases hact
    exact gate_cancelAwait h
  | setGeneration | stop =>
    cases hact
    simpa using h

theorem gate_of_run {c : (scheduler setup).Config} (hrun : Run (discardGuard setup) (idle setup) c) :
    Gate c.shared.state (total (S := scheduler setup) Point.tokens c.threads) :=
  sum_invariant_of_run (S := scheduler setup) Point.tokens (fun s n => Gate s.state n)
    (fun s t choice s' ts n h hguard hstep =>
      gate_step (r := (s', ts)) h (by simpa [discardGuard] using hguard) hstep)
    (fun s action s' ts n h _ hact => gate_act (r := (s', ts)) h hact)
    (c := idle setup) ⟨Nat.le_refl _, rfl⟩ hrun

/-! ### Busy slots -/

/-- The thread takes a slot that is not active. -/
def takesTurn (s : Slot) : Point → Bool
  | .enqueueLock _ _ => !s.state.active
  | _ => false

/-- Whoever has the turn of a slot has it busy. -/
theorem busy_of_holds {state : SlotExecutionState} (h : Gate state (t.tokens + n))
    (ht : t.holds = true) : mudmuxExecutionSlotBusy state = true := by
  have htoken := h.token
  rw [Point.tokens, ht, Bool.toNat_true] at htoken
  have hactive : state.active = true := by
    cases hstate : state.active with
    | true => rfl
    | false =>
      rw [hstate, Bool.toNat_false] at htoken
      omega
  rw [mudmuxExecutionSlotBusy, hactive, Bool.true_or, Bool.true_or]

/-- A slot becomes busy only by a hook that takes it. -/
theorem busy_of_step (h : Gate s.state (t.tokens + n)) (htakes : takesTurn s t = false)
    (hstep : step setup s t choice = some r) (hbusy : mudmuxExecutionSlotBusy r.1.state = true) :
    mudmuxExecutionSlotBusy s.state = true := by
  by_cases hsection : t.isSection = false
  · rwa [(step_of_not_section hsection hstep).1] at hbusy
  by_cases hholds : t.holds = true
  · exact busy_of_holds h hholds
  cases t with
  | enqueueLock task allowPending =>
    have hactive : s.state.active = true := by simpa [takesTurn] using htakes
    rw [mudmuxExecutionSlotBusy, hactive, Bool.true_or, Bool.true_or]
  | takeResume generation message generationMatches =>
    cases choice <;> cases hstep
    simp only [takeResumeSection] at hbusy
    split at hbusy
    · next hready =>
        simp only [Bool.and_eq_true] at hready
        rw [mudmuxExecutionSlotBusy, hready.1.1, Bool.or_true]
    · exact hbusy
  | discardAwait generation =>
    cases choice <;> cases hstep
    simp only [discardSection] at hbusy
    split at hbusy
    · next hmatch =>
        rw [Bool.and_eq_true] at hmatch
        rw [mudmuxExecutionSlotBusy, Bool.or_assoc, hmatch.1, Bool.or_true]
    · exact hbusy
  | hook _ _ | resume _ | finalizeAwait | finish | submitNext _ => exact absurd rfl hholds
  | _ => exact absurd rfl hsection

theorem busy_of_cancelAwait
    (h : mudmuxExecutionSlotBusy (mudmuxExecutionCancelAwait s).1.state = true) :
    mudmuxExecutionSlotBusy s.state = true := by
  simp only [mudmuxExecutionCancelAwait] at h
  split at h
  · next hrequested => rw [mudmuxExecutionSlotBusy, hrequested, Bool.or_true, Bool.true_or]
  · split at h
    · next hpending => rw [mudmuxExecutionSlotBusy, hpending, Bool.or_true]
    · exact h

/-! ### The queue -/

/-- The queue is within its capacity, and what waits in it is not input of the parsers. -/
structure Backlog (setup : Setup) (state : SlotExecutionState) : Prop where
  bounded : state.pending.length ≤ setup.backlogCapacity
  ordinary : ∀ task ∈ state.pending, isInputHook task.execution.hookType = false

/-- A thread that may queue its execution does not carry input of the parsers. -/
def Point.ordinary : Point → Bool
  | enqueueLock task allowPending => !(allowPending && isInputHook task.execution.hookType)
  | _ => true

/-- `mudmux_execution_enqueue` does not let input wait. -/
theorem ordinary_of_step (hstep : step setup s t choice = some r) :
    ∀ t' ∈ r.2, t'.ordinary = true := by
  unfold step at hstep
  split at hstep
  case h_1 execution allowPending =>
      split at hstep <;> cases hstep
      · cases hinput : isInputHook execution.hookType <;> simp [Point.ordinary, hinput]
      · simp
  -- no other step comes to `enqueueLock`
  all_goals
    try simp only [enqueueSection, finalizeSection, takeResumeSection, discardSection,
      finishSection, Job.start] at hstep
    repeat' split at hstep
    all_goals cases hstep
    all_goals simp [Point.ordinary]

theorem backlog_step (h : Backlog setup s.state) (ht : t.ordinary = true)
    (hstep : step setup s t choice = some r) : Backlog setup r.1.state := by
  by_cases hsection : t.isSection = false
  · rw [(step_of_not_section hsection hstep).1]
    exact h
  cases t with
  | enqueueLock task allowPending =>
    cases choice <;> cases hstep
    simp only [enqueueSection]
    split
    · split
      · exact h
      · next hroom =>
          simp only [Point.ordinary] at ht
          refine ⟨?_, fun task' htask => ?_⟩
          · have hfits : s.state.pending.length < setup.backlogCapacity := by
              by_contra hfull
              exact hroom (by simp [Nat.le_of_not_lt hfull])
            show (s.state.pending ++ [task]).length ≤ setup.backlogCapacity
            rw [List.length_append, List.length_singleton]
            omega
          · rcases List.mem_append.mp htask with hold | hnew
            · exact h.ordinary task' hold
            · simp_all
    · exact ⟨h.bounded, h.ordinary⟩
  | finish =>
    cases choice <;> cases hstep
    simp only [finishSection]
    split
    · next next rest hpending =>
        have hbounded := h.bounded
        rw [hpending, List.length_cons] at hbounded
        refine ⟨by simp only; omega, fun task htask => h.ordinary task ?_⟩
        rw [hpending]
        exact List.mem_cons_of_mem next htask
    · exact ⟨h.bounded, h.ordinary⟩
  | submitNext task =>
    cases choice <;> simp only [step, reduceCtorEq] at hstep
    split at hstep <;> cases hstep
    · exact h
    · exact ⟨Nat.zero_le _, by simp⟩
  | finalizeAwait | takeResume | discardAwait =>
    cases choice <;> cases hstep
    simp only [finalizeSection, takeResumeSection, discardSection]
    split <;> exact ⟨h.bounded, h.ordinary⟩
  | hook task call | resume call =>
    cases call with
    | none => exact absurd rfl hsection
    | some call =>
      cases choice <;> cases hstep
      simp only [awaitSection]
      split <;> exact ⟨h.bounded, h.ordinary⟩
  | _ => exact absurd rfl hsection

/-- The environment does not touch the queue. -/
theorem backlog_act {action : Action} (h : Backlog setup s.state)
    (hact : act setup s action = some r) :
    Backlog setup r.1.state ∧ ∀ t ∈ r.2, t.ordinary = true := by
  cases action with
  | dispatch hookType message currentSlot =>
    simp only [act] at hact
    split at hact
    · cases hact
      exact ⟨h, by simp⟩
    · split at hact <;> cases hact <;> exact ⟨h, by simp [Point.ordinary]⟩
  | cancelAwait =>
    cases hact
    simp only [mudmuxExecutionCancelAwait]
    repeat' split
    all_goals exact ⟨⟨h.bounded, h.ordinary⟩, by simp [Point.ordinary]⟩
  | enqueue | setGeneration | stop =>
    cases hact
    exact ⟨h, by simp [Point.ordinary]⟩

theorem backlog_of_run {guard : (scheduler setup).Guard} {c : (scheduler setup).Config}
    (hrun : Run guard (idle setup) c) : Backlog setup c.shared.state := by
  have h := invariant_of_run (S := scheduler setup)
    (fun s ts => Backlog setup s.state ∧ ∀ t ∈ ts, t.ordinary = true)
    (fun s t choice s' ts rest h _ hstep => ?thread)
    (fun s action s' ts rest h _ hact => ?env) (c := idle setup)
    ⟨⟨Nat.zero_le _, by nofun⟩, by nofun⟩ hrun
  case thread =>
    obtain ⟨hbacklog, hts⟩ := h
    have ht := hts t (Multiset.mem_cons_self t rest)
    refine ⟨backlog_step (r := (s', ts)) hbacklog ht hstep, fun t' ht' => ?_⟩
    rcases Multiset.mem_add.mp ht' with hnew | hold
    · exact ordinary_of_step (r := (s', ts)) hstep t' hnew
    · exact hts t' (Multiset.mem_cons_of_mem hold)
  case env =>
    obtain ⟨hbacklog, hnew⟩ := backlog_act (r := (s', ts)) h.1 hact
    refine ⟨hbacklog, fun t' ht' => ?_⟩
    rcases Multiset.mem_add.mp ht' with ht' | hold
    · exact hnew t' ht'
    · exact h.2 t' hold
  exact h.1

/-- In every run whose steps meet `discardGuard` at most one hook or resume closure of the slot is
under way; in every run the queue is within its capacity and holds no input of the parsers. -/
theorem slot_hooks_exclude_each_other (setup : Setup) (c : (scheduler setup).Config)
    (hrun : Run (discardGuard setup) (idle setup) c) :
    (c.threads.filter Point.executing).length ≤ 1 ∧
      c.shared.state.pending.length ≤ setup.backlogCapacity ∧
      ∀ task ∈ c.shared.state.pending, isInputHook task.execution.hookType = false := by
  have hgate := gate_of_run hrun
  have hbacklog := backlog_of_run hrun
  refine ⟨?_, hbacklog.bounded, hbacklog.ordinary⟩
  have hle := c.shared.state.active.toNat_le
  have htoken := hgate.token
  have hcount : (c.threads.filter Point.executing).length
      ≤ total (S := scheduler setup) Point.tokens c.threads := length_executing_le c.threads
  omega

/-! ### A discarded request -/

/-- Hooks and closures do not throw, and the pool is not stopped. -/
def quietGuard (setup : Setup) : (scheduler setup).Guard where
  thread _ _ choice := choice ≠ .throws
  env _ action := action ≠ .stop

def lobby : Setup := ⟨1, 8⟩

/-- The moves of a thread that only proceeds. -/
def proceed (setup : Setup) (index count : Nat) : List (scheduler setup).Move :=
  List.replicate count (.thread index .proceed)

/-- A dispatch of an input hook of the slot. -/
def dispatchInput (setup : Setup) : (scheduler setup).Move :=
  .env (.dispatch .messageInbound setup.slot setup.slot)

/-- A hook awaits. While its work runs the await is cancelled, and a second hook of the same generation
begins and awaits. The work of the first await then ends. -/
def orphanedWork : List (scheduler lobby).Move :=
  .env (.setGeneration 1) :: dispatchInput lobby :: proceed lobby 0 5
    ++ .thread 0 (.await 0 1) :: proceed lobby 0 7
    ++ .env .cancelAwait :: proceed lobby 1 1
    ++ dispatchInput lobby :: proceed lobby 1 5
    ++ .thread 1 (.await 2 3) :: proceed lobby 1 1
    ++ proceed lobby 0 5
    ++ dispatchInput lobby :: proceed lobby 1 5


/-- Two hooks of the slot run at the same time. -/
theorem exclusion_breaks :
    ∃ c, Run (quietGuard lobby) (idle lobby) c ∧
      decide (1 < (c.threads.filter Point.executing).length) = true :=
  exists_run_of_execAll (quietGuard lobby) orphanedWork (idle lobby) _ (by decide +kernel)

/-- A hook of the slot runs while a prompt waits. -/
def promptBehindHook : List (scheduler lobby).Move :=
  .env (.setGeneration 1) :: dispatchInput lobby :: proceed lobby 0 5
    ++ .env (.dispatch .prompt 1 1) :: proceed lobby 1 2

theorem slot_hooks_exclude_each_other_prompt :
    ∃ c, Run (discardGuard lobby) (idle lobby) c ∧
      decide ((c.threads.filter Point.executing).length = 1 ∧ c.shared.state.pending.length = 1)
        = true ∧
      (c.threads.filter Point.executing).length ≤ 1 := by
  obtain ⟨c, hrun, hc⟩ := exists_run_of_execAll (discardGuard lobby) promptBehindHook (idle lobby)
    (fun c => decide ((c.threads.filter Point.executing).length = 1 ∧
      c.shared.state.pending.length = 1)) (by decide +kernel)
  exact ⟨c, hrun, hc, (slot_hooks_exclude_each_other lobby c hrun).1⟩

end Mudmux.Execution
