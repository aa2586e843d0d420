import Mudmux.Proofs.MutualExclusion

/-!
# `Mudmux.Proofs.SlotRelease`: a slot that is busy has somebody at work

The turn of a slot is given back at the end of `run_slot_execution`, behind the hook and its completion.
An exception from either of them leaves the function before that point. The pool catches it, and the
slot stays active with nobody to finish its turn: `throwing_hook_wedges_slot`. The closures of an await
are different, since `invoke_closure_safely` catches what they throw.

`Attended` says that whatever makes a slot busy has a thread that will end it: the turn has a thread
that holds it or a pending await, the pending await has a thread with its work, and a request has the
thread that will finalize it. Only existence is claimed, so this needs none of the mutual exclusion of
`Mudmux.Proofs.MutualExclusion`, and it holds in every run in which hooks and completions do not throw.
-/

set_option autoImplicit false

namespace Mudmux.Execution

open Mudmux.Comm (HookType DispatchResult)
open Mudmux.Lib
open ThreadSystem

variable {setup : Setup}

variable {rest : Multiset Point} {s : Slot} {t : Point} {ts : List Point} {r : Slot × List Point}

/-! ### Who attends to a slot -/

/-- The thread carries the work of an await of this generation. -/
@[simp]
def Point.worksFor (generation : Nat) : Point → Bool
  | submitWork g _ | pooled (.awaitWork g _) | awaitWork g _ | worked g _ => g = generation
  | takeResume g _ _ | discardAwait g => g = generation
  | _ => false

/-- The thread is in code that may ask for an await, or between that code and
`mudmux_execution_finalize_await`. -/
@[simp]
def Point.finalizes : Point → Bool
  | hook _ _ | hookReturned _ | completion _ | resume _ | finalizeAwait => true
  | _ => false

/-- The thread belongs to a task: it is queued or running in the pool, or a call that has the turn of
the slot is about to submit it or to finish it. What is left are calls of `mudmux_execution_enqueue`
before their critical section. -/
def Point.isTask : Point → Bool
  | enqueue _ _ | enqueueLock _ _ => false
  | _ => true

/-- Whatever makes the slot busy has a thread that ends it. -/
structure Attended (state : SlotExecutionState) (ts : Multiset Point) : Prop where
  turn : state.active = true → state.awaitPending = true ∨ ∃ t ∈ ts, t.holds = true
  work : state.awaitPending = true → ∃ t ∈ ts, t.worksFor state.awaitGeneration = true
  request : state.awaitRequested = true → ∃ t ∈ ts, t.finalizes = true
  queue : state.pending ≠ [] → state.active = true
  apart : (state.awaitRequested && state.awaitPending) = false

/-- The new threads do for the slot what `t` did. -/
structure Point.Succeeded (t : Point) (ts : List Point) : Prop where
  holds : t.holds = true → ∃ t' ∈ ts, t'.holds = true
  worksFor : ∀ g, t.worksFor g = true → ∃ t' ∈ ts, t'.worksFor g = true
  finalizes : t.finalizes = true → ∃ t' ∈ ts, t'.finalizes = true

/-- Somebody among the others, or somebody new. -/
theorem exists_mem_add {P : Point → Prop} (hnew : P t → ∃ t' ∈ ts, P t')
    (h : ∃ t' ∈ t ::ₘ rest, P t') : ∃ t' ∈ (ts : Multiset Point) + rest, P t' := by
  obtain ⟨t', ht', hP⟩ := h
  rcases Multiset.mem_cons.mp ht' with rfl | hrest
  · obtain ⟨t'', ht'', hP''⟩ := hnew hP
    exact ⟨t'', Multiset.mem_add.mpr (.inl ht''), hP''⟩
  · exact ⟨t', Multiset.mem_add.mpr (.inr hrest), hP⟩

/-- Somebody new. -/
theorem exists_mem_new {P : Point → Prop} (rest : Multiset Point) (ht : t ∈ ts) (hP : P t) :
    ∃ t' ∈ (ts : Multiset Point) + rest, P t' :=
  ⟨t, Multiset.mem_add.mpr (.inl ht), hP⟩

theorem Attended.of_succeeded {state : SlotExecutionState} (h : Attended state (t ::ₘ rest))
    (hts : t.Succeeded ts) :
    Attended state (ts + rest) where
  turn hactive := (h.turn hactive).imp_right (exists_mem_add hts.holds)
  work hpending := exists_mem_add (hts.worksFor _) (h.work hpending)
  request hrequested := exists_mem_add hts.finalizes (h.request hrequested)
  queue := h.queue
  apart := h.apart

/-- Threads that join change nothing. -/
theorem Attended.add {state : SlotExecutionState} (h : Attended state rest) (ts : List Point) :
    Attended state (ts + rest) where
  turn hactive := (h.turn hactive).imp_right fun ⟨t, ht, hP⟩ =>
    ⟨t, Multiset.mem_add.mpr (.inr ht), hP⟩
  work hpending := (h.work hpending).imp fun _ ht => ⟨Multiset.mem_add.mpr (.inr ht.1), ht.2⟩
  request hrequested :=
    (h.request hrequested).imp fun _ ht => ⟨Multiset.mem_add.mpr (.inr ht.1), ht.2⟩
  queue := h.queue
  apart := h.apart

/-! ### Steps -/

/-- Hooks and completions do not throw. The closures of an await may. -/
def hooksReturn (setup : Setup) : (scheduler setup).Guard where
  thread _ t choice :=
    match t, choice with
    | .hook _ _, .throws | .completion _, .throws => false
    | _, _ => true
  env _ _ := true

/-- Between critical sections a thread keeps what it does for the slot. -/
theorem succeeded_of_not_section {choice : Choice} (ht : t.isSection = false)
    (hguard : (hooksReturn setup).thread s t choice = true) (hstep : step setup s t choice = some r) :
    t.Succeeded r.2 := by
  cases t with
  | enqueueLock | finalizeAwait | takeResume | discardAwait | finish | submitNext => cases ht
  | hook task call =>
    cases call with
    | some call => cases ht
    | none =>
      cases choice with
      | throws => cases hguard
      | proceed =>
        cases hstep
        exact ⟨by simp, by simp, by simp⟩
      | await =>
        simp only [step] at hstep
        split at hstep <;> cases hstep <;> exact ⟨by simp, by simp, by simp⟩
  | completion =>
    cases choice with
    | throws => cases hguard
    | proceed =>
      cases hstep
      exact ⟨by simp, by simp, by simp⟩
    | await => cases hstep
  | resume call =>
    cases call with
    | some call => cases ht
    | none =>
      cases choice <;> cases hstep <;> exact ⟨by simp, by simp, by simp⟩
  | pooled job =>
    cases choice <;> cases hstep
    cases job <;>
      exact ⟨by simp [Job.start], by simp [Job.start], by simp⟩
  | awaitWork | worked =>
    cases choice <;> cases hstep <;> exact ⟨by simp, by simp, by simp⟩
  | enqueue | enqueueSubmit | runExecution | hookReturned | submitWork | submitResume | awaitResume =>
    cases choice <;> simp only [step, reduceCtorEq] at hstep
    split at hstep <;> cases hstep <;> exact ⟨by simp, by simp, by simp⟩

theorem attended_enqueueSection (capacity : Nat) (task : SlotExecution) (allowPending : Bool)
    (h : Attended s.state rest) :
    Attended (enqueueSection capacity s task allowPending).1.state
      ((enqueueSection capacity s task allowPending).2 + rest) := by
  simp only [enqueueSection]
  split
  · next hactive =>
      split
      · exact h.add []
      · have hkept := h.add []
        exact ⟨hkept.turn, hkept.work, hkept.request, fun _ => hactive, h.apart⟩
  · have hkept := h.add [.enqueueSubmit task]
    exact ⟨fun _ => .inr (exists_mem_new rest List.mem_cons_self rfl), hkept.work, hkept.request,
      fun _ => rfl, h.apart⟩

/-- The thread that asks for an await is the one that will finalize it. -/
theorem attended_awaitSection (call : AwaitCall) (ht : t.finalizes = true)
    (h : Attended s.state ([t] + rest)) : Attended (awaitSection s call).state ([t] + rest) := by
  simp only [awaitSection]
  split
  · exact h
  · next hfree =>
      have hpending : s.state.awaitPending = false := by simp_all
      refine ⟨fun hactive => h.turn hactive, fun hwork => ?_, fun _ => ?_, h.queue, ?_⟩
      · exact absurd (hpending.symm.trans hwork) (by decide)
      · exact exists_mem_new rest List.mem_cons_self ht
      · show (true && s.state.awaitPending) = false
        rw [hpending, Bool.and_false]

theorem attended_finalizeSection (h : Attended s.state (.finalizeAwait ::ₘ rest)) :
    Attended (finalizeSection s).1.state ((finalizeSection s).2 + rest) := by
  simp only [finalizeSection]
  split
  · refine ⟨fun _ => .inl rfl, fun _ => ?_, by simp, fun _ => rfl, rfl⟩
    exact exists_mem_new rest List.mem_cons_self (by simp)
  · next hfree =>
      -- nothing was requested, so nobody has to finalize
      refine ⟨fun _ => ?_, fun hpending => ?_, fun hrequested => absurd hrequested hfree, h.queue,
        h.apart⟩
      · exact .inr (exists_mem_new rest List.mem_cons_self rfl)
      · exact exists_mem_add (by simp) (h.work hpending)

theorem attended_takeResumeSection {generation : Nat} {message : ClosureMessage}
    {generationMatches : Bool}
    (h : Attended s.state (.takeResume generation message generationMatches ::ₘ rest)) :
    Attended (takeResumeSection s generation message generationMatches).1.state
      ((takeResumeSection s generation message generationMatches).2 + rest) := by
  simp only [takeResumeSection]
  split
  · refine ⟨fun _ => ?_, by simp, fun hrequested => ?_, h.queue, by simp⟩
    · exact .inr (exists_mem_new rest List.mem_cons_self rfl)
    · exact exists_mem_add (by simp) (h.request hrequested)
  · exact h.of_succeeded ⟨by simp, by simp, by simp⟩

theorem attended_discardSection {generation : Nat}
    (h : Attended s.state (.discardAwait generation ::ₘ rest)) :
    Attended (discardSection s generation).1.state ((discardSection s generation).2 + rest) := by
  simp only [discardSection]
  split
  · refine ⟨fun _ => ?_, (fun h => by cases h), (fun h => by cases h), h.queue, rfl⟩
    exact .inr (exists_mem_new rest List.mem_cons_self rfl)
  · next hother =>
      refine ⟨fun hactive => ?_, fun hpending => ?_, fun hrequested => ?_, h.queue, h.apart⟩
      · exact (h.turn hactive).imp_right (exists_mem_add (by simp))
      · -- the await that is pending is of another generation, so its work is in another thread
        have hne : generation ≠ s.state.awaitGeneration := by
          rintro rfl
          have hwork : s.state.awaitPending = true := hpending
          exact hother (by simp [hwork])
        exact exists_mem_add (by simp [hne]) (h.work hpending)
      · exact exists_mem_add (by simp) (h.request hrequested)

theorem attended_finishSection (h : Attended s.state (.finish ::ₘ rest)) :
    Attended (finishSection s).1.state ((finishSection s).2 + rest) := by
  simp only [finishSection]
  split
  · next next _ hpending =>
      have hactive : s.state.active = true := h.queue (by simp [hpending])
      refine ⟨fun _ => ?_, fun hwork => ?_, fun hrequested => ?_, fun _ => hactive, h.apart⟩
      · exact .inr (exists_mem_new rest List.mem_cons_self rfl)
      · exact exists_mem_add (by simp) (h.work hwork)
      · exact exists_mem_add (by simp) (h.request hrequested)
  · next hempty =>
      refine ⟨by simp, fun hwork => ?_, fun hrequested => ?_, fun hne => absurd hempty hne, h.apart⟩
      · exact exists_mem_add (by simp) (h.work hwork)
      · exact exists_mem_add (by simp) (h.request hrequested)

theorem attended_cancelAwait (h : Attended s.state rest) :
    Attended (mudmuxExecutionCancelAwait s).1.state ((mudmuxExecutionCancelAwait s).2 + rest) := by
  simp only [mudmuxExecutionCancelAwait]
  split
  · next hrequested =>
      -- a request that is not finalized is not a pending await, so the turn has its thread
      have hpending : s.state.awaitPending = false := by
        have hapart := h.apart
        rwa [hrequested, Bool.true_and] at hapart
      refine ⟨fun hactive => ?_, (fun h => by cases h), (fun h => by cases h), h.queue, rfl⟩
      rcases h.turn hactive with hwork | hholder
      · exact absurd (hpending.symm.trans hwork) (by decide)
      · exact .inr (by simpa using hholder)
  · next hfree =>
      split
      · refine ⟨fun _ => ?_, (fun h => by cases h), fun hrequested => absurd hrequested hfree, h.queue,
          by simp [Slot.note]⟩
        exact .inr (exists_mem_new rest List.mem_cons_self rfl)
      · exact h.add []

/-- Every step that the guard allows keeps the slot attended. -/
theorem attended_step {choice : Choice} (h : Attended s.state (t ::ₘ rest))
    (hguard : (hooksReturn setup).thread s t choice = true) (hstep : step setup s t choice = some r) :
    Attended r.1.state (r.2 + rest) := by
  by_cases ht : t.isSection = false
  · rw [(step_of_not_section ht hstep).1]
    exact h.of_succeeded (succeeded_of_not_section ht hguard hstep)
  cases t with
  | enqueueLock task allowPending =>
    cases choice <;> cases hstep
    have hrest : Attended s.state (([] : List Point) + rest) :=
      h.of_succeeded ⟨by simp, by simp, by simp⟩
    exact attended_enqueueSection _ task allowPending (by simpa using hrest)
  | finalizeAwait =>
    cases choice <;> cases hstep
    exact attended_finalizeSection h
  | takeResume =>
    cases choice <;> cases hstep
    exact attended_takeResumeSection h
  | discardAwait =>
    cases choice <;> cases hstep
    exact attended_discardSection h
  | finish =>
    cases choice <;> cases hstep
    exact attended_finishSection h
  | submitNext task =>
    cases choice <;> simp only [step, reduceCtorEq] at hstep
    split at hstep
    · cases hstep
      exact h.of_succeeded ⟨by simp, by simp, by simp⟩
    · cases hstep
      refine ⟨by simp, fun hwork => ?_, fun hrequested => ?_, fun hne => absurd rfl hne, h.apart⟩
      · exact exists_mem_add (by simp) (h.work hwork)
      · exact exists_mem_add (by simp) (h.request hrequested)
  | hook task call =>
    cases call with
    | none => exact absurd rfl ht
    | some call =>
      cases choice <;> cases hstep
      refine attended_awaitSection call rfl (h.of_succeeded ⟨?_, ?_, ?_⟩)
      all_goals simp
  | resume call =>
    cases call with
    | none => exact absurd rfl ht
    | some call =>
      cases choice <;> cases hstep
      refine attended_awaitSection call rfl (h.of_succeeded ⟨?_, ?_, ?_⟩)
      all_goals simp
  | _ => exact absurd rfl ht

theorem attended_act {action : Action} (h : Attended s.state rest)
    (hact : act setup s action = some r) : Attended r.1.state (r.2 + rest) := by
  cases action with
  | dispatch hookType message currentSlot =>
    simp only [act] at hact
    split at hact
    · cases hact
      exact h.add []
    · split at hact <;> cases hact <;> exact h.add _
  | cancelAwait =>
    cases hact
    exact attended_cancelAwait h
  | enqueue | setGeneration | stop =>
    cases hact
    exact h.add _

theorem attended_of_run {c : (scheduler setup).Config}
    (hrun : Run (hooksReturn setup) (idle setup) c) : Attended c.shared.state c.threads :=
  invariant_of_run (S := scheduler setup) (fun s ts => Attended s.state ts)
    (fun _ _ _ s' ts _ h hguard hstep => attended_step (r := (s', ts)) h hguard hstep)
    (fun _ _ s' ts _ h _ hact => attended_act (r := (s', ts)) h hact)
    (c := idle setup) ⟨nofun, nofun, nofun, fun hne => absurd rfl hne, rfl⟩ hrun

/-- In every run in which hooks and completions do not throw, a slot without a task is not busy: it is
not active, nothing waits in its queue, and the next execution takes its turn at once. -/
theorem slot_without_task_is_free (setup : Setup) (c : (scheduler setup).Config)
    (hrun : Run (hooksReturn setup) (idle setup) c)
    (hnone : ∀ t ∈ c.threads, Point.isTask t = false) :
    c.shared.state.active = false ∧ c.shared.state.pending = [] ∧
      mudmuxExecutionSlotBusy c.shared.state = false ∧
      ∀ task allowPending,
        (enqueueSection setup.backlogCapacity c.shared task allowPending).2
          = [.enqueueSubmit task] := by
  have h := attended_of_run hrun
  -- nobody is there who would do something for the slot
  have hnobody (P : Point → Bool) (hP : ∀ t, P t = true → t.isTask = true) :
      ¬ ∃ t ∈ (c.threads : Multiset Point), P t = true := by
    rintro ⟨t, ht, htrue⟩
    have hno := hnone t (Multiset.mem_coe.mp ht)
    rw [hP t htrue] at hno
    cases hno
  have hpending : c.shared.state.awaitPending = false := by
    by_contra hwork
    refine hnobody (Point.worksFor c.shared.state.awaitGeneration) (fun t ht => ?_)
      (h.work (by simpa using hwork))
    cases t <;> first | rfl | cases ht
  have hrequested : c.shared.state.awaitRequested = false := by
    by_contra hrequest
    refine hnobody Point.finalizes (fun t ht => ?_) (h.request (by simpa using hrequest))
    cases t <;> first | rfl | cases ht
  have hactive : c.shared.state.active = false := by
    by_contra hbusy
    rcases h.turn (by simpa using hbusy) with hwork | hholder
    · exact absurd (hpending.symm.trans hwork) (by decide)
    · refine hnobody Point.holds (fun t ht => ?_) hholder
      cases t <;> first | rfl | cases ht
  have hqueue : c.shared.state.pending = [] := by
    by_contra hne
    exact absurd (hactive.symm.trans (h.queue hne)) (by decide)
  refine ⟨hactive, hqueue, ?_, fun task allowPending => ?_⟩
  · rw [mudmuxExecutionSlotBusy, hactive, hrequested, hpending]
    rfl
  · simp [enqueueSection, hactive]

/-- A hook awaits, its work throws, the resume closure throws as well, and the turn ends. -/
def throwingClosures : List (scheduler lobby).Move :=
  .env (.setGeneration 1) :: dispatchInput lobby :: proceed lobby 0 5
    ++ .thread 0 (.await 0 1) :: proceed lobby 0 7
    ++ .thread 0 .throws :: proceed lobby 0 5
    ++ .thread 0 .throws :: proceed lobby 0 2

/-- The slot is free behind closures that throw. -/
theorem slot_without_task_is_free_closures :
    ∃ c, Run (hooksReturn lobby) (idle lobby) c ∧
      decide (c.threads = [] ∧ Event.worked (some 0) .failed ∈ c.shared.log) = true ∧
      mudmuxExecutionSlotBusy c.shared.state = false := by
  obtain ⟨c, hrun, hc⟩ := exists_run_of_execAll (hooksReturn lobby) throwingClosures (idle lobby)
    (fun c => decide (c.threads = [] ∧ Event.worked (some 0) .failed ∈ c.shared.log))
    (by decide +kernel)
  have hnone : ∀ t ∈ c.threads, Point.isTask t = false := by
    rw [(of_decide_eq_true hc).1]
    nofun
  exact ⟨c, hrun, hc, (slot_without_task_is_free lobby c hrun hnone).2.2.1⟩

/-! ### A hook that throws -/

/-- A hook throws. Then the connection's next input arrives, and its disconnect hook is dispatched. -/
def throwingHook : List (scheduler lobby).Move :=
  .env (.setGeneration 1) :: dispatchInput lobby :: proceed lobby 0 5
    ++ .thread 0 .throws :: dispatchInput lobby :: proceed lobby 0 2
    ++ .env (.dispatch .disconnect lobby.slot lobby.slot) :: proceed lobby 0 2

/-- Behind a hook that threw no thread of the slot is left, and the slot is busy. The next input is
refused, and the disconnect hook waits in a queue that nobody looks at. -/
theorem throwing_hook_wedges_slot :
    ∃ c, Run (Guard.trivial (scheduler lobby)) (idle lobby) c ∧
      decide (c.threads = [] ∧ c.shared.running = true ∧ c.shared.state.active = true ∧
        mudmuxExecutionSlotBusy c.shared.state = true ∧
        c.shared.answers.map (fun a => (a.1.hookType, a.2)) =
          [(.messageInbound, .queued), (.messageInbound, .queueFull), (.disconnect, .queued)] ∧
        c.shared.state.pending.map (fun task => task.execution.hookType) = [.disconnect]) = true :=
  exists_run_of_execAll (Guard.trivial (scheduler lobby)) throwingHook (idle lobby) _
    (by decide +kernel)

end Mudmux.Execution
