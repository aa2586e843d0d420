import Mudmux.Proofs.MutualExclusion

/-!
# `Mudmux.Proofs.TurnOrder`: every accepted execution gets its turn, in order

Without cancellation the slot is always in one phase, and exactly one thread carries it: an accepted
execution on its way to a worker, the execution whose hook is running, the end of a turn, or the work
of an await. `Phased` says what the memory looks like in each phase. In particular the executions
accepted are those whose turns are in the log, the one on its way, and the queue, in this order. That
the phase has one carrier is a statement about a sum over the threads, so the library's rule applies.

An execution that is answered otherwise was never accepted, because an identity is accepted or refused
once (`Answered`). `rank` is a measure of the work left: every step of a thread lowers it, and a step
is always possible, so the threads come to an end, and then every accepted execution has had its turn.
-/

set_option autoImplicit false

namespace Mudmux.Execution

open Mudmux.Comm (HookType DispatchResult)
open Mudmux.Lib
open ThreadSystem

variable {setup : Setup}

/-! ### Turns -/

/-- A turn: the generation found at its beginning, and the one found when the hook had returned. -/
structure Turn where
  task : SlotExecution
  started : Nat
  returned : Option Nat := none
  deriving DecidableEq, Repr

/-- What is logged of a turn. In the generation of its acceptance the hook runs once, and if the
generation has not changed by then the completion runs once, behind it. -/
def Turn.events (turn : Turn) : List Event :=
  .turn turn.task turn.started ::
    if turn.started = turn.task.generation then
      .hook turn.task ::
        match turn.returned with
        | none => []
        | some generation =>
          .returned turn.task generation ::
            if generation = turn.task.generation then [.completion turn.task] else []
    else []

/-- The hook and the completion of the turn are over or skipped. -/
def Turn.over (turn : Turn) : Bool :=
  turn.started ≠ turn.task.generation || turn.returned.isSome

/-- The events of turns, as opposed to those of closures. -/
def Event.ofTurn : Event → Bool
  | turn _ _ | hook _ | returned _ _ | completion _ => true
  | _ => false

/-! ### Phases -/

/-- What the slot is busy with. -/
inductive Phase where
  /-- An accepted execution is on its way to a worker. -/
  | ready (task : SlotExecution)
  | inHook (task : SlotExecution)
  /-- Hook and completion are over, or a resume closure is under way. -/
  | after
  /-- The work of an await is under way. -/
  | awaiting (generation : Nat)
  deriving DecidableEq, Repr

/-- The phase a thread carries. -/
def Point.phase : Point → Option Phase
  | enqueue _ _ | enqueueLock _ _ => none
  | enqueueSubmit task | submitNext task | pooled (.execution task) | runExecution task =>
    some (.ready task)
  | hook task _ | hookReturned task => some (.inHook task)
  | submitWork generation _ | pooled (.awaitWork generation _) | awaitWork generation _
  | worked generation _ | takeResume generation _ _ | discardAwait generation =>
    some (.awaiting generation)
  | _ => some .after

/-- A phase as a multiset: nothing when the slot is idle. -/
def carried (phase : Option Phase) : Multiset Phase := phase.elim 0 fun p => {p}

variable {r : Slot × List Point} {t : Point} {n : Multiset Phase} {choice : Choice}
  {c : (scheduler setup).Config} {s' : Slot} {generation : Nat} {action : Action}

/-- The turn under way. -/
def currentTurn : Option Phase → List Turn
  | some (.inHook task) => [⟨task, task.generation, none⟩]
  | _ => []

theorem currentTurn_eq (phase : Option Phase) :
    currentTurn phase = [] ∨ ∃ current, currentTurn phase = [current] := by
  unfold currentTurn
  split
  · exact .inr ⟨_, rfl⟩
  · exact .inl rfl

/-- The execution on its way. -/
def readyTask : Option Phase → List SlotExecution
  | some (.ready task) => [task]
  | _ => []

/-- The turns in the log, then the execution on its way, then the queue: these are the executions
accepted. -/
def History (s : Slot) (phase : Option Phase) : Prop :=
  ∃ turns : List Turn, (∀ turn ∈ turns, turn.over = true) ∧
    s.log.filter Event.ofTurn = (turns ++ currentTurn phase).flatMap Turn.events ∧
    s.accepted
      = (turns ++ currentTurn phase).map Turn.task ++ readyTask phase ++ s.state.pending

/-- The memory in a phase, `none` when the slot is idle. -/
structure Phased (s : Slot) (phase : Option Phase) : Prop where
  accepting : s.accepting = true
  active : s.state.active = phase.isSome
  awaitPending : s.state.awaitPending = true ↔ ∃ generation, phase = some (.awaiting generation)
  awaitGeneration : ∀ generation, phase = some (.awaiting generation) →
    s.state.awaitGeneration = generation
  idle : phase = none → s.state.pending = []
  history : History s phase

/-- One phase, carried by one thread. -/
def OnePhase (s : Slot) (phases : Multiset Phase) : Prop :=
  ∃ phase, phases = carried phase ∧ Phased s phase

/-- A thread that carries a phase is the only one. -/
theorem OnePhase.of_carrier {s : Slot} {p : Phase} (h : OnePhase s (carried (some p) + n)) :
    n = 0 ∧ Phased s (some p) := by
  obtain ⟨phase, hphases, hphased⟩ := h
  cases phase with
  | none => simp [carried] at hphases
  | some q =>
    have hpq : {p} + n = ({q} : Multiset Phase) := hphases
    have hcard := congrArg Multiset.card hpq
    rw [Multiset.card_add, Multiset.card_singleton, Multiset.card_singleton] at hcard
    have hn : n = 0 := Multiset.card_eq_zero.mp (by omega)
    subst hn
    rw [add_zero, Multiset.singleton_inj] at hpq
    exact ⟨rfl, hpq ▸ hphased⟩

theorem onePhase_of_thread {s : Slot} (t : Point) (h : Phased s t.phase) :
    OnePhase s (([t].map fun t => carried t.phase).sum + 0) :=
  ⟨t.phase, by simp, h⟩

theorem onePhase_of_idle {s : Slot} (h : Phased s none) :
    OnePhase s ((([] : List Point).map fun t => carried t.phase).sum + 0) :=
  ⟨none, rfl, h⟩

/-! ### What the steps do to the phase -/

variable {s : Slot} {phase : Option Phase}

/-- A phase says nothing of the log of closures, of the answers and of the generation. -/
theorem Phased.same (h : Phased s phase) (haccepting : s'.accepting = s.accepting)
    (hstate : s'.state = s.state) (haccepted : s'.accepted = s.accepted)
    (hlog : s'.log.filter Event.ofTurn = s.log.filter Event.ofTurn) : Phased s' phase := by
  obtain ⟨turns, hover, hturns, htasks⟩ := h.history
  rw [← haccepted, ← hstate] at htasks
  refine ⟨haccepting.trans h.accepting, ?_, ?_, ?_, ?_, turns, hover, hlog.trans hturns, htasks⟩
  all_goals rw [hstate]
  · exact h.active
  · exact h.awaitPending
  · exact h.awaitGeneration
  · exact h.idle

theorem Phased.answer (h : Phased s phase) (execution : HookExecution) (result : DispatchResult) :
    Phased (s.answer execution result) phase :=
  h.same rfl rfl rfl rfl

theorem Phased.note (h : Phased s phase) (events : List Event)
    (hevents : events.filter Event.ofTurn = []) : Phased (s.note events) phase := by
  refine h.same rfl rfl rfl ?_
  rw [Slot.note, List.filter_append, hevents, List.append_nil]

/-- From one phase to the next, with no await on either side. -/
theorem Phased.move {p p' : Phase} (h : Phased s (some p)) (hp : ∀ generation, p ≠ .awaiting generation)
    (hp' : ∀ generation, p' ≠ .awaiting generation) (haccepting : s'.accepting = s.accepting)
    (hactive : s'.state.active = s.state.active)
    (hawait : s'.state.awaitPending = s.state.awaitPending) (hhistory : History s' (some p')) :
    Phased s' (some p') where
  accepting := haccepting.trans h.accepting
  active := hactive.trans h.active
  awaitPending := by
    rw [hawait, h.awaitPending]
    simp [hp, hp']
  awaitGeneration := fun generation heq => absurd (Option.some.inj heq) (hp' generation)
  idle := nofun
  history := hhistory

theorem filter_destroyClosures (closures : List Closure) :
    (destroyClosures closures).filter Event.ofTurn = [] := by
  rw [destroyClosures, List.filter_eq_nil_iff]
  intro event hevent
  obtain ⟨closure, -, rfl⟩ := List.mem_map.mp hevent
  simp [Event.ofTurn]

/-- The same history in a phase that has neither a turn under way nor an execution on its way. -/
theorem History.of_after (h : History s (some .after)) {phase : Option Phase}
    (hlog : s'.log = s.log) (haccepted : s'.accepted = s.accepted)
    (hpending : s'.state.pending = s.state.pending) (hturn : currentTurn phase = [])
    (hready : readyTask phase = []) : History s' phase := by
  obtain ⟨turns, hover, hturns, htasks⟩ := h
  exact ⟨turns, hover, by rw [hlog, hturn]; exact hturns,
    by rw [haccepted, hpending, hturn, hready]; exact htasks⟩

/-- A turn begins. -/
theorem phased_runExecution {task : SlotExecution} (h : Phased s (some (.ready task)))
    (hstep : step setup s (.runExecution task) .proceed = some r) :
    OnePhase r.1 ((r.2.map fun t => carried t.phase).sum + 0) := by
  obtain ⟨turns, hover, hlog, haccepted⟩ := h.history
  simp only [currentTurn, List.append_nil] at hlog haccepted
  rw [step] at hstep
  split at hstep
  · next hgeneration =>
      cases hstep
      refine onePhase_of_thread (.hook task none) (h.move (by simp) (by simp) rfl rfl rfl ⟨turns, hover, ?_, ?_⟩)
      · simp [Slot.note, currentTurn, Turn.events, hlog, hgeneration, Event.ofTurn]
      · simp [Slot.note, currentTurn, readyTask, haccepted]
  · next hgeneration =>
      -- the turn is skipped, and over at once
      cases hstep
      refine onePhase_of_thread .finalizeAwait (h.move (by simp) (by simp) rfl rfl rfl
        ⟨turns ++ [⟨task, s.generation, none⟩], ?_, ?_, ?_⟩)
      · rw [List.forall_mem_append, List.forall_mem_singleton]
        exact ⟨hover, by simp [Turn.over, hgeneration]⟩
      · simp [Slot.note, currentTurn, Turn.events, hlog, hgeneration, Event.ofTurn]
      · simp [Slot.note, currentTurn, readyTask, haccepted]

/-- The hook of a turn has returned. -/
theorem phased_hookReturned {task : SlotExecution} (h : Phased s (some (.inHook task)))
    (hstep : step setup s (.hookReturned task) .proceed = some r) :
    OnePhase r.1 ((r.2.map fun t => carried t.phase).sum + 0) := by
  obtain ⟨turns, hover, hlog, haccepted⟩ := h.history
  have hturns : ∀ turn ∈ turns ++ [⟨task, task.generation, some s.generation⟩],
      turn.over = true := by
    rw [List.forall_mem_append, List.forall_mem_singleton]
    exact ⟨hover, by simp [Turn.over]⟩
  rw [step] at hstep
  split at hstep
  · next hgeneration =>
      cases hstep
      refine onePhase_of_thread (.completion task) (h.move (by simp) (by simp) rfl rfl rfl ⟨_, hturns, ?_, ?_⟩)
      · simp_all [Slot.note, currentTurn, Turn.events, Event.ofTurn]
      · simp_all [Slot.note, currentTurn, readyTask]
  · next hgeneration =>
      cases hstep
      refine onePhase_of_thread .finalizeAwait (h.move (by simp) (by simp) rfl rfl rfl ⟨_, hturns, ?_, ?_⟩)
      · simp_all [Slot.note, currentTurn, Turn.events, Event.ofTurn]
      · simp_all [Slot.note, currentTurn, readyTask]

/-- `mudmux_workers_await` in a hook or a resume closure. -/
theorem phased_awaitSection (h : Phased s phase) (call : AwaitCall)
    (hphase : ∀ generation, phase ≠ some (.awaiting generation)) :
    Phased (awaitSection s call) phase := by
  simp only [awaitSection]
  split
  · exact h
  · refine Phased.note ?_ _ rfl
    exact { h with awaitGeneration := fun generation hawaiting => absurd hawaiting (hphase generation) }

/-- The end of a turn starts the work of a requested await, or goes on to finish. -/
theorem phased_finalizeSection (h : Phased s (some .after)) :
    OnePhase (finalizeSection s).1
      (((finalizeSection s).2.map fun t => carried t.phase).sum + 0) := by
  simp only [finalizeSection]
  split
  · exact onePhase_of_thread (.submitWork s.state.awaitGeneration s.state.awaitWork)
      ⟨h.accepting, rfl, by simp [Point.phase], by simp [Point.phase], by simp [Point.phase],
        h.history.of_after rfl rfl rfl rfl rfl⟩
  · exact onePhase_of_thread .finish h

/-- The await is no longer pending, and a thread goes on at the end of the turn. -/
theorem Phased.of_awaiting (h : Phased s (some (.awaiting generation))) (state : SlotExecutionState)
    (hactive : state.active = s.state.active) (hpending : state.pending = s.state.pending)
    (hawait : state.awaitPending = false) : Phased { s with state } (some .after) := by
  obtain ⟨turns, hover, hlog, haccepted⟩ := h.history
  exact ⟨h.accepting, hactive.trans h.active, by simp [hawait], by simp, by simp, turns, hover,
    hlog, by simpa [currentTurn, readyTask, hpending] using haccepted⟩

theorem phased_takeResumeSection (message : ClosureMessage) (generationMatches : Bool)
    (h : Phased s (some (.awaiting generation))) :
    OnePhase (takeResumeSection s generation message generationMatches).1
      (((takeResumeSection s generation message generationMatches).2.map
        fun t => carried t.phase).sum + 0) := by
  simp only [takeResumeSection]
  split
  · exact onePhase_of_thread (.submitResume generation s.state.awaitResume message)
      (h.of_awaiting _ rfl rfl rfl)
  · exact onePhase_of_thread (.discardAwait generation) h

/-- Work that was not cancelled discards its own await. -/
theorem phased_discardSection (h : Phased s (some (.awaiting generation))) :
    OnePhase (discardSection s generation).1
      (((discardSection s generation).2.map fun t => carried t.phase).sum + 0) := by
  have hpending : s.state.awaitPending = true := h.awaitPending.mpr ⟨generation, rfl⟩
  have hgeneration := h.awaitGeneration generation rfl
  rw [discardSection, if_pos (by simp [hpending, hgeneration])]
  exact onePhase_of_thread .finish
    ((h.of_awaiting (clearSlotAwait s.state) rfl rfl rfl).note _ (filter_destroyClosures _))

/-- The next turn is given out, or the slot becomes idle. -/
theorem phased_finishSection (h : Phased s (some .after)) :
    OnePhase (finishSection s).1 (((finishSection s).2.map fun t => carried t.phase).sum + 0) := by
  obtain ⟨turns, hover, hlog, haccepted⟩ := h.history
  simp only [finishSection]
  split
  · next task rest hpending =>
      refine onePhase_of_thread (.submitNext task)
        (h.move (by simp) (by simp) rfl rfl rfl ⟨turns, hover, hlog, ?_⟩)
      simpa [currentTurn, readyTask, hpending] using haccepted
  · next hpending =>
      have hawait : s.state.awaitPending = false := by
        simpa using mt h.awaitPending.mp (by simp)
      refine onePhase_of_idle
        ⟨h.accepting, rfl, by simp [hawait], by simp, fun _ => hpending, turns, hover, hlog, ?_⟩
      simpa [currentTurn, readyTask] using haccepted

/-- An execution is refused, queued behind the phase, or begins one. -/
theorem phased_enqueueSection (capacity : Nat) (task : SlotExecution) (allowPending : Bool)
    (h : OnePhase s n) :
    OnePhase (enqueueSection capacity s task allowPending).1
      (((enqueueSection capacity s task allowPending).2.map fun t => carried t.phase).sum + n) := by
  obtain ⟨phase, rfl, hphased⟩ := h
  obtain ⟨turns, hover, hlog, haccepted⟩ := hphased.history
  simp only [enqueueSection]
  split
  · next hactive =>
      have hbusy : phase ≠ none := by
        rintro rfl
        simp [hphased.active] at hactive
      split
      · exact ⟨phase, by simp, hphased.answer _ _⟩
      · refine ⟨phase, by simp, Phased.answer ?_ _ _⟩
        exact { hphased with
          idle := fun hnone => absurd hnone hbusy
          history := ⟨turns, hover, hlog, by simp [haccepted]⟩ }
  · next hactive =>
      -- the slot is idle
      have hidle : phase = none := by
        have h := hphased.active
        cases phase with
        | none => rfl
        | some p => simp_all
      subst hidle
      refine onePhase_of_thread (.enqueueSubmit task)
        ⟨hphased.accepting, rfl, ?_, by simp [Point.phase], by simp [Point.phase], turns, hover, hlog,
          ?_⟩
      · simpa [Point.phase] using hphased.awaitPending
      · simp [Point.phase, currentTurn, readyTask, haccepted, hphased.idle rfl]

/-! ### Steps and runs -/

/-- Hooks do not throw, the pool is not stopped, and no await is cancelled. -/
def uncancelledGuard (setup : Setup) : (scheduler setup).Guard where
  thread _ t choice :=
    match t, choice with
    | .hook _ _, .throws | .completion _, .throws => false
    | _, _ => true
  env _ action := action ≠ .stop && action ≠ .cancelAwait

/-- The points where a phase may end. -/
def Point.changesPhase : Point → Bool
  | runExecution _ | hookReturned _ => true
  | t => t.isSection

/-- Elsewhere a thread carries its phase on, and logs nothing of turns. -/
theorem step_carries_phase (ht : t.changesPhase = false) (haccepting : s.accepting = true)
    (hguard : (uncancelledGuard setup).thread s t choice = true)
    (hstep : step setup s t choice = some r) :
    (r.2.map fun t => carried t.phase).sum = carried t.phase ∧ r.1.accepting = s.accepting ∧
      r.1.state = s.state ∧ r.1.accepted = s.accepted ∧
      r.1.log.filter Event.ofTurn = s.log.filter Event.ofTurn := by
  unfold step at hstep
  split at hstep
  case h_4 job =>
    cases hstep
    cases job <;> exact ⟨by simp [carried, Point.phase, Job.start], rfl, rfl, rfl, rfl⟩
  all_goals try contradiction
  all_goals
    repeat' split at hstep
    all_goals cases hstep
    all_goals simp_all [carried, Point.phase, Slot.note, Slot.answer, Event.ofTurn,
      filter_destroyClosures]

/-- Every step keeps the slot in one phase, carried by one thread. -/
theorem onePhase_step (h : OnePhase s (carried t.phase + n))
    (hguard : (uncancelledGuard setup).thread s t choice = true)
    (hstep : step setup s t choice = some r) :
    OnePhase r.1 ((r.2.map fun t => carried t.phase).sum + n) := by
  by_cases ht : t.changesPhase = false
  · obtain ⟨phase, hphases, hphased⟩ := h
    obtain ⟨hsum, haccepting, hstate, haccepted, hlog⟩ :=
      step_carries_phase ht hphased.accepting hguard hstep
    exact ⟨phase, hsum ▸ hphases, hphased.same haccepting hstate haccepted hlog⟩
  cases t with
  | enqueueLock task allowPending =>
    cases choice <;> cases hstep
    exact phased_enqueueSection _ task allowPending (by simpa [carried, Point.phase] using h)
  | runExecution task =>
    obtain ⟨rfl, hphased⟩ := h.of_carrier
    cases choice with
    | proceed => exact phased_runExecution hphased hstep
    | await | throws => cases hstep
  | hookReturned task =>
    obtain ⟨rfl, hphased⟩ := h.of_carrier
    cases choice with
    | proceed => exact phased_hookReturned hphased hstep
    | await | throws => cases hstep
  | hook task call =>
    obtain ⟨rfl, hphased⟩ := h.of_carrier
    cases call with
    | none => exact absurd rfl ht
    | some call =>
      cases choice <;> cases hstep
      exact onePhase_of_thread (.hook task none) (phased_awaitSection hphased call (by simp))
  | resume call =>
    obtain ⟨rfl, hphased⟩ := h.of_carrier
    cases call with
    | none => exact absurd rfl ht
    | some call =>
      cases choice <;> cases hstep
      exact onePhase_of_thread (.resume none) (phased_awaitSection hphased call (by simp))
  | finalizeAwait =>
    obtain ⟨rfl, hphased⟩ := h.of_carrier
    cases choice <;> cases hstep
    exact phased_finalizeSection hphased
  | takeResume generation message generationMatches =>
    obtain ⟨rfl, hphased⟩ := h.of_carrier
    cases choice <;> cases hstep
    exact phased_takeResumeSection message generationMatches hphased
  | discardAwait generation =>
    obtain ⟨rfl, hphased⟩ := h.of_carrier
    cases choice <;> cases hstep
    exact phased_discardSection hphased
  | finish =>
    obtain ⟨rfl, hphased⟩ := h.of_carrier
    cases choice <;> cases hstep
    exact phased_finishSection hphased
  | submitNext task =>
    obtain ⟨rfl, hphased⟩ := h.of_carrier
    cases choice <;> simp only [step, hphased.accepting, if_true, reduceCtorEq] at hstep
    cases hstep
    exact onePhase_of_thread (.pooled (.execution task)) hphased
  | _ => exact absurd rfl ht

theorem onePhase_act (h : OnePhase s n) (hguard : (uncancelledGuard setup).env s action = true)
    (hact : act setup s action = some r) :
    OnePhase r.1 ((r.2.map fun t => carried t.phase).sum + n) := by
  obtain ⟨phase, rfl, hphased⟩ := h
  have hcount (dispatches : Nat) : Phased { s with dispatches } phase := hphased.same rfl rfl rfl rfl
  cases action with
  | dispatch hookType message currentSlot =>
    simp only [act] at hact
    split at hact
    · cases hact
      exact ⟨phase, by simp, (hcount _).answer _ _⟩
    · split at hact <;> cases hact <;> exact ⟨phase, by simp [carried, Point.phase], hcount _⟩
  | enqueue =>
    cases hact
    exact ⟨phase, by simp [carried, Point.phase], hcount _⟩
  | setGeneration generation =>
    cases hact
    exact ⟨phase, by simp, hphased.same rfl rfl rfl rfl⟩
  | cancelAwait | stop => simp [uncancelledGuard] at hguard

theorem onePhase_of_run (hrun : Run (uncancelledGuard setup) (idle setup) c) :
    OnePhase c.shared (total (S := scheduler setup) (fun t => carried t.phase) c.threads) :=
  sum_invariant_of_run (S := scheduler setup) (fun t => carried t.phase) OnePhase
    (fun _ _ _ s' ts _ h hguard hstep => onePhase_step (r := (s', ts)) h hguard hstep)
    (fun _ _ s' ts _ h hguard hact => onePhase_act (r := (s', ts)) h hguard hact)
    (c := idle setup)
    ⟨none, rfl, rfl, rfl, by simp [idle], by simp, fun _ => rfl, [], by simp, rfl, rfl⟩ hrun

/-! ### Answers -/

/-- The identity of an execution on which nothing is decided yet. -/
def Point.undecided : Point → Multiset Nat
  | enqueue execution _ => {execution.id}
  | enqueueLock task _ => {task.execution.id}
  | _ => 0

/-- The identities accepted. -/
def Slot.acceptedIds (s : Slot) : List Nat := s.accepted.map fun task => task.execution.id

/-- The identities refused. -/
def Slot.refusedIds (s : Slot) : List Nat :=
  (s.answers.filter fun answer => answer.2 ≠ .queued).map fun answer => answer.1.id

/-- The identities accepted or refused. -/
def Slot.decidedIds (s : Slot) : Multiset Nat := (s.acceptedIds : Multiset Nat) + s.refusedIds

/-- The points of `mudmux_execution_enqueue`. -/
def Point.isEnqueue : Point → Bool
  | enqueue _ _ | enqueueLock _ _ | enqueueSubmit _ => true
  | _ => false

/-- Only `mudmux_execution_enqueue` accepts, refuses and answers. -/
theorem step_of_not_enqueue (ht : t.isEnqueue = false) (hstep : step setup s t choice = some r) :
    r.1.accepted = s.accepted ∧ r.1.answers = s.answers ∧ r.1.dispatches = s.dispatches ∧
      r.1.accepting = s.accepting ∧ ∀ t' ∈ r.2, t'.isEnqueue = false := by
  unfold step at hstep
  split at hstep
  case h_1 | h_2 | h_3 => cases ht
  all_goals
    try simp only [awaitSection, finalizeSection, takeResumeSection, discardSection,
      finishSection, Job.start] at hstep
    repeat' split at hstep
    all_goals cases hstep
    all_goals simp [Slot.note, Point.isEnqueue]

/-- An identity is accepted, refused or undecided, and once; `undecided` are those of the threads. -/
structure Answered (s : Slot) (undecided : Multiset Nat) : Prop where
  accepting : s.accepting = true
  once : (s.decidedIds + undecided).Nodup
  old : ∀ id ∈ s.decidedIds + undecided, id < s.dispatches

theorem decidedIds_answer (s : Slot) (execution : HookExecution) (result : DispatchResult) :
    (s.answer execution result).decidedIds
      = s.decidedIds + if result = .queued then 0 else {execution.id} := by
  cases result <;>
    simp [Slot.answer, Slot.decidedIds, Slot.acceptedIds, Slot.refusedIds, List.filter_append,
      add_assoc, ← Multiset.coe_add]

theorem decidedIds_accept (s : Slot) (state : SlotExecutionState) (task : SlotExecution) :
    Slot.decidedIds { s with state, accepted := s.accepted ++ [task] }
      = s.decidedIds + {task.execution.id} := by
  simp only [Slot.decidedIds, Slot.acceptedIds, Slot.refusedIds, List.map_append, List.map_cons,
    List.map_nil, ← Multiset.coe_add, Multiset.coe_singleton]
  exact add_right_comm _ _ _

/-- A step of a thread moves identities from undecided to decided. -/
theorem ids_step (haccepting : s.accepting = true) (hstep : step setup s t choice = some r) :
    r.1.decidedIds + (r.2.map Point.undecided).sum = s.decidedIds + t.undecided ∧
      r.1.dispatches = s.dispatches ∧ r.1.accepting = s.accepting := by
  by_cases ht : t.isEnqueue = false
  · obtain ⟨haccepted, hanswers, hdispatches, haccepting', hnew⟩ := step_of_not_enqueue ht hstep
    have hzero {t : Point} (ht : t.isEnqueue = false) : t.undecided = 0 := by
      cases t <;> first | rfl | cases ht
    have hsum : (r.2.map Point.undecided).sum = 0 := by
      refine List.sum_eq_zero fun x hx => ?_
      obtain ⟨t', ht', rfl⟩ := List.mem_map.mp hx
      exact hzero (hnew t' ht')
    refine ⟨?_, hdispatches, haccepting'⟩
    rw [hsum, hzero ht, Slot.decidedIds, Slot.decidedIds, Slot.acceptedIds, Slot.acceptedIds,
      Slot.refusedIds, Slot.refusedIds, haccepted, hanswers]
  cases t with
  | enqueue execution allowPending =>
    cases choice <;> simp only [step, reduceCtorEq] at hstep
    split at hstep <;> cases hstep
    · exact ⟨by simp [Point.undecided], rfl, rfl⟩
    · exact ⟨by simp [Point.undecided, decidedIds_answer], rfl, rfl⟩
  | enqueueLock task allowPending =>
    cases choice <;> cases hstep
    simp only [enqueueSection]
    repeat' split
    · exact ⟨by simp [Point.undecided, decidedIds_answer], rfl, rfl⟩
    · exact ⟨by simp [Point.undecided, decidedIds_answer, decidedIds_accept], rfl, rfl⟩
    · exact ⟨by simp [Point.undecided, decidedIds_accept], rfl, rfl⟩
  | enqueueSubmit task =>
    cases choice <;> simp only [step, haccepting, if_true, reduceCtorEq] at hstep
    cases hstep
    exact ⟨by simp [Point.undecided, decidedIds_answer], rfl, rfl⟩
  | _ => exact absurd rfl ht

theorem Answered.same {n n' : Multiset Nat} (h : Answered s n)
    (haccepting : s'.accepting = s.accepting) (hdispatches : s'.dispatches = s.dispatches)
    (hids : s'.decidedIds + n' = s.decidedIds + n) : Answered s' n' := by
  refine ⟨haccepting.trans h.accepting, ?_, ?_⟩
  · rw [hids]
    exact h.once
  · rw [hids, hdispatches]
    exact h.old

/-- A dispatch takes a new identity, unless it is for another slot. -/
theorem Answered.fresh {n n' : Multiset Nat} (h : Answered s n)
    (haccepting : s'.accepting = s.accepting) (hdispatches : s'.dispatches = s.dispatches + 1)
    (hids : s'.decidedIds + n' = s.decidedIds + n ∨
      s'.decidedIds + n' = s.dispatches ::ₘ (s.decidedIds + n)) : Answered s' n' := by
  refine ⟨haccepting.trans h.accepting, ?_, ?_⟩
  · rcases hids with hids | hids <;> rw [hids]
    · exact h.once
    · exact Multiset.nodup_cons.mpr ⟨fun hmem => Nat.lt_irrefl _ (h.old _ hmem), h.once⟩
  · rw [hdispatches]
    intro id hid
    have hid : id = s.dispatches ∨ id ∈ s.decidedIds + n := by
      rcases hids with hids | hids
      · exact .inr (hids ▸ hid)
      · exact Multiset.mem_cons.mp (hids ▸ hid)
    rcases hid with rfl | hold
    · exact Nat.lt_succ_self _
    · exact Nat.lt_succ_of_lt (h.old id hold)

theorem answered_act {n : Multiset Nat} (h : Answered s n)
    (hguard : (uncancelledGuard setup).env s action = true) (hact : act setup s action = some r) :
    Answered r.1 ((r.2.map Point.undecided).sum + n) := by
  have hcount (dispatches : Nat) : Slot.decidedIds { s with dispatches } = s.decidedIds := rfl
  have hcons (id : Nat) : s.decidedIds + ({id} + n) = id ::ₘ (s.decidedIds + n) := by
    rw [← Multiset.singleton_add, add_left_comm]
  cases action with
  | dispatch hookType message currentSlot =>
    simp only [act] at hact
    split at hact
    · cases hact
      refine h.fresh rfl rfl (.inr ?_)
      simp only [decidedIds_answer, hcount, List.map_nil, List.sum_nil, zero_add, reduceCtorEq,
        if_false, mudmuxExecutionDispatch]
      rw [add_assoc, hcons]
    · split at hact <;> cases hact
      · refine h.fresh rfl rfl (.inr ?_)
        simp only [hcount, List.map_cons, List.map_nil, List.sum_cons, List.sum_nil, add_zero,
          Point.undecided, mudmuxExecutionDispatch]
        exact hcons s.dispatches
      · exact h.fresh rfl rfl (.inl (by rw [hcount, List.map_nil, List.sum_nil, zero_add]))
  | enqueue hookType message currentSlot allowPending =>
    cases hact
    refine h.fresh rfl rfl (.inr ?_)
    simp only [hcount, List.map_cons, List.map_nil, List.sum_cons, List.sum_nil, add_zero,
      Point.undecided]
    exact hcons s.dispatches
  | setGeneration generation =>
    cases hact
    exact h.same rfl rfl (by rw [List.map_nil, List.sum_nil, zero_add]; rfl)
  | cancelAwait | stop => simp [uncancelledGuard] at hguard

theorem answered_of_run (hrun : Run (uncancelledGuard setup) (idle setup) c) :
    Answered c.shared (total (S := scheduler setup) Point.undecided c.threads) := by
  refine sum_invariant_of_run (S := scheduler setup) Point.undecided Answered ?_
    (fun _ _ s' ts _ h hguard hact => answered_act (r := (s', ts)) h hguard hact)
    (c := idle setup) ⟨rfl, Multiset.nodup_zero, by nofun⟩ hrun
  intro s t choice s' ts n h _ hstep
  obtain ⟨hids, hdispatches, haccepting⟩ := ids_step (r := (s', ts)) h.accepting hstep
  refine h.same haccepting hdispatches ?_
  rw [← add_assoc, hids, add_assoc]

/-- What is answered `queued`, and what is about to be, was accepted. -/
def QueuedAccepted (s : Slot) (ts : Multiset Point) : Prop :=
  (∀ execution, (execution, DispatchResult.queued) ∈ s.answers →
    ∃ task ∈ s.accepted, task.execution = execution) ∧
  ∀ task, Point.enqueueSubmit task ∈ ts → task ∈ s.accepted

theorem queuedAccepted_step {rest : Multiset Point} (h : QueuedAccepted s (t ::ₘ rest))
    (hstep : step setup s t choice = some r) : QueuedAccepted r.1 (r.2 + rest) := by
  obtain ⟨hqueued, hsubmit⟩ := h
  have hrest (task : SlotExecution) (ht : Point.enqueueSubmit task ∈ rest) : task ∈ s.accepted :=
    hsubmit task (Multiset.mem_cons_of_mem ht)
  by_cases ht : t.isEnqueue = false
  · obtain ⟨haccepted, hanswers, -, -, hnew⟩ := step_of_not_enqueue ht hstep
    rw [QueuedAccepted, haccepted, hanswers]
    refine ⟨hqueued, fun task htask => ?_⟩
    rcases Multiset.mem_add.mp htask with hmem | hmem
    · exact absurd (hnew _ hmem) (by simp [Point.isEnqueue])
    · exact hrest task hmem
  cases t with
  | enqueue execution allowPending =>
    cases choice <;> simp only [step, reduceCtorEq] at hstep
    split at hstep <;> cases hstep
    · exact ⟨hqueued, by simpa using hrest⟩
    · exact ⟨by simpa [Slot.answer] using hqueued, by simpa [Slot.answer] using hrest⟩
  | enqueueLock task allowPending =>
    cases choice <;> cases hstep
    have hgrows : ∀ execution, (execution, DispatchResult.queued) ∈ s.answers →
        ∃ task' ∈ s.accepted ++ [task], task'.execution = execution := by
      intro execution hmem
      obtain ⟨task', htask', heq⟩ := hqueued execution hmem
      exact ⟨task', List.mem_append_left _ htask', heq⟩
    simp only [enqueueSection]
    repeat' split
    · exact ⟨by simpa [Slot.answer] using hqueued, by simpa [Slot.answer] using hrest⟩
    · refine ⟨fun execution hmem => ?_, fun task' htask' => ?_⟩
      · rcases List.mem_append.mp hmem with hold | hnew
        · exact hgrows execution hold
        · cases List.mem_singleton.mp hnew
          exact ⟨task, by simp [Slot.answer], rfl⟩
      · exact List.mem_append_left _ (hrest task' (by simpa using htask'))
    · refine ⟨hgrows, fun task' htask' => ?_⟩
      rcases Multiset.mem_add.mp htask' with hnew | hold
      · cases List.mem_singleton.mp (Multiset.mem_coe.mp hnew)
        exact List.mem_append_right _ (List.mem_singleton_self task)
      · exact List.mem_append_left _ (hrest task' hold)
  | enqueueSubmit task =>
    have htask : task ∈ s.accepted := hsubmit task (Multiset.mem_cons_self _ _)
    cases choice <;> simp only [step, reduceCtorEq] at hstep
    split at hstep <;> cases hstep
    · refine ⟨fun execution hmem => ?_, by simpa [Slot.answer] using hrest⟩
      rcases List.mem_append.mp hmem with hold | hnew
      · exact hqueued execution hold
      · cases List.mem_singleton.mp hnew
        exact ⟨task, htask, rfl⟩
    · exact ⟨by simpa [Slot.answer] using hqueued, by simpa [Slot.answer] using hrest⟩
  | _ => exact absurd rfl ht

theorem queuedAccepted_act {rest : Multiset Point} (h : QueuedAccepted s rest)
    (hact : act setup s action = some r) : QueuedAccepted r.1 (r.2 + rest) := by
  obtain ⟨hqueued, hsubmit⟩ := h
  unfold act at hact
  split at hact
  all_goals
    try simp only [mudmuxExecutionCancelAwait] at hact
    repeat' split at hact
    all_goals cases hact
    all_goals exact ⟨by simpa [Slot.answer, Slot.note] using hqueued,
      by simpa [Slot.answer, Slot.note] using hsubmit⟩

theorem queuedAccepted_of_run {guard : (scheduler setup).Guard} (hrun : Run guard (idle setup) c) :
    QueuedAccepted c.shared c.threads :=
  invariant_of_run (S := scheduler setup) QueuedAccepted
    (fun _ _ _ s' ts _ h _ hstep => queuedAccepted_step (r := (s', ts)) h hstep)
    (fun _ _ s' ts _ h _ hact => queuedAccepted_act (r := (s', ts)) h hact)
    (c := idle setup) ⟨by nofun, by nofun⟩ hrun

/-! ### Progress -/

/-- An upper bound of the steps a thread has before it, its next await apart. -/
def Point.rank : Point → Nat
  | finish => 1
  | finalizeAwait | discardAwait _ => 2
  | completion _ | resume none => 3
  | hookReturned _ | awaitResume _ _ _ => 4
  | hook _ none | pooled (.awaitResume _ _ _) => 5
  | runExecution _ | submitResume _ _ _ => 6
  | pooled (.execution _) | takeResume _ _ _ => 7
  | enqueueSubmit _ | submitNext _ | worked _ _ => 8
  | awaitWork _ _ => 9
  | enqueueLock _ _ | pooled (.awaitWork _ _) => 10
  | enqueue _ _ | submitWork _ _ => 11
  | resume (some _) => 14
  | hook _ (some _) => 16

/-- What the state of the slot still has in store. -/
def SlotExecutionState.rank (state : SlotExecutionState) : Nat :=
  8 * state.pending.length + 10 * state.awaitRequested.toNat

/-- Every step of a thread that proceeds lowers the rank. -/
theorem rank_step (hstep : step setup s t .proceed = some r) :
    (r.2.map Point.rank).sum + r.1.state.rank < t.rank + s.state.rank := by
  unfold step at hstep
  split at hstep
  -- the steps that await or throw are out
  all_goals try contradiction
  all_goals
    try simp only [enqueueSection, awaitSection, finalizeSection, takeResumeSection, discardSection,
      finishSection, Job.start] at hstep
    repeat' split at hstep
    all_goals cases hstep
    all_goals simp [Point.rank, SlotExecutionState.rank, Slot.note, Slot.answer, clearSlotAwait, *]
    all_goals try omega

/-- Threads only proceed, and the environment does nothing. -/
def proceedGuard (setup : Setup) : (scheduler setup).Guard where
  thread _ _ choice := choice = .proceed
  env _ _ := false

/-- The work left in a configuration. -/
def workLeft (c : (scheduler setup).Config) : Nat :=
  total (S := scheduler setup) Point.rank c.threads + c.shared.state.rank

/-- Left to themselves the threads come to an end. -/
theorem length_le_workLeft {moves : List (scheduler setup).Move} {c c' : (scheduler setup).Config}
    (h : execAll (proceedGuard setup) c moves = some c') : moves.length ≤ workLeft c := by
  refine length_le_of_decreases workLeft (fun c c' move hallowed hexec => ?_) h
  cases move with
  | env action => cases hallowed
  | thread index choice =>
    obtain ⟨t, ts, rest, hget, hstep, hthreads, hthreads'⟩ := exists_step_of_exec hexec
    have hchoice : choice = .proceed := by simpa [Guard.allows, hget, proceedGuard] using hallowed
    subst hchoice
    have hrank : (ts.map Point.rank).sum + c'.shared.state.rank < t.rank + c.shared.state.rank :=
      rank_step (r := (c'.shared, ts)) hstep
    rw [workLeft, workLeft, hthreads, hthreads', total_cons, total_add]
    omega

/-- A thread never waits for another. -/
theorem step_proceed_isSome (t : Point) : (step setup s t .proceed).isSome = true := by
  cases t with
  | hook task call | resume call => cases call <;> rfl
  | enqueue | enqueueSubmit | runExecution | hookReturned | submitWork | submitResume | awaitResume
  | submitNext =>
    simp only [step]
    split <;> rfl
  | _ => rfl

/-- Without cancellation the executions that a slot accepted get their turns one after the other, in
the order of their acceptance, and each runs its hook and its completion as `Turn.events` says. What is
answered `queued` was accepted, and what is answered otherwise was not. The threads always can proceed
and come to an end, and then every accepted execution has had its turn. -/
theorem slot_executions_run_once_in_order (setup : Setup) (c : (scheduler setup).Config)
    (hrun : Run (uncancelledGuard setup) (idle setup) c) :
    (∃ turns : List Turn,
      c.shared.log.filter Event.ofTurn = turns.flatMap Turn.events ∧
      turns.map Turn.task <+: c.shared.accepted ∧
      (∀ turn ∈ turns.dropLast, turn.over = true) ∧
      (c.threads = [] →
        turns.map Turn.task = c.shared.accepted ∧ ∀ turn ∈ turns, turn.over = true)) ∧
    (c.shared.accepted.map fun task => task.execution.id).Nodup ∧
    (∀ execution, (execution, DispatchResult.queued) ∈ c.shared.answers →
      ∃ task ∈ c.shared.accepted, task.execution = execution) ∧
    (∀ execution result, (execution, result) ∈ c.shared.answers → result ≠ .queued →
      ∀ task ∈ c.shared.accepted, task.execution.id ≠ execution.id) ∧
    (∀ t ∈ c.threads, (step setup c.shared t .proceed).isSome = true) ∧
    ∃ bound, ∀ moves c', execAll (proceedGuard setup) c moves = some c' →
      moves.length ≤ bound := by
  obtain ⟨phase, hphases, hphased⟩ := onePhase_of_run hrun
  obtain ⟨turns, hover, hlog, haccepted⟩ := hphased.history
  have hanswered := answered_of_run hrun
  have hdecided : c.shared.decidedIds.Nodup :=
    (Multiset.nodup_add.mp hanswered.once).1
  refine ⟨⟨turns ++ currentTurn phase, hlog, ?_, ?_, ?_⟩, ?_, (queuedAccepted_of_run hrun).1, ?_,
    fun t _ => step_proceed_isSome t, workLeft c, fun moves c' h => length_le_workLeft h⟩
  · rw [haccepted, List.append_assoc]
    exact List.prefix_append _ _
  · intro turn hturn
    apply hover
    rcases currentTurn_eq phase with hcurrent | ⟨current, hcurrent⟩
    · rw [hcurrent, List.append_nil] at hturn
      exact List.mem_of_mem_dropLast hturn
    · rwa [hcurrent, List.dropLast_concat] at hturn
  · intro hthreads
    have hidle : phase = none := by
      rw [hthreads] at hphases
      cases phase with
      | none => rfl
      | some p => exact absurd hphases.symm (Multiset.singleton_ne_zero p)
    subst hidle
    simp only [currentTurn, readyTask, List.append_nil, hphased.idle rfl] at haccepted ⊢
    exact ⟨haccepted.symm, hover⟩
  · exact (Multiset.nodup_add.mp hdecided).1
  · intro execution result hmem hresult task htask hid
    -- the identity would be both accepted and refused
    have hrefused : execution.id ∈ (c.shared.refusedIds : Multiset Nat) :=
      List.mem_map.mpr ⟨(execution, result), List.mem_filter.mpr ⟨hmem, by simpa using hresult⟩, rfl⟩
    have haccepted : execution.id ∈ (c.shared.acceptedIds : Multiset Nat) :=
      List.mem_map.mpr ⟨task, htask, hid⟩
    exact Multiset.disjoint_left.mp (Multiset.nodup_add.mp hdecided).2.2 haccepted hrefused

/-- An input hook and a prompt behind it, each with its turn. -/
def hookAndPrompt : List (scheduler lobby).Move :=
  promptBehindHook ++ proceed lobby 0 13

theorem slot_executions_run_once_in_order_prompt :
    ∃ c, Run (uncancelledGuard lobby) (idle lobby) c ∧
      (c.threads.isEmpty && c.shared.accepted.length = 2) = true ∧
      (c.shared.accepted.map fun task => task.execution.id).Nodup := by
  obtain ⟨c, hrun, hc⟩ := exists_run_of_execAll (uncancelledGuard lobby) hookAndPrompt (idle lobby)
    (fun c => c.threads.isEmpty && c.shared.accepted.length = 2) (by decide +kernel)
  exact ⟨c, hrun, hc, (slot_executions_run_once_in_order lobby c hrun).2.1⟩

end Mudmux.Execution
