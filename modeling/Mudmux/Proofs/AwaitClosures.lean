import Mudmux.Execution.Awaits

/-!
# `Mudmux.Proofs.AwaitClosures`: who holds the closures of an await

The closures of an await go from the caller to the slot; `mudmux_execution_finalize_await` hands the work
to a task, the task that has run it fetches the resume closure, and a second task runs that. `Role` is
what a thread has to do with an await, and `AwaitStep` says once what a step does: to the await state of
the slot, to the log and to the role of its thread. Everything else is derived from it.

* Every closure is somewhere. What was accepted is what was invoked or destroyed, what the slot holds
  and what the threads hold, counted with multiplicity (`conserved_of_run`). An await that is requested
  has a thread that will finalize it, and one that is pending has a thread that carries its work, so
  nothing is left when no thread is.
* A thread that carries work knows only the generation of its await. Work that outlives the
  cancellation of its await takes the next one of the same generation for its own
  (`resume_before_its_work`). If no await is accepted while such work is under way, an await is resumed by
  its own work.
-/

set_option autoImplicit false

namespace Mudmux.Execution

open Mudmux.Comm (HookType)
open Mudmux.Lib
open ThreadSystem

variable {setup : AwaitSetup}

/-! ### Roles -/

/-- The part of a slot's state that belongs to its await. -/
structure AwaitState where
  requested : Bool := false
  pending : Bool := false
  generation : Nat := 0
  work : Closure := none
  resume : Closure := none
  deriving DecidableEq, Repr

def SlotExecutionState.await (state : SlotExecutionState) : AwaitState where
  requested := state.awaitRequested
  pending := state.awaitPending
  generation := state.awaitGeneration
  work := state.awaitWork
  resume := state.awaitResume

/-- What a thread has to do with an await. -/
inductive Role where
  | none
  /-- In a hook that may await, or behind one, up to `mudmux_execution_finalize_await`. -/
  | finalizer
  /-- The thread carries the work of an await of this generation. -/
  | working (generation : Nat) (work : Closure)
  /-- The work has returned with a message. -/
  | worked (generation : Nat) (message : ClosureMessage)
  /-- The thread has not found its await and goes on to `discard_slot_await`. -/
  | leaving (generation : Nat)
  /-- The thread carries a resume closure. -/
  | resuming (resume : Closure) (message : ClosureMessage)
  deriving DecidableEq, Repr

/-- The role of a thread of the scheduler. -/
def Point.role : Point → Role
  | hook _ _ | hookReturned _ | completion _ | finalizeAwait | resume _ => .finalizer
  | submitWork generation work | pooled (.awaitWork generation work) | awaitWork generation work =>
    .working generation work
  | worked generation message | takeResume generation message _ => .worked generation message
  | discardAwait generation => .leaving generation
  | submitResume _ closure message | pooled (.awaitResume _ closure message)
  | awaitResume _ closure message => .resuming closure message
  | _ => .none

/-- The role of a thread. -/
def AwaitPoint.role : AwaitPoint → Role
  | worker t => t.role
  | inline _ _ | inlineReturned => .finalizer

/-! ### What a step does -/

/-- The event is about the closures of an await. -/
def Event.ofAwait : Event → Bool
  | awaited _ _ | worked _ _ | resumed _ _ | destroyed _ => true
  | _ => false

/-- The call of `mudmux_workers_await` that a thread is in. -/
def Point.awaitCall : Point → Option AwaitCall
  | hook _ call | resume call => call
  | _ => none

def AwaitPoint.awaitCall : AwaitPoint → Option AwaitCall
  | worker t => t.awaitCall
  | inline _ call => call
  | inlineReturned => none

/-- A step of a thread, by its role: the await state, the events, and the roles behind it. `throws`
says that foreign code throws, and `call` is the call that the thread is in. -/
inductive AwaitStep (throws : Prop) (call : Option AwaitCall) (a : AwaitState) :
    Role → AwaitState → List Event → List Role → Prop where
  | keep (role : Role) {events : List Event} (hevents : ∀ event ∈ events, event.ofAwait = false) :
      AwaitStep throws call a role a events [role]
  /-- A thread without a role may come to a hook. -/
  | begin {events : List Event} {roles : List Role} (hevents : ∀ event ∈ events, event.ofAwait = false)
      (hroles : ∀ role ∈ roles, role = .none ∨ role = .finalizer) : AwaitStep throws call a .none a events roles
  | request {accepted : AwaitCall} (hcall : call = some accepted) (hrequested : a.requested = false)
      (hpending : a.pending = false) :
      AwaitStep throws call a .finalizer
        { a with
            requested := true
            generation := accepted.generation
            work := accepted.work
            resume := accepted.resume }
        [.awaited accepted.work accepted.resume] [.finalizer]
  | finalize (hrequested : a.requested = true) :
      AwaitStep throws call a .finalizer { a with requested := false, pending := true, work := none } []
        [.working a.generation a.work]
  | unasked {roles : List Role} (hrequested : a.requested = false) (hroles : ∀ role ∈ roles, role = .none) :
      AwaitStep throws call a .finalizer a [] roles
  /-- A hook or its completion throws. -/
  | lose (hthrows : throws) : AwaitStep throws call a .finalizer a [] []
  | work (generation : Nat) (work : Closure) (message : ClosureMessage) :
      AwaitStep throws call a (.working generation work) a [.worked work message] [.worked generation message]
  | take (message : ClosureMessage) (hpending : a.pending = true) :
      AwaitStep throws call a (.worked a.generation message)
        { a with resume := none, pending := false, generation := 0 } [] [.resuming a.resume message]
  | leave (generation : Nat) (message : ClosureMessage) :
      AwaitStep throws call a (.worked generation message) a [] [.leaving generation]
  | discard (hawait : a.requested = true ∨ a.pending = true) :
      AwaitStep throws call a (.leaving a.generation) {} (destroyClosures [a.work, a.resume]) [.none]
  | leaveAlone {generation : Nat} (hother : a.pending = true → a.generation ≠ generation) :
      AwaitStep throws call a (.leaving generation) a [] []
  | resume (resume : Closure) (message : ClosureMessage) :
      AwaitStep throws call a (.resuming resume message) a [.resumed resume message] [.finalizer]
  | drop (resume : Closure) (message : ClosureMessage) :
      AwaitStep throws call a (.resuming resume message) a (destroyClosures [resume]) [.finalizer]

variable {events : List Event} {roles : List Role} {a a' : AwaitState} {s : Slot} {throws : Prop}
  {call : Option AwaitCall} {role : Role}

/-- A critical section of `mudmux_workers_await` accepts or leaves the memory alone. -/
theorem awaitSection_cases (s : Slot) (call : AwaitCall) :
    awaitSection s call = s ∨
      s.state.awaitRequested = false ∧ s.state.awaitPending = false ∧
        (awaitSection s call).log = s.log ++ [.awaited call.work call.resume] ∧
        (awaitSection s call).state.await
          = { s.state.await with
                requested := true
                generation := call.generation
                work := call.work
                resume := call.resume } := by
  rw [awaitSection]
  split
  · exact .inl rfl
  · next hfree =>
      simp only [Bool.or_eq_true, not_or, Bool.not_eq_true] at hfree
      exact .inr ⟨hfree.1, hfree.2, rfl, rfl⟩

/-- Threads that do not touch an await, by the events they log. -/
theorem AwaitStep.aside {s s' : Slot} (hlog : s'.log = s.log ++ events)
    (hawait : s'.state.await = s.state.await) (hevents : ∀ event ∈ events, event.ofAwait = false)
    (hroles : roles = [role] ∨ role = .none ∧ ∀ role ∈ roles, role = .none ∨ role = .finalizer) :
    ∃ events, s'.log = s.log ++ events ∧
      AwaitStep throws call s.state.await role s'.state.await events roles := by
  refine ⟨events, hlog, ?_⟩
  rw [hawait]
  obtain rfl | ⟨rfl, hroles⟩ := hroles
  · exact .keep role hevents
  · exact .begin hevents hroles

/-- The critical section of `mudmux_workers_await`, in a hook or a resume closure. -/
theorem awaitStep_of_awaitSection (call : AwaitCall) :
    ∃ events, (awaitSection s call).log = s.log ++ events ∧
      AwaitStep throws (some call) s.state.await .finalizer (awaitSection s call).state.await events
        [.finalizer] := by
  obtain hsame | ⟨hrequested, hpending, hlog, hawait⟩ := awaitSection_cases s call
  · rw [hsame]
    exact AwaitStep.aside (List.append_nil _).symm rfl nofun (.inl rfl)
  · rw [hlog, hawait]
    exact ⟨_, rfl, .request rfl hrequested hpending⟩

/-- A step of a thread of the scheduler. -/
theorem awaitStep_of_step {setup : Setup} {t : Point} {choice : Choice} {r : Slot × List Point}
    (h : step setup s t choice = some r) :
    ∃ events, r.1.log = s.log ++ events ∧
      AwaitStep (choice = .throws) t.awaitCall s.state.await t.role r.1.state.await events
        (r.2.map Point.role) := by
  have hnil : s.log = s.log ++ [] := (List.append_nil _).symm
  cases t with
  | enqueue | enqueueSubmit | submitNext =>
    cases choice <;> simp only [step, reduceCtorEq] at h
    split at h <;> cases h <;>
      exact AwaitStep.aside hnil rfl nofun (.inr ⟨rfl, by simp [Point.role]⟩)
  | enqueueLock task allowPending =>
    cases choice <;> cases h
    simp only [enqueueSection]
    repeat' split
    all_goals exact AwaitStep.aside hnil rfl nofun (.inr ⟨rfl, by simp [Point.role]⟩)
  | pooled job =>
    cases choice <;> cases h
    cases job <;> exact AwaitStep.aside hnil rfl nofun (.inl rfl)
  | runExecution task =>
    cases choice <;> simp only [step, reduceCtorEq] at h
    split at h <;> cases h <;>
      exact AwaitStep.aside rfl rfl (by simp [Event.ofAwait]) (.inr ⟨rfl, by simp [Point.role]⟩)
  | hook task call =>
    cases call with
    | some call =>
      cases choice <;> cases h
      exact awaitStep_of_awaitSection call
    | none =>
      cases choice with
      | proceed =>
        cases h
        exact AwaitStep.aside hnil rfl nofun (.inl rfl)
      | await work resume =>
        simp only [step] at h
        split at h <;> cases h <;> exact AwaitStep.aside hnil rfl nofun (.inl rfl)
      | throws =>
        cases h
        exact ⟨[], hnil, .lose rfl⟩
  | resume call =>
    cases call with
    | some call =>
      cases choice <;> cases h
      exact awaitStep_of_awaitSection call
    | none => cases choice <;> cases h <;> exact AwaitStep.aside hnil rfl nofun (.inl rfl)
  | hookReturned task =>
    cases choice <;> simp only [step, reduceCtorEq] at h
    split at h <;> cases h <;> exact AwaitStep.aside rfl rfl (by simp [Event.ofAwait]) (.inl rfl)
  | completion task =>
    cases choice <;> cases h
    · exact AwaitStep.aside hnil rfl nofun (.inl rfl)
    · exact ⟨[], hnil, .lose rfl⟩
  | finalizeAwait =>
    cases choice <;> cases h
    simp only [finalizeSection]
    split
    · next hrequested => exact ⟨[], hnil, .finalize hrequested⟩
    · next hfree =>
        exact ⟨[], hnil, .unasked (Bool.eq_false_iff.mpr hfree) (by simp [Point.role])⟩
  | submitWork | submitResume =>
    cases choice <;> simp only [step, reduceCtorEq] at h
    split at h <;> cases h <;> exact AwaitStep.aside hnil rfl nofun (.inl rfl)
  | awaitWork generation work =>
    cases choice <;> cases h
    · exact ⟨_, rfl, .work generation work .ok⟩
    · exact ⟨_, rfl, .work generation work .failed⟩
  | worked =>
    cases choice <;> cases h
    exact AwaitStep.aside hnil rfl nofun (.inl rfl)
  | takeResume generation message generationMatches =>
    cases choice <;> cases h
    simp only [takeResumeSection]
    split
    · next hready =>
        simp only [Bool.and_eq_true, decide_eq_true_eq] at hready
        obtain ⟨⟨hpending, rfl⟩, -⟩ := hready
        exact ⟨[], hnil, .take message hpending⟩
    · exact ⟨[], hnil, .leave generation message⟩
  | discardAwait generation =>
    cases choice <;> cases h
    simp only [discardSection]
    split
    · next hmatch =>
        simp only [Bool.and_eq_true, Bool.or_eq_true, decide_eq_true_eq] at hmatch
        obtain ⟨hawait, rfl⟩ := hmatch
        exact ⟨_, rfl, .discard hawait⟩
    · next hother =>
        refine ⟨[], hnil, .leaveAlone fun hpending heq => hother ?_⟩
        simp [show s.state.awaitPending = true from hpending,
          show s.state.awaitGeneration = generation from heq]
  | awaitResume generation closure message =>
    cases choice <;> simp only [step, reduceCtorEq] at h
    split at h
    · cases h
      exact ⟨_, rfl, .resume closure message⟩
    · cases h
      exact ⟨_, rfl, .drop closure message⟩
  | finish =>
    cases choice <;> cases h
    simp only [finishSection]
    split <;> exact AwaitStep.aside hnil rfl nofun (.inr ⟨rfl, by simp [Point.role]⟩)

/-- A step of a thread. -/
theorem awaitStep_of_awaitStep {t : AwaitPoint} {choice : Choice} {r : Slot × List AwaitPoint}
    (h : awaitStep setup s t choice = some r) :
    ∃ events, r.1.log = s.log ++ events ∧
      AwaitStep (choice = .throws) t.awaitCall s.state.await t.role r.1.state.await events
        (r.2.map AwaitPoint.role) := by
  have hnil : s.log = s.log ++ [] := (List.append_nil _).symm
  cases t with
  | worker t =>
    obtain ⟨q, hstep, rfl⟩ := Option.map_eq_some_iff.mp h
    obtain ⟨events, hlog, hrole⟩ := awaitStep_of_step hstep
    refine ⟨events, hlog, ?_⟩
    rw [List.map_map]
    exact hrole
  | inline hookType call =>
    cases call with
    | some call =>
      cases choice <;> cases h
      exact awaitStep_of_awaitSection call
    | none =>
      cases choice with
      | proceed =>
        cases h
        exact AwaitStep.aside hnil rfl nofun (.inl rfl)
      | await work resume =>
        simp only [awaitStep] at h
        split at h <;> cases h <;> exact AwaitStep.aside hnil rfl nofun (.inl rfl)
      | throws =>
        cases h
        exact ⟨[], hnil, .lose rfl⟩
  | inlineReturned =>
    cases choice <;> simp only [awaitStep, reduceCtorEq] at h
    split at h
    · next hrequested =>
        cases h
        simp only [finalizeSection, if_pos hrequested]
        exact ⟨[], hnil, .finalize hrequested⟩
    · next hfree =>
        cases h
        exact ⟨[], hnil, .unasked (Bool.eq_false_iff.mpr hfree) nofun⟩

/-- What the environment does to an await. -/
inductive AwaitActs (a : AwaitState) : AwaitState → List Event → List Role → Prop where
  | aside {roles : List Role} (hroles : ∀ role ∈ roles, role = .none ∨ role = .finalizer) :
      AwaitActs a a [] roles
  | cancelRequested (hrequested : a.requested = true) :
      AwaitActs a {} (destroyClosures [a.work, a.resume]) []
  | cancelPending (hpending : a.pending = true) :
      AwaitActs a { a with resume := none, pending := false, generation := 0 }
        (destroyClosures [a.resume]) [.none]

theorem awaitActs_of_awaitAct {action : AwaitAction} {r : Slot × List AwaitPoint}
    (h : awaitAct setup s action = some r) :
    ∃ events, r.1.log = s.log ++ events ∧
      AwaitActs s.state.await r.1.state.await events (r.2.map AwaitPoint.role) := by
  have hnil : s.log = s.log ++ [] := (List.append_nil _).symm
  cases action with
  | inline hookType =>
    simp only [awaitAct] at h
    split at h
    · cases h
    · cases h
      exact ⟨[], hnil, .aside (by simp [AwaitPoint.role])⟩
  | scheduler action =>
    simp only [awaitAct] at h
    split at h
    · cases h
    · obtain ⟨q, hact, rfl⟩ := Option.map_eq_some_iff.mp h
      cases action with
      | cancelAwait =>
        cases hact
        simp only [mudmuxExecutionCancelAwait]
        split
        · next hrequested => exact ⟨_, rfl, .cancelRequested hrequested⟩
        · split
          · next hpending => exact ⟨_, rfl, .cancelPending hpending⟩
          · exact ⟨[], hnil, .aside nofun⟩
      | dispatch =>
        simp only [act] at hact
        repeat' split at hact
        all_goals cases hact
        all_goals exact ⟨[], hnil, .aside (by simp [AwaitPoint.role, Point.role])⟩
      | enqueue | setGeneration | stop =>
        cases hact
        exact ⟨[], hnil, .aside (by simp [AwaitPoint.role, Point.role])⟩

/-! ### Every closure is somewhere -/

/-- A closure by its number; an empty one is none. -/
def names (closure : Closure) : Multiset Nat := closure.toList

/-- The closures that an accepted call of `mudmux_workers_await` hands over. -/
def Event.accepts : Event → Multiset Nat
  | awaited work resume => names work + names resume
  | _ => 0

def Event.invokes : Event → Multiset Nat
  | worked closure _ | resumed closure _ => names closure
  | _ => 0

def Event.destroys : Event → Multiset Nat
  | destroyed closure => names closure
  | _ => 0

/-- The closures accepted, invoked and destroyed in a log. -/
def acceptedClosures (log : List Event) : Multiset Nat := (log.map Event.accepts).sum

def invokedClosures (log : List Event) : Multiset Nat := (log.map Event.invokes).sum

def destroyedClosures (log : List Event) : Multiset Nat := (log.map Event.destroys).sum

def AwaitState.held (a : AwaitState) : Multiset Nat := names a.work + names a.resume

def Role.held : Role → Multiset Nat
  | working _ closure | resuming closure _ => names closure
  | _ => 0

/-- The closures that threads hold. -/
def heldByThreads (ts : List AwaitPoint) : Multiset Nat := (ts.map fun t => t.role.held).sum

/-- The slot holds no closure outside of an await. -/
structure AwaitState.Tidy (a : AwaitState) : Prop where
  work : a.requested = false → a.work = none
  resume : a.requested = false → a.pending = false → a.resume = none
  apart : a.requested = true → a.pending = false

theorem AwaitStep.tidy (h : AwaitStep throws call a role a' events roles) (ha : a.Tidy) :
    a'.Tidy := by
  cases h with
  | request => exact ⟨nofun, nofun, fun _ => ‹_›⟩
  | finalize => exact ⟨fun _ => rfl, nofun, nofun⟩
  | take _ hpending =>
    refine ⟨ha.work, fun _ _ => rfl, fun _ => rfl⟩
  | discard => exact ⟨fun _ => rfl, fun _ _ => rfl, nofun⟩
  | _ => exact ha

theorem AwaitActs.tidy (h : AwaitActs a a' events roles) (ha : a.Tidy) : a'.Tidy := by
  cases h with
  | aside => exact ha
  | cancelRequested => exact ⟨fun _ => rfl, fun _ _ => rfl, nofun⟩
  | cancelPending => exact ⟨ha.work, fun _ _ => rfl, fun _ => rfl⟩

/-- What is accepted or held before a step is consumed or held behind it. -/
def Balanced (a a' : AwaitState) (before : Multiset Nat) (events : List Event) (roles : List Role) :
    Prop :=
  acceptedClosures events + a.held + before
    = invokedClosures events + destroyedClosures events + a'.held + (roles.map Role.held).sum

theorem balanced_of_aside {before : Multiset Nat}
    (hevents : ∀ event ∈ events, event.ofAwait = false)
    (hroles : (roles.map Role.held).sum = before) : Balanced a a before events roles := by
  have hzero (f : Event → Multiset Nat) (hf : ∀ event, event.ofAwait = false → f event = 0) :
      (events.map f).sum = 0 := by
    refine List.sum_eq_zero fun x hx => ?_
    obtain ⟨event, hmem, rfl⟩ := List.mem_map.mp hx
    exact hf event (hevents event hmem)
  rw [Balanced, acceptedClosures, invokedClosures, destroyedClosures, hroles,
    hzero _ (by intro event h; cases event <;> first | rfl | cases h),
    hzero _ (by intro event h; cases event <;> first | rfl | cases h),
    hzero _ (by intro event h; cases event <;> first | rfl | cases h)]
  simp

theorem destroyedClosures_destroyClosures (closures : List Closure) :
    destroyedClosures (destroyClosures closures) = (closures.map names).sum := by
  induction closures with
  | nil => rfl
  | cons closure closures ih =>
    cases closure with
    | none =>
      rw [List.map_cons, List.sum_cons, ← ih]
      exact (zero_add _).symm
    | some n =>
      rw [List.map_cons, List.sum_cons, ← ih]
      rfl

theorem destroyClosures_only (closures : List Closure) :
    acceptedClosures (destroyClosures closures) = 0 ∧
      invokedClosures (destroyClosures closures) = 0 := by
  constructor <;>
    refine List.sum_eq_zero fun x hx => ?_ <;>
    · obtain ⟨event, hmem, rfl⟩ := List.mem_map.mp hx
      obtain ⟨closure, -, rfl⟩ := List.mem_map.mp hmem
      rfl

theorem AwaitStep.balanced (h : AwaitStep throws call a role a' events roles) (ha : a.Tidy) :
    Balanced a a' role.held events roles := by
  cases h with
  | keep _ hevents => exact balanced_of_aside hevents (by simp)
  | begin hevents hroles =>
    refine balanced_of_aside hevents (List.sum_eq_zero fun x hx => ?_)
    obtain ⟨role, hmem, rfl⟩ := List.mem_map.mp hx
    obtain rfl | rfl := hroles role hmem <;> rfl
  | unasked _ hroles =>
    refine balanced_of_aside nofun (List.sum_eq_zero fun x hx => ?_)
    obtain ⟨role, hmem, rfl⟩ := List.mem_map.mp hx
    rw [hroles role hmem]
    rfl
  | lose => exact balanced_of_aside nofun rfl
  | leave => exact balanced_of_aside nofun (by simp [Role.held])
  | leaveAlone => exact balanced_of_aside nofun rfl
  | @request accepted _ hrequested hpending =>
    have hheld : a.held = 0 := by
      rw [AwaitState.held, ha.work hrequested, ha.resume hrequested hpending]
      rfl
    rw [Balanced, hheld]
    show names accepted.work + names accepted.resume + 0 + 0 + 0
      = 0 + 0 + (0 + 0) + (names accepted.work + names accepted.resume) + (0 + 0)
    abel
  | finalize =>
    show 0 + (names a.work + names a.resume) + 0 = 0 + 0 + (0 + names a.resume) + (names a.work + 0)
    abel
  | work _ closure =>
    show 0 + a.held + names closure = names closure + 0 + (0 + 0) + a.held + (0 + 0)
    abel
  | take =>
    show 0 + (names a.work + names a.resume) + 0 = 0 + 0 + (names a.work + 0) + (names a.resume + 0)
    abel
  | discard =>
    rw [Balanced, (destroyClosures_only _).1, (destroyClosures_only _).2,
      destroyedClosures_destroyClosures]
    show 0 + (names a.work + names a.resume) + 0
      = 0 + (names a.work + (names a.resume + 0)) + (0 + 0) + (0 + 0)
    abel
  | resume closure =>
    show 0 + a.held + names closure = names closure + 0 + (0 + 0) + a.held + (0 + 0)
    abel
  | drop closure =>
    rw [Balanced, (destroyClosures_only _).1, (destroyClosures_only _).2,
      destroyedClosures_destroyClosures]
    show 0 + a.held + names closure = 0 + (names closure + 0) + a.held + (0 + 0)
    abel

theorem AwaitActs.balanced (h : AwaitActs a a' events roles) : Balanced a a' 0 events roles := by
  cases h with
  | aside hroles =>
    refine balanced_of_aside nofun (List.sum_eq_zero fun x hx => ?_)
    obtain ⟨role, hmem, rfl⟩ := List.mem_map.mp hx
    obtain rfl | rfl := hroles role hmem <;> rfl
  | cancelRequested =>
    rw [Balanced, (destroyClosures_only _).1, (destroyClosures_only _).2,
      destroyedClosures_destroyClosures]
    show 0 + (names a.work + names a.resume) + 0
      = 0 + (names a.work + (names a.resume + 0)) + (0 + 0) + 0
    abel
  | cancelPending =>
    rw [Balanced, (destroyClosures_only _).1, (destroyClosures_only _).2,
      destroyedClosures_destroyClosures]
    show 0 + (names a.work + names a.resume) + 0
      = 0 + (names a.resume + 0) + (names a.work + 0) + (0 + 0)
    abel

/-- What was accepted is what was consumed, what the slot holds and the `n` that threads hold. -/
structure Conserved (s : Slot) (n : Multiset Nat) : Prop where
  tidy : s.state.await.Tidy
  balance : acceptedClosures s.log
    = invokedClosures s.log + destroyedClosures s.log + s.state.await.held + n

theorem Conserved.step {s s' : Slot} {before after n : Multiset Nat} (h : Conserved s (before + n))
    (hlog : s'.log = s.log ++ events) (htidy : s'.state.await.Tidy)
    (hbalanced : acceptedClosures events + s.state.await.held + before
      = invokedClosures events + destroyedClosures events + s'.state.await.held + after) :
    Conserved s' (after + n) := by
  refine ⟨htidy, ?_⟩
  have happend (f : Event → Multiset Nat) :
      ((s.log ++ events).map f).sum = (s.log.map f).sum + (events.map f).sum := by
    rw [List.map_append, List.sum_append]
  have hold := h.balance
  simp only [acceptedClosures, invokedClosures, destroyedClosures] at hold hbalanced ⊢
  rw [hlog, happend, happend, happend, hold]
  calc
    _ = (s.log.map Event.invokes).sum + (s.log.map Event.destroys).sum + n
          + ((events.map Event.accepts).sum + s.state.await.held + before) := by abel
    _ = _ := by rw [hbalanced]; abel

/-! ### Nothing is left behind -/

/-- The thread carries the work of an await of the generation. -/
def Role.worksFor (generation : Nat) : Role → Bool
  | working g _ | worked g _ | leaving g => g = generation
  | _ => false

/-- Somebody will see to an await. -/
structure AwaitAttended (a : AwaitState) (roles : Multiset Role) : Prop where
  requested : a.requested = true → Role.finalizer ∈ roles
  pending : a.pending = true → ∃ role ∈ roles, role.worksFor a.generation = true

theorem AwaitStep.attended {rest : Multiset Role} (h : AwaitStep False call a role a' events roles)
    (htidy : a.Tidy) (ha : AwaitAttended a (role ::ₘ rest)) : AwaitAttended a' (roles + rest) := by
  -- a thread that plays no part may go
  have hothers {roles : Multiset Role} (hf : role ≠ .finalizer ∨ a.requested = false)
      (hw : a.pending = true → role.worksFor a.generation = false) : AwaitAttended a (roles + rest) := by
    refine ⟨fun hrequested => ?_, fun hpending => ?_⟩
    · obtain hself | hrest := Multiset.mem_cons.mp (ha.requested hrequested)
      · obtain hf | hf := hf
        · exact absurd hself.symm hf
        · rw [hf] at hrequested
          cases hrequested
      · exact Multiset.mem_add.mpr (.inr hrest)
    · obtain ⟨worker, hmem, hworks⟩ := ha.pending hpending
      obtain rfl | hrest := Multiset.mem_cons.mp hmem
      · rw [hw hpending] at hworks
        cases hworks
      · exact ⟨worker, Multiset.mem_add.mpr (.inr hrest), hworks⟩
  -- a thread that goes on with work for the same generation
  have hgoes {next : Role} (hf : role ≠ .finalizer)
      (hw : ∀ g, role.worksFor g = true → next.worksFor g = true) :
      AwaitAttended a (([next] : List Role) + rest) := by
    refine ⟨fun hrequested => ?_, fun hpending => ?_⟩
    · obtain hself | hrest := Multiset.mem_cons.mp (ha.requested hrequested)
      · exact absurd hself.symm hf
      · exact Multiset.mem_add.mpr (.inr hrest)
    · obtain ⟨worker, hmem, hworks⟩ := ha.pending hpending
      obtain rfl | hrest := Multiset.mem_cons.mp hmem
      · exact ⟨next, Multiset.mem_add.mpr (.inl (Multiset.mem_singleton_self _)), hw _ hworks⟩
      · exact ⟨worker, Multiset.mem_add.mpr (.inr hrest), hworks⟩
  have hhead {next : Role} : next ∈ (([next] : List Role) : Multiset Role) + rest :=
    Multiset.mem_add.mpr (.inl (Multiset.mem_singleton_self _))
  cases h with
  | keep => exact ha
  | begin => exact hothers (.inl nofun) fun _ => rfl
  | request _ _ hpending => exact ⟨fun _ => hhead, fun h => absurd (hpending.symm.trans h) nofun⟩
  | finalize => exact ⟨nofun, fun _ => ⟨_, hhead, by simp [Role.worksFor]⟩⟩
  | unasked hrequested => exact hothers (.inr hrequested) fun _ => rfl
  | lose hthrows => exact hthrows.elim
  | work => exact hgoes nofun fun _ h => h
  | take =>
    refine ⟨fun hrequested => ?_, nofun⟩
    rw [htidy.apart hrequested] at *
    contradiction
  | leave => exact hgoes nofun fun _ h => h
  | discard => exact ⟨nofun, nofun⟩
  | leaveAlone hother =>
    refine hothers (.inl nofun) fun hpending => ?_
    simpa [Role.worksFor] using fun h => hother hpending h.symm
  | resume | drop => exact hothers (.inl nofun) fun _ => rfl

theorem AwaitActs.attended {rest : Multiset Role} (h : AwaitActs a a' events roles) (htidy : a.Tidy)
    (ha : AwaitAttended a rest) : AwaitAttended a' (roles + rest) := by
  cases h with
  | aside =>
    refine ⟨fun hrequested => Multiset.mem_add.mpr (.inr (ha.requested hrequested)),
      fun hpending => ?_⟩
    obtain ⟨worker, hmem, hworks⟩ := ha.pending hpending
    exact ⟨worker, Multiset.mem_add.mpr (.inr hmem), hworks⟩
  | cancelRequested => exact ⟨nofun, nofun⟩
  | cancelPending hpending =>
    refine ⟨fun hrequested => ?_, nofun⟩
    rw [htidy.apart hrequested] at hpending
    cases hpending

/-! ### Runs -/

/-- Hooks and closures do not throw, and the pool is not stopped. -/
def closureGuard (setup : AwaitSetup) : (awaitSystem setup).Guard where
  thread _ _ choice := choice ≠ .throws
  env _ action := action ≠ .scheduler .stop

/-- The closures that the threads of a multiset hold. -/
def heldBy (ts : Multiset AwaitPoint) : Multiset Nat := (ts.map fun t => t.role.held).sum

theorem heldBy_coe (ts : List AwaitPoint) : heldBy ts = heldByThreads ts := by
  rw [heldBy, Multiset.map_coe, Multiset.sum_coe, heldByThreads]

theorem conserved_of_run {c : (awaitSystem setup).Config}
    (hrun : Run (closureGuard setup) (awaitIdle setup) c) :
    Conserved c.shared (heldByThreads c.threads) ∧
      AwaitAttended c.shared.state.await (c.threads.map AwaitPoint.role) := by
  have hadd (ts : List AwaitPoint) (rest : Multiset AwaitPoint) :
      heldBy (ts + rest) = ((ts.map AwaitPoint.role).map Role.held).sum + heldBy rest := by
    rw [heldBy, Multiset.map_add, Multiset.sum_add, Multiset.map_coe, Multiset.sum_coe, List.map_map,
      heldBy]
    rfl
  have h : Conserved c.shared (heldBy c.threads) ∧ AwaitAttended c.shared.state.await
      ((c.threads : Multiset AwaitPoint).map AwaitPoint.role) := by
    refine invariant_of_run (S := awaitSystem setup)
      (fun s ts => Conserved s (heldBy ts) ∧ AwaitAttended s.state.await (ts.map AwaitPoint.role))
      ?_ ?_ ?_ hrun
    · intro s t choice s' ts rest h hguard hstep
      obtain ⟨hconserved, hattended⟩ := h
      obtain ⟨events, hlog, hawait⟩ := awaitStep_of_awaitStep (r := (s', ts)) hstep
      have hquiet : (choice = .throws) = False := eq_false (by simpa [closureGuard] using hguard)
      rw [hquiet] at hawait
      rw [heldBy, Multiset.map_cons, Multiset.sum_cons] at hconserved
      rw [Multiset.map_cons] at hattended
      refine ⟨?_, ?_⟩
      · rw [hadd]
        exact hconserved.step hlog (hawait.tidy hconserved.tidy) (hawait.balanced hconserved.tidy)
      · rw [Multiset.map_add, Multiset.map_coe]
        exact hawait.attended hconserved.tidy hattended
    · intro s action s' ts rest h _ hact
      obtain ⟨hconserved, hattended⟩ := h
      obtain ⟨events, hlog, hawait⟩ := awaitActs_of_awaitAct (r := (s', ts)) hact
      refine ⟨?_, ?_⟩
      · rw [hadd]
        rw [← zero_add (heldBy rest)] at hconserved
        exact hconserved.step hlog (hawait.tidy hconserved.tidy) hawait.balanced
      · rw [Multiset.map_add, Multiset.map_coe]
        exact hawait.attended hconserved.tidy hattended
    · exact ⟨⟨⟨fun _ => rfl, fun _ _ => rfl, nofun⟩, rfl⟩, ⟨nofun, nofun⟩⟩
  rw [heldBy_coe, Multiset.map_coe] at h
  exact h

/-- In every state of a run the closures that were accepted are those that were invoked, those that were
destroyed and those that the slot and the threads hold; when no thread is left the slot holds none. A
call that is refused leaves the memory as it is. -/
theorem await_closures_consumed_once (setup : AwaitSetup) (c : (awaitSystem setup).Config)
    (hrun : Run (closureGuard setup) (awaitIdle setup) c) :
    acceptedClosures c.shared.log
        = invokedClosures c.shared.log + destroyedClosures c.shared.log
          + (c.shared.state.await.held + heldByThreads c.threads) ∧
      (c.threads = [] → c.shared.state.awaitWork = none ∧ c.shared.state.awaitResume = none ∧
        acceptedClosures c.shared.log
          = invokedClosures c.shared.log + destroyedClosures c.shared.log) ∧
      ∀ call, awaitSection c.shared call = c.shared ∨
        (awaitSection c.shared call).log = c.shared.log ++ [.awaited call.work call.resume] := by
  obtain ⟨⟨htidy, hbalance⟩, hattended⟩ := conserved_of_run hrun
  refine ⟨?_, fun hthreads => ?_, fun call => ?_⟩
  · rw [← add_assoc]
    exact hbalance
  · rw [hthreads] at hattended hbalance
    have hrequested : c.shared.state.await.requested = false := by
      cases h : c.shared.state.await.requested with
      | false => rfl
      | true => exact absurd (hattended.requested h) (Multiset.notMem_zero _)
    have hpending : c.shared.state.await.pending = false := by
      cases h : c.shared.state.await.pending with
      | false => rfl
      | true =>
        obtain ⟨role, hmem, -⟩ := hattended.pending h
        exact absurd hmem (Multiset.notMem_zero _)
    have hwork := htidy.work hrequested
    have hresume := htidy.resume hrequested hpending
    refine ⟨hwork, hresume, ?_⟩
    rw [hbalance, AwaitState.held, hwork, hresume]
    simp [names, heldByThreads]
  · obtain hsame | ⟨-, -, hlog, -⟩ := awaitSection_cases c.shared call
    · exact .inl hsame
    · exact .inr hlog

/-- One await in strict mode, cancelled while its work runs. -/
def cancelledAwait : List (awaitSystem ⟨⟨1, 8⟩, false⟩).Move :=
  .env (.scheduler (.setGeneration 1)) :: .env (.inline .messageInbound) :: .thread 0 (.await 0 1) ::
    List.replicate 5 (.thread 0 .proceed) ++ [.env (.scheduler .cancelAwait)]
    ++ List.replicate 5 (.thread 0 .proceed)

/-- Its work is invoked and its resume closure destroyed. -/
theorem await_closures_consumed_once_cancelled :
    ∃ c, Run (closureGuard ⟨⟨1, 8⟩, false⟩) (awaitIdle ⟨⟨1, 8⟩, false⟩) c ∧
      decide (c.threads = [] ∧ Event.worked (some 0) .ok ∈ c.shared.log ∧
        Event.destroyed (some 1) ∈ c.shared.log) = true ∧
      acceptedClosures c.shared.log
        = invokedClosures c.shared.log + destroyedClosures c.shared.log := by
  obtain ⟨c, hrun, hc⟩ := exists_run_of_execAll (closureGuard ⟨⟨1, 8⟩, false⟩) cancelledAwait
    (awaitIdle ⟨⟨1, 8⟩, false⟩)
    (fun c => decide (c.threads = [] ∧ Event.worked (some 0) .ok ∈ c.shared.log ∧
      Event.destroyed (some 1) ∈ c.shared.log)) (by decide +kernel)
  have hthreads : c.threads = [] := (of_decide_eq_true hc).1
  exact ⟨c, hrun, hc, ((await_closures_consumed_once _ c hrun).2.1 hthreads).2.2⟩

end Mudmux.Execution
