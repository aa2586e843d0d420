import Mudmux.Comm.Abstract
import Mudmux.Lib.Threads

/-!
# `Mudmux.Execution.Scheduler`: the per-slot scheduler of relaxed mode

`src/execution.cpp` for one slot. Every function that takes the slot's lock is cut into its critical
sections, and a thread is a program point between two of them, so all interleavings are runs of the
system. A task in the worker pool is a thread that has not been started; the pool may start its tasks
in any order.

The code for a slot looks at `slot_states[slot]` and at the generation of that slot only. What other
slots and the event loop do to it are actions of the environment: dispatches, `cancel_await`, and
connections that come and go. A dispatch made by a hook is a thread of its own, which need not end
before the hook does; the runs of the code are among those.

Hooks without a slot (`HOOK_TIMER`, `HOOK_GARBAGE_COLLECTION`) run inline and direct events have a
scheduler of their own; neither is on this path. What a stopping pool does to the slot is in the
branches where `submit` fails; `mudmux_workers_stop` also clears the slot states when its workers have
ended, which is left out.

The memory also keeps what is observed: executions accepted and answers given, and a log of turns and
closures. No step looks at these. An execution has an identity, the number of its dispatch, so that
equal calls can be told apart.
-/

set_option autoImplicit false

namespace Mudmux.Execution

open Mudmux.Comm (HookType DispatchResult)
open Mudmux.Lib

/-! ### Data -/

/-- What the scheduler looks at in a `mudmux_execution` of a registered hook. -/
structure HookExecution where
  id : Nat
  hookType : HookType
  message : Int
  currentSlot : Int := -1
  deriving DecidableEq, Repr

/-- `slot_execution_t`. -/
structure SlotExecution where
  execution : HookExecution
  generation : Nat
  deriving DecidableEq, Repr

/-- An `async_closure_t`, told apart by a number; an empty one is `none`. -/
abbrev Closure := Option Nat

/-- The message of an await's resume closure. -/
inductive ClosureMessage where
  | ok
  | failed
  deriving DecidableEq, Repr

/-- `slot_execution_state_t`. -/
structure SlotExecutionState where
  active : Bool := false
  pending : List SlotExecution := []
  awaitRequested : Bool := false
  awaitPending : Bool := false
  awaitGeneration : Nat := 0
  awaitWork : Closure := none
  awaitResume : Closure := none
  deriving DecidableEq, Repr

/-- What is observed of turns and closures. -/
inductive Event where
  /-- A worker begins a task and finds the slot in this generation. -/
  | turn (task : SlotExecution) (generation : Nat)
  | hook (task : SlotExecution)
  /-- The hook has returned, and the worker finds the slot in this generation. -/
  | returned (task : SlotExecution) (generation : Nat)
  | completion (task : SlotExecution)
  | awaited (work resume : Closure)
  | worked (work : Closure) (message : ClosureMessage)
  | resumed (resume : Closure) (message : ClosureMessage)
  | destroyed (closure : Closure)
  deriving DecidableEq, Repr

/-- The memory of a slot, with the state of the pool. `generation` is `comm_abstract_generation`, zero
without a connection; `running` is the flag of the same name, and `accepting` is whether the pool's
`submit` succeeds. -/
structure Slot where
  state : SlotExecutionState := {}
  generation : Nat := 0
  running : Bool := true
  accepting : Bool := true
  dispatches : Nat := 0
  accepted : List SlotExecution := []
  answers : List (HookExecution × DispatchResult) := []
  log : List Event := []
  deriving DecidableEq, Repr

/-- An await that has read the generation and is about to take the lock. -/
structure AwaitCall where
  generation : Nat
  work : Closure
  resume : Closure
  deriving DecidableEq, Repr

/-- What is submitted to the worker pool for a slot. -/
inductive Job where
  | execution (task : SlotExecution)
  | awaitWork (generation : Nat) (work : Closure)
  | awaitResume (generation : Nat) (resume : Closure) (message : ClosureMessage)
  deriving DecidableEq, Repr

/-- The program points of the threads. -/
inductive Point where
  /-- `mudmux_execution_enqueue`: before it reads the generation. -/
  | enqueue (execution : HookExecution) (allowPending : Bool)
  /-- `mudmux_execution_enqueue`: before its critical section. -/
  | enqueueLock (task : SlotExecution) (allowPending : Bool)
  /-- `mudmux_execution_enqueue`: the slot is active, before the task is submitted. -/
  | enqueueSubmit (task : SlotExecution)
  /-- In the queue of the worker pool. -/
  | pooled (job : Job)
  /-- `run_slot_execution`: before the first look at the generation. -/
  | runExecution (task : SlotExecution)
  /-- `run_slot_execution`: in the hook, perhaps in a call of `mudmux_workers_await`. -/
  | hook (task : SlotExecution) (call : Option AwaitCall)
  /-- `run_slot_execution`: the hook has returned, before the second look at the generation. -/
  | hookReturned (task : SlotExecution)
  /-- `run_slot_execution`: in the completion. -/
  | completion (task : SlotExecution)
  /-- Before the critical section of `mudmux_execution_finalize_await`, whose caller goes on to
  `finish_slot_execution`. -/
  | finalizeAwait
  /-- `mudmux_execution_finalize_await`: before the work is submitted. -/
  | submitWork (generation : Nat) (work : Closure)
  /-- `run_slot_await_work`: in the work closure. -/
  | awaitWork (generation : Nat) (work : Closure)
  /-- `run_slot_await_work`: before it reads the generation. -/
  | worked (generation : Nat) (message : ClosureMessage)
  /-- `run_slot_await_work`: before its critical section. -/
  | takeResume (generation : Nat) (message : ClosureMessage) (generationMatches : Bool)
  /-- `run_slot_await_work`: before the resume closure is submitted. -/
  | submitResume (generation : Nat) (resume : Closure) (message : ClosureMessage)
  /-- Before the critical section of `discard_slot_await`. -/
  | discardAwait (generation : Nat)
  /-- `run_slot_await_resume`: before the look at the generation. -/
  | awaitResume (generation : Nat) (resume : Closure) (message : ClosureMessage)
  /-- `run_slot_await_resume`: in the resume closure, perhaps in a call of
  `mudmux_workers_await`. -/
  | resume (call : Option AwaitCall)
  /-- Before the critical section of `finish_slot_execution`. -/
  | finish
  /-- `finish_slot_execution`: before the next task is submitted. -/
  | submitNext (task : SlotExecution)
  deriving DecidableEq, Repr

/-- What foreign code does next, where a point is in foreign code: it returns, it calls
`mudmux_workers_await`, or it throws. Elsewhere the thread just proceeds. -/
inductive Choice where
  | proceed
  | await (work resume : Nat)
  | throws
  deriving DecidableEq, Repr

/-- The slot number and the configured backlog capacity. -/
structure Setup where
  slot : Nat
  backlogCapacity : Nat
  deriving DecidableEq, Repr

/-! ### Critical sections -/

/-- The memory with an event in the log. -/
def Slot.note (s : Slot) (events : List Event) : Slot := { s with log := s.log ++ events }

/-- The memory with an answer of `mudmux_execution_enqueue`. -/
def Slot.answer (s : Slot) (execution : HookExecution) (result : DispatchResult) : Slot :=
  { s with answers := s.answers ++ [(execution, result)] }

/-- `clear_slot_await`. -/
def clearSlotAwait (state : SlotExecutionState) : SlotExecutionState :=
  { state with
      awaitWork := none
      awaitResume := none
      awaitRequested := false
      awaitPending := false
      awaitGeneration := 0 }

/-- The destruction of closures; an empty one is not destroyed. -/
def destroyClosures (closures : List Closure) : List Event :=
  (closures.filter Option.isSome).map .destroyed

/-- `mudmux_execution_enqueue` with the slot's lock: refuse, queue, or take the slot. -/
def enqueueSection (backlogCapacity : Nat) (s : Slot) (task : SlotExecution) (allowPending : Bool) :
    Slot × List Point :=
  if s.state.active then
    if !allowPending || backlogCapacity ≤ s.state.pending.length then
      (s.answer task.execution .queueFull, [])
    else
      let s := { s with
        state := { s.state with pending := s.state.pending ++ [task] }
        accepted := s.accepted ++ [task] }
      (s.answer task.execution .queued, [])
  else
    ({ s with state := { s.state with active := true }, accepted := s.accepted ++ [task] },
      [.enqueueSubmit task])

/-- `mudmux_workers_await` with the slot's lock. A refused call leaves its closures to the caller. -/
def awaitSection (s : Slot) (call : AwaitCall) : Slot :=
  if s.state.awaitRequested || s.state.awaitPending then s
  else
    let s := { s with
      state := { s.state with
        awaitRequested := true
        awaitGeneration := call.generation
        awaitWork := call.work
        awaitResume := call.resume } }
    s.note [.awaited call.work call.resume]

/-- `mudmux_execution_finalize_await` with the slot's lock. -/
def finalizeSection (s : Slot) : Slot × List Point :=
  if s.state.awaitRequested then
    ({ s with
        state := { s.state with
          awaitRequested := false
          awaitPending := true
          active := true
          awaitWork := none } },
      [.submitWork s.state.awaitGeneration s.state.awaitWork])
  else (s, [.finish])

/-- `run_slot_await_work` with the slot's lock: take the resume closure, or go on to
`discard_slot_await`. -/
def takeResumeSection (s : Slot) (generation : Nat) (message : ClosureMessage)
    (generationMatches : Bool) : Slot × List Point :=
  if s.state.awaitPending && s.state.awaitGeneration = generation && generationMatches then
    ({ s with
        state := { s.state with awaitResume := none, awaitPending := false, awaitGeneration := 0 } },
      [.submitResume generation s.state.awaitResume message])
  else (s, [.discardAwait generation])

/-- `discard_slot_await` with the slot's lock. -/
def discardSection (s : Slot) (generation : Nat) : Slot × List Point :=
  if (s.state.awaitRequested || s.state.awaitPending) && s.state.awaitGeneration = generation then
    (Slot.note { s with state := clearSlotAwait s.state }
      (destroyClosures [s.state.awaitWork, s.state.awaitResume]), [.finish])
  else (s, [])

/-- `finish_slot_execution` with the slot's lock: the next task, or the slot is free. -/
def finishSection (s : Slot) : Slot × List Point :=
  match s.state.pending with
  | next :: rest => ({ s with state := { s.state with pending := rest } }, [.submitNext next])
  | [] => ({ s with state := { s.state with active := false } }, [])

/-- `mudmux_execution_cancel_await`. -/
def mudmuxExecutionCancelAwait (s : Slot) : Slot × List Point :=
  if s.state.awaitRequested then
    (Slot.note { s with state := clearSlotAwait s.state }
      (destroyClosures [s.state.awaitWork, s.state.awaitResume]), [])
  else if s.state.awaitPending then
    (Slot.note
      { s with
          state := { s.state with awaitResume := none, awaitPending := false, awaitGeneration := 0 } }
      (destroyClosures [s.state.awaitResume]), [.finish])
  else (s, [])

/-- `mudmux_execution_slot_busy`. -/
def mudmuxExecutionSlotBusy (state : SlotExecutionState) : Bool :=
  state.active || state.awaitRequested || state.awaitPending

/-! ### Threads -/

/-- The hooks in which `mudmux_workers_await` is allowed, the resume closures of an await apart. -/
def mayAwait (hookType : HookType) : Bool :=
  hookType = .transportReady || hookType = .messageInbound || hookType = .telnetSubneg

/-- The hooks that carry input of the transport parsers and never wait in the queue. -/
def isInputHook (hookType : HookType) : Bool :=
  hookType = .messageInbound || hookType = .telnetSubneg

/-- `mudmux_workers_await` up to its critical section, called on the slot. -/
def beginAwait (s : Slot) (work resume : Nat) : Option AwaitCall :=
  if s.running && s.generation ≠ 0 then some ⟨s.generation, some work, some resume⟩ else none

/-- A job as a worker starts it. -/
def Job.start : Job → Point
  | execution task => .runExecution task
  | awaitWork generation work => .awaitWork generation work
  | awaitResume generation resume message => .awaitResume generation resume message

/-- One step of a thread. -/
def step (setup : Setup) (s : Slot) : Point → Choice → Option (Slot × List Point)
  | .enqueue execution allowPending, .proceed =>
    if s.running then
      let allowPending := allowPending && !isInputHook execution.hookType
      some (s, [.enqueueLock ⟨execution, s.generation⟩ allowPending])
    else some (s.answer execution .error, [])
  | .enqueueLock task allowPending, .proceed =>
    some (enqueueSection setup.backlogCapacity s task allowPending)
  | .enqueueSubmit task, .proceed =>
    if s.accepting then some (s.answer task.execution .queued, [.pooled (.execution task)])
    else some (s.answer task.execution .error, [.finish])
  | .pooled job, .proceed => some (s, [job.start])
  | .runExecution task, .proceed =>
    if s.generation = task.generation then
      some (s.note [.turn task s.generation, .hook task], [.hook task none])
    else some (s.note [.turn task s.generation], [.finalizeAwait])
  | .hook task none, .proceed => some (s, [.hookReturned task])
  | .hook task none, .await work resume =>
    if mayAwait task.execution.hookType && task.execution.currentSlot = setup.slot then
      some (s, [.hook task (beginAwait s work resume)])
    else some (s, [.hook task none])
  | .hook _ none, .throws => some (s, [])
  | .hook task (some call), .proceed => some (awaitSection s call, [.hook task none])
  | .hookReturned task, .proceed =>
    if s.generation = task.generation then
      some (s.note [.returned task s.generation, .completion task], [.completion task])
    else some (s.note [.returned task s.generation], [.finalizeAwait])
  | .completion _, .proceed => some (s, [.finalizeAwait])
  | .completion _, .throws => some (s, [])
  | .finalizeAwait, .proceed => some (finalizeSection s)
  | .submitWork generation work, .proceed =>
    if s.accepting then some (s, [.pooled (.awaitWork generation work)])
    else some (s, [.awaitWork generation work])
  | .awaitWork generation work, .proceed =>
    some (s.note [.worked work .ok], [.worked generation .ok])
  | .awaitWork generation work, .throws =>
    some (s.note [.worked work .failed], [.worked generation .failed])
  | .worked generation message, .proceed =>
    some (s, [.takeResume generation message (s.generation = generation)])
  | .takeResume generation message generationMatches, .proceed =>
    some (takeResumeSection s generation message generationMatches)
  | .submitResume generation resume message, .proceed =>
    if s.accepting then some (s, [.pooled (.awaitResume generation resume message)])
    else some (s, [.awaitResume generation resume message])
  | .discardAwait generation, .proceed => some (discardSection s generation)
  | .awaitResume generation resume message, .proceed =>
    if s.generation = generation then
      some (s.note [.resumed resume message], [.resume none])
    else some (s.note (destroyClosures [resume]), [.finalizeAwait])
  | .resume none, .proceed => some (s, [.finalizeAwait])
  | .resume none, .await work resume => some (s, [.resume (beginAwait s work resume)])
  | .resume none, .throws => some (s, [.finalizeAwait]) -- `invoke_closure_safely`
  | .resume (some call), .proceed => some (awaitSection s call, [.resume none])
  | .finish, .proceed => some (finishSection s)
  | .submitNext task, .proceed =>
    if s.accepting then some (s, [.pooled (.execution task)])
    else some ({ s with state := { s.state with pending := [], active := false } }, [])
  | _, _ => none

/-! ### The environment -/

/-- What the environment does to a slot. -/
inductive Action where
  /-- A call of `mudmux_execution_dispatch` in relaxed mode, on any thread. -/
  | dispatch (hookType : HookType) (message currentSlot : Int)
  /-- A call of `mudmux_execution_enqueue` with this slot as its queue slot. -/
  | enqueue (hookType : HookType) (message currentSlot : Int) (allowPending : Bool)
  | cancelAwait
  /-- The connection of the slot is removed or replaced. -/
  | setGeneration (generation : Nat)
  /-- `mudmux_workers_stop` begins. -/
  | stop
  deriving DecidableEq, Repr

/-- `mudmux_execution_dispatch` of a registered hook up to `mudmux_execution_enqueue`: the execution
with its current slot, whether it may wait, and the slot it is queued on. -/
def mudmuxExecutionDispatch (execution : HookExecution) : HookExecution × Bool × Int :=
  let current :=
    if execution.hookType = .messageOutbound ∧ execution.currentSlot < 0 then execution.message
    else execution.currentSlot
  let execution := { execution with currentSlot := current }
  (execution, !isInputHook execution.hookType,
    if execution.hookType = .telnetSubneg then execution.currentSlot else execution.message)

/-- One action. A dispatch to another slot does nothing here. -/
def act (setup : Setup) (s : Slot) : Action → Option (Slot × List Point)
  | .dispatch hookType message currentSlot =>
    let r := mudmuxExecutionDispatch ⟨s.dispatches, hookType, message, currentSlot⟩
    let s := { s with dispatches := s.dispatches + 1 }
    if r.2.2 < 0 then some (s.answer r.1 .error, [])
    else if r.2.2 = setup.slot then some (s, [.enqueue r.1 r.2.1])
    else some (s, [])
  | .enqueue hookType message currentSlot allowPending =>
    some ({ s with dispatches := s.dispatches + 1 },
      [.enqueue ⟨s.dispatches, hookType, message, currentSlot⟩ allowPending])
  | .cancelAwait => some (mudmuxExecutionCancelAwait s)
  | .setGeneration generation => some ({ s with generation }, [])
  | .stop => some ({ s with running := false, accepting := false }, [])

/-- The scheduler of a slot. -/
abbrev scheduler (setup : Setup) : ThreadSystem where
  Shared := Slot
  Thread := Point
  Choice := Choice
  Action := Action
  step := step setup
  act := act setup

/-- No thread is under way and nothing has happened on the slot. -/
def idle (setup : Setup) : (scheduler setup).Config := ⟨{}, []⟩

end Mudmux.Execution
