import Mudmux.Comm.Machine
import Mudmux.Execution.Scheduler

/-!
# `Mudmux.Server.Machine`: a slot together with its scheduler

`Mudmux.Comm.Machine` leaves open what the scheduler does with a slot's hooks, and
`Mudmux.Execution.Scheduler` what the slot does meanwhile. Here they are one system. The code of the slot
is what it is there, under the lock of the slot table from its beginning to its end; a hook that it
queues goes to the scheduler's memory, and the scheduler says whether the slot is busy. A worker's
completion is code of the slot, run when its thread has come to that point.

The threads of the scheduler need the lock of the slot table only to look at the generation. They go on
while another thread holds it: in front of every effect of the slot's code they may take any number of
steps (`Move`). This allows more than the lock does, since they see the generation at any time.
`comm_add_message` queues `HOOK_MESSAGE_OUTBOUND` without that lock, so it is one of the moves.

The worker pool is running, so an accepted hook is submitted. In strict mode there are no threads, and
the answer of `mudmux_execution_slot_busy` is left open as in `Mudmux.Comm.Machine`.

The closures of an await are destroyed when `comm_close` cancels it, with the lock held. `closuresCall`
says whether they make public calls then.

As in the other machines an observer takes notes that no code sees, here of the events in the life of a
connection and its hooks.
-/

set_option autoImplicit false

namespace Mudmux.Server

open Mudmux.Lib
open Mudmux.Comm (CommAbstract HookCall HookType DispatchResult SlotEffect Code)
open Mudmux.Execution (Point SlotExecution HookExecution SlotExecutionState Choice)

/-- What is fixed for a slot number. -/
structure Setup where
  comm : Comm.Setup
  scheduler : Execution.Setup
  /-- The closures of an await may make public calls when they are destroyed. -/
  closuresCall : Bool

/-- What is observed of a connection and its hooks. -/
inductive Event where
  | connected
  | removed
  /-- The scheduler accepts a hook that the slot's code dispatches. -/
  | accepted (hook : HookType)
  | begun (hook : HookType)
  | returned (hook : HookType)
  deriving DecidableEq, Repr

/-- How notes are taken. -/
abbrev Observer (γ : Type) := Event → γ → γ

/-- The record of the slot, the scheduler's memory and its threads, and the notes. -/
structure State (γ : Type) where
  comm : CommAbstract
  scheduler : Execution.Slot
  threads : List Point
  notes : γ

namespace State

variable {γ : Type}

/-- The notes behind some events. -/
def note (observe : Observer γ) (events : List Event) (s : State γ) : State γ :=
  { s with notes := events.foldl (fun notes event => observe event notes) s.notes }

/-- The scheduler's part of the state. -/
def threading (setup : Setup) (s : State γ) : (Execution.scheduler setup.scheduler).Config :=
  ⟨s.scheduler, s.threads⟩

/-- The state with the scheduler's part moved on. -/
def withThreading (setup : Setup) (s : State γ)
    (c : (Execution.scheduler setup.scheduler).Config) : State γ :=
  { s with scheduler := c.shared, threads := c.threads }

end State

/-! ### Moves of the threads -/

/-- What happens without the lock of the slot table. -/
inductive Move where
  | thread (index : Nat) (choice : Choice)
  /-- `comm_add_message` for the slot, on any thread. -/
  | outbound
  deriving DecidableEq, Repr

/-- What is observed of a thread's step. -/
def pointEvents (generation : Nat) : Point → Choice → List Event
  | .runExecution task, _ =>
    if generation = task.generation then [.begun task.execution.hookType] else []
  | .hook task none, .proceed => [.returned task.execution.hookType]
  | _, _ => []

/-- A thread whose next step is a completion needs the lock. -/
def needsLock : Point → Bool
  | .completion _ => true
  | _ => false

variable {γ : Type}

/-- One move, if it is possible. -/
def State.move (setup : Setup) (observe : Observer γ) (s : State γ) : Move → Option (State γ)
  | .thread index choice =>
    match s.threads[index]? with
    | none => none
    | some t =>
      if needsLock t then none
      else
        (ThreadSystem.exec (s.threading setup) (.thread index choice)).map fun c =>
          (s.withThreading setup c).note observe (pointEvents s.scheduler.generation t choice)
  | .outbound =>
    if setup.comm.relaxed then
      (ThreadSystem.exec (s.threading setup)
        (.env (.dispatch .messageOutbound setup.scheduler.slot (-1)))).map (s.withThreading setup)
    else none

/-- Several moves. -/
def State.moves (setup : Setup) (observe : Observer γ) : State γ → List Move → Option (State γ)
  | s, [] => some s
  | s, m :: ms => (s.move setup observe m).bind fun s' => State.moves setup observe s' ms

/-- The completion of a task has run, and its thread goes on. -/
def State.completed (setup : Setup) (s : State γ) (task : SlotExecution) : Option (State γ) :=
  (s.threads.idxOf? (.completion task)).bind fun index =>
    (ThreadSystem.exec (s.threading setup) (.thread index .proceed)).map (s.withThreading setup)

/-! ### Effects of the slot's code -/

/-- The execution that the code builds for a hook call. The disconnect and the outbound hook are built
without a current slot, and a subnegotiation has its option for a message. -/
def hookExecution (slot id : Nat) (call : HookCall) : HookExecution :=
  { id
    hookType := call.hookType
    message :=
      match call with
      | .telnetSubneg option _ => option.toNat
      | _ => slot
    currentSlot :=
      match call with
      | .disconnect | .messageOutbound _ => -1
      | _ => slot }

/-- The answer of `mudmux_execution_enqueue`, with the worker pool running. -/
def enqueueAnswer (backlogCapacity : Nat) (state : SlotExecutionState) (allowPending : Bool) :
    DispatchResult :=
  if state.active && (!allowPending || backlogCapacity ≤ state.pending.length) then .queueFull
  else .queued

/-- `mudmux_execution_dispatch` of a hook in relaxed mode. A task that takes the slot is submitted by
a thread of its own. -/
def State.dispatch (setup : Setup) (s : State γ) (call : HookCall) : DispatchResult × State γ :=
  let r := Execution.mudmuxExecutionDispatch
    (hookExecution setup.scheduler.slot s.scheduler.dispatches call)
  let task : SlotExecution := ⟨r.1, s.scheduler.generation⟩
  let q := Execution.enqueueSection setup.scheduler.backlogCapacity
    { s.scheduler with dispatches := s.scheduler.dispatches + 1 } task r.2.1
  (enqueueAnswer setup.scheduler.backlogCapacity s.scheduler.state r.2.1,
    { s with scheduler := q.1, threads := s.threads ++ q.2 })

/-- What is observed of an effect on the record. -/
def effectEvents (comm : CommAbstract) : {β : Type} → SlotEffect β → List Event
  | _, .beginHook call => [.begun call.hookType]
  | _, .runHook call => [.returned call.hookType]
  | _, .remove => if comm.live then [.removed] else []
  | _, .addBio _ _ _ _ => [.connected]
  | _, _ => []

/-- The state with another record. The scheduler sees its generation. -/
def State.withComm (s : State γ) (comm : CommAbstract) : State γ :=
  { s with
      comm
      scheduler := { s.scheduler with generation := Comm.commAbstractGeneration comm } }

/-- An effect of the slot's code. -/
def State.effect (setup : Setup) (observe : Observer γ) (s : State γ) :
    {β : Type} → SlotEffect β → Comm.Answer → Option (β × State γ)
  | _, .enqueue call _, _ =>
    let r := s.dispatch setup call
    some (r.1, r.2.note observe (if r.1 = .queued then [.accepted call.hookType] else []))
  | _, .slotBusy, a =>
    match a with
    | .bool busy =>
      if setup.comm.relaxed && busy ≠ Execution.mudmuxExecutionSlotBusy s.scheduler.state then none
      else some (busy, s)
    | _ => none
  | _, .cancelAwait, _ =>
    let r := Execution.mudmuxExecutionCancelAwait s.scheduler
    some ((), { s with scheduler := r.1, threads := s.threads ++ r.2 })
  | _, e, a =>
    (Comm.slotExec e a s.comm).map fun r =>
      (r.1, (s.withComm r.2).note observe (effectEvents s.comm e))

/-! ### The system -/

/-- What a worker does besides the code of the slot. -/
inductive WorkerEffect : Type → Type where
  /-- Nothing but moves of the threads. -/
  | idle : WorkerEffect Unit
  | completed (task : SlotExecution) : WorkerEffect Unit

/-- What the code of the system does. -/
inductive Effect (β : Type) where
  | slot (e : SlotEffect β)
  | worker (e : WorkerEffect β)

/-- The moves in front of an effect, and what the outside answers to it. -/
structure Answer where
  moves : List Move := []
  slot : Comm.Answer := .unit
  deriving DecidableEq, Repr

/-- Whatever starts code. -/
inductive Entry where
  | slot (x : Comm.Entry)
  | worker
  /-- A worker runs the completion of its task. -/
  | complete (task : SlotExecution)
  deriving DecidableEq, Repr

/-- The code of the slot in the system. -/
def onSlot {α : Type} (p : Code α) : Program Effect α := p.mapEffects .slot

/-- One effect behind the moves. -/
def exec (setup : Setup) (observe : Observer γ) (s : State γ) :
    {β : Type} → Effect β → Comm.Answer → Option (β × State γ)
  | _, .slot e, a => s.effect setup observe e a
  | _, .worker .idle, _ => some ((), s)
  | _, .worker (.completed task), _ => (s.completed setup task).map fun s' => ((), s')

/-- The calls among the effects. -/
def unfold (setup : Setup) : {β : Type} → Effect β → Option (Program Effect β)
  | _, .slot e => (Comm.unfold setup.comm e).map onSlot
  | _, .worker _ => none

/-- The effects during which foreign code runs. -/
def reentrant (setup : Setup) : {β : Type} → Effect β → Bool
  | _, .slot .cancelAwait => setup.closuresCall
  | _, .slot e => Comm.reentrant e
  | _, .worker _ => false

/-- The code of an entry. -/
def entryCode (setup : Setup) : Entry → Program Effect Unit
  | .slot x => onSlot (Comm.entryCode setup.comm x)
  | .worker => Program.effect (.worker .idle)
  | .complete task => do
    onSlot (Comm.runCompletion task.execution.hookType.completion)
    Program.effect (.worker (.completed task))

/-- Tasks are the threads' business here. A connection is accepted with no flag set. -/
def entryEnabled (setup : Setup) (s : State γ) : Entry → Bool
  | .slot (.startTask _) | .slot (.completeTask _) => false
  | .slot (.accept flags) => flags = {}
  | .slot (.consoleEof _) => setup.comm.console
  | .complete task => .completion task ∈ s.threads
  | _ => true

/-- The life of a slot number with its scheduler. -/
abbrev system (setup : Setup) (observe : Observer γ) : CallbackSystem Effect where
  State := State γ
  Answer := Answer
  Entry := Entry
  exec e a s := (s.moves setup observe a.moves).bind fun s' => exec setup observe s' e a.slot
  unfold e := unfold setup e
  reentrant e := reentrant setup e
  code x := entryCode setup x
  enabled s x := entryEnabled setup s x
  foreign
    | .slot (.api _ _) => true
    | _ => false

/-! ### Conditions on the steps -/

/-- A condition on the entries, on every move of a thread, and on the effects of the slot's code, each
in the state before it. -/
structure StepGuard (γ : Type) where
  entry : State γ → Entry → Bool
  move : State γ → Move → Bool
  effect : {β : Type} → State γ → SlotEffect β → Bool

/-- Every move meets the condition. -/
def StepGuard.allows (setup : Setup) (observe : Observer γ) (g : StepGuard γ) :
    State γ → List Move → Bool
  | _, [] => true
  | s, m :: ms =>
    g.move s m &&
      match s.move setup observe m with
      | none => true
      | some s' => StepGuard.allows setup observe g s' ms

/-- The condition as a guard of the system. -/
def StepGuard.guard (setup : Setup) (observe : Observer γ) (g : StepGuard γ) :
    (system setup observe).Guard where
  entry := g.entry
  effect s e a :=
    g.allows setup observe s a.moves &&
      match s.moves setup observe a.moves, e with
      | some s', .slot e => g.effect s' e
      | _, _ => true

/-- At rest, with a slot number that has had no connection yet. -/
def freeSlot (setup : Setup) (observe : Observer γ) (notes : γ) : (system setup observe).Config :=
  ⟨⟨{}, {}, [], notes⟩, .done ()⟩

end Mudmux.Server
