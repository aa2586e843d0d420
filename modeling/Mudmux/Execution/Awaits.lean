import Mudmux.Execution.Scheduler

/-!
# `Mudmux.Execution.Awaits`: awaits in both execution modes

`mudmux_workers_await` may be called in strict mode too. There `mudmux_execution_dispatch` invokes the
hook on the spot and then looks for a requested await itself; the work and the resume closure run on the
worker pool as in relaxed mode. `awaitSystem` adds the inline hooks to the threads of
`Mudmux.Execution.Scheduler`. In relaxed mode every hook of a slot goes through the scheduler; in strict
mode none does.

An inline hook may begin at any time, also inside another one: nothing in strict mode keeps the hooks of
a slot apart from its resume closures. `HOOK_DISCONNECT` and `HOOK_MESSAGE_OUTBOUND` run without a current
slot; they cannot await, nothing is finalized behind them, and so they are left out.
-/

set_option autoImplicit false

namespace Mudmux.Execution

open Mudmux.Comm (HookType)
open Mudmux.Lib

/-- The slot and the execution mode. -/
structure AwaitSetup where
  scheduler : Setup
  relaxed : Bool
  deriving DecidableEq, Repr

/-- The program points of both modes. -/
inductive AwaitPoint where
  | worker (t : Point)
  /-- `mudmux_execution_dispatch`: in an inline hook of the slot, perhaps in a call of
  `mudmux_workers_await`. -/
  | inline (hookType : HookType) (call : Option AwaitCall)
  /-- `mudmux_execution_dispatch`: behind the hook and its completion, before the critical section of
  `mudmux_execution_finalize_await`. -/
  | inlineReturned
  deriving DecidableEq, Repr

/-- What the environment does. -/
inductive AwaitAction where
  | scheduler (action : Action)
  | inline (hookType : HookType)
  deriving DecidableEq, Repr

/-- The executions of the other two hooks are built without a current slot. -/
def hasCurrentSlot (hookType : HookType) : Bool :=
  !(hookType = .disconnect || hookType = .messageOutbound)

/-- The action queues an execution. -/
def Action.queues : Action → Bool
  | dispatch _ _ _ | enqueue _ _ _ _ => true
  | _ => false

/-- One step of a thread. -/
def awaitStep (setup : AwaitSetup) (s : Slot) : AwaitPoint → Choice → Option (Slot × List AwaitPoint)
  | .worker t, choice => (step setup.scheduler s t choice).map fun r => (r.1, r.2.map .worker)
  | .inline _ none, .proceed => some (s, [.inlineReturned])
  | .inline hookType none, .await work resume =>
    if mayAwait hookType then some (s, [.inline hookType (beginAwait s work resume)])
    else some (s, [.inline hookType none])
  | .inline _ none, .throws => some (s, [])
  | .inline hookType (some call), .proceed => some (awaitSection s call, [.inline hookType none])
  | .inlineReturned, .proceed =>
    if s.state.awaitRequested then some ((finalizeSection s).1, (finalizeSection s).2.map .worker)
    else some (s, [])
  | _, _ => none

/-- One action. -/
def awaitAct (setup : AwaitSetup) (s : Slot) : AwaitAction → Option (Slot × List AwaitPoint)
  | .scheduler action =>
    if action.queues && !setup.relaxed then none
    else (act setup.scheduler s action).map fun r => (r.1, r.2.map .worker)
  | .inline hookType =>
    if setup.relaxed || !hasCurrentSlot hookType then none else some (s, [.inline hookType none])

/-- The awaits of a slot. -/
abbrev awaitSystem (setup : AwaitSetup) : ThreadSystem where
  Shared := Slot
  Thread := AwaitPoint
  Choice := Choice
  Action := AwaitAction
  step := awaitStep setup
  act := awaitAct setup

/-- No thread is under way and nothing has happened on the slot. -/
def awaitIdle (setup : AwaitSetup) : (awaitSystem setup).Config := ⟨{}, []⟩

end Mudmux.Execution
