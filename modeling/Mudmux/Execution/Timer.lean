import Mudmux.Comm.Abstract
import Mudmux.Lib.Threads

/-!
# `Mudmux.Execution.Timer`: timer flags

`mudmux_trigger_timer` and the part of `mudmux_run` that answers it. A producer publishes its bits in
`timer_pending_flags` and then sets the timer's event. The event loop sees that the event is ready,
resets it, marks the registration and tries to dispatch: it resets the event again, takes the whole mask
and hands it to `HOOK_TIMER` as a timely event. While an earlier callback is in flight the registration
stays marked, and every round of the loop tries again.

Producers and the callbacks on the worker pool are threads. There is one event loop; where it is in its
code is part of the state, and its steps are actions. The steps are those between which another thread
can be seen: the atomic operations on the mask, the critical sections of the event and of
`mudmux_execution_dispatch`. The event is a manual reset event, so waiting for it does not consume it.
The operations on the mask and the event are ordered as the code writes them, as its release and acquire
operations and the event's mutex make sure.

A mask that was taken is known by where that stands in the log. No step looks at the log or the answers.
-/

set_option autoImplicit false

namespace Mudmux.Execution

open Mudmux.Comm (DispatchResult)
open Mudmux.Lib

/-- Where the event loop is. `last` is the round behind the events, in which every registration is
tried. -/
inductive LoopPoint where
  /-- In `async_runtime_wait`, or with the events of others. -/
  | wait
  /-- `mudmux_run`: the timer's event is ready, before it is reset. -/
  | ready
  /-- `dispatch_registered_event`: before it asks whether the registration is busy. -/
  | testBusy (last : Bool)
  /-- `dispatch_registered_event`: before the event is reset. -/
  | acknowledge (last : Bool)
  /-- `dispatch_registered_event`: before the mask is taken. -/
  | take (last : Bool)
  /-- `dispatch_registered_event`: before the admission of the mask that was taken at `taken`. -/
  | dispatch (taken mask : Nat) (last : Bool)
  /-- `dispatch_registered_event`: the mask was refused, before it is put back. -/
  | restore (taken mask : Nat) (last : Bool)
  /-- In the callback, on the spot. -/
  | callback (mask : Nat) (last : Bool)
  deriving DecidableEq, Repr

/-- What is observed of the mask. -/
inductive TimerNote where
  | published (flags : Nat)
  | taken (mask : Nat)
  /-- The mask that was taken at this place of the log is dispatched. -/
  | dispatched (taken mask : Nat)
  deriving DecidableEq, Repr

/-- `timer_pending_flags`, whether the event is signalled, `registration.pending` and whether the
registration is in flight; whether `HOOK_TIMER` is registered and the workers are running. -/
structure TimerState where
  flags : Nat := 0
  signaled : Bool := false
  pending : Bool := false
  inFlight : Bool := false
  hook : Bool := true
  running : Bool := true
  loop : LoopPoint := .wait
  log : List TimerNote := []
  answers : List (Nat × DispatchResult) := []
  deriving DecidableEq, Repr

/-- The program points of the threads. -/
inductive TimerPoint where
  /-- `mudmux_trigger_timer`: before the event is set. -/
  | signal
  /-- A callback on the worker pool, before its registration is released. -/
  | callback
  deriving DecidableEq, Repr

/-- What the event loop finds: whether the wait reports the timer's event, and whether a callback on the
spot returns a negative value. -/
structure LoopChoice where
  ready : Bool := false
  negative : Bool := false
  deriving DecidableEq, Repr

inductive TimerAction where
  | trigger (flags : Nat)
  | loop (choice : LoopChoice)
  | setHook (hook : Bool)
  | setRunning (running : Bool)
  deriving DecidableEq, Repr

/-- The largest `int`. -/
def timerFlagsMax : Nat := 2 ^ 31 - 1

namespace TimerState

def observe (s : TimerState) (note : TimerNote) : TimerState := { s with log := s.log ++ [note] }

def answer (s : TimerState) (mask : Nat) (result : DispatchResult) : TimerState :=
  { s with answers := s.answers ++ [(mask, result)] }

/-- `mudmux_trigger_timer` up to the publication. -/
def triggerTimer (s : TimerState) (flags : Nat) : TimerState × List TimerPoint :=
  if flags = 0 ∨ flags > timerFlagsMax then (s, [])
  else (({ s with flags := s.flags ||| flags }).observe (.published flags), [.signal])

/-- Behind a call of `dispatch_registered_event`. -/
def leave (s : TimerState) (last : Bool) : TimerState :=
  { s with loop := if last then .wait else .testBusy true }

/-- `mudmux_execution_dispatch` for the mask, with `MUDMUX_EXECUTION_TIMELY_EVENT`. -/
def dispatchTimer (strict : Bool) (s : TimerState) (taken mask : Nat) (last : Bool) :
    TimerState × List TimerPoint :=
  if !s.running then ((s.answer mask .error).leave last, [])
  else if s.inFlight then
    ({ s.answer mask .queueFull with pending := true, loop := .restore taken mask last }, [])
  else if strict then
    (({ s with inFlight := true, loop := .callback mask last }).observe (.dispatched taken mask), [])
  else
    ((({ s with inFlight := true }).observe (.dispatched taken mask)).answer mask .queued |>.leave last,
      [.callback])

/-- One step of the event loop. -/
def loopStep (strict : Bool) (s : TimerState) (choice : LoopChoice) :
    Option (TimerState × List TimerPoint) :=
  match s.loop with
  | .wait =>
    -- only a signalled event is reported
    if choice.ready then if s.signaled then some ({ s with loop := .ready }, []) else none
    else some ({ s with loop := .testBusy true }, [])
  | .ready => some ({ s with signaled := false, pending := true, loop := .testBusy false }, [])
  | .testBusy last =>
    if !s.pending || s.inFlight then some (s.leave last, [])
    else if s.hook then some ({ s with pending := false, loop := .acknowledge last }, [])
    else some (({ s with pending := false }).leave last, [])
  | .acknowledge last => some ({ s with signaled := false, loop := .take last }, [])
  | .take last =>
    let s' := ({ s with flags := 0 }).observe (.taken s.flags)
    if s.flags = 0 then some (s'.leave last, [])
    else some ({ s' with loop := .dispatch s.log.length s.flags last }, [])
  | .dispatch taken mask last => some (s.dispatchTimer strict taken mask last)
  | .restore _ mask last => some (({ s with flags := s.flags ||| mask }).leave last, [])
  | .callback mask last =>
    some (({ s with inFlight := false }).answer mask (if choice.negative then .error else .ok)
      |>.leave last, [])

end TimerState

/-- One step of a thread. -/
def timerStep (s : TimerState) : TimerPoint → Unit → Option (TimerState × List TimerPoint)
  | .signal, _ => some ({ s with signaled := true }, [])
  | .callback, _ => some ({ s with inFlight := false }, [])

/-- One action. -/
def timerAct (strict : Bool) (s : TimerState) : TimerAction → Option (TimerState × List TimerPoint)
  | .trigger flags => some (s.triggerTimer flags)
  | .loop choice => s.loopStep strict choice
  | .setHook hook => some ({ s with hook := hook }, [])
  | .setRunning running => some ({ s with running := running }, [])

/-- Timers, in strict or relaxed mode. -/
abbrev timerSystem (strict : Bool) : ThreadSystem where
  Shared := TimerState
  Thread := TimerPoint
  Choice := Unit
  Action := TimerAction
  step := timerStep
  act := timerAct strict

/-- The event loop has just begun, with `HOOK_TIMER` registered and the workers running. -/
def timerIdle (strict : Bool) : (timerSystem strict).Config := ⟨{}, []⟩

end Mudmux.Execution
