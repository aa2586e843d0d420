import Mudmux.Execution.Scheduler

/-!
# `Mudmux.Execution.DetachedWork`: detached work and the completion lane

`mudmux_workers_submit` and what follows it in `src/execution.cpp`. The work closures of all submissions
run side by side on the worker pool. Their completion closures go through one lane: whoever finds it
inactive makes it active and submits its completion; everybody else queues behind. A completion that has
ended takes the next one from the queue and submits that, or runs it itself if the pool refuses.

As in `Mudmux.Execution.Scheduler` the functions are cut into their critical sections and calls of
`submit`, and a thread is a program point between two of them. Whether the pool accepts a task may change
at any time. `mudmux_workers_stop` empties the lane when the workers have been joined; no thread is left
then and there is nothing in the lane, so that step is left out.

A submission is known by its number, which stands for both of its closures.
-/

set_option autoImplicit false

namespace Mudmux.Execution

open Mudmux.Lib

/-- `detached_completion_t`: the completion closure of a submission and the message for it. -/
structure DetachedCompletion where
  task : Nat
  message : ClosureMessage
  deriving DecidableEq, Repr

/-- What is observed of the closures. -/
inductive DetachedEvent where
  | workBegan (task : Nat)
  | workEnded (task : Nat) (threw : Bool)
  /-- The completion is the lane's from here on. -/
  | handed (completion : DetachedCompletion)
  | invoked (completion : DetachedCompletion)
  deriving DecidableEq, Repr

/-- `detached_completion_active` and `pending_detached_completions`, with the flags of the pool as in
`Slot`. `submissions` counts the calls of `mudmux_workers_submit` that succeeded. -/
structure CompletionLane where
  active : Bool := false
  pending : List DetachedCompletion := []
  running : Bool := true
  accepting : Bool := true
  submissions : Nat := 0
  log : List DetachedEvent := []
  deriving DecidableEq, Repr

/-- The program points of the threads. -/
inductive DetachedPoint where
  /-- `mudmux_workers_submit`: behind its checks, before the work is submitted. -/
  | submitWork
  /-- Work in the queue of the worker pool. -/
  | pooledWork (task : Nat)
  /-- `run_detached_work`: in the work closure. -/
  | work (task : Nat)
  /-- `schedule_detached_completion`: before its critical section. -/
  | schedule (completion : DetachedCompletion)
  /-- `schedule_detached_completion`: the lane is active, before the completion is submitted. -/
  | scheduleSubmit (completion : DetachedCompletion)
  /-- A completion in the queue of the worker pool. -/
  | pooledCompletion (completion : DetachedCompletion)
  /-- `run_detached_completion`: in the completion closure. -/
  | completion (completion : DetachedCompletion)
  /-- `run_detached_completion`: before its critical section. -/
  | nextCompletion
  /-- `run_detached_completion`: before the next completion is submitted. -/
  | nextSubmit (completion : DetachedCompletion)
  deriving DecidableEq, Repr

/-- How the closure ends that a thread is in. -/
inductive ClosureOutcome where
  | returns
  | throws
  deriving DecidableEq, Repr

inductive DetachedAction where
  | submit (workValid completionValid : Bool)
  | setRunning (running : Bool)
  | setAccepting (accepting : Bool)
  deriving DecidableEq, Repr

namespace CompletionLane

def observe (s : CompletionLane) (event : DetachedEvent) : CompletionLane :=
  { s with log := s.log ++ [event] }

/-- `invoke_closure_safely`, whose answer becomes the message. -/
def invokeClosureSafely : ClosureOutcome → ClosureMessage
  | .returns => .ok
  | .throws => .failed

/-- `run_detached_completion` up to the end of the closure. -/
def runDetachedCompletion (s : CompletionLane) (completion : DetachedCompletion) :
    CompletionLane × List DetachedPoint :=
  (s.observe (.invoked completion), [.completion completion])

/-- The critical section of `schedule_detached_completion`. -/
def scheduleSection (s : CompletionLane) (completion : DetachedCompletion) :
    CompletionLane × List DetachedPoint :=
  if s.active then
    (({ s with pending := s.pending ++ [completion] }).observe (.handed completion), [])
  else (({ s with active := true }).observe (.handed completion), [.scheduleSubmit completion])

/-- The critical section of `run_detached_completion`. -/
def nextSection (s : CompletionLane) : CompletionLane × List DetachedPoint :=
  match s.pending with
  | [] => ({ s with active := false }, [])
  | next :: pending => ({ s with pending := pending }, [.nextSubmit next])

/-- `submit`, and the loop's next round or the call on the spot if the pool refuses. -/
def submitCompletion (s : CompletionLane) (completion : DetachedCompletion) :
    CompletionLane × List DetachedPoint :=
  if s.accepting then (s, [.pooledCompletion completion]) else s.runDetachedCompletion completion

end CompletionLane

open CompletionLane in
/-- One step of a thread. -/
def detachedStep (s : CompletionLane) :
    DetachedPoint → ClosureOutcome → Option (CompletionLane × List DetachedPoint)
  | .submitWork, _ =>
    if s.accepting then some ({ s with submissions := s.submissions + 1 }, [.pooledWork s.submissions])
    else some (s, [])
  | .pooledWork task, _ => some (s.observe (.workBegan task), [.work task])
  | .work task, outcome =>
    some (s.observe (.workEnded task (outcome = .throws)),
      [.schedule ⟨task, invokeClosureSafely outcome⟩])
  | .schedule completion, _ => some (s.scheduleSection completion)
  | .scheduleSubmit completion, _ => some (s.submitCompletion completion)
  | .pooledCompletion completion, _ => some (s.runDetachedCompletion completion)
  -- what a completion throws is caught and logged
  | .completion _, _ => some (s, [.nextCompletion])
  | .nextCompletion, _ => some s.nextSection
  | .nextSubmit completion, _ => some (s.submitCompletion completion)

/-- One action. -/
def detachedAct (s : CompletionLane) : DetachedAction → Option (CompletionLane × List DetachedPoint)
  | .submit workValid completionValid =>
    if !workValid || !completionValid || !s.running then some (s, []) else some (s, [.submitWork])
  | .setRunning running => some ({ s with running := running }, [])
  | .setAccepting accepting => some ({ s with accepting := accepting }, [])

/-- Detached work. -/
abbrev detachedSystem : ThreadSystem where
  Shared := CompletionLane
  Thread := DetachedPoint
  Choice := ClosureOutcome
  Action := DetachedAction
  step := detachedStep
  act := detachedAct

/-- Nothing has been submitted. -/
def detachedIdle : detachedSystem.Config := ⟨{}, []⟩

end Mudmux.Execution
