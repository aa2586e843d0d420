import Mudmux.Lib.Threads

/-!
# `Mudmux.Async.ThreadPool`: the worker pool

`lib/async/thread_pool.cpp`. The functions are cut into their critical sections, and a thread is a program
point between two of them. A worker waits for its condition inside of a section, so it has no step until
the condition holds; who notifies whom does not matter for what a step does. The workers are known by
their position in `workers_`.

The pool is that of a successful `start`, or one that was never started. A task is a value of any type; while it runs it may submit
others, and it ends by returning or by an exception, which the worker catches.
-/

set_option autoImplicit false

namespace Mudmux.Async

open Mudmux.Lib

variable {τ : Type}

/-- `async_thread_pool_t`. The fields behind `stopping` are a record of what happened: the tasks that
`submit` accepted, those that were taken from the queue, those that have been run, and the workers that
have left `worker_loop`. -/
structure ThreadPool (τ : Type) where
  tasks : List τ := []
  workers : List Nat := []
  stopping : Bool := false
  accepted : List τ := []
  taken : List τ := []
  finished : List τ := []
  ended : List Nat := []
  stopCalled : Bool := false
  stopReturned : Bool := false
  deriving DecidableEq

/-- The program points of the threads. -/
inductive PoolThread (τ : Type) where
  /-- `worker_loop`: before its critical section. -/
  | waiting (worker : Nat)
  /-- `worker_loop`: in the task. -/
  | running (worker : Nat) (task : τ)
  /-- `stop`: before its first critical section. -/
  | stopping
  /-- `stop`: before it joins these workers. -/
  | joining (workers : List Nat)
  deriving DecidableEq

/-- How a running task goes on; the other threads have one way. -/
inductive PoolChoice (τ : Type) where
  | next
  | submit (task : τ)
  | throws

/-- What happens outside. -/
inductive PoolAction (τ : Type) where
  | submit (task : τ)
  | stop

namespace ThreadPool

/-- `submit`. -/
def submit (pool : ThreadPool τ) (task : τ) : Bool × ThreadPool τ :=
  if pool.stopping || pool.workers.isEmpty then (false, pool)
  else (true, { pool with tasks := pool.tasks ++ [task], accepted := pool.accepted ++ [task] })

/-- The critical section of `worker_loop`; `none` is a worker that waits. -/
def takeTask (pool : ThreadPool τ) (worker : Nat) : Option (ThreadPool τ × List (PoolThread τ)) :=
  match pool.tasks with
  | [] => if pool.stopping then some ({ pool with ended := worker :: pool.ended }, []) else none
  | task :: tasks =>
    some ({ pool with tasks, taken := pool.taken ++ [task] }, [.running worker task])

/-- The first critical section of `stop`. -/
def stop (pool : ThreadPool τ) : ThreadPool τ × List (PoolThread τ) :=
  if pool.workers.isEmpty then ({ pool with stopping := true, stopReturned := true }, [])
  else ({ pool with stopping := true, workers := [] }, [.joining pool.workers])

/-- One step of a thread. -/
def step (pool : ThreadPool τ) (thread : PoolThread τ) (choice : PoolChoice τ) :
    Option (ThreadPool τ × List (PoolThread τ)) :=
  match thread, choice with
  | .waiting worker, .next => pool.takeTask worker
  | .running worker task, .submit other => some ((pool.submit other).2, [.running worker task])
  | .running worker task, _ =>
    some ({ pool with finished := task :: pool.finished }, [.waiting worker])
  | .stopping, .next => some pool.stop
  | .joining (worker :: workers), .next =>
    if worker ∈ pool.ended then some (pool, [.joining workers]) else none
  | .joining [], .next => some ({ pool with tasks := [], stopReturned := true }, [])
  | _, _ => none

/-- One action from outside; `stop` is called once. -/
def act (pool : ThreadPool τ) : PoolAction τ → Option (ThreadPool τ × List (PoolThread τ))
  | .submit task => some ((pool.submit task).2, [])
  | .stop => if pool.stopCalled then none else some ({ pool with stopCalled := true }, [.stopping])

end ThreadPool

/-- The pool and its threads. -/
abbrev poolSystem (τ : Type) : ThreadSystem where
  Shared := ThreadPool τ
  Thread := PoolThread τ
  Choice := PoolChoice τ
  Action := PoolAction τ
  step := ThreadPool.step
  act := ThreadPool.act

/-- The pool behind `start`; without workers it is one that was not started. -/
def startPool (τ : Type) (workerCount : Nat) : (poolSystem τ).Config :=
  ⟨{ workers := List.range workerCount }, (List.range workerCount).map .waiting⟩

end Mudmux.Async
