import Mudmux.Async.EpollRuntime

/-!
# `Mudmux.Async.Event`: events that threads wait for

`lib/async/async_event.cpp` on Linux. An event is a flag and an eventfd under one mutex. Setting and
resetting it are a critical section each; a wait alternates a section with a `poll` of the eventfd outside
of the mutex. The clock is open, an eventfd can always be created, and interrupted system calls are retried.
The memory also counts the signals raised, those a reset took back, and the waits that returned true.

Between two sections the eventfd holds one signal if the flag is set and none if not. So no system call of a
section fails, and a `poll` wakes exactly when a wait would pass.
-/

set_option autoImplicit false

namespace Mudmux.Async

open Mudmux.Lib ThreadSystem

/-- `EventImpl`, with the counter of its eventfd. -/
structure EventImpl where
  eventFd : Nat
  signaled : Bool
  manualReset : Bool

namespace EventImpl

/-- `read_signal_once`; `none` is a failure. -/
def readSignalOnce (impl : EventImpl) : Option EventImpl :=
  (eventFdRead impl.eventFd).map fun r => { impl with eventFd := r.2 }

/-- `write_signal_once`. -/
def writeSignalOnce (impl : EventImpl) : Option EventImpl :=
  (eventFdWrite impl.eventFd 1).map fun counter => { impl with eventFd := counter }

/-- `drain_signal`. A read lowers the counter, so the counter bounds the loop. -/
def drainSignal : Nat → EventImpl → EventImpl
  | 0, impl => impl
  | fuel + 1, impl =>
    match impl.readSignalOnce with
    | some impl => drainSignal fuel impl
    | none => impl

/-- `consume_event_signal`. -/
def consumeEventSignal (impl : EventImpl) : Option EventImpl :=
  if impl.signaled then impl.readSignalOnce.map ({ · with signaled := false }) else none

/-- `async_event_init`. -/
def init (manualReset initialState : Bool) : Option EventImpl :=
  let impl : EventImpl := ⟨0, initialState, manualReset⟩
  if initialState then impl.writeSignalOnce else some impl

/-- `async_event_set`. -/
def set (impl : EventImpl) : EventImpl :=
  if impl.signaled then impl
  else (impl.writeSignalOnce.map ({ · with signaled := true })).getD impl

/-- `async_event_reset`. -/
def reset (impl : EventImpl) : EventImpl :=
  if impl.signaled then { drainSignal (impl.eventFd + 1) impl with signaled := false } else impl

/-- The critical section of `async_event_wait`; without an answer the wait goes on to `poll`. -/
def wait (impl : EventImpl) (timeoutMs : Int) : Option Bool × EventImpl :=
  if impl.signaled then
    if impl.manualReset then (some true, impl)
    else (some impl.consumeEventSignal.isSome, impl.consumeEventSignal.getD impl)
  else (if timeoutMs = 0 then some false else none, impl)

/-- The event that is this flag. -/
def ofFlag (signaled manualReset : Bool) : EventImpl := ⟨signaled.toNat, signaled, manualReset⟩

variable (signaled manualReset : Bool)

theorem set_ofFlag : (ofFlag signaled manualReset).set = ofFlag true manualReset := by
  cases signaled <;> rfl

theorem reset_ofFlag : (ofFlag signaled manualReset).reset = ofFlag false manualReset := by
  cases signaled <;> rfl

theorem wait_ofFlag (timeoutMs : Int) : (ofFlag signaled manualReset).wait timeoutMs =
    if signaled then (some true, ofFlag manualReset manualReset)
    else (if timeoutMs = 0 then some false else none, ofFlag false manualReset) := by
  cases signaled <;> cases manualReset <;> rfl

end EventImpl

open EventImpl

/-! ### Threads -/

structure EventState where
  impl : EventImpl
  raised : Nat
  takenBack : Nat
  passed : Nat

/-- A wait before its critical section, or before its `poll`. -/
inductive EventThread where
  | waiting (timeoutMs : Int)
  | polling (timeoutMs : Int)

/-- A `poll` that times out or fails ends the wait. -/
inductive EventChoice where
  | next | giveUp

inductive EventAction where
  | set
  | reset
  | wait (timeoutMs : Int)

namespace EventState

def step (s : EventState) : EventThread → EventChoice → Option (EventState × List EventThread)
  | .waiting timeoutMs, .next =>
    let r := s.impl.wait timeoutMs
    some ({ s with impl := r.2, passed := s.passed + (r.1.getD false).toNat },
      if r.1.isSome then [] else [.polling timeoutMs])
  | .polling timeoutMs, .next => if s.impl.eventFd = 0 then none else some (s, [.waiting timeoutMs])
  | .polling _, .giveUp => some (s, [])
  | .waiting _, .giveUp => none

/-- The event changed by a call, with its signals counted. -/
def put (s : EventState) (impl : EventImpl) : EventState :=
  { s with
      impl
      raised := s.raised + (!s.impl.signaled && impl.signaled).toNat
      takenBack := s.takenBack + (s.impl.signaled && !impl.signaled).toNat }

def act (s : EventState) : EventAction → EventState × List EventThread
  | .set => (s.put s.impl.set, [])
  | .reset => (s.put s.impl.reset, [])
  | .wait timeoutMs => (s, [.waiting timeoutMs])

end EventState

/-- An event and the threads that wait for it. -/
abbrev eventSystem : ThreadSystem where
  Shared := EventState
  Thread := EventThread
  Choice := EventChoice
  Action := EventAction
  step := EventState.step
  act s action := some (s.act action)

/-! ### Runs -/

variable {manualReset : Bool} {s s' : EventState} {ts : List EventThread}

/-- The event is a flag. The signals raised were taken back, passed a wait each if the event resets itself,
or are still there. -/
def EventSound (manualReset : Bool) (s : EventState) : Prop :=
  s.impl = ofFlag s.impl.signaled manualReset ∧
    s.raised = s.takenBack + (if manualReset then 0 else s.passed) + s.impl.signaled.toNat

theorem EventSound.step (h : EventSound manualReset s) {t : EventThread} {choice : EventChoice}
    (hstep : s.step t choice = some (s', ts)) : EventSound manualReset s' := by
  cases t with
  | waiting timeoutMs =>
    cases choice <;> cases hstep
    obtain ⟨hflag, haccount⟩ := h
    generalize s.impl.signaled = signaled at hflag haccount
    rw [hflag, wait_ofFlag]
    cases signaled <;> cases manualReset <;> refine ⟨rfl, ?_⟩ <;> grind [ofFlag]
  | polling timeoutMs =>
    -- a `poll` changes nothing
    have hsame : s' = s := by cases choice <;> grind [EventState.step]
    rwa [hsame]

theorem EventSound.act (h : EventSound manualReset s) (action : EventAction) :
    EventSound manualReset (s.act action).1 := by
  obtain ⟨hflag, haccount⟩ := h
  have hput (signaled : Bool) : EventSound manualReset (s.put (ofFlag signaled manualReset)) :=
    ⟨rfl, by cases signaled <;> cases hs : s.impl.signaled <;> grind [EventState.put, ofFlag]⟩
  cases action with
  | set => simpa only [EventState.act, ← set_ofFlag s.impl.signaled, ← hflag] using hput true
  | reset => simpa only [EventState.act, ← reset_ofFlag s.impl.signaled, ← hflag] using hput false
  | wait timeoutMs => exact ⟨hflag, haccount⟩

/-- An event is a flag in every run of any number of threads. -/
theorem event_is_flag (initialState : Bool) (impl : EventImpl) (c : eventSystem.Config)
    (hinit : init manualReset initialState = some impl)
    (hrun : Run (Guard.trivial eventSystem) ⟨⟨impl, initialState.toNat, 0, 0⟩, []⟩ c) :
    EventSound manualReset c.shared := by
  refine invariant_of_run (fun s _ => EventSound manualReset s)
    (fun _ _ _ _ _ _ h _ hstep => h.step hstep) (fun s action _ _ _ h _ hact => ?_) ?_ hrun
  · have hsound := h.act action
    rwa [Option.some.inj hact] at hsound
  · cases initialState <;> cases hinit <;> exact ⟨rfl, by simp⟩

/-- A wait that sleeps until the event is set. -/
theorem event_is_flag_woken :
    ∃ c, Run (Guard.trivial eventSystem) ⟨⟨ofFlag false false, 0, 0, 0⟩, []⟩ c ∧
      c.shared.passed = 1 ∧ EventSound false c.shared := by
  obtain ⟨c, hrun, hc⟩ := exists_run_of_execAll (S := eventSystem) (Guard.trivial _)
    [.env (.wait (-1)), .thread 0 .next, .env .set, .thread 0 .next, .thread 0 .next]
    ⟨⟨ofFlag false false, 0, 0, 0⟩, []⟩ (fun c => c.shared.passed = 1) (by decide)
  exact ⟨c, hrun, of_decide_eq_true hc, event_is_flag false _ c rfl hrun⟩

end Mudmux.Async
