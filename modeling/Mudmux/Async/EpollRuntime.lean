import Mudmux.Lib.Threads

/-!
# `Mudmux.Async.EpollRuntime`: the event runtime on Linux

`lib/async/async_runtime_epoll.cpp`. Worker completions and wakeups reach the event loop through one
eventfd: a counter of 64 bits to which a write adds, and which a read returns and clears. A completion
is written as one number, the key in its upper half and the data in its lower half, and a wakeup writes
the number one.

`epollRuntime` is the system of all interleavings. A wait that has come back from `epoll_wait` is a
thread; each of its reads of the eventfd is one step, so posts fall between any two of them. What
`epoll_wait` reports and whether a registered event is still signalled are open. The memory also keeps
the posts and wakeups made and the events stored in the callers' arrays, in order; no step looks at
these.

Which descriptors `epoll` watches for what is left out: nothing here reads it back. So is the `buffer`
of an event, which this backend always clears.
-/

set_option autoImplicit false

namespace Mudmux.Async

open Mudmux.Lib

/-! ### The eventfd -/

/-- The largest value an eventfd holds. -/
def eventFdMax : Nat := 2 ^ 64 - 2

/-- A write: it fails where the sum would be too large. -/
def eventFdWrite (counter value : Nat) : Option Nat :=
  if counter + value ≤ eventFdMax then some (counter + value) else none

/-- A read that does not block: it fails at zero, and otherwise returns the counter and clears it. -/
def eventFdRead (counter : Nat) : Option (Nat × Nat) :=
  if counter = 0 then none else some (counter, 0)

/-! ### Events -/

/-- The `EVENT_*` bits. -/
structure EventType where
  read : Bool := false
  write : Bool := false
  error : Bool := false
  close : Bool := false
  deriving DecidableEq, Repr

/-- An entry of what `epoll_wait` reports: the descriptor, and `EPOLLIN`, `EPOLLOUT`, `EPOLLERR` and
`EPOLLHUP`. -/
structure EpollEvent where
  fd : Nat
  epollIn : Bool := false
  epollOut : Bool := false
  epollErr : Bool := false
  epollHup : Bool := false
  deriving DecidableEq, Repr

/-- `epoll_to_events`. -/
def epollToEvents (e : EpollEvent) : EventType where
  read := e.epollIn
  write := e.epollOut
  error := e.epollErr
  close := e.epollHup

/-- `io_event_t`. The context is a pointer that holds a number; zero is `NULL`. -/
structure IoEvent where
  fd : Int
  completionKey : Nat
  eventType : EventType
  context : Nat
  bytesTransferred : Nat
  deriving DecidableEq, Repr

/-- `ASYNC_IO_ERROR_KEY`. -/
def asyncIoErrorKey : Nat := 0xC0000001

/-- What `async_runtime_post_completion` writes. -/
def completionValue (key data : UInt32) : Nat :=
  (key.toNat <<< 32) ||| (data.toNat &&& 0xFFFFFFFF)

/-- The event that `async_runtime_wait` makes of a value read from the eventfd. -/
def completionEvent (value : Nat) : IoEvent :=
  let completionKey := value >>> 32
  let completionData := value &&& 0xFFFFFFFF
  { fd := -1
    completionKey
    context := if completionKey = asyncIoErrorKey then completionData else 0
    eventType := if completionKey = asyncIoErrorKey then { error := true } else { read := true }
    bytesTransferred := completionData }

/-! ### The runtime -/

/-- What a descriptor is registered with: its entry in `fd_contexts`, and for an entry in `fd_events`
whether that event is reset by hand. -/
structure Registration where
  context : Nat := 0
  manualReset : Option Bool := none
  deriving DecidableEq, Repr

/-- A call that writes to the eventfd. -/
inductive Signal where
  | post (key data : UInt32)
  | wakeup
  deriving DecidableEq, Repr

/-- The number a call writes. -/
def Signal.value : Signal → Nat
  | .post key data => completionValue key data
  | .wakeup => 1

/-- `async_runtime_s`: the eventfd with its counter, and the registrations. -/
structure Runtime where
  eventFd : Nat
  counter : Nat := 0
  registrations : Nat → Registration := fun _ => {}
  signals : List Signal := []
  reported : List IoEvent := []

/-- `async_runtime_post_completion` and `async_runtime_wakeup`: a write that fails is only told to the
caller. -/
def Runtime.signal (r : Runtime) (signal : Signal) : Runtime :=
  { r with
      counter := (eventFdWrite r.counter signal.value).getD r.counter
      signals := r.signals ++ [signal] }

/-- `async_runtime_add`, and `async_runtime_add_event` with an event. -/
def Runtime.add (r : Runtime) (fd : Nat) (registration : Registration) : Runtime :=
  { r with registrations := fun f => if f = fd then registration else r.registrations f }

/-- `async_runtime_modify`: a null context keeps the one there is. -/
def Runtime.modify (r : Runtime) (fd context : Nat) : Runtime :=
  if context = 0 then r else r.add fd { r.registrations fd with context }

/-- `async_runtime_remove`. -/
def Runtime.remove (r : Runtime) (fd : Nat) : Runtime := r.add fd {}

/-- `MAX_EVENTS`. -/
def maxEpollEvents : Nat := 64

/-- Where a wait is in its loop: in front of an entry of `epoll_events`, or in the loop that drains the
eventfd. -/
inductive WaitPoint where
  | scan (ready : List EpollEvent)
  | drain (ready : List EpollEvent)
  deriving DecidableEq, Repr

/-- A call of `async_runtime_wait` behind `epoll_wait`. -/
structure Wait where
  maxEvents : Nat
  eventCount : Nat := 0
  point : WaitPoint
  deriving DecidableEq, Repr

/-- The event for a descriptor that is ready. -/
def ioEvent (registration : Registration) (e : EpollEvent) : IoEvent where
  fd := e.fd
  completionKey := 0
  eventType := epollToEvents e
  context := registration.context
  bytesTransferred := 0

/-- Store an event in the caller's array. -/
def Runtime.report (r : Runtime) (event : IoEvent) : Runtime :=
  { r with reported := r.reported ++ [event] }

/-- One step of `async_runtime_wait`. `signalled` is what `async_event_wait` says of a registered event
that resets itself. -/
def waitStep (r : Runtime) (w : Wait) (signalled : Bool) : Option (Runtime × List Wait) :=
  match w.point with
  | .scan [] => some (r, [])
  | .scan (e :: ready) =>
    if w.eventCount < w.maxEvents then
      if e.fd = r.eventFd then some (r, [{ w with point := .drain ready }])
      else
        let registration := r.registrations e.fd
        if registration.manualReset = some false && !signalled then
          some (r, [{ w with point := .scan ready }])
        else
          some (r.report (ioEvent registration e),
            [{ w with eventCount := w.eventCount + 1, point := .scan ready }])
    else some (r, [])
  | .drain ready =>
    match eventFdRead r.counter with
    | none => some (r, [{ w with point := .scan ready }])
    | some (value, counter) =>
      -- a value read while the array is full is gone
      if w.eventCount < w.maxEvents then
        some ({ r with counter }.report (completionEvent value),
          [{ w with eventCount := w.eventCount + 1 }])
      else some ({ r with counter }, [w])

/-- What is done to the runtime from outside. -/
inductive RuntimeAction where
  | signal (signal : Signal)
  | add (fd : Nat) (registration : Registration)
  | modify (fd context : Nat)
  | remove (fd : Nat)
  /-- `async_runtime_wait` comes back from `epoll_wait` with these entries. -/
  | wait (maxEvents : Nat) (ready : List EpollEvent)
  deriving DecidableEq, Repr

/-- `epoll_wait` may report this: not more than was asked for, and the eventfd only while its counter
is not zero. -/
def Runtime.mayReport (r : Runtime) (maxEvents : Nat) (ready : List EpollEvent) : Bool :=
  decide (0 < maxEvents) && decide (ready.length ≤ min maxEvents maxEpollEvents) &&
    ready.all fun e => decide (e.fd = r.eventFd → 0 < r.counter)

/-- One action. -/
def runtimeAct (r : Runtime) : RuntimeAction → Option (Runtime × List Wait)
  | .signal signal => some (r.signal signal, [])
  | .add fd registration => some (r.add fd registration, [])
  | .modify fd context => some (r.modify fd context, [])
  | .remove fd => some (r.remove fd, [])
  | .wait maxEvents ready =>
    if r.mayReport maxEvents ready then some (r, [{ maxEvents, point := .scan ready }]) else none

/-- The runtime with its callers. -/
abbrev epollRuntime : ThreadSystem where
  Shared := Runtime
  Thread := Wait
  Choice := Bool
  Action := RuntimeAction
  step := waitStep
  act := runtimeAct

/-- `async_runtime_init`. -/
def initialRuntime (eventFd : Nat) : epollRuntime.Config := ⟨{ eventFd }, []⟩

end Mudmux.Async
