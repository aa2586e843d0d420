import Mudmux.Async.EpollRuntime

/-!
# `Mudmux.Async.PollRuntime`: the event runtime on other POSIX systems

`lib/async/async_runtime_poll.cpp`. The descriptors that `poll` watches stand in two parallel arrays,
`pollfds` and `mappings`, of which the first `count` entries are live; the arrays grow by doubling up to
`MAX_FD_COUNT`, and a removed entry is replaced by the last one. Every write to an array goes through
`writeAt`, which fails outside of the memory that was allocated; the functions of this module then have
no result.

Completions and wakeups reach the event loop through a pipe: a completion is written as a number of
eight bytes, a wakeup as a single byte, and `async_runtime_wait` reads eight bytes at a time.
`pollRuntime` is the system of all interleavings; each read of the pipe is one step of a wait, so writes
fall between any two of them. What `poll` reports and whether a registered event is still signalled are
open. The memory also keeps the signals made, the completions decoded from the pipe and the descriptors
reported, in order; no step looks at these.

Allocations succeed, and the pipe is never full: a write that would block is one that has not been made.
-/

set_option autoImplicit false

namespace Mudmux.Async

open Mudmux.Lib

/-! ### Descriptors -/

/-- `POLLIN`, `POLLOUT`, `POLLERR`, `POLLHUP` and `POLLNVAL`. -/
structure PollEvents where
  pollIn : Bool := false
  pollOut : Bool := false
  pollErr : Bool := false
  pollHup : Bool := false
  pollNval : Bool := false
  deriving DecidableEq, Repr

/-- `struct pollfd`. -/
structure PollFd where
  fd : Int := -1
  events : PollEvents := {}
  revents : PollEvents := {}
  deriving DecidableEq, Repr

/-- What the runtime asks of an `async_event_t`: its wait handle, `ASYNC_INVALID_WAIT_HANDLE` being
`-1`, and whether it is reset by hand. -/
structure AsyncEvent where
  waitHandle : Int
  manualReset : Bool
  deriving DecidableEq, Repr

/-- `fd_mapping_t`. The context is a pointer that holds a number; zero is `NULL`. -/
structure FdMapping where
  fd : Int := -1
  context : Nat := 0
  events : EventType := {}
  event : Option AsyncEvent := none
  deriving DecidableEq, Repr

/-- `events_to_poll`. -/
def eventsToPoll (events : EventType) : PollEvents where
  pollIn := events.read
  pollOut := events.write

/-- `poll_to_events`. -/
def pollToEvents (revents : PollEvents) : EventType where
  read := revents.pollIn
  write := revents.pollOut
  error := revents.pollErr
  close := revents.pollHup || revents.pollNval

/-! ### The descriptor table -/

/-- `INITIAL_CAPACITY`. -/
def initialCapacity : Nat := 64

/-- `MAX_FD_COUNT`. -/
def maxFdCount : Nat := 4096

/-- The arrays of `async_runtime_s` with `capacity` and `count`. -/
structure PollTable where
  pollfds : List PollFd
  mappings : List FdMapping
  capacity : Nat
  count : Nat
  deriving DecidableEq, Repr

/-- A write to an array. Outside of it there is no result. -/
def writeAt {α : Type} (cells : List α) (index : Nat) (value : α) : Option (List α) :=
  if index < cells.length then some (cells.set index value) else none

/-- `find_fd_index`. -/
def PollTable.findFdIndex (t : PollTable) (fd : Int) : Option Nat :=
  (t.pollfds.take t.count).findIdx? fun p => p.fd == fd

/-- `expand_capacity`: at `MAX_FD_COUNT` it succeeds as well. -/
def PollTable.expandCapacity (t : PollTable) : PollTable :=
  let newCapacity := min (t.capacity * 2) maxFdCount
  { t with
      pollfds := t.pollfds.take newCapacity ++ List.replicate (newCapacity - t.capacity) {}
      mappings := t.mappings.take newCapacity ++ List.replicate (newCapacity - t.capacity) {}
      capacity := newCapacity }

/-- The end of `async_runtime_add`: the new entry behind the live ones. -/
def PollTable.append (t : PollTable) (fd : Int) (events : EventType) (context : Nat) :
    Option PollTable := do
  let idx := t.count
  let pollfds ← writeAt t.pollfds idx { fd, events := eventsToPoll events, revents := {} }
  let mappings ← writeAt t.mappings idx { fd, context, events, event := none }
  return { t with pollfds, mappings, count := t.count + 1 }

/-- `async_runtime_add`. -/
def PollTable.add (t : PollTable) (fd : Int) (events : EventType) (context : Nat) :
    Option (PollTable × Int) :=
  if fd < 0 then some (t, -1)
  else if (t.findFdIndex fd).isSome then some (t, -1)
  else
    let t := if t.count ≥ t.capacity then t.expandCapacity else t
    (t.append fd events context).map fun t => (t, 0)

/-- `async_runtime_modify`: a null context keeps the one there is. -/
def PollTable.modify (t : PollTable) (fd : Int) (events : EventType) (context : Nat) :
    Option (PollTable × Int) :=
  if fd < 0 then some (t, -1)
  else
    match t.findFdIndex fd with
    | none => some (t, -1)
    | some idx => do
      let p ← t.pollfds[idx]?
      let m ← t.mappings[idx]?
      let pollfds ← writeAt t.pollfds idx { p with events := eventsToPoll events }
      let mappings ← writeAt t.mappings idx
        { m with events, context := if context ≠ 0 then context else m.context }
      return ({ t with pollfds, mappings }, 0)

/-- `async_runtime_remove`: the last entry moves to the place of the removed one. -/
def PollTable.remove (t : PollTable) (fd : Int) : Option (PollTable × Int) :=
  if fd < 0 then some (t, -1)
  else
    match t.findFdIndex fd with
    | none => some (t, -1)
    | some idx => do
      let last := t.count - 1
      let p ← t.pollfds[last]?
      let m ← t.mappings[last]?
      -- writing the last entry over itself stands for the case that is left alone
      let pollfds ← writeAt t.pollfds idx p
      let mappings ← writeAt t.mappings idx m
      let pollfds ← writeAt pollfds last { p with fd := -1 }
      let mappings ← writeAt mappings last { m with fd := -1, event := none }
      return ({ t with pollfds, mappings, count := last }, 0)

/-- `async_runtime_add_event`. -/
def PollTable.addEvent (t : PollTable) (event : Option AsyncEvent) (context : Nat) :
    Option (PollTable × Int) :=
  match event with
  | none => some (t, -1)
  | some event =>
    if event.waitHandle = -1 then some (t, -1)
    else do
      let (t, result) ← t.add event.waitHandle { read := true } context
      if result < 0 then return (t, -1)
      let index ← t.findFdIndex event.waitHandle
      let m ← t.mappings[index]?
      let mappings ← writeAt t.mappings index { m with event := some event }
      return ({ t with mappings }, 0)

/-- The calls that change the table. -/
inductive TableCall where
  | add (fd : Int) (events : EventType) (context : Nat)
  | modify (fd : Int) (events : EventType) (context : Nat)
  | remove (fd : Int)
  | addEvent (event : Option AsyncEvent) (context : Nat)
  deriving DecidableEq, Repr

/-- One call: the table behind it and what it returns. -/
def PollTable.exec (t : PollTable) : TableCall → Option (PollTable × Int)
  | .add fd events context => t.add fd events context
  | .modify fd events context => t.modify fd events context
  | .remove fd => t.remove fd
  | .addEvent event context => t.addEvent event context

/-- One call after another. -/
def PollTable.run (t : PollTable) : List TableCall → Option PollTable
  | [] => some t
  | call :: calls => (t.exec call).bind fun r => r.1.run calls

/-- The table that `async_runtime_init` leaves, with the read end of the pipe in it. -/
def initialTable (notifyFd : Int) : PollTable where
  pollfds := { fd := notifyFd, events := { pollIn := true } } ::
    List.replicate (initialCapacity - 1) {}
  mappings := { fd := notifyFd, events := { read := true } } ::
    List.replicate (initialCapacity - 1) {}
  capacity := initialCapacity
  count := 1

/-! ### The pipe -/

/-- The bytes of a number, the lowest first. -/
def leBytes : Nat → Nat → List UInt8
  | 0, _ => []
  | n + 1, value => UInt8.ofNat value :: leBytes n (value / 256)

/-- The number of these bytes, the lowest first. -/
def leValue : List UInt8 → Nat
  | [] => 0
  | b :: bytes => b.toNat + 256 * leValue bytes

/-- What a call writes to the pipe: `async_runtime_post_completion` a `uint64_t`,
`async_runtime_wakeup` one byte. -/
def Signal.pipeBytes : Signal → List UInt8
  | .post key data => leBytes 8 (completionValue key data)
  | .wakeup => [1]

/-- `async_runtime_s`: the table, the pipe with its read end, and the logs. -/
structure PollRuntime where
  table : PollTable
  notifyFd : Int
  pipe : List UInt8 := []
  signals : List Signal := []
  decoded : List IoEvent := []
  reported : List IoEvent := []

/-- `async_runtime_post_completion` and `async_runtime_wakeup`: an atomic write. -/
def PollRuntime.signal (r : PollRuntime) (signal : Signal) : PollRuntime :=
  { r with pipe := r.pipe ++ signal.pipeBytes, signals := r.signals ++ [signal] }

/-- The event for a descriptor that is ready. -/
def pollIoEvent (p : PollFd) (m : FdMapping) : IoEvent where
  fd := p.fd
  completionKey := 0
  eventType := pollToEvents p.revents
  context := m.context
  bytesTransferred := 0

/-- A call of `async_runtime_wait` behind `poll`: in front of the entry `index`, or in the loop that
drains the pipe for it. -/
structure PollWait where
  maxEvents : Nat
  eventCount : Nat := 0
  index : Nat := 0
  draining : Bool := false
  deriving DecidableEq, Repr

/-- The wait goes on with the next entry. -/
def PollWait.next (w : PollWait) : PollWait := { w with index := w.index + 1, draining := false }

/-- One read of the loop that drains the pipe. -/
def drainStep (r : PollRuntime) (w : PollWait) : PollRuntime × PollWait :=
  let val := r.pipe.take 8
  let r := { r with pipe := r.pipe.drop 8 }
  if val.length = 8 then
    if w.eventCount < w.maxEvents then
      ({ r with decoded := r.decoded ++ [completionEvent (leValue val)] },
        { w with eventCount := w.eventCount + 1 })
    else (r, w)  -- a value read while the array is full is gone
  else (r, w.next)  -- so are the bytes of a short read

/-- One step of `async_runtime_wait`. `signalled` is what `async_event_wait` says of a registered event
that resets itself. -/
def pollWaitStep (r : PollRuntime) (w : PollWait) (signalled : Bool) :
    Option (PollRuntime × List PollWait) :=
  if w.draining then
    let (r, w) := drainStep r w
    some (r, [w])
  else if w.index < r.table.count && decide (w.eventCount < w.maxEvents) then do
    let p ← r.table.pollfds[w.index]?
    let m ← r.table.mappings[w.index]?
    if p.revents = {} then return (r, [w.next])
    if p.fd = r.notifyFd then return (r, [{ w with draining := true }])
    if (m.event.any fun event => !event.manualReset) && !signalled then return (r, [w.next])
    return ({ r with reported := r.reported ++ [pollIoEvent p m] },
      [{ w.next with eventCount := w.eventCount + 1 }])
  else some (r, [])

/-- `poll` fills in `revents` of the live entries. -/
def PollTable.polled (t : PollTable) (revents : List PollEvents) : PollTable :=
  { t with pollfds := t.pollfds.mapIdx fun i p => { p with revents := revents.getD i p.revents } }

/-- What is done to the runtime from outside. -/
inductive PollAction where
  | signal (signal : Signal)
  | table (call : TableCall)
  /-- `async_runtime_wait` comes back from `poll` with these `revents`. -/
  | wait (maxEvents : Nat) (revents : List PollEvents)
  deriving DecidableEq, Repr

/-- `poll` may report this: something for each live entry, and of the pipe that it can be read only
while there are bytes in it. -/
def PollRuntime.mayPoll (r : PollRuntime) (maxEvents : Nat) (revents : List PollEvents) : Bool :=
  decide (0 < maxEvents) && decide (revents.length = r.table.count) &&
    (r.table.pollfds.zip revents).all fun e =>
      decide (e.1.fd = r.notifyFd → e.2.pollIn = true → r.pipe ≠ [])

/-- One action. -/
def pollAct (r : PollRuntime) : PollAction → Option (PollRuntime × List PollWait)
  | .signal signal => some (r.signal signal, [])
  | .table call => (r.table.exec call).map fun result => ({ r with table := result.1 }, [])
  | .wait maxEvents revents =>
    if r.mayPoll maxEvents revents then
      some ({ r with table := r.table.polled revents }, [{ maxEvents }])
    else none

/-- The runtime with its callers. -/
abbrev pollRuntime : ThreadSystem where
  Shared := PollRuntime
  Thread := PollWait
  Choice := Bool
  Action := PollAction
  step := pollWaitStep
  act := pollAct

/-- `async_runtime_init`. -/
def initialPollRuntime (notifyFd : Int) : pollRuntime.Config :=
  ⟨{ table := initialTable notifyFd, notifyFd }, []⟩

end Mudmux.Async
