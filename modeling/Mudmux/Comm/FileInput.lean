import Mudmux.Comm.Surroundings
import Mudmux.Lib.Threads
import Mudmux.Proofs.BoundedFifo

/-!
# `Mudmux.Comm.FileInput`: the console and file queues, and the thread that reads a file

`lib/comm/file_input.cpp` and the part of `lib/comm/console.cpp` that it shares. A reader thread reads
slot 0 and queues what it gets; `comm_process_file_input` empties the queue into the slot, parses, and
asks for shutdown once the reader has seen the end of the file.

The call holds `comm_slots_mtx` from its beginning to its end, and the reader holds it for each read. So
the reader cannot read during a call, but it can hand over what it has read before: it enqueues without
that lock. `file_input_mutex` and the mutex of the queue make each access to the flag and to the queue one
step. The queue is the bounded list that the circular buffer represents (`Represents.exec`).
-/

set_option autoImplicit false

namespace Mudmux.Comm

open Mudmux.Lib
open Mudmux.Async (Fifo QueueShape)

/-! ### The queues -/

/-- A queue entry: the reader threads append a NUL to what they have read. -/
def queueMessage (chunk : Bytes) : Bytes := chunk ++ [0]

/-- The consumer takes one trailing NUL off an entry. -/
def trimNul (message : Bytes) : Bytes :=
  if message.getLast? = some 0 then message.dropLast else message

/-- The two queues: that of `file_input_reader_thread` and that of the console worker. -/
inductive QueueSource where
  | file
  | console
  deriving DecidableEq, Repr

/-- What a call leaves behind besides the slot: the entries still queued, whether a refill failed,
which discards bytes, and whether `console_worker_set_eof` was called. -/
structure QueueOutcome where
  left : List Bytes
  discarded : Bool
  eofSignalled : Bool
  deriving DecidableEq, Repr

/-- The refill loop over the queue: the entries left in it, and whether a refill failed. -/
def drainQueue (setup : Setup) : List Bytes → Code (List Bytes × Bool)
  | [] => pure ([], false)
  | message :: messages => do
    if ← refillInboundBuffersFromSrc setup (trimNul message) then drainQueue setup messages
    else pure (messages, true)

/-- The part that both calls share. A failed refill ends the console's input, and only the
console's. -/
def processQueue (source : QueueSource) (setup : Setup) (messages : List Bytes) :
    Code QueueOutcome := do
  let drained ← drainQueue setup messages
  let _ ← commProcessInput setup none
  pure ⟨drained.1, drained.2, drained.2 && decide (source = .console)⟩

def commProcessFileInput (setup : Setup) (messages : List Bytes) : Code QueueOutcome :=
  processQueue .file setup messages

/-- `comm_process_console_input` while no end of input is pending. -/
def commProcessConsoleInput (setup : Setup) (messages : List Bytes) : Code QueueOutcome :=
  processQueue .console setup messages

/-! ### The reader thread -/

/-- The queue of `comm_init_async_file_input`. -/
def fileQueueShape : QueueShape := ⟨100, 4096, { dropOldest := true }, by decide, by decide⟩

/-- What a read leaves in the reader's array, which has room for a NUL behind it. -/
structure FileChunk where
  data : Bytes
  fits : data.length ≤ 4095
  deriving DecidableEq, Repr

/-- What `BIO_read_ex` does: it reads, though perhaps nothing; it fails at the end of the file; it fails
otherwise, or the slot is gone; or it is to be called again. -/
inductive FileRead where
  | data (chunk : FileChunk)
  | eof
  | error
  | retry
  deriving DecidableEq, Repr

/-- Where `file_input_reader_thread` is: before its next read, behind a read with the lock released, or at
its end. -/
inductive ReaderPhase where
  | reading
  | holding (chunk : FileChunk)
  | exited
  deriving DecidableEq, Repr

/-- Where the event loop is: elsewhere, or in `comm_process_file_input` before the next dequeue, before
`comm_process_input`, or before the test of `file_input_eof`. -/
inductive FilePhase where
  | elsewhere
  | draining
  | processing
  | checking
  deriving DecidableEq, Repr

/-- The file input with its slot. -/
structure FileInput (ρ : Type) where
  reader : ReaderPhase := .reading
  queue : Fifo := {}
  eof : Bool := false
  loop : FilePhase := .elsewhere
  slot : World ρ
  shutdown : Bool := false

/-- The steps of the two threads, and everything else that happens to the slot: hooks complete, other
threads call the public functions, the loop resumes deferred input. `call` says which surroundings the
loop's code runs in. -/
inductive FileMove (ι ρ : Type) where
  | read (answer : FileRead)
  | handOver
  | enter
  | dequeue (call : ι)
  | process (call : ι)
  | check
  | others (slot : World ρ)

/-- One step. -/
def fileStep {ι ρ : Type} (setup : Setup) (calls : ι → Surroundings ρ) (depth : Nat)
    (s : FileInput ρ) : FileMove ι ρ → Option (FileInput ρ)
  | .read answer =>
    if s.reader = .reading ∧ s.loop = .elsewhere then
      match answer with
      | .data chunk => some { s with reader := .holding chunk }
      | .eof => some { s with eof := true, reader := .exited }
      | .error => some { s with reader := .exited }
      | .retry => some s
    else none
  | .handOver =>
    match s.reader with
    | .holding chunk =>
      if chunk.data.isEmpty then some { s with eof := true, reader := .exited }
      else
        (s.queue.exec fileQueueShape (.enqueue (some (queueMessage chunk.data)))).map fun r =>
          { s with queue := r.2, reader := .reading }
    | _ => none
  | .enter => if s.loop = .elsewhere then some { s with loop := .draining } else none
  | .dequeue call =>
    if s.loop = .draining then
      (s.queue.exec fileQueueShape (.dequeue (some 4096))).bind fun r =>
        match r.1 with
        | .message message =>
          ((refillInboundBuffersFromSrc setup (trimNul message)).eval
            (slotHandler setup (calls call) depth) s.slot).map fun refilled =>
              { s with
                  queue := r.2
                  slot := refilled.2
                  loop := if refilled.1 then .draining else .processing }
        | _ => some { s with loop := .processing }
    else none
  | .process call =>
    if s.loop = .processing then
      ((commProcessInput setup none).eval (slotHandler setup (calls call) depth) s.slot).map
        fun processed => { s with slot := processed.2, loop := .checking }
    else none
  | .check =>
    if s.loop = .checking then
      some { s with shutdown := s.shutdown || s.eof, loop := .elsewhere }
    else none
  | .others slot => if s.loop = .elsewhere then some { s with slot } else none

/-- The file input as a system of steps. -/
def fileSystem {ι ρ : Type} (setup : Setup) (calls : ι → Surroundings ρ) (depth : Nat) :
    ThreadSystem where
  Shared := FileInput ρ
  Thread := Empty
  Choice := Unit
  Action := FileMove ι ρ
  step _ t _ := t.elim
  act s move := (fileStep setup calls depth s move).map fun s' => (s', [])

end Mudmux.Comm
