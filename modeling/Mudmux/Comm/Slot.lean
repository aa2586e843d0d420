import Mudmux.Comm.Outbound
import Mudmux.Lib.Program

/-!
# `Mudmux.Comm.Slot`: the code of a slot and what it asks of its surroundings

The functions that work on a slot and may run a hook are programs over `SlotEffect`. The effects
read and write the record of the one slot the code is about; put bytes into its outbound queue or
drain it; enter a registered hook or hand it to the worker pool; ask the transport. `callFlush`, `callClose` and `callTransportReady` are calls of
`comm_flush`, `comm_close` and `comm_invoke_transport_ready`, through which the code is recursive:
a strict-mode hook is followed by `comm_flush_all`, which flushes and closes slots, which run
hooks.

The other slots act on this one only through the public calls their hooks make on it. Where the
code turns to the other slots, `otherSlots` stands for all of it.

`commGuard` is the validity test of a `comm_abstract_ptr` and `commDeref` its `operator->`. The
latter has no answer on a slot that is gone: the source dereferences a null pointer there.
-/

set_option autoImplicit false

namespace Mudmux.Comm

open Mudmux.Lib

/-- The answer of `mbrlen` on a byte string. -/
inductive MbrLen where
  | complete (length : Nat)
  | incomplete
  | invalid
  deriving DecidableEq, Repr

/-- What is fixed while the slot lives: the execution mode, the registered hooks, whether the slot
is the console, and the two outside functions the code computes with. -/
structure Setup where
  relaxed : Bool
  registered : HookType → Bool
  console : Bool
  fileInputs : Bool
  /-- `tcgetattr` succeeds on the console's standard input. -/
  consoleTty : Bool
  acceptKey : Bytes → Bytes
  mbrlen : Bytes → MbrLen

/-- The completion callbacks that are set on a slot's executions. -/
inductive Completion where
  | none
  | connect
  | transportReady
  | inbound
  | disconnect
  deriving DecidableEq, Repr

/-- One step of a TLS handshake: done, waiting for the transport, failed. -/
inductive HandshakeStep where
  | established
  | wantIo
  | failed
  deriving DecidableEq, Repr

/-- What the transport hands over in one read of at most a buffer's size. -/
structure Chunk where
  data : Bytes
  fits : data.length ≤ bufferSize
  deriving DecidableEq, Repr

/-- The answer of `BIO_read_ex`: bytes, nothing for now, or a connection that is closed. -/
inductive ReadAnswer where
  | data (chunk : Chunk)
  | retry
  | closed
  deriving DecidableEq, Repr

/-- What `SSL_read_ex` hands out in one refill: the pieces of plaintext one after the other, and
whether the session is still open behind the last one. -/
structure TlsRead where
  pieces : List Chunk
  open_ : Bool
  deriving DecidableEq, Repr

/-- What the code of a slot does to its surroundings. -/
inductive SlotEffect : Type → Type where
  /-- The slot's record in the table, in use or not. -/
  | getSlot : SlotEffect CommAbstract
  | setSlot (comm : CommAbstract) : SlotEffect Unit
  /-- The code touches the record or the decoder state of a slot that is gone. -/
  | invalidAccess : SlotEffect Empty
  /-- `has_deferred_input.store`. -/
  | setHasDeferred (value : Bool) : SlotEffect Unit
  /-- `mudmux_execution_slot_busy`. -/
  | slotBusy : SlotEffect Bool
  | cancelAwait : SlotEffect Unit
  | finalizeAwait : SlotEffect Unit
  /-- A registered hook is entered. -/
  | beginHook (call : HookCall) : SlotEffect Unit
  /-- The entered hook runs; the answer says whether it returned a non-negative value. -/
  | runHook (call : HookCall) : SlotEffect Bool
  /-- `mudmux_execution_enqueue`. -/
  | enqueue (call : HookCall) (completion : Completion) : SlotEffect DispatchResult
  | otherSlots : SlotEffect Unit
  /-- `comm_buffered_write_comm_impl`. -/
  | write (normalize : Bool) (buf : Bytes) : SlotEffect Unit
  /-- `comm_buffered_write_raw_comm`. -/
  | writeRaw (buf : Bytes) : SlotEffect Unit
  /-- A Pong frame is encoded and passed to `comm_buffered_write_raw_comm`. -/
  | pong (payload : Bytes) : SlotEffect Unit
  /-- `comm_websocket_queue_close`. -/
  | queueClose (payload : Bytes) : SlotEffect Unit
  | releaseBarrier : SlotEffect Unit
  | freeOutbound : SlotEffect Unit
  /-- The write loop of `comm_flush`. -/
  | drain : SlotEffect Unit
  /-- `comm_abstract_remove`. -/
  | remove : SlotEffect Unit
  /-- `comm_abstract_add_bio` gives the slot number to a new connection. -/
  | addBio (rbio wbio wbioFd : Bool) (flags : Flags) : SlotEffect Unit
  | sslHandshake : SlotEffect HandshakeStep
  | transportRead : SlotEffect ReadAnswer
  | sslRead : SlotEffect TlsRead
  | callFlush : SlotEffect Unit
  | callClose : SlotEffect Bool
  | callTransportReady : SlotEffect Unit

/-- Code of a slot. -/
abbrev Code := Program SlotEffect

open Program (effect)

/-! ### Access to the record -/

/-- The test of a `comm_abstract_ptr`: the record if the slot is in use. -/
def commGuard : Code (Option CommAbstract) := do
  let comm ← effect .getSlot
  pure (if comm.live then some comm else none)

/-- `comm_abstract_ptr::operator->`. -/
def commDeref : Code CommAbstract := do
  let comm ← effect .getSlot
  if comm.live then pure comm else Program.perform .invalidAccess nofun

/-- Store the record. -/
def setComm (comm : CommAbstract) : Code Unit := effect (.setSlot comm)

/-- Change the record through the guard. -/
def modifyComm (f : CommAbstract → CommAbstract) : Code Unit := do
  let comm ← commDeref
  setComm (f comm)

/-- Change the flags through the guard. -/
def modifyFlags (f : Flags → Flags) : Code Unit := modifyComm fun comm => comm.mapFlags f

/-- Mark the input deferred, on the slot and for the event loop. -/
def deferInbound : Code Unit := do
  modifyFlags fun flags => { flags with deferredInbound := true }
  effect (.setHasDeferred true)

/-- `comm_defer_input`, which is also what `_resume_input_after_inbound_hook` does. -/
def commDeferInput : Code Unit := do
  match ← commGuard with
  | none => pure ()
  | some _ => deferInbound

/-- `comm_buffered_write_comm`. -/
def commBufferedWriteComm (buf : Bytes) : Code Unit := effect (.write true buf)

/-- `comm_buffered_write_comm_no_telnet_normalize`. -/
def commBufferedWriteNoNormalize (buf : Bytes) : Code Unit := effect (.write false buf)

/-! ### Dispatching a hook -/

/-- This slot's part of `comm_flush_all`: its flush in the first loop, and in the second one the
progress of a close that no hook holds back. -/
def commFlushAll : Code Unit := do
  effect .otherSlots
  effect .callFlush
  effect .otherSlots
  match ← commGuard with
  | none => pure ()
  | some comm =>
    if comm.flags.closing && !comm.flags.awaitingHook then do
      let _ ← effect .callClose
      pure ()
    else pure ()
  effect .otherSlots

/-- The completion callbacks. When a close was requested while the connect or the transport-ready
hook ran, the await flag belongs to the disconnect hook. -/
def runCompletion : Completion → Code Unit
  | .none => pure ()
  | .inbound => commDeferInput
  | .disconnect => do
    match ← commGuard with
    | none => pure ()
    | some comm => setComm (comm.mapFlags fun flags => { flags with awaitingHook := false })
  | .transportReady => do
    match ← commGuard with
    | none => pure ()
    | some comm =>
      if !comm.flags.closing then
        modifyFlags fun flags => { flags with awaitingHook := false }
      else pure ()
      deferInbound
  | .connect => do
    match ← commGuard with
    | none => pure ()
    | some comm =>
      if !comm.flags.closing then
        modifyFlags fun flags => { flags with awaitingHook := false }
      else pure ()
      effect .callTransportReady
      deferInbound

/-- `mudmux_execution::invoke` with flushing, in strict mode. A hook that is not registered
counts as returning zero, and nothing is flushed. -/
def invokeInline (setup : Setup) (call : HookCall) : Code Bool :=
  if !setup.registered call.hookType then pure true
  else do
    effect (.beginHook call)
    let ok ← effect (.runHook call)
    commFlushAll
    pure ok

/-- What `mudmux_execution_dispatch` does behind an inline invocation. -/
def finishInline (call : HookCall) (completion : Completion) (ok : Bool) : Code DispatchResult := do
  runCompletion completion
  -- these two executions are built without a current slot, so no await can be theirs
  if call.hookType = .disconnect || call.hookType = .messageOutbound then pure ()
  else effect .finalizeAwait
  pure (if ok then .ok else .error)

/-- `mudmux_execution_dispatch` of a slot's registered hook. Every hook of a slot is
asynchronous in relaxed mode. -/
def mudmuxExecutionDispatch (setup : Setup) (call : HookCall) (completion : Completion) :
    Code DispatchResult :=
  if setup.relaxed then effect (.enqueue call completion)
  else do
    let ok ← invokeInline setup call
    finishInline call completion ok

end Mudmux.Comm
