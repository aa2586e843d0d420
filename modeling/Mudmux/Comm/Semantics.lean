import Mudmux.Comm.EventLoop

/-!
# `Mudmux.Comm.Semantics`: what the effects do to the record

`slotExec` gives every effect its meaning on the slot record. What the outside decides comes as an
`Answer`: what a hook returned, what the scheduler said, what the transport did. An effect without
an answer has no next step; that is so for an access to a slot that is gone, and for the three
recursive calls, whose code `unfold` gives instead.
-/

set_option autoImplicit false

namespace Mudmux.Comm

open Mudmux.Lib

/-- `comm_abstract_remove` on a slot in use. The capabilities and the generation stay in the
record. -/
def commAbstractRemove (comm : CommAbstract) : CommAbstract :=
  { comm with
      rbio := false
      wbio := false
      ssl := false
      inbound := []
      outbound := []
      websocketUpgradeBarrier := []
      websocket := none
      flags := {} }

/-- `comm_abstract_add_bio` on a slot number; a connection that is still there is removed first.
The generation counter is a 64-bit one that skips zero. -/
def commAbstractAddBio (comm : CommAbstract) (rbio wbio wbioFd : Bool) (flags : Flags) :
    CommAbstract :=
  let comm := if comm.live then commAbstractRemove comm else comm
  let generation := (comm.generation + 1) % 2 ^ 64
  { comm with
      rbio, wbio, wbioFd, flags
      generation := if generation = 0 then 1 else generation }

/-- What the outside decides at an effect. -/
inductive Answer where
  | unit
  | bool (value : Bool)
  | dispatch (result : DispatchResult)
  | handshake (step : HandshakeStep)
  | read (answer : ReadAnswer)
  | tlsRead (read : TlsRead)
  | writes (answers : List WriteAnswer)
  deriving DecidableEq, Repr

/-- A change that the called function makes only on a slot in use. -/
def ifLive (comm : CommAbstract) (f : CommAbstract → CommAbstract) : CommAbstract :=
  if comm.live then f comm else comm

/-- The meaning of an effect on the slot record. The scheduler never answers `ok`, which is the
answer of an inline invocation. -/
def slotExec : {β : Type} → SlotEffect β → Answer → CommAbstract → Option (β × CommAbstract)
  | _, .getSlot, .unit, comm => some (comm, comm)
  | _, .setSlot comm', .unit, _ => some ((), comm')
  | _, .setHasDeferred _, .unit, comm => some ((), comm)
  | _, .slotBusy, .bool busy, comm => some (busy, comm)
  | _, .cancelAwait, .unit, comm => some ((), comm)
  | _, .finalizeAwait, .unit, comm => some ((), comm)
  | _, .beginHook _, .unit, comm => some ((), comm)
  | _, .runHook _, .bool ok, comm => some (ok, comm)
  | _, .enqueue _ _, .dispatch result, comm => if result = .ok then none else some (result, comm)
  | _, .otherSlots, .unit, comm => some ((), comm)
  | _, .write normalize buf, .unit, comm =>
    some ((), ifLive comm fun comm => commBufferedWriteImpl normalize comm buf)
  | _, .writeRaw buf, .unit, comm =>
    some ((), ifLive comm fun comm => commBufferedWriteRaw comm buf)
  | _, .pong payload, .unit, comm =>
    some ((), ifLive comm fun comm => writeControlFrame comm opPong payload)
  | _, .queueClose payload, .unit, comm =>
    some ((), ifLive comm fun comm => commWebsocketQueueClose comm payload)
  | _, .releaseBarrier, .unit, comm => some ((), ifLive comm releaseUpgradeBarrier)
  | _, .freeOutbound, .unit, comm => some ((), ifLive comm commFreeOutboundBuffers)
  | _, .drain, .writes answers, comm =>
    some ((), ifLive comm fun comm => (flushOutbound comm answers).1)
  | _, .remove, .unit, comm => some ((), ifLive comm commAbstractRemove)
  | _, .addBio rbio wbio wbioFd flags, .unit, comm =>
    some ((), commAbstractAddBio comm rbio wbio wbioFd flags)
  | _, .sslHandshake, .handshake step, comm => some (step, comm)
  | _, .transportRead, .read answer, comm => some (answer, comm)
  | _, .sslRead, .tlsRead read, comm => some (read, comm)
  | _, _, _, _ => none

/-- The effects during which foreign code runs: a hook, the closures of an await that is dropped
or started, and the hooks of other slots. -/
def reentrant : {β : Type} → SlotEffect β → Bool
  | _, .runHook _ => true
  | _, .cancelAwait => true
  | _, .finalizeAwait => true
  | _, .otherSlots => true
  | _, _ => false

end Mudmux.Comm
