import Mudmux.Proofs.CodeSteps

/-!
# `Mudmux.Proofs.CloseFrame`: what is queued behind a WebSocket Close frame

An observer of the outbound queue notes when a Close frame has been appended to it and whether
anything is appended or released into it after that. Application output is the only traffic that the
code stops, and only while the slot is in `WS_CLOSE_SENT`. Three ways around it are left: a Ping that
is answered after the Close, output once the peer's Close has moved the slot on to
`WS_CLOSE_RECEIVED`, and the release of the upgrade barrier. In runs without these three the Close
frame is final.
-/

set_option autoImplicit false

namespace Mudmux.Comm

open Mudmux.Lib
open CallbackSystem

variable {setup : Setup}

/-- What the observer knows about the current connection, and whether it ever saw a frame queued
behind a Close. -/
structure CloseNotes where
  closeQueued : Bool := false
  queuedAfterClose : Bool := false
  deriving DecidableEq, Repr

/-- The notes at an effect that may put a frame into the queue. -/
def CloseNotes.frame (c c' : CommAbstract) (n : CloseNotes) : CloseNotes :=
  { n with queuedAfterClose := n.queuedAfterClose || (n.closeQueued && c'.outbound ≠ c.outbound) }

/-- The observer. A Close frame counts from the moment it is in the queue, until the slot number is
given to another connection. -/
def observeClose : Observer CloseNotes
  | _, .write _ _, _, c, c', n => n.frame c c'
  | _, .writeRaw _, _, c, c', n => n.frame c c'
  | _, .pong _, _, c, c', n => n.frame c c'
  | _, .releaseBarrier, _, c, c', n => n.frame c c'
  | _, .queueClose _, _, c, c', n =>
    { n.frame c c' with closeQueued := n.closeQueued || c'.outbound ≠ c.outbound }
  | _, .addBio _ _ _ _, _, _, _, n => { n with closeQueued := false }
  | _, _, _, _, _, n => n

/-- The condition on the steps: with a Close frame queued, no Ping is answered, no barrier is
released, and no output is written once the peer's Close has been seen. -/
def closeFinalGuard (setup : Setup) : (slotSystem setup observeClose).Guard where
  entry _ _ := true
  effect s e _ :=
    match e with
    | .pong _ => !s.notes.closeQueued
    | .releaseBarrier => !s.notes.closeQueued
    | .write _ _ => !(s.notes.closeQueued && s.comm.flags.websocketState = .closeReceived)
    | _ => true

/-- While a Close frame is queued the WebSocket is in one of the two closing states, and nothing was
queued behind a Close. -/
structure CloseFinal (c : CommAbstract) (n : CloseNotes) : Prop where
  closed : n.closeQueued = true → c.live = true → c.flags.websocketState.closed = true
  final : n.queuedAfterClose = false

variable {c c' : CommAbstract} {n : CloseNotes}

/-- An operation on the queue that leaves the queue alone whenever a Close frame is in it. -/
theorem CloseFinal.frame (h : CloseFinal c n) (hstep : QueueStep c c')
    (hqueue : n.closeQueued = true → c'.outbound = c.outbound) :
    CloseFinal c' (n.frame c c') where
  closed hn hlive := hstep.closed (h.closed hn (hstep.live ▸ hlive))
  final := by
    simp only [CloseNotes.frame, h.final, Bool.false_or, Bool.and_eq_false_imp]
    intro hn
    simp [hqueue hn]

theorem CloseFinal.queueStep (h : CloseFinal c n) (hstep : QueueStep c c') : CloseFinal c' n :=
  ⟨fun hn hlive => hstep.closed (h.closed hn (hstep.live ▸ hlive)), h.final⟩

/-- An operation that is a no-op on a closing WebSocket, behind the guard. -/
theorem outbound_ifLive (h : CloseFinal c n) {f : CommAbstract → CommAbstract}
    (hf : c.flags.websocketState.closed = true → f c = c) (hn : n.closeQueued = true) :
    (ifLive c f).outbound = c.outbound := by
  unfold ifLive
  split
  · rename_i hlive
    rw [hf (h.closed hn hlive)]
  · rfl

/-- No data frame is queued in `WS_CLOSE_SENT`. -/
theorem commBufferedWriteImpl_of_closeSent (normalize : Bool) (buf : Bytes)
    (h : c.flags.websocketState = .closeSent) : commBufferedWriteImpl normalize c buf = c := by
  simp [commBufferedWriteImpl, h]

/-- Every effect keeps the Close frame final, on the condition of `closeFinalGuard`. -/
theorem CloseFinal.step {β : Type} {e : SlotEffect β} {s : SlotState CloseNotes} {a : Answer}
    {b : β} (hspec : slotSpec setup True β s.comm e) (hi : CloseFinal s.comm s.notes)
    (hg : (closeFinalGuard setup).effect s e a = true) (hexec : slotExec e a s.comm = some (b, c')) :
    CloseFinal c' (observeClose e a s.comm c' s.notes) := by
  cases e with
  | setSlot comm' =>
    cases a <;> cases hexec
    exact ⟨fun hn hl => hspec.closed (hi.closed hn (hspec.live ▸ hl)), hi.final⟩
  | write normalize buf =>
    cases a <;> cases hexec
    refine hi.frame (QueueStep.ifLive (commBufferedWriteImpl_queueStep _ _) _) fun hn => ?_
    refine outbound_ifLive hi (fun hclosed => ?_) hn
    have hne : s.comm.flags.websocketState ≠ .closeReceived := by
      simpa [closeFinalGuard, hn] using hg
    refine commBufferedWriteImpl_of_closeSent _ _ ?_
    simpa [WebSocketState.closed, hne] using hclosed
  | writeRaw buf =>
    cases a <;> cases hexec
    refine hi.frame (QueueStep.ifLive (commBufferedWriteRaw_queueStep _) _) fun hn => ?_
    refine outbound_ifLive hi (fun hclosed => ?_) hn
    rw [show s.comm.flags.websocketState.closed = false from hspec] at hclosed
    cases hclosed
  | pong payload =>
    cases a <;> cases hexec
    refine hi.frame (QueueStep.ifLive (writeControlFrame_queueStep _ _) _) fun hn => ?_
    simp [closeFinalGuard, hn] at hg
  | releaseBarrier =>
    cases a <;> cases hexec
    refine hi.frame (QueueStep.ifLive releaseUpgradeBarrier_queueStep _) fun hn => ?_
    simp [closeFinalGuard, hn] at hg
  | queueClose payload =>
    cases a <;> cases hexec
    have hstep := QueueStep.ifLive (commWebsocketQueueClose_queueStep payload) s.comm
    have hframe := hi.frame hstep fun hn =>
      outbound_ifLive hi (commWebsocketQueueClose_of_closed payload) hn
    refine ⟨fun hn hlive => ?_, hframe.final⟩
    -- behind the call the state is closed, whether the frame was queued or not
    have hlive' : s.comm.live = true := hstep.live ▸ hlive
    simp only [ifLive, hlive', if_true]
    cases hclosed : s.comm.flags.websocketState.closed with
    | true => rwa [commWebsocketQueueClose_of_closed payload hclosed]
    | false =>
      rw [commWebsocketQueueClose_of_open payload hclosed]
      rfl
  | freeOutbound =>
    cases a <;> cases hexec
    exact hi.queueStep (QueueStep.ifLive commFreeOutboundBuffers_queueStep _)
  | drain =>
    cases a <;> cases hexec
    exact hi.queueStep (QueueStep.ifLive (flushOutbound_queueStep _) _)
  | remove =>
    cases a <;> cases hexec
    refine ⟨fun hn hlive => ?_, hi.final⟩
    unfold ifLive at hlive
    split at hlive
    · cases hlive
    · contradiction
  | addBio rbio wbio wbioFd flags =>
    cases a <;> cases hexec
    exact ⟨(fun h => by cases h), hi.final⟩
  | _ =>
    rw [slotExec_of_leavesRecord rfl hexec]
    exact hi

/-- A strict-mode server with a connect hook and no other. -/
def connectHookSetup : Setup where
  relaxed := false
  registered hook := hook = .connect
  console := false
  fileInputs := false
  consoleTty := false
  acceptKey := id
  mbrlen _ := .complete 1

def upgradeRequest : Chunk where
  data := ascii
    "GET / HTTP/1.1\nUpgrade: websocket\nConnection: Upgrade\nSec-WebSocket-Key: k\n\n"
  fits := by decide

def pingFrame : Chunk := ⟨[0x89, 0x80, 0, 0, 0, 0], by decide⟩

/-- The connect hook asks for WebSocket, the transport takes all output, and the client sends the
upgrade request first and Pings then. -/
def pingClient {β : Type} (s : SlotState CloseNotes) :
    SlotEffect β → (slotSystem connectHookSetup observeClose).Move
  | .runHook _ =>
    if s.comm.flags.enableWebsocket then .answer (.bool true)
    else .enter (.api ⟨some .connect, true⟩ (.enableWebsocket []))
  | .slotBusy => .answer (.bool false)
  | .drain => .answer (.writes [⟨bufferSize, true⟩])
  | .transportRead =>
    .answer (.read (.data
      (if s.comm.flags.websocketState.isReady then pingFrame else upgradeRequest)))
  | _ => .answer .unit

/-- Upgrade, close by the application. -/
def upgradeAndClose : List Entry :=
  [.accept {}, .event ⟨true, false, false⟩, .flush, .api ⟨none, false⟩ .close]

end Mudmux.Comm
