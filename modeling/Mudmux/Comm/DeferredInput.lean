import Mudmux.Comm.Machine
import Mudmux.Lib.Sections

/-!
# `Mudmux.Comm.DeferredInput`: deferred input and the event loop

The loop of `mudmux_run` around one slot and the variable `has_deferred_input`. An iteration waits,
takes the input of the slot, calls `comm_resume_deferred_input` if `has_deferred_input` is set, advances
output and closes, and shows the prompt.

Every piece of code on the slot is a turn with `comm_slots_mtx` held. `comm_resume_deferred_input` takes
the lock once for every slot and stores its `any_deferred` without it, so it is a turn for this slot
(`resumeSlot`), any number of turns for the others and a last one for the store. Workers and other
threads take turns at any time, also between those. Of the other slots only their part in
`has_deferred_input` and `any_deferred` is seen, and it may be anything.
-/

set_option autoImplicit false

namespace Mudmux.Comm

open Mudmux.Lib
open Program (effect)

/-- One iteration of the loop of `comm_resume_deferred_input`. The answer says whether the slot counts
for `any_deferred`. -/
def commResumeSlot (setup : Setup) : Code Bool := do
  match ← commGuard with
  | none => pure false
  | some comm =>
    if !comm.flags.deferredInbound then pure false
    else if ← effect .slotBusy then pure true
    else do
      modifyFlags fun flags => { flags with deferredInbound := false }
      let result ← commProcessInput setup none
      if result = .closed || result = .error then do
        let _ ← effect .callClose
        pure false
      else
        match ← commGuard with
        | none => pure false
        | some comm => pure comm.flags.deferredInbound

/-- The value of `has_deferred_input`. -/
def observeDeferred : Observer Bool
  | _, .setHasDeferred value, _, _, _, _ => value
  | _, _, _, _, _, n => n

/-- Where the event loop is: about to wait, behind the wait, in `comm_resume_deferred_input` with its
`any_deferred` and whether it has passed this slot, and behind that. -/
inductive LoopPhase where
  | waiting
  | input
  | resuming (passed anyDeferred : Bool)
  | output
  deriving DecidableEq, Repr

/-- The turns. -/
inductive LoopTurn where
  /-- `async_runtime_wait` returns. -/
  | wake
  /-- Code on the slot, by the event loop or by another thread. -/
  | code (x : Entry)
  /-- The input of another slot is deferred. -/
  | otherDefers
  /-- `comm_resume_deferred_input` is called. -/
  | beginResume
  | resumeSlot
  /-- `comm_resume_deferred_input` finds another slot's input still deferred. -/
  | otherDeferred
  /-- `comm_resume_deferred_input` stores its `any_deferred`. -/
  | endResume
  /-- The loop finds no deferred input. -/
  | skipResume
  /-- The loop starts over. -/
  | block
  deriving DecidableEq, Repr

/-- In which phases of the loop the code runs. Public calls and the tasks of the worker pool are made by
other threads as well. -/
def Entry.runsIn (phase : LoopPhase) : Entry → Bool
  | .event _ | .queuedInput _ | .consoleEof _ | .accept _ => phase = .input
  | .flush | .progressClose | .prompt => phase = .output
  | .resumeInput => false -- it is the turn `resumeSlot`
  | .api _ _ | .addBio _ _ _ _ | .startTask _ | .completeTask _ => true

/-- No connection begins with `C_DEFERRED_INBOUND`. -/
def Entry.connectsOpen : Entry → Bool
  | .accept flags | .addBio _ _ _ flags => !flags.deferredInbound
  | _ => true

/-- The event loop and the other threads around a slot. -/
abbrev loopSystem (setup : Setup) : SectionSystem (slotSystem setup observeDeferred) where
  Control := LoopPhase
  Label := LoopTurn
  Result
    | .resumeSlot => Bool
    | _ => Unit
  code
    | .code x => entryCode setup x
    | .resumeSlot => commResumeSlot setup
    | .wake | .otherDefers | .beginResume | .otherDeferred | .endResume | .skipResume | .block =>
      pure ()
  enabled s phase
    | .wake => phase = .waiting
    | .code x => x.runsIn phase && x.connectsOpen && entryEnabled setup s x
    | .otherDefers => true
    | .beginResume => phase = .input && s.notes
    | .skipResume => phase = .input && !s.notes
    | .resumeSlot =>
      match phase with
      | .resuming passed _ => !passed
      | _ => false
    | .otherDeferred =>
      match phase with
      | .resuming _ _ => true
      | _ => false
    | .endResume =>
      match phase with
      | .resuming passed _ => passed
      | _ => false
    | .block => phase = .output
  after
    | .wake, _, s, _ => (s, .input)
    | .code _, _, s, phase => (s, phase)
    | .otherDefers, _, s, phase => ({ s with notes := true }, phase)
    | .beginResume, _, s, _ => (s, .resuming false false)
    | .skipResume, _, s, _ => (s, .output)
    | .resumeSlot, answer, s, .resuming _ anyDeferred => (s, .resuming true (anyDeferred || answer))
    | .resumeSlot, _, s, phase => (s, phase)
    | .otherDeferred, _, s, .resuming passed _ => (s, .resuming passed true)
    | .otherDeferred, _, s, phase => (s, phase)
    | .endResume, _, s, .resuming _ anyDeferred => ({ s with notes := anyDeferred }, .output)
    | .endResume, _, s, phase => (s, phase)
    | .block, _, s, _ => (s, .waiting)

/-- The loop before its first wait, with a slot number that has had no connection yet. -/
def freshLoop (setup : Setup) : (loopSystem setup).Config := ⟨⟨{}, [], false⟩, .waiting⟩

/-- Input of a slot in use is deferred. -/
def CommAbstract.deferred (c : CommAbstract) : Bool := c.live && c.flags.deferredInbound

/-! ### Complete messages -/

/-- The unread bytes of the buffer that the character scanner looks at. -/
def CommAbstract.headData (c : CommAbstract) : Bytes :=
  match skipNonDataHeadBuffers c.inbound with
  | [] => []
  | ibb :: _ => ibb.buf.data

/-- The bytes hold a complete message of the slot's input mode. -/
def holdsMessage (setup : Setup) (flags : Flags) (line character : Bytes) : Bool :=
  if flags.lineInput then line.any isTerminator
  else (findCharInputSequence setup flags.enableAnsi character).isSome

/-- A complete message waits in the buffers of the slot: a line, a character, or on an upgraded
WebSocket a message in frames. -/
def CommAbstract.hasMessage (setup : Setup) (c : CommAbstract) : Bool :=
  if c.flags.websocketState.isReady then
    let w := c.websocket.getD {}
    holdsMessage setup c.flags w.decodedInput w.decodedInput
      || !(websocketDecode 1 w.fragment (w.pendingWire ++ c.inboundData)).messages.isEmpty
  else !c.flags.enableWebsocket && holdsMessage setup c.flags c.inboundData c.headData

/-- The event loop is about to block although a message of the slot could be delivered. -/
def sleepsOnInput (setup : Setup) (c : (loopSystem setup).Config) : Bool :=
  c.control = .waiting && c.state.comm.live && !c.state.comm.flags.awaitingHook
    && c.state.comm.flags.deferredInbound && c.state.comm.hasMessage setup

end Mudmux.Comm
