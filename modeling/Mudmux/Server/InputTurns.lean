import Mudmux.Server.Machine
import Mudmux.Lib.Sections

/-!
# `Mudmux.Server.InputTurns`: calls of `comm_process_input` beside the scheduler

The event loop calls `comm_process_input` in three places: for a read event, behind a test that no hook
is awaited and the slot is not busy; in `comm_resume_deferred_input`, behind the same test of the slot;
and for the queues of the console and of a file, behind no test. `readInput`, `resumeInput` and
`queuedInput` are these pieces of the code up to the answer of `comm_process_input`. The equations
below say how `readEvent`, `commResumeDeferredInput` and `processQueuedInput` go on from there.

In `inputSystem` a turn is the code of an entry of `Mudmux.Server.system`, or one of these pieces. Every
turn holds the lock of the slot table from its beginning to its end, and the threads of the scheduler
move during it. The control state is the answer of `comm_process_input`, if the last turn was a piece
that came so far.
-/

set_option autoImplicit false

namespace Mudmux.Server

open Mudmux.Lib
open Mudmux.Comm (CommAbstract Code Chunk ProcessResult commGuard commProcessInput
  commRefillInboundBuffers modifyFlags)
open Program (effect)

/-! ### The three callers -/

/-- The read branch of the event loop up to the answer of `comm_process_input`, with that of the
refill. -/
def readInput (setup : Comm.Setup) (comm : CommAbstract) : Code (Option (Bool × ProcessResult)) := do
  let busy ← if comm.flags.awaitingHook then pure true else effect .slotBusy
  if busy then pure none
  else do
    let refilled ← commRefillInboundBuffers setup
    let result ← commProcessInput setup none
    pure (some (refilled, result))

/-- One slot's turn in `comm_resume_deferred_input`, up to the answer of `comm_process_input`. -/
def resumeInput (setup : Comm.Setup) : Code (Option ProcessResult) := do
  match ← commGuard with
  | none => pure none
  | some comm =>
    if !comm.flags.deferredInbound then pure none
    else if ← effect .slotBusy then pure none
    else do
      modifyFlags fun flags => { flags with deferredInbound := false }
      let result ← commProcessInput setup none
      pure (some result)

/-- The chunks of the console or file queue and `comm_process_input`. -/
def queuedInput (setup : Comm.Setup) (chunks : List Chunk) : Code (Option ProcessResult) := do
  Comm.refillQueued setup chunks
  let result ← commProcessInput setup none
  pure (some result)

variable (setup : Comm.Setup)

theorem readEvent_eq (comm : CommAbstract) :
    Comm.readEvent setup comm = (do
      match ← readInput setup comm with
      | none => pure true
      | some (refilled, result) =>
        match ← commGuard with
        | none => pure true
        | some _ =>
          if !refilled then do
            Comm.closeAfterEof
            pure true
          else if result = .error || result = .closed then do
            let _ ← effect .callClose
            pure true
          else pure false) := by
  simp only [Comm.readEvent, readInput]
  split
  · rfl
  · simp only [Program.bind_assoc']
    congr 1
    funext busy
    cases busy with
    | true => rfl
    | false =>
      simp only [Bool.false_eq_true, if_false, Program.bind_assoc']
      rfl

theorem commResumeDeferredInput_eq :
    Comm.commResumeDeferredInput setup = (do
      match ← resumeInput setup with
      | none => pure ()
      | some result =>
        if result = .closed || result = .error then do
          let _ ← effect .callClose
          pure ()
        else pure ()) := by
  simp only [Comm.commResumeDeferredInput, resumeInput, Program.bind_assoc']
  congr 1
  funext guarded
  cases guarded with
  | none => rfl
  | some comm =>
    dsimp only
    split
    · rfl
    · simp only [Program.bind_assoc']
      congr 1
      funext busy
      cases busy with
      | true => rfl
      | false =>
        simp only [Bool.false_eq_true, if_false, Program.bind_assoc']
        rfl

theorem processQueuedInput_eq (chunks : List Chunk) :
    Comm.processQueuedInput setup chunks = (do
      let _ ← queuedInput setup chunks
      pure ()) := by
  simp only [Comm.processQueuedInput, queuedInput, Program.bind_assoc', Program.pure_eq,
    Program.done_bind]

/-! ### Turns -/

/-- The turns. -/
inductive InputTurn where
  /-- An entry of the machine. -/
  | code (x : Entry)
  | read
  | resume
  | queued (chunks : List Chunk)
  deriving DecidableEq, Repr

/-- A read event of the slot up to the answer of `comm_process_input`. A listener is not read. -/
def readTurn (setup : Comm.Setup) : Code (Option ProcessResult) := do
  match ← commGuard with
  | none => pure none
  | some comm =>
    if comm.flags.socketListening then pure none
    else do
      let answers ← readInput setup comm
      pure (answers.map Prod.snd)

/-- The slot, its scheduler and the calls of `comm_process_input`. -/
abbrev inputSystem (setup : Setup) {γ : Type} (observe : Observer γ) :
    SectionSystem (system setup observe) where
  Control := Option ProcessResult
  Label := InputTurn
  Result
    | .code _ => Unit
    | .read | .resume | .queued _ => Option ProcessResult
  code
    | .code x => entryCode setup x
    | .read => onSlot (readTurn setup.comm)
    | .resume => onSlot (resumeInput setup.comm)
    | .queued chunks => onSlot (queuedInput setup.comm chunks)
  enabled s _
    | .code x => entryEnabled setup s x
    | .read | .resume | .queued _ => true
  after
    | .code _, _, s, _ => (s, none)
    | .read, answer, s, _ => (s, answer)
    | .resume, answer, s, _ => (s, answer)
    | .queued _, answer, s, _ => (s, answer)

/-- Nothing has happened on the slot number yet. -/
def freshInput (setup : Setup) {γ : Type} (observe : Observer γ) (notes : γ) :
    (inputSystem setup observe).Config :=
  ⟨⟨{}, {}, [], notes⟩, none⟩

/-! ### Input that nothing resumes -/

section Marks

variable {γ : Type}

/-- The hooks whose completion sets `C_DEFERRED_INBOUND`. -/
def resumesInput : Comm.HookType → Bool
  | .connect | .transportReady | .messageInbound => true
  | .disconnect | .messageOutbound | .prompt | .telnetSubneg => false

/-- The task with a thread, up to its completion. -/
def taskOf : Execution.Point → Option Execution.SlotExecution
  | .enqueueSubmit task | .submitNext task | .pooled (.execution task) | .runExecution task
  | .hook task _ | .hookReturned task | .completion task => some task
  | _ => none

/-- A hook whose completion will set `C_DEFERRED_INBOUND` on the connection is queued or running. -/
def State.willResume (s : State γ) : Bool :=
  (s.scheduler.state.pending ++ s.threads.filterMap taskOf).any fun task =>
    task.generation = s.scheduler.generation && resumesInput task.execution.hookType

/-- `comm_process_input` has put the input off although no hook is awaited, and neither is the slot
marked nor will a hook mark it. -/
def leftUnmarked {setup : Setup} {observe : Observer γ} (c : (inputSystem setup observe).Config) :
    Bool :=
  c.control = some .deferred && c.state.comm.live && !c.state.comm.flags.awaitingHook
    && !c.state.comm.flags.deferredInbound && !c.state.willResume

end Marks

end Mudmux.Server
