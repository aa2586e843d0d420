import Mudmux.Comm.Semantics
import Mudmux.Lib.Callback

/-!
# `Mudmux.Comm.Machine`: the life of a slot number

The slot as a callback system. At rest nobody holds `comm_slots_mtx` for the slot. Then the event
loop may take any of its steps on the slot, a worker may start or complete a task that was accepted
for it, and any thread may make a public call. During a hook of the slot, foreign code may make public
calls on it, and these may run further hooks.

A relaxed-mode task remembers the generation of the slot at its acceptance. Before the hook and again
before the completion the worker compares it with the current one, but it holds no lock from the
comparison on: the hook and the completion of a task may come at any time behind its acceptance, also
when the slot number has a new connection. The order in which the scheduler starts tasks is the subject
of `Mudmux.Execution` and is left open here; so is whether the slot is busy.

A slot number is given to a new connection only at rest. That leaves out a hook that closes its own
connection and has its number assigned again before it returns: the parser on the stack below would
go on with buffers it no longer owns.

The state also carries what an observer notes of the run; the code cannot see it.
-/

set_option autoImplicit false

namespace Mudmux.Comm

open Mudmux.Lib
open Program (effect)

/-- An execution that the scheduler accepted for the slot. -/
structure Task where
  call : HookCall
  completion : Completion
  generation : Nat
  deriving DecidableEq, Repr

/-- The completion of a hook in relaxed mode, which depends on its type only. -/
def HookType.completion : HookType → Completion
  | .connect => .connect
  | .disconnect => .disconnect
  | .messageInbound => .inbound
  | .transportReady => .transportReady
  | .messageOutbound | .prompt | .telnetSubneg => .none

/-- Whatever starts code on the slot. -/
inductive Entry where
  /-- A public call by a hook or by any thread. -/
  | api (caller : Caller) (call : ApiCall)
  | event (event : IoEvent)
  | resumeInput
  /-- The first and the second loop of `comm_flush_all`. -/
  | flush
  | progressClose
  | prompt
  /-- Chunks from the console or file queue. -/
  | queuedInput (chunks : List Chunk)
  | consoleEof (allowReconnect : Bool)
  /-- A free slot number is given to an accepted connection, and its connect hook is dispatched. -/
  | accept (flags : Flags)
  /-- A public `add_bio`, which replaces what is there. -/
  | addBio (rbio wbio wbioFd : Bool) (flags : Flags)
  | startTask (task : Task)
  | completeTask (task : Task)
  deriving DecidableEq, Repr

/-- `comm_abstract_generation`. -/
def commAbstractGeneration (comm : CommAbstract) : Nat := if comm.live then comm.generation else 0

/-- The code of an entry. -/
def entryCode (setup : Setup) : Entry → Code Unit
  | .api caller call => apiCode setup caller call
  | .event event => processEvent setup event
  | .resumeInput => commResumeDeferredInput setup
  | .flush => effect .callFlush
  | .progressClose => do
    match ← commGuard with
    | none => pure ()
    | some comm =>
      if comm.flags.closing && !comm.flags.awaitingHook then do
        let _ ← effect .callClose
        pure ()
      else pure ()
  | .prompt => commInvokePrompt setup
  | .queuedInput chunks => processQueuedInput setup chunks
  | .consoleEof allowReconnect => processConsoleEof allowReconnect
  | .accept flags => do
    match ← commGuard with
    | some _ => pure ()
    | none => do
      effect (.addBio true true true flags)
      commInvokeConnect setup
  | .addBio rbio wbio wbioFd flags =>
    if rbio || wbio then effect (.addBio rbio wbio wbioFd flags) else pure ()
  | .startTask task => effect (.beginHook task.call)
  | .completeTask task => runCompletion task.completion

/-- The state of the slot number: its record, the accepted tasks, and an observer's notes. -/
structure SlotState (γ : Type) where
  comm : CommAbstract
  tasks : List Task
  notes : γ

/-- What an observer notes at an effect: from the outside's answer, the record before and the one
after. -/
abbrev Observer (γ : Type) :=
  {β : Type} → SlotEffect β → Answer → CommAbstract → CommAbstract → γ → γ

/-- The tasks after an effect: the scheduler accepts by answering `queued`. -/
def tasksAfter (comm : CommAbstract) (tasks : List Task) : {β : Type} → SlotEffect β → β → List Task
  | _, .enqueue call completion, .queued =>
    tasks ++ [⟨call, completion, commAbstractGeneration comm⟩]
  | _, _, _ => tasks

/-- Tasks are started and completed only by the worker pool of relaxed mode and only if they were
accepted, and console input ends only on the console. -/
def entryEnabled {γ : Type} (setup : Setup) (s : SlotState γ) : Entry → Bool
  | .startTask task => setup.relaxed && task ∈ s.tasks
  | .completeTask task => setup.relaxed && task ∈ s.tasks
  | .consoleEof _ => setup.console
  | _ => true

/-- The life of a slot number under an observer. -/
abbrev slotSystem (setup : Setup) {γ : Type} (observe : Observer γ) : CallbackSystem SlotEffect where
  State := SlotState γ
  Answer := Answer
  Entry := Entry
  exec e a s :=
    (slotExec e a s.comm).map fun r =>
      (r.1, {
        comm := r.2
        tasks := tasksAfter s.comm s.tasks e r.1
        notes := observe e a s.comm r.2 s.notes })
  unfold e := unfold setup e
  reentrant e := reentrant e
  code x := entryCode setup x
  enabled s x := entryEnabled setup s x
  foreign
    | .api _ _ => true
    | _ => false

/-- The system at rest, with a slot number that has had no connection yet. -/
def freeSlot (setup : Setup) {γ : Type} (observe : Observer γ) (notes : γ) :
    (slotSystem setup observe).Config :=
  ⟨⟨{}, [], notes⟩, .done ()⟩

end Mudmux.Comm
