import Mudmux.Comm.Surroundings

/-!
# `Mudmux.Comm.HookPolicy`: inbound hooks that choose the input mode

Two ways to run one slot with a hook that answers every message by leaving the input mode alone or
by calling `comm_set_line_input` or `comm_set_char_input`.

In strict mode the hook runs inside the parser: `policySurroundings` is the slot's surroundings,
whose state is the messages delivered so far. In relaxed mode a worker runs the hook, and
`RelaxedSlot.Step` has the interleavings: the parser pass, the hook's call and the completion hold
`comm_slots_mtx` from their beginning to their end, and happen in any order the scheduler's lane
allows.
-/

set_option autoImplicit false

namespace Mudmux.Comm

open Mudmux.Lib

/-! ### Hooks -/

/-- What a hook does about the input mode. -/
inductive ModeChoice where
  | keep
  | lineInput (echo : Bool)
  | charInput
  deriving DecidableEq, Repr

/-- The public call a hook makes. -/
def ModeChoice.call (setup : Setup) : ModeChoice → Code Unit
  | .keep => pure ()
  | .lineInput echo => do
    let _ ← commSetLineInput setup echo
    pure ()
  | .charInput => do
    let _ ← commSetCharInput setup
    pure ()

/-- Surroundings in which nothing happens. -/
def stillSurroundings : Surroundings Unit where
  foreign _ comm _ := (comm, ())
  hookReturns _ _ := true
  slotBusy _ := false
  enqueue _ _ := .error
  writes _ := []
  sslHandshake _ := .wantIo
  sslRead _ := ⟨[], true⟩

/-- The record behind the call. -/
def ModeChoice.apply (setup : Setup) (choice : ModeChoice) (comm : CommAbstract) : CommAbstract :=
  match (choice.call setup).eval (slotHandler setup stillSurroundings 0) ⟨comm, [], [], ()⟩ with
  | some (_, w) => w.comm
  | none => comm

/-- A deterministic `HOOK_MESSAGE_INBOUND`: what it does after the messages so far, the last one
included, and whether it returns a non-negative value. -/
structure HookPolicy where
  choose : List Bytes → ModeChoice
  succeeds : List Bytes → Bool

/-! ### Strict mode -/

/-- The surroundings of a slot in strict mode: the hook, and a transport that takes output. -/
def policySurroundings (setup : Setup) (policy : HookPolicy)
    (takes : List Bytes → List WriteAnswer) : Surroundings (List Bytes) where
  foreign e comm history :=
    match e with
    | .runHook (.messageInbound data) =>
      ((policy.choose (history ++ [data])).apply setup comm, history ++ [data])
    | _ => (comm, history)
  hookReturns _ history := policy.succeeds history
  slotBusy _ := false
  enqueue _ _ := .error
  writes := takes
  sslHandshake _ := .wantIo
  sslRead _ := ⟨[], true⟩

/-- `comm_resume_deferred_input` again and again. -/
def resumeTimes (setup : Setup) : Nat → Code Unit
  | 0 => pure ()
  | count + 1 => do
    commResumeDeferredInput setup
    resumeTimes setup count

/-! ### Relaxed mode -/

/-- Where the slot's one execution is: none, accepted, its hook entered, returned, or completed but
still holding the slot. -/
inductive LaneStage where
  | idle
  | queued (data : Bytes)
  | running
  | returned
  | completed
  deriving DecidableEq, Repr

/-- The scheduler's lane of the slot during a parser pass, and its answer to the last dispatch. -/
structure LaneView where
  stage : LaneStage
  answer : DispatchResult
  deriving DecidableEq, Repr

/-- `mudmux_execution_enqueue` of an inbound message: accepted if no execution is active. -/
def LaneView.enqueue (view : LaneView) : HookCall → LaneView
  | .messageInbound data =>
    if view.stage = .idle then ⟨.queued data, .queued⟩ else { view with answer := .queueFull }
  | _ => { view with answer := .queueFull }

/-- The surroundings of a parser pass in relaxed mode. -/
def laneSurroundings : Surroundings LaneView where
  foreign e comm view :=
    match e with
    | .enqueue call _ => (comm, view.enqueue call)
    | _ => (comm, view)
  hookReturns _ _ := true
  slotBusy view := view.stage ≠ .idle
  enqueue _ view := view.answer
  writes _ := []
  sslHandshake _ := .wantIo
  sslRead _ := ⟨[], true⟩

/-- A slot in relaxed mode: its record, its lane, and the messages its hook was invoked with. -/
structure RelaxedSlot where
  comm : CommAbstract
  stage : LaneStage
  history : List Bytes

/-- A pass of the event loop over the slot's deferred input. -/
def RelaxedSlot.resume (setup : Setup) (s : RelaxedSlot) : Option RelaxedSlot :=
  ((commResumeDeferredInput setup).eval (slotHandler setup laneSurroundings 0)
    ⟨s.comm, [], [], ⟨s.stage, .error⟩⟩).map fun r =>
      { s with comm := r.2.comm, stage := r.2.outside.stage }

/-- The completion callback of an inbound message. -/
def RelaxedSlot.complete (setup : Setup) (s : RelaxedSlot) : Option RelaxedSlot :=
  ((runCompletion .inbound).eval (slotHandler setup laneSurroundings 0)
    ⟨s.comm, [], [], ⟨s.stage, .error⟩⟩).map fun r =>
      { s with comm := r.2.comm, stage := .completed }

/-- One step: of the event loop, or of the worker that has the slot's execution. -/
inductive RelaxedSlot.Step (setup : Setup) (policy : HookPolicy) :
    RelaxedSlot → RelaxedSlot → Prop where
  | resume {s s' : RelaxedSlot} (h : s.resume setup = some s') : Step setup policy s s'
  | invoke {s : RelaxedSlot} {data : Bytes} (h : s.stage = .queued data) :
      Step setup policy s { s with stage := .running, history := s.history ++ [data] }
  | call {s : RelaxedSlot} (h : s.stage = .running) :
      Step setup policy s
        { s with comm := (policy.choose s.history).apply setup s.comm, stage := .returned }
  | complete {s s' : RelaxedSlot} (h : s.stage = .returned) (hs : s.complete setup = some s') :
      Step setup policy s s'
  | finish {s : RelaxedSlot} (h : s.stage = .completed) :
      Step setup policy s { s with stage := .idle }

/-- Nothing is left to do: no execution, and no deferred input. -/
def RelaxedSlot.Quiescent (s : RelaxedSlot) : Prop :=
  s.stage = .idle ∧ s.comm.flags.deferredInbound = false

end Mudmux.Comm
