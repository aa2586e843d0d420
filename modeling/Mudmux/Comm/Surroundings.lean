import Mudmux.Comm.Semantics

/-!
# `Mudmux.Comm.Surroundings`: a slot's code run under given surroundings

`Mudmux.Comm.Machine` leaves open what the outside does at every effect. Here it is fixed:
`Surroundings` says how foreign code changes the record, what the hooks return, and what the
transport takes. The code of a slot then has one outcome, and the outcomes of two runs can be
compared.

The surroundings have a state of their own, which moves whenever the code turns to them. A hook may
so depend on everything that happened before.

`slotHandler` answers the three recursive calls by running their code, to a depth that is a
parameter: at depth zero they have no answer.
-/

set_option autoImplicit false

namespace Mudmux.Comm

open Mudmux.Lib

/-- What surrounds a slot, with a state `ρ` of its own. -/
structure Surroundings (ρ : Type) where
  /-- What the outside does during an effect that turns to it. The record it leaves counts only
  for a reentrant effect. -/
  foreign : {β : Type} → SlotEffect β → CommAbstract → ρ → CommAbstract × ρ
  hookReturns : HookCall → ρ → Bool
  slotBusy : ρ → Bool
  enqueue : HookCall → ρ → DispatchResult
  writes : ρ → List WriteAnswer
  sslHandshake : ρ → HandshakeStep
  sslRead : ρ → TlsRead

/-- A slot in its surroundings: its record, the hooks entered so far, each with the record at its
entry, and what the transport is going to hand over. -/
structure World (ρ : Type) where
  comm : CommAbstract
  entries : List (HookCall × CommAbstract)
  reads : List ReadAnswer
  outside : ρ

/-- The effects that turn to the outside. -/
def consultsOutside : {β : Type} → SlotEffect β → Bool
  | _, .slotBusy => true
  | _, .enqueue _ _ => true
  | _, .drain => true
  | _, .sslHandshake => true
  | _, .sslRead => true
  | _, e => reentrant e

namespace Surroundings

variable {ρ : Type} (env : Surroundings ρ)

/-- The outside's answer to an effect. A transport with nothing left to hand over asks for a
retry. -/
def answer (w : World ρ) : {β : Type} → SlotEffect β → Answer
  | _, .slotBusy => .bool (env.slotBusy w.outside)
  | _, .runHook call => .bool (env.hookReturns call w.outside)
  | _, .enqueue call _ => .dispatch (env.enqueue call w.outside)
  | _, .drain => .writes (env.writes w.outside)
  | _, .sslHandshake => .handshake (env.sslHandshake w.outside)
  | _, .sslRead => .tlsRead (env.sslRead w.outside)
  | _, .transportRead => .read (w.reads.headD .retry)
  | _, _ => .unit

/-- The world as the outside leaves it before it answers. -/
def visit {β : Type} (e : SlotEffect β) (w : World ρ) : World ρ :=
  if consultsOutside e then
    let r := env.foreign e w.comm w.outside
    { w with comm := if reentrant e then r.1 else w.comm, outside := r.2 }
  else w

/-- The hooks entered after an effect. -/
def entriesAfter (w : World ρ) : {β : Type} → SlotEffect β → List (HookCall × CommAbstract)
  | _, .beginHook call => w.entries ++ [(call, w.comm)]
  | _, _ => w.entries

/-- What the transport has left after an effect. -/
def readsAfter (w : World ρ) : {β : Type} → SlotEffect β → List ReadAnswer
  | _, .transportRead => w.reads.tail
  | _, _ => w.reads

/-- One effect in the world. -/
def perform {β : Type} (e : SlotEffect β) (w : World ρ) : Option (β × World ρ) :=
  (slotExec e (env.answer (env.visit e w) e) (env.visit e w).comm).map fun r =>
    (r.1, {
      comm := r.2
      entries := entriesAfter w e
      reads := readsAfter w e
      outside := (env.visit e w).outside })

end Surroundings

/-- The handler of a slot's code: `depth` bounds how deep `comm_flush`, `comm_close` and
`comm_invoke_transport_ready` may call each other. -/
def slotHandler {ρ : Type} (setup : Setup) (env : Surroundings ρ) :
    Nat → Handler SlotEffect (World ρ)
  | 0, _, e, w => env.perform e w
  | depth + 1, _, e, w =>
    match unfold setup e with
    | none => env.perform e w
    | some code => code.eval (slotHandler setup env depth) w

end Mudmux.Comm
