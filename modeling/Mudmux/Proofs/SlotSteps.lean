import Mudmux.Comm.Machine
import Mudmux.Proofs.Outbound

/-!
# `Mudmux.Proofs.SlotSteps`: what the code of a slot does to its record

`SlotUpdate` says what a store to the record can change, and `slotSpec` what holds in the record before
each effect: which hooks are dispatched when, and when the slot is removed. `Mudmux.Proofs.StoreKinds` is the
pass over all the code, and `Mudmux.Proofs.CodeSteps` reads `slotSpec` off it.

The functions that run the life of the slot (`comm_close`, the prompt pass, the assignment of the
slot number) change more than the others. `lifecycle` is the permission to close the slot, to switch
its prompt and to give its number away: what is proved without it holds of all the other code.
-/

set_option autoImplicit false

namespace Mudmux.Comm

open Mudmux.Lib
open CallbackSystem

/-- What a store to the record of a slot keeps. The queues and the identity of the connection are
only changed by effects of their own. -/
@[mk_iff]
structure SlotUpdate (lifecycle : Prop) (c c' : CommAbstract) : Prop where
  rbio : c'.rbio = c.rbio
  wbio : c'.wbio = c.wbio
  generation : c'.generation = c.generation
  outbound : c'.outbound = c.outbound
  barrier : c'.websocketUpgradeBarrier = c.websocketUpgradeBarrier
  buffered : c'.flags.bufferedWrite = c.flags.bufferedWrite ∨ c.outbound = []
  closed : c.flags.websocketState.closed = true → c'.flags.websocketState.closed = true
  steady : ¬ lifecycle → c'.flags.closing = c.flags.closing ∧
    c'.flags.disconnectPending = c.flags.disconnectPending ∧
    c'.flags.enablePrompt = c.flags.enablePrompt

theorem SlotUpdate.live {lifecycle : Prop} {c c' : CommAbstract} (h : SlotUpdate lifecycle c c') :
    c'.live = c.live := by
  simp [CommAbstract.live, h.rbio, h.wbio]

/-- The hooks that belong to a connection that is not closed: its input, its readiness and its
prompt. -/
def HookType.ofOpenSlot : HookType → Bool
  | .messageInbound | .telnetSubneg | .transportReady | .prompt => true
  | .connect | .disconnect | .messageOutbound => false

/-- What holds when a hook is dispatched. -/
structure DispatchGuard (lifecycle : Prop) (call : HookCall) (c : CommAbstract) : Prop where
  live : call.hookType.ofOpenSlot = true → c.live = true
  ready : call.hookType = .transportReady → c.flags.closing = false
  ordinary : ¬ lifecycle → call.hookType ≠ .disconnect ∧ call.hookType ≠ .prompt

/-- When queued output is thrown away: on the console, for a refused WebSocket handshake, and when a
TLS slot is closed before its handshake is done. -/
def DiscardGuard (setup : Setup) (c : CommAbstract) : Prop :=
  setup.console = true ∨ c.flags.enableWebsocket = true ∨
    (c.ssl = true ∧ c.flags.tlsEstablished = false)

/-- The slot system seen through the record alone. -/
abbrev recordSystem (setup : Setup) : CallbackSystem SlotEffect where
  State := CommAbstract
  Answer := Answer
  Entry := Entry
  exec := slotExec
  unfold := unfold setup
  reentrant := reentrant
  code := entryCode setup
  enabled _ _ := true
  foreign _ := true

/-- What holds before each effect of a slot's code. -/
def slotSpec (setup : Setup) (lifecycle : Prop) : (recordSystem setup).EffectSpec
  | _, c, .setSlot c' => SlotUpdate lifecycle c c'
  -- in relaxed mode a hook is dispatched by handing it to the worker pool
  | _, c, .beginHook call => setup.relaxed = false → DispatchGuard lifecycle call c
  | _, c, .enqueue call _ => DispatchGuard lifecycle call c
  | _, c, .writeRaw _ => c.flags.websocketState.closed = false
  | _, c, .releaseBarrier => c.outbound = []
  | _, c, .freeOutbound => DiscardGuard setup c
  | _, c, .remove => c.flags.bufferedWrite = false ∨ setup.console = true
  | _, _, .addBio _ _ _ _ => lifecycle
  | _, _, _ => True

/-- The effects that leave the record alone. -/
def leavesRecord : {β : Type} → SlotEffect β → Bool
  | _, .setSlot _ | _, .write _ _ | _, .writeRaw _ | _, .pong _ | _, .queueClose _
  | _, .releaseBarrier | _, .freeOutbound | _, .drain | _, .remove | _, .addBio _ _ _ _ => false
  | _, _ => true

theorem slotExec_of_leavesRecord {β : Type} {e : SlotEffect β} {a : Answer} {b : β}
    {c c' : CommAbstract} (he : leavesRecord e = true) (h : slotExec e a c = some (b, c')) :
    c' = c := by
  cases e <;> simp only [leavesRecord, Bool.false_eq_true] at he <;>
    cases a <;> simp only [slotExec, reduceCtorEq] at h
  case enqueue => split at h <;> cases h; rfl
  all_goals cases h; rfl

end Mudmux.Comm
