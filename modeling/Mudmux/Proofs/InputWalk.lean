import Mudmux.Comm.Input

/-!
# `Mudmux.Proofs.InputWalk`: the WebSocket input path in any logic

`comm_process_websocket_input` takes frames from the pending bytes until none is complete, and passes what
they decode to on to the text parser. This module follows its code once, for any logic of programs: from a
state that satisfies `K`, between two frames, to one that satisfies `S` of the answer. What the logic has to
know of the functions that are called on the way is collected in `MessageRules` and `FrameRules`.
-/

set_option autoImplicit false

namespace Mudmux.Comm

open Mudmux.Lib
open Mudmux.Lib.Program (effect Logic)

variable {setup : Setup} {budget : Option Nat} {σ : Type}
  {holds : {α : Type} → Code α → (α → σ → Prop) → σ → Prop} {K : σ → Prop}
  {D : DispatchResult → σ → Prop} {S : ProcessResult → σ → Prop} {s : σ}

/-- What follows a message: `K` holds between two steps, `D` of the answer when the Telnet payload is decoded,
and `S` of the answer of `comm_process_input`. -/
structure MessageRules (setup : Setup) (holds : {α : Type} → Code α → (α → σ → Prop) → σ → Prop)
    (K : σ → Prop) (D : DispatchResult → σ → Prop) (S : ProcessResult → σ → Prop) : Prop
    extends Logic holds where
  deref : ∀ {α : Type} {f : CommAbstract → Code α} {Q : α → σ → Prop} {s : σ}, K s →
    (∀ c s', K s' → holds (f c) Q s') → holds (commDeref >>= f) Q s
  store : ∀ {s : σ} (f : WebSocketDecoder → Bytes), K s →
    holds (modifyWebsocket fun w => { w with decodedInput := f w }) (fun _ => K) s
  decode : ∀ {s : σ} (fuel : Nat) (payload : Bytes), K s →
    holds (decodeWebsocketTelnetPayload setup fuel payload) D s
  kept : ∀ {result : DispatchResult} {s : σ}, D result s → result ≠ .queueFull → K s
  defer : ∀ {s : σ}, D .queueFull s → holds deferInbound (fun _ => S .deferred) s
  error : ∀ {s : σ}, K s → S .error s
  next : ∀ {again : Code ProcessResult} {s : σ}, K s → (∀ s', K s' → holds again S s') →
    holds (do
      match ← commGuard with
      | none => pure .closed
      | some _ => if ← effect .slotBusy then pure .deferred else again) S s

/-- The part of the loop behind a decoded message, with `again` for the next iteration. -/
theorem MessageRules.message (P : MessageRules setup holds K D S) {again : Code ProcessResult}
    (hparse : ∀ s, K s → holds (processWebsocketDecodedInput setup budget)
      (fun result s' => (result ≠ .ok → S result s') ∧ (result = .ok → K s')) s)
    (hagain : ∀ s, K s → holds again S s) (hs : K s) (message : Bytes) :
    holds (do
      let comm ← commDeref
      let result ←
        if comm.flags.enableTelnet then
          decodeWebsocketTelnetPayload setup (message.length + 1) message
        else do
          modifyWebsocket fun w => { w with decodedInput := w.decodedInput ++ message }
          pure .ok
      if result = .queueFull then do
        deferInbound
        pure .deferred
      else if !result.accepted then pure .error
      else do
        let result ← processWebsocketDecodedInput setup budget
        if result ≠ .ok then pure result
        else
          match ← commGuard with
          | none => pure .closed
          | some _ => if ← effect .slotBusy then pure .deferred else again) S s := by
  have hbehind (result : DispatchResult) (s₁ : σ) (h₁ : K s₁) : holds (
      if !result.accepted then pure .error
      else do
        let result ← processWebsocketDecodedInput setup budget
        if result ≠ .ok then pure result
        else
          match ← commGuard with
          | none => pure .closed
          | some _ => if ← effect .slotBusy then pure .deferred else again) S s₁ := by
    split
    · exact P.done (P.error h₁)
    · refine P.seq (hparse s₁ h₁) fun answer s₂ h₂ => ?_
      split
      · next hstop => exact P.done (h₂.1 hstop)
      · next hok => exact P.next (h₂.2 (by simpa using hok)) hagain
  refine P.deref hs fun c s₁ h₁ => ?_
  split
  · refine P.seq (P.decode _ _ h₁) fun result s₂ h₂ => ?_
    dsimp only
    split
    · next hfull =>
        subst hfull
        exact P.seq (P.defer h₂) fun _ _ hdeferred => P.done hdeferred
    · next hfull => exact hbehind result s₂ (P.kept h₂ hfull)
  · exact P.seq (P.store (fun w => w.decodedInput ++ message) h₁) fun _ s₂ h₂ => hbehind .ok s₂ h₂

/-- What the whole loop needs besides: `D` apart, every step ends in `K`. -/
structure FrameRules (setup : Setup) (budget : Option Nat)
    (holds : {α : Type} → Code α → (α → σ → Prop) → σ → Prop) (K : σ → Prop)
    (D : DispatchResult → σ → Prop) (S : ProcessResult → σ → Prop) : Prop
    extends MessageRules setup holds K D S where
  ok : ∀ {s : σ}, K s → S .ok s
  closed : ∀ {s : σ}, K s → S .closed s
  more : ∀ {s : σ}, S .ok s → K s
  frame : ∀ {s : σ} (wire : Bytes), K s → holds (commWebsocketProcessInbound wire 1) (fun _ => K) s
  drop : ∀ {s : σ} (consumed : Nat), K s →
    holds (modifyWebsocket fun w => { w with pendingWire := w.pendingWire.drop consumed }) (fun _ => K) s
  queueClose : ∀ {s : σ} (payload : Bytes), K s → holds (effect (.queueClose payload)) (fun _ => K) s
  callClose : ∀ {s : σ}, K s → holds (effect .callClose) (fun _ => K) s
  refill : ∀ {s : σ} (src : Bytes), K s → holds (refillInboundBuffersFromSrc setup src) (fun _ => K) s
  text : ∀ {s : σ}, K s → holds (commProcessDecodedInput setup budget) S s
  back : ∀ {result : ProcessResult} {s : σ}, S result s → holds (modifyComm fun comm =>
    { comm with
        websocket := comm.websocket.map fun w =>
          { w with decodedInput := commCopyInboundDataPrefix comm sizeMax }
        inbound := consumeInboundData sizeMax comm.inbound }) (fun _ => S result) s
  receive : ∀ {s : σ}, K s → holds (modifyComm fun comm =>
    let websocket := comm.websocket.getD {}
    let wire := commCopyInboundDataPrefix comm sizeMax
    { comm with
        websocket := some { websocket with pendingWire := websocket.pendingWire ++ wire }
        inbound := consumeInboundData wire.length comm.inbound }) (fun _ => K) s

namespace FrameRules

variable (P : FrameRules setup budget holds K D S)

include P

/-- `_process_websocket_decoded_input`. -/
theorem processWebsocketDecodedInput (hs : K s) :
    holds (processWebsocketDecodedInput setup budget) S s := by
  refine P.deref hs fun c s₁ h₁ => ?_
  dsimp only
  split
  · exact P.done (P.ok h₁)
  · refine P.seq (P.refill _ h₁) fun fitted s₂ h₂ => ?_
    split
    · exact P.done (P.error h₂)
    · refine P.seq (P.store (fun _ => []) h₂) fun _ s₃ h₃ => P.seq (P.text h₃) fun result s₄ h₄ => ?_
      exact P.seq (P.back h₄) fun _ _ h₅ => P.done h₅

/-- The loop of `comm_process_websocket_input`. -/
theorem websocketInputLoop (fuel : Nat) (hs : K s) : holds (websocketInputLoop setup budget fuel) S s := by
  induction fuel generalizing s with
  | zero => exact P.done (P.ok hs)
  | succ fuel ih =>
    refine P.deref hs fun c s₁ h₁ => ?_
    dsimp only
    split
    · exact P.done (P.ok h₁)
    · refine P.seq (P.frame _ h₁) fun answer s₂ h₂ => ?_
      split
      · exact P.done (P.closed h₂)
      · -- a refused frame: the Close frame is queued and the slot is closed
        refine P.seq (P.queueClose _ h₂) fun _ s₃ h₃ => P.seq (P.callClose h₃) fun _ s₄ h₄ => ?_
        exact P.done (P.closed h₄)
      · split
        · exact P.done (P.ok h₂)
        · refine P.seq (P.drop _ h₂) fun _ s₃ h₃ => ?_
          split
          · exact ih h₃
          · refine P.message (fun s h => ?_) (fun _ => ih) h₃ _
            exact P.mono (P.processWebsocketDecodedInput h) fun _ _ hS =>
              ⟨fun _ => hS, fun hok => P.more (hok ▸ hS)⟩

/-- `comm_process_websocket_input`. -/
theorem commProcessWebsocketInput (hs : K s) : holds (commProcessWebsocketInput setup budget) S s := by
  refine P.seq (P.receive hs) fun _ s₁ h₁ => P.seq (P.processWebsocketDecodedInput h₁) ?_
  intro result s₂ h₂
  split
  · exact P.done h₂
  · next hok =>
      obtain rfl : result = .ok := by simpa using hok
      exact P.deref (P.more h₂) fun c s₃ h₃ => P.websocketInputLoop _ h₃

end FrameRules

end Mudmux.Comm
