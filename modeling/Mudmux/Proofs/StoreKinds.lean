import Mudmux.Proofs.CodeWalk

/-!
# `Mudmux.Proofs.StoreKinds`: which stores the code of a slot makes

`Stores` says of a piece of code that all its stores are of an allowed kind, so a flag of the record that no
allowed kind touches is kept by that code. Several safety proofs read off from this, each with its own set of
kinds, that the code they are not about leaves their flags alone.
-/

set_option autoImplicit false

namespace Mudmux.Comm

open Mudmux.Lib
open CallbackSystem

variable {setup : Setup} {R : Requirement}

/-- Stores are of an allowed kind and do not defer the input; `has_deferred_input` is left alone, and no
connection begins. The disconnect hook and the end of a connection belong to the stores of
`comm_close_impl`, and a hook that is queued has the completion of its type. Other effects are free. -/
def storeSpec (setup : Setup) (allowed : StoreKind → Prop) : (recordSystem setup).EffectSpec
  | _, c, .setSlot c' => ∃ kind, allowed kind ∧ kind ≠ .defer ∧ kind.Store setup c c'
  | _, _, .setHasDeferred _ => False
  | _, _, .addBio _ _ _ _ => False
  | _, _, .beginHook call => call = .disconnect → allowed .close
  | _, _, .enqueue call completion =>
    (call = .disconnect → allowed .close) ∧ completion = call.hookType.completion
  | _, _, .remove => allowed .close
  | _, _, _ => True

/-- The input is deferred on the slot and for the event loop. -/
def deferPair (setup : Setup) (allowed : StoreKind → Prop) : (recordSystem setup).PairSpec
  | _, _, c, .setSlot c', .setHasDeferred value =>
    allowed .defer ∧ StoreKind.defer.Store setup c c' ∧ value = true
  | _, _, _, _, _ => False

/-- The requirement of `storeSpec`. -/
abbrev storeRequirement (setup : Setup) (allowed : StoreKind → Prop) : Requirement :=
  ⟨storeSpec setup allowed, deferPair setup allowed⟩

/-- The stores of the code are of allowed kinds from the record `c`, and it ends in `Q`. -/
abbrev StoresTo (setup : Setup) (allowed : StoreKind → Prop) {α : Type} (p : Code α)
    (Q : α → CommAbstract → Prop) (c : CommAbstract) : Prop :=
  MeetsTo setup (storeRequirement setup allowed) p Q c

/-- The stores of the code are of allowed kinds from any record. -/
abbrev Stores (setup : Setup) (allowed : StoreKind → Prop) {α : Type} (p : Code α) : Prop :=
  Meets setup (storeRequirement setup allowed) p

/-- The effects that the code has to account for. -/
def SlotEffect.isStore : {β : Type} → SlotEffect β → Bool
  | _, .setSlot _ | _, .setHasDeferred _ | _, .addBio _ _ _ _ => true
  | _, .beginHook _ | _, .enqueue _ _ | _, .remove => true
  | _, _ => false

variable {β : Type} {e : SlotEffect β}

theorem storeSpec_of_not_store {allowed : StoreKind → Prop} (he : e.isStore = false)
    (c : CommAbstract) : storeSpec setup allowed β c e := by
  cases e <;> first | exact True.intro | cases he

section Stores

variable {allowed : StoreKind → Prop}

theorem grants_of_allowed {kind : StoreKind} (h : allowed kind) :
    Grants setup (storeRequirement setup allowed) kind := by
  cases kind with
  | defer => exact fun _ => ⟨h, rfl, rfl⟩
  | flushed => exact fun _ _ => ⟨.flushed, h, nofun, rfl⟩
  | _ => exact fun _ _ hstore => ⟨_, h, nofun, hstore⟩

theorem storeHook {call : HookCall} (h : call = .disconnect → allowed .close) (c : CommAbstract) :
    Dispatches (storeRequirement setup allowed) call c :=
  ⟨h, fun _ => True.intro, h, rfl⟩

section

variable (ho : ∀ kind : StoreKind, kind.steady = true → allowed kind)

include ho

theorem storePermits :
    PermitsInput setup (storeRequirement setup allowed) where
  free he _ := by cases ‹SlotEffect _› <;> first | exact True.intro | cases he
  writeRaw _ _ _ := True.intro
  releaseBarrier _ _ := True.intro
  freeOutbound _ _ := True.intro
  pong _ _ := True.intro
  hook call c h := by
    refine storeHook ?_ c
    rintro rfl
    exact absurd rfl (h.ordinary id).1
  idle kind hkind := grants_of_allowed (ho kind (by simp_all [StoreKind.idle]))
  text := grants_of_allowed (ho _ rfl)
  input := grants_of_allowed (ho _ rfl)

omit ho in
theorem storePermitsClose (hclose : allowed .close)
    (hdisconnected : setup.relaxed = false → allowed .disconnected) :
    PermitsClose setup (storeRequirement setup allowed) where
  close := grants_of_allowed hclose
  disconnected hstrict := grants_of_allowed (hdisconnected hstrict)
  hook := storeHook fun _ => hclose
  remove _ _ := hclose

omit ho in
/-- The requirement under which every kind of store is allowed. -/
theorem anyPermits : PermitsInput setup (storeRequirement setup fun _ => True) :=
  storePermits fun _ _ => True.intro

omit ho in
theorem anyGrants (kind : StoreKind) : Grants setup (storeRequirement setup fun _ => True) kind :=
  grants_of_allowed True.intro

omit ho in
theorem steady_of_ordinary (ho : ∀ kind : StoreKind, kind.ordinary = true → allowed kind)
    (kind : StoreKind) (h : kind.steady = true) : allowed kind :=
  ho kind (Bool.and_eq_true_iff.mp h).1

omit ho in
theorem stores_effect (he : e.isStore = false) : Stores setup allowed (Program.effect e) :=
  meets_effect (storeSpec_of_not_store he)

/-- The queue is marked as drained, whatever is in it. -/
theorem stores_flushed :
    Stores setup allowed (modifyFlags fun flags => { flags with bufferedWrite := false }) := by
  refine fun c => meetsTo_bind ((storePermits ho).commDeref fun _ => ?_)
  exact .effect rfl rfl ⟨.flushed, ho _ rfl, nofun, rfl⟩ fun _ _ _ _ => .done True.intro

/-- The recursive functions. -/
theorem stores_of_unfold (hready : allowed .ready ∧ allowed .readyRefused)
    (hclose : allowed .close ∧ (setup.relaxed = false → allowed .disconnected)) {p : Code β}
    (h : unfold setup e = some p) : Stores setup allowed p :=
  (storePermits ho).of_unfold ⟨grants_of_allowed hready.1, grants_of_allowed hready.2⟩
    (storePermitsClose hclose.1 hclose.2) h

end

/-- The code of every entry on a connection that is there. -/
theorem stores_entryCode (ho : ∀ kind : StoreKind, kind.ordinary = true → allowed kind) {x : Entry}
    (hx : x.connects = false) (hk : ∀ kind ∈ x.kinds, allowed kind) :
    Stores setup allowed (entryCode setup x) := by
  refine (storePermits (steady_of_ordinary ho)).entryCode (grants_of_allowed (ho _ rfl)) hx ?_
    fun kind hkind _ => grants_of_allowed (hk kind hkind)
  cases x with
  | prompt => exact fun c _ => storeHook nofun c
  | consoleEof _ => exact fun _ => hk _ (by simp [Entry.kinds])
  | startTask _ => exact fun _ _ => hk _ (by simp [Entry.kinds])
  | _ => exact True.intro

end Stores

/-! ### The other effects -/

/-- The record without what the operations on the outbound queue change. -/
def CommAbstract.still (c : CommAbstract) : CommAbstract :=
  { c with
      outbound := []
      websocketUpgradeBarrier := []
      flags := { c.flags with
        bufferedWrite := false
        tlsEstablished := false
        websocketState := .handshake } }

theorem commBufferedWriteRaw_still (buf : Bytes) (c : CommAbstract) :
    (commBufferedWriteRaw c buf).still = c.still := by
  obtain ⟨_, _, h⟩ := commBufferedWriteRaw_eq c buf
  rw [h]
  rfl

theorem commBufferedWriteImpl_still (normalize : Bool) (buf : Bytes) (c : CommAbstract) :
    (commBufferedWriteImpl normalize c buf).still = c.still := by
  simp only [commBufferedWriteImpl]
  generalize (if normalize && c.flags.enableTelnet then normalizeTelnetNewlines buf else buf) = out
  split
  · rfl
  · split
    · rfl
    · split
      · split
        · rfl
        · obtain ⟨_, h⟩ := appendWebsocketUpgradeBarrier_eq c _
          rw [h]
          rfl
      · split
        · split
          · rfl
          · exact commBufferedWriteRaw_still _ c
        · exact commBufferedWriteRaw_still _ c

theorem writeControlFrame_still (opcode : Byte) (payload : Bytes) (c : CommAbstract) :
    (writeControlFrame c opcode payload).still = c.still := by
  unfold writeControlFrame
  split
  · rfl
  · exact commBufferedWriteRaw_still _ c

theorem commWebsocketQueueClose_still (payload : Bytes) (c : CommAbstract) :
    (commWebsocketQueueClose c payload).still = c.still := by
  cases hclosed : c.flags.websocketState.closed with
  | true => rw [commWebsocketQueueClose_of_closed payload hclosed]
  | false =>
    rw [commWebsocketQueueClose_of_open payload hclosed]
    exact writeControlFrame_still opClose payload c

theorem flushOutbound_still (answers : List WriteAnswer) (c : CommAbstract) :
    (flushOutbound c answers).1.still = c.still := by
  simp only [flushOutbound]
  split
  · dsimp only
    split <;> rfl
  · rfl

/-- The effects that replace the record or end or begin its connection. -/
def SlotEffect.replaces : {β : Type} → SlotEffect β → Bool
  | _, .setSlot _ | _, .remove | _, .addBio _ _ _ _ => true
  | _, _ => false

/-- Every other effect changes at most the queue. -/
theorem still_of_exec {a : Answer} {b : β} {c c' : CommAbstract} (he : e.replaces = false)
    (hexec : slotExec e a c = some (b, c')) : c'.still = c.still := by
  have hlive {f : CommAbstract → CommAbstract} (hf : ∀ c, (f c).still = c.still) :
      (ifLive c f).still = c.still := by
    unfold ifLive
    split
    · exact hf c
    · rfl
  cases e with
  | setSlot _ => cases he
  | remove => cases he
  | addBio _ _ _ _ => cases he
  | write normalize buf =>
    cases a <;> cases hexec
    exact hlive (commBufferedWriteImpl_still normalize buf)
  | writeRaw buf =>
    cases a <;> cases hexec
    exact hlive (commBufferedWriteRaw_still buf)
  | pong payload =>
    cases a <;> cases hexec
    exact hlive (writeControlFrame_still opPong payload)
  | queueClose payload =>
    cases a <;> cases hexec
    exact hlive (commWebsocketQueueClose_still payload)
  | releaseBarrier =>
    cases a <;> cases hexec
    exact hlive fun _ => rfl
  | freeOutbound =>
    cases a <;> cases hexec
    exact hlive fun _ => rfl
  | drain =>
    cases a <;> cases hexec
    exact hlive (flushOutbound_still _)
  | _ => rw [slotExec_of_leavesRecord rfl hexec]

/-- An operation on the queue leaves an upgraded WebSocket upgraded. -/
theorem isReady_of_exec {a : Answer} {b : β} {c c' : CommAbstract} (he : e.replaces = false)
    (hexec : slotExec e a c = some (b, c')) (hc : c.flags.websocketState.isReady = true) :
    c'.flags.websocketState.isReady = true := by
  have hqueue {f : CommAbstract → CommAbstract} (hf : ∀ c, QueueStep c (f c)) :
      (ifLive c f).flags.websocketState.isReady = true := by
    obtain hs | hs := (QueueStep.ifLive hf c).websocketState
    · rwa [hs]
    · rw [hs.1]
      rfl
  cases e with
  | setSlot _ => cases he
  | remove => cases he
  | addBio _ _ _ _ => cases he
  | write normalize buf =>
    cases a <;> cases hexec
    exact hqueue (commBufferedWriteImpl_queueStep normalize buf)
  | writeRaw buf =>
    cases a <;> cases hexec
    exact hqueue (commBufferedWriteRaw_queueStep buf)
  | pong payload =>
    cases a <;> cases hexec
    exact hqueue (writeControlFrame_queueStep opPong payload)
  | queueClose payload =>
    cases a <;> cases hexec
    exact hqueue (commWebsocketQueueClose_queueStep payload)
  | releaseBarrier =>
    cases a <;> cases hexec
    exact hqueue releaseUpgradeBarrier_queueStep
  | freeOutbound =>
    cases a <;> cases hexec
    exact hqueue commFreeOutboundBuffers_queueStep
  | drain =>
    cases a <;> cases hexec
    exact hqueue (flushOutbound_queueStep _)
  | _ => rwa [slotExec_of_leavesRecord rfl hexec]

/-! ### In the machine -/

/-- What the code does to the record it does in the machine. -/
theorem pairsTo_of_meetsTo {γ : Type} {observe : Observer γ} {α : Type} {p : Code α}
    {Q : α → CommAbstract → Prop} {s : SlotState γ} (h : MeetsTo setup R p Q s.comm) :
    PairsTo (S := slotSystem setup observe)
      (fun β s e => R.spec β (SlotState.comm s) e)
      (fun β δ s e e' => R.pair β δ (SlotState.comm s) e e')
      (fun a s' => Q a (SlotState.comm s')) p s := by
  refine PairsTo.lift (S := slotSystem setup observe) (R := recordSystem setup) SlotState.comm
    (fun _ => rfl) (fun _ => rfl) (fun e a s b s' hexec => ⟨a, ?_⟩) h rfl
  obtain ⟨r, hr, hs'⟩ := Option.map_eq_some_iff.mp hexec
  cases hs'
  exact hr

end Mudmux.Comm
