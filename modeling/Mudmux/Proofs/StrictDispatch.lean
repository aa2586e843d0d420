import Mudmux.Comm.Surroundings
import Mudmux.Proofs.Outbound

/-!
# `Mudmux.Proofs.StrictDispatch`: a hook of a text slot leaves its input alone

In strict mode a hook runs inside the parser that dispatches it, and `comm_flush_all` runs behind
it. `mudmuxExecutionDispatch_returns` says what the parser finds afterwards: on an open slot without
WebSocket framing, in surroundings that keep the input, the dispatch returns, the hook was entered
once, and the inbound chain and the parser's flags are as before.

The `returns_…` rules in front are the weakest preconditions of the effects that do not leave the
slot; they rewrite a `Returns` along the code.
-/

set_option autoImplicit false

namespace Mudmux.Comm

open Mudmux.Lib
open Mudmux.Lib.Program (Returns returns_done returns_bind returns_perform effect)

variable {ρ : Type} {setup : Setup} {env : Surroundings ρ} {depth : Nat} {w : World ρ}

section Rules

variable {α : Type} {Q : α → World ρ → Prop}

theorem slotHandler_of_unfold_none {β : Type} (e : SlotEffect β) (he : unfold setup e = none) :
    slotHandler setup env depth _ e w = env.perform e w := by
  cases depth with
  | zero => rfl
  | succ depth => rw [slotHandler, he]

/-- An effect that is answered at once: the code goes on in the world it leaves. -/
theorem returns_answered {β : Type} {e : SlotEffect β} {k : β → Code α} {b : β} {w' : World ρ}
    (hanswer : slotHandler setup env depth _ e w = some (b, w')) :
    Returns (slotHandler setup env depth) (.perform e k) w Q
      ↔ Returns (slotHandler setup env depth) (k b) w' Q := by
  rw [returns_perform]
  constructor
  · rintro ⟨_, _, hsome, hk⟩
    rw [hanswer] at hsome
    cases hsome
    exact hk
  · exact fun hk => ⟨b, w', hanswer, hk⟩

@[simp] theorem returns_getSlot {k : CommAbstract → Code α} :
    Returns (slotHandler setup env depth) (.perform .getSlot k) w Q
      ↔ Returns (slotHandler setup env depth) (k w.comm) w Q :=
  returns_answered (slotHandler_of_unfold_none _ rfl)

variable {k : Unit → Code α}

@[simp] theorem returns_setSlot {comm : CommAbstract} :
    Returns (slotHandler setup env depth) (.perform (.setSlot comm) k) w Q
      ↔ Returns (slotHandler setup env depth) (k ()) { w with comm } Q :=
  returns_answered (slotHandler_of_unfold_none _ rfl)

@[simp] theorem returns_setHasDeferred {value : Bool} :
    Returns (slotHandler setup env depth) (.perform (.setHasDeferred value) k) w Q
      ↔ Returns (slotHandler setup env depth) (k ()) w Q :=
  returns_answered (slotHandler_of_unfold_none _ rfl)

@[simp] theorem returns_beginHook {call : HookCall} :
    Returns (slotHandler setup env depth) (.perform (.beginHook call) k) w Q
      ↔ Returns (slotHandler setup env depth) (k ())
          { w with entries := w.entries ++ [(call, w.comm)] } Q :=
  returns_answered (slotHandler_of_unfold_none _ rfl)

@[simp] theorem returns_write {normalize : Bool} {buf : Bytes} :
    Returns (slotHandler setup env depth) (.perform (.write normalize buf) k) w Q
      ↔ Returns (slotHandler setup env depth) (k ())
          { w with comm := ifLive w.comm fun comm => commBufferedWriteImpl normalize comm buf } Q :=
  returns_answered (slotHandler_of_unfold_none _ rfl)

@[simp] theorem returns_writeRaw {buf : Bytes} :
    Returns (slotHandler setup env depth) (.perform (.writeRaw buf) k) w Q
      ↔ Returns (slotHandler setup env depth) (k ())
          { w with comm := ifLive w.comm fun comm => commBufferedWriteRaw comm buf } Q :=
  returns_answered (slotHandler_of_unfold_none _ rfl)

@[simp] theorem returns_pong {payload : Bytes} :
    Returns (slotHandler setup env depth) (.perform (.pong payload) k) w Q
      ↔ Returns (slotHandler setup env depth) (k ())
          { w with comm := ifLive w.comm fun comm => writeControlFrame comm opPong payload } Q :=
  returns_answered (slotHandler_of_unfold_none _ rfl)

@[simp] theorem returns_transportRead {k : ReadAnswer → Code α} :
    Returns (slotHandler setup env depth) (.perform .transportRead k) w Q
      ↔ Returns (slotHandler setup env depth) (k (w.reads.headD .retry))
          { w with reads := w.reads.tail } Q :=
  returns_answered (slotHandler_of_unfold_none _ rfl)

/-- The question whether the slot is busy: the outside moves, and then answers. -/
theorem returns_asksBusy {k : Bool → Code α} :
    Returns (slotHandler setup env depth) (.perform .slotBusy k) w Q
      ↔ Returns (slotHandler setup env depth)
          (k (env.slotBusy (env.foreign .slotBusy w.comm w.outside).2))
          { w with outside := (env.foreign .slotBusy w.comm w.outside).2 } Q :=
  returns_answered (slotHandler_of_unfold_none _ rfl)

/-- The scheduler answers a dispatch, and never that the hook has run already. -/
theorem returns_enqueued {call : HookCall} {completion : Completion} {k : DispatchResult → Code α}
    {outside : ρ} (houtside : (env.foreign (.enqueue call completion) w.comm w.outside).2 = outside)
    (hok : env.enqueue call outside ≠ .ok) :
    Returns (slotHandler setup env depth) (.perform (.enqueue call completion) k) w Q
      ↔ Returns (slotHandler setup env depth) (k (env.enqueue call outside))
          { w with outside } Q := by
  subst houtside
  have hanswer : slotHandler setup env depth _ (.enqueue call completion) w
      = some (env.enqueue call (env.foreign (.enqueue call completion) w.comm w.outside).2,
          { w with outside := (env.foreign (.enqueue call completion) w.comm w.outside).2 }) := by
    rw [slotHandler_of_unfold_none _ rfl]
    exact congrArg (Option.map _) (if_neg hok)
  exact returns_answered hanswer

variable {f : Unit → Code α}

@[simp] theorem returns_setComm {comm : CommAbstract} :
    Returns (slotHandler setup env depth) (setComm comm >>= f) w Q
      ↔ Returns (slotHandler setup env depth) (f ()) { w with comm } Q := by
  simp only [setComm, Program.effect_bind, returns_setSlot]

variable (hlive : w.comm.live = true)

include hlive

theorem returns_commGuard {f : Option CommAbstract → Code α} :
    Returns (slotHandler setup env depth) (commGuard >>= f) w Q
      ↔ Returns (slotHandler setup env depth) (f (some w.comm)) w Q := by
  simp [commGuard, hlive]

theorem returns_commDeref {f : CommAbstract → Code α} :
    Returns (slotHandler setup env depth) (commDeref >>= f) w Q
      ↔ Returns (slotHandler setup env depth) (f w.comm) w Q := by
  simp [commDeref, hlive]

theorem returns_modifyComm {g : CommAbstract → CommAbstract} :
    Returns (slotHandler setup env depth) (modifyComm g >>= f) w Q
      ↔ Returns (slotHandler setup env depth) (f ()) { w with comm := g w.comm } Q := by
  rw [modifyComm, Program.bind_assoc', returns_commDeref hlive, returns_setComm]

theorem returns_modifyFlags {g : Flags → Flags} :
    Returns (slotHandler setup env depth) (modifyFlags g >>= f) w Q
      ↔ Returns (slotHandler setup env depth) (f ()) { w with comm := w.comm.mapFlags g } Q :=
  returns_modifyComm hlive

theorem returns_deferInbound :
    Returns (slotHandler setup env depth) (deferInbound >>= f) w Q
      ↔ Returns (slotHandler setup env depth) (f ())
          { w with comm := w.comm.mapFlags fun flags => { flags with deferredInbound := true } } Q := by
  rw [deferInbound, Program.bind_assoc', returns_modifyFlags hlive, Program.effect_bind,
    returns_setHasDeferred]

variable {Q : DispatchResult → World ρ → Prop}

/-- A message in relaxed mode: the rest of the input is deferred, and the scheduler answers. -/
theorem returns_invokeRelaxed (hrelaxed : setup.relaxed = true) {data : Bytes} :
    Returns (slotHandler setup env depth) (commInvokeInboundMessage setup data) w Q
      ↔ Returns (slotHandler setup env depth) (.perform (.enqueue (.messageInbound data) .inbound) .done)
          { w with
              comm := w.comm.mapFlags fun flags =>
                { flags with invokedPrompt := false, deferredInbound := true } } Q := by
  rw [commInvokeInboundMessage, returns_commGuard hlive]
  dsimp only
  rw [returns_modifyFlags hlive, if_pos hrelaxed, if_pos hrelaxed,
    returns_deferInbound (by exact hlive), mudmuxExecutionDispatch, if_pos hrelaxed]
  rfl

/-- A message in strict mode. -/
theorem returns_invokeStrict (hstrict : setup.relaxed = false) {data : Bytes} :
    Returns (slotHandler setup env depth) (commInvokeInboundMessage setup data) w Q
      ↔ Returns (slotHandler setup env depth)
          (mudmuxExecutionDispatch setup (.messageInbound data) .none)
          { w with comm := w.comm.mapFlags fun flags => { flags with invokedPrompt := false } } Q := by
  rw [commInvokeInboundMessage, returns_commGuard hlive]
  dsimp only
  rw [returns_modifyFlags hlive, hstrict, if_neg Bool.false_ne_true, if_neg Bool.false_ne_true]

end Rules

/-! ### What is kept -/

/-- An open slot whose bytes are text, plain or Telnet: no WebSocket, and a TLS session only once it
is established. -/
structure TextSlot (comm : CommAbstract) : Prop where
  live : comm.live = true
  notClosing : comm.flags.closing = false
  noWebsocket : comm.flags.enableWebsocket = false
  noFrames : comm.flags.websocketState = .handshake
  established : comm.ssl = true → comm.flags.tlsEstablished = true

/-- The record is still that of a text slot, and what the parsers read in it is unchanged. The input
mode is only asked for when `sameMode` holds. -/
structure InputKept (sameMode : Prop) (comm comm' : CommAbstract) : Prop where
  textSlot : TextSlot comm'
  inbound : comm'.inbound = comm.inbound
  ssl : comm'.ssl = comm.ssl
  enableTelnet : comm'.flags.enableTelnet = comm.flags.enableTelnet
  telnetState : comm'.flags.telnetState = comm.flags.telnetState
  awaitingHook : comm'.flags.awaitingHook = comm.flags.awaitingHook
  lineInput : sameMode → comm'.flags.lineInput = comm.flags.lineInput

variable {sameMode : Prop} {comm comm' comm'' : CommAbstract}

theorem InputKept.refl (h : TextSlot comm) : InputKept sameMode comm comm :=
  ⟨h, rfl, rfl, rfl, rfl, rfl, fun _ => rfl⟩

theorem InputKept.trans (h : InputKept sameMode comm comm')
    (h' : InputKept sameMode comm' comm'') : InputKept sameMode comm comm'' where
  textSlot := h'.textSlot
  inbound := h'.inbound.trans h.inbound
  ssl := h'.ssl.trans h.ssl
  enableTelnet := h'.enableTelnet.trans h.enableTelnet
  telnetState := h'.telnetState.trans h.telnetState
  awaitingHook := h'.awaitingHook.trans h.awaitingHook
  lineInput hmode := (h'.lineInput hmode).trans (h.lineInput hmode)

/-- The queue and the flags that no parser reads may change. -/
theorem InputKept.of_output (h : TextSlot comm) (outbound : List OutboundBuffer)
    (bufferedWrite : Bool) :
    InputKept sameMode comm { comm with outbound, flags := { comm.flags with bufferedWrite } } :=
  ⟨{ h with }, rfl, rfl, rfl, rfl, rfl, fun _ => rfl⟩

/-- A write to a text slot is a raw one. -/
theorem InputKept.of_write (h : TextSlot comm) (normalize : Bool) (buf : Bytes) :
    InputKept sameMode comm (ifLive comm fun comm => commBufferedWriteImpl normalize comm buf) := by
  rw [ifLive, if_pos h.live]
  simp only [commBufferedWriteImpl, h.noWebsocket, h.noFrames, WebSocketState.isReady]
  generalize (if normalize && comm.flags.enableTelnet then normalizeTelnetNewlines buf else buf)
    = out
  split
  · exact InputKept.refl h
  · obtain ⟨outbound, bufferedWrite, hwrite⟩ := commBufferedWriteRaw_eq comm out
    show InputKept sameMode comm (commBufferedWriteRaw comm out)
    rw [hwrite]
    exact InputKept.of_output h outbound bufferedWrite

/-- Surroundings in which nobody closes a text slot, reconfigures its transport or suspends it, and
nobody changes its input mode when `sameMode` holds. -/
structure Surroundings.KeepsInput (env : Surroundings ρ) (sameMode : Prop) : Prop where
  foreign : ∀ {β : Type} (e : SlotEffect β) (comm : CommAbstract) (outside : ρ),
    reentrant e = true → TextSlot comm → InputKept sameMode comm (env.foreign e comm outside).1
  notBusy : ∀ outside, env.slotBusy outside = false

/-- The slot's input is kept, and the hooks entered in between are `entered`. -/
structure World.Keeps (sameMode : Prop) (entered : List (HookCall × CommAbstract))
    (w w' : World ρ) : Prop where
  input : InputKept sameMode w.comm w'.comm
  entries : w'.entries = w.entries ++ entered
  reads : w'.reads = w.reads

theorem World.Keeps.refl (h : TextSlot w.comm) : w.Keeps sameMode [] w :=
  ⟨InputKept.refl h, (List.append_nil _).symm, rfl⟩

theorem World.Keeps.trans {entered entered' : List (HookCall × CommAbstract)} {w' w'' : World ρ}
    (h : w.Keeps sameMode entered w') (h' : w'.Keeps sameMode entered' w'') :
    w.Keeps sameMode (entered ++ entered') w'' where
  input := h.input.trans h'.input
  entries := by rw [h'.entries, h.entries, List.append_assoc]
  reads := h'.reads.trans h.reads

/-- A change of the record alone. -/
theorem World.Keeps.of_comm (h : InputKept sameMode w.comm comm) :
    w.Keeps sameMode [] { w with comm } :=
  ⟨h, (List.append_nil _).symm, rfl⟩

/-! ### Flushing

Between two hooks strict-mode code flushes, and other slots get their turn. What survives is any
`I` that does not depend on the output queue and that the surroundings keep. -/

/-- An open slot on which `comm_flush` has nothing to begin: its TLS session is established, and it is no
WebSocket, or an upgraded one that has released its barrier. -/
structure SteadySlot (comm : CommAbstract) : Prop where
  live : comm.live = true
  notClosing : comm.flags.closing = false
  established : comm.ssl = true → comm.flags.tlsEstablished = true
  framing : comm.flags.websocketState = .handshake ∨
    comm.flags.websocketState = .ready ∧ comm.websocketUpgradeBarrier = []

theorem TextSlot.steady (h : TextSlot comm) : SteadySlot comm := { h with framing := .inl h.noFrames }

theorem TextSlot.not_ready (h : TextSlot comm) {P : Prop} (hready : comm.flags.websocketState = .ready) :
    P := by
  rw [h.noFrames] at hready
  cases hready

/-- An invariant of a slot and its surroundings, for as long as no hook of the slot runs. -/
structure Surroundings.Calm (env : Surroundings ρ) (I : World ρ → Prop) : Prop where
  steady : ∀ {w}, I w → SteadySlot w.comm
  output : ∀ {w} (outbound : List OutboundBuffer) (bufferedWrite : Bool), I w →
    I { w with comm := { w.comm with outbound, flags := { w.comm.flags with bufferedWrite } } }
  freed : ∀ {w}, I w →
    I { w with comm := { w.comm with
          outbound := []
          websocketUpgradeBarrier := []
          flags := { w.comm.flags with bufferedWrite := false } } }
  otherSlots : ∀ {w}, I w →
    I { w with
          comm := (env.foreign .otherSlots w.comm w.outside).1
          outside := (env.foreign .otherSlots w.comm w.outside).2 }
  finalizeAwait : ∀ {w}, I w →
    I { w with
          comm := (env.foreign .finalizeAwait w.comm w.outside).1
          outside := (env.foreign .finalizeAwait w.comm w.outside).2 }
  drain : ∀ {w}, I w → I { w with outside := (env.foreign .drain w.comm w.outside).2 }

section Calm

variable {I : World ρ → Prop} (hcalm : env.Calm I)

include hcalm

theorem otherSlots_calm (hI : I w) :
    Returns (slotHandler setup env depth) (effect .otherSlots) w fun _ => I :=
  (returns_answered (slotHandler_of_unfold_none _ rfl)).mpr (returns_done.mpr (hcalm.otherSlots hI))

/-- The write loop changes the queue. A fatal error also drops it; the TLS session ends then only on
a slot that is closing. -/
theorem drain_calm (hI : I w) : Returns (slotHandler setup env depth) (effect .drain) w fun _ => I := by
  have hslot := hcalm.steady hI
  refine (returns_answered (slotHandler_of_unfold_none _ rfl)).mpr (returns_done.mpr ?_)
  show I { w with comm := ifLive w.comm fun comm => (flushOutbound comm _).1, outside := _ }
  rw [ifLive, if_pos hslot.live]
  simp only [flushOutbound]
  split
  · have hopen : (w.comm.ssl && w.comm.flags.closing) = false := by simp [hslot.notClosing]
    simp only [commFreeOutboundBuffers, hopen]
    exact hcalm.freed (hcalm.drain hI)
  · exact hcalm.output _ w.comm.flags.bufferedWrite (hcalm.drain hI)

theorem finishFlush_calm (hI : I w) : Returns (slotHandler setup env depth) finishFlush w fun _ => I := by
  rw [finishFlush, returns_commDeref (hcalm.steady hI).live]
  split
  · rw [setComm, effect, returns_setSlot, returns_done]
    exact hcalm.output w.comm.outbound false hI
  · exact returns_done.mpr hI

variable (hannounce : ∀ w : World ρ, I w → w.comm.flags.websocketState = .ready →
  Returns (slotHandler setup env depth) (effect .callTransportReady) w fun _ => I)

include hannounce

/-- `comm_flush` drains the queue; on an upgraded slot it announces the transport then. -/
theorem commFlush_calm (hI : I w) : Returns (slotHandler setup env depth) commFlush w fun _ => I := by
  have hslot := hcalm.steady hI
  have htls : (w.comm.ssl && !w.comm.flags.tlsEstablished && !w.comm.flags.closing) = false := by
    cases hssl : w.comm.ssl with
    | false => rfl
    | true => simp [hslot.established hssl]
  rw [commFlush, returns_commGuard hslot.live]
  dsimp only
  split
  · exact returns_done.mpr hI
  · rw [htls, if_neg Bool.false_ne_true, flushQueue]
    apply (drain_calm hcalm hI).bind
    intro _ w₁ hI₁
    have hslot₁ := hcalm.steady hI₁
    rw [returns_commDeref hslot₁.live]
    -- no Telnet negotiation is pending, and there is no barrier to release
    obtain hstate | ⟨hstate, hbarrier⟩ := hslot₁.framing
    · simp only [hstate, WebSocketState.isReady, reduceCtorEq, bne_self_eq_false, Bool.and_false,
        Bool.false_and, decide_false, Bool.false_eq_true, if_false, Program.pure_eq]
      exact finishFlush_calm hcalm hI₁
    · simp only [hstate, hbarrier, WebSocketState.isReady, reduceCtorEq, decide_false, Bool.and_false,
        Bool.false_and, Bool.false_eq_true, if_false, List.isEmpty_nil, Bool.not_true, Program.pure_eq]
      split
      · exact (hannounce w₁ hI₁ hstate).bind fun _ w₂ hI₂ => finishFlush_calm hcalm hI₂
      · exact finishFlush_calm hcalm hI₁

/-- Nothing is closed behind the flush: the slot is not closing. -/
theorem commFlushAll_calm (hI : I w) :
    Returns (slotHandler setup env (depth + 1)) commFlushAll w fun _ => I := by
  have hcall (w : World ρ) (hI : I w) :
      Returns (slotHandler setup env (depth + 1)) (effect .callFlush) w fun _ => I := by
    obtain ⟨_, w', heval, hpost⟩ := commFlush_calm hcalm hannounce hI
    have hanswer : slotHandler setup env (depth + 1) _ .callFlush w = some ((), w') := heval
    exact (returns_answered hanswer).mpr (returns_done.mpr hpost)
  rw [commFlushAll]
  apply (otherSlots_calm hcalm hI).bind
  intro _ w₁ hI₁
  apply (hcall w₁ hI₁).bind
  intro _ w₂ hI₂
  apply (otherSlots_calm hcalm hI₂).bind
  intro _ w₃ hI₃
  have hslot₃ := hcalm.steady hI₃
  rw [returns_commGuard hslot₃.live]
  simp only [hslot₃.notClosing, Bool.false_and, Bool.false_eq_true, if_false]
  exact otherSlots_calm hcalm hI₃

/-- A strict-mode dispatch without a completion callback. The hook turns what held before it into
`I`; a hook that is not registered leaves it. -/
theorem mudmuxExecutionDispatch_calm (hstrict : setup.relaxed = false) (call : HookCall)
    (hhook : setup.registered call.hookType = true →
      I { w with
            comm := (env.foreign (.runHook call) w.comm w.outside).1
            entries := w.entries ++ [(call, w.comm)]
            outside := (env.foreign (.runHook call) w.comm w.outside).2 })
    (hnone : setup.registered call.hookType = false → I w) :
    Returns (slotHandler setup env (depth + 1)) (mudmuxExecutionDispatch setup call .none) w
      fun result w' => result ≠ .queueFull ∧ I w' := by
  have hinvoke : Returns (slotHandler setup env (depth + 1)) (invokeInline setup call) w
      fun _ => I := by
    rw [invokeInline]
    cases hreg : setup.registered call.hookType with
    | false => exact returns_done.mpr (hnone hreg)
    | true =>
      simp only [Bool.not_true, Bool.false_eq_true, if_false, Program.effect_bind]
      rw [returns_beginHook, returns_answered (slotHandler_of_unfold_none _ rfl)]
      apply (commFlushAll_calm hcalm hannounce (hhook hreg)).bind
      exact fun _ w₁ hI₁ => returns_done.mpr hI₁
  rw [mudmuxExecutionDispatch, hstrict, if_neg Bool.false_ne_true]
  apply hinvoke.bind
  intro ok w₁ hI₁
  have hresult : (if ok then DispatchResult.ok else .error) ≠ .queueFull := by cases ok <;> simp
  rw [finishInline, runCompletion, Program.pure_eq, Program.done_bind]
  generalize (if ok then DispatchResult.ok else .error) = result at hresult ⊢
  dsimp only
  split
  · exact returns_done.mpr ⟨hresult, hI₁⟩
  · refine (returns_answered (slotHandler_of_unfold_none _ rfl)).mpr (returns_done.mpr ?_)
    exact ⟨hresult, hcalm.finalizeAwait hI₁⟩

end Calm

/-! ### Dispatching -/

/-- The hooks that a dispatch enters: the call's own if it is registered. -/
def enteredBy (setup : Setup) (call : HookCall) (comm : CommAbstract) :
    List (HookCall × CommAbstract) :=
  if setup.registered call.hookType then [(call, comm)] else []

/-- Surroundings that keep the input of a slot keep it from `w` on. -/
theorem Surroundings.KeepsInput.calm (henv : env.KeepsInput sameMode) (w : World ρ)
    (entered : List (HookCall × CommAbstract)) : env.Calm (w.Keeps sameMode entered) where
  steady h := h.input.textSlot.steady
  output outbound bufferedWrite h :=
    { h with input := h.input.trans (.of_output h.input.textSlot outbound bufferedWrite) }
  freed h :=
    { h with
        input := h.input.trans ⟨{ h.input.textSlot with }, rfl, rfl, rfl, rfl, rfl, fun _ => rfl⟩ }
  otherSlots h := { h with input := h.input.trans (henv.foreign _ _ _ rfl h.input.textSlot) }
  finalizeAwait h := { h with input := h.input.trans (henv.foreign _ _ _ rfl h.input.textSlot) }
  drain h := { h with }

/-- A strict-mode dispatch in surroundings that keep the input. -/
theorem mudmuxExecutionDispatch_returns (henv : env.KeepsInput sameMode) (hslot : TextSlot w.comm)
    (hstrict : setup.relaxed = false) (call : HookCall) :
    Returns (slotHandler setup env (depth + 1)) (mudmuxExecutionDispatch setup call .none) w
      fun result w' => result ≠ .queueFull ∧ w.Keeps sameMode (enteredBy setup call w.comm) w' := by
  refine mudmuxExecutionDispatch_calm (henv.calm w (enteredBy setup call w.comm))
    (fun _ h => h.input.textSlot.not_ready) hstrict call (fun hreg => ?_) fun hnone => ?_
  · refine ⟨henv.foreign _ _ _ rfl hslot, ?_, rfl⟩
    rw [enteredBy, hreg, if_pos rfl]
  · refine ⟨.refl hslot, ?_, rfl⟩
    rw [enteredBy, hnone, if_neg Bool.false_ne_true, List.append_nil]

/-! ### Surroundings that keep the input -/

/-- A strict-mode program that registers the input hooks. -/
def chatSetup : Setup where
  relaxed := false
  registered hook := hook = .messageInbound || hook = .telnetSubneg
  console := false
  fileInputs := false
  consoleTty := false
  acceptKey := id
  mbrlen _ := .complete 1

/-- Hooks that answer with one line, and a transport that takes no output yet. -/
def chatSurroundings : Surroundings Unit where
  foreign e comm _ :=
    match e with
    | .runHook _ => (ifLive comm fun comm => commBufferedWriteImpl true comm [111, 107, 10], ())
    | _ => (comm, ())
  hookReturns _ _ := true
  slotBusy _ := false
  enqueue _ _ := .error
  writes _ := []
  sslHandshake _ := .wantIo
  sslRead _ := ⟨[], true⟩

theorem chatSurroundings_keepsInput (sameMode : Prop) : chatSurroundings.KeepsInput sameMode where
  foreign e comm _ _ hslot := by
    cases e with
    | runHook _ => exact InputKept.of_write hslot true _
    | _ => exact InputKept.refl hslot
  notBusy _ := rfl

/-- A plain or Telnet connection in line input that has not received anything. -/
def chatWorld (enableTelnet : Bool) (reads : List ReadAnswer) : World Unit where
  comm := { rbio := true, wbio := true, flags := { enableTelnet, lineInput := true } }
  entries := []
  reads := reads
  outside := ()

end Mudmux.Comm
