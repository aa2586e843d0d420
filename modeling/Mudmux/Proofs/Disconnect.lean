import Mudmux.Proofs.SlotWp

/-!
# `Mudmux.Proofs.Disconnect`: what is dispatched behind `HOOK_DISCONNECT`

An observer notes for each connection when its disconnect hook has been dispatched, and whether any of
the hooks of an open slot is dispatched after that. In strict mode a hook is dispatched when it is
entered; in relaxed mode when the scheduler accepts it, from which on its turn is fixed.

`comm_close_impl` sets `C_CLOSING` and clears `C_DISCONNECT_PENDING` before it dispatches the hook, and
as long as the connection lasts nothing takes that back. `HOOK_TRANSPORT_READY` is dispatched only
without `C_CLOSING`, and the prompt only with `C_ENABLE_PROMPT`, which `comm_close_impl` clears. But
nothing in the input path looks at `C_CLOSING`: bytes that are already buffered, or that arrive while
the slot drains, still become `HOOK_MESSAGE_INBOUND` and `HOOK_TELNET_SUBNEG` calls. And a public call
may switch the prompt on again. In runs without these steps the disconnect hook is terminal.

The prompt is the reason why this is not an invariant of every effect: it is cleared behind the hook,
not before it. While the hook runs only `Terminal` holds; at rest the prompt of a disconnected slot is
off as well (`PromptOff`).
-/

set_option autoImplicit false

namespace Mudmux.Comm

open Mudmux.Lib
open CallbackSystem

variable {setup : Setup}

/-! ### The observer and the condition -/

/-- Whether the disconnect hook of the current connection has been dispatched, and whether a hook of an
open slot was ever dispatched behind one. -/
structure DisconnectNotes where
  disconnected : Bool := false
  late : Bool := false
  deriving DecidableEq, Repr

/-- The notes when a hook is dispatched. -/
def DisconnectNotes.dispatch (call : HookCall) (n : DisconnectNotes) : DisconnectNotes :=
  if call.hookType = .disconnect then { n with disconnected := true }
  else { n with late := n.late || (n.disconnected && call.hookType.ofOpenSlot) }

/-- The observer. -/
def observeDisconnect (relaxed : Bool) : Observer DisconnectNotes
  | _, .beginHook call, _, _, _, n => if relaxed then n else n.dispatch call
  | _, .enqueue call _, .dispatch .queued, _, _, n => n.dispatch call
  | _, .addBio _ _ _ _, _, _, _, n => { n with disconnected := false }
  | _, _, _, _, _, n => n

/-- The disconnect hook is still to be dispatched. -/
def CommAbstract.beforeDisconnect (c : CommAbstract) : Bool :=
  !c.flags.closing || c.flags.disconnectPending

/-- The hooks that carry input. -/
def HookType.isInput (hook : HookType) : Bool := hook = .messageInbound || hook = .telnetSubneg

/-- The condition on the steps: input is dispatched, and the prompt is switched on, only before the
disconnect hook. -/
def terminalGuard (setup : Setup) :
    (slotSystem setup (observeDisconnect setup.relaxed)).Guard where
  entry s x :=
    match x with
    | .api _ (.enablePrompt true) => s.comm.beforeDisconnect
    | _ => true
  effect s e _ :=
    match e with
    | .beginHook call => setup.relaxed || !call.hookType.isInput || s.comm.beforeDisconnect
    | .enqueue call _ => !call.hookType.isInput || s.comm.beforeDisconnect
    | _ => true

/-! ### The invariant -/

/-- Behind the disconnect hook the connection is closing, and nothing was dispatched too late. -/
structure Terminal (c : CommAbstract) (n : DisconnectNotes) : Prop where
  closing : n.disconnected = true → c.live = true → c.beforeDisconnect = false
  late : n.late = false

/-- The prompt of a disconnected slot is off. -/
def PromptOff (c : CommAbstract) (n : DisconnectNotes) : Prop :=
  n.disconnected = true → c.live = true → c.flags.enablePrompt = false

/-- The slot has begun to close, so no disconnect hook is dispatched any more. -/
def Settled (c : CommAbstract) : Prop := c.live = true → c.beforeDisconnect = false

/-- What foreign code and calls leave as it was. -/
structure Grows (s s' : SlotState DisconnectNotes) : Prop where
  settled : Settled s.comm → Settled s'.comm ∧
    (s'.notes.disconnected = true → s.notes.disconnected = true)
  promptOff : PromptOff s.comm s.notes → PromptOff s'.comm s'.notes

theorem Grows.refl (s : SlotState DisconnectNotes) : Grows s s := ⟨fun h => ⟨h, id⟩, id⟩

variable {s s' : SlotState DisconnectNotes}

theorem Grows.trans {s'' : SlotState DisconnectNotes} (h : Grows s s') (h' : Grows s' s'') :
    Grows s s'' where
  settled hs := by
    obtain ⟨hs', hd⟩ := h.settled hs
    obtain ⟨hs'', hd'⟩ := h'.settled hs'
    exact ⟨hs'', fun hn => hd (hd' hn)⟩
  promptOff hp := h'.promptOff (h.promptOff hp)

/-- The plan of the proof. -/
def terminalOutline (setup : Setup) :
    (slotSystem setup (observeDisconnect setup.relaxed)).Outline where
  guard := terminalGuard setup
  always s := s.notes.late = false
  inner s := Terminal s.comm s.notes
  grows s s' := Grows s s'
  rest s := Terminal s.comm s.notes ∧ PromptOff s.comm s.notes

/-- A step that does not dispatch the disconnect hook and, unless the slot is removed, keeps what
`comm_close_impl` looks at. -/
theorem Terminal.keep (hi : Terminal s.comm s.notes)
    (hcomm : s'.comm.live = true → s.comm.live = true ∧
      s'.comm.beforeDisconnect = s.comm.beforeDisconnect ∧
      s'.comm.flags.enablePrompt = s.comm.flags.enablePrompt)
    (hnotes : s'.notes.disconnected = s.notes.disconnected) (hlate : s'.notes.late = false) :
    s'.notes.late = false ∧ Terminal s'.comm s'.notes ∧ Grows s s' := by
  refine ⟨hlate, ⟨fun hd hl => ?_, hlate⟩, ⟨fun hs => ⟨fun hl => ?_, ?_⟩, fun hp hd hl => ?_⟩⟩
  · obtain ⟨hlive, hbefore, -⟩ := hcomm hl
    rw [hbefore]
    exact hi.closing (hnotes ▸ hd) hlive
  · obtain ⟨hlive, hbefore, -⟩ := hcomm hl
    rw [hbefore]
    exact hs hlive
  · exact fun hd => hnotes ▸ hd
  · obtain ⟨hlive, -, hprompt⟩ := hcomm hl
    rw [hprompt]
    exact hp (hnotes ▸ hd) hlive

variable {c : CommAbstract}

/-- A hook of an open slot that is dispatched before the disconnect hook, or any other hook but that
one. -/
theorem Terminal.dispatch {n : DisconnectNotes} {call : HookCall} (hi : Terminal c n)
    (hne : call.hookType ≠ .disconnect)
    (hopen : call.hookType.ofOpenSlot = true → c.live = true ∧ c.beforeDisconnect = true) :
    (n.dispatch call).disconnected = n.disconnected ∧ (n.dispatch call).late = false := by
  rw [DisconnectNotes.dispatch, if_neg hne]
  refine ⟨rfl, ?_⟩
  simp only [hi.late, Bool.false_or, Bool.and_eq_false_imp]
  intro hd
  by_contra hcall
  obtain ⟨hlive, hbefore⟩ := hopen (by simpa using hcall)
  rw [hi.closing hd hlive] at hbefore
  cases hbefore

/-- What the guard and `slotSpec` together say about a dispatched hook. -/
theorem beforeDisconnect_of_dispatch {call : HookCall} (hspec : DispatchGuard False call c)
    (hguard : (!call.hookType.isInput || c.beforeDisconnect) = true) :
    call.hookType ≠ .disconnect ∧
      (call.hookType.ofOpenSlot = true → c.live = true ∧ c.beforeDisconnect = true) := by
  obtain ⟨hdisconnect, hprompt⟩ := hspec.ordinary id
  refine ⟨hdisconnect, fun hcall => ⟨hspec.live hcall, ?_⟩⟩
  cases htype : call.hookType with
  | messageInbound => simpa [htype, HookType.isInput] using hguard
  | telnetSubneg => simpa [htype, HookType.isInput] using hguard
  | transportReady => simp [CommAbstract.beforeDisconnect, hspec.ready htype]
  | prompt => exact absurd htype hprompt
  | connect => simp [htype, HookType.ofOpenSlot] at hcall
  | disconnect => exact absurd htype hdisconnect
  | messageOutbound => simp [htype, HookType.ofOpenSlot] at hcall

variable {c' : CommAbstract}

theorem SlotUpdate.keeps_closing (h : SlotUpdate False c c') :
    c'.live = true → c.live = true ∧ c'.beforeDisconnect = c.beforeDisconnect ∧
      c'.flags.enablePrompt = c.flags.enablePrompt := by
  obtain ⟨hclosing, hpending, hprompt⟩ := h.steady id
  refine fun hl => ⟨h.live ▸ hl, ?_, hprompt⟩
  simp [CommAbstract.beforeDisconnect, hclosing, hpending]

theorem QueueStep.keeps_closing (h : QueueStep c c') :
    c'.live = true → c.live = true ∧ c'.beforeDisconnect = c.beforeDisconnect ∧
      c'.flags.enablePrompt = c.flags.enablePrompt := by
  refine fun hl => ⟨h.live ▸ hl, ?_, h.enablePrompt⟩
  simp [CommAbstract.beforeDisconnect, h.closing, h.disconnectPending]

/-- Every effect of the code without `lifecycle`. -/
theorem Terminal.step {β : Type} {e : SlotEffect β} {a : Answer} {b : β}
    (hspec : slotSpec setup False β s.comm e) (hi : Terminal s.comm s.notes)
    (hg : (terminalGuard setup).effect s e a = true) (hexec : slotExec e a s.comm = some (b, c'))
    (hcomm : s'.comm = c')
    (hnotes : s'.notes = observeDisconnect setup.relaxed e a s.comm c' s.notes) :
    s'.notes.late = false ∧ Terminal s'.comm s'.notes ∧ Grows s s' := by
  -- a hook that is dispatched leaves the record alone
  have hdispatch {call : HookCall} (h : DispatchGuard False call s.comm)
      (hguard : (!call.hookType.isInput || s.comm.beforeDisconnect) = true)
      (hsame : s'.comm = s.comm) (hn : s'.notes = s.notes.dispatch call) :
      s'.notes.late = false ∧ Terminal s'.comm s'.notes ∧ Grows s s' := by
    obtain ⟨hne, hopen⟩ := beforeDisconnect_of_dispatch h hguard
    obtain ⟨hd, hlate⟩ := hi.dispatch hne hopen
    refine hi.keep (fun hl => ?_) (hn ▸ hd) (hn ▸ hlate)
    rw [hsame] at hl ⊢
    exact ⟨hl, rfl, rfl⟩
  have hqueue (h : QueueStep s.comm c') (hn : s'.notes = s.notes) :
      s'.notes.late = false ∧ Terminal s'.comm s'.notes ∧ Grows s s' :=
    hi.keep (hcomm ▸ h.keeps_closing) (hn ▸ rfl) (hn ▸ hi.late)
  have hquiet (h : c' = s.comm) (hn : s'.notes = s.notes) :
      s'.notes.late = false ∧ Terminal s'.comm s'.notes ∧ Grows s s' :=
    hqueue (h ▸ QueueStep.refl _) hn
  cases e with
  | setSlot _ =>
    cases a <;> cases hexec
    exact hi.keep (hcomm ▸ SlotUpdate.keeps_closing hspec) (hnotes ▸ rfl) (hnotes ▸ hi.late)
  | beginHook call =>
    have hsame := slotExec_of_leavesRecord rfl hexec
    cases hrelaxed : setup.relaxed with
    | true =>
      refine hquiet hsame ?_
      rw [hnotes, hrelaxed]
      rfl
    | false =>
      refine hdispatch (hspec hrelaxed) ?_ (hcomm.trans hsame) ?_
      · simpa [terminalGuard, hrelaxed] using hg
      · rw [hnotes, hrelaxed]
        rfl
  | enqueue call completion =>
    have hsame := slotExec_of_leavesRecord rfl hexec
    cases a with
    | dispatch result =>
      cases result with
      | queued => exact hdispatch hspec hg (hcomm.trans hsame) hnotes
      | error => exact hquiet hsame hnotes
      | ok => exact hquiet hsame hnotes
      | queueFull => exact hquiet hsame hnotes
    | _ => exact hquiet hsame hnotes
  | write normalize buf =>
    cases a <;> cases hexec
    exact hqueue (QueueStep.ifLive (commBufferedWriteImpl_queueStep _ _) _) hnotes
  | writeRaw buf =>
    cases a <;> cases hexec
    exact hqueue (QueueStep.ifLive (commBufferedWriteRaw_queueStep _) _) hnotes
  | pong payload =>
    cases a <;> cases hexec
    exact hqueue (QueueStep.ifLive (writeControlFrame_queueStep _ _) _) hnotes
  | queueClose payload =>
    cases a <;> cases hexec
    exact hqueue (QueueStep.ifLive (commWebsocketQueueClose_queueStep _) _) hnotes
  | releaseBarrier =>
    cases a <;> cases hexec
    exact hqueue (QueueStep.ifLive releaseUpgradeBarrier_queueStep _) hnotes
  | freeOutbound =>
    cases a <;> cases hexec
    exact hqueue (QueueStep.ifLive commFreeOutboundBuffers_queueStep _) hnotes
  | drain =>
    cases a <;> cases hexec
    exact hqueue (QueueStep.ifLive (flushOutbound_queueStep _) _) hnotes
  | remove =>
    cases a <;> cases hexec
    refine hi.keep (fun hl => ?_) (hnotes ▸ rfl) (hnotes ▸ hi.late)
    rw [hcomm] at hl
    unfold ifLive at hl
    split at hl
    · cases hl
    · contradiction
  | addBio rbio wbio wbioFd flags => exact absurd hspec id
  | _ => exact hquiet (slotExec_of_leavesRecord rfl hexec) hnotes

/-- Code without `lifecycle` keeps the invariant. -/
theorem wp_of_does {α : Type} {p : Code α} {R : α → Prop}
    (hp : Does setup False p (fun a _ => R a) s.comm) (hi : Terminal s.comm s.notes) :
    (terminalOutline setup).wp p
      (fun a s' => R a ∧ Terminal s'.comm s'.notes ∧ Grows s s') s := by
  refine Outline.wp_of_splits (O := terminalOutline setup) machineSplits Grows.refl
    (fun _ _ _ => Grows.trans) (fun e s a b s' hspec hi hg hexec => ?_) (pairsTo_of_meetsTo hp) hi
  obtain ⟨r, hr, hs'⟩ := Option.map_eq_some_iff.mp hexec
  cases hs'
  exact Terminal.step hspec hi hg hr rfl rfl

theorem wp_of_steps {α : Type} {p : Code α} (hp : Steps setup False p)
    (hi : Terminal s.comm s.notes) :
    (terminalOutline setup).wp p (fun _ s' => Terminal s'.comm s'.notes ∧ Grows s s') s :=
  Outline.wp_mono _ (wp_of_does (hp s.comm) hi) fun _ _ h => h.2

/-! ### The code with `lifecycle`, effect by effect -/

/-- The state of the machine with an observer of disconnects. -/
abbrev DisconnectState := SlotState DisconnectNotes

instance (relaxed : Bool) : IgnoresRecord (observeDisconnect relaxed) where
  getSlot _ _ _ _ := rfl
  setSlot _ _ _ _ _ := rfl

/-! ### Closing -/

/-- The dispatch of any hook for which the invariant holds also once it is noted: the slot goes on
from the state with or without the note, and it does not move at all when the queue is full. -/
theorem wp_dispatch {s : DisconnectState} (call : HookCall) (completion : Completion)
    (hi : Terminal s.comm s.notes) (hi' : Terminal s.comm (s.notes.dispatch call)) :
    (terminalOutline setup).wp (mudmuxExecutionDispatch setup call completion)
      (fun result s' => Terminal s'.comm s'.notes ∧
        (∃ n, (n = s.notes ∨ n = s.notes.dispatch call) ∧ Grows ⟨s.comm, s.tasks, n⟩ s') ∧
        (result = .queueFull → s'.notes = s.notes)) s := by
  by_cases hrelaxed : setup.relaxed = true
  · rw [mudmuxExecutionDispatch, if_pos hrelaxed]
    refine wp_effect rfl rfl fun a b c' _ hexec => ?_
    cases a with
    | dispatch result =>
      cases result with
      | ok => cases hexec
      | queued =>
        cases hexec
        exact ⟨hi'.late, hi', ⟨_, .inr rfl, ⟨fun h => ⟨h, id⟩, id⟩⟩, by simp⟩
      | error =>
        cases hexec
        exact ⟨hi.late, hi, ⟨_, .inl rfl, ⟨fun h => ⟨h, id⟩, id⟩⟩, by simp⟩
      | queueFull =>
        cases hexec
        exact ⟨hi.late, hi, ⟨_, .inl rfl, ⟨fun h => ⟨h, id⟩, id⟩⟩, fun _ => rfl⟩
    | _ => cases hexec
  · -- the code behind the hook keeps the invariant, and an inline hook does not meet the queue
    have hrest (n : DisconnectNotes) (hn : n = s.notes ∨ n = s.notes.dispatch call) (ok : Bool)
        (s' : DisconnectState) (ht : Terminal s'.comm s'.notes)
        (hg : Grows ⟨s.comm, s.tasks, n⟩ s') :
        (terminalOutline setup).wp (finishInline call completion ok) (fun result s' =>
          Terminal s'.comm s'.notes ∧
          (∃ n, (n = s.notes ∨ n = s.notes.dispatch call) ∧ Grows ⟨s.comm, s.tasks, n⟩ s') ∧
          (result = .queueFull → s'.notes = s.notes)) s' :=
      Outline.wp_mono _ (wp_of_does (stepPermits.finishInline call (completionGrants completion) ok _)
        ht) fun _ _ h => ⟨h.2.1, ⟨n, hn, hg.trans h.2.2⟩, fun hfull => absurd hfull h.1⟩
    rw [mudmuxExecutionDispatch, if_neg hrelaxed, Outline.wp_bind, invokeInline]
    split
    · exact hrest _ (.inl rfl) true s hi (Grows.refl s)
    · rw [Program.effect_bind]
      refine wp_effect rfl rfl fun a b c' _ hexec => ?_
      cases a <;> cases hexec
      have hafter : s.after (observeDisconnect setup.relaxed) (.beginHook call) .unit () s.comm
          = ⟨s.comm, s.tasks, s.notes.dispatch call⟩ := by
        simp only [SlotState.after, observeDisconnect, if_neg hrelaxed, tasksAfter]
      rw [hafter]
      refine ⟨hi'.late, wp_reentrant rfl rfl hi' fun s' a ok c' ht hg _ hexec => ?_⟩
      cases a <;> cases hexec
      refine ⟨ht.late, (Outline.wp_bind _ commFlushAll (fun _ => pure ok) _ _).mpr ?_⟩
      refine Outline.wp_mono _ (wp_of_steps stepPermits.commFlushAll ht) fun _ s'' h => ?_
      exact hrest _ (.inr rfl) ok s'' h.1 (hg.trans h.2)

/-- `comm_close_impl` behind the dispatch of the disconnect hook. -/
theorem wp_closeDispatched {s : DisconnectState} (result : DispatchResult)
    (hi : Terminal s.comm s.notes) (hs : Settled s.comm)
    (hd : result = .queueFull → s.notes.disconnected = false) :
    (terminalOutline setup).wp (
      if result = .queueFull then do
        modifyFlags fun flags => { flags with disconnectPending := true, awaitingHook := false }
        pure false
      else do
        if !result.accepted then modifyFlags fun flags => { flags with awaitingHook := false }
        else pure ()
        modifyFlags fun flags => { flags with enablePrompt := false }
        if result = .queued then pure false else finishClose setup)
      (fun _ s' => Terminal s'.comm s'.notes ∧ PromptOff s'.comm s'.notes) s := by
  -- the prompt is off from here on
  have hend (s : DisconnectState) (hi : Terminal s.comm s.notes) (hs : Settled s.comm) :
      (terminalOutline setup).wp (do
        modifyFlags fun flags => { flags with enablePrompt := false }
        if result = .queued then pure false else finishClose setup)
        (fun _ s' => Terminal s'.comm s'.notes ∧ PromptOff s'.comm s'.notes) s := by
    refine wp_modify hi.late hi.late fun hlive => ?_
    have hi' : Terminal (s.comm.mapFlags fun flags => { flags with enablePrompt := false }) s.notes :=
      ⟨fun _ _ => hs hlive, hi.late⟩
    split
    · exact ⟨hi', fun _ _ => rfl⟩
    · exact Outline.wp_mono _ (wp_of_steps (stepPermits.finishClose fun _ h => h) hi') fun _ s' h =>
        ⟨h.1, h.2.promptOff fun _ _ => rfl⟩
  split
  · rename_i hfull
    refine wp_modify hi.late hi.late fun _ => ⟨⟨fun hn => ?_, hi.late⟩, fun hn => ?_⟩ <;>
      rw [hd hfull] at hn <;> cases hn
  · dsimp only
    split
    · refine wp_modify hi.late hi.late fun hlive => hend _ ⟨fun _ _ => hs hlive, hi.late⟩ fun _ => ?_
      exact hs hlive
    · exact hend s hi hs

theorem wp_commClose {s : DisconnectState} (hi : Terminal s.comm s.notes) :
    (terminalOutline setup).wp (commClose setup)
      (fun _ s' => Terminal s'.comm s'.notes ∧ Grows s s') s := by
  refine wp_guard hi.late (fun _ => ⟨hi, Grows.refl s⟩) fun hlive => ?_
  dsimp only
  split
  · rename_i hopen
    have hbefore : s.comm.beforeDisconnect = true := hopen
    -- the hook has not been dispatched, so there is nothing to keep but the prompt
    have hd : s.notes.disconnected = false := by
      by_contra hn
      rw [hi.closing (by simpa using hn) hlive] at hbefore
      cases hbefore
    have hgrows (t : DisconnectState) (hp : PromptOff t.comm t.notes) : Grows s t := by
      refine ⟨fun hs => ?_, fun _ => hp⟩
      rw [hs hlive] at hbefore
      cases hbefore
    refine wp_store hi.late ?_
    rw [Program.effect_bind]
    refine wp_reentrant rfl rfl ⟨fun hn => ?_, hi.late⟩ fun s' a b c' hi' hg _ hexec => ?_
    · rw [hd] at hn
      cases hn
    · cases a <;> cases hexec
      obtain ⟨hs', hd'⟩ := hg.settled fun _ => rfl
      refine ⟨hi'.late, wp_modify hi'.late hi'.late fun hlive' => ?_⟩
      have hn : s'.notes.disconnected = false := by
        by_contra hn
        rw [hd' (by simpa using hn)] at hd
        cases hd
      rw [Outline.wp_bind]
      refine Outline.wp_mono _ (wp_dispatch .disconnect .disconnect
        ⟨fun _ _ => hs' hlive', hi'.late⟩ ⟨fun _ _ => hs' hlive', hi'.late⟩)
        fun result t ⟨ht, ⟨_, _, hg'⟩, hfull⟩ => ?_
      have hst : Settled t.comm := (hg'.settled fun _ => hs' hlive').1
      refine Outline.wp_mono _ (wp_closeDispatched result ht hst fun h => ?_) fun _ t' h' =>
        ⟨h'.1, hgrows t' h'.2⟩
      rw [hfull h]
      exact hn
  · exact wp_of_steps (stepPermits.finishClose fun _ h => h) hi

/-! ### The prompt and new connections -/

theorem wp_enablePrompt {s : DisconnectState} (caller : Caller) (enable : Bool)
    (hi : Terminal s.comm s.notes)
    (hg : (terminalGuard setup).entry s (.api caller (.enablePrompt enable)) = true) :
    (terminalOutline setup).wp (apiCode setup caller (.enablePrompt enable))
      (fun _ s' => Terminal s'.comm s'.notes ∧ Grows s s') s := by
  refine wp_guard hi.late (fun _ => ⟨hi, Grows.refl s⟩) fun hlive => ?_
  refine wp_setComm hi.late ⟨⟨hi.closing, hi.late⟩, ⟨fun hs => ⟨hs, id⟩, fun _ hd _ => ?_⟩⟩
  cases enable with
  | false => rfl
  | true =>
    have hbefore : s.comm.beforeDisconnect = true := hg
    rw [hi.closing hd hlive] at hbefore
    cases hbefore

theorem DisconnectNotes.dispatch_prompt {n : DisconnectNotes} (h : n.disconnected = false) :
    n.dispatch .prompt = n := by
  cases n
  simp_all [DisconnectNotes.dispatch, HookCall.hookType]

/-- A prompt is dispatched only where it is on, so not on a disconnected slot at rest. -/
theorem wp_commInvokePrompt {s : DisconnectState} (hi : Terminal s.comm s.notes)
    (hp : PromptOff s.comm s.notes) :
    (terminalOutline setup).wp (commInvokePrompt setup)
      (fun _ s' => Terminal s'.comm s'.notes ∧ PromptOff s'.comm s'.notes) s := by
  refine wp_guard hi.late (fun _ => ⟨hi, hp⟩) fun hlive => ?_
  dsimp only
  split
  · exact ⟨hi, hp⟩
  · rename_i hon
    split
    · exact ⟨hi, hp⟩
    · rw [Program.effect_bind]
      refine wp_effect rfl rfl fun a busy c' _ hexec => ?_
      cases a <;> cases hexec
      refine ⟨hi.late, ?_⟩
      split
      · exact ⟨hi, hp⟩
      · have hd : s.notes.disconnected = false := by
          by_contra hn
          simp [hp (by simpa using hn) hlive] at hon
        have hnotes := DisconnectNotes.dispatch_prompt hd
        refine (Outline.wp_bind _ (mudmuxExecutionDispatch setup .prompt .none) _ _ _).mpr ?_
        refine Outline.wp_mono _ (wp_dispatch .prompt .none hi (hnotes.symm ▸ hi))
          fun result t ⟨ht, ⟨n, hn, hg⟩, _⟩ => ?_
        have hpt : PromptOff t.comm t.notes := by
          have hns : n = s.notes := hn.elim id fun h => h.trans hnotes
          rw [hns] at hg
          exact hg.promptOff hp
        split
        · exact wp_modifyComm ht.late ht.late fun _ => ⟨⟨ht.closing, ht.late⟩, hpt⟩
        · exact ⟨ht, hpt⟩

/-- A new connection starts with no disconnect hook. -/
theorem wp_addBio {s : DisconnectState} {k : Unit → Code Unit} (rbio wbio wbioFd : Bool)
    (flags : Flags) (hlate : s.notes.late = false) (hk : Steps setup False (k ())) :
    (terminalOutline setup).wp (.perform (.addBio rbio wbio wbioFd flags) k)
      (fun _ s' => Terminal s'.comm s'.notes ∧ PromptOff s'.comm s'.notes) s := by
  refine wp_effect rfl rfl fun a b c' _ hexec => ?_
  cases a <;> cases hexec
  refine ⟨hlate, Outline.wp_mono _ (wp_of_steps hk ⟨by nofun, hlate⟩) fun _ t h => ?_⟩
  exact ⟨h.1, h.2.promptOff (by nofun)⟩

/-! ### Whole runs -/

theorem terminalOutline_valid (setup : Setup) : (terminalOutline setup).Valid where
  rest_always s h := h.1.late
  grows_refl := Grows.refl
  grows_trans _ _ _ := Grows.trans
  call e p hu s hi := by
    cases e with
    | callFlush =>
      cases hu
      exact wp_of_steps stepPermits.commFlush hi
    | callTransportReady =>
      cases hu
      exact wp_of_steps (stepPermits.commInvokeTransportReady (stepGrants nofun) (stepGrants nofun)
        (stepPermits.hook _)) hi
    | callClose =>
      cases hu
      exact wp_commClose hi
    | _ => cases hu
  foreign x hx s hi henabled hg := by
    replace henabled : entryEnabled setup s x = true := henabled
    cases x with
    | api caller call =>
      cases call with
      | enablePrompt enable => exact wp_enablePrompt caller enable hi hg
      | _ => exact wp_of_steps (steps_entryCode henabled (by nofun)) hi
    | _ => cases hx
  entry x s hs henabled hg := by
    obtain ⟨hi, hp⟩ := hs
    replace henabled : entryEnabled setup s x = true := henabled
    have hsteps (h : Steps setup False (entryCode setup x)) : (terminalOutline setup).wp
        (entryCode setup x)
        (fun _ s' => Terminal s'.comm s'.notes ∧ PromptOff s'.comm s'.notes) s :=
      Outline.wp_mono _ (wp_of_steps h hi) fun _ t ht => ⟨ht.1, ht.2.promptOff hp⟩
    cases x with
    | api caller call =>
      cases call with
      | enablePrompt enable =>
        exact Outline.wp_mono _ (wp_enablePrompt caller enable hi hg) fun _ t ht =>
          ⟨ht.1, ht.2.promptOff hp⟩
      | _ => exact hsteps (steps_entryCode henabled (by nofun))
    | prompt => exact wp_commInvokePrompt hi hp
    | accept flags =>
      refine wp_guard hi.late (fun _ => ?_) fun _ => ⟨hi, hp⟩
      exact wp_addBio _ _ _ _ hi.late
        (stepPermits.commInvokeConnect (stepGrants nofun) (stepGrants nofun))
    | addBio rbio wbio wbioFd flags =>
      show (terminalOutline setup).wp (if rbio || wbio then _ else _) _ s
      split
      · exact wp_addBio _ _ _ _ hi.late (meets_pure ())
      · exact ⟨hi, hp⟩
    | _ => exact hsteps (steps_entryCode henabled (by nofun))

/-- A strict-mode server with hooks for input and disconnect. -/
def quitSetup : Setup where
  relaxed := false
  registered hook := hook = .messageInbound || hook = .disconnect
  console := false
  fileInputs := false
  consoleTty := false
  acceptKey := id
  mbrlen _ := .complete 1

/-- The client sends two lines in one read and does not take any output. The input hook says goodbye
and closes the slot. -/
def quitClient {β : Type} (s : DisconnectState) :
    SlotEffect β → (slotSystem quitSetup (observeDisconnect false)).Move
  | .runHook (.messageInbound _) =>
    if s.comm.outbound.isEmpty then
      .enter (.api ⟨some .messageInbound, true⟩ (.bufferedWrite (ascii "bye")))
    else if !s.comm.flags.closing then .enter (.api ⟨some .messageInbound, true⟩ .close)
    else .answer (.bool true)
  | .runHook _ => .answer (.bool true)
  | .slotBusy => .answer (.bool false)
  | .drain => .answer (.writes [])
  | .transportRead => .answer (.read (.data ⟨ascii "quit\nfoo\n", by decide⟩))
  | _ => .answer .unit

/-- A connection whose first read becomes readable. -/
def readQuit : List Entry := [.accept { lineInput := true }, .event ⟨true, false, false⟩]

/-- A connection that is closed by the application while its output waits. -/
def closeWithOutput : List Entry :=
  [.accept { lineInput := true }, .api ⟨none, false⟩ (.bufferedWrite (ascii "bye")),
    .api ⟨none, false⟩ .close, .flush, .progressClose]

end Mudmux.Comm
