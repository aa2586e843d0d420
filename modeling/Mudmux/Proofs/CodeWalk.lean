import Mudmux.Proofs.InputWalk
import Mudmux.Proofs.Requirements

/-!
# `Mudmux.Proofs.CodeWalk`: the code of a slot meets what is required of it

The one pass over the code of a slot, one lemma a function: the code meets every requirement that permits it.
First what flushes and closes a slot and runs behind a hook, then the other code that runs no hook, the
dispatch of input, the text parsers, the frames of a WebSocket, and the entries of the event loop and of the
public calls.
-/

set_option autoImplicit false

namespace Mudmux.Comm

open Mudmux.Lib
open CallbackSystem

variable {setup : Setup} {R : Requirement}

variable {c : CommAbstract} {completion : Completion} {α : Type} {call : HookCall}
  {k : Unit → Code α}

/-- The stores of a completion callback. -/
def Completion.kinds : Completion → List StoreKind
  | .none => []
  | .inbound => [.defer]
  | .disconnect => [.disconnected]
  | .transportReady | .connect => [.hookOver, .defer]

/-- `comm_flush` behind its write loop, with the record it has read there. -/
def afterDrain (comm : CommAbstract) (pending : Bool) : Code Unit := do
  if pending && !comm.flags.closing then do
    commStartTelnetNegotiation
    Program.effect .callFlush
  else if comm.outbound.isEmpty && comm.flags.websocketState.isReady
      && !comm.websocketUpgradeBarrier.isEmpty then do
    Program.effect .releaseBarrier
    Program.effect .callTransportReady
    match ← commGuard with
    | none => pure ()
    | some _ => Program.effect .callFlush
  else do
    if comm.outbound.isEmpty && comm.flags.websocketState.isReady then
      Program.effect .callTransportReady
    else pure ()
    finishFlush

theorem flushQueue_eq : flushQueue = (do
    Program.effect .drain
    let comm ← commDeref
    let pending := comm.outbound.isEmpty && comm.flags.websocketState = .telnetPending
    if pending then modifyFlags fun flags => { flags with websocketState := .ready } else pure ()
    afterDrain comm pending) := rfl

/-- What is permitted to `comm_close_impl`. -/
structure PermitsClose (setup : Setup) (R : Requirement) : Prop where
  close : Grants setup R .close
  disconnected : setup.relaxed = false → Grants setup R .disconnected
  hook : ∀ c, Dispatches R .disconnect c
  remove : ∀ c, c.flags.bufferedWrite = false ∨ setup.console = true → R.spec _ c .remove

namespace PermitsFlush

variable (P : PermitsFlush setup R)

include P

/-! ### Telnet output -/

theorem deferInboundTo (hd : Grants setup R .defer) {Q : Unit → CommAbstract → Prop}
    (h : c.live = true → Q () (c.mapFlags fun flags => { flags with deferredInbound := true })) :
    MeetsTo setup R deferInbound Q c := by
  refine P.getSlot ?_
  show MeetsTo setup R (((if c.live then pure c else _) >>=
    fun comm => setComm (comm.mapFlags fun flags => { flags with deferredInbound := true })) >>=
      fun _ => Program.effect (.setHasDeferred true)) _ c
  split
  · next hlive =>
      refine .pair rfl rfl rfl rfl (hd c) fun a b c' hexec a' b' c'' hexec' => .done ?_
      cases a <;> cases hexec
      cases a' <;> cases hexec'
      exact h hlive
  · exact meetsTo_perform (P.free rfl) fun b => b.elim

theorem deferInbound (hd : Grants setup R .defer) : Meets setup R deferInbound :=
  fun _ => P.deferInboundTo hd fun _ => True.intro

theorem commDeferInput (hd : Grants setup R .defer) : Meets setup R commDeferInput :=
  P.guard (meets_pure ()) fun c _ => P.deferInbound hd c

theorem commTelnetSend (command option : Byte) : Meets setup R (commTelnetSend command option) :=
  P.guard (meets_pure ()) fun c _ => meets_ite (meets_pure ()) (P.effect rfl) c

theorem startTelnetNegotiation : Meets setup R startTelnetNegotiation :=
  P.deref fun c _ =>
    meets_ite (meets_pure ())
      (meets_bind (P.commTelnetSend _ _) fun _ => meets_bind (P.commTelnetSend _ _) fun _ =>
        meets_bind (P.commTelnetSend _ _) fun _ => P.commTelnetSend _ _) c

theorem commStartTelnetNegotiation : Meets setup R commStartTelnetNegotiation :=
  P.guard (meets_pure ()) fun c _ => meets_when P.startTelnetNegotiation c

/-! ### Behind a hook -/

theorem commFlushAll : Meets setup R commFlushAll := by
  refine meets_bind (P.effect rfl) fun _ => meets_bind (P.effect rfl) fun _ =>
    meets_bind (P.effect rfl) fun _ => P.guard (P.effect rfl) fun c _ => ?_
  exact meets_ite (meets_bind (P.effect rfl) fun _ => P.effect rfl) (P.effect rfl) c

theorem runCompletion (hk : ∀ kind ∈ completion.kinds, Grants setup R kind) :
    Meets setup R (runCompletion completion) := by
  -- the await flag is left alone when the slot is closing
  have hover {c : CommAbstract} {k : Unit → Code Unit} (hhook : Grants setup R .hookOver)
      (hrest : Meets setup R (k ())) : MeetsTo setup R (
        if !c.flags.closing then
          Comm.modifyFlags (fun flags => { flags with awaitingHook := false }) >>= k
        else k ()) (fun _ _ => True) c := by
    split
    · next hopen =>
        refine meetsTo_bind ?_
        refine P.modifyCommTo .hookOver hhook rfl (fun _ => ⟨by simpa using hopen, rfl⟩) fun _ => ?_
        exact hrest _
    · exact hrest c
  cases completion with
  | none => exact meets_pure ()
  | inbound => exact P.commDeferInput (hk _ (by simp [Completion.kinds]))
  | disconnect =>
    refine P.guard (meets_pure ()) fun c _ => ?_
    exact meetsTo_setComm .disconnected (hk _ (by simp [Completion.kinds])) rfl rfl True.intro
  | transportReady =>
    refine P.guard (meets_pure ()) fun c _ => hover (hk _ (by simp [Completion.kinds])) ?_
    exact P.deferInbound (hk _ (by simp [Completion.kinds]))
  | connect =>
    refine P.guard (meets_pure ()) fun c _ => hover (hk _ (by simp [Completion.kinds])) ?_
    exact meets_bind (P.effect rfl) fun _ => P.deferInbound (hk _ (by simp [Completion.kinds]))

/-- An inline invocation does not meet the queue. -/
theorem finishInline (call : HookCall) (hk : ∀ kind ∈ completion.kinds, Grants setup R kind)
    (ok : Bool) (c : CommAbstract) :
    MeetsTo setup R (finishInline call completion ok) (fun result _ => result ≠ .queueFull) c := by
  have hresult (c' : CommAbstract) : MeetsTo setup R (pure (if ok then .ok else .error))
      (fun result _ => result ≠ DispatchResult.queueFull) c' := by
    cases ok <;> exact .done nofun
  refine meetsTo_bind (meetsTo_of_meets (P.runCompletion hk) fun _ c' => ?_)
  dsimp only
  split
  · exact hresult c'
  · exact meetsTo_perform (P.free rfl) fun _ => hresult

/-- A dispatched hook; one that runs inline does not meet the queue. -/
theorem dispatchTo (hcall : Dispatches R call c)
    (hcompletion : setup.relaxed = true → completion = call.hookType.completion)
    (hk : setup.relaxed = false → ∀ kind ∈ completion.kinds, Grants setup R kind) :
    MeetsTo setup R (mudmuxExecutionDispatch setup call completion)
      (fun result _ => setup.relaxed = false → result ≠ .queueFull) c := by
  rw [mudmuxExecutionDispatch]
  split
  · next hrelaxed =>
      rw [hcompletion hrelaxed]
      refine .effect rfl rfl hcall.enqueue fun _ _ _ _ => .done fun hstrict => ?_
      rw [hrelaxed] at hstrict
      cases hstrict
  · next hstrict =>
      have hend (ok : Bool) (c : CommAbstract) :=
        meetsTo_mono (P.finishInline call (hk (by simpa using hstrict)) ok c)
          (Q := fun result _ => setup.relaxed = false → result ≠ .queueFull) fun _ _ h _ => h
      refine meetsTo_bind ?_
      rw [invokeInline]
      split
      · exact .done (hend true c)
      · rw [Program.effect_bind]
        refine .effect rfl rfl hcall.beginHook fun _ _ _ _ => ?_
        rw [Program.effect_bind]
        refine meetsTo_perform hcall.runHook fun ok _ => ?_
        exact meetsTo_bind (meetsTo_of_meets P.commFlushAll fun _ c' => .done (hend ok c'))

/-- A hook that may be dispatched in any record. -/
theorem dispatch (hcall : ∀ c, Dispatches R call c)
    (hcompletion : setup.relaxed = true → completion = call.hookType.completion)
    (hk : setup.relaxed = false → ∀ kind ∈ completion.kinds, Grants setup R kind) :
    Meets setup R (mudmuxExecutionDispatch setup call completion) :=
  fun c => meetsTo_mono (P.dispatchTo (hcall c) hcompletion hk) fun _ _ _ => True.intro

/-! ### Flushing and closing -/

theorem commTlsHandshakeStep : Meets setup R commTlsHandshakeStep := by
  refine P.guard (meets_pure _) fun c _ => meets_ite (meets_pure _) ?_ c
  refine meets_bind (P.effect rfl) fun step => ?_
  split
  · refine meets_bind (P.modifyFlags .tls (P.flush _ rfl) rfl fun _ => rfl) fun _ => ?_
    exact meets_bind (P.effect rfl) fun _ => meets_pure _
  · exact meets_pure _

omit P in
/-- The queue is marked as drained. -/
theorem flushedTo (hflushed : Grants setup R .flushed) {Q : α → CommAbstract → Prop}
    (hempty : c.outbound = [])
    (hk : MeetsTo setup R (k ()) Q (c.mapFlags fun flags => { flags with bufferedWrite := false })) :
    MeetsTo setup R (setComm (c.mapFlags fun flags => { flags with bufferedWrite := false }) >>= k)
      Q c := by
  refine .effect rfl rfl (hflushed c hempty) fun a b c' hexec => ?_
  cases a <;> cases hexec
  exact hk

theorem finishFlush : Meets setup R finishFlush := by
  refine P.deref fun c _ => ?_
  split
  · next hdrained =>
      simp only [Bool.and_eq_true, List.isEmpty_iff] at hdrained
      exact flushedTo (P.flush _ rfl) hdrained.2 (.done True.intro)
  · exact meets_pure () c

theorem afterDrain (c : CommAbstract) (pending : Bool) (c' : CommAbstract)
    (hc' : c'.outbound = c.outbound) :
    MeetsTo setup R (Comm.afterDrain c pending) (fun _ _ => True) c' := by
  unfold Comm.afterDrain
  split
  · exact meets_bind P.commStartTelnetNegotiation (fun _ => P.effect rfl) c'
  · split
    · next hempty =>
        simp only [Bool.and_eq_true, List.isEmpty_iff] at hempty
        rw [Program.effect_bind]
        refine .effect rfl rfl (P.releaseBarrier c' (hc'.trans hempty.1.1)) fun _ _ c'' _ => ?_
        refine meets_bind (P.effect rfl) (fun _ => ?_) c''
        exact P.guard (meets_pure ()) fun c _ => P.effect rfl c
    · exact meets_optional (P.effect rfl) (fun _ => P.finishFlush) c'

theorem flushQueue : Meets setup R flushQueue := by
  rw [flushQueue_eq]
  refine meets_bind (P.effect rfl) fun _ => P.deref fun c _ => ?_
  dsimp only
  split
  · next hpending =>
      simp only [Bool.and_eq_true, decide_eq_true_eq] at hpending
      refine meetsTo_bind (P.modifyCommTo .subprotocol (P.flush _ rfl) rfl (fun _ => ?_)
        fun _ => P.afterDrain c _ _ rfl)
      rw [StoreKind.Store, hpending.2]
      exact ⟨rfl, rfl, .ready, rfl, rfl, rfl⟩
  · exact P.afterDrain c _ c rfl

theorem commFlush : Meets setup R commFlush := by
  refine P.guard (meets_pure _) fun c _ => meets_ite (meets_pure _) ?_ c
  refine meets_ite (meets_bind P.commTlsHandshakeStep fun step => ?_) P.flushQueue
  split
  · exact P.flushQueue
  · exact meets_pure _

theorem commInvokeTransportReady (hready : Grants setup R .ready)
    (hrefused : Grants setup R .readyRefused)
    (hhook : ∀ c, DispatchGuard False .transportReady c → Dispatches R .transportReady c) :
    Meets setup R (commInvokeTransportReady setup) := by
  refine P.guard (meets_pure _) fun c hlive => ?_
  dsimp only
  split
  · exact meets_pure () c
  · next hopen =>
      simp only [Bool.or_eq_true, not_or, Bool.not_eq_true] at hopen
      split
      · exact meets_pure () c
      · split
        · exact meets_pure () c
        · refine meetsTo_store .ready hready rfl ⟨hopen.1, hopen.2, rfl⟩ ?_
          refine meetsTo_bind (meetsTo_mono (P.dispatchTo (hhook _ ⟨fun _ => hlive,
            fun _ => hopen.1, fun _ => ⟨nofun, nofun⟩⟩) (fun hrelaxed => if_pos hrelaxed)
            fun hstrict => ?_) fun _ c' _ => ?_)
          · simp [hstrict, Completion.kinds]
          · exact meets_when (P.modifyFlags .readyRefused hrefused rfl fun _ => rfl) c'

/-- Freeing the queue and clearing its flag, which `comm_close_impl` does before a removal. -/
theorem discardOutbound (hdiscard : DiscardGuard setup c)
    (hk : ∀ c', c'.flags.bufferedWrite = false → MeetsTo setup R (k ()) (fun _ _ => True) c') :
    MeetsTo setup R
      (Program.effect .freeOutbound >>= fun _ =>
        Comm.modifyFlags (fun flags => { flags with bufferedWrite := false }) >>= k)
      (fun _ _ => True) c := by
  rw [Program.effect_bind]
  refine .effect rfl rfl (P.freeOutbound c hdiscard) fun a b c' hexec => ?_
  cases a <;> cases hexec
  refine meetsTo_bind (meetsTo_bind (P.commDeref fun hlive => ?_))
  have hc : c.live = true := by
    rwa [(QueueStep.ifLive commFreeOutboundBuffers_queueStep c).live] at hlive
  refine flushedTo (k := .done) (P.flush _ rfl) ?_ (.done (hk _ rfl))
  simp [ifLive, hc, commFreeOutboundBuffers]

/-- The end of `comm_close_impl`, behind the check for buffered output. -/
def closeEnd : WebSocketState → Code Bool
  | .ready | .telnetPending => do
    Program.effect (.queueClose (closePayload 1000))
    pure false
  | .closeSent => pure false
  | .handshake | .closeReceived => do
    Program.effect .remove
    pure true

theorem finishClose (hremove : ∀ c, c.flags.bufferedWrite = false ∨ setup.console = true →
      R.spec _ c .remove) : Meets setup R (finishClose setup) := by
  have hend (state : WebSocketState) (c : CommAbstract) (hc : c.flags.bufferedWrite = false) :
      MeetsTo setup R (closeEnd state) (fun _ _ => True) c := by
    cases state with
    | closeSent => exact meets_pure _ c
    | ready | telnetPending => exact meets_bind (P.effect rfl) (fun _ => meets_pure _) c
    | handshake | closeReceived =>
      exact .effect rfl rfl (hremove c (.inl hc)) fun _ _ _ _ => .done True.intro
  refine P.deref fun c _ => ?_
  split
  · exact meets_pure _ c
  · split
    · next hconsole =>
        refine P.discardOutbound (.inl hconsole) fun c' _ => ?_
        split
        · exact .effect rfl rfl (hremove c' (.inr hconsole)) fun _ _ _ _ => .done True.intro
        · exact meets_pure _ c'
    · split
      · exact meets_pure _ c
      · next hkeep =>
          dsimp only
          by_cases hbuffered : c.flags.bufferedWrite = true
          · rw [if_pos hbuffered]
            have htls : c.ssl = true ∧ c.flags.tlsEstablished = false := by
              simpa [hbuffered] using hkeep
            exact P.discardOutbound (.inr (.inr htls)) fun c' hc' =>
              hend c.flags.websocketState c' hc'
          · rw [if_neg hbuffered]
            exact hend c.flags.websocketState c (by simpa using hbuffered)

theorem commClose (K : PermitsClose setup R) : Meets setup R (commClose setup) := by
  refine P.guard (meets_pure _) fun c _ => ?_
  dsimp only
  have hflags {f : Flags → Flags} (hf : ∀ c : CommAbstract,
      StoreKind.close.Store setup c (c.mapFlags f)) : Meets setup R (Comm.modifyFlags f) :=
    P.modifyFlags .close K.close rfl hf
  split
  · refine meetsTo_store .close K.close rfl ⟨_, _, _, _, rfl⟩ ?_
    refine meets_bind (P.effect rfl) (fun _ => ?_) _
    refine meets_bind (hflags fun _ => ⟨_, _, _, _, rfl⟩) fun _ => ?_
    refine meets_bind (P.dispatch K.hook (fun _ => rfl) ?_) fun _ => ?_
    · simpa [Completion.kinds] using K.disconnected
    · refine meets_ite (meets_bind (hflags fun _ => ⟨_, _, _, _, rfl⟩) fun _ => meets_pure _) ?_
      refine meets_optional (hflags fun _ => ⟨_, _, _, _, rfl⟩) fun _ => ?_
      refine meets_bind (hflags fun _ => ⟨_, _, _, _, rfl⟩) fun _ => ?_
      exact meets_ite (meets_pure _) (P.finishClose K.remove)
  · exact P.finishClose K.remove c

/-- The recursive functions. -/
theorem of_unfold (hready : Grants setup R .ready ∧ Grants setup R .readyRefused)
    (hhook : ∀ c, DispatchGuard False .transportReady c → Dispatches R .transportReady c)
    (K : PermitsClose setup R) {β : Type} {e : SlotEffect β} {p : Code β}
    (h : unfold setup e = some p) : Meets setup R p := by
  cases e with
  | callFlush =>
    cases h
    exact P.commFlush
  | callClose =>
    cases h
    exact P.commClose K
  | callTransportReady =>
    cases h
    exact P.commInvokeTransportReady hready.1 hready.2 hhook
  | _ => cases h

end PermitsFlush

namespace Permits

variable (P : Permits setup R)

include P

/-! ### Telnet options and input mode -/

theorem commTelnetSendSubnegotiation_live (option : Byte) (data : Bytes) :
    MeetsLive setup R (commTelnetSendSubnegotiation option data) := by
  have hwrite (normalize : Bool) (buf : Bytes) :
      MeetsLive setup R (Program.effect (.write normalize buf)) := by
    refine fun c => .effect rfl rfl (P.free rfl c) fun a b c' hexec => .done ?_
    cases a <;> cases hexec
    rw [(QueueStep.ifLive (commBufferedWriteImpl_queueStep normalize buf) c).live]
    exact id
  intro c
  refine meetsTo_bind (P.commGuard ?_)
  split
  · exact .done id
  · exact MeetsLive.ite (.pure ()) (.bind (hwrite _ _) fun _ => .bind (hwrite _ _) fun _ =>
      hwrite _ _) c

theorem commTelnetSendSubnegotiation (option : Byte) (data : Bytes) :
    Meets setup R (commTelnetSendSubnegotiation option data) :=
  (P.commTelnetSendSubnegotiation_live option data).meets

/-- Noting what a client offers runs no hook. -/
theorem commProcessTelnetOptions_live (neg : TelnetNegotiation) :
    MeetsLive setup R (commProcessTelnetOptions neg) := by
  have hcaps (f : ClientCapabilities → ClientCapabilities) : MeetsLive setup R (modifyCaps f) :=
    fun c => P.modifyCommTo .quiet (P.idle _ rfl) rfl (fun _ => ⟨rfl, rfl, rfl⟩) fun _ => id
  have hecho (b b' : Bool) (f f' : ClientCapabilities → ClientCapabilities) :
      MeetsLive setup R (if b then modifyCaps f else if b' then modifyCaps f' else pure ()) :=
    .ite (hcaps f) (.ite (hcaps f') (.pure ()))
  intro c
  refine meetsTo_bind (P.commGuard ?_)
  split
  · exact .done id
  · refine MeetsLive.ite (.bind (hcaps _) fun _ => ?_) ?_ c
    · exact .ite (.bind (P.commTelnetSendSubnegotiation_live _ _) fun _ => hecho _ _ _ _)
        (hecho _ _ _ _)
    · exact .ite (.bind (hcaps _) fun _ => hecho _ _ _ _) (hecho _ _ _ _)

theorem commEnableTelnetForSlot : Meets setup R commEnableTelnetForSlot := by
  refine P.guard (meets_pure ()) fun c _ => ?_
  dsimp only
  split
  · exact meets_pure () c
  · split
    · exact meets_pure () c
    · exact meetsTo_store .telnet (P.idle _ rfl) rfl rfl (meets_when P.startTelnetNegotiation _)

theorem negotiateTelnetLineInput (comm : CommAbstract) (enable : Bool) :
    Meets setup R (negotiateTelnetLineInput comm enable) :=
  meets_ite (meets_when (P.commTelnetSendSubnegotiation _ _))
    (meets_optional (P.commTelnetSendSubnegotiation _ _) fun _ =>
      meets_when (P.commTelnetSend _ _))

theorem commSetEcho (echo : Bool) : Meets setup R (commSetEcho setup echo) := by
  refine P.guard (meets_pure _) fun c _ => meets_ite (meets_pure _) ?_ c
  have hstore : Meets setup R (do
      Comm.modifyFlags fun flags => { flags with clientEcho := echo }
      pure true) :=
    meets_bind (P.modifyFlags .quiet (P.idle _ rfl) rfl fun _ => ⟨rfl, rfl, rfl⟩) fun _ =>
      meets_pure _
  refine meets_ite ?_ hstore
  refine meets_ite (meets_bind (P.commTelnetSend _ _) fun _ => hstore) ?_
  exact meets_optional (P.commTelnetSend _ _) fun _ => hstore

theorem commSetLineInput (echo : Bool) : Meets setup R (commSetLineInput setup echo) := by
  refine P.guard (meets_pure _) fun c _ => ?_
  refine meets_ite (P.commSetEcho echo) (meets_ite (meets_pure _) ?_) c
  refine meets_optional (P.negotiateTelnetLineInput _ _) fun _ => ?_
  exact meets_bind (P.modifyFlags .lineInput (P.idle _ rfl) rfl fun _ => rfl) fun _ =>
    P.commSetEcho echo

theorem commSetCharInput (hchar : Grants setup R .charInput) :
    Meets setup R (commSetCharInput setup) := by
  refine P.guard (meets_pure _) fun c _ => ?_
  refine meets_ite (P.commSetEcho _) (meets_ite (meets_pure _) (meets_ite ?_ ?_)) c
  · refine meets_bind (P.negotiateTelnetLineInput _ _) fun _ => meets_bind ?_ fun _ =>
      meets_pure _
    exact P.modifyFlags .charInput hchar rfl fun _ => ⟨false, rfl⟩
  · refine meets_bind ?_ fun _ => P.commSetEcho _
    exact P.modifyFlags .charInput hchar rfl fun c => ⟨c.flags.clientEcho, rfl⟩

/-! ### Behind a hook -/

/-- What is done about a full queue, which only relaxed mode has. -/
theorem ifFull {result : DispatchResult} (hd : setup.relaxed = true → Grants setup R .defer)
    (hresult : setup.relaxed = false → result ≠ .queueFull) (hk : Meets setup R (k ())) :
    Meets setup R (if result = .queueFull then Comm.deferInbound >>= k else k ()) := by
  split
  · next hfull =>
      have hrelaxed : setup.relaxed = true := by
        by_contra hstrict
        exact hresult (by simpa using hstrict) hfull
      exact meets_bind (P.deferInbound (hd hrelaxed)) fun _ => hk
  · exact hk

/-! ### WebSocket upgrade and frames -/

theorem sendWebsocketRejection (status : Nat) (hwebsocket : c.flags.enableWebsocket = true)
    (hstate : c.flags.websocketState = .handshake) :
    MeetsTo setup R (sendWebsocketRejection status) (fun _ _ => True) c := by
  rw [Comm.sendWebsocketRejection, Program.effect_bind]
  refine .effect rfl rfl (P.freeOutbound c (.inr (.inl hwebsocket))) fun a b c' hexec => ?_
  have hflags : c'.flags = c.flags := by
    cases a <;> cases hexec
    unfold ifLive
    split <;> rfl
  refine meetsTo_bind (P.modifyCommTo .reject (P.idle _ rfl) rfl (fun _ => ?_) fun _ => ?_)
  · exact ⟨by rw [hflags, hwebsocket], by rw [hflags, hstate], rfl⟩
  · rw [Program.effect_bind]
    refine .effect rfl rfl (P.writeRaw _ _ ?_) fun _ _ _ _ =>
      meets_bind (P.effect rfl) (fun _ => meets_pure _) _
    show c'.flags.websocketState.closed = false
    rw [hflags, hstate]
    rfl

theorem acceptUpgrade (upgrade : UpgradeResponse) (headerLen : Nat)
    (hwebsocket : c.flags.enableWebsocket = true) (hstate : c.flags.websocketState = .handshake) :
    MeetsTo setup R (acceptUpgrade upgrade headerLen) (fun _ _ => True) c := by
  rw [Comm.acceptUpgrade, Program.effect_bind]
  refine .effect rfl rfl (P.writeRaw _ _ (by rw [hstate]; rfl)) fun a b c' hexec => ?_
  have hflags : c'.flags.enableWebsocket = c.flags.enableWebsocket ∧
      c'.flags.websocketState = c.flags.websocketState := by
    cases a <;> cases hexec
    unfold ifLive
    split
    · obtain ⟨_, _, h⟩ := commBufferedWriteRaw_eq c upgrade.response
      dsimp only
      rw [h]
      exact ⟨rfl, rfl⟩
    · exact ⟨rfl, rfl⟩
  refine meetsTo_bind (P.modifyCommTo .upgrade (P.idle _ rfl) rfl (fun _ => ?_) fun _ => ?_)
  · exact ⟨by rw [hflags.1, hwebsocket], by rw [hflags.2, hstate], rfl⟩
  · split
    · refine meetsTo_bind ?_
      refine P.modifyCommTo .subprotocol (P.idle _ rfl) rfl (fun _ => ?_) fun _ => ?_
      · exact ⟨rfl, rfl, .telnetPending, rfl, rfl, rfl⟩
      · exact P.commEnableTelnetForSlot _
    · exact meets_pure () _

theorem commTryUpgradeWebsocket : Meets setup R (commTryUpgradeWebsocket setup) := by
  refine P.guard (meets_pure ()) fun c _ => ?_
  dsimp only
  split
  · exact meets_pure () c
  · next hpending =>
      have hwebsocket : c.flags.enableWebsocket = true := by
        cases hw : c.flags.enableWebsocket <;> simp_all
      have hstate : c.flags.websocketState = .handshake := by
        cases hs : c.flags.websocketState <;> simp_all [WebSocketState.isReady]
      split
      · exact meets_pure () c
      · split
        · split
          · exact P.sendWebsocketRejection _ hwebsocket hstate
          · exact meets_pure () c
        · split
          · exact P.sendWebsocketRejection _ hwebsocket hstate
          · exact P.acceptUpgrade _ _ hwebsocket hstate

/-- A change of the decoder that leaves the wire bytes alone. -/
theorem modifyDecoded {f : WebSocketDecoder → WebSocketDecoder}
    (hf : ∀ w, (f w).fragment = w.fragment ∧ (f w).pendingWire = w.pendingWire) :
    Meets setup R (modifyWebsocket f) := by
  refine P.modifyComm .decoded (P.idle _ rfl) rfl fun c => ⟨rfl, rfl, ?_⟩
  cases hw : c.websocket with
  | none => exact ⟨rfl, rfl⟩
  | some w => exact hf w

theorem modifyWebsocket (hinput : Grants setup R .input) (f : WebSocketDecoder → WebSocketDecoder) :
    Meets setup R (modifyWebsocket f) :=
  P.modifyComm .input hinput rfl fun _ => rfl

omit P in
theorem sendPongs (hpong : ∀ c payload, R.spec _ c (.pong payload)) (payloads : List Bytes) :
    Meets setup R (sendPongs payloads) := by
  induction payloads with
  | nil => exact meets_pure ()
  | cons payload rest ih => exact meets_bind (meets_effect fun c => hpong c payload) fun _ => ih

omit P in
/-- A WebSocket with a Close frame in its queue has been upgraded. -/
theorem isReady_of_queueClose (payload : Bytes)
    (hlive : (ifLive c fun comm => commWebsocketQueueClose comm payload).live = true) :
    (ifLive c fun comm =>
      commWebsocketQueueClose comm payload).flags.websocketState.isReady = true := by
  have hc : c.live = true := by
    rwa [(QueueStep.ifLive (commWebsocketQueueClose_queueStep payload) c).live] at hlive
  simp only [ifLive, hc, if_true]
  cases hclosed : c.flags.websocketState.closed with
  | true =>
    rw [commWebsocketQueueClose_of_closed payload hclosed]
    cases hs : c.flags.websocketState <;>
      simp_all [WebSocketState.closed, WebSocketState.isReady]
  | false =>
    rw [commWebsocketQueueClose_of_open payload hclosed]
    rfl

theorem commWebsocketProcessInbound (hinput : Grants setup R .input)
    (hpong : ∀ c payload, R.spec _ c (.pong payload)) (wire : Bytes) (maxMessages : Nat) :
    Meets setup R (commWebsocketProcessInbound wire maxMessages) := by
  refine P.deref fun c _ => ?_
  dsimp only
  refine meetsTo_store .input hinput rfl rfl ?_
  refine meets_bind (sendPongs hpong _) (fun _ => ?_) _
  split
  · next payload _ =>
      intro c
      rw [Program.effect_bind]
      refine .effect rfl rfl (P.free rfl c) fun a b c' hexec => ?_
      cases a <;> cases hexec
      refine meetsTo_bind (P.modifyCommTo .closeFrame (P.idle _ rfl) rfl
        (fun hlive => ⟨isReady_of_queueClose payload hlive, rfl⟩) fun _ => ?_)
      exact meets_pure _ _
  · exact meets_pure _

/-! ### End of file -/

theorem closeAfterEof : Meets setup R closeAfterEof := by
  refine meets_bind (P.effect rfl) fun _ => meets_ite (meets_pure _) (P.deref fun c _ => ?_)
  split
  · next hready =>
      simp only [Bool.and_eq_true] at hready
      refine meetsTo_store .closeFrame (P.idle _ rfl) rfl ⟨hready.2, rfl⟩ ?_
      exact meets_bind (P.effect rfl) (fun _ => meets_pure _) _
  · exact meets_pure _ c

theorem processConsoleEof (hremove : ∀ c, R.spec _ c .remove) (allowReconnect : Bool) :
    Meets setup R (processConsoleEof allowReconnect) := by
  refine P.guard (meets_pure _) fun c _ => ?_
  refine meets_bind (P.effect rfl) (fun _ => meets_ite (meets_pure _) ?_) c
  have hend : Meets setup R (do
      let comm ← Comm.commDeref
      let busy ← Program.effect .slotBusy
      if comm.flags.awaitingHook || comm.flags.disconnectPending || busy then pure ()
      else Program.effect .remove) := by
    refine P.deref fun c _ => meets_bind (P.effect rfl) (fun _ => ?_) c
    exact meets_ite (meets_pure _) (meets_effect hremove)
  exact meets_ite (meets_bind (P.effect rfl) fun _ => hend) hend

/-! ### Public calls -/

theorem onLiveSlot {f : CommAbstract → CommAbstract} (kind : StoreKind)
    (hkind : Grants setup R kind) (hplain : kind.plain = true)
    (hf : ∀ c, kind.Store setup c (f c)) : Meets setup R (onLiveSlot f) :=
  P.guard (meets_pure _) fun c _ => meetsTo_setComm kind hkind hplain (hf c) True.intro

theorem commBufferedWrite (caller : Caller) (buf : Bytes) :
    Meets setup R (commBufferedWrite setup caller buf) := by
  refine meets_ite (meets_pure _)
    (meets_ite (meets_pure _) (P.guard (meets_pure _) fun c _ => ?_))
  exact meets_optional (P.modifyFlags .quiet (P.idle _ rfl) rfl fun _ => ⟨rfl, rfl, rfl⟩)
    (fun _ => P.effect rfl) c

omit P in
theorem commEnableWebsocketForSlot_store (c : CommAbstract) (preferredProtocols : Bytes) :
    StoreKind.enableWebsocket.Store setup c (commEnableWebsocketForSlot c preferredProtocols) := by
  unfold commEnableWebsocketForSlot
  split
  · exact .inl rfl
  · exact .inr ⟨_, rfl⟩

omit P in
theorem commEnableTlsForSlot_store (c : CommAbstract) :
    StoreKind.enableTls.Store setup c (commEnableTlsForSlot c) := by
  unfold commEnableTlsForSlot
  split
  · exact .inl rfl
  · next hssl =>
      refine .inr ⟨?_, rfl⟩
      simp only [Bool.or_eq_true, not_or, Bool.not_eq_true] at hssl
      exact hssl.2

end Permits

/-- The kinds of stores that only some public calls make. -/
def ApiCall.kinds : ApiCall → List StoreKind
  | .setCharInput => [.charInput]
  | .enablePrompt _ => [.prompt]
  | .workersAwait => [.defer]
  | _ => []

namespace PermitsHooks

variable (P : PermitsHooks setup R)

include P

/-! ### Dispatching -/

/-- Input may be dispatched on any slot in use. -/
theorem inputHook (hlive : c.live = true)
    (hcall : call.hookType = .messageInbound ∨ call.hookType = .telnetSubneg) :
    Dispatches R call c := by
  refine P.hook call c ⟨fun _ => hlive, ?_, fun _ => ⟨?_, ?_⟩⟩ <;>
    rcases hcall with h | h <;> simp [h]

/-- The hooks that neither end the slot nor need it to be open may be dispatched in any record. -/
theorem plainHook (hopen : call.hookType.ofOpenSlot = false)
    (hdisconnect : call.hookType ≠ .disconnect) (c : CommAbstract) : Dispatches R call c := by
  refine P.hook call c ⟨?_, ?_, fun _ => ⟨hdisconnect, ?_⟩⟩
  · exact fun h => by simp [hopen] at h
  · exact fun h => by simp [h, HookType.ofOpenSlot] at hopen
  · exact fun h => by simp [h, HookType.ofOpenSlot] at hopen

/-! ### Input -/

section

variable (hd : setup.relaxed = true → Grants setup R .defer)

include hd

theorem commInvokeInboundMessageTo (data : Bytes) (c : CommAbstract) :
    MeetsTo setup R (commInvokeInboundMessage setup data)
      (fun result _ => setup.relaxed = false → result ≠ .queueFull) c := by
  have hdispatch (c : CommAbstract) (hlive : c.live = true) : MeetsTo setup R
      (mudmuxExecutionDispatch setup (.messageInbound data)
        (if setup.relaxed then .inbound else .none))
      (fun result _ => setup.relaxed = false → result ≠ .queueFull) c :=
    P.dispatchTo (P.inputHook hlive (.inl rfl)) (fun hrelaxed => if_pos hrelaxed)
      fun hstrict => by simp [hstrict, Completion.kinds]
  refine meetsTo_bind (P.commGuard ?_)
  split
  · exact .done fun _ => nofun
  · refine meetsTo_bind ?_
    refine P.modifyCommTo .quiet (P.idle _ rfl) rfl (fun _ => ⟨rfl, rfl, rfl⟩) fun hlive => ?_
    dsimp only
    by_cases hrelaxed : setup.relaxed = true
    · rw [if_pos hrelaxed]
      exact meetsTo_bind (P.deferInboundTo (hd hrelaxed) fun hlive => hdispatch _ hlive)
    · rw [if_neg hrelaxed]
      exact hdispatch _ hlive

theorem commInvokeInboundMessage (data : Bytes) :
    Meets setup R (commInvokeInboundMessage setup data) :=
  fun c => meetsTo_mono (P.commInvokeInboundMessageTo hd data c) fun _ _ _ => True.intro

omit hd in
theorem invokeCharInputMessage (hd : Grants setup R .defer) (data : Bytes) :
    Meets setup R (invokeCharInputMessage setup data) := by
  refine P.guard (meets_pure _) fun c _ => meets_bind ?_ (fun _ => ?_) c
  · exact P.modifyFlags .quiet (P.idle _ rfl) rfl fun _ => ⟨rfl, rfl, rfl⟩
  · exact meets_bind (P.commInvokeInboundMessage (fun _ => hd) data) fun _ =>
      meets_optional (P.commDeferInput hd) fun _ => meets_pure _

theorem commDispatchTelnetSubnegotiationTo (neg : TelnetNegotiation)
    (hcall : ∀ call : HookCall, call.hookType = .telnetSubneg → Dispatches R call c) :
    MeetsTo setup R (commDispatchTelnetSubnegotiation setup neg)
      (fun result _ => setup.relaxed = false → result ≠ .queueFull) c := by
  unfold commDispatchTelnetSubnegotiation
  split
  · exact .done fun _ => nofun
  · split
    · exact .done fun _ => nofun
    · refine meetsTo_bind ?_
      refine meetsTo_mono (P.dispatchTo (hcall _ rfl) (fun _ => rfl) fun _ _ h => absurd h List.not_mem_nil) fun result c' hresult => ?_
      dsimp only
      split
      · next hfull =>
          have hrelaxed : setup.relaxed = true := by
            by_contra hstrict
            exact hresult (by simpa using hstrict) hfull
          refine meetsTo_bind (meetsTo_of_meets (P.deferInbound (hd hrelaxed)) fun _ _ =>
            .done fun hstrict => ?_)
          rw [hrelaxed] at hstrict
          cases hstrict
      · exact .done hresult

/-- What the two users of the Telnet parser do with a call's commands: the options are noted, which
runs no hook, and the block collected is dispatched. -/
theorem telnetCommands {b : Prop} [Decidable b] (neg : TelnetNegotiation)
    {k : DispatchResult → Code α} {Q : α → CommAbstract → Prop}
    (hk : ∀ result, (setup.relaxed = false → result ≠ .queueFull) → ∀ c,
      MeetsTo setup R (k result) Q c) (hlive : c.live = true) :
    MeetsTo setup R
      (if b then commProcessTelnetOptions neg >>= fun _ =>
        commDispatchTelnetSubnegotiation setup neg >>= k
      else commDispatchTelnetSubnegotiation setup neg >>= k) Q c := by
  have hdispatch (c : CommAbstract) (hlive : c.live = true) :
      MeetsTo setup R (commDispatchTelnetSubnegotiation setup neg >>= k) Q c :=
    meetsTo_bind (meetsTo_mono (P.commDispatchTelnetSubnegotiationTo hd neg fun _ h =>
      P.inputHook hlive (.inr h)) fun result c' hresult => hk result hresult c')
  split
  · exact meetsTo_bind (meetsTo_mono (P.commProcessTelnetOptions_live neg c) fun _ c' hkept =>
      hdispatch c' (hkept hlive))
  · exact hdispatch c hlive

theorem decodeWebsocketTelnetPayloadTo (fuel : Nat) (payload : Bytes) (c : CommAbstract) :
    MeetsTo setup R (decodeWebsocketTelnetPayload setup fuel payload)
      (fun result _ => setup.relaxed = false → result ≠ .queueFull) c := by
  induction fuel generalizing payload c with
  | zero => exact .done fun _ => nofun
  | succ fuel ih =>
    rw [decodeWebsocketTelnetPayload]
    split
    · exact .done fun _ => nofun
    · refine meetsTo_bind (P.commDeref fun hlive => ?_)
      dsimp only
      split
      · exact .done fun _ => nofun
      · refine meetsTo_store .quiet (P.idle _ rfl) rfl ⟨rfl, rfl, rfl⟩ ?_
        refine P.telnetCommands hd _ (fun result hresult c => ?_) hlive
        split
        · exact .done hresult
        · exact meetsTo_bind (meetsTo_of_meets (P.modifyDecoded fun _ => ⟨rfl, rfl⟩) fun _ c => ih _ c)

end

/-! ### Connecting and closing -/

theorem commInvokeConnect (hconnecting : Grants setup R .connecting)
    (hrefused : Grants setup R .connectRefused) : Meets setup R (commInvokeConnect setup) := by
  have hend : Meets setup R (do
      let result ← mudmuxExecutionDispatch setup .connect
        (if setup.relaxed then .connect else .none)
      if setup.relaxed then
        if !result.accepted then do
          match ← Comm.commGuard with
          | none => pure ()
          | some comm => setComm (comm.mapFlags fun flags => { flags with awaitingHook := false })
        else pure ()
      else Program.effect .callTransportReady) := by
    refine meets_bind (P.dispatch (P.plainHook rfl nofun) (fun hrelaxed => if_pos hrelaxed)
      fun hstrict => ?_) fun _ => ?_
    · simp [hstrict, Completion.kinds]
    · by_cases hrelaxed : setup.relaxed = true
      · rw [if_pos hrelaxed]
        refine meets_when (P.guard (meets_pure ()) fun c _ => ?_)
        exact meetsTo_setComm .connectRefused hrefused rfl ⟨hrelaxed, rfl⟩ True.intro
      · rw [if_neg hrelaxed]
        exact P.effect rfl
  unfold Comm.commInvokeConnect
  by_cases hrelaxed : setup.relaxed = true
  · rw [if_pos hrelaxed]
    refine P.guard hend fun c _ => ?_
    exact meetsTo_store .connecting hconnecting rfl ⟨hrelaxed, rfl⟩ (hend _)
  · rw [if_neg hrelaxed]
    exact hend

theorem commInvokePrompt (hprompt : ∀ c, c.live = true → Dispatches R .prompt c) :
    Meets setup R (commInvokePrompt setup) := by
  refine P.guard (meets_pure _) fun c hlive => ?_
  dsimp only
  split
  · exact meets_pure () c
  · split
    · exact meets_pure () c
    · rw [Program.effect_bind]
      refine P.ask rfl rfl rfl rfl fun busy => ?_
      split
      · exact meets_pure () c
      · refine meetsTo_bind (meetsTo_mono (P.dispatchTo (hprompt c hlive) (fun _ => rfl) fun _ => ?_)
          fun _ c' _ => ?_)
        · simp [Completion.kinds]
        · exact meets_when (P.modifyFlags .quiet (P.idle _ rfl) rfl fun _ => ⟨rfl, rfl, rfl⟩) c'

/-- The recursive functions. -/
theorem of_unfold (hready : Grants setup R .ready ∧ Grants setup R .readyRefused)
    (K : PermitsClose setup R) {β : Type} {e : SlotEffect β} {p : Code β}
    (h : unfold setup e = some p) : Meets setup R p :=
  P.toPermitsFlush.of_unfold hready (P.hook _) K h

theorem commAddMessage (caller : Caller) (buf : Bytes) :
    Meets setup R (commAddMessage setup caller buf) := by
  refine meets_ite (meets_pure _) (meets_ite (P.commBufferedWrite caller buf) ?_)
  refine meets_bind (P.dispatch (P.plainHook rfl nofun) (fun _ => rfl) fun _ => ?_) fun _ =>
    meets_pure _
  simp [Completion.kinds]

end PermitsHooks

/-- The public calls; only `comm_add_message` runs a hook. -/
theorem Permits.apiCode (P : Permits setup R) (caller : Caller) {call : ApiCall}
    (hk : ∀ kind ∈ call.kinds, Grants setup R kind)
    (hadd : ∀ buf, call = .addMessage buf → Meets setup R (commAddMessage setup caller buf)) :
    Meets setup R (apiCode setup caller call) := by
  cases call with
  | enablePrompt enable =>
    exact P.onLiveSlot .prompt (hk _ (by simp [ApiCall.kinds])) rfl fun _ => ⟨_, rfl⟩
  | enableVirtualTerminal =>
    exact P.onLiveSlot .quiet (P.idle _ rfl) rfl fun _ => ⟨rfl, rfl, rfl⟩
  | setLineInput echo => exact meets_bind (P.commSetLineInput echo) fun _ => meets_pure _
  | setCharInput =>
    exact meets_bind (P.commSetCharInput (hk _ (by simp [ApiCall.kinds]))) fun _ => meets_pure _
  | setEcho echo => exact meets_bind (P.commSetEcho echo) fun _ => meets_pure _
  | bufferedWrite buf => exact P.commBufferedWrite caller buf
  | addMessage buf => exact hadd buf rfl
  | close => exact meets_bind (P.effect rfl) fun _ => meets_pure _
  | enableTelnet => exact meets_when P.commEnableTelnetForSlot
  | enableWebsocket preferredProtocols =>
    exact meets_when (P.onLiveSlot .enableWebsocket (P.idle _ rfl) rfl fun c =>
      Permits.commEnableWebsocketForSlot_store c _)
  | enableTls =>
    exact meets_when (P.onLiveSlot .enableTls (P.idle _ rfl) rfl
      Permits.commEnableTlsForSlot_store)
  | workersAwait => exact P.commDeferInput (hk _ (by simp [ApiCall.kinds]))

theorem PermitsHooks.apiCode (P : PermitsHooks setup R) (caller : Caller) {call : ApiCall}
    (hk : ∀ kind ∈ call.kinds, Grants setup R kind) : Meets setup R (apiCode setup caller call) :=
  P.toPermits.apiCode caller hk fun buf _ => P.commAddMessage caller buf

namespace PermitsText

variable (P : PermitsText setup R)

include P

/-! ### Text -/

section

variable (hd : setup.relaxed = true → Grants setup R .defer)

include hd

theorem refillStep {again : Nat → Bytes → Bool → Code Bytes}
    (hagain : ∀ pos src paused, Meets setup R (again pos src paused)) (pos : Nat) (src : Bytes)
    (paused : Bool) : Meets setup R (refillStep setup again pos src paused) := by
  refine P.deref fun c hlive => ?_
  have hseek : OneChain c.inbound → OneChain (seekData pos c.inbound).2 := by
    rw [OneChain, OneChain, length_seekData]
    exact id
  have hset {chain : List InboundBuffer} (pos : Nat) (ibb : InboundBuffer) (h : OneChain chain) :
      OneChain (chain.set pos ibb) := by
    rwa [OneChain, List.length_set]
  dsimp only
  split
  · exact meetsTo_store .text P.text rfl ⟨rfl, rfl, hseek⟩ (meets_pure _ _)
  · split
    · exact meetsTo_store .text P.text rfl ⟨rfl, rfl, hseek⟩ (meets_pure _ _)
    · split
      · refine meetsTo_store .text P.text rfl ⟨rfl, rfl, hseek⟩ ?_
        refine P.telnetCommands hd _ (fun result hresult => ?_) hlive
        refine P.ifFull hd hresult (meets_bind ?_ fun _ => hagain _ _ _)
        exact P.modifyComm .text P.text rfl fun _ => ⟨rfl, rfl, hset _ _⟩
      · exact meetsTo_store .text P.text rfl ⟨rfl, rfl, fun h => hset _ _ (hseek h)⟩ (hagain _ _ _ _)

theorem refillLoop (fuel pos : Nat) (src : Bytes) (paused : Bool) :
    Meets setup R (refillLoop setup fuel pos src paused) := by
  induction fuel generalizing pos src paused with
  | zero => exact meets_pure _
  | succ fuel ih => exact meets_ite (meets_pure _) (P.refillStep hd ih pos src paused)

theorem refillInboundBuffersFromSrc (src : Bytes) :
    Meets setup R (refillInboundBuffersFromSrc setup src) := by
  refine P.guard (meets_pure _) fun c _ => ?_
  have hchain (h : OneChain c.inbound) :
      OneChain (if c.inbound.isEmpty then [.fresh] else c.inbound) := by
    split
    · exact Nat.le_refl 1
    · exact h
  refine meetsTo_store .text P.text rfl ⟨rfl, rfl, hchain⟩ ?_
  refine meets_bind (P.refillLoop hd _ _ _ _) (fun _ => ?_) _
  refine P.deref fun c _ => ?_
  exact meets_optional P.commTryUpgradeWebsocket (fun _ => meets_pure _) c

theorem lineLoop (fuel : Nat) (budget : Option Nat) :
    Meets setup R (lineLoop setup fuel budget) := by
  induction fuel generalizing budget with
  | zero => exact meets_pure ()
  | succ fuel ih =>
    refine meets_ite (meets_pure ()) (P.deref fun c _ => ?_)
    split
    · exact meets_pure () c
    · next hinbound =>
      split
      · exact meets_pure () c
      · split
        · split
          · exact meets_pure () c
          · split
            · exact meets_pure () c
            · next hnext =>
                refine meetsTo_store .text P.text rfl ⟨rfl, rfl, fun h => ?_⟩ (ih _ _)
                rw [h.refillFromNext] at hnext
                cases hnext
        · refine meetsTo_store .text P.text rfl ⟨rfl, rfl, fun h => ?_⟩ ?_
          · rw [hinbound] at h
            exact h.cons_tail _
          refine meets_optional (P.effect rfl) (fun _ c => ?_) _
          refine meetsTo_bind ?_
          refine meetsTo_mono (P.commInvokeInboundMessageTo hd _ c) fun result c' hresult => ?_
          split
          · next hfull =>
              refine P.deferInbound (hd ?_) c'
              by_contra hstrict
              exact hresult (by simpa using hstrict) hfull
          · refine P.guard (meets_pure ()) (fun c _ => ?_) c'
            dsimp only
            refine meetsTo_store .text P.text rfl ⟨rfl, rfl, fun h => h.cons_tail _⟩ ?_
            rw [Program.effect_bind]
            refine P.ask rfl rfl rfl rfl fun busy => ?_
            split
            · exact meets_pure () _
            · split
              · exact meetsTo_store .text P.text rfl ⟨rfl, rfl, fun h => h.recycle⟩ (ih _ _)
              · refine meetsTo_store .text P.text rfl ⟨rfl, rfl, fun h => ?_⟩ (ih _ _)
                rw [h.refillFromNext]
                exact h

omit hd in
theorem charInput (hd : Grants setup R .defer) (budget : Option Nat) :
    Meets setup R (charInput setup budget) := by
  refine meets_ite (meets_pure _) (P.deref fun c _ => ?_)
  split
  · exact meets_pure _ c
  · split
    · exact meets_pure _ c
    · refine meets_bind (P.commSetLineInput _) (fun _ => ?_) c
      refine meets_ite (meets_pure _) (P.deref fun c _ => ?_)
      have hend (result : DispatchResult) (ibb : InboundBuffer) (n : Nat) :
          Meets setup R (
            if result = .queueFull then do
              Comm.deferInbound
              pure false
            else do
              match ← Comm.commGuard with
              | none => pure false
              | some comm => do
                setComm
                  { comm with
                      inbound := { ibb with buf := ibb.buf.consume n } :: comm.inbound.tail }
                pure false) := by
        refine meets_ite (meets_bind (P.deferInbound hd) fun _ => meets_pure _) ?_
        refine P.guard (meets_pure _) fun c _ => ?_
        exact meetsTo_store .text P.text rfl ⟨rfl, rfl, fun h => h.cons_tail _⟩ (meets_pure _ _)
      refine meets_ite ?_ ?_ c
      · exact meets_bind (P.commInvokeInboundMessage (fun _ => hd) _) fun _ => hend _ _ _
      · exact meets_bind (P.invokeCharInputMessage hd _) fun _ => hend _ _ _

omit hd in
theorem processText (hd : Grants setup R .defer) (budget : Option Nat) :
    Meets setup R (processText setup budget) := by
  have hend (failed : Bool) : Meets setup R (
      if failed then pure .error
      else do
        match ← Comm.commGuard with
        | none => pure .closed
        | some comm => pure (if comm.flags.deferredInbound then .deferred else ProcessResult.ok)) :=
    meets_ite (meets_pure _) (P.guard (meets_pure _) fun c _ => meets_pure _ c)
  refine P.deref fun c _ => meets_ite ?_ ?_ c
  · exact meets_bind (P.lineLoop (fun _ => hd) _ _) fun _ => hend false
  · exact meets_bind (P.charInput hd _) fun failed => hend failed

omit hd in
theorem processInputWith (hresume : Grants setup R .resume) (hd : Grants setup R .defer)
    {ready : Code ProcessResult} (budget : Option Nat) (hready : Meets setup R ready) :
    Meets setup R (processInputWith setup ready budget) := by
  refine P.guard (meets_pure _) fun c _ => ?_
  refine meets_ite (meets_pure _) (meets_bind (P.effect rfl) fun _ => ?_) c
  refine meets_ite (meets_pure _) (meets_bind ?_ fun _ => ?_)
  · exact P.modifyComm .resume hresume rfl fun _ =>
      ⟨rfl, rfl, Nat.le_trans (length_skipNonDataHeadBuffers_le _)⟩
  · refine meets_ite (meets_bind P.commTryUpgradeWebsocket fun _ => ?_) ?_
    · exact P.guard (meets_pure _) fun c _ => meets_ite hready (meets_pure _) c
    · exact meets_ite hready (P.processText hd budget)

omit hd in
theorem commProcessDecodedInput (hresume : Grants setup R .resume) (hd : Grants setup R .defer)
    (budget : Option Nat) : Meets setup R (commProcessDecodedInput setup budget) :=
  P.processInputWith hresume hd budget (P.processText hd budget)

theorem refillTls (pieces : List Chunk) (opened : Bool) :
    Meets setup R (refillTls setup pieces opened) := by
  induction pieces with
  | nil => exact meets_pure _
  | cons piece pieces ih =>
    refine meets_ite (meets_pure _) (meets_bind (P.refillInboundBuffersFromSrc hd _) fun _ => ?_)
    exact meets_ite ih (meets_pure _)

theorem commRefillInboundBuffers : Meets setup R (commRefillInboundBuffers setup) := by
  refine P.guard (meets_pure _) fun c _ => meets_ite ?_ ?_ c
  · refine meets_bind P.commTlsHandshakeStep fun step => ?_
    split
    · exact meets_pure _
    · exact meets_pure _
    · refine P.deref fun c _ => ?_
      exact meets_bind (P.effect rfl) (fun read => P.refillTls hd _ _) c
  · refine meets_bind (P.effect rfl) fun answer => ?_
    split
    · exact meets_ite (meets_pure _) (P.refillInboundBuffersFromSrc hd _)
    · exact meets_pure _
    · exact meets_pure _

end

theorem refillQueued (hd : Grants setup R .defer) (chunks : List Chunk) :
    Meets setup R (refillQueued setup chunks) := by
  induction chunks with
  | nil => exact meets_pure _
  | cons chunk chunks ih =>
    exact meets_bind (P.refillInboundBuffersFromSrc (fun _ => hd) _) fun _ => meets_when ih

end PermitsText

namespace PermitsInput

variable (P : PermitsInput setup R)

include P

/-! ### Frames -/

theorem modifyWebsocket (f : WebSocketDecoder → WebSocketDecoder) :
    Meets setup R (modifyWebsocket f) :=
  P.toPermits.modifyWebsocket P.input f

theorem commWebsocketProcessInbound (wire : Bytes) (maxMessages : Nat) :
    Meets setup R (commWebsocketProcessInbound wire maxMessages) :=
  P.toPermits.commWebsocketProcessInbound P.input P.pong wire maxMessages

variable (hresume : Grants setup R .resume)

include hresume

variable (hd : Grants setup R .defer)

include hd

/-- The input path of an upgraded WebSocket. -/
theorem frameRules (budget : Option Nat) :
    FrameRules setup budget (fun p Q c => MeetsTo setup R p Q c) (fun _ => True) (fun _ _ => True)
      (fun _ _ => True) where
  done h := .done h
  bind h := meetsTo_bind h
  mono h himp := meetsTo_mono h himp
  deref _ hf := meetsTo_bind (P.commDeref fun _ => hf _ _ True.intro)
  store _ _ := by
    apply P.modifyDecoded
    exact fun _ => ⟨rfl, rfl⟩
  decode _ _ _ := meetsTo_mono (P.decodeWebsocketTelnetPayloadTo (fun _ => hd) _ _ _) fun _ _ _ => True.intro
  kept _ _ := True.intro
  defer _ := P.deferInbound hd _
  error _ := True.intro
  next _ hagain := by
    apply P.guard
    · exact meets_pure _
    · exact fun c _ => meets_bind (P.effect rfl)
        (fun _ => meets_ite (meets_pure _) fun c => hagain c True.intro) c
  ok _ := True.intro
  closed _ := True.intro
  more _ := True.intro
  frame _ _ := P.commWebsocketProcessInbound _ _ _
  drop _ _ := P.modifyWebsocket _ _
  queueClose _ _ := P.effect rfl _
  callClose _ := P.effect rfl _
  refill _ _ := P.refillInboundBuffersFromSrc (fun _ => hd) _ _
  text _ := P.commProcessDecodedInput hresume hd budget _
  back _ := by
    apply P.modifyComm .input P.input rfl
    exact fun _ => rfl
  receive _ := by
    apply P.modifyComm .input P.input rfl
    exact fun _ => rfl

theorem commProcessInput (budget : Option Nat) : Meets setup R (commProcessInput setup budget) :=
  P.processInputWith hresume hd budget fun _ =>
    (P.frameRules hresume hd budget).commProcessWebsocketInput True.intro

/-! ### The event loop -/

theorem readEvent (comm : CommAbstract) : Meets setup R (readEvent setup comm) := by
  have hend (busy : Bool) : Meets setup R (
      if busy then pure true
      else do
        let refilled ← Comm.commRefillInboundBuffers setup
        let result ← Comm.commProcessInput setup none
        match ← Comm.commGuard with
        | none => pure true
        | some _ =>
          if !refilled then do
            Comm.closeAfterEof
            pure true
          else if result = .error || result = .closed then do
            let _ ← Program.effect .callClose
            pure true
          else pure false) := by
    refine meets_ite (meets_pure _) (meets_bind (P.commRefillInboundBuffers fun _ => hd) fun _ =>
      meets_bind (P.commProcessInput hresume hd none) fun _ => P.guard (meets_pure _) fun c _ => ?_)
    refine meets_ite (meets_bind P.closeAfterEof fun _ => meets_pure _) ?_ c
    exact meets_ite (meets_bind (P.effect rfl) fun _ => meets_pure _) (meets_pure _)
  exact meets_ite (hend true) (meets_bind (P.effect rfl) hend)

theorem processEvent (event : IoEvent) : Meets setup R (processEvent setup event) := by
  have hend (finished : Bool) : Meets setup R (
      if finished then pure ()
      else do
        if event.write then Program.effect .callFlush else pure ()
        if event.close then Comm.closeAfterEof
        else do
          let comm ← Comm.commDeref
          if comm.flags.closing then do
            let _ ← Program.effect .callClose
            pure ()
          else pure ()) := by
    refine meets_ite (meets_pure _) (meets_optional (P.effect rfl) fun _ => ?_)
    refine meets_ite P.closeAfterEof (P.deref fun c _ => ?_)
    exact meets_when (meets_bind (P.effect rfl) fun _ => meets_pure _) c
  refine P.guard (meets_pure _) fun c _ => meets_ite (P.effect rfl) ?_ c
  exact meets_ite (meets_bind (P.readEvent hresume hd _) hend) (hend false)

theorem commResumeDeferredInput : Meets setup R (commResumeDeferredInput setup) := by
  refine P.guard (meets_pure _) fun c _ => meets_ite (meets_pure _) ?_ c
  refine meets_bind (P.effect rfl) fun _ => meets_ite (meets_pure _) (meets_bind ?_ fun _ => ?_)
  · exact P.modifyFlags .resume hresume rfl fun _ => ⟨rfl, rfl, id⟩
  · exact meets_bind (P.commProcessInput hresume hd none) fun _ =>
      meets_when (meets_bind (P.effect rfl) fun _ => meets_pure _)

theorem processQueuedInput (chunks : List Chunk) :
    Meets setup R (processQueuedInput setup chunks) :=
  meets_bind (P.refillQueued hd chunks) fun _ =>
    meets_bind (P.commProcessInput hresume hd none) fun _ => meets_pure _

end PermitsInput

/-! ### Whole entries -/

/-- The entries that begin a connection. -/
def Entry.connects : Entry → Bool
  | .accept _ | .addBio _ _ _ _ => true
  | _ => false

/-- The kinds of stores an entry makes besides the ordinary ones. -/
def Entry.kinds : Entry → List StoreKind
  | .api _ call => call.kinds
  | .event _ | .resumeInput | .queuedInput _ => [.defer]
  | .completeTask task => task.completion.kinds
  | .consoleEof _ | .startTask _ => [.close]
  | _ => []

/-- What is permitted to an entry besides its stores: the prompt pass dispatches its hook, the end of the
console's input removes the slot, and a worker begins the hook it was given. -/
def PermitsEntry (R : Requirement) : Entry → Prop
  | .prompt => ∀ c, c.live = true → Dispatches R .prompt c
  | .consoleEof _ => ∀ c, R.spec _ c .remove
  | .startTask task => ∀ c, R.spec _ c (.beginHook task.call)
  | _ => True

/-- The code of every entry on a connection that is there. -/
theorem PermitsInput.entryCode (P : PermitsInput setup R) (hresume : Grants setup R .resume) {x : Entry}
    (hx : x.connects = false) (hentry : PermitsEntry R x)
    (hk : ∀ kind ∈ x.kinds, kind ≠ .close → Grants setup R kind) :
    Meets setup R (entryCode setup x) := by
  have hd (hmem : StoreKind.defer ∈ x.kinds) : Grants setup R .defer := hk _ hmem nofun
  cases x with
  | api caller call =>
    refine P.apiCode caller fun kind hkind => hk kind hkind ?_
    rintro rfl
    cases call <;> simp [ApiCall.kinds] at hkind
  | event event => exact P.processEvent hresume (hd (by simp [Entry.kinds])) event
  | resumeInput => exact P.commResumeDeferredInput hresume (hd (by simp [Entry.kinds]))
  | flush => exact P.effect rfl
  | progressClose =>
    refine P.guard (meets_pure _) fun c _ => ?_
    exact meets_when (meets_bind (P.effect rfl) fun _ => meets_pure _) c
  | prompt => exact P.commInvokePrompt hentry
  | queuedInput chunks => exact P.processQueuedInput hresume (hd (by simp [Entry.kinds])) chunks
  | consoleEof allowReconnect => exact P.processConsoleEof hentry allowReconnect
  | accept flags => cases hx
  | addBio rbio wbio wbioFd flags => cases hx
  | startTask task => exact meets_effect hentry
  | completeTask task =>
    refine P.runCompletion fun kind hkind => hk kind hkind ?_
    rintro rfl
    cases hc : task.completion <;> simp [Completion.kinds, hc] at hkind

end Mudmux.Comm
