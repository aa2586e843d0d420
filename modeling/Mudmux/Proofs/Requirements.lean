import Mudmux.Proofs.SlotSteps

/-!
# `Mudmux.Proofs.Requirements`: what is required of the code of a slot

Each store of a slot's code is one of a few kinds, and each kind changes what it is named after and nothing
else (`StoreKind`). A `Requirement` says what has to hold in the record before each effect of the code, and
of two effects that follow each other directly; `Meets` says of a piece of code that its effects meet it.
`Permits` lists what a requirement has to grant so that all the code meets it, and its extensions the more
that the code with hooks, with text and with frames asks for. `Mudmux.Proofs.CodeWalk` is the one pass over
the code; the safety proofs are instances of it, each with its own requirement.

`core` is the record without what a slot changes all the time and no other function waits for: the
unread input, the capabilities, the echo, the Telnet state and whether a prompt is shown.
-/

set_option autoImplicit false

namespace Mudmux.Comm

open Mudmux.Lib
open CallbackSystem

/-! ### Chains of one buffer -/

/-- At most one inbound buffer. -/
def OneChain (chain : List InboundBuffer) : Prop := chain.length ≤ 1

theorem length_seekData (pos : Nat) (chain : List InboundBuffer) :
    (seekData pos chain).2.length = chain.length := by
  induction chain generalizing pos with
  | nil => cases pos <;> rfl
  | cons ibb rest ih =>
    cases pos with
    | zero =>
      simp only [seekData]
      split
      · rfl
      · simp [ih]
    | succ pos => simp [seekData, ih]

theorem length_skipNonDataHeadBuffers_le (chain : List InboundBuffer) :
    (skipNonDataHeadBuffers chain).length ≤ chain.length := by
  induction chain with
  | nil => exact Nat.le_refl _
  | cons ibb rest ih =>
    rw [skipNonDataHeadBuffers]
    split
    · exact Nat.le_succ_of_le ih
    · exact Nat.le_refl _

variable {chain : List InboundBuffer}

/-- There is no second buffer to refill from. -/
theorem OneChain.refillFromNext (h : OneChain chain) : refillFromNext chain = none := by
  rcases chain with _ | ⟨ibb, _ | ⟨next, rest⟩⟩
  · rfl
  · rfl
  · exact absurd h (by simp [OneChain])

theorem OneChain.recycle (h : OneChain chain) : OneChain (recycleCurrentInboundBuffer chain) := by
  cases chain with
  | nil => exact h
  | cons ibb rest =>
    apply Nat.le_trans (length_skipNonDataHeadBuffers_le _)
    rw [List.length_append]
    exact h

theorem OneChain.cons_tail (h : OneChain chain) (ibb : InboundBuffer) :
    OneChain (ibb :: chain.tail) := by
  simp only [OneChain, List.length_cons, List.length_tail] at h ⊢
  omega

/-! ### The kinds of stores -/

/-- The part of a record that decides about the life of a slot. -/
def CommAbstract.core (c : CommAbstract) : CommAbstract :=
  { c with
      inbound := []
      websocket := none
      caps := {}
      flags := { c.flags with
        telnetState := .data
        invokedPrompt := false
        clientEcho := false
        enableAnsi := false } }

/-- The kinds of stores to a slot's record. -/
inductive StoreKind where
  /-- Capabilities, echo, Telnet state, prompt shown. -/
  | quiet
  /-- The inbound buffers, in the text parsers. -/
  | text
  /-- The decoded text of a WebSocket. -/
  | decoded
  /-- The inbound buffers and the decoder. -/
  | input
  | defer
  | resume
  | lineInput
  | charInput
  | telnet
  /-- The completion of the connect or the transport-ready hook. -/
  | hookOver
  | disconnected
  | reject
  | upgrade
  /-- The Telnet subprotocol of a WebSocket, and the end of its negotiation. -/
  | subprotocol
  | closeFrame
  | ready
  | readyRefused
  | connecting
  | connectRefused
  | tls
  | flushed
  /-- The stores of `comm_close_impl`. -/
  | close
  | prompt
  | enableWebsocket
  | enableTls
  deriving DecidableEq, Repr

/-- What a store of the kind does, and what is known in front of it. -/
def StoreKind.Store (setup : Setup) (c c' : CommAbstract) : StoreKind → Prop
  | quiet => c'.core = c.core ∧ c'.inbound = c.inbound ∧ c'.websocket = c.websocket
  | text => c'.core = c.core ∧ c'.websocket = c.websocket ∧ (OneChain c.inbound → OneChain c'.inbound)
  | decoded => c'.core = c.core ∧ c'.inbound = c.inbound ∧
      (c'.websocket.getD {}).fragment = (c.websocket.getD {}).fragment ∧
      (c'.websocket.getD {}).pendingWire = (c.websocket.getD {}).pendingWire
  | input => c'.core = c.core
  | defer => c' = c.mapFlags fun flags => { flags with deferredInbound := true }
  | resume => c'.core = (c.mapFlags fun flags => { flags with deferredInbound := false }).core ∧
      c'.websocket = c.websocket ∧ (OneChain c.inbound → OneChain c'.inbound)
  | lineInput => c' = c.mapFlags fun flags => { flags with lineInput := true }
  | charInput => ∃ echo, c' = c.mapFlags fun flags =>
    { flags with lineInput := false, clientEcho := echo }
  | telnet => c' = c.mapFlags fun flags => { flags with enableTelnet := true }
  | hookOver => c.flags.closing = false ∧
      c' = c.mapFlags fun flags => { flags with awaitingHook := false }
  | disconnected => c' = c.mapFlags fun flags => { flags with awaitingHook := false }
  | reject => c.flags.enableWebsocket = true ∧ c.flags.websocketState = .handshake ∧
      c' = (commFreeInboundBuffers c).mapFlags fun flags => { flags with enableWebsocket := false }
  | upgrade => c.flags.enableWebsocket = true ∧ c.flags.websocketState = .handshake ∧
      c'.core = (c.mapFlags fun flags => { flags with websocketState := .ready }).core
  | subprotocol => c.flags.websocketState.isReady = true ∧ c.flags.websocketState.closed = false ∧
      ∃ state : WebSocketState, state.isReady = true ∧ state.closed = false ∧
        c' = c.mapFlags fun flags => { flags with websocketState := state }
  | closeFrame => c.flags.websocketState.isReady = true ∧
      c' = c.mapFlags fun flags => { flags with websocketState := .closeReceived }
  | ready => c.flags.closing = false ∧ c.flags.transportReady = false ∧
      c' = c.mapFlags fun flags =>
        { flags with transportReady := true, awaitingHook := flags.awaitingHook || setup.relaxed }
  | readyRefused =>
    c' = c.mapFlags fun flags => { flags with transportReady := false, awaitingHook := false }
  | connecting => setup.relaxed = true ∧
      c' = c.mapFlags fun flags => { flags with awaitingHook := true }
  | connectRefused => setup.relaxed = true ∧
      c' = c.mapFlags fun flags => { flags with awaitingHook := false }
  | tls => c' = c.mapFlags fun flags => { flags with tlsEstablished := true }
  | flushed => c' = c.mapFlags fun flags => { flags with bufferedWrite := false }
  | close => ∃ closing pending awaiting enable, c' = c.mapFlags fun flags =>
    { flags with
        closing
        disconnectPending := pending
        awaitingHook := awaiting
        enablePrompt := enable }
  | prompt => ∃ enable, c' = c.mapFlags fun flags => { flags with enablePrompt := enable }
  | enableWebsocket => c' = c ∨ ∃ protocols, c' = { c with
      websocket := some { c.websocket.getD {} with preferredProtocols := protocols }
      flags := { c.flags with enableWebsocket := true } }
  | enableTls => c' = c ∨ (c.ssl = false ∧
      c' = { c with ssl := true, flags := { c.flags with tlsEstablished := false } })

variable {setup : Setup} {kind : StoreKind} {c c' : CommAbstract}

section

variable (h : kind.Store setup c c')

include h

/-- No store ends or begins the use of a slot. -/
theorem StoreKind.Store.live : c'.live = c.live := by
  cases kind <;> simp only [StoreKind.Store] at h <;>
    grind [CommAbstract.core, CommAbstract.live, CommAbstract.mapFlags, commFreeInboundBuffers]

theorem StoreKind.Store.generation : c'.generation = c.generation := by
  cases kind <;> simp only [StoreKind.Store] at h <;>
    grind [CommAbstract.core, CommAbstract.mapFlags, commFreeInboundBuffers]

/-- Only deferring the input sets its flag. -/
theorem StoreKind.Store.deferredInbound (hne : kind ≠ .defer)
    (hc' : c'.flags.deferredInbound = true) : c.flags.deferredInbound = true := by
  cases kind <;> simp only [StoreKind.Store] at h <;>
    grind [CommAbstract.core, CommAbstract.mapFlags, commFreeInboundBuffers]

/-- Only the switch to character input ends line input. -/
theorem StoreKind.Store.lineInput (hne : kind ≠ .charInput) (hc : c.flags.lineInput = true) :
    c'.flags.lineInput = true := by
  cases kind <;> simp only [StoreKind.Store] at h <;>
    grind [CommAbstract.core, CommAbstract.mapFlags, commFreeInboundBuffers]

/-- An upgraded WebSocket stays one. -/
theorem StoreKind.Store.isReady (hc : c.flags.websocketState.isReady = true) :
    c'.flags.websocketState.isReady = true := by
  cases kind <;> simp only [StoreKind.Store] at h <;>
    grind [CommAbstract.core, CommAbstract.mapFlags, commFreeInboundBuffers, WebSocketState.isReady]

end

def StoreKind.ordinary : StoreKind → Bool
  | defer | charInput | hookOver | disconnected | ready | readyRefused | connecting | connectRefused
  | close | prompt => false
  | _ => true

/-- The ordinary kinds that keep the mark of deferred input. -/
def StoreKind.steady (kind : StoreKind) : Bool := kind.ordinary && kind ≠ .resume

/-- The steady kinds that take no input. -/
def StoreKind.idle (kind : StoreKind) : Bool := kind.steady && kind ≠ .text && kind ≠ .input

/-- The stores of `comm_flush`. -/
def StoreKind.flushes : StoreKind → Bool
  | tls | subprotocol | flushed => true
  | _ => false

theorem StoreKind.idle_of_flushes (h : kind.flushes = true) : kind.idle = true := by
  cases kind <;> cases h <;> rfl

/-- The end of the text parsers. -/
def textEnd : Code ProcessResult := do
  match ← commGuard with
  | none => pure .closed
  | some comm => pure (if comm.flags.deferredInbound then .deferred else .ok)

/-! ### Requirements on code -/

/-- What is required of the effects of a slot's code, each in the record before it, and of two effects
that follow each other directly. -/
structure Requirement where
  spec : (β : Type) → CommAbstract → SlotEffect β → Prop
  pair : (β δ : Type) → CommAbstract → SlotEffect β → SlotEffect δ → Prop

/-- The code meets the requirement from the record `c`, and it ends in `Q`. -/
abbrev MeetsTo (setup : Setup) (R : Requirement) {α : Type} (p : Code α)
    (Q : α → CommAbstract → Prop) (c : CommAbstract) : Prop :=
  PairsTo (S := recordSystem setup) R.spec R.pair Q p c

/-- The code meets the requirement from any record. -/
abbrev Meets (setup : Setup) (R : Requirement) {α : Type} (p : Code α) : Prop :=
  ∀ c, MeetsTo setup R p (fun _ _ => True) c

/-- The same, and a slot in use stays in use. -/
abbrev MeetsLive (setup : Setup) (R : Requirement) {α : Type} (p : Code α) : Prop :=
  ∀ c, MeetsTo setup R p (fun _ c' => c.live = true → c'.live = true) c

/-- The kinds whose stores are permitted or not whatever else is known of the record. -/
def StoreKind.plain : StoreKind → Bool
  | defer | flushed => false
  | _ => true

def Grants (setup : Setup) (R : Requirement) : StoreKind → Prop
  | .defer => ∀ c : CommAbstract, R.pair _ _ c
      (.setSlot (c.mapFlags fun flags => { flags with deferredInbound := true }))
      (.setHasDeferred true)
  | .flushed => ∀ c : CommAbstract, c.outbound = [] →
      R.spec _ c (.setSlot (c.mapFlags fun flags => { flags with bufferedWrite := false }))
  | kind => ∀ c c', kind.Store setup c c' → R.spec _ c (.setSlot c')

theorem Grants.store {R : Requirement} (h : Grants setup R kind) (hplain : kind.plain = true)
    (hstore : kind.Store setup c c') : R.spec _ c (.setSlot c') := by
  cases kind with
  | defer => cases hplain
  | flushed => cases hplain
  | _ => exact h c c' hstore

/-- It is permitted to enter the hook and to run it, and to queue it with the completion of its type. -/
structure Dispatches (R : Requirement) (call : HookCall) (c : CommAbstract) : Prop where
  beginHook : R.spec _ c (.beginHook call)
  runHook : ∀ c', R.spec _ c' (.runHook call)
  enqueue : R.spec _ c (.enqueue call call.hookType.completion)

/-- The effects about which the requirements say nothing. -/
def SlotEffect.isFree : {β : Type} → SlotEffect β → Bool
  | _, .setSlot _ | _, .setHasDeferred _ | _, .addBio _ _ _ _ | _, .beginHook _ | _, .enqueue _ _
  | _, .runHook _ | _, .remove | _, .pong _ | _, .writeRaw _ | _, .releaseBarrier | _, .freeOutbound => false
  | _, _ => true

/-- A requirement that the code meets that sends what is queued. -/
structure PermitsFlush (setup : Setup) (R : Requirement) : Prop where
  free : ∀ {β : Type} {e : SlotEffect β}, e.isFree = true → ∀ c, R.spec β c e
  releaseBarrier : ∀ c, c.outbound = [] → R.spec _ c .releaseBarrier
  freeOutbound : ∀ c, DiscardGuard setup c → R.spec _ c .freeOutbound
  flush : ∀ kind : StoreKind, kind.flushes = true → Grants setup R kind

/-- A requirement that the code meets that runs no hook and takes no input. -/
structure Permits (setup : Setup) (R : Requirement) : Prop extends PermitsFlush setup R where
  writeRaw : ∀ c buf, c.flags.websocketState.closed = false → R.spec _ c (.writeRaw buf)
  idle : ∀ kind : StoreKind, kind.idle = true → Grants setup R kind
  flush kind hkind := idle kind (StoreKind.idle_of_flushes hkind)

/-- The code with hooks, outside the functions that run the life of the slot. -/
structure PermitsHooks (setup : Setup) (R : Requirement) : Prop extends Permits setup R where
  hook : ∀ call c, DispatchGuard False call c → Dispatches R call c

/-- The text parsers. -/
structure PermitsText (setup : Setup) (R : Requirement) : Prop extends PermitsHooks setup R where
  text : Grants setup R .text

/-- The frames of a WebSocket as well. -/
structure PermitsInput (setup : Setup) (R : Requirement) : Prop extends PermitsText setup R where
  input : Grants setup R .input
  pong : ∀ c payload, R.spec _ c (.pong payload)

variable {R : Requirement}

/-! ### Rules -/

section Rules

variable {α β : Type} {Q : α → CommAbstract → Prop}

theorem meetsTo_bind {p : Code β} {f : β → Code α}
    (h : MeetsTo setup R p (fun b c' => MeetsTo setup R (f b) Q c') c) :
    MeetsTo setup R (p >>= f) Q c :=
  PairsTo.bind (S := recordSystem setup) h

variable {p : Code α}

theorem meetsTo_mono {Q' : α → CommAbstract → Prop} (h : MeetsTo setup R p Q' c)
    (himp : ∀ a c', Q' a c' → Q a c') : MeetsTo setup R p Q c :=
  PairsTo.mono (S := recordSystem setup) h himp

theorem meetsTo_of_meets (h : Meets setup R p) (hq : ∀ a c', Q a c') : MeetsTo setup R p Q c :=
  meetsTo_mono (h c) fun a c' _ => hq a c'

theorem MeetsLive.meets (h : MeetsLive setup R p) : Meets setup R p :=
  fun c => meetsTo_mono (h c) fun _ _ _ => True.intro

theorem MeetsLive.pure (a : α) : MeetsLive setup R (pure a : Code α) := fun _ => .done id

theorem MeetsLive.bind {p : Code β} {f : β → Code α} (hp : MeetsLive setup R p)
    (hf : ∀ b, MeetsLive setup R (f b)) : MeetsLive setup R (p >>= f) :=
  fun c => meetsTo_bind (meetsTo_mono (hp c) fun b c' hc =>
    meetsTo_mono (hf b c') fun _ _ hc' hlive => hc' (hc hlive))

variable {b : Prop}

theorem MeetsLive.ite [Decidable b] {q : Code α} (hp : MeetsLive setup R p)
    (hq : MeetsLive setup R q) : MeetsLive setup R (if b then p else q) := by
  split
  · exact hp
  · exact hq

/-- An effect that is permitted in any record. -/
theorem meetsTo_perform {e : SlotEffect β} {k : β → Code α} (he : ∀ c, R.spec β c e)
    (hk : ∀ b c', MeetsTo setup R (k b) Q c') : MeetsTo setup R (.perform e k) Q c := by
  cases hu : unfold setup e with
  | some p => exact .call (Option.isSome_iff_exists.mpr ⟨p, hu⟩) hk
  | none =>
    cases hr : reentrant e with
    | true => exact .reentrant hu hr he hk
    | false => exact .effect hu hr (he c) fun _ b c' _ => hk b c'

theorem meets_effect {e : SlotEffect β} (he : ∀ c, R.spec β c e) :
    Meets setup R (Program.effect e) :=
  fun _ => meetsTo_perform he fun _ _ => .done True.intro

theorem meets_pure (a : α) : Meets setup R (pure a : Code α) := fun _ => .done True.intro

theorem meets_bind {p : Code β} {f : β → Code α} (hp : Meets setup R p)
    (hf : ∀ b, Meets setup R (f b)) : Meets setup R (p >>= f) :=
  fun _ => meetsTo_bind (meetsTo_of_meets hp hf)

theorem meets_ite [Decidable b] {q : Code α} (hp : Meets setup R p) (hq : Meets setup R q) :
    Meets setup R (if b then p else q) := by
  split
  · exact hp
  · exact hq

theorem meets_when [Decidable b] {p : Code Unit} (hp : Meets setup R p) :
    Meets setup R (if b then p else pure ()) :=
  meets_ite hp (meets_pure ())

/-- An optional step in front of the rest of the code. -/
theorem meets_optional [Decidable b] {p : Code Unit} {f : Unit → Code α} (hp : Meets setup R p)
    (hf : ∀ u, Meets setup R (f u)) : Meets setup R (if b then p >>= f else f ()) :=
  meets_ite (meets_bind hp hf) (hf ())

theorem meetsTo_setComm {Q : Unit → CommAbstract → Prop} (kind : StoreKind)
    (hkind : Grants setup R kind) (hplain : kind.plain = true) (hstore : kind.Store setup c c')
    (h : Q () c') : MeetsTo setup R (setComm c') Q c := by
  refine .effect rfl rfl (hkind.store hplain hstore) fun a b c'' hexec => .done ?_
  cases a <;> cases hexec
  exact h

/-- A store directly behind the reading of the record, in front of the rest. -/
theorem meetsTo_store {k : Unit → Code α} (kind : StoreKind) (hkind : Grants setup R kind)
    (hplain : kind.plain = true) (hstore : kind.Store setup c c') (hk : MeetsTo setup R (k ()) Q c') :
    MeetsTo setup R (setComm c' >>= k) Q c :=
  meetsTo_bind (meetsTo_setComm kind hkind hplain hstore hk)

end Rules

namespace PermitsFlush

variable (P : PermitsFlush setup R) {α β : Type} {Q : α → CommAbstract → Prop}

include P

theorem effect {e : SlotEffect β} (he : e.isFree = true) : Meets setup R (Program.effect e) :=
  meets_effect (P.free he)

theorem getSlot {k : CommAbstract → Code α} (hk : MeetsTo setup R (k c) Q c) :
    MeetsTo setup R (.perform .getSlot k) Q c := by
  refine .effect rfl rfl (P.free rfl c) fun a b c' hexec => ?_
  cases a <;> cases hexec
  exact hk

/-- An effect that leaves the record alone and lets no foreign code in. -/
theorem ask {e : SlotEffect β} {k : β → Code α} (he : e.isFree = true)
    (hu : Comm.unfold setup e = none) (hr : reentrant e = false) (hleaves : leavesRecord e = true)
    (hk : ∀ b, MeetsTo setup R (k b) Q c) : MeetsTo setup R (.perform e k) Q c := by
  refine .effect hu hr (P.free he c) fun a b c' hexec => ?_
  rw [slotExec_of_leavesRecord hleaves hexec]
  exact hk b

theorem commGuard {Q : Option CommAbstract → CommAbstract → Prop}
    (h : Q (if c.live then some c else none) c) : MeetsTo setup R commGuard Q c :=
  P.getSlot (.done h)

theorem commDeref {Q : CommAbstract → CommAbstract → Prop} (h : c.live = true → Q c c) :
    MeetsTo setup R commDeref Q c := by
  rw [Comm.commDeref, Program.effect_bind]
  refine P.getSlot ?_
  split
  · next hlive => exact .done (h hlive)
  · exact meetsTo_perform (P.free rfl) fun b => nomatch b

variable {f : CommAbstract → CommAbstract}

variable (kind)

theorem modifyCommTo {Q : Unit → CommAbstract → Prop} (hkind : Grants setup R kind)
    (hplain : kind.plain = true) (hstore : c.live = true → kind.Store setup c (f c))
    (h : c.live = true → Q () (f c)) : MeetsTo setup R (modifyComm f) Q c :=
  meetsTo_bind (P.commDeref fun hlive =>
    meetsTo_setComm kind hkind hplain (hstore hlive) (h hlive))

/-- A store that is of its kind in any record. -/
theorem modifyComm (hkind : Grants setup R kind) (hplain : kind.plain = true)
    (hstore : ∀ c, kind.Store setup c (f c)) : Meets setup R (modifyComm f) :=
  fun c => P.modifyCommTo kind hkind hplain (fun _ => hstore c) fun _ => True.intro

theorem modifyFlags {f : Flags → Flags} (hkind : Grants setup R kind) (hplain : kind.plain = true)
    (hstore : ∀ c : CommAbstract, kind.Store setup c (c.mapFlags f)) :
    Meets setup R (modifyFlags f) :=
  P.modifyComm kind hkind hplain hstore

/-- Code behind the test of the guard; in the second case the record is at hand. -/
theorem guard {f : Option CommAbstract → Code α} (hnone : Meets setup R (f none))
    (hsome : ∀ c, c.live = true → MeetsTo setup R (f (some c)) (fun _ _ => True) c) :
    Meets setup R (Comm.commGuard >>= f) := by
  intro c
  refine meetsTo_bind (P.commGuard ?_)
  split
  · next hlive => exact hsome c hlive
  · exact hnone c

/-- Code behind a dereference of the guard. -/
theorem deref {f : CommAbstract → Code α}
    (hf : ∀ c, c.live = true → MeetsTo setup R (f c) (fun _ _ => True) c) :
    Meets setup R (Comm.commDeref >>= f) :=
  fun c => meetsTo_bind (P.commDeref (hf c))

end PermitsFlush

end Mudmux.Comm
