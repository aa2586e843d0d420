import Mudmux.Lib.Ensures
import Mudmux.Proofs.CodeRuns
import Mudmux.Proofs.StoreKinds

/-!
# `Mudmux.Proofs.WireKept`: code that leaves the wire bytes of an upgraded slot alone

What an upgraded slot has received and not decoded yet stands in three places: the fragment in progress, the
pending wire bytes and, until the next call of the parser, the inbound buffer. Only
`comm_process_websocket_input` and the decoder it calls work on them. All the other code that runs on such a
slot, down to the flushes and closes behind a hook, keeps the first two, and at most one inbound buffer.

`HasWire` names what is kept, with the shape of the inbound chain as a parameter: the text parsers use the
chain for the decoded text, the rest does not touch it. `wireRequirement` asks this of every store, and
`WireHandler` is what a handler needs so that code which meets it keeps an invariant: the handler of a slot
at every depth is one, and so is an observed one.
-/

set_option autoImplicit false

namespace Mudmux.Comm

open Mudmux.Lib
open Mudmux.Lib.Program

variable {c c' : CommAbstract} {β : Type} {e : SlotEffect β} {b : β} {kind : StoreKind}

/-! ### What is kept -/

/-- An upgraded record with this fragment in progress and these pending wire bytes. -/
structure HasWire (chains : List InboundBuffer → Prop) (fragment : Fragment) (pending : Bytes)
    (comm : CommAbstract) : Prop where
  ready : comm.flags.websocketState.isReady = true
  fragment : (comm.websocket.getD {}).fragment = fragment
  pending : (comm.websocket.getD {}).pendingWire = pending
  chain : chains comm.inbound

/-- The same of a record that may be out of use. -/
abbrev Wired (chains : List InboundBuffer → Prop) (fragment : Fragment) (pending : Bytes)
    (comm : CommAbstract) : Prop :=
  comm.live = true → HasWire chains fragment pending comm

/-- Behind a change of the record the connection is the same one, unless it has ended, and nothing has
happened to its wire bytes. -/
structure SameWire (c c' : CommAbstract) : Prop where
  live : c'.live = true → c.live = true
  ready : c'.live = true → c.flags.websocketState.isReady = true →
    c'.flags.websocketState.isReady = true
  fragment : c'.live = true → (c'.websocket.getD {}).fragment = (c.websocket.getD {}).fragment
  pending : c'.live = true → (c'.websocket.getD {}).pendingWire = (c.websocket.getD {}).pendingWire
  inbound : c'.live = true → c'.inbound = c.inbound

variable {chains : List InboundBuffer → Prop} {fragment : Fragment} {pending : Bytes}

theorem Wired.same (hc : Wired chains fragment pending c) (h : SameWire c c') :
    Wired chains fragment pending c' := by
  intro hlive
  have hwire := hc (h.live hlive)
  refine ⟨h.ready hlive hwire.ready, ?_, ?_, ?_⟩
  · rw [h.fragment hlive, hwire.fragment]
  · rw [h.pending hlive, hwire.pending]
  · rw [h.inbound hlive]
    exact hwire.chain

/-- The stores of the parsers. -/
def StoreKind.parses : StoreKind → Bool
  | text | resume | input => true
  | _ => false

/-- Outside the parsers no store to an upgraded record concerns the wire bytes. -/
theorem StoreKind.Store.wired {setup : Setup} (h : kind.Store setup c c')
    (hparses : kind.parses = false) (hc : Wired chains fragment pending c) :
    Wired chains fragment pending c' := by
  intro hlive
  obtain ⟨hisReady, rfl, rfl, hchain⟩ := hc (h.live ▸ hlive)
  have hkept : c'.inbound = c.inbound ∧
      (c'.websocket.getD {}).fragment = (c.websocket.getD {}).fragment ∧
      (c'.websocket.getD {}).pendingWire = (c.websocket.getD {}).pendingWire := by
    cases kind <;> simp only [StoreKind.Store] at h
    case enableWebsocket | enableTls => rcases h with rfl | ⟨_, rfl⟩ <;> exact ⟨rfl, rfl, rfl⟩
    case text | resume | input => cases hparses
    -- an upgraded slot is behind its handshake
    case reject | upgrade => simp [h.2.1, WebSocketState.isReady] at hisReady
    all_goals grind [CommAbstract.mapFlags]
  refine ⟨h.isReady hisReady, hkept.2.1, hkept.2.2, ?_⟩
  rw [hkept.1]
  exact hchain

/-- The text parsers keep all but the inbound buffer. -/
theorem StoreKind.Store.wired_text {setup : Setup} (h : kind.Store setup c c') (hne : kind ≠ .input)
    (hc : Wired OneChain fragment pending c) : Wired OneChain fragment pending c' := by
  by_cases htext : kind = .text ∨ kind = .resume
  · intro hlive
    replace hc := hc (h.live ▸ hlive)
    have hkept : c'.websocket = c.websocket ∧ (OneChain c.inbound → OneChain c'.inbound) := by
      rcases htext with rfl | rfl <;> exact h.2
    exact ⟨h.isReady hc.ready, by rw [hkept.1, hc.fragment], by rw [hkept.1, hc.pending], hkept.2 hc.chain⟩
  · exact h.wired (by cases kind <;> simp_all [StoreKind.parses]) hc

/-- The effects that do not concern the wire bytes. -/
def SlotEffect.leavesWire : {β : Type} → SlotEffect β → Bool
  | _, .setSlot _ => false
  | _, .pong _ => false
  | _, .addBio _ _ _ _ => false
  | _, _ => true

/-- Every store leaves the wire bytes of an upgraded slot alone, no Pong is sent and no connection begins. -/
def wireRequirement (chains : List InboundBuffer → Prop) (fragment : Fragment) (pending : Bytes) :
    Requirement where
  spec
    | _, c, .setSlot c' => Wired chains fragment pending c → Wired chains fragment pending c'
    | _, _, e => e.leavesWire = true
  pair
    | _, _, c, .setSlot c', .setHasDeferred _ =>
      Wired chains fragment pending c → Wired chains fragment pending c'
    | _, _, _, _, _ => False

variable {setup : Setup}

theorem wireGrants (hparses : kind.parses = false) :
    Grants setup (wireRequirement chains fragment pending) kind := by
  cases kind with
  | defer =>
    intro c
    have hstore : StoreKind.defer.Store setup c _ := rfl
    exact hstore.wired hparses
  | flushed =>
    intro c _
    have hstore : StoreKind.flushed.Store setup c _ := rfl
    exact hstore.wired hparses
  | _ => exact fun _ _ hstore => hstore.wired hparses

theorem wireHook (call : HookCall) (c : CommAbstract) :
    Dispatches (wireRequirement chains fragment pending) call c :=
  ⟨rfl, fun _ => rfl, rfl⟩

theorem wirePermits : PermitsHooks setup (wireRequirement chains fragment pending) where
  free he _ := by cases ‹SlotEffect _› <;> first | rfl | cases he
  writeRaw _ _ _ := rfl
  releaseBarrier _ _ := rfl
  freeOutbound _ _ := rfl
  hook call c _ := wireHook call c
  idle kind hkind := wireGrants (by cases kind <;> cases hkind <;> rfl)

theorem wireTextPermits : PermitsText setup (wireRequirement OneChain fragment pending) where
  toPermitsHooks := wirePermits
  text _ _ hstore := hstore.wired_text nofun

/-- The functions that the code calls. -/
theorem wire_of_unfold {p : Code β} (h : unfold setup e = some p) :
    Meets setup (wireRequirement chains fragment pending) p := by
  refine wirePermits.of_unfold ⟨wireGrants rfl, wireGrants rfl⟩ ?_ h
  exact {
    close := wireGrants rfl
    disconnected := fun _ => wireGrants rfl
    hook := wireHook .disconnect
    remove := fun _ _ => rfl }

/-! ### Handlers -/

/-- A handler that performs the effects of a slot, under which `I` says of the slot's record, and perhaps of
more, what has to be kept. -/
structure WireHandler (setup : Setup) {σ : Type} (h : Handler SlotEffect σ) (view : σ → CommAbstract)
    (I : σ → Prop) (chains : List InboundBuffer → Prop) (fragment : Fragment) (pending : Bytes) :
    Prop where
  exec : ∀ {β : Type} {e : SlotEffect β} {s s' : σ} {b : β}, unfold setup e = none →
    reentrant e = false → h _ e s = some (b, s') →
    ∃ a, slotExec e a (view s) = some (b, view s')
  wired : ∀ {s : σ}, I s → Wired chains fragment pending (view s)
  set : ∀ {s s' : σ} {c : CommAbstract}, I s → Wired chains fragment pending c →
    h _ (.setSlot c) s = some ((), s') → I s'
  other : ∀ {β : Type} {e : SlotEffect β} {s s' : σ} {b : β}, e.leavesWire = true → I s →
    h _ e s = some (b, s') → I s'

/-- Code that meets the requirement keeps the invariant. -/
theorem WireHandler.preserves {σ α : Type} {h : Handler SlotEffect σ} {view : σ → CommAbstract}
    {I : σ → Prop} (hw : WireHandler setup h view I chains fragment pending) {p : Code α}
    (hp : Meets setup (wireRequirement chains fragment pending) p) : Preserves h I p := by
  intro s hi a s' heval
  refine CallbackSystem.PairsTo.eval_rel (S := recordSystem setup) view (fun s s' => I s → I s')
    (fun _ => id) (fun _ _ _ h h' hi => h' (h hi)) ?_ (fun e s b s' => hw.exec) ?_ ?_ (hp (view s)) rfl
    heval hi
  · intro β e s b s' hforeign hanswer hi
    refine hw.other ?_ hi hanswer
    cases e <;> first | rfl | simp [unfold, reentrant] at hforeign
  · intro β e s b s' hu hr hspec hanswer hi
    cases e with
    | setSlot c => exact hw.set hi (hspec (hw.wired hi)) hanswer
    | _ => exact hw.other hspec hi hanswer
  · intro β δ e e' s b s₁ b' s₂ hu hr hu' hr' hpair hanswer hanswer' hi
    cases e with
    | setSlot c =>
      cases e' with
      | setHasDeferred value =>
        exact hw.other rfl (hw.set hi (hpair (hw.wired hi)) hanswer) hanswer'
      | _ => exact absurd hpair id
    | _ => exact absurd hpair id

/-! ### The handlers of a slot -/

/-- Surroundings in which nothing happens to the wire bytes of a slot from outside. -/
def Surroundings.KeepsWire {ρ : Type} (env : Surroundings ρ) : Prop :=
  ∀ {β : Type} (e : SlotEffect β) (comm : CommAbstract) (outside : ρ), reentrant e = true →
    SameWire comm (env.foreign e comm outside).1

theorem SameWire.refl (c : CommAbstract) : SameWire c c :=
  ⟨fun hlive => hlive, fun _ hready => hready, fun _ => rfl, fun _ => rfl, fun _ => rfl⟩

/-- The operations on the queue do not concern the wire bytes. -/
theorem sameWire_of_exec {a : Answer} (he : e.replaces = false)
    (hexec : slotExec e a c = some (b, c')) : SameWire c c' := by
  have hstill := still_of_exec he hexec
  have hwebsocket : c'.still.websocket = c.still.websocket := by rw [hstill]
  have hlive : c'.still.live = c.still.live := by rw [hstill]
  have hinbound : c'.still.inbound = c.still.inbound := by rw [hstill]
  change c'.websocket = c.websocket at hwebsocket
  change c'.live = c.live at hlive
  refine ⟨?_, fun _ => isReady_of_exec he hexec, ?_, ?_, ?_⟩
  · rw [hlive]
    exact id
  · rw [hwebsocket]
    exact fun _ => rfl
  · rw [hwebsocket]
    exact fun _ => rfl
  · exact fun _ => hinbound

/-- Nor does the end of the connection. -/
theorem sameWire_of_leavesWire {a : Answer} (he : e.leavesWire = true)
    (hexec : slotExec e a c = some (b, c')) : SameWire c c' := by
  cases e with
  | setSlot _ | pong _ | addBio _ _ _ _ => cases he
  | remove =>
    cases a <;> cases hexec
    rw [ifLive]
    split
    · constructor <;> exact fun h => by cases h
    · exact .refl c
  | _ => exact sameWire_of_exec rfl hexec

section Handlers

variable {ρ : Type} {env : Surroundings ρ}

/-- The outside and then the effect itself. -/
theorem perform_keeps (henv : env.KeepsWire) {w w' : World ρ}
    (hsame : ∀ {a : Answer} {c c' : CommAbstract}, slotExec e a c = some (b, c') → SameWire c c')
    (hw : Wired chains fragment pending w.comm) (hperform : env.perform e w = some (b, w')) :
    Wired chains fragment pending w'.comm := by
  obtain ⟨⟨b', c'⟩, hexec, hresult⟩ := Option.map_eq_some_iff.mp hperform
  cases hresult
  have hvisit : SameWire w.comm (env.visit e w).comm := by
    rw [Surroundings.visit]
    split
    · dsimp only
      split
      · next hreentrant => exact henv e w.comm w.outside hreentrant
      · exact .refl _
    · exact .refl _
  exact (hw.same hvisit).same (hsame hexec)

/-- A handler of a slot whose calls keep the wire bytes. -/
theorem wireHandler_of_calls (henv : env.KeepsWire) {depth : Nat}
    (hcalls : ∀ {β : Type} {e : SlotEffect β} {code : Code β} {w w' : World ρ} {b : β},
      unfold setup e = some code → Wired chains fragment pending w.comm →
      slotHandler setup env depth _ e w = some (b, w') → Wired chains fragment pending w'.comm) :
    WireHandler setup (slotHandler setup env depth) World.comm
      (fun w => Wired chains fragment pending w.comm) chains fragment pending where
  exec hu hr hanswer := by
    rw [slotHandler_of_unfold_none _ hu] at hanswer
    exact exec_of_perform hr hanswer
  wired := id
  set _ hc hanswer := by
    rw [slotHandler_of_unfold_none _ rfl] at hanswer
    cases hanswer
    exact hc
  other {β e w w' b} he hw hanswer := by
    cases hu : unfold setup e with
    | some code => exact hcalls hu hw hanswer
    | none =>
      rw [slotHandler_of_unfold_none _ hu] at hanswer
      exact perform_keeps henv (sameWire_of_leavesWire he) hw hanswer

/-- The handler of a slot, with the calls it unfolds. -/
theorem wireHandler_slot (henv : env.KeepsWire) (depth : Nat) :
    WireHandler setup (slotHandler setup env depth) World.comm
      (fun w => Wired chains fragment pending w.comm) chains fragment pending := by
  induction depth with
  | zero =>
    refine wireHandler_of_calls henv fun {β e code w w' b} hu hw hanswer => ?_
    refine perform_keeps henv (sameWire_of_leavesWire ?_) hw hanswer
    cases e <;> first | rfl | cases hu
  | succ depth ih =>
    refine wireHandler_of_calls henv fun {β e code w w' b} hu hw hanswer => ?_
    rw [slotHandler, hu] at hanswer
    exact ih.preserves (wire_of_unfold hu) w hw b w' hanswer

end Handlers

end Mudmux.Comm
