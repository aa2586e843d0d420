import Mudmux.Comm.DeferredInput
import Mudmux.Proofs.SlotWp

/-!
# `Mudmux.Proofs.DeferralFlag`: `has_deferred_input` in relaxed mode

`C_DEFERRED_INBOUND` of a slot and `has_deferred_input` are set together, under `comm_slots_mtx`. But
`comm_resume_deferred_input` computes its `any_deferred` one slot at a time and stores it at the end,
without the lock and whatever the variable holds by then. A completion that marks a slot behind the
pass's turn on it and before the last store is forgotten: the slot stays marked and `has_deferred_input`
is clear.

In runs without such a step nothing is forgotten. There are two parts to that. Code that marks the slot
sets the variable as well (`Announced`), which is a matter of the stores of the code and nothing else. And
what `comm_resume_deferred_input` answers for the slot is right (`wp_commResumeSlot`): it does not look at
the flag again when `comm_process_input` answers that the slot is closed or in error, and that is so only
where no input was deferred. For that the input path is followed function by function, with the
postcondition `Settles`.
-/

set_option autoImplicit false

namespace Mudmux.Comm

open Mudmux.Lib
open CallbackSystem

variable {setup : Setup}

/-! ### The condition -/

/-- The entry is a request of an await. -/
def Entry.awaits : Entry → Bool
  | .api _ .workersAwait => true
  | _ => false

/-- The entries by which other threads mark a slot's input as deferred. -/
def Entry.defers : Entry → Bool
  | .completeTask task =>
    task.completion = .connect || task.completion = .transportReady || task.completion = .inbound
  | x => x.awaits

/-- `comm_resume_deferred_input` is at work on the slot, or has passed it with `any_deferred` still
false. -/
def LoopPhase.vulnerable : LoopPhase → LoopTurn → Bool
  | .resuming true false, .code _ => true
  | _, .resumeSlot => true
  | _, _ => false

/-- The moves during a turn: no await is requested where `quiet` is set. -/
def awaitGuard (setup : Setup) (quiet : Bool) : (slotSystem setup observeDeferred).Guard where
  entry _ x := !(quiet && x.awaits)
  effect _ _ _ := true

/-- The condition on the steps: between the turn of `comm_resume_deferred_input` on the slot, if it did
not make `any_deferred` true, and its last store nobody marks the slot. -/
def flagGuard (setup : Setup) : (loopSystem setup).Guard where
  turn _ phase turn :=
    match phase, turn with
    | .resuming true false, .code x => !x.defers
    | _, _ => true
  code phase turn := awaitGuard setup (phase.vulnerable turn)

/-! ### What the stores do -/

/-- The state of the machine with the value of `has_deferred_input`. -/
abbrev DeferState := SlotState Bool

instance : IgnoresRecord observeDeferred where
  getSlot _ _ _ _ := rfl
  setSlot _ _ _ _ _ := rfl

/-- Deferred input is announced to the event loop. -/
def Announced (s : DeferState) : Prop := s.comm.deferred = true → s.notes = true

/-- The slot is an upgraded WebSocket. -/
def Upgraded (c : CommAbstract) : Prop := c.live = true → c.flags.websocketState.isReady = true

variable {s s' : DeferState} {quiet : Bool} {α : Type} {p : Code α}

/-- An upgraded WebSocket stays one, and under `quiet` no input is deferred. -/
structure Defers (quiet : Prop) (s s' : DeferState) : Prop where
  upgraded : Upgraded s.comm → Upgraded s'.comm
  deferred : quiet → s'.comm.deferred = true → s.comm.deferred = true

theorem Defers.refl (quiet : Prop) (s : DeferState) : Defers quiet s s := ⟨id, fun _ => id⟩

theorem Defers.trans {quiet : Prop} {s s' s'' : DeferState} (h : Defers quiet s s')
    (h' : Defers quiet s' s'') : Defers quiet s s'' :=
  ⟨fun hs => h'.upgraded (h.upgraded hs), fun hq hd => h.deferred hq (h'.deferred hq hd)⟩

/-- The plan of the proof. -/
def deferOutline (setup : Setup) (quiet : Bool) : (slotSystem setup observeDeferred).Outline where
  guard := awaitGuard setup quiet
  always _ := True
  inner := Announced
  grows s s' := Defers (quiet = true) s s'
  rest := Announced

/-- A step that keeps `has_deferred_input` and does not defer. -/
theorem Announced.keep (hi : Announced s) (hnotes : s'.notes = s.notes)
    (hdeferred : s'.comm.deferred = true → s.comm.deferred = true) : Announced s' := by
  intro hd
  rw [hnotes]
  exact hi (hdeferred hd)

/-- Every effect but the pair that defers the input. -/
theorem Announced.step (setup : Setup) (allowed : StoreKind → Prop) {β : Type} {e : SlotEffect β}
    {a : Answer} {b : β} {c' : CommAbstract} (hspec : storeSpec setup allowed β s.comm e)
    (hi : Announced s) (hexec : slotExec e a s.comm = some (b, c')) :
    Announced (s.after observeDeferred e a b c') ∧
      Defers True s (s.after observeDeferred e a b c') := by
  have hkeep {n : Bool} (hn : n = s.notes) (tasks : List Task)
      (hd : c'.deferred = true → s.comm.deferred = true) (hu : Upgraded s.comm → Upgraded c') :
      Announced ⟨c', tasks, n⟩ ∧ Defers True s ⟨c', tasks, n⟩ :=
    ⟨hi.keep hn hd, ⟨hu, fun _ => hd⟩⟩
  have hqueue (he : e.replaces = false) (tasks : List Task) :
      Announced ⟨c', tasks, s.notes⟩ ∧ Defers True s ⟨c', tasks, s.notes⟩ := by
    have hstill := still_of_exec he hexec
    have hlive : c'.still.live = s.comm.still.live := by rw [hstill]
    have hflag : c'.still.deferred = s.comm.still.deferred := by rw [hstill]
    refine hkeep rfl tasks (fun hd => hflag.symm.trans hd) fun hu hl => ?_
    exact isReady_of_exec he hexec (hu (hlive.symm.trans hl))
  cases e with
  | setSlot _ =>
    cases a <;> cases hexec
    obtain ⟨kind, _, hne, hstore⟩ := hspec
    refine hkeep rfl _ (fun hd => ?_) fun hu hl => hstore.isReady (hu (hstore.live ▸ hl))
    obtain ⟨hl, hd⟩ := Bool.and_eq_true_iff.mp hd
    exact Bool.and_eq_true_iff.mpr ⟨hstore.live ▸ hl, hstore.deferredInbound hne hd⟩
  | setHasDeferred _ => exact absurd hspec id
  | addBio _ _ _ _ => exact absurd hspec id
  | remove =>
    cases a <;> cases hexec
    have hdead : (ifLive s.comm commAbstractRemove).live = false := by
      unfold ifLive
      split
      · rfl
      · next hl => simpa using hl
    refine hkeep rfl _ (fun hd => ?_) fun _ hl => ?_
    · rw [CommAbstract.deferred, hdead] at hd
      cases hd
    · rw [hdead] at hl
      cases hl
  | _ => exact hqueue rfl _

/-- Code keeps the invariant; it defers input only if it has a store for that. -/
theorem wp_of_stores {allowed : StoreKind → Prop} {keeps : Prop}
    (hkeeps : keeps → quiet = true ∧ ¬ allowed .defer) {Q : α → CommAbstract → Prop}
    (hp : StoresTo setup allowed p Q s.comm) (hi : Announced s) :
    (deferOutline setup quiet).wp p
      (fun a s' => Q a s'.comm ∧ Announced s' ∧ Defers keeps s s') s := by
  refine Outline.wp_of_pairsTo (O := deferOutline setup quiet) _ _ (Defers keeps)
    (Defers.refl keeps) (fun _ _ _ => Defers.trans)
    (fun s s' h => ⟨h.upgraded, fun hk => h.deferred (hkeeps hk).1⟩)
    (fun e s a b s' hspec hi _ hexec => ?_) (fun e e' s hpair hi a b s' _ hexec => ?_)
    (pairsTo_of_meetsTo hp) hi
  · obtain ⟨hexec, hs'⟩ := exec_eq_some setup hexec
    obtain ⟨hann, hdef⟩ := Announced.step setup allowed hspec hi hexec
    rw [hs']
    exact ⟨True.intro, hann, hdef.upgraded, fun _ => hdef.deferred True.intro⟩
  · refine ⟨True.intro, fun a' b' s'' _ hexec' => ⟨True.intro, ?_⟩⟩
    cases e <;> cases e' <;> try exact absurd hpair id
    obtain ⟨hallowed, hstore, rfl⟩ := hpair
    cases a <;> cases hexec
    cases a' <;> cases hexec'
    refine ⟨fun _ => rfl, fun hu hl => ?_, fun hk => absurd hallowed (hkeeps hk).2⟩
    exact hstore.isReady (hu (hstore.live ▸ hl))

/-- The kinds of stores that do not defer the input. -/
def noDefer (kind : StoreKind) : Prop := kind ≠ .defer

theorem noDefer_of_ordinary (kind : StoreKind) (h : kind.ordinary = true) : noDefer kind := by
  rintro rfl
  cases h

theorem noDefer_of_steady (kind : StoreKind) (h : kind.steady = true) : noDefer kind :=
  steady_of_ordinary noDefer_of_ordinary kind h

theorem noDeferPermits : PermitsInput setup (storeRequirement setup noDefer) :=
  storePermits noDefer_of_steady

/-- Code without a store that defers the input. -/
theorem wp_noDefer (hp : Stores setup noDefer p) (hi : Announced s) :
    (deferOutline setup quiet).wp p (fun _ s' => Announced s' ∧ Defers (quiet = true) s s') s :=
  Outline.wp_mono _ (wp_of_stores (fun hq => ⟨hq, fun h => h rfl⟩) (hp s.comm) hi) fun _ _ h => h.2

/-- Any code; the postcondition may speak of its answer. -/
theorem wp_anyStoresTo {R : α → Prop}
    (hp : StoresTo setup (fun _ => True) p (fun a _ => R a) s.comm) (hi : Announced s) :
    (deferOutline setup quiet).wp p (fun a s' => R a ∧ Announced s' ∧ Defers False s s') s :=
  wp_of_stores (fun h => h.elim) hp hi

theorem wp_anyStores (hp : Stores setup (fun _ => True) p) (hi : Announced s) :
    (deferOutline setup quiet).wp p (fun _ s' => Announced s' ∧ Defers False s s') s :=
  Outline.wp_mono _ (wp_anyStoresTo (hp s.comm) hi) fun _ _ h => h.2

/-- Away from the phase that takes input, only the entries that mark the slot have a store that defers
its input. -/
theorem noDefer_of_not_defers {x : Entry} (phase : LoopPhase) (hphase : phase ≠ .input)
    (hruns : x.runsIn phase = true) (hx : x.defers = false) : ∀ kind ∈ x.kinds, noDefer kind := by
  rintro kind hkind rfl
  cases x with
  | api caller call =>
    cases call <;> simp_all [Entry.kinds, ApiCall.kinds, Entry.defers, Entry.awaits]
  | completeTask task =>
    simp only [Entry.kinds] at hkind
    cases hc : task.completion <;> simp_all [Completion.kinds, Entry.defers]
  | _ => simp_all [Entry.kinds, Entry.runsIn]

theorem deferOutline_stable (setup : Setup) (quiet : Bool) : (deferOutline setup quiet).Stable where
  grows_refl := Defers.refl _
  grows_trans _ _ _ := Defers.trans
  call e p hu s hi := by
    refine wp_noDefer (stores_of_unfold noDefer_of_steady ⟨nofun, nofun⟩ ⟨nofun, fun _ => nofun⟩ hu) hi
  foreign x hx s hi _ hg := by
    cases x with
    | api caller call =>
      cases hawaits : (Entry.api caller call).awaits with
      | true =>
        have hquiet : quiet = false := by
          cases quiet with
          | true => simp [deferOutline, awaitGuard, hawaits] at hg
          | false => rfl
        refine Outline.wp_mono _ (wp_anyStores (stores_entryCode (x := .api caller call)
          (fun _ _ => True.intro) rfl fun _ _ => True.intro) hi) fun _ _ h => ?_
        exact ⟨h.1, h.2.upgraded, fun hq => by rw [hquiet] at hq; cases hq⟩
      | false =>
        exact wp_noDefer (stores_entryCode (x := .api caller call) noDefer_of_ordinary rfl
          (noDefer_of_not_defers .waiting nofun rfl hawaits)) hi
    | _ => cases hx

/-! ### The input path in relaxed mode -/

/-- A change of the record that keeps its flags. -/
theorem Defers.of_flags {quiet : Prop} (hlive : s'.comm.live = s.comm.live)
    (hdeferred : s'.comm.flags.deferredInbound = s.comm.flags.deferredInbound)
    (hstate : s'.comm.flags.websocketState = s.comm.flags.websocketState) : Defers quiet s s' := by
  refine ⟨fun hu hl => ?_, fun _ hd => ?_⟩
  · rw [hstate]
    exact hu (hlive ▸ hl)
  · rwa [CommAbstract.deferred, hlive, hdeferred] at hd

/-- The bytes of an upgraded WebSocket do not pass the Telnet parser when they are buffered. -/
theorem wp_refillLoop_upgraded (fuel pos : Nat) (src : Bytes) (paused : Bool) (hi : Announced s)
    (hu : Upgraded s.comm) :
    (deferOutline setup true).wp (refillLoop setup fuel pos src paused)
      (fun _ s' => Announced s' ∧ Defers True s s') s := by
  induction fuel generalizing pos src s with
  | zero => exact ⟨hi, Defers.refl True s⟩
  | succ fuel ih =>
    rw [refillLoop]
    split
    · exact ⟨hi, Defers.refl True s⟩
    · refine wp_deref True.intro fun hlive => ?_
      have hparse : parsesTelnet s.comm.flags paused = false := by simp [parsesTelnet, hu hlive]
      dsimp only
      split
      · exact wp_store True.intro ⟨hi, Defers.of_flags rfl rfl rfl⟩
      · split
        · exact wp_store True.intro ⟨hi, Defers.of_flags rfl rfl rfl⟩
        · rw [hparse, if_neg Bool.false_ne_true]
          refine wp_store True.intro ?_
          exact Outline.wp_mono _ (ih _ _ (s := { s with comm := _ }) hi hu) fun _ t ht =>
            ⟨ht.1, ht.2.upgraded, ht.2.deferred⟩

theorem wp_refillInboundBuffersFromSrc_upgraded (src : Bytes) (hi : Announced s)
    (hu : Upgraded s.comm) :
    (deferOutline setup true).wp (refillInboundBuffersFromSrc setup src)
      (fun _ s' => Announced s' ∧ Defers True s s') s := by
  refine wp_guard True.intro (fun _ => ⟨hi, Defers.refl True s⟩) fun hlive => ?_
  refine wp_store True.intro ((Outline.wp_bind _ _ _ _ _).mpr ?_)
  refine Outline.wp_mono _ (wp_refillLoop_upgraded _ _ _ _ hi hu) fun remaining t ⟨ht, hst⟩ => ?_
  have hdefers : Defers True s t := ⟨hst.upgraded, hst.deferred⟩
  refine wp_deref True.intro fun hlive' => ?_
  rw [hst.upgraded hu hlive', Bool.not_true, Bool.and_false, if_neg Bool.false_ne_true]
  exact ⟨ht, hdefers⟩

variable (budget : Option Nat)

/-- The end of the character branch. -/
def charEnd (ibb : InboundBuffer) (n : Nat) (result : DispatchResult) : Code Bool :=
  if result = .queueFull then do
    deferInbound
    pure false
  else do
    match ← commGuard with
    | none => pure false
    | some comm => do
      setComm { comm with inbound := { ibb with buf := ibb.buf.consume n } :: comm.inbound.tail }
      pure false

/-- Only a slot whose input mode cannot be set makes the character branch fail, and then nothing has been
dispatched. -/
theorem wp_charInput (hi : Announced s) :
    (deferOutline setup true).wp (charInput setup budget)
      (fun failed s' => Announced s' ∧ Defers (failed = true) s s') s := by
  -- once the character is dispatched the branch does not fail
  have hend (result : DispatchResult) (ibb : InboundBuffer) (n : Nat) (c : CommAbstract) :
      StoresTo setup (fun _ => True) (charEnd ibb n result) (fun failed _ => failed = false) c := by
    rw [charEnd]
    split
    · exact meetsTo_bind (meetsTo_of_meets (anyPermits.deferInbound (anyGrants _)) fun _ _ => .done rfl)
    · refine meetsTo_bind (anyPermits.commGuard ?_)
      split
      · exact .done rfl
      · next comm hcomm =>
          split at hcomm <;> cases hcomm
          exact meetsTo_store .input (anyGrants _) rfl rfl (.done rfl)
  unfold charInput
  split
  · exact ⟨hi, Defers.refl _ s⟩
  · refine wp_deref True.intro fun _ => ?_
    split
    · exact ⟨hi, Defers.refl _ s⟩
    · split
      · exact ⟨hi, Defers.refl _ s⟩
      · rw [Outline.wp_bind]
        refine Outline.wp_mono _ (wp_noDefer (noDeferPermits.commSetLineInput true) hi)
          fun set t h => ?_
        obtain ⟨ht, hst⟩ := h
        split
        · exact ⟨ht, hst.upgraded, fun _ => hst.deferred rfl⟩
        · refine Outline.wp_mono _ (wp_anyStoresTo (R := fun failed => failed = false) ?_ ht)
            fun failed t' h => ⟨h.2.1, fun hu => h.2.2.upgraded (hst.upgraded hu), fun hf => ?_⟩
          · refine meetsTo_bind (anyPermits.commDeref fun _ => ?_)
            dsimp only
            split
            · exact meetsTo_bind (meetsTo_of_meets (anyPermits.commInvokeInboundMessage
                (fun _ => anyGrants _) _) fun result => hend result _ _)
            · exact meetsTo_bind (meetsTo_of_meets (anyPermits.invokeCharInputMessage
                (anyGrants _) _) fun result => hend result _ _)
          · rw [h.1] at hf
            cases hf

/-- What `comm_process_input` leaves: if it does not answer that the input is deferred, it is not. -/
structure Settles (s : DeferState) (result : ProcessResult) (s' : DeferState) : Prop where
  announced : Announced s'
  upgraded : Upgraded s.comm → Upgraded s'.comm
  settled : result ≠ .deferred → s'.comm.deferred = false

/-- From a state without deferred input to one, by code that does not defer. -/
theorem Defers.settled {quiet : Prop} (h : Defers quiet s s') (hq : quiet)
    (hs : s.comm.deferred = false) : s'.comm.deferred = false := by
  by_contra hd
  rw [h.deferred hq (by simpa using hd)] at hs
  cases hs

theorem deferred_of_not_live {c : CommAbstract} (h : c.live = false) : c.deferred = false := by
  rw [CommAbstract.deferred, h, Bool.false_and]

theorem wp_processText (hi : Announced s) (hs : s.comm.deferred = false) :
    (deferOutline setup true).wp (processText setup budget) (Settles s) s := by
  -- the common end looks at the flag itself
  have hend (t : DeferState) (ht : Announced t) (hu : Upgraded s.comm → Upgraded t.comm) :
      (deferOutline setup true).wp textEnd (Settles s) t := by
    refine wp_guard True.intro (fun hdead => ⟨ht, hu, fun _ => deferred_of_not_live hdead⟩)
      fun _ => ⟨ht, hu, fun hne => ?_⟩
    cases hd : t.comm.flags.deferredInbound with
    | true => simp [hd] at hne
    | false => rw [CommAbstract.deferred, hd, Bool.and_false]
  refine wp_deref True.intro fun _ => ?_
  split
  · rw [Outline.wp_bind]
    refine Outline.wp_mono _ (wp_anyStores (anyPermits.lineLoop (fun _ => anyGrants _) _ budget) hi)
      fun _ t h => hend t h.1 h.2.upgraded
  · rw [Outline.wp_bind]
    refine Outline.wp_mono _ (wp_charInput budget hi) fun failed t h => ?_
    obtain ⟨ht, hst⟩ := h
    dsimp only
    split
    · next hfailed => exact ⟨ht, hst.upgraded, fun _ => hst.settled hfailed hs⟩
    · exact hend t ht hst.upgraded

theorem wp_processInputWith {ready : Code ProcessResult}
    (hready : ∀ t, Announced t → t.comm.deferred = false → Upgraded t.comm →
      (deferOutline setup true).wp ready (Settles t) t) (hi : Announced s) :
    (deferOutline setup true).wp (processInputWith setup ready budget) (Settles s) s := by
  refine wp_guard True.intro (fun hdead => ⟨hi, id, fun _ => deferred_of_not_live hdead⟩)
    fun _ => ?_
  dsimp only
  split
  · exact ⟨hi, id, fun h => absurd rfl h⟩
  · rw [Program.effect_bind]
    refine wp_effect rfl rfl fun a busy c' _ hexec => ⟨True.intro, ?_⟩
    cases a <;> cases hexec
    split
    · exact ⟨hi, id, fun h => absurd rfl h⟩
    · refine wp_modify True.intro True.intro fun _ => ?_
      -- the flag is clear from here on
      generalize ht : SlotState.mk _ _ _ = t
      have hann : Announced t := by
        subst ht
        exact fun hd => absurd hd (by simp [CommAbstract.deferred])
      have hclear : t.comm.deferred = false := by
        subst ht
        simp [CommAbstract.deferred]
      have hup : Upgraded s.comm → Upgraded t.comm := by
        subst ht
        exact id
      have hcalled (t' : DeferState) (hann' : Announced t') (hclear' : t'.comm.deferred = false)
          (hup' : Upgraded s.comm → Upgraded t'.comm) (hu : Upgraded t'.comm) :
          (deferOutline setup true).wp ready (Settles s) t' :=
        Outline.wp_mono _ (hready t' hann' hclear' hu) fun _ _ h =>
          ⟨h.announced, fun hs => h.upgraded (hup' hs), h.settled⟩
      split
      · rw [Outline.wp_bind]
        refine Outline.wp_mono _ (wp_noDefer (noDeferPermits.commTryUpgradeWebsocket)
          hann) fun _ t' ⟨hann', htt'⟩ => ?_
        have hup' : Upgraded s.comm → Upgraded t'.comm := fun hs => htt'.upgraded (hup hs)
        have hclear' := htt'.settled rfl hclear
        refine wp_guard True.intro (fun _ => ⟨hann', hup', fun _ => hclear'⟩) fun _ => ?_
        dsimp only
        split
        · next hr => exact hcalled t' hann' hclear' hup' fun _ => hr
        · exact ⟨hann', hup', fun _ => hclear'⟩
      · split
        · next hr =>
            refine hcalled t hann hclear hup ?_
            subst ht
            exact fun _ => hr
        · exact Outline.wp_mono _ (wp_processText budget hann hclear) fun _ _ h =>
            ⟨h.announced, fun hs => h.upgraded (hup hs), h.settled⟩

theorem wp_commProcessDecodedInput (hi : Announced s) :
    (deferOutline setup true).wp (commProcessDecodedInput setup budget) (Settles s) s :=
  wp_processInputWith budget (fun _ ht hclear _ => wp_processText budget ht hclear) hi

section Relaxed

variable (hrelaxed : setup.relaxed = true)
include hrelaxed

/-- A hook that is put into the queue leaves the record alone. -/
theorem wp_dispatch_relaxed (call : HookCall) (completion : Completion) (hi : Announced s) :
    (deferOutline setup true).wp (mudmuxExecutionDispatch setup call completion)
      (fun _ s' => Announced s' ∧ Defers True s s') s := by
  rw [mudmuxExecutionDispatch, if_pos hrelaxed]
  refine wp_effect rfl rfl fun a result c' _ hexec => ⟨True.intro, ?_⟩
  rw [slotExec_of_leavesRecord rfl hexec]
  exact ⟨hi, Defers.of_flags rfl rfl rfl⟩

theorem wp_commDispatchTelnetSubnegotiation (neg : TelnetNegotiation) (hi : Announced s) :
    (deferOutline setup true).wp (commDispatchTelnetSubnegotiation setup neg)
      (fun result s' => Announced s' ∧ Defers (result ≠ .queueFull) s s') s := by
  unfold commDispatchTelnetSubnegotiation
  split
  · exact ⟨hi, Defers.refl _ s⟩
  · split
    · exact ⟨hi, Defers.refl _ s⟩
    · rw [Outline.wp_bind]
      refine Outline.wp_mono _ (wp_dispatch_relaxed hrelaxed _ _ hi) fun result t ⟨ht, hst⟩ => ?_
      dsimp only
      split
      · next hfull =>
          rw [Outline.wp_bind]
          refine Outline.wp_mono _ (wp_anyStores (anyPermits.deferInbound (anyGrants _)) ht)
            fun _ t' ⟨ht', hst'⟩ => ⟨ht', fun hu => hst'.upgraded (hst.upgraded hu), fun hne => ?_⟩
          exact absurd hfull hne
      · exact ⟨ht, hst.upgraded, fun _ => hst.deferred True.intro⟩

theorem wp_decodeWebsocketTelnetPayload (fuel : Nat) (payload : Bytes) (hi : Announced s) :
    (deferOutline setup true).wp (decodeWebsocketTelnetPayload setup fuel payload)
      (fun result s' => Announced s' ∧ Defers (result ≠ .queueFull) s s') s := by
  induction fuel generalizing payload s with
  | zero => exact ⟨hi, Defers.refl _ s⟩
  | succ fuel ih =>
    rw [decodeWebsocketTelnetPayload]
    split
    · exact ⟨hi, Defers.refl _ s⟩
    · refine wp_deref True.intro fun hlive => ?_
      dsimp only
      split
      · exact ⟨hi, Defers.refl _ s⟩
      · -- from any state that only the options have touched
        have hrest (neg : TelnetNegotiation) (t : DeferState) (ht : Announced t)
            (hst : Defers True s t) : (deferOutline setup true).wp (do
              let result ← commDispatchTelnetSubnegotiation setup neg
              if !result.accepted then pure result
              else do
                modifyWebsocket fun w => { w with decodedInput := w.decodedInput ++
                  (commTelnetProcessInbound payload s.comm.flags.telnetState .zero).dest }
                decodeWebsocketTelnetPayload setup fuel (payload.drop
                  (commTelnetProcessInbound payload s.comm.flags.telnetState .zero).consumed))
              (fun result s' => Announced s' ∧ Defers (result ≠ .queueFull) s s') t := by
          rw [Outline.wp_bind]
          refine Outline.wp_mono _ (wp_commDispatchTelnetSubnegotiation hrelaxed neg ht)
            fun result t' h => ?_
          obtain ⟨ht', htt'⟩ := h
          split
          · exact ⟨ht', fun hu => htt'.upgraded (hst.upgraded hu), fun hne hd =>
              hst.deferred True.intro (htt'.deferred hne hd)⟩
          · next hok =>
              have hne : result ≠ .queueFull := by
                rintro rfl
                exact hok rfl
              refine wp_modify True.intro True.intro fun _ => ?_
              refine Outline.wp_mono _ (ih _ (s := { t' with comm := _ }) ht')
                fun r t'' h => ⟨h.1, fun hu => ?_, fun hr hd => ?_⟩
              · exact h.2.upgraded (htt'.upgraded (hst.upgraded hu))
              · exact hst.deferred True.intro (htt'.deferred hne (h.2.deferred hr hd))
        refine wp_store True.intro ?_
        split
        · rw [Outline.wp_bind]
          refine Outline.wp_mono _ (wp_noDefer (noDeferPermits.commProcessTelnetOptions_live _).meets
            (s := { s with comm := _ }) hi) fun _ t h => ?_
          exact hrest _ t h.1 ⟨h.2.upgraded, fun _ => h.2.deferred rfl⟩
        · exact hrest _ _ hi (Defers.of_flags rfl rfl rfl)

omit hrelaxed in
/-- On an upgraded WebSocket: deferred input is announced, and under `clear` there is none. -/
structure Clears (clear : Prop) (s : DeferState) : Prop where
  announced : Announced s
  upgraded : Upgraded s.comm
  settled : clear → s.comm.deferred = false

omit hrelaxed in
theorem Clears.step {clear clear' quiet : Prop} (h : Clears clear s) (hs' : Announced s' ∧ Defers quiet s s')
    (hclear : clear' → clear ∧ quiet) : Clears clear' s' :=
  ⟨hs'.1, hs'.2.upgraded h.upgraded, fun h' => hs'.2.settled (hclear h').2 (h.settled (hclear h').1)⟩

omit hrelaxed in
theorem Clears.any {clear : Prop} (h : Clears True s) : Clears clear s :=
  { h with settled := fun _ => h.settled True.intro }

omit hrelaxed in
theorem Clears.wp {clear : Prop} (h : Clears clear s) (hp : Stores setup noDefer p) :
    (deferOutline setup true).wp p (fun _ => Clears clear) s :=
  Outline.wp_mono _ (wp_noDefer hp h.announced) fun _ _ ht => h.step ht fun hclear => ⟨hclear, rfl⟩

/-- The input path of an upgraded WebSocket. -/
theorem frameRules_deferred (budget : Option Nat) :
    FrameRules setup budget (fun p Q s => (deferOutline setup true).wp p Q s) (Clears True)
      (fun result => Clears (result ≠ .queueFull)) (fun result => Clears (result ≠ .deferred)) where
  toLogic := Outline.logic _
  deref h hf := wp_deref True.intro fun _ => hf _ _ h
  store _ h := h.wp (noDeferPermits.modifyWebsocket _)
  decode fuel payload h :=
    Outline.wp_mono _ (wp_decodeWebsocketTelnetPayload hrelaxed fuel payload h.announced) fun _ _ ht =>
      h.step ht fun hne => ⟨True.intro, hne⟩
  kept h hne := { h with settled := fun _ => h.settled hne }
  defer h := Outline.wp_mono _ (wp_anyStores (anyPermits.deferInbound (anyGrants _)) h.announced)
    fun _ _ ht => h.step ht fun hne => absurd rfl hne
  error h := h.any
  next h hagain := by
    refine wp_guard True.intro (fun _ => h.any) fun _ => ?_
    rw [Program.effect_bind]
    refine wp_effect rfl rfl fun a busy c' _ hexec => ⟨True.intro, ?_⟩
    cases a <;> cases hexec
    split
    · exact h.any
    · exact hagain _ h
  ok h := h.any
  closed h := h.any
  more h := { h with settled := fun _ => h.settled nofun }
  frame wire h := h.wp (noDeferPermits.commWebsocketProcessInbound wire 1)
  drop _ h := h.wp (noDeferPermits.modifyWebsocket _)
  queueClose _ h := h.wp (noDeferPermits.effect rfl)
  callClose h := h.wp (noDeferPermits.effect rfl)
  refill src h := Outline.wp_mono _ (wp_refillInboundBuffersFromSrc_upgraded src h.announced h.upgraded)
    fun _ _ ht => h.step ht fun _ => ⟨True.intro, True.intro⟩
  text h := Outline.wp_mono _ (wp_commProcessDecodedInput budget h.announced) fun _ _ ht =>
    ⟨ht.announced, ht.upgraded h.upgraded, ht.settled⟩
  back h := h.wp (noDeferPermits.modifyComm .input noDeferPermits.input rfl fun _ => rfl)
  receive h := h.wp (noDeferPermits.modifyComm .input noDeferPermits.input rfl fun _ => rfl)

theorem wp_commProcessInput (budget : Option Nat) (hi : Announced s) :
    (deferOutline setup true).wp (commProcessInput setup budget) (Settles s) s := by
  refine wp_processInputWith budget (fun t ht hclear hu => ?_) hi
  exact Outline.wp_mono _ ((frameRules_deferred hrelaxed budget).commProcessWebsocketInput
    ⟨ht, hu, fun _ => hclear⟩) fun _ _ h => { h with upgraded := fun _ => h.upgraded }

/-- `comm_resume_deferred_input` is right about the slot it leaves. -/
theorem wp_commResumeSlot (hi : Announced s) :
    (deferOutline setup true).wp (commResumeSlot setup)
      (fun answer s' => Announced s' ∧ (answer = false → s'.comm.deferred = false)) s := by
  refine wp_guard True.intro (fun hdead => ⟨hi, fun _ => deferred_of_not_live hdead⟩) fun _ => ?_
  dsimp only
  split
  · next hclear => exact ⟨hi, fun _ => by simp_all [CommAbstract.deferred]⟩
  · rw [Program.effect_bind]
    refine wp_effect rfl rfl fun a busy c' _ hexec => ⟨True.intro, ?_⟩
    cases a <;> cases hexec
    split
    · exact ⟨hi, nofun⟩
    · refine wp_modify True.intro True.intro fun _ => ?_
      rw [Outline.wp_bind]
      refine Outline.wp_mono _ (wp_commProcessInput hrelaxed none (s := { s with comm := _ })
        fun hd => absurd hd (by simp [CommAbstract.deferred, CommAbstract.mapFlags]))
        fun result t h => ?_
      split
      · next hresult =>
          have hclear : t.comm.deferred = false :=
            h.settled (by rintro rfl; simp at hresult)
          rw [Program.effect_bind]
          exact wp_call rfl h.announced fun _ t' ht' htt' => ⟨ht', fun _ => htt'.settled rfl hclear⟩
      · refine wp_guard True.intro (fun hdead => ⟨h.announced, fun _ => deferred_of_not_live hdead⟩)
          fun _ => ⟨h.announced, fun hclear => ?_⟩
        rw [CommAbstract.deferred, hclear, Bool.and_false]

end Relaxed

/-! ### Whole runs -/

/-- A new connection begins without deferred input. -/
theorem wp_addBio_deferred {rbio wbio wbioFd : Bool} {flags : Flags} {k : Unit → Code Unit}
    (hflags : flags.deferredInbound = false) (hk : Stores setup noDefer (k ())) :
    (deferOutline setup quiet).wp (.perform (.addBio rbio wbio wbioFd flags) k)
      (fun _ s' => Announced s' ∧ (quiet = true → s'.comm.deferred = false)) s := by
  refine wp_effect rfl rfl fun a b c' _ hexec => ⟨True.intro, ?_⟩
  have hclear : c'.deferred = false := by
    cases a <;> cases hexec
    simp [CommAbstract.deferred, commAbstractAddBio, hflags]
  refine Outline.wp_mono _ (wp_noDefer hk (s := s.after _ _ a b c') fun hd => ?_) fun _ t h =>
    ⟨h.1, fun hq => h.2.settled hq hclear⟩
  rw [show (s.after observeDeferred _ a b c').comm.deferred = false from hclear] at hd
  cases hd

/-- What the code of an entry does to the flag and to the variable. -/
theorem wp_entryCode_deferred {x : Entry} (hopen : x.connectsOpen = true)
    (hquiet : quiet = true → ∀ kind ∈ x.kinds, noDefer kind) (hi : Announced s) :
    (deferOutline setup quiet).wp (entryCode setup x) (fun _ s' => Announced s' ∧
      (quiet = true → s'.comm.deferred = true → s.comm.deferred = true)) s := by
  cases hx : x.connects with
  | false =>
    cases quiet with
    | false =>
      exact Outline.wp_mono _ (wp_anyStores (stores_entryCode (fun _ _ => True.intro) hx
        fun _ _ => True.intro) hi) fun _ _ h => ⟨h.1, nofun⟩
    | true =>
      exact Outline.wp_mono _ (wp_noDefer (stores_entryCode noDefer_of_ordinary hx (hquiet rfl))
        hi) fun _ _ h => ⟨h.1, h.2.deferred⟩
  | true =>
    have hclear {s' : DeferState}
        (h : Announced s' ∧ (quiet = true → s'.comm.deferred = false)) : Announced s' ∧
          (quiet = true → s'.comm.deferred = true → s.comm.deferred = true) :=
      ⟨h.1, fun hq hd => by rw [h.2 hq] at hd; cases hd⟩
    cases x with
    | accept flags =>
      have hflags : flags.deferredInbound = false := by simpa [Entry.connectsOpen] using hopen
      refine wp_guard True.intro (fun _ => ?_) fun _ => ⟨hi, fun _ => id⟩
      exact Outline.wp_mono _ (wp_addBio_deferred hflags
        (noDeferPermits.commInvokeConnect (grants_of_allowed nofun) (grants_of_allowed nofun))) fun _ _ => hclear
    | addBio rbio wbio wbioFd flags =>
      have hflags : flags.deferredInbound = false := by simpa [Entry.connectsOpen] using hopen
      rw [entryCode]
      split
      · exact Outline.wp_mono _ (wp_addBio_deferred hflags (meets_pure ())) fun _ _ => hclear
      · exact ⟨hi, fun _ => id⟩
    | _ => cases hx

/-- Deferred input is announced, and `comm_resume_deferred_input` remembers it of a slot that it has
passed. -/
structure Remembered (s : DeferState) (phase : LoopPhase) : Prop where
  announced : Announced s
  passed : ∀ anyDeferred, phase = .resuming true anyDeferred → s.comm.deferred = true →
    anyDeferred = true

theorem Remembered.turn {phase : LoopPhase} {l : LoopTurn} {r : (loopSystem setup).Result l}
    (hrelaxed : setup.relaxed = true) (h : Remembered s phase)
    (henabled : (loopSystem setup).enabled s phase l = true)
    (hturn : (flagGuard setup).turn s phase l = true)
    (hcode : Completes ((flagGuard setup).code phase l) ((loopSystem setup).code l) s r s') :
    Remembered (SectionSystem.Config.next (T := loopSystem setup) phase l r s').state
      (SectionSystem.Config.next (T := loopSystem setup) phase l r s').control := by
  cases l with
  | wake | beginResume | skipResume | block =>
    obtain ⟨_, rfl⟩ := hcode.of_done
    exact ⟨h.announced, nofun⟩
  | otherDefers =>
    obtain ⟨_, rfl⟩ := hcode.of_done
    exact ⟨fun _ => rfl, h.passed⟩
  | otherDeferred =>
    obtain ⟨_, rfl⟩ := hcode.of_done
    cases phase with
    | resuming passed anyDeferred =>
      refine ⟨h.announced, ?_⟩
      rintro _ heq _
      cases heq
      rfl
    | _ => cases henabled
  | endResume =>
    obtain ⟨_, rfl⟩ := hcode.of_done
    cases phase with
    | resuming passed anyDeferred =>
      replace henabled : passed = true := henabled
      subst henabled
      exact ⟨fun hd => h.passed anyDeferred rfl hd, nofun⟩
    | _ => cases henabled
  | resumeSlot =>
    cases phase with
    | resuming passed anyDeferred =>
      have hguard : (flagGuard setup).code (.resuming passed anyDeferred) .resumeSlot
          = awaitGuard setup true := by
        cases passed <;> cases anyDeferred <;> rfl
      rw [hguard] at hcode
      obtain ⟨hann, hanswer⟩ := Completes.of_wp (O := deferOutline setup true)
        (deferOutline_stable setup true) hcode (wp_commResumeSlot hrelaxed h.announced)
      refine ⟨hann, ?_⟩
      rintro _ heq hd
      cases heq
      replace hd : s'.comm.deferred = true := hd
      cases hr : r with
      | true => exact Bool.or_true anyDeferred
      | false =>
        rw [hanswer hr] at hd
        cases hd
    | _ => cases henabled
  | code x =>
    replace henabled : (x.runsIn phase && x.connectsOpen && entryEnabled setup s x) = true :=
      henabled
    simp only [Bool.and_eq_true] at henabled
    obtain ⟨⟨hruns, hopen⟩, _⟩ := henabled
    have hquiet : phase.vulnerable (.code x) = true → ∀ kind ∈ x.kinds, noDefer kind := by
      intro hv
      obtain rfl : phase = .resuming true false := by
        unfold LoopPhase.vulnerable at hv
        split at hv <;> simp_all
      exact noDefer_of_not_defers (.resuming true false) nofun hruns (by simpa [flagGuard] using hturn)
    obtain ⟨hann, hkeeps⟩ := Completes.of_wp
      (O := deferOutline setup (phase.vulnerable (.code x)))
      (deferOutline_stable setup _) hcode (wp_entryCode_deferred hopen hquiet h.announced)
    refine ⟨hann, fun anyDeferred hphase hd => ?_⟩
    replace hphase : phase = .resuming true anyDeferred := hphase
    subst hphase
    cases anyDeferred with
    | true => rfl
    | false => exact h.passed false rfl (hkeeps rfl hd)

/-- No deferral is lost in runs whose steps meet `flagGuard`: the variable is set in every state in which
some input is deferred, and so when `comm_resume_deferred_input` has returned. -/
theorem deferral_flag_is_not_lost (hrelaxed : setup.relaxed = true)
    (c : (loopSystem setup).Config)
    (hrun : SectionSystem.Run (flagGuard setup) (freshLoop setup) c)
    (hlive : c.state.comm.live = true) (hdeferred : c.state.comm.flags.deferredInbound = true) :
    c.state.notes = true := by
  have hinv : Remembered c.state c.control :=
    SectionSystem.invariant_of_run Remembered
      (fun _ _ _ _ _ h henabled hturn hcode => Remembered.turn hrelaxed h henabled hturn hcode)
      ⟨nofun, nofun⟩ hrun
  exact hinv.announced (Bool.and_eq_true_iff.mpr ⟨hlive, hdeferred⟩)

/-! ### A completion behind the pass -/

/-- A relaxed-mode server with a connect hook. -/
def connectSetup : Setup where
  relaxed := true
  registered hook := hook = .connect
  console := false
  fileInputs := false
  consoleTty := false
  acceptKey := id
  mbrlen _ := .complete 1

/-- The scheduler accepts every hook, and nothing else happens. -/
def acceptingScheduler (_ : LoopTurn) {β : Type} (_ : DeferState) :
    SlotEffect β → (slotSystem connectSetup observeDeferred).Move
  | .enqueue _ _ => .answer (.dispatch .queued)
  | .slotBusy => .answer (.bool false)
  | _ => .answer .unit

/-- The connect hook of the first connection of a slot. -/
def connectTask : Task := ⟨.connect, .connect, 1⟩

/-- The connect hook returns while the loop takes its input. -/
def completesBefore : List LoopTurn :=
  [.wake, .code (.accept {}), .code (.startTask connectTask), .code (.completeTask connectTask)]

/-- The connect hook returns while `comm_resume_deferred_input`, called for another slot, is behind this
one. -/
def completesBehind : List LoopTurn :=
  [.wake, .code (.accept {}), .code (.startTask connectTask), .otherDefers, .beginResume, .resumeSlot,
    .code (.completeTask connectTask), .endResume]

/-- `comm_resume_deferred_input` has returned, the slot is marked and `has_deferred_input` is clear. -/
theorem completion_behind_resume_is_forgotten :
    ∃ c, SectionSystem.Run (SectionSystem.Guard.trivial (loopSystem connectSetup))
        (freshLoop connectSetup) c ∧
      (c.control = .output && c.state.comm.live && c.state.comm.flags.deferredInbound
        && !c.state.notes) = true :=
  SectionSystem.exists_run_of_playTurns _ acceptingScheduler 100 completesBehind
    (freshLoop connectSetup) _ (by decide +kernel)

/-- The same completion in front of the pass is announced. -/
theorem deferral_flag_is_not_lost_connect :
    ∃ c, SectionSystem.Run (flagGuard connectSetup) (freshLoop connectSetup) c ∧
      c.state.comm.flags.deferredInbound = true ∧ c.state.notes = true := by
  obtain ⟨c, hrun, hc⟩ := SectionSystem.exists_run_of_playTurns (flagGuard connectSetup)
    acceptingScheduler 100 completesBefore (freshLoop connectSetup)
    (fun c => c.state.comm.live && c.state.comm.flags.deferredInbound) (by decide +kernel)
  obtain ⟨hlive, hdeferred⟩ := Bool.and_eq_true_iff.mp hc
  exact ⟨c, hrun, hdeferred, deferral_flag_is_not_lost rfl c hrun hlive hdeferred⟩

end Mudmux.Comm
