import Mudmux.Proofs.DeferralFlag

/-!
# `Mudmux.Proofs.DeliverableInput`: what the strict-mode loop sleeps on

In strict mode a character that was dispatched leaves its slot with deferred input, so that the loop comes
back to the rest. The loop comes back once: `comm_resume_deferred_input` runs in the same iteration, and when it
dispatches another character, the slot is marked again and nothing wakes the loop for it. A hook that
switches to character input again after every character so gets two characters of a read, and the others
with the next read.

In the runs without that step no input is deferred when the loop blocks. Behind the turn of
`comm_resume_deferred_input` the slot is not marked: on a plain slot the pass reads lines, which does not
defer, or finds no character; on a WebSocket it looks at the input mode again for every message, so there
the slot also has to stay in line input (`passOutline`).
-/

set_option autoImplicit false

namespace Mudmux.Comm

open Mudmux.Lib
open CallbackSystem

variable {setup : Setup}

variable {s : DeferState} {socket : Bool}

/-! ### The condition -/

/-- The entry is a call of `comm_set_char_input`. -/
def Entry.setsCharInput : Entry → Bool
  | .api _ .setCharInput => true
  | _ => false

/-- `comm_resume_deferred_input` is behind its turn on the slot. -/
def LoopPhase.settled : LoopPhase → Bool
  | .resuming passed _ => passed
  | .output | .waiting => true
  | .input => false

/-- `comm_process_input` will dispatch no character before the mode of the slot changes: the slot is in line
input, or it holds no complete character, and of a WebSocket no input at all. -/
def CommAbstract.resumable (setup : Setup) (c : CommAbstract) : Bool :=
  if c.flags.websocketState.isReady then
    c.flags.lineInput || ((c.websocket.getD {}).pendingWire ++ commCopyInboundDataPrefix c sizeMax
      ++ (c.websocket.getD {}).decodedInput).isEmpty
  else !c.flags.enableWebsocket && (c.flags.lineInput || !c.hasMessage setup)

/-- The moves during the turn of `comm_resume_deferred_input`: a slot with deferred input is not busy, no hook
requests an await, and none switches an upgraded WebSocket to character input. -/
def passGuard (setup : Setup) : (slotSystem setup observeDeferred).Guard where
  entry s x :=
    !x.awaits && !(x.setsCharInput && s.comm.live && s.comm.flags.websocketState.isReady)
  effect s e a :=
    match e with
    | .slotBusy => !(s.comm.deferred && a = .bool true)
    | _ => true

/-- The condition on the steps. -/
def resumeGuard (setup : Setup) : (loopSystem setup).Guard where
  turn s phase turn :=
    match turn with
    | .resumeSlot => !s.comm.deferred || s.comm.resumable setup
    | .code x => !(phase.settled && x.awaits)
    | _ => true
  code phase turn :=
    match turn with
    | .resumeSlot => passGuard setup
    | _ => awaitGuard setup phase.settled

/-! ### The pass -/

/-- An upgraded WebSocket in line input. -/
def LineSocket (c : CommAbstract) : Prop :=
  c.live = true → c.flags.websocketState.isReady = true ∧ c.flags.lineInput = true

/-- No input is deferred, and a slot that is a WebSocket stays one in line input. -/
structure InputSettled (socket : Bool) (s : DeferState) : Prop where
  clear : s.comm.deferred = false
  line : socket = true → LineSocket s.comm

/-- The plan for the turn of `comm_resume_deferred_input`, from where it has cleared the flag on. -/
def passOutline (setup : Setup) (socket : Bool) : (slotSystem setup observeDeferred).Outline where
  guard := passGuard setup
  always _ := True
  inner := InputSettled socket
  grows _ _ := True
  rest _ := True

/-- The kinds of stores that neither defer the input nor switch a WebSocket to character input. -/
def settledKind (socket : Bool) (kind : StoreKind) : Prop :=
  kind ≠ .defer ∧ (socket = true → kind ≠ .charInput)

theorem settledKind_of_ordinary (socket : Bool) (kind : StoreKind) (h : kind.ordinary = true) :
    settledKind socket kind := by
  refine ⟨?_, fun _ => ?_⟩ <;> rintro rfl <;> cases h

theorem settledKind_of_steady (socket : Bool) (kind : StoreKind) (h : kind.steady = true) :
    settledKind socket kind :=
  steady_of_ordinary (settledKind_of_ordinary socket) kind h

theorem LineSocket.keep {c c' : CommAbstract} (h : LineSocket c) (hlive : c'.live = c.live)
    (hready : c.flags.websocketState.isReady = true → c'.flags.websocketState.isReady = true)
    (hline : c.flags.lineInput = true → c'.flags.lineInput = true) : LineSocket c' := by
  intro hl
  obtain ⟨hr, hi⟩ := h (hlive ▸ hl)
  exact ⟨hready hr, hline hi⟩

/-- A change of the record that keeps its flags. -/
theorem InputSettled.of_flags {s s' : DeferState} (h : InputSettled socket s)
    (hlive : s'.comm.live = s.comm.live) (hflags : s'.comm.flags = s.comm.flags) :
    InputSettled socket s' := by
  refine ⟨?_, fun hs => (h.line hs).keep hlive ?_ ?_⟩
  · rw [CommAbstract.deferred, hlive, hflags]
    exact h.clear
  · rw [hflags]
    exact id
  · rw [hflags]
    exact id

theorem InputSettled.step (setup : Setup) {β : Type} {e : SlotEffect β} {a : Answer} {b : β}
    {c' : CommAbstract} (hspec : storeSpec setup (settledKind socket) β s.comm e)
    (hi : InputSettled socket s) (hexec : slotExec e a s.comm = some (b, c')) :
    InputSettled socket (s.after observeDeferred e a b c') := by
  -- the input of a slot that is not deferred before is deferred by no other store
  have hkeep (hlive : c'.live = s.comm.live)
      (hd : c'.flags.deferredInbound = true → s.comm.flags.deferredInbound = true) :
      c'.deferred = false := by
    have hclear := hi.clear
    rw [CommAbstract.deferred] at hclear ⊢
    rw [hlive]
    cases hl : s.comm.live with
    | false => rfl
    | true =>
      rw [hl, Bool.true_and] at hclear
      rw [Bool.true_and]
      exact Bool.eq_false_iff.mpr fun h => by rw [hd h] at hclear; cases hclear
  have hqueue (he : e.replaces = false) : InputSettled socket (s.after observeDeferred e a b c') := by
    have hstill := still_of_exec he hexec
    have hlive : c'.still.live = s.comm.still.live := by rw [hstill]
    have hflag : c'.still.flags.deferredInbound = s.comm.still.flags.deferredInbound := by
      rw [hstill]
    have hline : c'.still.flags.lineInput = s.comm.still.flags.lineInput := by rw [hstill]
    refine ⟨hkeep hlive fun h => hflag.symm.trans h, fun hs => ?_⟩
    exact (hi.line hs).keep hlive (isReady_of_exec he hexec) fun h => hline.trans h
  cases e with
  | setSlot _ =>
    cases a <;> cases hexec
    obtain ⟨kind, hkind, hne, hstore⟩ := hspec
    refine ⟨hkeep hstore.live (hstore.deferredInbound hne), fun hs => ?_⟩
    exact (hi.line hs).keep hstore.live hstore.isReady (hstore.lineInput (hkind.2 hs))
  | addBio _ _ _ _ => exact absurd hspec id
  | remove =>
    cases a <;> cases hexec
    have hdead : (ifLive s.comm commAbstractRemove).live = false := by
      unfold ifLive
      split
      · rfl
      · next hl => simpa using hl
    refine ⟨deferred_of_not_live hdead, fun _ hl => ?_⟩
    rw [show (ifLive s.comm commAbstractRemove).live = true from hl] at hdead
    cases hdead
  | _ => exact hqueue rfl

/-- Code whose stores are all of a settled kind. -/
theorem wp_settled {α : Type} {p : Code α} {Q : α → CommAbstract → Prop}
    (hp : StoresTo setup (settledKind socket) p Q s.comm) (hi : InputSettled socket s) :
    (passOutline setup socket).wp p (fun a s' => Q a s'.comm ∧ InputSettled socket s') s := by
  refine Outline.wp_mono _ (Outline.wp_of_pairsTo (O := passOutline setup socket) _ _
    (fun _ _ => True) (fun _ => True.intro) (fun _ _ _ _ _ => True.intro) (fun _ _ _ => True.intro)
    (fun e s a b s' hspec hi _ hexec => ?_) (fun e e' s hpair => ?_) (pairsTo_of_meetsTo hp) hi)
    fun _ _ h => ⟨h.1, h.2.1⟩
  · obtain ⟨hexec, hs'⟩ := exec_eq_some setup hexec
    rw [hs']
    exact ⟨True.intro, hi.step setup hspec hexec, True.intro⟩
  · cases e <;> cases e' <;> first | exact absurd hpair.1.1 (fun h => h rfl) | exact absurd hpair id

theorem wp_settledStores {α : Type} {p : Code α} (hp : Stores setup (settledKind socket) p)
    (hi : InputSettled socket s) :
    (passOutline setup socket).wp p (fun _ s' => InputSettled socket s') s :=
  Outline.wp_mono _ (wp_settled (hp s.comm) hi) fun _ _ h => h.2

theorem settledPermits (setup : Setup) (socket : Bool) :
    PermitsInput setup (storeRequirement setup (settledKind socket)) :=
  storePermits (settledKind_of_steady socket)

/-- The kinds of a public call that is neither an await nor, on a WebSocket, a switch to character
input. -/
theorem settledKind_of_call {caller : Caller} {call : ApiCall}
    (hawaits : (Entry.api caller call).awaits = false)
    (hchar : socket = true → (Entry.api caller call).setsCharInput = false) :
    ∀ kind ∈ (Entry.api caller call).kinds, settledKind socket kind := by
  intro kind hkind
  cases call <;> simp_all [Entry.kinds, ApiCall.kinds, Entry.awaits, Entry.setsCharInput, settledKind]

theorem passOutline_stable (setup : Setup) (socket : Bool) : (passOutline setup socket).Stable where
  grows_refl _ := True.intro
  grows_trans _ _ _ _ _ := True.intro
  call e p hu s hi := by
    refine Outline.wp_mono _ (wp_settledStores (stores_of_unfold (settledKind_of_steady socket) ?_ ?_
      hu) hi) fun _ _ h => ⟨h, True.intro⟩
    · exact ⟨⟨nofun, fun _ => nofun⟩, ⟨nofun, fun _ => nofun⟩⟩
    · exact ⟨⟨nofun, fun _ => nofun⟩, fun _ => ⟨nofun, fun _ => nofun⟩⟩
  foreign x hx s hi _ hg := by
    cases x with
    | api caller call =>
      replace hg : (!(Entry.api caller call).awaits && !((Entry.api caller call).setsCharInput
        && s.comm.live && s.comm.flags.websocketState.isReady)) = true := hg
      simp only [Bool.and_eq_true, Bool.not_eq_true'] at hg
      obtain ⟨hawaits, hchar⟩ := hg
      by_cases hmode : socket = true ∧ (Entry.api caller call).setsCharInput = true
      · -- the guard lets a switch to character input pass only when the WebSocket is gone
        have hdead : s.comm.live = false := by
          by_contra hlive
          have hlive : s.comm.live = true := by simpa using hlive
          rw [hmode.2, hlive, (hi.line hmode.1 hlive).1] at hchar
          cases hchar
        cases call <;> simp only [Entry.setsCharInput, Bool.false_eq_true, and_false] at hmode
        show (passOutline setup socket).wp (commSetCharInput setup >>= fun _ => pure ()) _ s
        rw [Outline.wp_bind]
        refine wp_guard True.intro (fun _ => ⟨hi, True.intro⟩) fun hlive => ?_
        rw [hdead] at hlive
        cases hlive
      · refine Outline.wp_mono _ (wp_settledStores (stores_entryCode (x := .api caller call)
          (settledKind_of_ordinary socket) rfl (settledKind_of_call hawaits fun hs => ?_)) hi)
          fun _ _ h => ⟨h, True.intro⟩
        exact Bool.eq_false_iff.mpr fun h => hmode ⟨hs, h⟩
    | _ => cases hx

/-- What is permitted in relaxed mode only. -/
theorem strictly {R : Prop} (hstrict : setup.relaxed = false) (hrelaxed : setup.relaxed = true) : R := by
  rw [hstrict] at hrelaxed
  cases hrelaxed

/-- Lines of text are read without deferring the input. -/
theorem stores_processText_line (socket : Bool) (hstrict : setup.relaxed = false)
    (budget : Option Nat) {c : CommAbstract} (hc : c.flags.lineInput = true) :
    StoresTo setup (settledKind socket) (processText setup budget) (fun _ _ => True) c := by
  have P := settledPermits setup socket
  refine meetsTo_bind (P.commDeref fun _ => ?_)
  rw [if_pos hc]
  refine meets_bind (P.lineLoop (strictly hstrict) _ budget) (fun _ => ?_) c
  exact P.guard (meets_pure _) fun c _ => meets_pure _ c

/-- Without a complete character nothing is read in character input. -/
theorem stores_processText_char (socket : Bool) (budget : Option Nat) {c : CommAbstract}
    (hc : c.flags.lineInput = false) (hnone : ∀ ibb rest, c.inbound = ibb :: rest →
      findCharInputSequence setup c.flags.enableAnsi ibb.buf.data = none) :
    StoresTo setup (settledKind socket) (processText setup budget) (fun _ _ => True) c := by
  have P := settledPermits setup socket
  have hend : Stores setup (settledKind socket) textEnd :=
    P.guard (meets_pure _) fun c _ => meets_pure _ c
  refine meetsTo_bind (P.commDeref fun _ => ?_)
  rw [if_neg (by simp [hc])]
  refine meetsTo_bind ?_
  rw [charInput]
  split
  · exact .done (hend c)
  · refine meetsTo_bind (P.commDeref fun _ => ?_)
    split
    · exact .done (hend c)
    · next ibb rest hinbound =>
        rw [hnone ibb rest hinbound]
        exact .done (hend c)

/-- The common beginning of `_comm_process_input`, up to what is done with the input. -/
theorem wp_processInputWith_settled {ready : Code ProcessResult} (budget : Option Nat)
    (hi : InputSettled socket s) (hpath : ∀ t : DeferState, t = { s with comm := { s.comm with
        flags := { s.comm.flags with deferredInbound := false }
        inbound := skipNonDataHeadBuffers s.comm.inbound } } → InputSettled socket t → t.comm.live = true →
      (passOutline setup socket).wp (
        if s.comm.flags.enableWebsocket && !s.comm.flags.websocketState.isReady then do
          commTryUpgradeWebsocket setup
          match ← commGuard with
          | none => pure .closed
          | some comm => if comm.flags.websocketState.isReady then ready else pure .ok
        else if s.comm.flags.websocketState.isReady then ready
        else processText setup budget) (fun _ s' => InputSettled socket s') t) :
    (passOutline setup socket).wp (processInputWith setup ready budget)
      (fun _ s' => InputSettled socket s') s := by
  refine wp_guard True.intro (fun _ => hi) fun hlive => ?_
  dsimp only
  split
  · exact hi
  · rw [Program.effect_bind]
    refine wp_effect rfl rfl fun a busy c' _ hexec => ⟨True.intro, ?_⟩
    cases a <;> cases hexec
    split
    · exact hi
    · refine wp_modify True.intro True.intro fun hlive' => hpath _ rfl ⟨?_, fun hs => ?_⟩ hlive'
      · simp [CommAbstract.deferred]
      · exact (hi.line hs).keep rfl id id

section Strict

variable (hstrict : setup.relaxed = false)
include hstrict

/-- A line WebSocket reads its text. -/
theorem wp_commProcessDecodedInput_line (budget : Option Nat) (hi : InputSettled true s) :
    (passOutline setup true).wp (commProcessDecodedInput setup budget)
      (fun _ s' => InputSettled true s') s := by
  refine wp_processInputWith_settled budget hi fun t ht hit hlive => ?_
  subst ht
  obtain ⟨hready, hline⟩ := hi.line rfl hlive
  rw [hready, Bool.not_true, Bool.and_false, if_neg Bool.false_ne_true, if_pos rfl]
  refine Outline.wp_mono _ (wp_settled (stores_processText_line true hstrict budget hline) hit)
    fun _ _ h => h.2

/-- The input path of a WebSocket in line input. -/
theorem frameRules_settled (budget : Option Nat) :
    FrameRules setup budget (fun p Q s => (passOutline setup true).wp p Q s) (InputSettled true)
      (fun result s => InputSettled true s ∧ result ≠ .queueFull) (fun _ => InputSettled true) where
  toLogic := Outline.logic _
  deref h hf := wp_deref True.intro fun _ => hf _ _ h
  store _ h := wp_settledStores ((settledPermits setup true).modifyWebsocket _) h
  decode fuel payload h := Outline.wp_mono _ (wp_settled
    ((settledPermits setup true).decodeWebsocketTelnetPayloadTo (strictly hstrict) fuel payload _) h)
    fun _ _ ht => ⟨ht.2, ht.1 hstrict⟩
  kept h _ := h.1
  defer h := absurd rfl h.2
  error h := h
  next h hagain := by
    refine wp_guard True.intro (fun _ => h) fun _ => ?_
    rw [Program.effect_bind]
    refine wp_effect rfl rfl fun a busy c' _ hexec => ⟨True.intro, ?_⟩
    cases a <;> cases hexec
    split
    · exact h
    · exact hagain _ h
  ok h := h
  closed h := h
  more h := h
  frame wire h := wp_settledStores ((settledPermits setup true).commWebsocketProcessInbound wire 1) h
  drop _ h := wp_settledStores ((settledPermits setup true).modifyWebsocket _) h
  queueClose _ h := wp_settledStores ((settledPermits setup true).effect rfl) h
  callClose h := wp_settledStores ((settledPermits setup true).effect rfl) h
  refill src h := wp_settledStores
    ((settledPermits setup true).refillInboundBuffersFromSrc (strictly hstrict) src) h
  text h := wp_commProcessDecodedInput_line hstrict budget h
  back h := wp_settledStores ((settledPermits setup true).modifyComm .input
    (settledPermits setup true).input rfl fun _ => rfl) h
  receive h := wp_settledStores ((settledPermits setup true).modifyComm .input
    (settledPermits setup true).input rfl fun _ => rfl) h

/-- `comm_process_input` on a WebSocket in line input. -/
theorem wp_commProcessInput_line (hi : InputSettled true s) :
    (passOutline setup true).wp (commProcessInput setup none) (fun _ s' => InputSettled true s') s := by
  refine wp_processInputWith_settled none hi fun t ht hit hlive => ?_
  subst ht
  obtain ⟨hready, hline⟩ := hi.line rfl hlive
  rw [hready, Bool.not_true, Bool.and_false, if_neg Bool.false_ne_true, if_pos rfl]
  exact (frameRules_settled hstrict none).commProcessWebsocketInput hit

/-- `comm_process_input` on a slot that is no WebSocket. -/
theorem wp_commProcessInput_plain (hi : InputSettled false s)
    (hready : s.comm.flags.websocketState.isReady = false) (hres : s.comm.resumable setup = true) :
    (passOutline setup false).wp (commProcessInput setup none) (fun _ s' => InputSettled false s') s := by
  simp only [CommAbstract.resumable, CommAbstract.hasMessage, hready, Bool.false_eq_true, if_false,
    Bool.and_eq_true, Bool.not_eq_true'] at hres
  obtain ⟨hplain, hmode⟩ := hres
  refine wp_processInputWith_settled none hi fun t ht hit _ => ?_
  rw [hready, hplain, Bool.false_and, if_neg Bool.false_ne_true, if_neg Bool.false_ne_true]
  have hstores : StoresTo setup (settledKind false) (processText setup none) (fun _ _ => True)
      t.comm := by
    subst ht
    cases hline : s.comm.flags.lineInput with
    | true => exact stores_processText_line false hstrict none hline
    | false =>
      refine stores_processText_char false none hline fun ibb rest hinbound => ?_
      replace hinbound : skipNonDataHeadBuffers s.comm.inbound = ibb :: rest := hinbound
      simpa [hline, hplain, holdsMessage, CommAbstract.headData, hinbound] using hmode
  exact Outline.wp_mono _ (wp_settled hstores hit) fun _ _ h => h.2

end Strict

/-- A chain without its first buffers of other bands has the same data. -/
theorem copyInboundData_skipNonData (limit : Nat) (chain : List InboundBuffer) :
    copyInboundData limit (skipNonDataHeadBuffers chain) = copyInboundData limit chain := by
  induction chain with
  | nil => rfl
  | cons ibb rest ih =>
    rw [skipNonDataHeadBuffers]
    split
    · next hband =>
        rw [ih, copyInboundData]
        split
        · next hlimit =>
            subst hlimit
            cases rest <;> simp [copyInboundData]
        · simp [hband]
    · rfl

/-- `comm_process_input` on a WebSocket without any input. -/
theorem wp_commProcessInput_empty (hi : InputSettled false s)
    (hready : s.comm.flags.websocketState.isReady = true)
    (hwire : (s.comm.websocket.getD {}).pendingWire = [])
    (hcopy : commCopyInboundDataPrefix s.comm sizeMax = [])
    (hdecoded : (s.comm.websocket.getD {}).decodedInput = []) :
    (passOutline setup false).wp (commProcessInput setup none) (fun _ s' => InputSettled false s') s := by
  refine wp_processInputWith_settled none hi fun t ht hit _ => ?_
  rw [hready, Bool.not_true, Bool.and_false, if_neg Bool.false_ne_true, if_pos rfl]
  refine wp_modify True.intro True.intro fun _ => ?_
  have hempty : (t.comm.websocket.getD {}).pendingWire ++ commCopyInboundDataPrefix t.comm sizeMax
      = [] := by
    subst ht
    rw [commCopyInboundDataPrefix] at hcopy ⊢
    rw [copyInboundData_skipNonData, hcopy, List.append_nil]
    exact hwire
  have hdecoded' : (t.comm.websocket.getD {}).decodedInput = [] := by
    subst ht
    exact hdecoded
  rw [Outline.wp_bind]
  refine wp_deref True.intro fun _ => ?_
  dsimp only
  rw [Option.getD_some, hdecoded', if_pos List.isEmpty_nil]
  show (passOutline setup false).wp (do
    let comm ← commDeref
    websocketInputLoop setup none ((comm.websocket.getD {}).pendingWire.length + 1)) _ _
  refine wp_deref True.intro fun _ => ?_
  refine wp_deref True.intro fun _ => ?_
  dsimp only
  rw [Option.getD_some, hempty, if_pos List.isEmpty_nil]
  exact hit.of_flags rfl rfl

/-- Behind its turn of `comm_resume_deferred_input` the input of the slot is not deferred. -/
theorem wp_commResumeSlot_strict (hstrict : setup.relaxed = false)
    (hres : s.comm.deferred = true → s.comm.resumable setup = true) :
    (passOutline setup (s.comm.flags.websocketState.isReady && s.comm.flags.lineInput)).wp
      (commResumeSlot setup) (fun _ s' => s'.comm.deferred = false) s := by
  refine wp_guard True.intro deferred_of_not_live fun hlive => ?_
  dsimp only
  split
  · next hclear =>
      show s.comm.deferred = false
      simp_all [CommAbstract.deferred]
  · next hdeferred =>
      have hdeferred : s.comm.deferred = true := by simp_all [CommAbstract.deferred]
      rw [Program.effect_bind]
      refine wp_effect rfl rfl fun a busy c' hg hexec => ⟨True.intro, ?_⟩
      cases a <;> cases hexec
      -- the guard leaves only the answer that the slot is not busy
      obtain rfl : busy = false := by
        cases busy with
        | false => rfl
        | true => simp [passOutline, passGuard, hdeferred] at hg
      rw [if_neg Bool.false_ne_true]
      refine wp_modify True.intro True.intro fun _ => ?_
      generalize ht : SlotState.mk _ _ _ = t
      have hclear : t.comm.deferred = false := by
        subst ht
        simp [CommAbstract.deferred, CommAbstract.mapFlags]
      have hres' : t.comm.resumable setup = true := by
        subst ht
        exact hres hdeferred
      have hready : t.comm.flags.websocketState.isReady = s.comm.flags.websocketState.isReady := by
        subst ht
        rfl
      have hline : t.comm.flags.lineInput = s.comm.flags.lineInput := by
        subst ht
        rfl
      rw [← hready, ← hline]
      -- what follows `comm_process_input`
      have hrest {socket : Bool} (result : ProcessResult) (t' : DeferState) (hi : InputSettled socket t') :
          (passOutline setup socket).wp (
            if result = .closed || result = .error then do
              let _ ← Program.effect .callClose
              pure false
            else do
              match ← commGuard with
              | none => pure false
              | some comm => pure comm.flags.deferredInbound)
            (fun _ s' => s'.comm.deferred = false) t' := by
        split
        · rw [Program.effect_bind]
          exact wp_call rfl hi fun _ t'' hi' _ => hi'.clear
        · exact wp_guard True.intro (fun _ => hi.clear) fun _ => hi.clear
      rw [Outline.wp_bind]
      cases hr : t.comm.flags.websocketState.isReady with
      | false =>
        exact Outline.wp_mono _ (wp_commProcessInput_plain hstrict ⟨hclear, by simp⟩ hr hres') hrest
      | true =>
        cases hl : t.comm.flags.lineInput with
        | true =>
          exact Outline.wp_mono _ (wp_commProcessInput_line hstrict ⟨hclear, fun _ _ => ⟨hr, hl⟩⟩)
            hrest
        | false =>
          simp only [CommAbstract.resumable, hr, hl, if_true, Bool.false_or,
            List.isEmpty_iff, List.append_eq_nil_iff] at hres'
          exact Outline.wp_mono _ (wp_commProcessInput_empty ⟨hclear, by simp⟩ hr hres'.1.1 hres'.1.2
            hres'.2) hrest

/-! ### Whole runs -/

/-- Deferred input is announced, and there is none behind the turn of `comm_resume_deferred_input`. -/
structure Taken (s : DeferState) (phase : LoopPhase) : Prop where
  announced : Announced s
  settled : phase.settled = true → s.comm.deferred = false

theorem Taken.turn {s s' : DeferState} {phase : LoopPhase} {l : LoopTurn}
    {r : (loopSystem setup).Result l} (hstrict : setup.relaxed = false) (h : Taken s phase)
    (henabled : (loopSystem setup).enabled s phase l = true)
    (hturn : (resumeGuard setup).turn s phase l = true)
    (hcode : Completes ((resumeGuard setup).code phase l) ((loopSystem setup).code l) s r s') :
    Taken (SectionSystem.Config.next (T := loopSystem setup) phase l r s').state
      (SectionSystem.Config.next (T := loopSystem setup) phase l r s').control := by
  cases l with
  | wake | beginResume =>
    obtain ⟨_, rfl⟩ := hcode.of_done
    exact ⟨h.announced, nofun⟩
  | skipResume =>
    obtain ⟨_, rfl⟩ := hcode.of_done
    -- the loop saw that nothing is announced
    replace henabled : (decide (phase = .input) && !s'.notes) = true := henabled
    simp only [Bool.and_eq_true, Bool.not_eq_true'] at henabled
    refine ⟨h.announced, fun _ => Bool.eq_false_iff.mpr fun hd => ?_⟩
    rw [h.announced hd] at henabled
    cases henabled.2
  | otherDefers =>
    obtain ⟨_, rfl⟩ := hcode.of_done
    exact ⟨fun _ => rfl, h.settled⟩
  | otherDeferred =>
    obtain ⟨_, rfl⟩ := hcode.of_done
    cases phase with
    | resuming passed anyDeferred => exact ⟨h.announced, h.settled⟩
    | _ => cases henabled
  | endResume =>
    obtain ⟨_, rfl⟩ := hcode.of_done
    cases phase with
    | resuming passed anyDeferred =>
      have hclear : s'.comm.deferred = false := h.settled henabled
      refine ⟨fun hd => ?_, fun _ => hclear⟩
      rw [show s'.comm.deferred = true from hd] at hclear
      cases hclear
    | _ => cases henabled
  | block =>
    obtain ⟨_, rfl⟩ := hcode.of_done
    replace henabled : decide (phase = .output) = true := henabled
    obtain rfl := of_decide_eq_true henabled
    exact ⟨h.announced, fun _ => h.settled rfl⟩
  | resumeSlot =>
    cases phase with
    | resuming passed anyDeferred =>
      replace hturn : (!s.comm.deferred || s.comm.resumable setup) = true := hturn
      have hclear : s'.comm.deferred = false := by
        refine Completes.of_wp (O := passOutline setup _) (passOutline_stable setup _) hcode
          (wp_commResumeSlot_strict hstrict fun hd => ?_)
        rwa [hd] at hturn
      refine ⟨fun hd => ?_, fun _ => hclear⟩
      rw [show s'.comm.deferred = true from hd] at hclear
      cases hclear
    | _ => cases henabled
  | code x =>
    replace henabled : (x.runsIn phase && x.connectsOpen && entryEnabled setup s x) = true :=
      henabled
    replace hturn : (!(phase.settled && x.awaits)) = true := hturn
    simp only [Bool.and_eq_true] at henabled
    obtain ⟨⟨hruns, hopen⟩, hx⟩ := henabled
    have hquiet : phase.settled = true → ∀ kind ∈ x.kinds, noDefer kind := by
      intro hphase
      rw [hphase] at hturn
      refine noDefer_of_not_defers phase (by rintro rfl; cases hphase) hruns ?_
      cases x with
      | completeTask task => simp [entryEnabled, hstrict] at hx
      | _ => simpa [Entry.defers] using hturn
    obtain ⟨hann, hkeeps⟩ := Completes.of_wp (O := deferOutline setup phase.settled)
      (deferOutline_stable setup _) hcode (wp_entryCode_deferred hopen hquiet h.announced)
    refine ⟨hann, fun hphase => Bool.eq_false_iff.mpr fun hd => ?_⟩
    replace hphase : phase.settled = true := hphase
    have := h.settled hphase
    rw [hkeeps hphase hd] at this
    cases this

/-- In strict mode the loop does not block on a message it could deliver, in runs whose steps meet
`resumeGuard`. -/
theorem strict_loop_never_sleeps_on_input (hstrict : setup.relaxed = false)
    (c : (loopSystem setup).Config)
    (hrun : SectionSystem.Run (resumeGuard setup) (freshLoop setup) c) :
    sleepsOnInput setup c = false := by
  have hinv : Taken c.state c.control :=
    SectionSystem.invariant_of_run Taken
      (fun _ _ _ _ _ h henabled hturn hcode => Taken.turn hstrict h henabled hturn hcode)
      ⟨nofun, fun _ => rfl⟩ hrun
  refine Bool.eq_false_iff.mpr fun hsleeps => ?_
  simp only [sleepsOnInput, Bool.and_eq_true, decide_eq_true_eq] at hsleeps
  obtain ⟨⟨⟨⟨hwaiting, hlive⟩, _⟩, hdeferred⟩, _⟩ := hsleeps
  have hclear := hinv.settled (by rw [hwaiting]; rfl)
  simp [CommAbstract.deferred, hlive, hdeferred] at hclear

/-! ### Three characters in one read -/

/-- A strict-mode server whose inbound hook switches back to character input every time. -/
def keySetup : Setup where
  relaxed := false
  registered hook := hook = .messageInbound
  console := false
  fileInputs := false
  consoleTty := false
  acceptKey := id
  mbrlen _ := .complete 1

/-- The peer sends the bytes in one read, and the inbound hook calls `comm_set_char_input`. -/
def keyStrokes (chunk : Chunk) (_ : LoopTurn) {β : Type} (s : DeferState) :
    SlotEffect β → (slotSystem keySetup observeDeferred).Move
  | .transportRead => .answer (.read (.data chunk))
  | .slotBusy => .answer (.bool false)
  | .drain => .answer (.writes [])
  | .runHook _ =>
    if s.comm.flags.lineInput then .enter (.api ⟨some .messageInbound, true⟩ .setCharInput)
    else .answer (.bool true)
  | _ => .answer .unit

/-- One iteration of the loop, with the read event of a new connection. -/
def readIteration : List LoopTurn :=
  [.wake, .code (.accept {}), .code (.event ⟨true, false, false⟩), .beginResume, .resumeSlot, .endResume,
    .code .flush, .block]

/-- The loop blocks on the last character of `abc`. -/
theorem third_character_is_slept_on :
    ∃ c, SectionSystem.Run (SectionSystem.Guard.trivial (loopSystem keySetup)) (freshLoop keySetup) c ∧
      (sleepsOnInput keySetup c && c.state.comm.headData = [99]) = true :=
  SectionSystem.exists_run_of_playTurns _ (keyStrokes ⟨[97, 98, 99], by decide⟩) 200 readIteration
    (freshLoop keySetup) _ (by decide +kernel)

/-- A single character is taken, and the loop blocks with nothing to do. -/
theorem strict_loop_never_sleeps_on_input_key :
    ∃ c, SectionSystem.Run (resumeGuard keySetup) (freshLoop keySetup) c ∧
      c.control = .waiting ∧ sleepsOnInput keySetup c = false := by
  obtain ⟨c, hrun, hc⟩ := SectionSystem.exists_run_of_playTurns (resumeGuard keySetup)
    (keyStrokes ⟨[97], by decide⟩) 200 readIteration (freshLoop keySetup)
    (fun c => c.control = .waiting) (by decide +kernel)
  exact ⟨c, hrun, of_decide_eq_true hc, strict_loop_never_sleeps_on_input rfl c hrun⟩

end Mudmux.Comm
