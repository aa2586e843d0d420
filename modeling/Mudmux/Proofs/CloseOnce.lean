import Mudmux.Proofs.ClosingSlot

/-!
# `Mudmux.Proofs.CloseOnce`: a connection is disconnected once and then removed

The outline over `Mudmux.Proofs.ClosingSlot`. `InPhase` holds whenever foreign code or a called function
takes over, and `Closes` is what such code keeps: it does not undo a close, and in strict mode it leaves
no disconnect hook half done that it did not find so. Most code leaves the phase of the close alone, by
the kinds of its stores (`wp_ordinary`). What is left are the functions that change it:
`comm_invoke_transport_ready`, `comm_invoke_connect`, `comm_close_impl` and the completion of the
disconnect hook.
-/

set_option autoImplicit false

namespace Mudmux.Server

open Mudmux.Lib
open CallbackSystem
open Mudmux.Comm (CommAbstract SlotEffect Code StoreKind StoresTo HookCall HookType)
open Mudmux.Execution (Stage Point SlotExecution staged Turns)

variable {setup : Setup} {g : StepGuard CloseNotes} {fifo : Prop}

variable {s₀ : State CloseNotes} {c : CommAbstract} {task : SlotExecution}

/-! ### The plan -/

/-- What holds whenever foreign code or a called function takes over. -/
structure InPhase (setup : Setup) (fifo : Prop) (s : State CloseNotes) : Prop extends
    Sound setup fifo s where
  fits : (closePhase s.comm).Fits setup s.disconnects s.notes

/-- What such code keeps. -/
structure Closes (setup : Setup) (s s' : State CloseNotes) : Prop where
  accepted : s.notes.accepted = true → s'.notes.accepted = true
  returned : s.notes.returned = true → s'.notes.returned = true
  live : s'.comm.live = true → s.comm.live = true
  closing : (closePhase s.comm).closing = true → s'.comm.live = true →
    (closePhase s'.comm).closing = true
  whole : setup.comm.relaxed = false → closePhase s.comm ≠ .during → closePhase s'.comm ≠ .during

theorem Closes.refl (s : State CloseNotes) : Closes setup s s :=
  ⟨id, id, id, fun h _ => h, fun _ h => h⟩

variable {s s' : State CloseNotes}

theorem Closes.trans {s'' : State CloseNotes} (h : Closes setup s s') (h' : Closes setup s' s'') :
    Closes setup s s'' where
  accepted ha := h'.accepted (h.accepted ha)
  returned hr := h'.returned (h.returned hr)
  live hl := h.live (h'.live hl)
  closing hc hl := h'.closing (h.closing hc (h'.live hl)) hl
  whole hstrict hp := h'.whole hstrict (h.whole hstrict hp)

/-- A step within a phase. -/
theorem Closes.of_kept (hphase : closePhase s'.comm = closePhase s.comm)
    (hkept : Kept s.disconnects s.notes s'.disconnects s'.notes) : Closes setup s s' where
  accepted ha := hkept.accepted.trans ha
  returned := hkept.returned
  live := (live_iff_of_closePhase hphase).mp
  closing hc _ := by rwa [hphase]
  whole _ hp := by rwa [hphase]

theorem InPhase.of_kept (h : InPhase setup fifo s) (hsound : Sound setup fifo s')
    (hphase : closePhase s'.comm = closePhase s.comm)
    (hkept : Kept s.disconnects s.notes s'.disconnects s'.notes) :
    InPhase setup fifo s' ∧ Closes setup s s' := by
  refine ⟨⟨hsound, ?_⟩, .of_kept hphase hkept⟩
  rw [hphase]
  exact h.fits.kept hkept

/-- The plan of the proof. -/
def closeOutline (setup : Setup) (g : StepGuard CloseNotes) (fifo : Prop) :
    (system setup (observeClose setup)).Outline where
  guard := g.guard setup (observeClose setup)
  always := Sound setup fifo
  inner := InPhase setup fifo
  grows := Closes setup
  rest := InPhase setup fifo

/-! ### Moves and single effects -/

variable {s₁ : State CloseNotes}

/-- The threads move. -/
theorem Sound.moved (hfifo : fifo → InTurn setup g) (h : Sound setup fifo s)
    (hm : Moved setup (observeClose setup) g s s₁) :
    Sound setup fifo s₁ ∧ Kept s.disconnects s.notes s₁.disconnects s₁.notes :=
  hm.invariant
    (P := fun t => Sound setup fifo t ∧ Kept s.disconnects s.notes t.disconnects t.notes)
    (fun t m t' ht hg hmove => by
      obtain ⟨hsound, hkept⟩ := ht.1.move hfifo hg hmove
      exact ⟨hsound, ht.2.trans hkept⟩) ⟨h, Kept.refl _ _⟩

theorem InPhase.moved (hfifo : fifo → InTurn setup g) (h : InPhase setup fifo s)
    (hm : Moved setup (observeClose setup) g s s₁) : InPhase setup fifo s₁ ∧ Closes setup s s₁ := by
  obtain ⟨hsound, hkept⟩ := h.toSound.moved hfifo hm
  exact h.of_kept hsound (by rw [hm.comm]) hkept

/-- A record in the same phase. -/
theorem InPhase.withComm (h : InPhase setup fifo s) (c' : CommAbstract)
    (hgeneration : Comm.commAbstractGeneration c' = Comm.commAbstractGeneration s.comm)
    (hphase : closePhase c' = closePhase s.comm) :
    InPhase setup fifo (s.withComm c') ∧ Closes setup s (s.withComm c') :=
  h.of_kept (h.toSound.withComm_of_phase hgeneration hphase) hphase (Kept.refl _ _)

theorem closePhase_of_open (hlive : c.live = true) (hopen : c.flags.closing = false) :
    closePhase c = .before := by
  rw [closePhase, hlive, hopen]
  rfl

/-- Before the disconnect hook is dispatched, `C_AWAITING_HOOK` is the flag of another hook. -/
theorem closePhase_of_early {c c' : CommAbstract} (hbefore : closePhase c = .before)
    (hlive : c'.live = c.live) (hclosing : c'.flags.closing = c.flags.closing)
    (hpending : c'.flags.disconnectPending = c.flags.disconnectPending) : closePhase c' = .before := by
  unfold closePhase at hbefore ⊢
  rw [hlive, hclosing, hpending]
  grind

theorem ne_during_of_before (h : closePhase c = .before) : closePhase c ≠ .during := by
  rw [h]
  nofun

/-- Where no disconnect hook is half done, `C_AWAITING_HOOK` is not its flag. -/
theorem closePhase_of_whole {c c' : CommAbstract} (hwhole : closePhase c ≠ .during)
    (hlive : c'.live = c.live) (hclosing : c'.flags.closing = c.flags.closing)
    (hpending : c'.flags.disconnectPending = c.flags.disconnectPending)
    (hawaiting : c'.flags.awaitingHook = false) : closePhase c' = closePhase c := by
  unfold closePhase at hwhole ⊢
  rw [hlive, hclosing, hpending, hawaiting]
  grind

/-! ### Connections begin and end -/

theorem generation_of_dead (h : Sound setup fifo s) (hdead : s.comm.live = false) :
    s.scheduler.generation = 0 := by
  rw [show s.scheduler.generation = _ from h.synced, Comm.commAbstractGeneration, if_neg]
  rw [hdead]
  exact Bool.false_ne_true

/-- An accepted connection. -/
def acceptedRecord (c : CommAbstract) : CommAbstract := Comm.commAbstractAddBio c true true true {}

theorem closePhase_acceptedRecord (c : CommAbstract) : closePhase (acceptedRecord c) = .before := rfl

/-- A free slot number is given to a connection. -/
theorem InPhase.connected (h : InPhase setup fifo s) (hdead : s.comm.live = false) :
    InPhase setup fifo ((s.withComm (acceptedRecord s.comm)).note (observeClose setup) [.connected]) := by
  have hnone : s.disconnects = 0 := by
    have hfits := h.fits
    rwa [closePhase_eq_gone.mpr hdead] at hfits
  refine ⟨⟨h.accepting, rfl, h.undecided, ?_, h.strict, Nat.zero_le 1, h.early, ⟨fun _ => rfl, nofun⟩,
    fun hf => ?_⟩, hnone, rfl, rfl⟩
  · show Progress _ s.disconnects
    rw [hnone]
    exact .none
  · obtain ⟨hgate, hidle, hown, -⟩ := h.turns hf
    -- nothing but a hook without a connection can run
    refine ⟨hgate, hidle, fun task htask => .inl ?_, fun hclosed => absurd hclosed.1 nofun⟩
    have hgeneration := hown task htask
    rw [generation_of_dead h.toSound hdead, or_self] at hgeneration
    exact hgeneration

/-- `comm_abstract_remove` behind the disconnect hook. -/
theorem InPhase.removed (hfifo : fifo → InTurn setup g) (h : InPhase setup fifo s)
    (hphase : closePhase s.comm = .after) :
    InPhase setup fifo ((s.withComm (Comm.commAbstractRemove s.comm)).note (observeClose setup)
      [.removed]) := by
  have hfits := h.fits
  rw [hphase] at hfits
  obtain ⟨hnone, hover⟩ := hfits
  have hdead : (Comm.commAbstractRemove s.comm).live = false := rfl
  have hearly : (s.notes.early || (setup.expectsDisconnect && !(s.notes.accepted && s.notes.returned)))
      = false := by
    rw [h.early, Bool.false_or]
    cases hexpects : setup.expectsDisconnect with
    | false => rfl
    | true =>
      obtain ⟨haccepted, hreturned⟩ := hover hexpects
      rw [haccepted, hreturned]
      rfl
  refine ⟨⟨h.accepting, rfl, h.undecided, ?_, h.strict, h.once, hearly, ⟨h.fit.fresh, nofun⟩,
    fun hf => ?_⟩, hnone⟩
  · show Progress _ s.disconnects
    rw [hnone]
    exact .none
  · obtain ⟨hgate, hidle, hown, horder⟩ := h.turns hf
    refine ⟨hgate, hidle, fun task htask => ?_, fun hclosed => absurd hclosed.2 nofun⟩
    obtain hzero | hcurrent := hown task htask
    · exact .inl hzero
    · -- a hook of the connection cannot run any more
      have hexpects : setup.expectsDisconnect = true := by
        rw [Setup.expectsDisconnect, (hfifo hf).relaxed, Bool.true_or]
      have hclosed : s.Disconnected := ⟨(hover hexpects).1, by rw [hphase]; rfl⟩
      obtain ⟨hpending, hcarried⟩ := Execution.not_isDisconnect_of_none hnone
      obtain ⟨before, disconnect, behind, heq, hdisconnect, -⟩ | ⟨-, hlate⟩ := horder hclosed
      · have hmem : disconnect ∈ s.scheduler.state.pending := by
          rw [heq]
          exact List.mem_append_right _ List.mem_cons_self
        exact absurd ((hpending disconnect hmem).symm.trans hdisconnect) Bool.false_ne_true
      · exact absurd ⟨hcurrent, hcarried _ htask⟩ (hlate _ htask nofun)

/-! ### A close that has not dispatched its hook yet -/

/-- Within `comm_close_impl`: the disconnect hook is still to come, whatever the record says. -/
structure Undispatched (setup : Setup) (fifo : Prop) (s₀ s : State CloseNotes) : Prop extends
    Sound setup fifo s where
  none : s.disconnects = 0
  begun : s.notes.begun = 0
  accepted : s.notes.accepted = false
  returned : s₀.notes.returned = true → s.notes.returned = true

theorem InPhase.undispatched (h : InPhase setup fifo s) (hbefore : closePhase s.comm = .before) :
    Undispatched setup fifo s s := by
  have hfits := h.fits
  rw [hbefore] at hfits
  obtain ⟨hnone, hbegun, haccepted⟩ := hfits
  exact ⟨h.toSound, hnone, hbegun, haccepted, id⟩

theorem Undispatched.moved (hfifo : fifo → InTurn setup g) (h : Undispatched setup fifo s₀ s)
    (hm : Moved setup (observeClose setup) g s s₁) : Undispatched setup fifo s₀ s₁ := by
  obtain ⟨hsound, hkept⟩ := h.toSound.moved hfifo hm
  obtain ⟨hnone, hbegun⟩ := hkept.none h.none
  exact ⟨hsound, hnone, hbegun.trans h.begun, hkept.accepted.trans h.accepted,
    fun hr => hkept.returned (h.returned hr)⟩

/-- Any change of the record within the connection. -/
theorem Undispatched.withComm (h : Undispatched setup fifo s₀ s) (c' : CommAbstract)
    (hgeneration : Comm.commAbstractGeneration c' = Comm.commAbstractGeneration s.comm) :
    Undispatched setup fifo s₀ (s.withComm c') :=
  ⟨h.toSound.withComm hgeneration fun haccepted =>
      absurd (h.accepted.symm.trans haccepted) Bool.false_ne_true,
    h.none, h.begun, h.accepted, h.returned⟩

/-- The await of the slot is cancelled. -/
theorem Undispatched.cancelled (h : Undispatched setup fifo s₀ s) :
    Undispatched setup fifo s₀ { s with
      scheduler := (Execution.mudmuxExecutionCancelAwait s.scheduler).1
      threads := s.threads ++ (Execution.mudmuxExecutionCancelAwait s.scheduler).2 } := by
  obtain ⟨hsound, hsame⟩ := h.toSound.cancelAwait
  exact ⟨hsound, hsame.trans h.none, h.begun, h.accepted, h.returned⟩

/-- What a close that ends in front of its hook, or behind it, has done to a connection that was open. -/
theorem Closes.of_before (h : InPhase setup fifo s) (hbefore : closePhase s.comm = .before)
    (hreturned : s.notes.returned = true → s'.notes.returned = true)
    (hwhole : setup.comm.relaxed = false → closePhase s'.comm ≠ .during) : Closes setup s s' where
  accepted ha := absurd ((h.undispatched hbefore).accepted.symm.trans ha) Bool.false_ne_true
  returned := hreturned
  live _ := by
    rw [← Bool.not_eq_false, ← closePhase_eq_gone, hbefore]
    nofun
  closing hc := by
    rw [hbefore] at hc
    exact absurd hc Bool.false_ne_true
  whole hstrict _ := hwhole hstrict

theorem keepsPhase_of_ordinary :
    ∀ kind : StoreKind, kind.ordinary = true → keepsPhase kind = true := by
  intro kind hkind
  cases kind <;> first | rfl | cases hkind

theorem phasePermits : Comm.PermitsInput setup.comm
    (Comm.storeRequirement setup.comm fun kind => keepsPhase kind = true) :=
  Comm.storePermits (Comm.steady_of_ordinary keepsPhase_of_ordinary)

section Code

variable (hfifo : fifo → InTurn setup g) {α : Type}
include hfifo

theorem steadyClose (h : Sound setup fifo s) :
    Steady setup (observeClose setup) g (closeOutline setup g fifo) s :=
  fun _ hm => (h.moved hfifo hm).1

/-- Code that leaves the close of the connection alone. -/
theorem wp_ordinary {p : Code α} {R : α → CommAbstract → Prop}
    (hp : StoresTo setup.comm (fun kind => keepsPhase kind = true) p R s.comm)
    (h : InPhase setup fifo s) :
    (closeOutline setup g fifo).wp (onSlot p)
      (fun a s' => R a s'.comm ∧ InPhase setup fifo s' ∧ Closes setup s s') s := by
  refine wp_of_storesTo rfl (Closes setup) Closes.refl (fun _ _ _ => Closes.trans) (fun _ _ => id)
    (fun s s₁ hm hs => InPhase.moved hfifo hs hm) (fun e s a b s' hspec hs hguard hexec => ?_) hp h
  obtain ⟨hsound, hphase, hkept⟩ :=
    hs.toSound.effect hspec (fun hf => (hfifo hf).effect s e hguard) hexec
  exact ⟨hsound, hs.of_kept hsound hphase hkept⟩

theorem wp_ordinaryStores {p : Code α}
    (hp : Comm.Stores setup.comm (fun kind => keepsPhase kind = true) p) (h : InPhase setup fifo s) :
    (closeOutline setup g fifo).wp (onSlot p)
      (fun _ s' => InPhase setup fifo s' ∧ Closes setup s s') s :=
  Outline.wp_mono _ (wp_ordinary hfifo (hp s.comm) h) fun _ _ hpost => hpost.2

section

variable (h : InPhase setup fifo s)

include h

/-- A change of the record within the phase. -/
theorem wp_withinPhase {f : CommAbstract → CommAbstract} (hgeneration : s.comm.live = true →
      Comm.commAbstractGeneration (f s.comm) = Comm.commAbstractGeneration s.comm)
    (hphase : s.comm.live = true → closePhase (f s.comm) = closePhase s.comm) :
    (closeOutline setup g fifo).wp (onSlot (Comm.modifyComm f)) (fun _ s' => InPhase setup fifo s' ∧
      Closes setup s s' ∧ closePhase s'.comm = closePhase s.comm ∧ s.comm.live = true) s := by
  refine wp_modifyComm rfl h.synced (steadyClose hfifo h.toSound) fun s₁ hm hlive => ?_
  obtain ⟨h₁, hc₁⟩ := h.moved hfifo hm
  have hstore := h₁.withComm (f s.comm) (by rw [hm.comm, hgeneration hlive])
    (by rw [hm.comm, hphase hlive])
  exact ⟨hstore.1.toSound, hstore.1, hc₁.trans hstore.2, hphase hlive, hlive⟩

/-! ### Connecting -/

omit h in
/-- The dispatch of another hook than `HOOK_DISCONNECT`, while no disconnect hook is half done. -/
theorem wp_dispatch_whole {call : HookCall} {completion : Comm.Completion}
    (hcall : call ≠ .disconnect)
    (hcompletion : setup.comm.relaxed = true → completion = call.hookType.completion)
    (hstrict : setup.comm.relaxed = false → completion = .none) (h : InPhase setup fifo s)
    (hwhole : closePhase s.comm ≠ .during) :
    (closeOutline setup g fifo).wp (onSlot (Comm.mudmuxExecutionDispatch setup.comm call completion))
      (fun _ s' => InPhase setup fifo s' ∧ Closes setup s s' ∧ closePhase s'.comm ≠ .during) s := by
  cases hrelaxed : setup.comm.relaxed with
  | true =>
    rw [Comm.mudmuxExecutionDispatch, if_pos hrelaxed]
    refine wp_effect rfl rfl rfl fun s₁ a b s' hm hguard hexec => ?_
    obtain ⟨h₁, hc₁⟩ := h.moved hfifo hm
    have hspec : kindSpec setup.comm (fun kind => keepsPhase kind = true) s₁.comm
        (.enqueue call completion) := fun heq => absurd heq hcall
    obtain ⟨hsound, hphase, hkept⟩ :=
      h₁.toSound.effect hspec (fun hf => (hfifo hf).effect s₁ _ hguard) hexec
    obtain ⟨h', hc'⟩ := h₁.of_kept hsound hphase hkept
    refine ⟨hsound, h', hc₁.trans hc', ?_⟩
    rw [hphase, hm.comm]
    exact hwhole
  | false =>
    refine Outline.wp_mono _ (wp_ordinaryStores hfifo (phasePermits.dispatch
      (Comm.storeHook fun heq => absurd heq hcall) hcompletion fun _ => ?_) h) fun _ s' hpost =>
        ⟨hpost.1, hpost.2, hpost.2.whole hrelaxed hwhole⟩
    rw [hstrict hrelaxed]
    simp [Comm.Completion.kinds]

theorem wp_commInvokeTransportReady_close :
    (closeOutline setup g fifo).wp (onSlot (Comm.commInvokeTransportReady setup.comm))
      (fun _ s' => InPhase setup fifo s' ∧ Closes setup s s') s := by
  refine wp_guard rfl h.synced (steadyClose hfifo h.toSound) (fun s₁ hm _ => h.moved hfifo hm)
    fun s₁ hm hlive => ?_
  obtain ⟨h₁, hc₁⟩ := h.moved hfifo hm
  dsimp only
  split
  · exact ⟨h₁, hc₁⟩
  · next hopen =>
      simp only [Bool.or_eq_true, not_or, Bool.not_eq_true] at hopen
      have hbefore : closePhase s.comm = .before := closePhase_of_open hlive hopen.1
      split
      · exact ⟨h₁, hc₁⟩
      · split
        · exact ⟨h₁, hc₁⟩
        · refine wp_store rfl fun s₂ hm₂ => ?_
          obtain ⟨h₂, hc₂⟩ := h₁.moved hfifo hm₂
          have hsame : s₂.comm = s.comm := hm₂.comm.trans hm.comm
          have hstored : closePhase (s.comm.mapFlags fun flags =>
              { flags with
                  transportReady := true
                  awaitingHook := flags.awaitingHook || setup.comm.relaxed }) = .before :=
            closePhase_of_open hlive hopen.1
          obtain ⟨h₃, hc₃⟩ := h₂.withComm _ (by rw [hsame]; rfl)
            (hstored.trans (by rw [hsame, hbefore]))
          refine ⟨h₃.toSound, ?_⟩
          rw [wp_slotBind]
          refine Outline.wp_mono _ (wp_dispatch_whole hfifo nofun
            (fun hrelaxed => if_pos hrelaxed) (fun hstrict => if_neg (by rw [hstrict]; nofun)) h₃
            (ne_during_of_before hstored)) fun result s₄ hpost => ?_
          obtain ⟨h₄, hc₄, hwhole₄⟩ := hpost
          have hc := ((hc₁.trans hc₂).trans hc₃).trans hc₄
          split
          · refine Outline.wp_mono _ (wp_withinPhase hfifo h₄ (fun _ => rfl) fun _ =>
              closePhase_of_whole hwhole₄ rfl rfl rfl rfl) fun _ s₅ hpost => ?_
            exact ⟨hpost.1, hc.trans hpost.2.1⟩
          · exact ⟨h₄, hc⟩

/-- The flag of a connect hook that is refused is taken back. -/
def connectRefused : Code Unit := do
  match ← Comm.commGuard with
  | none => pure ()
  | some comm => Comm.setComm (comm.mapFlags fun flags => { flags with awaitingHook := false })

theorem wp_commInvokeConnect (hbefore : closePhase s.comm = .before) :
    (closeOutline setup g fifo).wp (onSlot (Comm.commInvokeConnect setup.comm))
      (fun _ s' => InPhase setup fifo s') s := by
  unfold Comm.commInvokeConnect
  cases hrelaxed : setup.comm.relaxed with
  | true =>
    simp only [if_true]
    have hdispatch {t : State CloseNotes} (ht : InPhase setup fifo t)
        (hwhole : closePhase t.comm ≠ .during) : (closeOutline setup g fifo).wp (onSlot (do
          let result ← Comm.mudmuxExecutionDispatch setup.comm .connect .connect
          if !result.accepted then connectRefused else pure ())) (fun _ s' => InPhase setup fifo s') t := by
      rw [wp_slotBind]
      refine Outline.wp_mono _ (wp_dispatch_whole hfifo (by simp) (fun _ => rfl)
        (fun hstrict => absurd (hstrict.symm.trans hrelaxed) Bool.false_ne_true) ht hwhole)
        fun result t₁ hpost => ?_
      obtain ⟨h₁, -, hwhole₁⟩ := hpost
      split
      · refine wp_guard rfl h₁.synced (steadyClose hfifo h₁.toSound)
          (fun t₂ hm _ => (h₁.moved hfifo hm).1) fun t₂ hm hlive => wp_setComm rfl fun t₃ hm₃ => ?_
        have hsame : t₃.comm = t₁.comm := hm₃.comm.trans hm.comm
        have hstore := ((h₁.moved hfifo hm).1.moved hfifo hm₃).1.withComm
          (t₁.comm.mapFlags fun flags => { flags with awaitingHook := false }) (by rw [hsame]; rfl)
          (by rw [hsame]; exact closePhase_of_whole hwhole₁ rfl rfl rfl rfl)
        exact ⟨hstore.1.toSound, hstore.1⟩
      · exact h₁
    refine wp_guard rfl h.synced (steadyClose hfifo h.toSound)
      (fun s₁ hm _ => hdispatch (h.moved hfifo hm).1 (by
        rw [hm.comm]
        exact ne_during_of_before hbefore)) fun s₁ hm hlive => wp_store rfl fun s₂ hm₂ => ?_
    have hsame : s₂.comm = s.comm := hm₂.comm.trans hm.comm
    have hstored : closePhase (s.comm.mapFlags fun flags => { flags with awaitingHook := true })
        = .before := closePhase_of_early hbefore rfl rfl rfl
    have hstore := ((h.moved hfifo hm).1.moved hfifo hm₂).1.withComm _ (by rw [hsame]; rfl)
      (hstored.trans (by rw [hsame, hbefore]))
    exact ⟨hstore.1.toSound, hdispatch hstore.1 (ne_during_of_before hstored)⟩
  | false =>
    simp only [Bool.false_eq_true, if_false]
    rw [wp_slotBind]
    refine Outline.wp_mono _ (wp_ordinaryStores hfifo (phasePermits.dispatch
      (Comm.storeHook (by simp)) (fun hr => absurd (hrelaxed.symm.trans hr) Bool.false_ne_true)
      fun _ => by simp [Comm.Completion.kinds]) h) fun _ s₁ h₁ => ?_
    exact wp_call rfl h₁.1 fun _ s₂ h₂ _ => h₂

/-- A connection is accepted into a free slot. -/
theorem wp_accept :
    (closeOutline setup g fifo).wp (onSlot (Comm.entryCode setup.comm (.accept {})))
      (fun _ s' => InPhase setup fifo s') s := by
  refine wp_guard rfl h.synced (steadyClose hfifo h.toSound) (fun s₁ hm hdead => ?_)
    fun s₁ hm _ => (h.moved hfifo hm).1
  refine wp_effect rfl rfl rfl fun s₂ a b s₃ hm₂ _ hexec => ?_
  cases a <;> cases hexec
  have hdead₂ : s₂.comm.live = false := by rw [hm₂.comm, hm.comm, hdead]
  have hnew := ((h.moved hfifo hm).1.moved hfifo hm₂).1.connected hdead₂
  exact ⟨hnew.toSound, wp_commInvokeConnect hfifo hnew (closePhase_acceptedRecord _)⟩

/-! ### Closing -/

omit h in
/-- An effect that is no store and lets no foreign code in. -/
theorem wp_plainEffect {e : SlotEffect Unit} (he : e.isStore = false)
    (hu : Comm.unfold setup.comm e = none) (hr : reentrant setup (.slot e) = false)
    (h : InPhase setup fifo s) :
    (closeOutline setup g fifo).wp (onSlot (Program.effect e)) (fun _ s' => InPhase setup fifo s' ∧
      Closes setup s s' ∧ closePhase s'.comm = closePhase s.comm) s := by
  refine wp_effect rfl hu hr fun s₁ a b s' hm hguard hexec => ?_
  obtain ⟨h₁, hc₁⟩ := h.moved hfifo hm
  have hspec : kindSpec setup.comm (fun kind => keepsPhase kind = true) s₁.comm e :=
    kindSpec_of_storeSpec (Comm.storeSpec_of_not_store he _)
  obtain ⟨hsound, hphase, hkept⟩ :=
    h₁.toSound.effect hspec (fun hf => (hfifo hf).effect s₁ e hguard) hexec
  obtain ⟨h', hc'⟩ := h₁.of_kept hsound hphase hkept
  exact ⟨hsound, h', hc₁.trans hc', hphase.trans (by rw [hm.comm])⟩

/-- The slot is removed behind the disconnect hook. -/
theorem wp_remove_after (hphase : closePhase s.comm = .after) :
    (closeOutline setup g fifo).wp (onSlot (Program.effect .remove)) (fun _ s' =>
      InPhase setup fifo s' ∧ Closes setup s s') s := by
  refine wp_effect rfl rfl rfl fun s₁ a b s' hm _ hexec => ?_
  obtain ⟨h₁, hc₁⟩ := h.moved hfifo hm
  have hphase₁ : closePhase s₁.comm = .after := by rw [hm.comm, hphase]
  have hlive : s₁.comm.live = true := live_of_closing (by rw [hphase₁]; rfl)
  have hremoved := h₁.removed hfifo hphase₁
  cases a <;> cases hexec
  have hsame : Comm.ifLive s₁.comm Comm.commAbstractRemove = Comm.commAbstractRemove s₁.comm :=
    if_pos hlive
  have hevents : effectEvents s₁.comm SlotEffect.remove = [.removed] := if_pos hlive
  rw [hsame, hevents]
  exact ⟨hremoved.toSound, hremoved, hc₁.trans ⟨id, id, nofun, fun _ => nofun, fun _ _ => nofun⟩⟩

/-- `comm_close_impl` behind the dispatch of the disconnect hook. -/
theorem wp_finishClose_close (hclosing : (closePhase s.comm).closing = true) :
    (closeOutline setup g fifo).wp (onSlot (Comm.finishClose setup.comm)) (fun _ s' =>
      InPhase setup fifo s' ∧ Closes setup s s') s := by
  refine wp_finishClose_rule (I := fun t => InPhase setup fifo t ∧ Closes setup s t ∧
    closePhase t.comm = .after) rfl h.synced (steadyClose hfifo h.toSound)
    (fun s₁ hm _ _ => h.moved hfifo hm) (fun s₁ hm hlive hawaiting => ?_) (fun t ht => ?_)
    (fun e t he hu hr ht => ?_) (fun t ht => ⟨ht.1, ht.2.1⟩) fun t ht => ?_
  · obtain ⟨h₁, hc₁⟩ := h.moved hfifo hm
    refine ⟨h₁, hc₁, ?_⟩
    rw [hm.comm]
    unfold closePhase at hclosing ⊢
    grind [ClosePhase.closing]
  · refine Outline.wp_mono _ (wp_withinPhase hfifo ht.1 (fun _ => rfl) fun _ => rfl) fun _ t' hpost => ?_
    exact ⟨hpost.1, ht.2.1.trans hpost.2.1, hpost.2.2.1.trans ht.2.2⟩
  · refine Outline.wp_mono _ (wp_plainEffect hfifo he hu hr ht.1) fun _ t' hpost => ?_
    exact ⟨hpost.1, ht.2.1.trans hpost.2.1, hpost.2.2.trans ht.2.2⟩
  · refine Outline.wp_mono _ (wp_remove_after hfifo ht.1 ht.2.2) fun _ t' hpost => ?_
    exact ⟨hpost.1, ht.2.1.trans hpost.2⟩

end

omit hfifo in
/-- The scheduler refuses the disconnect hook only if the slot is busy and its backlog is full. -/
theorem dispatch_disconnect (setup : Setup) (s : State CloseNotes) :
    (s.dispatch setup .disconnect).1 = .queueFull ∧ s.scheduler.state.active = true ∧
        setup.scheduler.backlogCapacity ≤ s.scheduler.state.pending.length ∨
      (s.dispatch setup .disconnect).1 = .queued ∧ (s.scheduler.state.active = true →
        s.scheduler.state.pending.length < setup.scheduler.backlogCapacity) := by
  have hanswer : (s.dispatch setup .disconnect).1
      = enqueueAnswer setup.scheduler.backlogCapacity s.scheduler.state true := rfl
  rw [hanswer, enqueueAnswer]
  split
  · next hfull =>
      left
      simpa using hfull
  · next hroom =>
      right
      simpa using hroom

/-- The dispatch of the disconnect hook in relaxed mode. -/
theorem wp_queueDisconnect (hrelaxed : setup.comm.relaxed = true) (h : Undispatched setup fifo s₀ s)
    (hphase : closePhase s.comm = .during) :
    (closeOutline setup g fifo).wp (onSlot (Comm.mudmuxExecutionDispatch setup.comm .disconnect .disconnect))
      (fun result s' => (s₀.notes.returned = true → s'.notes.returned = true) ∧
        s'.comm = s.comm ∧
        (result = .queueFull ∧ Undispatched setup fifo s₀ s' ∨
          result = .queued ∧ InPhase setup fifo s')) s := by
  rw [Comm.mudmuxExecutionDispatch, if_pos hrelaxed]
  refine wp_effect rfl rfl rfl fun s₁ a b s' hm hguard hexec => ?_
  have h₁ := h.moved hfifo hm
  have hphase₁ : closePhase s₁.comm = .during := by rw [hm.comm, hphase]
  cases hexec
  obtain ⟨hfull, hactive, hlength⟩ | ⟨hqueued, hroom⟩ := dispatch_disconnect setup s₁
  · rw [hfull]
    obtain ⟨hsound, hsame⟩ := h₁.toSound.dispatchRefused hactive hlength
    have hrefused : Undispatched setup fifo s₀ (s₁.dispatch setup .disconnect).2 :=
      ⟨hsound, hsame.trans h₁.none, h₁.begun, h₁.accepted, h₁.returned⟩
    exact ⟨hsound, h₁.returned, hm.comm, .inl ⟨rfl, hrefused⟩⟩
  · rw [hqueued]
    have hsound := h₁.toSound.dispatchAccepted hrelaxed (by rw [hphase₁]; rfl) h₁.none h₁.begun hroom
    have hfits : (closePhase s₁.comm).Fits setup ((s₁.dispatch setup .disconnect).2.note
        (observeClose setup) [.accepted .disconnect]).disconnects { s₁.notes with accepted := true } := by
      rw [hphase₁]
      exact True.intro
    exact ⟨hsound, h₁.returned, hm.comm, .inr ⟨rfl, ⟨hsound, hfits⟩⟩⟩

omit hfifo in
/-- The completion of the disconnect hook. -/
theorem closePhase_disconnected (h : (closePhase c).closing = true) :
    closePhase (c.mapFlags fun flags => { flags with awaitingHook := false }) = .after := by
  have hlive := live_of_closing h
  unfold closePhase at h ⊢
  grind [ClosePhase.closing, CommAbstract.mapFlags, CommAbstract.live]

omit hfifo in
/-- The disconnect hook is over, and has returned if there was one. -/
theorem InPhase.over (h : InPhase setup fifo s) (hclosing : (closePhase s.comm).closing = true)
    (hnone : s.disconnects = 0)
    (hover : setup.expectsDisconnect = true → s.notes.accepted = true ∧ s.notes.returned = true) :
    InPhase setup fifo (s.withComm (s.comm.mapFlags fun flags =>
      { flags with awaitingHook := false })) := by
  have hafter := closePhase_disconnected hclosing
  refine ⟨h.toSound.withComm rfl fun _ _ => ⟨live_of_closing hclosing, ?_⟩, ?_⟩
  · rw [hafter]
    rfl
  · show (closePhase (s.comm.mapFlags _)).Fits setup s.disconnects s.notes
    rw [hafter]
    exact ⟨hnone, hover⟩

section

variable (hstrict : setup.comm.relaxed = false)

include hstrict

/-- What follows the disconnect hook in strict mode. -/
theorem wp_finishInline_disconnect (ok : Bool) (h : InPhase setup fifo s)
    (hclosing : s.comm.live = true → (closePhase s.comm).closing = true)
    (hover : setup.expectsDisconnect = true → s.notes.accepted = true ∧ s.notes.returned = true)
    (hreturned : s₀.notes.returned = true → s.notes.returned = true) :
    (closeOutline setup g fifo).wp (onSlot (Comm.finishInline .disconnect .disconnect ok))
      (fun result s' => (s₀.notes.returned = true → s'.notes.returned = true) ∧
        (result = .ok ∨ result = .error) ∧ InPhase setup fifo s' ∧
        (s'.comm.live = true → closePhase s'.comm = .after)) s := by
  have hresult : (if ok then Comm.DispatchResult.ok else .error) = .ok ∨
      (if ok then Comm.DispatchResult.ok else .error) = .error := by
    cases ok
    · exact .inr rfl
    · exact .inl rfl
  rw [Comm.finishInline, wp_slotBind]
  refine wp_guard rfl h.synced (steadyClose hfifo h.toSound) (fun s₁ hm hdead => ?_)
    fun s₁ hm hlive => wp_setComm rfl fun s₂ hm₂ => ?_
  · obtain ⟨h₁, hc₁⟩ := h.moved hfifo hm
    refine ⟨fun hr => hc₁.returned (hreturned hr), hresult, h₁, fun hlive => ?_⟩
    rw [hm.comm] at hlive
    exact absurd (hdead.symm.trans hlive) Bool.false_ne_true
  · obtain ⟨h₂, hc₂⟩ := h.moved hfifo (hm.trans hm₂)
    have hsame : s₂.comm = s.comm := (hm.trans hm₂).comm
    have hclosing₂ : (closePhase s₂.comm).closing = true := by
      rw [hsame]
      exact hclosing hlive
    have hdone := h₂.over hclosing₂ (h₂.strict hstrict) fun hexpects =>
      ⟨hc₂.accepted (hover hexpects).1, hc₂.returned (hover hexpects).2⟩
    rw [hsame] at hdone
    exact ⟨hdone.toSound, fun hr => hc₂.returned (hreturned hr), hresult, hdone,
      fun _ => closePhase_disconnected (hclosing hlive)⟩

/-- `HOOK_DISCONNECT` begins inline. -/
theorem Undispatched.begunInline (h : Undispatched setup fifo s₀ s)
    (hphase : closePhase s.comm = .during) :
    InPhase setup fifo ((s.withComm s.comm).note (observeClose setup) [.begun .disconnect]) := by
  have hprogress : Progress { s.notes with accepted := true, begun := s.notes.begun + 1 }
      s.disconnects := by
    rw [h.none]
    exact .none
  have honce : s.notes.begun + 1 ≤ 1 := by rw [h.begun]
  have hfit : NotesFit s.comm { s.notes with accepted := true, begun := s.notes.begun + 1 } :=
    ⟨nofun, fun _ _ => by rw [hphase]; rfl⟩
  have hsound : Sound setup fifo ((s.withComm s.comm).note (observeClose setup) [.begun .disconnect]) :=
    ⟨h.accepting, rfl, h.undecided, hprogress, h.strict, honce, h.early, hfit,
      fun hf => absurd (hstrict.symm.trans (hfifo hf).relaxed) Bool.false_ne_true⟩
  refine ⟨hsound, ?_⟩
  show (closePhase s.comm).Fits setup _ _
  rw [hphase]
  exact True.intro

/-- The disconnect hook in strict mode. -/
theorem wp_runDisconnect (h : Undispatched setup fifo s₀ s) (hphase : closePhase s.comm = .during) :
    (closeOutline setup g fifo).wp (onSlot (Comm.mudmuxExecutionDispatch setup.comm .disconnect .disconnect))
      (fun result s' => (s₀.notes.returned = true → s'.notes.returned = true) ∧
        (result = .ok ∨ result = .error) ∧ InPhase setup fifo s' ∧
        (s'.comm.live = true → closePhase s'.comm = .after)) s := by
  rw [Comm.mudmuxExecutionDispatch, if_neg (by rw [hstrict]; exact Bool.false_ne_true), wp_slotBind,
    Comm.invokeInline]
  split
  · next hunregistered =>
      have hexpects : setup.expectsDisconnect = false := by
        rw [Setup.expectsDisconnect, hstrict, Bool.false_or]
        exact (Bool.not_eq_true' _).mp hunregistered
      have hfits : (closePhase s.comm).Fits setup s.disconnects s.notes := by
        rw [hphase]
        exact True.intro
      refine wp_finishInline_disconnect hfifo hstrict true ⟨h.toSound, hfits⟩ (fun _ => ?_)
        (fun hyes => absurd (hexpects.symm.trans hyes) Bool.false_ne_true) h.returned
      rw [hphase]
      rfl
  · rw [Program.effect_bind]
    refine wp_effect rfl rfl rfl fun s₁ a b s₂ hm _ hexec => ?_
    have h₁ := h.moved hfifo hm
    have hphase₁ : closePhase s₁.comm = .during := by rw [hm.comm, hphase]
    cases a <;> cases hexec
    have hbegun := h₁.begunInline hfifo hstrict hphase₁
    refine ⟨hbegun.toSound, ?_⟩
    rw [Program.effect_bind]
    refine wp_reentrant rfl rfl rfl hbegun fun s₃ s₄ a b s₅ h₃ hc₃ hm₄ _ hexec => ?_
    obtain ⟨h₄, hc₄⟩ := h₃.moved hfifo hm₄
    cases a <;> cases hexec
    -- the hook has returned, and the close is still known to be under way
    have hself : (s₄.withComm s₄.comm).note (observeClose setup)
        (effectEvents s₄.comm (SlotEffect.runHook HookCall.disconnect))
          = s₄.note (observeClose setup) [.returned .disconnect] := by
      rw [State.withComm_self h₄.synced]
      rfl
    rw [hself]
    obtain ⟨hsound, hkept⟩ := h₄.toSound.noteReturned .disconnect
    obtain ⟨h₅, hc₅⟩ := h₄.of_kept hsound rfl hkept
    refine ⟨hsound, ?_⟩
    rw [wp_slotBind]
    refine Outline.wp_mono _ (wp_ordinaryStores hfifo phasePermits.commFlushAll h₅) fun _ s₆ hpost => ?_
    obtain ⟨h₆, hc₆⟩ := hpost
    have hreturned : s₆.notes.returned = true := hc₆.returned rfl
    have hc := ((hc₃.trans hc₄).trans hc₅).trans hc₆
    refine wp_finishInline_disconnect hfifo hstrict _ h₆ (hc.closing ?_)
      (fun _ => ⟨hc.accepted rfl, hreturned⟩) fun _ => hreturned
    show (closePhase s₁.comm).closing = true
    rw [hphase₁]
    rfl

end

omit hfifo in
theorem closePhase_announced (hlive : c.live = true) :
    closePhase ((c.mapFlags fun flags => { flags with closing := true, disconnectPending := false }).mapFlags
      fun flags => { flags with awaitingHook := true }) = .during := by
  unfold closePhase
  grind [CommAbstract.mapFlags, CommAbstract.live]

/-- `comm_close_impl` up to the dispatch of the disconnect hook. -/
theorem wp_announceClose {Q : α → State CloseNotes → Prop} {k : Unit → Code α}
    (hclosures : setup.closuresCall = false) (h : InPhase setup fifo s)
    (hbefore : closePhase s.comm = .before) (hm : Moved setup (observeClose setup) g s s₁)
    (hk : ∀ s', Undispatched setup fifo s s' → closePhase s'.comm = .during →
      (closeOutline setup g fifo).wp (onSlot (k ())) Q s') :
    (closeOutline setup g fifo).wp (onSlot (
      Comm.setComm (s.comm.mapFlags fun flags =>
        { flags with closing := true, disconnectPending := false }) >>= fun _ =>
      Program.effect .cancelAwait >>= fun _ =>
      Comm.modifyFlags (fun flags => { flags with awaitingHook := true }) >>= k)) Q s₁ := by
  have hlive : s.comm.live = true := by
    rw [← Bool.not_eq_false, ← closePhase_eq_gone, hbefore]
    nofun
  refine wp_store rfl fun s₂ hm₂ => ?_
  have hsame : s₂.comm = s.comm := (hm.trans hm₂).comm
  -- from here to the dispatch the record looks as if the disconnect hook were over
  have h₂ := ((h.undispatched hbefore).moved hfifo (hm.trans hm₂)).withComm
    (s.comm.mapFlags fun flags => { flags with closing := true, disconnectPending := false })
    (by rw [hsame]; rfl)
  refine ⟨h₂.toSound, ?_⟩
  rw [Program.effect_bind]
  refine wp_effect rfl rfl hclosures fun s₃ a b s₄ hm₃ _ hexec => ?_
  have hthird : s₃.comm = s.comm.mapFlags fun flags =>
    { flags with closing := true, disconnectPending := false } := hm₃.comm
  cases hexec
  have h₄ := (h₂.moved hfifo hm₃).cancelled
  refine ⟨h₄.toSound, ?_⟩
  refine wp_modify rfl h₄.synced (steadyClose hfifo h₄.toSound) fun s₅ hm₅ _ => ?_
  have hduring : closePhase (s₃.comm.mapFlags fun flags => { flags with awaitingHook := true })
      = .during := by
    rw [hthird]
    exact closePhase_announced hlive
  have h₅ := (h₄.moved hfifo hm₅).withComm
    (s₃.comm.mapFlags fun flags => { flags with awaitingHook := true }) (by rw [hm₅.comm]; rfl)
  exact ⟨h₅.toSound, hk _ h₅ hduring⟩

/-- `comm_close_impl`. -/
theorem wp_commClose_close (hclosures : setup.closuresCall = false) (h : InPhase setup fifo s) :
    (closeOutline setup g fifo).wp (onSlot (Comm.commClose setup.comm)) (fun _ s' =>
      InPhase setup fifo s' ∧ Closes setup s s') s := by
  refine wp_guard rfl h.synced (steadyClose hfifo h.toSound) (fun s₁ hm _ => h.moved hfifo hm)
    fun s₁ hm hlive => ?_
  dsimp only
  split
  · next hopen =>
      have hbefore : closePhase s.comm = .before := by
        unfold closePhase
        grind
      refine wp_announceClose hfifo hclosures h hbefore hm fun s₂ h₂ hduring => ?_
      rw [wp_slotBind]
      cases hrelaxed : setup.comm.relaxed with
      | true =>
        refine Outline.wp_mono _ (wp_queueDisconnect hfifo hrelaxed h₂ hduring) fun result s₃ hpost => ?_
        obtain ⟨hreturned, hcomm, ⟨rfl, h₃⟩ | ⟨rfl, h₃⟩⟩ := hpost
        · -- refused: the close is tried again later
          refine wp_modify rfl h₃.synced (steadyClose hfifo h₃.toSound) fun s₄ hm₄ hlive₃ => ?_
          have h₄ := (h₃.moved hfifo hm₄).withComm (s₃.comm.mapFlags fun flags =>
            { flags with disconnectPending := true, awaitingHook := false }) (by rw [hm₄.comm]; rfl)
          have hagain : closePhase (s₃.comm.mapFlags fun flags =>
              { flags with disconnectPending := true, awaitingHook := false }) = .before := by
            unfold closePhase
            grind [CommAbstract.mapFlags, CommAbstract.live]
          have hin : InPhase setup fifo (s₄.withComm (s₃.comm.mapFlags fun flags =>
              { flags with disconnectPending := true, awaitingHook := false })) := by
            refine ⟨h₄.toSound, ?_⟩
            show (closePhase (s₃.comm.mapFlags _)).Fits setup _ _
            rw [hagain]
            exact ⟨h₄.none, h₄.begun, h₄.accepted⟩
          exact ⟨hin.toSound, hin, .of_before h hbefore h₄.returned fun hstrict =>
            absurd (hstrict.symm.trans hrelaxed) Bool.false_ne_true⟩
        · have hprompt : (closeOutline setup g fifo).wp (onSlot (
              Comm.modifyFlags (fun flags => { flags with enablePrompt := false }) >>= fun _ =>
                pure false)) (fun _ s' => InPhase setup fifo s' ∧ Closes setup s s') s₃ := by
            rw [wp_slotBind]
            refine Outline.wp_mono _ (wp_withinPhase hfifo h₃ (fun _ => rfl) fun _ => rfl)
              fun _ s₄ hpost => ⟨hpost.1, ?_⟩
            exact .of_before h hbefore (fun hr => hpost.2.1.returned (hreturned hr)) fun hstrict =>
              absurd (hstrict.symm.trans hrelaxed) Bool.false_ne_true
          exact hprompt
      | false =>
        refine Outline.wp_mono _ (wp_runDisconnect hfifo hrelaxed h₂ hduring) fun result s₃ hpost => ?_
        obtain ⟨hreturned, hresult, h₃, hafter⟩ := hpost
        have hend {t : State CloseNotes} (ht : InPhase setup fifo t)
            (hlast : t.comm.live = true → closePhase t.comm = .after)
            (hret : s.notes.returned = true → t.notes.returned = true) :
            (closeOutline setup g fifo).wp (onSlot (
              Comm.modifyFlags (fun flags => { flags with enablePrompt := false }) >>= fun _ =>
                Comm.finishClose setup.comm))
              (fun _ s' => InPhase setup fifo s' ∧ Closes setup s s') t := by
          rw [wp_slotBind]
          refine Outline.wp_mono _ (wp_withinPhase hfifo ht (fun _ => rfl) fun _ => rfl)
            fun _ t₁ hpost => ?_
          obtain ⟨ht₁, hc₁, hphase, hlive₁⟩ := hpost
          have hphase₁ : closePhase t₁.comm = .after := hphase.trans (hlast hlive₁)
          refine Outline.wp_mono _ (wp_finishClose_close hfifo ht₁ (by rw [hphase₁]; rfl))
            fun _ t₂ hpost => ⟨hpost.1, ?_⟩
          refine .of_before h hbefore (fun hr => hpost.2.returned (hc₁.returned (hret hr)))
            fun hstrict => hpost.2.whole hstrict ?_
          simp [hphase₁]
        obtain rfl | rfl := hresult
        · exact hend h₃ hafter hreturned
        · have herror : (closeOutline setup g fifo).wp (onSlot (
              Comm.modifyFlags (fun flags => { flags with awaitingHook := false }) >>= fun _ =>
              Comm.modifyFlags (fun flags => { flags with enablePrompt := false }) >>= fun _ =>
                Comm.finishClose setup.comm))
              (fun _ s' => InPhase setup fifo s' ∧ Closes setup s s') s₃ := by
            rw [wp_slotBind]
            refine Outline.wp_mono _ (wp_withinPhase hfifo h₃ (fun _ => rfl) fun hlive₃ =>
              closePhase_of_whole (by simp [hafter hlive₃]) rfl rfl rfl rfl) fun _ s₄ hpost => ?_
            obtain ⟨h₄, hc₄, hphase, hlive₃⟩ := hpost
            exact hend h₄ (fun _ => hphase.trans (hafter hlive₃)) fun hr => hc₄.returned (hreturned hr)
          exact herror
  · next hclosed =>
      obtain ⟨h₁, hc₁⟩ := h.moved hfifo hm
      have hclosing : (closePhase s₁.comm).closing = true := by
        rw [hm.comm]
        unfold closePhase
        grind [ClosePhase.closing]
      exact Outline.wp_mono _ (wp_finishClose_close hfifo h₁ hclosing) fun _ s' hpost =>
        ⟨hpost.1, hc₁.trans hpost.2⟩

/-! ### Workers -/

omit hfifo in
/-- The thread of a completion goes on. -/
theorem Sound.completed (h : Sound setup fifo s) (hcompleted : s.completed setup task = some s') :
    Sound setup fifo s' ∧ s'.comm = s.comm ∧ s'.notes = s.notes ∧
      s.disconnects = Execution.disconnectStages {(.passed, task)} + s'.disconnects := by
  obtain ⟨rest, hstep, hthreads, hthreads', hcomm, hnotes⟩ := completed_thread hcompleted
  have hmem : Point.completion task ∈ s.threads := by
    rw [← Multiset.mem_coe, hthreads]
    exact Multiset.mem_cons_self _ _
  obtain ⟨hsound, -⟩ := h.thread hmem hstep hthreads hthreads' hcomm hnotes fun _ => ⟨rfl, rfl⟩
  refine ⟨hsound, hcomm, hnotes, ?_⟩
  have hscheduler : s'.scheduler = s.scheduler := by
    have hpair : (s.scheduler, [Point.finalizeAwait]) = (s'.scheduler, [Point.finalizeAwait]) :=
      Option.some.inj hstep
    exact (Prod.mk.inj hpair).1.symm
  rw [State.disconnects, State.disconnects, hthreads, hthreads', hscheduler, Execution.staged_cons,
    Execution.staged_cons, Execution.disconnects_add]
  exact congrArg (_ + ·) (congrArg _ (zero_add _).symm)

theorem wp_idle (h : InPhase setup fifo s) :
    (closeOutline setup g fifo).wp (entryCode setup .worker) (fun _ s' => InPhase setup fifo s') s := by
  simp only [entryCode, Program.effect, Outline.wp, system, unfold, reentrant, Option.isSome_none,
    Bool.false_eq_true, if_false]
  intro a b s' hg hexec
  obtain ⟨s₁, hm, hexec⟩ := exec_worker_eq_some hg hexec
  cases hexec
  have h₁ := (h.moved hfifo hm).1
  exact ⟨h₁.toSound, h₁⟩

omit hfifo in
/-- The end of a completion. -/
theorem wp_completed
    (hend : ∀ s₁ s', Moved setup (observeClose setup) g s s₁ → s₁.completed setup task = some s' →
      InPhase setup fifo s') :
    (closeOutline setup g fifo).wp (Program.effect (.worker (.completed task)))
      (fun _ s' => InPhase setup fifo s') s := by
  simp only [Program.effect, Outline.wp, system, unfold, reentrant, Option.isSome_none,
    Bool.false_eq_true, if_false]
  intro a b s' hg hexec
  obtain ⟨s₁, hm, hexec⟩ := exec_worker_eq_some hg hexec
  obtain ⟨s₂, hcompleted, hs'⟩ := Option.map_eq_some_iff.mp hexec
  cases hs'
  have hdone := hend s₁ s' hm hcompleted
  exact ⟨hdone.toSound, hdone⟩

omit hfifo in
/-- While a disconnect hook is under way, the record says so. -/
theorem InPhase.during_of_completion (h : InPhase setup fifo s)
    (htask : Point.completion task ∈ s.threads) (hdisconnect : task.isDisconnect = true) :
    closePhase s.comm = .during := by
  have hsome : s.disconnects ≠ 0 := by
    obtain ⟨rest, hrest⟩ := Multiset.exists_cons_of_mem (Multiset.mem_coe.mpr htask)
    rw [State.disconnects, hrest, Execution.staged_cons, Execution.disconnects_add]
    intro hzero
    have hcard := congrArg Multiset.card hzero
    rw [Point.carries, Execution.disconnectStages_of_disconnect hdisconnect, Multiset.card_add,
      Multiset.card_singleton, Multiset.card_zero] at hcard
    omega
  have hfits := h.fits
  cases hphase : closePhase s.comm with
  | gone =>
    rw [hphase] at hfits
    exact absurd hfits hsome
  | before | after =>
    rw [hphase] at hfits
    exact absurd hfits.1 hsome
  | during => rfl

/-- A worker runs the completion of its task. -/
theorem wp_complete (h : InPhase setup fifo s) (htask : Point.completion task ∈ s.threads) :
    (closeOutline setup g fifo).wp (entryCode setup (.complete task))
      (fun _ s' => InPhase setup fifo s') s := by
  show (closeOutline setup g fifo).wp (onSlot (Comm.runCompletion task.execution.hookType.completion)
    >>= fun _ => Program.effect (.worker (.completed task))) _ s
  rw [Outline.wp_bind]
  cases hdisconnect : task.isDisconnect with
  | false =>
    have hkinds : ∀ kind ∈ task.execution.hookType.completion.kinds, keepsPhase kind = true := by
      rw [SlotExecution.isDisconnect] at hdisconnect
      cases htype : task.execution.hookType <;>
        simp [htype, HookType.completion, Comm.Completion.kinds, keepsPhase] at hdisconnect ⊢
    refine Outline.wp_mono _ (wp_ordinaryStores hfifo (phasePermits.runCompletion
      fun kind hkind => Comm.grants_of_allowed (hkinds kind hkind)) h)
      fun _ s₁ h₁ => wp_completed fun s₂ s' hm hcompleted => ?_
    have h₂ := (h₁.1.moved hfifo hm).1
    obtain ⟨hsound, hcomm, hnotes, hstages⟩ := h₂.toSound.completed hcompleted
    rw [Execution.disconnectStages_of_not hdisconnect, zero_add] at hstages
    refine ⟨hsound, ?_⟩
    rw [hcomm, hnotes, ← hstages]
    exact h₂.fits
  | true =>
    have htype : task.execution.hookType = .disconnect := of_decide_eq_true hdisconnect
    have hduring := h.during_of_completion htask hdisconnect
    rw [htype]
    refine wp_guard rfl h.synced (steadyClose hfifo h.toSound) (fun s₁ _ hdead => ?_)
      fun s₁ hm hlive => wp_setComm rfl fun s₂ hm₂ => ?_
    · rw [closePhase_eq_gone.mpr hdead] at hduring
      cases hduring
    · have hclosing : (closePhase s.comm).closing = true := by rw [hduring]; rfl
      have hafter := closePhase_disconnected hclosing
      obtain ⟨h₂, -⟩ := h.moved hfifo (hm.trans hm₂)
      have hsame : s₂.comm = s.comm := (hm.trans hm₂).comm
      have hstored : Sound setup fifo (s₂.withComm (s.comm.mapFlags fun flags =>
          { flags with awaitingHook := false })) := by
        refine h₂.toSound.withComm (by rw [hsame]; rfl) fun _ _ => ⟨by rw [hsame, hlive], ?_⟩
        rw [hafter]
        rfl
      refine ⟨hstored, wp_completed fun s₃ s' hm₃ hcompleted => ?_⟩
      obtain ⟨h₃, -⟩ := hstored.moved hfifo hm₃
      obtain ⟨hsound, hcomm, hnotes, hstages⟩ := h₃.completed hcompleted
      rw [Execution.disconnectStages_of_disconnect hdisconnect] at hstages
      -- the completed task was the only call of the hook
      have hprogress := h₃.progress
      rw [hstages] at hprogress
      have hnone : s'.disconnects = 0 := hprogress.eq_zero_of_add
      rw [hnone, add_zero] at hprogress
      obtain ⟨haccepted, -, hreturned⟩ := hprogress.of_stage
      refine ⟨hsound, ?_⟩
      rw [hcomm, hm₃.comm, hnotes, hnone]
      show (closePhase (s.comm.mapFlags _)).Fits setup 0 s₃.notes
      rw [hafter]
      exact ⟨rfl, fun _ => ⟨haccepted, hreturned rfl⟩⟩

end Code

/-! ### Whole runs -/

/-- The entry gives the slot number to another connection although it is in use, or ends the input of the
console. -/
def Entry.replaces : Entry → Bool
  | .slot (.addBio _ _ _ _) | .slot (.consoleEof _) => true
  | _ => false

theorem closeOutline_valid (hfifo : fifo → InTurn setup g) (hclosures : setup.closuresCall = false)
    (hentry : ∀ s x, g.entry s x = true → x.replaces = false) :
    (closeOutline setup g fifo).Valid where
  rest_always _ h := h.toSound
  grows_refl := Closes.refl
  grows_trans _ _ _ := Closes.trans
  call e p hu s hi := by
    cases e with
    | worker e => cases hu
    | slot e =>
      obtain ⟨q, hq, rfl⟩ := Option.map_eq_some_iff.mp hu
      cases e with
      | callFlush =>
        cases hq
        exact wp_ordinaryStores hfifo phasePermits.commFlush hi
      | callClose =>
        cases hq
        exact wp_commClose_close hfifo hclosures hi
      | callTransportReady =>
        cases hq
        exact wp_commInvokeTransportReady_close hfifo hi
      | _ => cases hq
  foreign x hx s hi _ _ := by
    cases x with
    | worker | complete => cases hx
    | slot x =>
      cases x with
      | api caller call =>
        refine wp_ordinaryStores hfifo (phasePermits.apiCode caller fun kind hkind =>
          Comm.grants_of_allowed ?_) hi
        cases call <;> simp_all [Comm.ApiCall.kinds, keepsPhase]
      | _ => cases hx
  entry x s hs henabled hg := by
    have hreplaces := hentry s x hg
    cases x with
    | worker => exact wp_idle hfifo hs
    | complete task => exact wp_complete hfifo hs (of_decide_eq_true henabled)
    | slot x =>
      have hstores (hx : x.connects = false) (hk : ∀ kind ∈ x.kinds, keepsPhase kind = true) :
          (closeOutline setup g fifo).wp (onSlot (Comm.entryCode setup.comm x))
            (fun _ s' => InPhase setup fifo s') s :=
        Outline.wp_mono _ (wp_ordinaryStores hfifo
          (Comm.stores_entryCode keepsPhase_of_ordinary hx hk) hs) fun _ _ h => h.1
      cases x with
      | accept flags =>
        obtain rfl : flags = {} := of_decide_eq_true henabled
        exact wp_accept hfifo hs
      | addBio | consoleEof => cases hreplaces
      | startTask | completeTask => cases henabled
      | api caller call =>
        refine hstores rfl ?_
        cases call <;> simp [Comm.Entry.kinds, Comm.ApiCall.kinds, keepsPhase]
      | _ => exact hstores rfl (by simp [Comm.Entry.kinds, keepsPhase])

end Mudmux.Server
