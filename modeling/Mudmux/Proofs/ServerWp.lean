import Mudmux.Server.Machine
import Mudmux.Proofs.StoreKinds

/-!
# `Mudmux.Proofs.ServerWp`: weakest preconditions of a slot's code beside its scheduler

The rules of `Outline.wp` for the code of a slot in `Mudmux.Server.Machine`. In front of every effect
the threads may move. `Moved` is what they can do; it leaves the record alone, so code between two
effects still computes on a record that it knows. A rule hands the rest of the code over to every state
that the threads may leave.

`wp_of_storesTo` is the rule for code of which only the kinds of its stores matter.
-/

set_option autoImplicit false

namespace Mudmux.Server

open Mudmux.Lib
open CallbackSystem
open Mudmux.Comm (CommAbstract SlotEffect Code StoreKind StoresTo HookCall)
open Mudmux.Execution (Point Choice)

variable {setup : Setup} {γ : Type} {observe : Observer γ} {g : StepGuard γ}

/-! ### Moves -/

/-- The threads moved, every move within the condition. -/
inductive Moved (setup : Setup) (observe : Observer γ) (g : StepGuard γ) :
    State γ → State γ → Prop where
  | refl (s : State γ) : Moved setup observe g s s
  | head {s s₁ s₂ : State γ} {m : Move} (hm : g.move s m = true)
      (hmove : s.move setup observe m = some s₁) (hrest : Moved setup observe g s₁ s₂) :
      Moved setup observe g s s₂

variable {s : State γ}

theorem Moved.trans {s₁ s₂ : State γ} (h : Moved setup observe g s s₁)
    (h' : Moved setup observe g s₁ s₂) : Moved setup observe g s s₂ := by
  induction h with
  | refl => exact h'
  | head hm hmove _ ih => exact .head hm hmove (ih h')

variable {s' : State γ}

/-- What every move keeps. -/
theorem Moved.invariant {P : State γ → Prop} (h : Moved setup observe g s s')
    (hP : ∀ s m s', P s → g.move s m = true → s.move setup observe m = some s' → P s') (hs : P s) :
    P s' := by
  induction h with
  | refl => exact hs
  | head hm hmove _ ih => exact ih (hP _ _ _ hs hm hmove)

theorem moved_of_moves {ms : List Move} (hallows : g.allows setup observe s ms = true)
    (h : s.moves setup observe ms = some s') : Moved setup observe g s s' := by
  induction ms generalizing s with
  | nil =>
    cases h
    exact .refl s'
  | cons m ms ih =>
    obtain ⟨s₁, hmove, hrest⟩ := Option.bind_eq_some_iff.mp h
    simp only [StepGuard.allows, hmove, Bool.and_eq_true] at hallows
    exact .head hallows.1 hmove (ih hallows.2 hrest)

/-- No thread touches the generation or stops the pool. -/
theorem generation_of_step {setup : Execution.Setup} {s : Execution.Slot} {t : Point}
    {choice : Choice} {r : Execution.Slot × List Point}
    (h : Execution.step setup s t choice = some r) :
    r.1.generation = s.generation ∧ r.1.accepting = s.accepting := by
  unfold Execution.step at h
  split at h
  all_goals
    try simp only [Execution.enqueueSection, Execution.awaitSection, Execution.finalizeSection,
      Execution.takeResumeSection, Execution.discardSection, Execution.finishSection] at h
    repeat' split at h
    all_goals cases h
    all_goals exact ⟨rfl, rfl⟩

/-- A thread steps beside the others. -/
theorem move_thread {index : Nat} {choice : Choice}
    (h : s.move setup observe (.thread index choice) = some s') :
    ∃ t new rest, s.threads[index]? = some t ∧ needsLock t = false ∧
      Execution.step setup.scheduler s.scheduler t choice = some (s'.scheduler, new) ∧
      (s.threads : Multiset Point) = t ::ₘ rest ∧
      (s'.threads : Multiset Point) = (new : Multiset Point) + rest ∧ s'.comm = s.comm ∧
      s'.notes = (pointEvents s.scheduler.generation t choice).foldl
        (fun notes event => observe event notes) s.notes := by
  simp only [State.move] at h
  split at h
  · cases h
  · next t ht =>
      split at h
      · cases h
      · next hlock =>
          obtain ⟨c, hexec, rfl⟩ := Option.map_eq_some_iff.mp h
          obtain ⟨t', new, rest, hget, hstep, hthreads, hthreads'⟩ :=
            ThreadSystem.exists_step_of_exec hexec
          obtain rfl : t = t' := Option.some.inj (ht.symm.trans hget)
          exact ⟨t, new, rest, ht, by simpa using hlock, hstep, hthreads, hthreads', rfl, rfl⟩

/-- `comm_add_message` starts a thread that will queue the hook. -/
theorem move_outbound (h : s.move setup observe .outbound = some s') :
    s'.comm = s.comm ∧ s'.notes = s.notes ∧
      (∃ dispatches answers, s'.scheduler = { s.scheduler with dispatches, answers }) ∧
      ∃ new, s'.threads = s.threads ++ new ∧
        ∀ t ∈ new, ∃ execution allowPending, t = .enqueue execution allowPending ∧
          execution.hookType = .messageOutbound := by
  simp only [State.move] at h
  split at h
  · obtain ⟨c, hexec, rfl⟩ := Option.map_eq_some_iff.mp h
    obtain ⟨⟨shared, new⟩, hact, rfl⟩ := Option.map_eq_some_iff.mp hexec
    simp only [Execution.act] at hact
    refine ⟨rfl, rfl, ?_⟩
    split at hact
    · cases hact
      exact ⟨⟨_, _, rfl⟩, [], by simp [State.withThreading, State.threading], by simp⟩
    · split at hact
      · cases hact
        refine ⟨⟨_, _, rfl⟩, _, rfl, fun t ht => ?_⟩
        rw [List.mem_singleton.mp ht]
        exact ⟨_, _, rfl, rfl⟩
      · cases hact
        exact ⟨⟨_, _, rfl⟩, [], by simp [State.withThreading, State.threading], by simp⟩
  · cases h

/-- The thread of a completion goes on to finalize the await. -/
theorem completed_thread {task : Execution.SlotExecution} (h : s.completed setup task = some s') :
    ∃ rest, Execution.step setup.scheduler s.scheduler (.completion task) .proceed
        = some (s'.scheduler, [.finalizeAwait]) ∧
      (s.threads : Multiset Point) = .completion task ::ₘ rest ∧
      (s'.threads : Multiset Point) = Point.finalizeAwait ::ₘ rest ∧
      s'.comm = s.comm ∧ s'.notes = s.notes := by
  obtain ⟨index, hindex, hmap⟩ := Option.bind_eq_some_iff.mp h
  obtain ⟨c, hexec, rfl⟩ := Option.map_eq_some_iff.mp hmap
  obtain ⟨t, new, rest, hget, hstep, hthreads, hthreads'⟩ := ThreadSystem.exists_step_of_exec hexec
  obtain ⟨hlt, htask, -⟩ := List.findIdx?_eq_some_iff_getElem.mp hindex
  have hpoint : t = Point.completion task := by
    have hsome : s.threads[index]? = some t := hget
    rw [List.getElem?_eq_getElem hlt, Option.some.injEq] at hsome
    rw [← hsome]
    exact eq_of_beq htask
  subst hpoint
  have hpair : (s.scheduler, [Point.finalizeAwait]) = (c.shared, new) := Option.some.inj hstep
  obtain ⟨-, rfl⟩ := Prod.mk.inj hpair
  exact ⟨rest, hstep, hthreads, hthreads', rfl, rfl⟩

theorem move_keeps {m : Move} (h : s.move setup observe m = some s') :
    s'.comm = s.comm ∧ s'.scheduler.generation = s.scheduler.generation := by
  cases m with
  | thread index choice =>
    obtain ⟨t, new, rest, -, -, hstep, -, -, hcomm, -⟩ := move_thread h
    exact ⟨hcomm, (generation_of_step hstep).1⟩
  | outbound =>
    obtain ⟨hcomm, -, ⟨dispatches, answers, hscheduler⟩, -⟩ := move_outbound h
    rw [hscheduler]
    exact ⟨hcomm, rfl⟩

theorem comm_of_moves {ms : List Move} (h : s.moves setup observe ms = some s') :
    s'.comm = s.comm := by
  induction ms generalizing s with
  | nil =>
    cases h
    rfl
  | cons m ms ih =>
    obtain ⟨s₁, hmove, hrest⟩ := Option.bind_eq_some_iff.mp h
    rw [ih hrest, (move_keeps hmove).1]

theorem Moved.comm (h : Moved setup observe g s s') : s'.comm = s.comm :=
  h.invariant (P := fun t => t.comm = s.comm)
    (fun _ _ _ ht _ hmove => (move_keeps hmove).1.trans ht) rfl

/-- The scheduler sees the generation of the record. -/
def State.Synced (s : State γ) : Prop :=
  s.scheduler.generation = Comm.commAbstractGeneration s.comm

theorem Moved.synced (h : Moved setup observe g s s') (hs : s.Synced) : s'.Synced :=
  h.invariant (P := State.Synced) (fun t m t' ht _ hmove => by
    obtain ⟨hcomm, hgeneration⟩ := move_keeps hmove
    rw [State.Synced, hcomm, hgeneration]
    exact ht) hs

theorem State.withComm_self (hs : s.Synced) : s.withComm s.comm = s := by
  obtain ⟨comm, scheduler, threads, notes⟩ := s
  rw [State.Synced] at hs
  simp only [State.withComm, ← hs]

/-! ### Effects -/

variable {β : Type}

/-- An effect of the slot's code is one behind some moves. -/
theorem exec_slot_eq_some {e : SlotEffect β} {a : Answer} {b : β}
    (hg : (g.guard setup observe).effect s (.slot e) a = true)
    (h : (system setup observe).exec (.slot e) a s = some (b, s')) :
    ∃ s₁, Moved setup observe g s s₁ ∧ g.effect s₁ e = true ∧
      s₁.effect setup observe e a.slot = some (b, s') := by
  obtain ⟨s₁, hmoves, hexec⟩ := Option.bind_eq_some_iff.mp h
  simp only [StepGuard.guard, hmoves, Bool.and_eq_true] at hg
  exact ⟨s₁, moved_of_moves hg.1 hmoves, hg.2, hexec⟩

theorem exec_worker_eq_some {e : WorkerEffect β} {a : Answer} {b : β}
    (hg : (g.guard setup observe).effect s (.worker e) a = true)
    (h : (system setup observe).exec (.worker e) a s = some (b, s')) :
    ∃ s₁, Moved setup observe g s s₁ ∧ exec setup observe s₁ (.worker e) a.slot = some (b, s') := by
  obtain ⟨s₁, hmoves, hexec⟩ := Option.bind_eq_some_iff.mp h
  simp only [StepGuard.guard, hmoves, Bool.and_eq_true] at hg
  exact ⟨s₁, moved_of_moves hg.1 hmoves, hexec⟩

/-- An effect does to the record what it does to it alone, for some answer. -/
theorem comm_of_effect {e : SlotEffect β} {a : Comm.Answer} {b : β}
    (h : s.effect setup observe e a = some (b, s')) :
    ∃ a', Comm.slotExec e a' s.comm = some (b, s'.comm) := by
  cases e with
  | enqueue call completion =>
    cases h
    refine ⟨.dispatch (s.dispatch setup call).1, if_neg ?_⟩
    simp only [State.dispatch, enqueueAnswer]
    split <;> nofun
  | slotBusy =>
    cases a <;> simp only [State.effect, reduceCtorEq] at h
    split at h
    · cases h
    · cases h
      exact ⟨.bool b, rfl⟩
  | cancelAwait =>
    cases h
    exact ⟨.unit, rfl⟩
  | invalidAccess => exact nomatch b
  | callFlush | callClose | callTransportReady => cases a <;> cases h
  | _ =>
    obtain ⟨r, hr, hs'⟩ := Option.map_eq_some_iff.mp h
    cases hs'
    exact ⟨a, hr⟩

section Rules

variable {O : (system setup observe).Outline} (hO : O.guard = g.guard setup observe) {α β : Type}
  {Q : α → State γ → Prop}
include hO

theorem wp_effect {e : SlotEffect β} {k : β → Code α} (hu : Comm.unfold setup.comm e = none)
    (hr : reentrant setup (.slot e) = false)
    (h : ∀ s₁ a b s', Moved setup observe g s s₁ → g.effect s₁ e = true →
      s₁.effect setup observe e a = some (b, s') → O.always s' ∧ O.wp (onSlot (k b)) Q s') :
    O.wp (onSlot (.perform e k)) Q s := by
  show O.wp (.perform (.slot e) fun b => onSlot (k b)) Q s
  simp only [Outline.wp, system, unfold, hu, hr, Option.map_none, Option.isSome_none,
    Bool.false_eq_true, if_false]
  intro a b s' hg hexec
  rw [hO] at hg
  obtain ⟨s₁, hmoved, heffect, hexec⟩ := exec_slot_eq_some hg hexec
  exact h s₁ _ b s' hmoved heffect hexec

theorem wp_reentrant {e : SlotEffect β} {k : β → Code α} (hu : Comm.unfold setup.comm e = none)
    (hr : reentrant setup (.slot e) = true) (hi : O.inner s)
    (h : ∀ s₀ s₁ a b s', O.inner s₀ → O.grows s s₀ → Moved setup observe g s₀ s₁ →
      g.effect s₁ e = true → s₁.effect setup observe e a = some (b, s') →
        O.always s' ∧ O.wp (onSlot (k b)) Q s') : O.wp (onSlot (.perform e k)) Q s := by
  show O.wp (.perform (.slot e) fun b => onSlot (k b)) Q s
  simp only [Outline.wp, system, unfold, hu, hr, Option.map_none, Option.isSome_none,
    Bool.false_eq_true, if_false, if_true]
  refine ⟨hi, fun s₀ a b s' hi₀ hgrows hg hexec => ?_⟩
  rw [hO] at hg
  obtain ⟨s₁, hmoved, heffect, hexec⟩ := exec_slot_eq_some hg hexec
  exact h s₀ s₁ _ b s' hi₀ hgrows hmoved heffect hexec

omit hO in
theorem wp_call {e : SlotEffect β} {p : Code β} {k : β → Code α}
    (hu : Comm.unfold setup.comm e = some p) (hi : O.inner s)
    (h : ∀ b s', O.inner s' → O.grows s s' → O.wp (onSlot (k b)) Q s') :
    O.wp (onSlot (.perform e k)) Q s := by
  show O.wp (.perform (.slot e) fun b => onSlot (k b)) Q s
  simp only [Outline.wp, system, unfold, hu, Option.map_some, Option.isSome_some, if_true]
  exact ⟨hi, h⟩

omit hO in
theorem wp_slotBind (p : Code β) (f : β → Code α) :
    O.wp (onSlot (p >>= f)) Q s
      ↔ O.wp (onSlot p) (fun b s' => O.wp (onSlot (f b)) Q s') s := by
  rw [onSlot, Program.mapEffects_bind, Outline.wp_bind]
  exact Iff.rfl

/-! ### Reading and storing the record -/

/-- `always` is kept by the moves. -/
def Steady (setup : Setup) (observe : Observer γ) (g : StepGuard γ)
    (O : (system setup observe).Outline) (s : State γ) : Prop :=
  ∀ s₁, Moved setup observe g s s₁ → O.always s₁

theorem wp_setComm {Q : Unit → State γ → Prop} {c' : CommAbstract}
    (h : ∀ s₁, Moved setup observe g s s₁ → O.always (s₁.withComm c') ∧ Q () (s₁.withComm c')) :
    O.wp (onSlot (Comm.setComm c')) Q s := by
  refine wp_effect hO rfl rfl fun s₁ a b s' hmoved _ hexec => ?_
  cases a <;> cases hexec
  exact h s₁ hmoved

/-- A store in front of the rest of the code. -/
theorem wp_store {c' : CommAbstract} {k : Unit → Code α} (h : ∀ s₁, Moved setup observe g s s₁ →
      O.always (s₁.withComm c') ∧ O.wp (onSlot (k ())) Q (s₁.withComm c')) :
    O.wp (onSlot (Comm.setComm c' >>= k)) Q s := by
  rw [wp_slotBind]
  exact wp_setComm hO h

section

variable (hs : s.Synced) (halways : Steady setup observe g O s)

include hs halways

theorem wp_getSlot {k : CommAbstract → Code α}
    (h : ∀ s₁, Moved setup observe g s s₁ → O.wp (onSlot (k s.comm)) Q s₁) :
    O.wp (onSlot (.perform .getSlot k)) Q s := by
  refine wp_effect hO rfl rfl fun s₁ a b s' hmoved _ hexec => ?_
  cases a <;> cases hexec
  have hsame : (s₁.withComm s₁.comm).note observe (effectEvents s₁.comm SlotEffect.getSlot) = s₁ :=
    State.withComm_self (hmoved.synced hs)
  rw [hsame, hmoved.comm]
  exact ⟨halways s₁ hmoved, h s₁ hmoved⟩

/-- Code behind the test of the guard. -/
theorem wp_guard {f : Option CommAbstract → Code α}
    (hnone : ∀ s₁, Moved setup observe g s s₁ → s.comm.live = false → O.wp (onSlot (f none)) Q s₁)
    (hsome : ∀ s₁, Moved setup observe g s s₁ → s.comm.live = true →
      O.wp (onSlot (f (some s.comm))) Q s₁) : O.wp (onSlot (Comm.commGuard >>= f)) Q s := by
  rw [wp_slotBind, Comm.commGuard, Program.effect_bind]
  refine wp_getSlot hO hs halways fun s₁ hmoved => ?_
  show O.wp (onSlot (f (if s.comm.live then some s.comm else none))) Q s₁
  split
  · next hlive => exact hsome s₁ hmoved hlive
  · next hlive => exact hnone s₁ hmoved (by simpa using hlive)

/-- Code behind a dereference of the guard. -/
theorem wp_deref {f : CommAbstract → Code α}
    (h : ∀ s₁, Moved setup observe g s s₁ → s.comm.live = true → O.wp (onSlot (f s.comm)) Q s₁) :
    O.wp (onSlot (Comm.commDeref >>= f)) Q s := by
  rw [wp_slotBind, Comm.commDeref, Program.effect_bind]
  refine wp_getSlot hO hs halways fun s₁ hmoved => ?_
  split
  · next hlive => exact h s₁ hmoved hlive
  · exact wp_effect hO rfl rfl fun _ _ b => b.elim

/-- A change of the record. -/
theorem wp_modifyComm {Q : Unit → State γ → Prop} {f : CommAbstract → CommAbstract}
    (h : ∀ s₁, Moved setup observe g s s₁ → s.comm.live = true →
      O.always (s₁.withComm (f s.comm)) ∧ Q () (s₁.withComm (f s.comm))) :
    O.wp (onSlot (Comm.modifyComm f)) Q s :=
  wp_deref hO hs halways fun _ hmoved hlive => wp_setComm hO fun s₂ hmoved' =>
    h s₂ (hmoved.trans hmoved') hlive

/-- A change of the record in front of the rest of the code. -/
theorem wp_modify {f : CommAbstract → CommAbstract} {k : Unit → Code α}
    (h : ∀ s₁, Moved setup observe g s s₁ → s.comm.live = true →
      O.always (s₁.withComm (f s.comm)) ∧ O.wp (onSlot (k ())) Q (s₁.withComm (f s.comm))) :
    O.wp (onSlot (Comm.modifyComm f >>= k)) Q s := by
  rw [wp_slotBind]
  exact wp_modifyComm hO hs halways h

end

/-- The test whether the slot is busy, which in relaxed mode asks the scheduler. -/
theorem wp_slotBusy {k : Bool → Code α} (hrelaxed : setup.comm.relaxed = true)
    (halways : Steady setup observe g O s) (h : ∀ s₁, Moved setup observe g s s₁ →
      O.wp (onSlot (k (Execution.mudmuxExecutionSlotBusy s₁.scheduler.state))) Q s₁) :
    O.wp (onSlot (.perform .slotBusy k)) Q s := by
  refine wp_effect hO rfl rfl fun s₁ a b s' hmoved _ hexec => ?_
  cases a <;> simp only [State.effect, reduceCtorEq] at hexec
  split at hexec
  · cases hexec
  · next hanswer =>
      cases hexec
      have hbusy : b = Execution.mudmuxExecutionSlotBusy s₁.scheduler.state := by
        simpa [hrelaxed] using hanswer
      rw [hbusy]
      exact ⟨halways s₁ hmoved, h s₁ hmoved⟩

/-! ### Code by the kinds of its stores -/

omit hO in
/-- What `storeSpec` says of an effect, up to the deferral of input. -/
def kindSpec (setup : Comm.Setup) (allowed : StoreKind → Prop) (c : CommAbstract) :
    {β : Type} → SlotEffect β → Prop
  | _, .setSlot c' => ∃ kind, allowed kind ∧ kind.Store setup c c'
  | _, .addBio _ _ _ _ => False
  | _, .beginHook call => call = .disconnect → allowed .close
  | _, .enqueue call _ => call = .disconnect → allowed .close
  | _, .remove => allowed .close
  | _, _ => True

omit hO in
theorem kindSpec_of_storeSpec {allowed : StoreKind → Prop} {c : CommAbstract} {e : SlotEffect β}
    (h : Comm.storeSpec setup.comm allowed β c e) : kindSpec setup.comm allowed c e := by
  cases e with
  | setSlot c' =>
    obtain ⟨kind, hallowed, -, hstore⟩ := h
    exact ⟨kind, hallowed, hstore⟩
  | addBio => exact h
  | beginHook => exact h
  | enqueue => exact h.1
  | remove => exact h
  | _ => exact True.intro

omit hO in
/-- A requirement on the effects of the slot's code. -/
def slotOnly (spec : SlotEffect β → Prop) : Effect β → Prop
  | .slot e => spec e
  | .worker _ => False

omit hO in
/-- A requirement on two effects of the slot's code. -/
def slotPair {δ : Type} (pair : SlotEffect β → SlotEffect δ → Prop) : Effect β → Effect δ → Prop
  | .slot e, .slot e' => pair e e'
  | _, _ => False

/-- If every effect that keeps to the allowed kinds keeps `inner` and `rel`, so does code whose stores
are of these kinds. -/
theorem wp_of_storesTo {allowed : StoreKind → Prop} (rel : State γ → State γ → Prop)
    (hrefl : ∀ s, rel s s) (htrans : ∀ s s' s'', rel s s' → rel s' s'' → rel s s'')
    (hgrows : ∀ s s', O.grows s s' → rel s s')
    (hmoved : ∀ s s₁, Moved setup observe g s s₁ → O.inner s → O.inner s₁ ∧ rel s s₁)
    (hlocal : ∀ {β : Type} (e : SlotEffect β) (s : State γ) (a : Comm.Answer) (b : β) (s' : State γ),
      kindSpec setup.comm allowed s.comm e → O.inner s → g.effect s e = true →
      s.effect setup observe e a = some (b, s') → O.always s' ∧ O.inner s' ∧ rel s s') {p : Code α}
    {R : α → CommAbstract → Prop} (hp : StoresTo setup.comm allowed p R s.comm) (hi : O.inner s) :
    O.wp (onSlot p) (fun a s' => R a s'.comm ∧ O.inner s' ∧ rel s s') s := by
  -- an effect of the system is an effect behind moves
  have hstep {β : Type} (e : SlotEffect β) (s : State γ) (a : Answer) (b : β) (s' : State γ)
      (hspec : kindSpec setup.comm allowed s.comm e) (hi : O.inner s)
      (hg : O.guard.effect s (.slot e) a = true)
      (hexec : (system setup observe).exec (.slot e) a s = some (b, s')) :
      O.always s' ∧ O.inner s' ∧ rel s s' := by
    rw [hO] at hg
    obtain ⟨s₁, hm, heffect, hexec⟩ := exec_slot_eq_some hg hexec
    obtain ⟨hi₁, hrel⟩ := hmoved s s₁ hm hi
    rw [← hm.comm] at hspec
    obtain ⟨halways, hi', hrel'⟩ := hlocal e s₁ _ b s' hspec hi₁ heffect hexec
    exact ⟨halways, hi', htrans _ _ _ hrel hrel'⟩
  have hpairs : PairsTo (S := system setup observe)
      (fun β s => slotOnly (Comm.storeSpec setup.comm allowed β (State.comm s)))
      (fun β δ s => slotPair (Comm.deferPair setup.comm allowed β δ (State.comm s)))
      (fun a s' => R a (State.comm s')) (onSlot p) s := by
    refine PairsTo.mapEffects (S := system setup observe) (R := Comm.recordSystem setup.comm)
      (fun e => Effect.slot e) State.comm (fun e => Option.isSome_map) (fun e hr => ?_)
      (fun e a s b s' hexec => ?_) (fun s e h => h) (fun s e e' h => h) hp rfl
    · cases e with
      | cancelAwait => rfl
      | _ => exact hr
    · obtain ⟨s₁, hmoves, hexec⟩ := Option.bind_eq_some_iff.mp hexec
      rw [← comm_of_moves hmoves]
      exact comm_of_effect hexec
  refine Outline.wp_of_pairsTo _ _ rel hrefl htrans hgrows (fun e s a b s' hspec hi hg hexec => ?_)
    (fun e e' s hpair hi a b s' hg hexec => ?_) hpairs hi
  · cases e with
    | slot e => exact hstep e s a b s' (kindSpec_of_storeSpec hspec) hi hg hexec
    | worker e => exact absurd hspec id
  · -- a deferral: the store and the announcement to the event loop, one after the other
    cases e with
    | worker e => exact absurd hpair id
    | slot e =>
      cases e' with
      | worker e' => exact absurd hpair id
      | slot e' =>
        cases e with
        | setSlot c' =>
          cases e' with
          | setHasDeferred value =>
            obtain ⟨hallowed, hstore, -⟩ := hpair
            obtain ⟨halways, hi', hrel⟩ :=
              hstep (.setSlot c') s a b s' ⟨.defer, hallowed, hstore⟩ hi hg hexec
            refine ⟨halways, fun a' b' s'' hg' hexec' => ?_⟩
            obtain ⟨halways', hi'', hrel'⟩ :=
              hstep (.setHasDeferred value) s' a' b' s'' True.intro hi' hg' hexec'
            exact ⟨halways', hi'', htrans _ _ _ hrel hrel'⟩
          | _ => exact absurd hpair id
        | _ => exact absurd hpair id

/-! ### The end of a close -/

/-- `finishClose`, if `I` holds behind the disconnect hook and is kept by what drains the connection. -/
theorem wp_finishClose_rule {I : State γ → Prop} {Q : Bool → State γ → Prop} (hs : s.Synced)
    (halways : Steady setup observe g O s)
    (hwaiting : ∀ s₁, Moved setup observe g s s₁ → s.comm.live = true →
      s.comm.flags.awaitingHook = true → Q false s₁)
    (hover : ∀ s₁, Moved setup observe g s s₁ → s.comm.live = true →
      s.comm.flags.awaitingHook = false → I s₁)
    (hflushed : ∀ t, I t → O.wp (onSlot (Comm.modifyFlags fun flags =>
      { flags with bufferedWrite := false })) (fun _ t' => I t') t)
    (hkeep : ∀ (e : SlotEffect Unit) (t : State γ), e.isStore = false → Comm.unfold setup.comm e = none →
      reentrant setup (.slot e) = false → I t → O.wp (onSlot (Program.effect e)) (fun _ t' => I t') t)
    (hleft : ∀ t, I t → Q false t)
    (hremove : ∀ t, I t → O.wp (onSlot (Program.effect .remove)) (fun _ t' => Q true t') t) :
    O.wp (onSlot (Comm.finishClose setup.comm)) Q s := by
  -- the queue is dropped
  have hdiscard {β : Type} {k : Unit → Code β} {Q : β → State γ → Prop} {t : State γ} (ht : I t)
      (hk : ∀ t', I t' → O.wp (onSlot (k ())) Q t') :
      O.wp (onSlot (Program.effect .freeOutbound >>= fun _ =>
        Comm.modifyFlags (fun flags => { flags with bufferedWrite := false }) >>= k)) Q t := by
    rw [wp_slotBind]
    refine Outline.wp_mono _ (hkeep _ t rfl rfl rfl ht) fun _ t₁ ht₁ => ?_
    rw [wp_slotBind]
    exact Outline.wp_mono _ (hflushed t₁ ht₁) fun _ => hk
  refine wp_deref hO hs halways fun s₁ hm hlive => ?_
  split
  · next hawaiting => exact hwaiting s₁ hm hlive hawaiting
  · next hawaiting =>
      have h₁ : I s₁ := hover s₁ hm hlive (by simpa using hawaiting)
      split
      · refine hdiscard h₁ fun t ht => ?_
        cases setup.comm.fileInputs with
        | true => exact hremove t ht
        | false => exact hleft t ht
      · split
        · exact hleft s₁ h₁
        · -- what is left of the output goes before the connection does
          have hend {k : Unit → Code Bool} (hk : ∀ t, I t → O.wp (onSlot (k ())) Q t) :
              O.wp (onSlot (
                if s.comm.flags.bufferedWrite then
                  Program.effect .freeOutbound >>= fun _ =>
                    Comm.modifyFlags (fun flags => { flags with bufferedWrite := false }) >>= k
                else k ())) Q s₁ := by
            split
            · exact hdiscard h₁ hk
            · exact hk s₁ h₁
          have hfarewell (t : State γ) (ht : I t) : O.wp (onSlot (do
              Program.effect (.queueClose (Comm.closePayload 1000))
              pure false)) Q t := by
            rw [wp_slotBind]
            exact Outline.wp_mono _ (hkeep _ t rfl rfl rfl ht) fun _ => hleft
          split
          · exact hend hfarewell
          · exact hend hfarewell
          · exact hend hleft
          · exact hend hremove
          · exact hend hremove

end Rules

end Mudmux.Server
