import Mudmux.Proofs.CodeSteps

/-!
# `Mudmux.Proofs.SlotWp`: weakest preconditions of a slot's code

The rules of `Outline.wp` at the effects of a slot, for any outline of the machine. An observer that
does not look at reads and stores of the record (`IgnoresRecord`) makes the code between two other
effects compute on the record alone: `wp_guard`, `wp_deref`, `wp_store` and `wp_modify` follow such
code.
-/

set_option autoImplicit false

namespace Mudmux.Comm

open Mudmux.Lib
open CallbackSystem

/-- Reading and storing the record is not noted. -/
class IgnoresRecord {γ : Type} (observe : Observer γ) : Prop where
  getSlot : ∀ a c c' n, observe .getSlot a c c' n = n
  setSlot : ∀ comm a c c' n, observe (.setSlot comm) a c c' n = n

/-- The state behind an effect with its answer. -/
def SlotState.after {γ β : Type} (observe : Observer γ) (s : SlotState γ) (e : SlotEffect β)
    (a : Answer) (b : β) (c' : CommAbstract) : SlotState γ :=
  ⟨c', tasksAfter s.comm s.tasks e b, observe e a s.comm c' s.notes⟩

variable {setup : Setup} {γ : Type} {observe : Observer γ}
  {O : (slotSystem setup observe).Outline} {α β : Type} {Q : α → SlotState γ → Prop}
  {s : SlotState γ}

variable {e : SlotEffect β}

/-- An effect of the machine is the effect on the record, with the tasks and the notes moved along. -/
theorem exec_eq_some (setup : Setup) {a : Answer} {s s' : SlotState γ} {b : β}
    (h : (slotSystem setup observe).exec e a s = some (b, s')) :
    slotExec e a s.comm = some (b, s'.comm) ∧ s' = s.after observe e a b s'.comm := by
  obtain ⟨r, hr, hs'⟩ := Option.map_eq_some_iff.mp h
  cases hs'
  exact ⟨hr, rfl⟩

variable {k : β → Code α}

theorem wp_effect (hu : unfold setup e = none) (hr : reentrant e = false)
    (h : ∀ a b c', O.guard.effect s e a = true → slotExec e a s.comm = some (b, c') →
      O.always (s.after observe e a b c') ∧ O.wp (k b) Q (s.after observe e a b c')) :
    O.wp (.perform e k) Q s := by
  simp only [Outline.wp, slotSystem, hu, hr, Option.isSome_none, Bool.false_eq_true, if_false]
  intro a b s' hg hexec
  obtain ⟨hexec, hs'⟩ := exec_eq_some setup hexec
  rw [hs']
  exact h a b _ hg hexec

theorem wp_reentrant (hu : unfold setup e = none) (hr : reentrant e = true) (hi : O.inner s)
    (h : ∀ (s' : SlotState γ) a b c', O.inner s' → O.grows s s' → O.guard.effect s' e a = true →
      slotExec e a s'.comm = some (b, c') →
        O.always (s'.after observe e a b c') ∧ O.wp (k b) Q (s'.after observe e a b c')) :
    O.wp (.perform e k) Q s := by
  simp only [Outline.wp, slotSystem, hu, hr, Option.isSome_none, Bool.false_eq_true, if_false,
    if_true]
  refine ⟨hi, fun s' a b s'' hi' hgrows hg hexec => ?_⟩
  obtain ⟨hexec, hs''⟩ := exec_eq_some setup hexec
  rw [hs'']
  exact h s' a b _ hi' hgrows hg hexec

theorem wp_call {p : Code β} (hu : unfold setup e = some p) (hi : O.inner s)
    (h : ∀ b s', O.inner s' → O.grows s s' → O.wp (k b) Q s') : O.wp (.perform e k) Q s := by
  simp only [Outline.wp, slotSystem, hu, Option.isSome_some, if_true]
  exact ⟨hi, h⟩

/-! ### Reading and storing the record -/

variable [IgnoresRecord observe]

theorem wp_getSlot {k : CommAbstract → Code α} (halways : O.always s)
    (h : O.wp (k s.comm) Q s) : O.wp (.perform .getSlot k) Q s := by
  refine wp_effect rfl rfl fun a b c' _ hexec => ?_
  cases a <;> cases hexec
  have hs : s.after observe .getSlot .unit s.comm s.comm = s := by
    simp only [SlotState.after, IgnoresRecord.getSlot, tasksAfter]
  rw [hs]
  exact ⟨halways, h⟩

theorem wp_setComm {Q : Unit → SlotState γ → Prop} {c' : CommAbstract}
    (halways : O.always { s with comm := c' }) (h : Q () { s with comm := c' }) :
    O.wp (setComm c') Q s := by
  refine wp_effect rfl rfl fun a b c'' _ hexec => ?_
  cases a <;> cases hexec
  have hs : s.after observe (.setSlot c') .unit () c' = { s with comm := c' } := by
    simp only [SlotState.after, IgnoresRecord.setSlot, tasksAfter]
  rw [hs]
  exact ⟨halways, h⟩

/-- Code behind the test of the guard. -/
theorem wp_guard {f : Option CommAbstract → Code α} (halways : O.always s)
    (hnone : s.comm.live = false → O.wp (f none) Q s)
    (hsome : s.comm.live = true → O.wp (f (some s.comm)) Q s) : O.wp (commGuard >>= f) Q s := by
  rw [Outline.wp_bind, commGuard, Program.effect_bind]
  refine wp_getSlot halways ?_
  show O.wp (f (if s.comm.live then some s.comm else none)) Q s
  split
  · next hlive => exact hsome hlive
  · next hlive => exact hnone (by simpa using hlive)

/-- Code behind a dereference of the guard. -/
theorem wp_deref {f : CommAbstract → Code α} (halways : O.always s)
    (h : s.comm.live = true → O.wp (f s.comm) Q s) : O.wp (commDeref >>= f) Q s := by
  rw [Outline.wp_bind, commDeref, Program.effect_bind]
  refine wp_getSlot halways ?_
  split
  · next hlive => exact h hlive
  · exact wp_effect rfl rfl fun a b => b.elim

/-- A store in front of the rest of the code. -/
theorem wp_store {c' : CommAbstract} {k : Unit → Code α} (halways : O.always { s with comm := c' })
    (h : O.wp (k ()) Q { s with comm := c' }) : O.wp (setComm c' >>= k) Q s := by
  rw [Outline.wp_bind]
  exact wp_setComm halways h

variable {f : CommAbstract → CommAbstract}

theorem wp_modifyComm {Q : Unit → SlotState γ → Prop} (halways : O.always s)
    (halways' : O.always { s with comm := f s.comm })
    (h : s.comm.live = true → Q () { s with comm := f s.comm }) : O.wp (modifyComm f) Q s :=
  wp_deref halways fun hlive => wp_setComm halways' (h hlive)

/-- A change of the record in front of the rest of the code. -/
theorem wp_modify {k : Unit → Code α} (halways : O.always s)
    (halways' : O.always { s with comm := f s.comm })
    (h : s.comm.live = true → O.wp (k ()) Q { s with comm := f s.comm }) :
    O.wp (modifyComm f >>= k) Q s := by
  rw [Outline.wp_bind]
  exact wp_modifyComm halways halways' h

end Mudmux.Comm
