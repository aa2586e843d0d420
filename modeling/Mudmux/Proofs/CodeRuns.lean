import Mudmux.Proofs.CodeWalk
import Mudmux.Proofs.StrictDispatch

/-!
# `Mudmux.Proofs.CodeRuns`: code that meets a requirement, in given surroundings

Code that meets a requirement performs only effects that the requirement allows, at every depth of calls.
So what such effects keep, and what foreign code keeps, is kept by the whole evaluation (`KeptBy.eval`).
-/

set_option autoImplicit false

namespace Mudmux.Comm

open Mudmux.Lib

variable {ρ : Type} {setup : Setup} {env : Surroundings ρ} {β : Type} {e : SlotEffect β} {b : β}

/-- An effect that lets no foreign code in is performed on the record. -/
theorem exec_of_perform {w w' : World ρ} (hr : reentrant e = false)
    (hperform : env.perform e w = some (b, w')) : ∃ a, slotExec e a w.comm = some (b, w'.comm) := by
  obtain ⟨⟨b', c'⟩, hexec, hresult⟩ := Option.map_eq_some_iff.mp hperform
  cases hresult
  have hvisit : (env.visit e w).comm = w.comm := by
    rw [Surroundings.visit, hr]
    split <;> rfl
  rw [hvisit] at hexec
  exact ⟨_, hexec⟩

/-- Foreign code runs in place of a reentrant effect, which does nothing else to the record. -/
theorem comm_of_perform_reentrant {w w' : World ρ} (hr : reentrant e = true)
    (hperform : env.perform e w = some (b, w')) : w'.comm = (env.foreign e w.comm w.outside).1 := by
  obtain ⟨⟨b', c'⟩, hexec, hresult⟩ := Option.map_eq_some_iff.mp hperform
  cases hresult
  have hvisit : (env.visit e w).comm = (env.foreign e w.comm w.outside).1 := by
    cases e <;> first | rfl | cases hr
  have hsame : c' = (env.visit e w).comm := by
    cases e <;> first | exact slotExec_of_leavesRecord rfl hexec | cases hr
  exact hsame.trans hvisit

/-- What is kept by every effect that meets the requirement, and by foreign code. -/
structure KeptBy (setup : Setup) (env : Surroundings ρ) (R : Requirement)
    (rel : World ρ → World ρ → Prop) : Prop where
  refl : ∀ w, rel w w
  trans : ∀ {w w' w''}, rel w w' → rel w' w'' → rel w w''
  foreign : ∀ {β : Type} {e : SlotEffect β} {b : β} {w w' : World ρ}, reentrant e = true →
    (∀ c, R.spec _ c e) → env.perform e w = some (b, w') → rel w w'
  effect : ∀ {β : Type} {e : SlotEffect β} {b : β} {w w' : World ρ}, reentrant e = false →
    R.spec _ w.comm e → env.perform e w = some (b, w') → rel w w'
  pair : ∀ {β δ : Type} {e : SlotEffect β} {e' : SlotEffect δ} {b : β} {b' : δ} {w w₁ w' : World ρ},
    reentrant e = false → reentrant e' = false → R.pair _ _ w.comm e e' →
    env.perform e w = some (b, w₁) → env.perform e' w₁ = some (b', w') → rel w w'
  calls : ∀ {β : Type} {e : SlotEffect β} {p : Code β}, unfold setup e = some p → Meets setup R p

variable {R : Requirement} {rel : World ρ → World ρ → Prop} {depth : Nat} {α : Type} {p : Code α} {a : α}
  {w w' : World ρ}

/-- Code that meets the requirement keeps it, if the calls do. -/
theorem KeptBy.eval_of_calls (h : KeptBy setup env R rel)
    (hcalls : ∀ {β : Type} {e : SlotEffect β} {q : Code β} {b : β} {w w' : World ρ},
      unfold setup e = some q → slotHandler setup env depth _ e w = some (b, w') → rel w w')
    (hp : Meets setup R p) (heval : p.eval (slotHandler setup env depth) w = some (a, w')) : rel w w' := by
  refine CallbackSystem.PairsTo.eval_rel (S := recordSystem setup) World.comm rel h.refl
    (fun _ _ _ => h.trans) ?_ ?_ ?_ ?_ (hp w.comm) rfl heval
  · intro β e w b w' hforeign hanswer
    cases hu : unfold setup e with
    | some q => exact hcalls hu hanswer
    | none =>
      rw [slotHandler_of_unfold_none _ hu] at hanswer
      obtain ⟨hr, hspec⟩ := hforeign.resolve_left (by simp [hu])
      exact h.foreign hr hspec hanswer
  · intro β e w b w' hu hr hanswer
    rw [slotHandler_of_unfold_none _ hu] at hanswer
    exact exec_of_perform hr hanswer
  · intro β e w b w' hu hr hspec hanswer
    rw [slotHandler_of_unfold_none _ hu] at hanswer
    exact h.effect hr hspec hanswer
  · intro β δ e e' w b w₁ b' w' hu hr hu' hr' hpair hanswer hanswer'
    rw [slotHandler_of_unfold_none _ hu] at hanswer
    rw [slotHandler_of_unfold_none _ hu'] at hanswer'
    exact h.pair hr hr' hpair hanswer hanswer'

/-- Code that meets the requirement keeps it: a call runs its code one level below. -/
theorem KeptBy.eval (h : KeptBy setup env R rel) (hp : Meets setup R p)
    (heval : p.eval (slotHandler setup env depth) w = some (a, w')) : rel w w' := by
  induction depth generalizing α w w' with
  | zero =>
    refine h.eval_of_calls (fun {β e q b w w'} hu hanswer => ?_) hp heval
    -- at depth zero no call is answered
    cases e <;> cases hu <;> cases hanswer
  | succ depth ih =>
    refine h.eval_of_calls (fun {β e q b w w'} hu hanswer => ?_) hp heval
    rw [slotHandler, hu] at hanswer
    exact ih (h.calls hu) hanswer

end Mudmux.Comm
