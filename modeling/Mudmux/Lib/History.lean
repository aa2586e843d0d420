import Mathlib

/-!
# `Mudmux.Lib.History`: what stands before an event

A log grows at its end. `Supported P log` says of every event of the log that `P` holds of it and of what
stands before it, which is how "only after" is said about a run. It is enough to check the events that a
step appends, against the log as the step finds it.
-/

set_option autoImplicit false

namespace Mudmux.Lib

variable {ε : Type}

/-- Every event is supported by what stands before it. -/
def Supported (P : List ε → ε → Prop) (log : List ε) : Prop :=
  ∀ before event after, log = before ++ event :: after → P before event

theorem supported_nil (P : List ε → ε → Prop) : Supported P [] := by
  intro before event after heq
  exact absurd (congrArg List.length heq) (by simp)

variable {log : List ε} {event : ε}

theorem Supported.concat {P : List ε → ε → Prop} (h : Supported P log) (hevent : P log event) :
    Supported P (log ++ [event]) := by
  intro before event' after heq
  obtain rfl | ⟨rest, last, rfl⟩ := List.eq_nil_or_concat after
  · obtain ⟨rfl, hlast⟩ := List.append_inj' heq rfl
    cases hlast
    exact hevent
  · have heq' : log ++ [event] = (before ++ event' :: rest) ++ [last] := by
      rw [heq]
      simp
    exact h before event' rest (List.append_inj' heq' rfl).1

/-! ### Places in a log -/

theorem getElem?_concat_eq_some {event' : ε} {i : Nat} :
    (log ++ [event])[i]? = some event' ↔
      log[i]? = some event' ∨ (i = log.length ∧ event = event') := by
  rcases Nat.lt_trichotomy i log.length with hlt | rfl | hgt
  · rw [List.getElem?_append_left hlt]
    exact ⟨.inl, fun h => h.resolve_right fun ⟨heq, _⟩ => absurd heq (Nat.ne_of_lt hlt)⟩
  · simp
  · have hnone : log[i]? = none := List.getElem?_eq_none (Nat.le_of_lt hgt)
    have hnone' : (log ++ [event])[i]? = none := List.getElem?_eq_none (by simp; omega)
    rw [hnone, hnone']
    simp only [reduceCtorEq, false_or, false_iff, not_and]
    exact fun heq => absurd heq (Nat.ne_of_gt hgt)

/-- What stands in a log stays at its place. -/
theorem getElem?_concat_of_some {event' : ε} {i : Nat} (h : log[i]? = some event') :
    (log ++ [event])[i]? = some event' :=
  getElem?_concat_eq_some.mpr (.inl h)

theorem lt_length_of_getElem? {i : Nat} (h : log[i]? = some event) : i < log.length :=
  (List.getElem?_eq_some_iff.mp h).1

end Mudmux.Lib
