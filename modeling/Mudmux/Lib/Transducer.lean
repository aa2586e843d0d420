import Mathlib

/-!
# `Mudmux.Lib.Transducer`: symbol-at-a-time machines and piecewise drivers

A transducer reads one symbol at a time, moves its state and appends output. Two facts carry
everything that is said about streams cut into pieces:

* `run_append` / `runChunks_eq`: the state is all that crosses a cut, so running the pieces one
  after the other is running their concatenation;
* `drive_eq_run`: a procedure that handles an arbitrary non-empty prefix of its input and reports
  how much it took (`Implements`), called again and again until the input is used up, is one run.
  The driver takes fuel and answers `none` when it runs out, so the equation also says that
  one call per symbol is always enough.
-/

set_option autoImplicit false

namespace Mudmux.Lib

/-- A deterministic transducer: one input symbol moves the state and appends output. -/
structure Transducer (σ α β : Type) where
  step : σ → α → σ × List β

namespace Transducer

variable {σ α β : Type} (T : Transducer σ α β)

/-- The run over a whole input: the final state and the concatenated output. -/
def run : σ → List α → σ × List β
  | s, [] => (s, [])
  | s, a :: as =>
    let r := T.step s a
    let t := run r.1 as
    (t.1, r.2 ++ t.2)

@[simp] theorem run_nil (s : σ) : T.run s [] = (s, []) := rfl

theorem run_cons (s : σ) (a : α) (as : List α) :
    T.run s (a :: as)
      = ((T.run (T.step s a).1 as).1, (T.step s a).2 ++ (T.run (T.step s a).1 as).2) := rfl

/-- The run over a concatenation: the second part starts in the state the first part left. -/
theorem run_append (s : σ) (as bs : List α) :
    T.run s (as ++ bs)
      = ((T.run (T.run s as).1 bs).1, (T.run s as).2 ++ (T.run (T.run s as).1 bs).2) := by
  induction as generalizing s with
  | nil => simp
  | cons a as ih => simp [run_cons, ih]

/-- Running the pieces one after the other, with only the state carried across the cuts. -/
def runChunks : σ → List (List α) → σ × List β
  | s, [] => (s, [])
  | s, c :: cs =>
    let r := T.run s c
    let t := runChunks r.1 cs
    (t.1, r.2 ++ t.2)

/-- However the input is cut, the pieces run as the whole. -/
theorem runChunks_eq (s : σ) (cs : List (List α)) : T.runChunks s cs = T.run s cs.flatten := by
  induction cs generalizing s with
  | nil => rfl
  | cons c cs ih => simp [runChunks, ih, run_append]

/-- What one call of a piecewise procedure reports: how many symbols it took, the state it
left and the output it produced. -/
structure Call (σ β : Type) where
  consumed : Nat
  state : σ
  out : List β

/-- `call` takes a prefix of its input, a non-empty one unless there is no input, and on that
prefix it does what the transducer does. -/
structure Implements (call : σ → List α → Call σ β) : Prop where
  progress : ∀ s as, as ≠ [] → 0 < (call s as).consumed
  bounded : ∀ s as, (call s as).consumed ≤ as.length
  agrees : ∀ s as,
    T.run s (as.take (call s as).consumed) = ((call s as).state, (call s as).out)

/-- Calls repeated until the input is used up; `none` when the fuel runs out first. -/
def drive (call : σ → List α → Call σ β) : Nat → σ → List α → Option (σ × List β)
  | _, s, [] => some (s, [])
  | 0, _, _ :: _ => none
  | fuel + 1, s, a :: as =>
    let c := call s (a :: as)
    (drive call fuel c.state ((a :: as).drop c.consumed)).map fun r => (r.1, c.out ++ r.2)

/-- Calling until the input is used up is one run of the transducer, and a call per symbol is
enough fuel for it. -/
theorem drive_eq_run {call : σ → List α → Call σ β} (h : T.Implements call) (fuel : Nat) (s : σ)
    (as : List α) (hfuel : as.length ≤ fuel) : drive call fuel s as = some (T.run s as) := by
  induction fuel generalizing s as with
  | zero =>
    cases as with
    | nil => rfl
    | cons a as => simp at hfuel
  | succ fuel ih =>
    cases as with
    | nil => rfl
    | cons a as =>
      have hpos := h.progress s (a :: as) (List.cons_ne_nil a as)
      have hagree := h.agrees s (a :: as)
      have hshort : ((a :: as).drop (call s (a :: as)).consumed).length ≤ fuel := by
        simp only [List.length_drop, List.length_cons] at hfuel ⊢
        omega
      have hsplit := List.take_append_drop (call s (a :: as)).consumed (a :: as)
      rw [drive, ih _ _ hshort, Option.map_some]
      conv => rhs; rw [← hsplit, run_append, hagree]

end Transducer

end Mudmux.Lib
