import Mathlib

/-!
# `Mudmux.Lib.Threads`: threads over shared memory

A configuration is a shared memory and the threads that are under way, each of them at some point of
its code. A move lets one thread take its next atomic step, which may end it, move it on and start
others; or the environment acts on the memory and may start threads. Moves are functions of the
configuration, so runs can be computed; everything left open is in the move.

* `invariant_of_run`: what every step preserves, whatever the other threads are, holds in every
  configuration of a run. The other threads come as a multiset: a step cannot see their order.
* `sum_invariant_of_run`: the same for what depends on the threads only through a sum over them, such
  as the number of threads that hold a token.
* `length_le_of_decreases`: if the steps of threads decrease a measure, every run of such steps is
  bounded.
-/

set_option autoImplicit false

namespace Mudmux.Lib

/-- Threads that step on a shared memory, and an environment that acts on it. -/
structure ThreadSystem where
  Shared : Type
  Thread : Type
  Choice : Type
  Action : Type
  /-- One atomic step of a thread: the memory behind it and the threads in its place. -/
  step : Shared → Thread → Choice → Option (Shared × List Thread)
  /-- One action of the environment: the memory behind it and the threads it starts. -/
  act : Shared → Action → Option (Shared × List Thread)

namespace ThreadSystem

variable (S : ThreadSystem)

/-- The memory and the threads under way. -/
structure Config where
  shared : S.Shared
  threads : List S.Thread

/-- Which thread steps and how it chooses, or what the environment does. -/
inductive Move where
  | thread (index : Nat) (choice : S.Choice)
  | env (action : S.Action)

/-- A restriction of the moves. -/
structure Guard where
  thread : S.Shared → S.Thread → S.Choice → Bool
  env : S.Shared → S.Action → Bool

variable {S}

/-- One move, if it is possible. -/
def exec (c : S.Config) : S.Move → Option S.Config
  | .thread index choice =>
    match c.threads[index]? with
    | none => none
    | some t =>
      (S.step c.shared t choice).map fun r =>
        ⟨r.1, c.threads.take index ++ r.2 ++ c.threads.drop (index + 1)⟩
  | .env action => (S.act c.shared action).map fun r => ⟨r.1, c.threads ++ r.2⟩

/-- The guard allows a move. -/
def Guard.allows (guard : S.Guard) (c : S.Config) : S.Move → Bool
  | .thread index choice =>
    match c.threads[index]? with
    | none => false
    | some t => guard.thread c.shared t choice
  | .env action => guard.env c.shared action

/-- No restriction. -/
def Guard.trivial (S : ThreadSystem) : S.Guard := ⟨fun _ _ _ => true, fun _ _ => true⟩

/-- The configurations reached from `c` by moves that the guard allows. -/
inductive Run (guard : S.Guard) (c : S.Config) : S.Config → Prop where
  | refl : Run guard c c
  | tail {c' c'' : S.Config} (move : S.Move) (run : Run guard c c')
    (allowed : guard.allows c' move = true) (step : exec c' move = some c'') : Run guard c c''

/-! ### Runs that are computed -/

/-- Several moves, if each of them is allowed and possible. -/
def execAll (guard : S.Guard) : S.Config → List S.Move → Option S.Config
  | c, [] => some c
  | c, move :: moves =>
    if guard.allows c move then (exec c move).bind fun c' => execAll guard c' moves else none

variable {c c' : S.Config}

theorem Run.trans {guard : S.Guard} {c'' : S.Config} (h : Run guard c c') (h' : Run guard c' c'') :
    Run guard c c'' := by
  induction h' with
  | refl => exact h
  | tail move _ allowed step ih => exact .tail move ih allowed step

variable {moves : List S.Move}

theorem run_of_execAll {guard : S.Guard} (h : execAll guard c moves = some c') :
    Run guard c c' := by
  induction moves generalizing c with
  | nil =>
    cases h
    exact .refl
  | cons move moves ih =>
    rw [execAll] at h
    split at h
    · next allowed =>
        obtain ⟨c₁, hstep, hrest⟩ := Option.bind_eq_some_iff.mp h
        exact (Run.tail move .refl allowed hstep).trans (ih hrest)
    · cases h

/-- A run that ends where `P` holds, from a computation. -/
theorem exists_run_of_execAll (guard : S.Guard) (moves : List S.Move) (c : S.Config)
    (P : S.Config → Bool) (h : (execAll guard c moves).any P = true) :
    ∃ c', Run guard c c' ∧ P c' = true := by
  cases hc : execAll guard c moves with
  | none => simp [hc] at h
  | some c' => exact ⟨c', run_of_execAll hc, by simpa [hc] using h⟩

/-! ### What a move does to the threads -/

/-- The thread that steps, apart from the others. -/
theorem exists_step_of_exec {index : Nat} {choice : S.Choice}
    (h : exec c (.thread index choice) = some c') :
    ∃ t ts rest, c.threads[index]? = some t ∧ S.step c.shared t choice = some (c'.shared, ts) ∧
      (c.threads : Multiset S.Thread) = t ::ₘ rest ∧
      (c'.threads : Multiset S.Thread) = (ts : Multiset S.Thread) + rest := by
  rw [exec] at h
  cases ht : c.threads[index]? with
  | none =>
    rw [ht] at h
    cases h
  | some t =>
    rw [ht] at h
    obtain ⟨⟨s', ts⟩, hstep, rfl⟩ := Option.map_eq_some_iff.mp h
    obtain ⟨hlt, hget⟩ := List.getElem?_eq_some_iff.mp ht
    refine ⟨t, ts, ↑(c.threads.take index ++ c.threads.drop (index + 1)), rfl, hstep, ?_, ?_⟩
    · have hsplit : c.threads = c.threads.take index ++ t :: c.threads.drop (index + 1) := by
        rw [← hget, List.getElem_cons_drop, List.take_append_drop]
      conv => lhs; rw [hsplit]
      rw [Multiset.cons_coe, Multiset.coe_eq_coe]
      exact List.perm_middle
    · rw [Multiset.coe_add, Multiset.coe_eq_coe, ← List.append_assoc]
      exact List.perm_append_comm.append_right _

/-! ### Invariants -/

variable {guard : S.Guard}

/-- What every step preserves holds along every run. -/
theorem invariant_of_run (inv : S.Shared → Multiset S.Thread → Prop)
    (thread : ∀ s t choice s' ts rest, inv s (t ::ₘ rest) → guard.thread s t choice = true →
      S.step s t choice = some (s', ts) → inv s' (ts + rest))
    (env : ∀ s action s' ts rest, inv s rest → guard.env s action = true →
      S.act s action = some (s', ts) → inv s' (ts + rest)) (h : inv c.shared c.threads)
    (hrun : Run guard c c') : inv c'.shared c'.threads := by
  induction hrun with
  | refl => exact h
  | @tail c₁ c₂ move _ allowed step ih =>
    cases move with
    | thread index choice =>
      obtain ⟨t, ts, rest, ht, hstep, hthreads, hthreads'⟩ := exists_step_of_exec step
      rw [Guard.allows, ht] at allowed
      rw [hthreads']
      exact thread _ t choice _ ts rest (hthreads ▸ ih) allowed hstep
    | env action =>
      obtain ⟨⟨s', ts⟩, hact, rfl⟩ := Option.map_eq_some_iff.mp step
      have hthreads : ((c₁.threads ++ ts : List S.Thread) : Multiset S.Thread)
          = (ts : Multiset S.Thread) + c₁.threads := by
        rw [← Multiset.coe_add, add_comm]
      rw [hthreads]
      exact env _ action s' ts _ ih allowed hact

/-- The sum of a weight over threads. -/
def total {M : Type} [AddCommMonoid M] (weight : S.Thread → M) (ts : Multiset S.Thread) : M :=
  (ts.map weight).sum

theorem total_cons {M : Type} [AddCommMonoid M] (weight : S.Thread → M) (t : S.Thread)
    (ts : Multiset S.Thread) : total weight (t ::ₘ ts) = weight t + total weight ts := by
  rw [total, Multiset.map_cons, Multiset.sum_cons, total]

theorem total_add {M : Type} [AddCommMonoid M] (weight : S.Thread → M) (ts : List S.Thread)
    (rest : Multiset S.Thread) :
    total weight (ts + rest) = (ts.map weight).sum + total weight rest := by
  rw [total, Multiset.map_add, Multiset.sum_add, Multiset.map_coe, Multiset.sum_coe, total]

/-- What every step preserves and depends on the threads only through a sum. -/
theorem sum_invariant_of_run {M : Type} [AddCommMonoid M] (weight : S.Thread → M)
    (inv : S.Shared → M → Prop)
    (thread : ∀ s t choice s' ts n, inv s (weight t + n) → guard.thread s t choice = true →
      S.step s t choice = some (s', ts) → inv s' ((ts.map weight).sum + n))
    (env : ∀ s action s' ts n, inv s n → guard.env s action = true →
      S.act s action = some (s', ts) → inv s' ((ts.map weight).sum + n))
    (h : inv c.shared (total weight c.threads)) (hrun : Run guard c c') :
    inv c'.shared (total weight c'.threads) := by
  refine invariant_of_run (fun s ts => inv s (total weight ts)) ?_ ?_ h hrun
  · intro s t choice s' ts rest hinv hguard hstep
    rw [total_add]
    refine thread s t choice s' ts _ ?_ hguard hstep
    rwa [total_cons] at hinv
  · intro s action s' ts rest hinv hguard hact
    rw [total_add]
    exact env s action s' ts _ hinv hguard hact

/-! ### Conditions that see the other threads -/

/-- The configurations reached from `c` by moves that meet a condition on the whole configuration. -/
inductive RunWhere (allowed : S.Config → S.Move → Bool) (c : S.Config) : S.Config → Prop where
  | refl : RunWhere allowed c c
  | tail {c' c'' : S.Config} (move : S.Move) (run : RunWhere allowed c c')
    (meets : allowed c' move = true) (step : exec c' move = some c'') : RunWhere allowed c c''

variable {allowed : S.Config → S.Move → Bool}

/-- What every allowed move preserves holds along every run. -/
theorem RunWhere.invariant (inv : S.Config → Prop)
    (hstep : ∀ c move c', inv c → allowed c move = true → exec c move = some c' → inv c')
    (h : inv c) (hrun : RunWhere allowed c c') : inv c' := by
  induction hrun with
  | refl => exact h
  | tail move _ meets step ih => exact hstep _ move _ ih meets step

/-- Several moves, if each of them meets the condition and is possible. -/
def execWhere (allowed : S.Config → S.Move → Bool) : S.Config → List S.Move → Option S.Config
  | c, [] => some c
  | c, move :: moves =>
    if allowed c move then (exec c move).bind fun c' => execWhere allowed c' moves else none

theorem RunWhere.of_execWhere {d d' : S.Config} (hd : RunWhere allowed c d)
    (h : execWhere allowed d moves = some d') : RunWhere allowed c d' := by
  induction moves generalizing d with
  | nil =>
    cases h
    exact hd
  | cons move moves ih =>
    rw [execWhere] at h
    split at h
    · next meets =>
        obtain ⟨d₁, hstep, hrest⟩ := Option.bind_eq_some_iff.mp h
        exact ih (hd.tail move meets hstep) hrest
    · cases h

/-- A run that ends where `P` holds, from a computation. -/
theorem exists_runWhere_of_execWhere (allowed : S.Config → S.Move → Bool) (moves : List S.Move)
    (c : S.Config) (P : S.Config → Bool) (h : (execWhere allowed c moves).any P = true) :
    ∃ c', RunWhere allowed c c' ∧ P c' = true := by
  cases hc : execWhere allowed c moves with
  | none => simp [hc] at h
  | some c' => exact ⟨c', RunWhere.refl.of_execWhere hc, by simpa [hc] using h⟩

/-! ### Progress -/

/-- If the steps that the guard allows decrease a measure, it bounds the length of runs. -/
theorem length_le_of_decreases (measure : S.Config → Nat)
    (decreases : ∀ c c' move, guard.allows c move = true → exec c move = some c' →
      measure c' < measure c) (h : execAll guard c moves = some c') : moves.length ≤ measure c := by
  induction moves generalizing c with
  | nil => exact Nat.zero_le _
  | cons move moves ih =>
    rw [execAll] at h
    split at h
    · next allowed =>
        obtain ⟨c₁, hstep, hrest⟩ := Option.bind_eq_some_iff.mp h
        have hlt := decreases c c₁ move allowed hstep
        have hle := ih hrest
        rw [List.length_cons]
        omega
    · cases h

end ThreadSystem

end Mudmux.Lib
