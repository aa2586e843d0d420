import Mudmux.Lib.Program

/-!
# `Mudmux.Lib.Callback`: code that is interrupted by foreign code

A callback system runs one program at a time. Between two programs it is at rest, and any entry may
start its code. At a reentrant effect foreign code has the control: it may enter the system again,
any number of times and to any depth, before the effect answers. Some effects are calls of the
system's own code, which makes that code recursive. What the outside answers to an effect, and which
entry comes next, is arbitrary.

`step` is a function of the configuration and a move, so a particular run can be computed, from a
strategy (`playEntries`) or from the list of its moves (`playMoves`). `Run` is the set of runs whose moves
all meet a `Guard`, a condition on the state before the move.

`wp` is the weakest precondition of a program relative to an `Outline`. The outline names an invariant
`inner` that holds whenever foreign or called code takes over, a relation `grows` between the states
before and after such code, an invariant `rest` for the states at rest, and a property `always` of
every state. `Outline.Valid` are the proof obligations, one weakest precondition for each piece of
code, and `Outline.Valid.always_of_run` is what they give: `always` holds in every state of every
guarded run.
-/

set_option autoImplicit false

namespace Mudmux.Lib

/-- A system of programs that run to completion one at a time, except that foreign code may enter
it at the reentrant effects. -/
structure CallbackSystem (E : Type → Type) where
  State : Type
  Answer : Type
  Entry : Type
  /-- The effect answers and moves the state. -/
  exec : {β : Type} → E β → Answer → State → Option (β × State)
  /-- The code of an effect that is a call. -/
  unfold : {β : Type} → E β → Option (Program E β)
  reentrant : {β : Type} → E β → Bool
  code : Entry → Program E Unit
  /-- Whether the entry can be taken in a state. -/
  enabled : State → Entry → Bool
  /-- The entries that foreign code may take at a reentrant effect. -/
  foreign : Entry → Bool

namespace CallbackSystem

variable {E : Type → Type} (S : CallbackSystem E)

/-- A state with the code that remains to run; at rest nothing remains. -/
structure Config where
  state : S.State
  code : Program E Unit

/-- What happens next. -/
inductive Move where
  | enter (x : S.Entry)
  | unfold
  | answer (a : S.Answer)

variable {S}

/-- One step. An effect that is a call can only be unfolded. -/
def step : S.Config → S.Move → Option S.Config
  | ⟨s, .done ()⟩, .enter x => if S.enabled s x then some ⟨s, S.code x⟩ else none
  | ⟨_, .done ()⟩, _ => none
  | ⟨s, .perform e k⟩, m =>
    match S.unfold e, m with
    | some p, .unfold => some ⟨s, p >>= k⟩
    | none, .enter x =>
      if S.reentrant e && S.foreign x && S.enabled s x then
        some ⟨s, S.code x >>= fun _ => .perform e k⟩
      else none
    | none, .answer a => (S.exec e a s).map fun r => ⟨r.2, k r.1⟩
    | _, _ => none

variable (S)

/-- A condition on the moves of a run: on entering code and on an effect with its answer, each in
the state before. -/
structure Guard where
  entry : S.State → S.Entry → Bool
  effect : {β : Type} → S.State → E β → S.Answer → Bool

/-- The guard that every move meets. -/
def Guard.trivial : S.Guard := ⟨fun _ _ => true, fun _ _ _ => true⟩

variable {S}

/-- The move meets the guard in the configuration. -/
def Guard.allows (guard : S.Guard) (c : S.Config) : S.Move → Bool
  | .enter x => guard.entry c.state x
  | .unfold => true
  | .answer a =>
    match c.code with
    | .done _ => true
    | .perform e _ => guard.effect c.state e a

/-- The configurations a guarded run can reach from `c`. -/
inductive Run (guard : S.Guard) (c : S.Config) : S.Config → Prop where
  | refl : Run guard c c
  | tail {c' c'' : S.Config} {m : S.Move} (hrun : Run guard c c') (hm : guard.allows c' m = true)
      (hstep : step c' m = some c'') : Run guard c c''

/-! ### Computed runs -/

/-- One step, if the guard allows it. -/
def guardedStep (guard : S.Guard) (c : S.Config) (m : S.Move) : Option S.Config :=
  if guard.allows c m then step c m else none

variable {guard : S.Guard} {c d d' : S.Config}

theorem Run.guardedStep {m : S.Move} (hd : Run guard c d) (h : guardedStep guard d m = some d') :
    Run guard c d' := by
  unfold CallbackSystem.guardedStep at h
  split at h
  · rename_i hm
    exact hd.tail hm h
  · cases h

/-- Run the code that remains, with a strategy that picks the move at every effect that is not a
call. The answer is `none` when the fuel does not last or the strategy picks a move that is not
possible or not allowed. -/
def play (guard : S.Guard) (strategy : {β : Type} → S.State → E β → S.Move) :
    Nat → S.Config → Option S.Config
  | 0, _ => none
  | _ + 1, ⟨s, .done ()⟩ => some ⟨s, .done ()⟩
  | fuel + 1, ⟨s, .perform e k⟩ =>
    (guardedStep guard ⟨s, .perform e k⟩
      (if (S.unfold e).isSome then .unfold else strategy s e)).bind (play guard strategy fuel)

/-- Run the code of one entry after the other. -/
def playEntries (guard : S.Guard) (strategy : {β : Type} → S.State → E β → S.Move) (fuel : Nat) :
    List S.Entry → S.Config → Option S.Config
  | [], c => some c
  | x :: xs, c =>
    ((guardedStep guard c (.enter x)).bind (play guard strategy fuel)).bind
      (playEntries guard strategy fuel xs)

variable {β : Type} {strategy : {β : Type} → S.State → E β → S.Move}

theorem run_of_play (fuel : Nat) (hd : Run guard c d) (h : play guard strategy fuel d = some d') :
    Run guard c d' := by
  induction fuel generalizing d with
  | zero => cases h
  | succ fuel ih =>
    obtain ⟨s, code⟩ := d
    cases code with
    | done u =>
      cases h
      exact hd
    | perform e k =>
      obtain ⟨d1, hstep, hplay⟩ := Option.bind_eq_some_iff.mp h
      exact ih (hd.guardedStep hstep) hplay

/-- What a strategy plays is a run. -/
theorem run_of_playEntries {fuel : Nat} {xs : List S.Entry} (hd : Run guard c d)
    (h : playEntries guard strategy fuel xs d = some d') : Run guard c d' := by
  induction xs generalizing d with
  | nil =>
    cases h
    exact hd
  | cons x xs ih =>
    obtain ⟨d1, hd1, hrest⟩ := Option.bind_eq_some_iff.mp h
    obtain ⟨d0, hstep, hplay⟩ := Option.bind_eq_some_iff.mp hd1
    exact ih (run_of_play fuel (hd.guardedStep hstep) hplay) hrest

/-- A computed run that ends in a state with the property `P`. -/
theorem exists_run_of_playEntries (guard : S.Guard) (strategy : {β : Type} → S.State → E β → S.Move)
    (fuel : Nat) (xs : List S.Entry) (c : S.Config) (P : S.State → Bool)
    (h : (playEntries guard strategy fuel xs c).any (fun d => P d.state) = true) :
    ∃ d, Run guard c d ∧ P d.state = true := by
  obtain ⟨d, hd, hP⟩ := (Option.any_eq_true _ _).mp h
  exact ⟨d, run_of_playEntries Run.refl hd, hP⟩

/-- Take the moves one after the other. The run may end in the middle of some code. -/
def playMoves (guard : S.Guard) : List S.Move → S.Config → Option S.Config
  | [], c => some c
  | m :: ms, c => (guardedStep guard c m).bind (playMoves guard ms)

theorem run_of_playMoves {ms : List S.Move} (hd : Run guard c d)
    (h : playMoves guard ms d = some d') : Run guard c d' := by
  induction ms generalizing d with
  | nil =>
    cases h
    exact hd
  | cons m ms ih =>
    obtain ⟨d₁, hstep, hrest⟩ := Option.bind_eq_some_iff.mp h
    exact ih (hd.guardedStep hstep) hrest

/-- A computed run that ends in a configuration with the property `P`. -/
theorem exists_run_of_playMoves (guard : S.Guard) (ms : List S.Move) (c : S.Config)
    (P : S.Config → Bool) (h : (playMoves guard ms c).any P = true) :
    ∃ d, Run guard c d ∧ P d = true := by
  obtain ⟨d, hd, hP⟩ := (Option.any_eq_true _ _).mp h
  exact ⟨d, run_of_playMoves Run.refl hd, hP⟩

/-! ### Weakest preconditions -/

variable (S)

/-- The plan of a safety proof. -/
structure Outline where
  guard : S.Guard
  always : S.State → Prop
  inner : S.State → Prop
  grows : S.State → S.State → Prop
  rest : S.State → Prop

variable {S} (O : S.Outline)

/-- The weakest precondition of a program: run from `s`, it meets the guard's promises, leaves every
state it passes in `always`, hands over to foreign and called code in `inner` states, and ends in
`Q`. -/
def Outline.wp {α : Type} : Program E α → (α → S.State → Prop) → S.State → Prop
  | .done a, Q, s => Q a s
  | .perform e k, Q, s =>
    if (S.unfold e).isSome then
      O.inner s ∧ ∀ b s', O.inner s' → O.grows s s' → Outline.wp (k b) Q s'
    else if S.reentrant e then
      O.inner s ∧ ∀ s' a b s'', O.inner s' → O.grows s s' → O.guard.effect s' e a = true →
        S.exec e a s' = some (b, s'') → O.always s'' ∧ Outline.wp (k b) Q s''
    else
      ∀ a b s', O.guard.effect s e a = true → S.exec e a s = some (b, s') →
        O.always s' ∧ Outline.wp (k b) Q s'

variable {α : Type}

theorem Outline.wp_done (a : α) (Q : α → S.State → Prop) (s : S.State) :
    O.wp (.done a) Q s ↔ Q a s := Iff.rfl

variable {p : Program E α} {Q R : α → S.State → Prop} {s : S.State}

theorem Outline.wp_mono (h : O.wp p Q s) (hqr : ∀ a s', Q a s' → R a s') : O.wp p R s := by
  induction p generalizing s with
  | done a => exact hqr a s h
  | perform e k ih =>
    simp only [Outline.wp] at h ⊢
    split
    · rename_i hcall
      rw [if_pos hcall] at h
      exact ⟨h.1, fun b s' hi hg => ih b (h.2 b s' hi hg)⟩
    · rename_i hcall
      rw [if_neg hcall] at h
      split
      · rename_i hre
        rw [if_pos hre] at h
        refine ⟨h.1, fun s' a b s'' hi hg he hexec => ?_⟩
        obtain ⟨halways, hk⟩ := h.2 s' a b s'' hi hg he hexec
        exact ⟨halways, ih b hk⟩
      · rename_i hre
        rw [if_neg hre] at h
        intro a b s' he hexec
        obtain ⟨halways, hk⟩ := h a b s' he hexec
        exact ⟨halways, ih b hk⟩

theorem Outline.wp_bind (p : Program E α) (f : α → Program E β) (Q : β → S.State → Prop)
    (s : S.State) : O.wp (p >>= f) Q s ↔ O.wp p (fun a s' => O.wp (f a) Q s') s := by
  induction p generalizing s with
  | done a => exact Iff.rfl
  | perform e k ih =>
    simp only [Program.perform_bind, Outline.wp, ih]

theorem Outline.logic : Program.Logic fun {α : Type} (p : Program E α) Q s => O.wp p Q s where
  done h := h
  bind h := (O.wp_bind _ _ _ _).mpr h
  mono h himp := O.wp_mono h himp

/-- The proof obligations of an outline. -/
structure Outline.Valid : Prop where
  rest_always : ∀ s, O.rest s → O.always s
  grows_refl : ∀ s, O.grows s s
  grows_trans : ∀ s s' s'', O.grows s s' → O.grows s' s'' → O.grows s s''
  call : ∀ {β : Type} (e : E β) (p : Program E β), S.unfold e = some p → ∀ s, O.inner s →
    O.wp p (fun _ s' => O.inner s' ∧ O.grows s s') s
  foreign : ∀ x, S.foreign x = true → ∀ s, O.inner s → S.enabled s x = true →
    O.guard.entry s x = true → O.wp (S.code x) (fun _ s' => O.inner s' ∧ O.grows s s') s
  entry : ∀ x s, O.rest s → S.enabled s x = true → O.guard.entry s x = true →
    O.wp (S.code x) (fun _ s' => O.rest s') s

/-- `always` holds for the next `n` steps of every guarded run. -/
def Outline.Safe : Nat → S.Config → Prop
  | 0, c => O.always c.state
  | n + 1, c => O.always c.state ∧
      ∀ m c', O.guard.allows c m = true → step c m = some c' → Outline.Safe n c'

theorem Outline.Safe.always {n : Nat} (h : O.Safe n c) : O.always c.state := by
  cases n with
  | zero => exact h
  | succ n => exact h.1

theorem Outline.Safe.pred {n : Nat} (h : O.Safe (n + 1) c) : O.Safe n c := by
  induction n generalizing c with
  | zero => exact h.1
  | succ n ih => exact ⟨h.1, fun m c' hm hstep => ih (h.2 m c' hm hstep)⟩

variable {O}

/-- Reentrant effects may be reached again from any state that foreign code leaves. -/
theorem Outline.wp_reentrant_of_grows (hv : O.Valid) {e : E β} {k : β → Program E α} {s' : S.State}
    (hu : S.unfold e = none) (hre : S.reentrant e = true) (hwp : O.wp (.perform e k) Q s)
    (hi : O.inner s') (hg : O.grows s s') : O.wp (.perform e k) Q s' := by
  simp only [Outline.wp, hu, Option.isSome_none, Bool.false_eq_true, if_false, hre, if_true]
    at hwp ⊢
  exact ⟨hi, fun t a b t' hit hgt => hwp.2 t a b t' hit (hv.grows_trans _ _ _ hg hgt)⟩

/-- A program that meets its weakest precondition is safe in front of a continuation that is safe
behind its postcondition. The induction is on the number of steps: the code of a call and the code
of a foreign entry have their own preconditions from `Valid` and one step less to go. -/
theorem Outline.Valid.safe_bind (hv : O.Valid) (n : Nat) (p : Program E α) (Q : α → S.State → Prop)
    (s : S.State) (k : α → Program E Unit) (hwp : O.wp p Q s) (halways : O.always s)
    (hk : ∀ a s', Q a s' → O.always s' → O.Safe n ⟨s', k a⟩) : O.Safe n ⟨s, p >>= k⟩ := by
  induction n generalizing α p s with
  | zero => exact halways
  | succ n ih =>
    cases p with
    | done a => exact hk a s hwp halways
    | perform e f =>
      have hk' : ∀ a s', Q a s' → O.always s' → O.Safe n ⟨s', k a⟩ :=
        fun a s' hq ha => (hk a s' hq ha).pred
      refine ⟨halways, fun m c' hm hstep => ?_⟩
      simp only [Program.perform_bind, step] at hstep
      cases hu : S.unfold e with
      | some q =>
        simp only [Outline.wp, hu, Option.isSome_some, if_true] at hwp
        cases m with
        | unfold =>
          simp only [hu, Option.some.injEq] at hstep
          subst hstep
          exact ih q _ s _ (hv.call e q hu s hwp.1) halways fun b s' hq ha =>
            ih (f b) Q s' k (hwp.2 b s' hq.1 hq.2) ha hk'
        | enter x => simp [hu] at hstep
        | answer a => simp [hu] at hstep
      | none =>
        cases m with
        | unfold => simp [hu] at hstep
        | enter x =>
          simp only [hu] at hstep
          split at hstep
          · rename_i hboth
            simp only [Bool.and_eq_true] at hboth
            obtain ⟨⟨hre, hforeign⟩, henabled⟩ := hboth
            have hi : O.inner s := by
              simp only [Outline.wp, hu, Option.isSome_none, Bool.false_eq_true, if_false,
                hre, if_true] at hwp
              exact hwp.1
            cases hstep
            exact ih (S.code x) _ s _ (hv.foreign x hforeign s hi henabled hm)
              halways
              fun _ s' hq ha => ih (.perform e f) Q s' k
                (Outline.wp_reentrant_of_grows hv hu hre hwp hq.1 hq.2) ha hk'
          · cases hstep
        | answer a =>
          simp only [hu] at hstep
          obtain ⟨r, hexec, hc⟩ := Option.map_eq_some_iff.mp hstep
          subst hc
          simp only [Outline.wp, hu, Option.isSome_none, Bool.false_eq_true, if_false]
            at hwp
          split at hwp
          · obtain ⟨ha, hf⟩ := hwp.2 s a r.1 r.2 hwp.1 (hv.grows_refl s) hm hexec
            exact ih (f r.1) Q r.2 k hf ha hk'
          · obtain ⟨ha, hf⟩ := hwp a r.1 r.2 hm hexec
            exact ih (f r.1) Q r.2 k hf ha hk'

/-- A system at rest in a `rest` state is safe for any number of steps. -/
theorem Outline.Valid.safe_rest (hv : O.Valid) (n : Nat) (s : S.State) (hs : O.rest s) :
    O.Safe n ⟨s, .done ()⟩ := by
  induction n generalizing s with
  | zero => exact hv.rest_always s hs
  | succ n ih =>
    refine ⟨hv.rest_always s hs, fun m c' hm hstep => ?_⟩
    cases m with
    | enter x =>
      simp only [step] at hstep
      split at hstep
      · rename_i henabled
        cases hstep
        have hsafe := hv.safe_bind n (S.code x) _ s .done (hv.entry x s hs henabled hm)
          (hv.rest_always s hs) fun _ s' hq _ => ih s' hq
        rwa [Program.bind_done] at hsafe
      · cases hstep
    | unfold => simp [step] at hstep
    | answer a => simp [step] at hstep

/-- The invariant rule: in every guarded run from rest, every state is in `always`. -/
theorem Outline.Valid.always_of_run (hv : O.Valid) (hs : O.rest s)
    (hrun : Run O.guard ⟨s, .done ()⟩ c) : O.always c.state := by
  have key : ∀ n, O.Safe n c := by
    induction hrun with
    | refl => exact fun n => hv.safe_rest n s hs
    | tail _ hm hstep ih => exact fun n => (ih (n + 1)).2 _ _ hm hstep
  exact (key 0).always

/-! ### One pass over the code for several outlines -/

variable (S)

/-- A requirement on the effects of a program, each in the state before it. -/
abbrev EffectSpec := (β : Type) → S.State → E β → Prop

variable {S}

variable (S) in
/-- A requirement on two effects that follow each other directly, in the state before the first. -/
abbrev PairSpec := (β δ : Type) → S.State → E β → E δ → Prop

/-- Every effect the program performs from a state meets the requirement `spec`, or meets `pair` together
with the one directly behind it: what the first one breaks the second one restores, and nobody sees the
state between them. The program ends in `Q`. Nothing is assumed about the state that foreign or called code
leaves. -/
inductive PairsTo (spec : S.EffectSpec) (pair : S.PairSpec) {α : Type} (Q : α → S.State → Prop) :
    Program E α → S.State → Prop where
  | done {a : α} {s : S.State} (h : Q a s) : PairsTo spec pair Q (.done a) s
  | call {β : Type} {e : E β} {k : β → Program E α} {s : S.State} (hu : (S.unfold e).isSome = true)
      (h : ∀ b s', PairsTo spec pair Q (k b) s') : PairsTo spec pair Q (.perform e k) s
  | reentrant {β : Type} {e : E β} {k : β → Program E α} {s : S.State} (hu : S.unfold e = none)
      (hr : S.reentrant e = true) (hspec : ∀ s', spec β s' e)
      (h : ∀ b s', PairsTo spec pair Q (k b) s') : PairsTo spec pair Q (.perform e k) s
  | effect {β : Type} {e : E β} {k : β → Program E α} {s : S.State} (hu : S.unfold e = none)
      (hr : S.reentrant e = false) (hspec : spec β s e)
      (h : ∀ a b s', S.exec e a s = some (b, s') → PairsTo spec pair Q (k b) s') :
      PairsTo spec pair Q (.perform e k) s
  | pair {β δ : Type} {e : E β} {e' : E δ} {k : β → δ → Program E α} {s : S.State}
      (hu : S.unfold e = none) (hr : S.reentrant e = false) (hu' : S.unfold e' = none)
      (hr' : S.reentrant e' = false) (hpair : pair β δ s e e')
      (h : ∀ a b s', S.exec e a s = some (b, s') → ∀ a' b' s'', S.exec e' a' s' = some (b', s'') →
        PairsTo spec pair Q (k b b') s'') :
      PairsTo spec pair Q (.perform e fun b => .perform e' (k b)) s

variable {spec : S.EffectSpec} {pair : S.PairSpec}

theorem PairsTo.mono (h : PairsTo spec pair Q p s) (hqr : ∀ a s', Q a s' → R a s') :
    PairsTo spec pair R p s := by
  induction h with
  | done h => exact .done (hqr _ _ h)
  | call hu _ ih => exact .call hu ih
  | reentrant hu hr hspec _ ih => exact .reentrant hu hr hspec ih
  | effect hu hr hspec _ ih => exact .effect hu hr hspec ih
  | pair hu hr hu' hr' hpair _ ih => exact .pair hu hr hu' hr' hpair ih

theorem PairsTo.bind {f : α → Program E β} {Q : β → S.State → Prop}
    (h : PairsTo spec pair (fun a s' => PairsTo spec pair Q (f a) s') p s) :
    PairsTo spec pair Q (p >>= f) s := by
  induction h with
  | done h => exact h
  | call hu _ ih => exact .call hu ih
  | reentrant hu hr hspec _ ih => exact .reentrant hu hr hspec ih
  | effect hu hr hspec _ ih => exact .effect hu hr hspec ih
  | pair hu hr hu' hr' hpair _ ih => exact .pair hu hr hu' hr' hpair ih

/-- A system whose state is seen through `view` as the state of another one does what that one does, when
the code is the same but for a translation of its effects. An effect may become one that is not
reentrant. -/
theorem PairsTo.mapEffects {F : Type → Type} {R : CallbackSystem F} (f : {β : Type} → F β → E β)
    (view : S.State → R.State)
    (hunfold : ∀ {β : Type} (e : F β), (S.unfold (f e)).isSome = (R.unfold e).isSome)
    (hreentrant : ∀ {β : Type} (e : F β), S.reentrant (f e) = true → R.reentrant e = true)
    (hexec : ∀ {β : Type} (e : F β) (a : S.Answer) (s : S.State) (b : β) (s' : S.State),
      S.exec (f e) a s = some (b, s') → ∃ a', R.exec e a' (view s) = some (b, view s'))
    {spec : R.EffectSpec} {pair : R.PairSpec} {specS : S.EffectSpec} {pairS : S.PairSpec}
    (hspec : ∀ {β : Type} (s : S.State) (e : F β), spec β (view s) e → specS β s (f e))
    (hpair : ∀ {β δ : Type} (s : S.State) (e : F β) (e' : F δ), pair β δ (view s) e e' →
      pairS β δ s (f e) (f e')) {p : Program F α} {Q : α → R.State → Prop} {c : R.State}
    (h : PairsTo spec pair Q p c) (hs : view s = c) :
    PairsTo specS pairS (fun a s' => Q a (view s')) (p.mapEffects f) s := by
  have hnone {β : Type} {e : F β} (hu : R.unfold e = none) : S.unfold (f e) = none := by
    rw [← Option.isNone_iff_eq_none, ← Option.not_isSome, hunfold, hu]
    rfl
  have hplain {β : Type} {e : F β} (hr : R.reentrant e = false) : S.reentrant (f e) = false := by
    cases h : S.reentrant (f e) with
    | false => rfl
    | true => exact (hreentrant e h).symm.trans hr
  induction h generalizing s with
  | done h =>
    refine .done ?_
    rwa [hs]
  | call hu _ ih => exact .call (by rwa [hunfold]) fun b s' => ih b (view s') rfl
  | @reentrant _ e _ _ hu hr hspecs _ ih =>
    cases hre : S.reentrant (f e) with
    | true =>
      exact .reentrant (hnone hu) hre (fun s' => hspec s' _ (hspecs (view s')))
        fun b s' => ih b (view s') rfl
    | false =>
      exact .effect (hnone hu) hre (hspec s _ (hspecs (view s))) fun _ b s' _ =>
        ih b (view s') rfl
  | effect hu hr hspecs _ ih =>
    refine .effect (hnone hu) (hplain hr) (hspec s _ (hs ▸ hspecs)) fun a b s' he => ?_
    obtain ⟨a', he'⟩ := hexec _ a s b s' he
    exact ih a' b _ (hs ▸ he') rfl
  | pair hu hr hu' hr' hpairs _ ih =>
    refine .pair (hnone hu) (hplain hr) (hnone hu') (hplain hr')
      (hpair s _ _ (hs ▸ hpairs)) fun a b s' he a₁ b₁ s₁ he₁ => ?_
    obtain ⟨a', he'⟩ := hexec _ a s b s' he
    obtain ⟨a₁', he₁'⟩ := hexec _ a₁ s' b₁ s₁ he₁
    exact ih a' b _ (hs ▸ he') a₁' b₁ _ he₁' rfl

/-- The same for code as it stands. -/
theorem PairsTo.lift {R : CallbackSystem E} (view : S.State → R.State)
    (hunfold : ∀ {β : Type} (e : E β), S.unfold e = R.unfold e)
    (hreentrant : ∀ {β : Type} (e : E β), S.reentrant e = R.reentrant e)
    (hexec : ∀ {β : Type} (e : E β) (a : S.Answer) (s : S.State) (b : β) (s' : S.State),
      S.exec e a s = some (b, s') → ∃ a', R.exec e a' (view s) = some (b, view s'))
    {spec : R.EffectSpec} {pair : R.PairSpec} {Q : α → R.State → Prop} {c : R.State}
    (h : PairsTo spec pair Q p c) (hs : view s = c) :
    PairsTo (S := S) (fun β s e => spec β (view s) e) (fun β δ s e e' => pair β δ (view s) e e')
      (fun a s' => Q a (view s')) p s := by
  rw [← p.mapEffects_id]
  exact h.mapEffects (fun e => e) view (fun e => by rw [hunfold])
    (fun e hre => (hreentrant e).symm.trans hre) hexec (fun _ _ => id) (fun _ _ _ => id) hs

/-- Evaluation under a handler whose effects are those of the system: a relation that calls and foreign
code keep, and effects and pairs of effects that meet their requirement, is kept by the program. -/
theorem PairsTo.eval_rel {σ : Type} {h : Handler E σ} (view : σ → S.State) (rel : σ → σ → Prop)
    (hrefl : ∀ w, rel w w) (htrans : ∀ w w' w'', rel w w' → rel w' w'' → rel w w'')
    (hforeign : ∀ {β : Type} (e : E β) (w : σ) (b : β) (w' : σ),
      (S.unfold e).isSome = true ∨ (S.reentrant e = true ∧ ∀ s, spec β s e) →
      h β e w = some (b, w') → rel w w')
    (hexec : ∀ {β : Type} (e : E β) (w : σ) (b : β) (w' : σ), S.unfold e = none →
      S.reentrant e = false → h β e w = some (b, w') → ∃ a, S.exec e a (view w) = some (b, view w'))
    (hspec : ∀ {β : Type} (e : E β) (w : σ) (b : β) (w' : σ), S.unfold e = none →
      S.reentrant e = false → spec β (view w) e → h β e w = some (b, w') → rel w w')
    (hpair : ∀ {β δ : Type} (e : E β) (e' : E δ) (w : σ) (b : β) (w' : σ) (b' : δ) (w'' : σ),
      S.unfold e = none → S.reentrant e = false → S.unfold e' = none → S.reentrant e' = false →
      pair β δ (view w) e e' → h β e w = some (b, w') → h δ e' w' = some (b', w'') → rel w w'')
    (hp : PairsTo spec pair Q p s) {w w' : σ} {a : α} (hw : view w = s)
    (heval : p.eval h w = some (a, w')) : rel w w' := by
  induction hp generalizing w with
  | done _ =>
    cases heval
    exact hrefl _
  | call hu _ ih =>
    obtain ⟨⟨b, w₁⟩, hb, hk⟩ := Option.bind_eq_some_iff.mp (Program.eval_perform h _ _ w ▸ heval)
    exact htrans _ _ _ (hforeign _ w b w₁ (.inl hu) hb) (ih b _ rfl hk)
  | reentrant hu hr he _ ih =>
    obtain ⟨⟨b, w₁⟩, hb, hk⟩ := Option.bind_eq_some_iff.mp (Program.eval_perform h _ _ w ▸ heval)
    exact htrans _ _ _ (hforeign _ w b w₁ (.inr ⟨hr, he⟩) hb) (ih b _ rfl hk)
  | effect hu hr he _ ih =>
    obtain ⟨⟨b, w₁⟩, hb, hk⟩ := Option.bind_eq_some_iff.mp (Program.eval_perform h _ _ w ▸ heval)
    subst hw
    obtain ⟨answer, hanswer⟩ := hexec _ w b w₁ hu hr hb
    exact htrans _ _ _ (hspec _ w b w₁ hu hr he hb) (ih answer b _ hanswer rfl hk)
  | pair hu hr hu' hr' he _ ih =>
    obtain ⟨⟨b, w₁⟩, hb, hk⟩ := Option.bind_eq_some_iff.mp (Program.eval_perform h _ _ w ▸ heval)
    obtain ⟨⟨b', w₂⟩, hb', hk'⟩ :=
      Option.bind_eq_some_iff.mp (Program.eval_perform h _ _ w₁ ▸ hk)
    subst hw
    obtain ⟨answer, hanswer⟩ := hexec _ w b w₁ hu hr hb
    obtain ⟨answer', hanswer'⟩ := hexec _ w₁ b' w₂ hu' hr' hb'
    exact htrans _ _ _ (hpair _ _ w b w₁ b' w₂ hu hr hu' hr' he hb hb')
      (ih answer b _ hanswer answer' b' _ hanswer' rfl hk')

/-- If every effect that meets the requirement, and every pair of effects that meets it together, keeps
`inner` and the relation `rel`, then so does every program whose effects meet it. Of the code that foreign
and called code runs in between, `rel` has to allow what `grows` allows. -/
theorem Outline.wp_of_pairsTo {O : S.Outline} (spec : S.EffectSpec) (pair : S.PairSpec)
    (rel : S.State → S.State → Prop) (hrefl : ∀ s, rel s s)
    (htrans : ∀ s s' s'', rel s s' → rel s' s'' → rel s s'')
    (hgrows : ∀ s s', O.grows s s' → rel s s')
    (hlocal : ∀ {β : Type} (e : E β) (s : S.State) (a : S.Answer) (b : β) (s' : S.State),
      spec β s e → O.inner s → O.guard.effect s e a = true → S.exec e a s = some (b, s') →
        O.always s' ∧ O.inner s' ∧ rel s s')
    (hpair : ∀ {β δ : Type} (e : E β) (e' : E δ) (s : S.State), pair β δ s e e' → O.inner s →
      ∀ a b s', O.guard.effect s e a = true → S.exec e a s = some (b, s') → O.always s' ∧
        ∀ a' b' s'', O.guard.effect s' e' a' = true → S.exec e' a' s' = some (b', s'') →
          O.always s'' ∧ O.inner s'' ∧ rel s s'') (hp : PairsTo spec pair Q p s) (hi : O.inner s) :
    O.wp p (fun a s' => Q a s' ∧ O.inner s' ∧ rel s s') s := by
  induction hp with
  | done h => exact ⟨h, hi, hrefl _⟩
  | @call _ e k s hu _ ih =>
    simp only [Outline.wp, hu, if_true]
    exact ⟨hi, fun b s' hi' hg => O.wp_mono (ih b s' hi') fun a s'' h =>
      ⟨h.1, h.2.1, htrans _ _ _ (hgrows _ _ hg) h.2.2⟩⟩
  | @reentrant _ e k s hu hr hspec _ ih =>
    simp only [Outline.wp, hu, hr, Option.isSome_none, Bool.false_eq_true, if_false, if_true]
    refine ⟨hi, fun s' a b s'' hi' hg hguard hexec => ?_⟩
    obtain ⟨halways, hi'', hg'⟩ := hlocal e s' a b s'' (hspec s') hi' hguard hexec
    exact ⟨halways, O.wp_mono (ih b s'' hi'') fun a t h =>
      ⟨h.1, h.2.1, htrans _ _ _ (hgrows _ _ hg) (htrans _ _ _ hg' h.2.2)⟩⟩
  | @effect _ e k s hu hr hspec _ ih =>
    simp only [Outline.wp, hu, hr, Option.isSome_none, Bool.false_eq_true, if_false]
    intro a b s' hguard hexec
    obtain ⟨halways, hi', hg⟩ := hlocal e s a b s' hspec hi hguard hexec
    exact ⟨halways, O.wp_mono (ih a b s' hexec hi') fun a t h =>
      ⟨h.1, h.2.1, htrans _ _ _ hg h.2.2⟩⟩
  | @pair _ _ e e' k s hu hr hu' hr' hboth _ ih =>
    simp only [Outline.wp, hu, hr, hu', hr', Option.isSome_none, Bool.false_eq_true, if_false]
    intro a b s' hguard hexec
    obtain ⟨halways, hsecond⟩ := hpair e e' s hboth hi a b s' hguard hexec
    refine ⟨halways, fun a' b' s'' hguard' hexec' => ?_⟩
    obtain ⟨halways', hi'', hg⟩ := hsecond a' b' s'' hguard' hexec'
    exact ⟨halways', O.wp_mono (ih a b s' hexec a' b' s'' hexec' hi'') fun a t h =>
      ⟨h.1, h.2.1, htrans _ _ _ hg h.2.2⟩⟩

/-- The requirement on pairs asks for nothing that is not asked of the two effects one by one. -/
def Splits (spec : S.EffectSpec) (pair : S.PairSpec) : Prop :=
  ∀ {β δ : Type} (s : S.State) (e : E β) (e' : E δ), pair β δ s e e' →
    spec β s e ∧ ∀ a b s', S.exec e a s = some (b, s') → spec δ s' e'

/-- The same where single effects keep `inner` and `grows`. -/
theorem Outline.wp_of_splits {O : S.Outline} (hsplits : Splits spec pair) (hrefl : ∀ s, O.grows s s)
    (htrans : ∀ s s' s'', O.grows s s' → O.grows s' s'' → O.grows s s'')
    (hlocal : ∀ {β : Type} (e : E β) (s : S.State) (a : S.Answer) (b : β) (s' : S.State),
      spec β s e → O.inner s → O.guard.effect s e a = true → S.exec e a s = some (b, s') →
        O.always s' ∧ O.inner s' ∧ O.grows s s') (hp : PairsTo spec pair Q p s) (hi : O.inner s) :
    O.wp p (fun a s' => Q a s' ∧ O.inner s' ∧ O.grows s s') s := by
  refine O.wp_of_pairsTo spec pair O.grows hrefl htrans (fun _ _ => id) hlocal
    (fun e e' s hpair hi a b s' hguard hexec => ?_) hp hi
  obtain ⟨hspec, hspec'⟩ := hsplits s e e' hpair
  obtain ⟨halways, hi', hg⟩ := hlocal e s a b s' hspec hi hguard hexec
  refine ⟨halways, fun a' b' s'' hguard' hexec' => ?_⟩
  obtain ⟨halways', hi'', hg'⟩ :=
    hlocal e' s' a' b' s'' (hspec' a b s' hexec) hi' hguard' hexec'
  exact ⟨halways', hi'', htrans _ _ _ hg hg'⟩

/-- The invariant rule for a property that every effect keeps: nothing has to be said about the
code but that its effects meet the requirement. -/
theorem invariant_of_run (hsplits : Splits spec pair) (inv : S.State → Prop)
    (hcall : ∀ {β : Type} (e : E β) (p : Program E β), S.unfold e = some p →
      ∀ s, PairsTo spec pair (fun _ _ => True) p s)
    (hcode : ∀ (x : S.Entry) (s : S.State), S.enabled s x = true →
      ∀ s, PairsTo spec pair (fun _ _ => True) (S.code x) s)
    (hlocal : ∀ {β : Type} (e : E β) (s : S.State) (a : S.Answer) (b : β) (s' : S.State),
      spec β s e → inv s → guard.effect s e a = true → S.exec e a s = some (b, s') → inv s')
    (hs : inv s) (hrun : Run guard ⟨s, .done ()⟩ c) : inv c.state := by
  let O : S.Outline := ⟨guard, inv, inv, fun _ _ => True, inv⟩
  have hwp {α : Type} (p : Program E α) (hp : ∀ s, PairsTo spec pair (fun _ _ => True) p s)
      (s : S.State) (hi : inv s) : O.wp p (fun _ s' => inv s') s := by
    refine O.wp_mono (O.wp_of_splits hsplits (fun _ => True.intro) (fun _ _ _ _ _ => True.intro)
      (fun e s a b s' he hi hg hexec => ?_) (hp s) hi) fun _ s' h => h.2.1
    have hinv := hlocal e s a b s' he hi hg hexec
    exact ⟨hinv, hinv, True.intro⟩
  have hv : O.Valid := {
    rest_always := fun _ h => h
    grows_refl := fun _ => True.intro
    grows_trans := fun _ _ _ _ _ => True.intro
    call := fun e p hu s hi =>
      O.wp_mono (hwp p (hcall e p hu) s hi) fun _ _ h => ⟨h, True.intro⟩
    foreign := fun x _ s hi he _ =>
      O.wp_mono (hwp (S.code x) (hcode x s he) s hi) fun _ _ h => ⟨h, True.intro⟩
    entry := fun x s hi he _ => hwp (S.code x) (hcode x s he) s hi }
  exact hv.always_of_run hs hrun

end CallbackSystem

end Mudmux.Lib
