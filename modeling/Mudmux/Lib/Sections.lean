import Mudmux.Lib.Callback

/-!
# `Mudmux.Lib.Sections`: code in critical sections

`Completes` runs a program of a callback system from its beginning to its end, with all the foreign
code that enters on the way. Weakest preconditions are sound for it (`Completes.of_wp`): what an outline
shows about the calls and the foreign entries is used here for code that runs to its end, where
`Outline.Valid.always_of_run` uses it for every state on the way.

A section system has several parties that take turns. In each turn a party runs a piece of code under
a common lock and then moves its own control state, which the code does not see: a loop that takes the
lock once per item is a control state and one turn per item. `Run` is the set of runs whose turns all
meet a guard, and `invariant_of_run` the invariant rule.
-/

set_option autoImplicit false

namespace Mudmux.Lib

namespace CallbackSystem

variable {E : Type → Type} {S : CallbackSystem E}

variable {α : Type} {a : α} {s s' : S.State} {guard : S.Guard} {p : Program E α}

/-! ### Code that runs to its end -/

/-- The program, run from `s` with moves that meet the guard, answers `a` in `s'`. -/
inductive Completes (guard : S.Guard) :
    {α : Type} → Program E α → S.State → α → S.State → Prop where
  | done {α : Type} (a : α) (s : S.State) : Completes guard (.done a) s a s
  | call {α β : Type} {e : E β} {p : Program E β} {k : β → Program E α} {s s₁ s' : S.State} {b : β}
      {a : α} (hu : S.unfold e = some p) (hp : Completes guard p s b s₁)
      (hk : Completes guard (k b) s₁ a s') : Completes guard (.perform e k) s a s'
  | enter {α β : Type} {e : E β} {k : β → Program E α} {s s₁ s' : S.State} {a : α} (x : S.Entry)
      (hu : S.unfold e = none) (hre : S.reentrant e = true) (hforeign : S.foreign x = true)
      (henabled : S.enabled s x = true) (hx : guard.entry s x = true)
      (hp : Completes guard (S.code x) s () s₁) (hk : Completes guard (.perform e k) s₁ a s') :
      Completes guard (.perform e k) s a s'
  | answer {α β : Type} {e : E β} {k : β → Program E α} {s s₁ s' : S.State} {b : β} {a : α}
      (x : S.Answer) (hu : S.unfold e = none) (hx : guard.effect s e x = true)
      (hexec : S.exec e x s = some (b, s₁)) (hk : Completes guard (k b) s₁ a s') :
      Completes guard (.perform e k) s a s'

theorem Completes.of_done {a b : α} (h : Completes guard (.done a) s b s') : b = a ∧ s' = s := by
  cases h
  exact ⟨rfl, rfl⟩

/-- The obligations of an outline about calls and foreign entries. -/
structure Outline.Stable (O : S.Outline) : Prop where
  grows_refl : ∀ s, O.grows s s
  grows_trans : ∀ s s' s'', O.grows s s' → O.grows s' s'' → O.grows s s''
  call : ∀ {β : Type} (e : E β) (p : Program E β), S.unfold e = some p → ∀ s, O.inner s →
    O.wp p (fun _ s' => O.inner s' ∧ O.grows s s') s
  foreign : ∀ x, S.foreign x = true → ∀ s, O.inner s → S.enabled s x = true →
    O.guard.entry s x = true → O.wp (S.code x) (fun _ s' => O.inner s' ∧ O.grows s s') s

/-- A program that meets its weakest precondition ends in the postcondition. -/
theorem Completes.of_wp {O : S.Outline} (hO : O.Stable) (h : Completes O.guard p s a s')
    {Q : α → S.State → Prop} (hwp : O.wp p Q s) : Q a s' := by
  induction h with
  | done a s => exact hwp
  | call hu _ _ ihp ihk =>
    simp only [Outline.wp, hu, Option.isSome_some, if_true] at hwp
    obtain ⟨hi, hg⟩ := ihp (hO.call _ _ hu _ hwp.1)
    exact ihk (hwp.2 _ _ hi hg)
  | enter x hu hre hforeign henabled hx _ _ ihp ihk =>
    simp only [Outline.wp, hu, hre, Option.isSome_none, Bool.false_eq_true, if_false, if_true]
      at hwp
    obtain ⟨hi, hg⟩ := ihp (hO.foreign x hforeign _ hwp.1 henabled hx)
    refine ihk ?_
    simp only [Outline.wp, hu, hre, Option.isSome_none, Bool.false_eq_true, if_false, if_true]
    exact ⟨hi, fun t a b t' hit hgt => hwp.2 t a b t' hit (hO.grows_trans _ _ _ hg hgt)⟩
  | answer x hu hx hexec _ ihk =>
    simp only [Outline.wp, hu, Option.isSome_none, Bool.false_eq_true, if_false] at hwp
    split at hwp
    · exact ihk (hwp.2 _ x _ _ hwp.1 (hO.grows_refl _) hx hexec).2
    · exact ihk (hwp x _ _ hx hexec).2

/-- What every effect keeps is kept by code that runs to its end. -/
theorem Completes.invariant (inv : S.State → Prop)
    (heffect : ∀ {β : Type} (e : E β) (x : S.Answer) (s : S.State) (b : β) (s' : S.State), inv s →
      guard.effect s e x = true → S.exec e x s = some (b, s') → inv s')
    (h : Completes guard p s a s') (hs : inv s) : inv s' := by
  induction h with
  | done a s => exact hs
  | call _ _ _ ihp ihk => exact ihk (ihp hs)
  | enter _ _ _ _ _ _ _ _ ihp ihk => exact ihk (ihp hs)
  | answer x _ hx hexec _ ihk => exact ihk (heffect _ x _ _ _ hs hx hexec)

/-- Run a program with a strategy that picks the move at every effect that is not a call. -/
def playOut (guard : S.Guard) (strategy : {β : Type} → S.State → E β → S.Move) :
    Nat → {α : Type} → Program E α → S.State → Option (α × S.State)
  | 0, _, _, _ => none
  | _ + 1, _, .done a, s => some (a, s)
  | fuel + 1, _, .perform e k, s =>
    match S.unfold e with
    | some p => (playOut guard strategy fuel p s).bind fun r =>
      playOut guard strategy fuel (k r.1) r.2
    | none =>
      match strategy s e with
      | .unfold => none
      | .enter x =>
        if S.reentrant e && S.foreign x && S.enabled s x && guard.entry s x then
          (playOut guard strategy fuel (S.code x) s).bind fun r =>
            playOut guard strategy fuel (.perform e k) r.2
        else none
      | .answer x =>
        if guard.effect s e x then
          (S.exec e x s).bind fun r => playOut guard strategy fuel (k r.1) r.2
        else none

/-- What a strategy plays is code that runs to its end. -/
theorem completes_of_playOut {strategy : {β : Type} → S.State → E β → S.Move} {fuel : Nat}
    (h : playOut guard strategy fuel p s = some (a, s')) : Completes guard p s a s' := by
  induction fuel generalizing α p s s' a with
  | zero => cases h
  | succ fuel ih =>
    cases p with
    | done b =>
      cases h
      exact .done _ _
    | perform e k =>
      rw [playOut] at h
      cases hu : S.unfold e with
      | some p =>
        simp only [hu] at h
        obtain ⟨⟨b, s₁⟩, hp, hk⟩ := Option.bind_eq_some_iff.mp h
        exact .call hu (ih hp) (ih hk)
      | none =>
        simp only [hu] at h
        split at h
        · cases h
        · next x _ =>
            split at h
            · next hall =>
                simp only [Bool.and_eq_true] at hall
                obtain ⟨⟨⟨hre, hforeign⟩, henabled⟩, hx⟩ := hall
                obtain ⟨⟨u, s₁⟩, hp, hk⟩ := Option.bind_eq_some_iff.mp h
                exact .enter x hu hre hforeign henabled hx (ih hp) (ih hk)
            · cases h
        · next x _ =>
            split at h
            · next hx =>
                obtain ⟨⟨b, s₁⟩, hexec, hk⟩ := Option.bind_eq_some_iff.mp h
                exact .answer x hu hx hexec (ih hk)
            · cases h

end CallbackSystem

open CallbackSystem

/-! ### Turns -/

/-- Parties that take turns with code of a callback system. A turn is named by a label; what its code
answers moves the control state, and may move the shared state once more. -/
structure SectionSystem {E : Type → Type} (S : CallbackSystem E) where
  Control : Type
  Label : Type
  Result : Label → Type
  code : (l : Label) → Program E (Result l)
  /-- Whether the turn can be taken. -/
  enabled : S.State → Control → Label → Bool
  after : (l : Label) → Result l → S.State → Control → S.State × Control

namespace SectionSystem

variable {E : Type → Type} {S : CallbackSystem E} (T : SectionSystem S)

/-- The shared state and the control state, between two turns. -/
structure Config where
  state : S.State
  control : T.Control

/-- A condition on the turns, and on the moves during the code of each of them. -/
structure Guard where
  turn : S.State → T.Control → T.Label → Bool
  code : T.Control → T.Label → S.Guard

/-- The guard that every turn meets. -/
def Guard.trivial : T.Guard := ⟨fun _ _ _ => true, fun _ _ => CallbackSystem.Guard.trivial S⟩

variable {T}

/-- The configuration behind a turn. -/
def Config.next (control : T.Control) (l : T.Label) (r : T.Result l) (s : S.State) : T.Config :=
  ⟨(T.after l r s control).1, (T.after l r s control).2⟩

/-- The configurations a guarded run can reach from `c`. -/
inductive Run (guard : T.Guard) (c : T.Config) : T.Config → Prop where
  | refl : Run guard c c
  | tail {c' : T.Config} {l : T.Label} {r : T.Result l} {s : S.State} (hrun : Run guard c c')
      (henabled : T.enabled c'.state c'.control l = true)
      (hturn : guard.turn c'.state c'.control l = true)
      (hcode : Completes (guard.code c'.control l) (T.code l) c'.state r s) :
      Run guard c (Config.next c'.control l r s)

/-- What every turn preserves holds along every run. -/
theorem invariant_of_run {guard : T.Guard} (inv : S.State → T.Control → Prop)
    (hturn : ∀ s control l r s', inv s control → T.enabled s control l = true →
      guard.turn s control l = true → Completes (guard.code control l) (T.code l) s r s' →
      inv (Config.next control l r s').state (Config.next control l r s').control) {c c' : T.Config}
    (h : inv c.state c.control) (hrun : Run guard c c') : inv c'.state c'.control := by
  induction hrun with
  | refl => exact h
  | tail _ henabled hguard hcode ih => exact hturn _ _ _ _ _ ih henabled hguard hcode

/-! ### Computed runs -/

/-- Take one turn after the other, with a strategy for the moves during their code. -/
def playTurns (guard : T.Guard) (strategy : T.Label → {β : Type} → S.State → E β → S.Move)
    (fuel : Nat) : List T.Label → T.Config → Option T.Config
  | [], c => some c
  | l :: ls, c =>
    if T.enabled c.state c.control l && guard.turn c.state c.control l then
      (playOut (guard.code c.control l) (strategy l) fuel (T.code l) c.state).bind fun r =>
        playTurns guard strategy fuel ls (Config.next c.control l r.1 r.2)
    else none

theorem run_of_playTurns {guard : T.Guard}
    {strategy : T.Label → {β : Type} → S.State → E β → S.Move} {fuel : Nat} {ls : List T.Label}
    {c d d' : T.Config} (hd : Run guard c d) (h : playTurns guard strategy fuel ls d = some d') :
    Run guard c d' := by
  induction ls generalizing d with
  | nil =>
    cases h
    exact hd
  | cons l ls ih =>
    rw [playTurns] at h
    split at h
    · next hboth =>
        obtain ⟨henabled, hturn⟩ := Bool.and_eq_true_iff.mp hboth
        obtain ⟨⟨r, s⟩, hcode, hrest⟩ := Option.bind_eq_some_iff.mp h
        exact ih (hd.tail henabled hturn (completes_of_playOut hcode)) hrest
    · cases h

/-- A computed run that ends in a configuration with the property `P`. -/
theorem exists_run_of_playTurns (guard : T.Guard)
    (strategy : T.Label → {β : Type} → S.State → E β → S.Move) (fuel : Nat) (ls : List T.Label)
    (c : T.Config) (P : T.Config → Bool) (h : (playTurns guard strategy fuel ls c).any P = true) :
    ∃ d, Run guard c d ∧ P d = true := by
  obtain ⟨d, hd, hP⟩ := (Option.any_eq_true _ _).mp h
  exact ⟨d, run_of_playTurns Run.refl hd, hP⟩

end SectionSystem

end Mudmux.Lib
