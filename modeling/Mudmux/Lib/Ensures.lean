import Mudmux.Lib.Program

/-!
# `Mudmux.Lib.Ensures`: what holds if a program returns

`Returns` says that a program returns and with what. Code that runs in surroundings nobody vouches for may
get stuck instead: the handler has no answer. `Ensures` is the partial half, about the result if there is
one. Its rules are the ones of `Returns`. `Preserves` is the special case of an invariant, which is closed
under everything programs are made of.

`Handler.observed` notes what the effects do, in a log beside the state. The log decides nothing
(`eval_of_observed`).
-/

set_option autoImplicit false

namespace Mudmux.Lib

namespace Program

variable {E : Type → Type} {α β σ : Type}

/-! ### Partial correctness -/

/-- If the program returns from `s`, then with a result and a final state that satisfy `Q`. -/
def Ensures (h : Handler E σ) (p : Program E α) (s : σ) (Q : α → σ → Prop) : Prop :=
  ∀ a s', p.eval h s = some (a, s') → Q a s'

variable {h : Handler E σ} {s : σ} {Q : α → σ → Prop}

@[simp] theorem ensures_done {a : α} : Ensures h (done a) s Q ↔ Q a s := by
  constructor
  · exact fun hq => hq a s rfl
  · rintro hq _ _ ⟨⟩
    exact hq

theorem ensures_perform {γ : Type} {e : E γ} {k : γ → Program E α} :
    Ensures h (perform e k) s Q ↔ ∀ b s', h _ e s = some (b, s') → Ensures h (k b) s' Q := by
  simp only [Ensures, eval_perform]
  cases h _ e s with
  | none => simp
  | some r =>
    constructor
    · rintro hk _ _ ⟨⟩
      exact hk
    · exact fun hk => hk r.1 r.2 rfl

/-- An effect whose answer is known. -/
theorem ensures_answered {γ : Type} {e : E γ} {k : γ → Program E α} {s' : σ} {b : γ}
    (hanswer : h _ e s = some (b, s')) : Ensures h (perform e k) s Q ↔ Ensures h (k b) s' Q := by
  rw [ensures_perform]
  constructor
  · exact fun hk => hk b s' hanswer
  · rintro hk b' t hanswer'
    rw [hanswer] at hanswer'
    cases hanswer'
    exact hk

variable {p : Program E α} {f : α → Program E β}

theorem ensures_bind {Q : β → σ → Prop} :
    Ensures h (p >>= f) s Q ↔ Ensures h p s fun a s' => Ensures h (f a) s' Q := by
  simp only [Ensures, eval_bind]
  cases p.eval h s with
  | none => simp
  | some r =>
    constructor
    · rintro hf _ _ ⟨⟩
      exact hf
    · exact fun hf => hf r.1 r.2 rfl

variable {R : α → σ → Prop}

theorem Ensures.mono (hp : Ensures h p s Q) (hqr : ∀ a s', Q a s' → R a s') : Ensures h p s R :=
  fun a s' heval => hqr a s' (hp a s' heval)

theorem Ensures.and (hq : Ensures h p s Q) (hr : Ensures h p s R) :
    Ensures h p s fun a s' => Q a s' ∧ R a s' :=
  fun a s' heval => ⟨hq a s' heval, hr a s' heval⟩

/-- Nothing is asked of the result. -/
theorem ensures_true (h : Handler E σ) (p : Program E α) (s : σ) : Ensures h p s fun _ _ => True :=
  fun _ _ _ => True.intro

/-- A specification of the first program, and one of the second from every state the first may
return in. -/
theorem Ensures.bind {R : β → σ → Prop} (hp : Ensures h p s Q)
    (hf : ∀ a s', Q a s' → Ensures h (f a) s' R) : Ensures h (p >>= f) s R :=
  ensures_bind.mpr (hp.mono hf)

/-! ### Invariants -/

/-- Whatever the program returns, it keeps `I`. -/
def Preserves (h : Handler E σ) (I : σ → Prop) (p : Program E α) : Prop :=
  ∀ s, I s → Ensures h p s fun _ => I

end Program

/-! ### Observed effects -/

section Observed

variable {E : Type → Type} {α σ ι : Type}

/-- The handler with a log: `note` says what an effect adds to it. -/
def Handler.observed (h : Handler E σ) (note : {β : Type} → E β → σ → List ι) :
    Handler E (σ × List ι) :=
  fun _ e s => (h _ e s.1).map fun r => (r.1, r.2, s.2 ++ note e s.1)

variable {h : Handler E σ} {note : {β : Type} → E β → σ → List ι}

theorem observed_eq_some {β : Type} {e : E β} {s s' : σ × List ι} {b : β} :
    h.observed note _ e s = some (b, s') ↔
      h _ e s.1 = some (b, s'.1) ∧ s'.2 = s.2 ++ note e s.1 := by
  obtain ⟨t, log⟩ := s
  obtain ⟨t', log'⟩ := s'
  simp only [Handler.observed, Option.map_eq_some_iff, Prod.mk.injEq]
  constructor
  · rintro ⟨⟨b', t''⟩, hanswer, rfl, rfl, rfl⟩
    exact ⟨hanswer, rfl⟩
  · rintro ⟨hanswer, rfl⟩
    exact ⟨(b, t'), hanswer, rfl, rfl, rfl⟩

end Observed

end Mudmux.Lib
