import Mathlib

/-!
# `Mudmux.Lib.Program`: sequential code as a tree of effects

A `Program E α` is sequential code that returns an `α`. All that it does to the outside is to
perform effects of the family `E`, one after the other; what it does next depends on the answers.
The same program can then be read in two ways:

* `eval` runs it under a handler, a partial function that answers every effect and moves a state;
* `Mudmux.Lib.Callback` runs it in small steps, where foreign code may run between two effects.

`mapEffects` makes a program over other effects of it. `eval_bind` is the composition rule. `Returns` is
total correctness under a handler. Its rules `returns_done`, `returns_perform` and `returns_bind` follow the
code as a weakest precondition does, and `Returns.bind` sequences two specifications. What any such reading
offers to a proof that follows the code is a `Logic`.
-/

set_option autoImplicit false

namespace Mudmux.Lib

/-- Sequential code over the effects `E`. -/
inductive Program (E : Type → Type) (α : Type) : Type 1 where
  | done (a : α)
  | perform {β : Type} (e : E β) (k : β → Program E α)

/-- A handler answers an effect and moves the state. It may fail to answer. -/
abbrev Handler (E : Type → Type) (σ : Type) := (β : Type) → E β → σ → Option (β × σ)

namespace Program

variable {E : Type → Type} {α β σ : Type}

/-- Sequential composition. -/
protected def bind : Program E α → (α → Program E β) → Program E β
  | done a, f => f a
  | perform e k, f => perform e fun b => (k b).bind f

instance : Monad (Program E) where
  pure := done
  bind := Program.bind

/-- A single effect. -/
def effect (e : E β) : Program E β := perform e done

@[simp] theorem pure_eq (a : α) : (pure a : Program E α) = done a := rfl

@[simp] theorem done_bind (a : α) (f : α → Program E β) : done a >>= f = f a := rfl

variable {γ : Type}

@[simp] theorem perform_bind (e : E γ) (k : γ → Program E α) (f : α → Program E β) :
    perform e k >>= f = perform e fun b => k b >>= f := rfl

@[simp] theorem effect_bind (e : E γ) (f : γ → Program E β) :
    effect e >>= f = perform e f := rfl

variable (p : Program E α)

theorem bind_done : p >>= done = p := by
  induction p with
  | done a => rfl
  | perform e k ih => simp only [perform_bind, ih]

theorem bind_assoc' (f : α → Program E β) (g : β → Program E γ) :
    p >>= f >>= g = p >>= fun a => f a >>= g := by
  induction p with
  | done a => rfl
  | perform e k ih => simp only [perform_bind, ih]

/-! ### Translated effects -/

section Translation

variable {F : Type → Type} (f : {β : Type} → E β → F β)

/-- The program with its effects translated. -/
def mapEffects : Program E α → Program F α
  | done a => done a
  | perform e k => perform (f e) fun b => (k b).mapEffects

@[simp] theorem mapEffects_done (a : α) : (done a : Program E α).mapEffects f = done a := rfl

@[simp] theorem mapEffects_perform (e : E γ) (k : γ → Program E α) :
    (perform e k).mapEffects f = perform (f e) fun b => (k b).mapEffects f := rfl

theorem mapEffects_bind (p : Program E α) (g : α → Program E β) :
    (p >>= g).mapEffects f = p.mapEffects f >>= fun a => (g a).mapEffects f := by
  induction p with
  | done a => rfl
  | perform e k ih => simp only [perform_bind, mapEffects_perform, ih]

end Translation

theorem mapEffects_id : p.mapEffects (fun e => e) = p := by
  induction p with
  | done a => rfl
  | perform e k ih => simp only [mapEffects_perform, ih]

/-! ### Evaluation under a handler -/

/-- The run under a handler; `none` as soon as the handler does not answer. -/
def eval (h : Handler E σ) : Program E α → σ → Option (α × σ)
  | done a, s => some (a, s)
  | perform e k, s =>
    match h _ e s with
    | none => none
    | some (b, s') => (k b).eval h s'

@[simp] theorem eval_done (h : Handler E σ) (a : α) (s : σ) :
    (done a : Program E α).eval h s = some (a, s) := rfl

theorem eval_perform (h : Handler E σ) (e : E γ) (k : γ → Program E α) (s : σ) :
    (perform e k).eval h s = (h _ e s).bind fun r => (k r.1).eval h r.2 := by
  rw [eval]
  cases h _ e s <;> rfl

theorem eval_bind (h : Handler E σ) (p : Program E α) (f : α → Program E β) (s : σ) :
    (p >>= f).eval h s = (p.eval h s).bind fun r => (f r.1).eval h r.2 := by
  induction p generalizing s with
  | done a => rfl
  | perform e k ih =>
    rw [perform_bind, eval_perform, eval_perform]
    cases h _ e s with
    | none => rfl
    | some r => exact ih r.1 r.2

/-- The program returns from `s`, with a result and a final state that satisfy `Q`. -/
def Returns (h : Handler E σ) (p : Program E α) (s : σ) (Q : α → σ → Prop) : Prop :=
  ∃ a s', p.eval h s = some (a, s') ∧ Q a s'

variable {h : Handler E σ} {s : σ} {Q : α → σ → Prop}

@[simp] theorem returns_done {a : α} : Returns h (done a) s Q ↔ Q a s := by
  constructor
  · rintro ⟨_, _, hdone, hq⟩
    cases hdone
    exact hq
  · exact fun hq => ⟨a, s, rfl, hq⟩

theorem returns_perform {e : E γ} {k : γ → Program E α} :
    Returns h (perform e k) s Q ↔ ∃ b s', h _ e s = some (b, s') ∧ Returns h (k b) s' Q := by
  simp only [Returns, eval_perform]
  cases h _ e s with
  | none => simp
  | some r =>
    obtain ⟨b, s'⟩ := r
    constructor
    · exact fun hk => ⟨b, s', rfl, hk⟩
    · rintro ⟨_, _, hsome, hk⟩
      cases hsome
      exact hk

variable {p} {f : α → Program E β}

/-- Two programs in sequence: the second returns from whatever state the first returns in. -/
theorem returns_bind {Q : β → σ → Prop} :
    Returns h (p >>= f) s Q ↔ Returns h p s fun a s' => Returns h (f a) s' Q := by
  simp only [Returns, eval_bind]
  cases p.eval h s with
  | none => simp
  | some r =>
    obtain ⟨a, s'⟩ := r
    constructor
    · exact fun hf => ⟨a, s', rfl, hf⟩
    · rintro ⟨_, _, hsome, hf⟩
      cases hsome
      exact hf

theorem Returns.mono {R : α → σ → Prop} (hp : Returns h p s Q) (hqr : ∀ a s', Q a s' → R a s') :
    Returns h p s R := by
  obtain ⟨a, s', heval, hq⟩ := hp
  exact ⟨a, s', heval, hqr a s' hq⟩

/-- A program that returns does so with the specified result. -/
theorem Returns.of_eval {s' : σ} {a : α} (hp : Returns h p s Q) (heval : p.eval h s = some (a, s')) :
    Q a s' := by
  obtain ⟨b, t, heval', hq⟩ := hp
  rw [heval'] at heval
  cases heval
  exact hq

variable {R : β → σ → Prop}

/-- A specification of the first program, and one of the second from every state the first may
return in. -/
theorem Returns.bind (hp : Returns h p s Q) (hf : ∀ a s', Q a s' → Returns h (f a) s' R) :
    Returns h (p >>= f) s R :=
  returns_bind.mpr (hp.mono hf)

/-- One of two programs, and the same code behind both. -/
theorem Returns.ite_bind {c : Prop} [Decidable c] {q : Program E α} {Q : β → σ → Prop}
    {R : α → σ → Prop} (hp : c → Returns h p s R) (hq : ¬ c → Returns h q s R)
    (hf : ∀ a s', R a s' → Returns h (f a) s' Q) :
    Returns h (if c then p >>= f else q >>= f) s Q := by
  split
  · next hc => exact (hp hc).bind hf
  · next hc => exact (hq hc).bind hf

/-! ### Logics -/

/-- A logic of programs: `holds p Q s` says of `p`, begun in `s`, that it ends in `Q`. -/
structure Logic {σ : Type} (holds : {α : Type} → Program E α → (α → σ → Prop) → σ → Prop) : Prop where
  done : ∀ {α : Type} {a : α} {Q : α → σ → Prop} {s : σ}, Q a s → holds (.done a) Q s
  bind : ∀ {α β : Type} {p : Program E β} {f : β → Program E α} {Q : α → σ → Prop} {s : σ},
    holds p (fun b => holds (f b) Q) s → holds (p >>= f) Q s
  mono : ∀ {α : Type} {p : Program E α} {Q R : α → σ → Prop} {s : σ},
    holds p Q s → (∀ a s', Q a s' → R a s') → holds p R s

/-- Two specifications one after the other. -/
theorem Logic.seq {holds : {α : Type} → Program E α → (α → σ → Prop) → σ → Prop} (L : Logic holds)
    {p : Program E β} {f : β → Program E α} (hp : holds p R s)
    (hf : ∀ b s', R b s' → holds (f b) Q s') : holds (p >>= f) Q s :=
  L.bind (L.mono hp hf)

end Program

end Mudmux.Lib
