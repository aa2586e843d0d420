import Mathlib

/-!
# `Mudmux.Lib.FrameReader`: reading frames from a buffer that grows

A frame reader looks at the front of its input. It asks for more, takes a whole frame off, or halts
for good. Whatever a lawful one says, more input behind it does not change (`stable`). Outputs are
collected in a monoid.

* `decode` reads frames until the reader asks for more or halts; `decode_append` says what more
  input does to that.
* `drive` is a caller's loop. It calls a procedure that reads some of the frames at hand
  (`Implements`), drops what was consumed, and stops when nothing was consumed. `driveChunks` is the
  loop after every arrival. `driveChunks_eq_decode`: however the input arrives and however much one
  call reads, the result is `decode` on the whole input. The procedure may keep its state in other
  words than the reader.
-/

set_option autoImplicit false

namespace Mudmux.Lib

/-- What a reader says of the front of its input. -/
inductive Reading (σ ω ε : Type) where
  | more
  | halt (reason : ε)
  | frame (size : Nat) (out : ω) (next : σ)

/-- A reader of frames from a list, with a state `σ`, outputs `ω` and reasons to halt `ε`. -/
abbrev FrameReader (σ α ω ε : Type) := σ → List α → Reading σ ω ε

/-- A frame is a non-empty prefix of the input, and what is said of some input stays so when more
arrives. -/
structure FrameReader.Lawful {σ α ω ε : Type} (R : FrameReader σ α ω ε) : Prop where
  read_nil : ∀ s, R s [] = .more
  size_pos : ∀ {s w n out s'}, R s w = .frame n out s' → 0 < n
  size_le : ∀ {s w n out s'}, R s w = .frame n out s' → n ≤ w.length
  stable : ∀ {s w} (x : List α), R s w ≠ .more → R s (w ++ x) = R s w

/-- Where reading got to: it waits behind the frames it took off, or it has halted. -/
inductive Outcome (σ α ω ε : Type) where
  | waiting (out : ω) (state : σ) (rest : List α)
  | halted (out : ω) (reason : ε)
  deriving DecidableEq

namespace Outcome

variable {σ τ α ω ε δ : Type}

/-- The outcome behind earlier output. -/
def after [Mul ω] (out : ω) : Outcome σ α ω ε → Outcome σ α ω ε
  | waiting out' state rest => .waiting (out * out') state rest
  | halted out' reason => .halted (out * out') reason

/-- The outcome with the state and the reason in other words. -/
def map (f : σ → τ) (g : ε → δ) : Outcome σ α ω ε → Outcome τ α ω δ
  | waiting out state rest => .waiting out (f state) rest
  | halted out reason => .halted out (g reason)

/-- All the output so far. -/
def out : Outcome σ α ω ε → ω
  | waiting out _ _ => out
  | halted out _ => out

@[simp] theorem out_after [Mul ω] (out' : ω) (o : Outcome σ α ω ε) :
    (o.after out').out = out' * o.out := by
  cases o <;> rfl

@[simp] theorem out_map (f : σ → τ) (g : ε → δ) (o : Outcome σ α ω ε) :
    (o.map f g).out = o.out := by
  cases o <;> rfl

variable [Monoid ω]

@[simp] theorem after_one (o : Outcome σ α ω ε) : o.after 1 = o := by
  cases o <;> simp [after]

theorem after_after (out out' : ω) (o : Outcome σ α ω ε) :
    (o.after out').after out = o.after (out * out') := by
  cases o <;> simp [after, mul_assoc]

theorem map_after (f : σ → τ) (g : ε → δ) (out : ω) (o : Outcome σ α ω ε) :
    (o.after out).map f g = (o.map f g).after out := by
  cases o <;> rfl

end Outcome

namespace FrameReader

variable {σ α ω ε : Type}

/-! ### Reading all that is there -/

section Decode

variable [Monoid ω] (R : FrameReader σ α ω ε)

/-- Frames are taken off until the reader asks for more or halts. -/
def decodeFuel : Nat → σ → List α → Outcome σ α ω ε
  | 0, s, w => .waiting 1 s w
  | fuel + 1, s, w =>
    match R s w with
    | .more => .waiting 1 s w
    | .halt reason => .halted 1 reason
    | .frame size out s' => (decodeFuel fuel s' (w.drop size)).after out

/-- All that can be read. A frame has at least one symbol, so the length is enough fuel. -/
def decode (s : σ) (w : List α) : Outcome σ α ω ε := R.decodeFuel w.length s w

end Decode

namespace Lawful

variable {R : FrameReader σ α ω ε}

variable {s : σ} {w : List α}

theorem length_drop_le (hR : R.Lawful) {s' : σ} {n fuel : Nat} {out : ω}
    (h : R s w = .frame n out s') (hfuel : w.length ≤ fuel + 1) : (w.drop n).length ≤ fuel := by
  have hpos := hR.size_pos h
  rw [List.length_drop]
  omega

/-- Induction over the frames at the front of the input. -/
theorem frame_induction (hR : R.Lawful) {P : σ → List α → Prop}
    (more : ∀ s w, R s w = .more → P s w) (halt : ∀ s w reason, R s w = .halt reason → P s w)
    (frame : ∀ s w n out s', R s w = .frame n out s' → P s' (w.drop n) → P s w) (s : σ) (w : List α) :
    P s w := by
  induction hn : w.length using Nat.strongRecOn generalizing s w with
  | ind k ih =>
    cases h : R s w with
    | more => exact more s w h
    | halt reason => exact halt s w reason h
    | frame n out s' =>
      have hpos := hR.size_pos h
      have hle := hR.size_le h
      exact frame s w n out s' h (ih (w.drop n).length (by simp; omega) s' (w.drop n) rfl)

variable [Monoid ω]

variable (hR : R.Lawful)

include hR

/-- Fuel beyond the length changes nothing. -/
theorem decodeFuel_eq (fuel : Nat) (s : σ) (w : List α) (hfuel : w.length ≤ fuel) :
    R.decodeFuel fuel s w = R.decode s w := by
  -- Induction on the fuel of both sides at once: a frame shortens the input.
  suffices h : ∀ (n m : Nat) (s : σ) (w : List α), w.length ≤ n → w.length ≤ m →
      R.decodeFuel n s w = R.decodeFuel m s w from h fuel w.length s w hfuel (Nat.le_refl _)
  intro n
  induction n with
  | zero =>
    intro m s w hn _
    have hw : w = [] := List.eq_nil_of_length_eq_zero (by omega)
    subst hw
    cases m <;> simp [decodeFuel, hR.read_nil]
  | succ n ih =>
    intro m s w hn hm
    cases m with
    | zero =>
      have hw : w = [] := List.eq_nil_of_length_eq_zero (by omega)
      subst hw
      simp [decodeFuel, hR.read_nil]
    | succ m =>
      cases h : R s w with
      | more => simp [decodeFuel, h]
      | halt reason => simp [decodeFuel, h]
      | frame size out s' =>
        simp only [decodeFuel, h]
        rw [ih m s' _ (hR.length_drop_le h hn) (hR.length_drop_le h hm)]

theorem decode_of_more (h : R s w = .more) : R.decode s w = .waiting 1 s w := by
  rw [← hR.decodeFuel_eq (w.length + 1) s w (by omega), decodeFuel, h]

theorem decode_of_halt {reason : ε} (h : R s w = .halt reason) :
    R.decode s w = .halted 1 reason := by
  rw [← hR.decodeFuel_eq (w.length + 1) s w (by omega), decodeFuel, h]

theorem decode_of_frame {s' : σ} {n : Nat} {out : ω} (h : R s w = .frame n out s') :
    R.decode s w = (R.decode s' (w.drop n)).after out := by
  have hlen : (w.drop n).length ≤ w.length := by simp
  rw [← hR.decodeFuel_eq (w.length + 1) s w (by omega), decodeFuel, h]
  simp only [hR.decodeFuel_eq w.length s' (w.drop n) hlen]

/-- Reading stops to wait only where the reader asks for more. -/
theorem read_of_decode_waiting {s' : σ} {w' : List α} {out : ω}
    (h : R.decode s w = .waiting out s' w') : R s' w' = .more := by
  induction s, w using hR.frame_induction generalizing out with
  | more s w hr =>
    rw [hR.decode_of_more hr] at h
    cases h
    exact hr
  | halt s w reason hr =>
    rw [hR.decode_of_halt hr] at h
    cases h
  | frame s w n out₁ s₁ hr ih =>
    rw [hR.decode_of_frame hr] at h
    cases h₁ : R.decode s₁ (w.drop n) with
    | waiting out₂ s₂ w₂ =>
      rw [h₁] at h
      cases h
      exact ih h₁
    | halted out₂ reason =>
      rw [h₁] at h
      cases h

/-- What more input does: a reader that waits goes on, one that has halted has halted. -/
theorem decode_append (s : σ) (w x : List α) :
    R.decode s (w ++ x)
      = match R.decode s w with
        | .waiting out s' w' => (R.decode s' (w' ++ x)).after out
        | .halted out reason => .halted out reason := by
  induction s, w using hR.frame_induction with
  | more s w hr => simp [hR.decode_of_more hr]
  | halt s w reason hr =>
    have hr' : R s (w ++ x) = .halt reason := by rw [hR.stable x (by simp [hr]), hr]
    rw [hR.decode_of_halt hr, hR.decode_of_halt hr']
  | frame s w n out s' hr ih =>
    have hr' : R s (w ++ x) = .frame n out s' := by rw [hR.stable x (by simp [hr]), hr]
    rw [hR.decode_of_frame hr, hR.decode_of_frame hr',
      List.drop_append_of_le_length (hR.size_le hr), ih]
    cases R.decode s' (w.drop n) with
    | waiting out₁ s₁ w₁ => exact Outcome.after_after out out₁ _
    | halted out₁ reason => rfl

end Lawful

/-! ### A caller's loop -/

/-- What one call of a procedure reports: the symbols consumed, the state it left, its output, and
why it refused to go on. -/
structure Call (σ ω ε : Type) where
  consumed : Nat
  state : σ
  out : ω
  halt : Option ε

section Drive

variable {τ δ : Type} [Monoid ω]

/-- The procedure reads some of the frames at the front of its input, at least one if there is one,
and reports a halt if it meets one. It has states and reasons of its own: `f` and `g` say what they
stand for. -/
structure Implements (R : FrameReader σ α ω ε) (f : τ → σ) (g : ε → δ)
    (call : τ → List α → Call τ ω δ) : Prop where
  halts : ∀ t w reason, (call t w).halt = some reason →
    (R.decode (f t) w).map id g = .halted (call t w).out reason
  reads : ∀ t w, (call t w).halt = none →
    R.decode (f t) w
      = (R.decode (f (call t w).state) (w.drop (call t w).consumed)).after (call t w).out
  waits : ∀ t w, (call t w).halt = none → (call t w).consumed = 0 →
    R.decode (f t) w = .waiting (call t w).out (f (call t w).state) w

/-- Calls repeated while there is input, until one consumes nothing or refuses; `none` when the fuel
runs out first. -/
def drive (call : τ → List α → Call τ ω δ) : Nat → τ → List α → Option (Outcome τ α ω δ)
  | _, t, [] => some (.waiting 1 t [])
  | 0, _, _ :: _ => none
  | fuel + 1, t, a :: as =>
    let c := call t (a :: as)
    match c.halt with
    | some reason => some (.halted c.out reason)
    | none =>
      if c.consumed = 0 then some (.waiting c.out c.state (a :: as))
      else (drive call fuel c.state ((a :: as).drop c.consumed)).map (Outcome.after c.out)

/-- The loop after every arrival, with what was not consumed kept in front of the next one. -/
def driveChunks (call : τ → List α → Call τ ω δ) :
    τ → List α → List (List α) → Option (Outcome τ α ω δ)
  | t, pending, [] => some (.waiting 1 t pending)
  | t, pending, chunk :: chunks =>
    match drive call (pending ++ chunk).length t (pending ++ chunk) with
    | none => none
    | some (.halted out reason) => some (.halted out reason)
    | some (.waiting out t' pending') =>
      (driveChunks call t' pending' chunks).map (Outcome.after out)

variable {R : FrameReader σ α ω ε} {f : τ → σ} {g : ε → δ} {call : τ → List α → Call τ ω δ}

/-- The loop reads what is there to read, and a call per symbol is enough fuel for it. -/
theorem drive_eq_decode (hR : R.Lawful) (h : R.Implements f g call) (fuel : Nat) (t : τ)
    (w : List α) (hfuel : w.length ≤ fuel) :
    ∃ o, drive call fuel t w = some o ∧ o.map f id = (R.decode (f t) w).map id g := by
  have hnil (t : τ) : ∃ o : Outcome τ α ω δ, some (.waiting 1 t []) = some o ∧
      o.map f id = (R.decode (f t) []).map id g :=
    ⟨_, rfl, by rw [hR.decode_of_more (hR.read_nil _)]; rfl⟩
  induction fuel generalizing t w with
  | zero =>
    have hw : w = [] := List.eq_nil_of_length_eq_zero (by omega)
    subst hw
    exact hnil t
  | succ fuel ih =>
    cases w with
    | nil => exact hnil t
    | cons a as =>
      rw [drive]
      cases hhalt : (call t (a :: as)).halt with
      | some reason => exact ⟨_, rfl, (h.halts t (a :: as) reason hhalt).symm⟩
      | none =>
        simp only
        split
        · next hzero => exact ⟨_, rfl, by rw [h.waits t (a :: as) hhalt hzero]; rfl⟩
        · next hpos =>
            have hshort : ((a :: as).drop (call t (a :: as)).consumed).length ≤ fuel := by
              rw [List.length_drop]
              omega
            obtain ⟨o, ho, heq⟩ := ih (call t (a :: as)).state _ hshort
            rw [ho, Option.map_some, h.reads t (a :: as) hhalt, Outcome.map_after]
            exact ⟨_, rfl, by rw [Outcome.map_after, heq]⟩

/-- However the input arrives, and however much of it one call reads, the loop reads what is there
to read. -/
theorem driveChunks_eq_decode (hR : R.Lawful) (h : R.Implements f g call) (t : τ)
    (pending : List α) (chunks : List (List α)) (hpending : R (f t) pending = .more) :
    ∃ o, driveChunks call t pending chunks = some o ∧
      o.map f id = (R.decode (f t) (pending ++ chunks.flatten)).map id g := by
  induction chunks generalizing t pending with
  | nil =>
    rw [driveChunks, List.flatten_nil, List.append_nil, hR.decode_of_more hpending]
    exact ⟨_, rfl, rfl⟩
  | cons chunk chunks ih =>
    obtain ⟨o, ho, heq⟩ := drive_eq_decode hR h _ t (pending ++ chunk) (Nat.le_refl _)
    rw [driveChunks, ho, List.flatten_cons, ← List.append_assoc, hR.decode_append]
    cases hd : R.decode (f t) (pending ++ chunk) with
    | halted out reason =>
      rw [hd] at heq
      cases o with
      | waiting => cases heq
      | halted => exact ⟨_, rfl, heq⟩
    | waiting out s' pending' =>
      rw [hd] at heq
      cases o with
      | halted => cases heq
      | waiting out' t' _ =>
        cases heq
        obtain ⟨o', ho', heq'⟩ := ih t' pending' (hR.read_of_decode_waiting hd)
        simp only [ho', Option.map_some]
        exact ⟨_, rfl, by rw [Outcome.map_after, Outcome.map_after, heq']⟩

end Drive

end FrameReader

end Mudmux.Lib
