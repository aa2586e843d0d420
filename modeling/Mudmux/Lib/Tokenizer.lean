import Mathlib

/-!
# `Mudmux.Lib.Tokenizer`: tokens taken one at a time from a buffer that grows

A tokenizer looks at the front of a buffer and splits off the next token, or waits. It is lawful if a
token that it splits off stays the next token whatever arrives behind it. A token may be empty, so a
buffer may never be used up.

`Taken w tokens rest`: the first tokens of `w` are `tokens`, with `rest` behind them. Arrivals and
takings in any order take the first tokens of the whole input (`taken_run`). So two orders with the same
input differ at most in how far they got (`run_prefix`), and not at all once both wait
(`run_eq_of_waiting`).
-/

set_option autoImplicit false

namespace Mudmux.Lib

/-- The next token of a buffer, and what is behind it. -/
abbrev Tokenizer (α : Type) := List α → Option (List α × List α)

namespace Tokenizer

variable {α : Type} {next : Tokenizer α}

/-- More input does not change a token. -/
def Lawful (next : Tokenizer α) : Prop :=
  ∀ ⦃w token rest⦄ (x : List α), next w = some (token, rest) →
    next (w ++ x) = some (token, rest ++ x)

/-- The first tokens of a buffer, and what is behind them. -/
inductive Taken (next : Tokenizer α) : List α → List (List α) → List α → Prop where
  | nil (w : List α) : Taken next w [] w
  | cons {w token rest tokens rest'} : next w = some (token, rest) → Taken next rest tokens rest' →
      Taken next w (token :: tokens) rest'

variable {w : List α}

namespace Taken

variable {rest rest' : List α} {tokens tokens' : List (List α)}

variable (h : Taken next w tokens rest)

include h

theorem trans (h' : Taken next rest tokens' rest') : Taken next w (tokens ++ tokens') rest' := by
  induction h with
  | nil w => exact h'
  | cons hnext _ ih => exact .cons hnext (ih h')

/-- One more token. -/
theorem concat {token : List α} (hnext : next rest = some (token, rest')) :
    Taken next w (tokens ++ [token]) rest' :=
  h.trans (.cons hnext (.nil rest'))

omit h in
/-- Nothing is lost between the tokens. -/
theorem flatten_append (hsplit : ∀ {w token rest}, next w = some (token, rest) → token ++ rest = w)
    (h : Taken next w tokens rest) : tokens.flatten ++ rest = w := by
  induction h with
  | nil w => rfl
  | cons hw _ ih => rw [List.flatten_cons, List.append_assoc, ih, hsplit hw]

/-- Of two ways to take tokens from a buffer, one is a continuation of the other. -/
theorem comparable (h' : Taken next w tokens' rest') :
    (∃ more, tokens' = tokens ++ more ∧ Taken next rest more rest') ∨
      ∃ more, tokens = tokens' ++ more ∧ Taken next rest' more rest := by
  induction h generalizing tokens' with
  | nil w => exact .inl ⟨tokens', rfl, h'⟩
  | @cons w token rest₁ tokens rest hw htaken ih =>
    cases h' with
    | nil => exact .inr ⟨_, rfl, .cons hw htaken⟩
    | cons hw' htaken' =>
      -- the first tokens are the same, for `next` is a function
      cases hw.symm.trans hw'
      rcases ih htaken' with ⟨more, rfl, hmore⟩ | ⟨more, rfl, hmore⟩
      · exact .inl ⟨more, rfl, hmore⟩
      · exact .inr ⟨more, rfl, hmore⟩

omit h in
/-- From a buffer that waits nothing is taken. -/
theorem of_waiting (hw : next w = none) (h : Taken next w tokens rest) :
    tokens = [] ∧ rest = w := by
  cases h with
  | nil => exact ⟨rfl, rfl⟩
  | cons hnext =>
    rw [hw] at hnext
    cases hnext

/-- Whoever takes tokens until the buffer waits takes the same ones. -/
theorem eq_of_waiting (h' : Taken next w tokens' rest') (hwaits : next rest = none)
    (hwaits' : next rest' = none) : tokens = tokens' ∧ rest = rest' := by
  rcases h.comparable h' with ⟨more, rfl, hmore⟩ | ⟨more, rfl, hmore⟩
  · obtain ⟨rfl, rfl⟩ := hmore.of_waiting hwaits
    exact ⟨(List.append_nil _).symm, rfl⟩
  · obtain ⟨rfl, rfl⟩ := hmore.of_waiting hwaits'
    exact ⟨List.append_nil _, rfl⟩

end Taken

/-! ### Arrivals and takings -/

/-- Something arrives, or the next token is asked for. -/
inductive Event (α : Type) where
  | arrive (x : List α)
  | take

/-- The tokens taken so far, and the buffer. -/
@[ext]
structure State (α : Type) where
  tokens : List (List α)
  buffer : List α

/-- One event. A buffer that waits is left alone. -/
def step (next : Tokenizer α) (s : State α) : Event α → State α
  | .arrive x => { s with buffer := s.buffer ++ x }
  | .take =>
    match next s.buffer with
    | none => s
    | some (token, rest) => ⟨s.tokens ++ [token], rest⟩

/-- Events one after the other. -/
def run (next : Tokenizer α) (s : State α) (events : List (Event α)) : State α :=
  events.foldl (step next) s

/-- All that arrives. -/
def arrived : List (Event α) → List α
  | [] => []
  | .arrive x :: events => x ++ arrived events
  | .take :: events => arrived events

/-- Whatever the order of the events, the tokens taken are the first ones of the whole input. -/
theorem taken_run (hnext : next.Lawful) (events : List (Event α)) {s : State α}
    (h : Taken next w s.tokens (s.buffer ++ arrived events)) :
    Taken next w (run next s events).tokens (run next s events).buffer := by
  induction events generalizing s with
  | nil => simpa [arrived, run] using h
  | cons event events ih =>
    refine ih ?_
    cases event with
    | arrive x => simpa [step, arrived] using h
    | take =>
      rw [step]
      split
      · exact h
      · next token rest hbuffer => exact h.concat (hnext (arrived events) hbuffer)

section TwoRuns

variable (hnext : next.Lawful) {events events' : List (Event α)} {s s' : State α}
  (hs : run next ⟨[], []⟩ events = s) (hs' : run next ⟨[], []⟩ events' = s')
  (harrived : arrived events = arrived events')

include hnext hs hs' harrived

/-- Both runs take tokens from the same input. -/
theorem taken_runs :
    Taken next (arrived events) s.tokens s.buffer ∧ Taken next (arrived events) s'.tokens s'.buffer :=
  ⟨hs ▸ taken_run hnext events (.nil _), hs' ▸ taken_run hnext events' (harrived ▸ .nil _)⟩

/-- One of the runs has taken a first part of the tokens the other has taken. -/
theorem run_prefix : s.tokens <+: s'.tokens ∨ s'.tokens <+: s.tokens := by
  obtain ⟨htaken, htaken'⟩ := taken_runs hnext hs hs' harrived
  rcases htaken.comparable htaken' with ⟨more, hmore, -⟩ | ⟨more, hmore, -⟩
  · exact .inl ⟨more, hmore.symm⟩
  · exact .inr ⟨more, hmore.symm⟩

/-- Two runs that both wait have taken the same tokens. -/
theorem run_eq_of_waiting (hwaits : next s.buffer = none) (hwaits' : next s'.buffer = none) :
    s = s' := by
  obtain ⟨htaken, htaken'⟩ := taken_runs hnext hs hs' harrived
  obtain ⟨htokens, hbuffer⟩ := htaken.eq_of_waiting htaken' hwaits hwaits'
  exact State.ext htokens hbuffer

end TwoRuns

end Tokenizer

end Mudmux.Lib
