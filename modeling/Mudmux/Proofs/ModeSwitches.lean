import Mudmux.Proofs.PlainInput

/-!
# `Mudmux.Proofs.ModeSwitches`: strict and relaxed mode when hooks switch the input mode

A plain slot with buffered bytes runs until nothing is deferred any more, with a hook that may
change the input mode after every message.

In strict mode the hook runs inside the parser. The line loop reads the mode before its first line
only and takes every line; a pass in character input takes one message and leaves the rest deferred.
The messages are those of `passMessages`.

In relaxed mode the slot is busy as soon as a message is accepted, so a pass takes one message in
either mode and the next one is parsed in the mode that the hook left. The messages are those of
`inputSteps`, for every order of the event loop's and the worker's steps.

`modes_agree_iff_switches_settled` puts the two together.
-/

set_option autoImplicit false

namespace Mudmux.Comm

open Mudmux.Lib
open Mudmux.Lib.Program (Returns returns_done returns_bind effect)

variable {setup : Setup} {policy : HookPolicy} {ansi lineInput deferred : Bool} {data : Bytes}

/-! ### Strict mode -/

section Strict

variable {takes : List Bytes → List WriteAnswer} {depth : Nat} {w : World (List Bytes)}

theorem policySurroundings_asksQuietly :
    (policySurroundings setup policy takes).AsksQuietly := fun _ _ => rfl

/-- Between two messages a plain slot keeps its input, and the hook is not run. -/
theorem policySurroundings_calm (ansi lineInput deferred : Bool) (data : Bytes)
    (history : List Bytes) :
    (policySurroundings setup policy takes).Calm fun w =>
      PlainInput ansi lineInput deferred data w.comm ∧ w.outside = history where
  steady h := h.1.steady
  output _ _ h := ⟨{ h.1 with }, h.2⟩
  freed h := ⟨{ h.1 with }, h.2⟩
  otherSlots h := h
  finalizeAwait h := h
  drain h := h

variable (hstrict : setup.relaxed = false) (hreg : setup.registered .messageInbound = true)
  (hconsole : setup.console = false)

include hstrict hreg hconsole

/-- A message in strict mode: its hook has run when the dispatch returns. -/
theorem commInvokeInboundMessage_strict (message : Bytes)
    (h : PlainInput ansi lineInput deferred data w.comm) :
    Returns (slotHandler setup (policySurroundings setup policy takes) (depth + 1))
      (commInvokeInboundMessage setup message) w fun result w' =>
        result ≠ .queueFull ∧
        PlainInput ansi ((policy.choose (w.outside ++ [message])).after lineInput) deferred data
          w'.comm ∧
        w'.outside = w.outside ++ [message] := by
  rw [returns_invokeStrict h.live hstrict]
  have hin : PlainInput ansi lineInput deferred data
      (w.comm.mapFlags fun flags => { flags with invokedPrompt := false }) := { h with }
  refine mudmuxExecutionDispatch_calm (policySurroundings_calm ansi
    ((policy.choose (w.outside ++ [message])).after lineInput) deferred data
    (w.outside ++ [message])) (fun _ h => h.1.not_ready) hstrict (.messageInbound message)
    (fun _ => ?_) fun hnone => absurd (hnone.symm.trans hreg) Bool.false_ne_true
  exact ⟨ModeChoice.apply_plain (by simp [hconsole]) _ hin, rfl⟩

/-- A character message in strict mode: what is behind it is deferred. -/
theorem invokeCharInputMessage_strict (message : Bytes)
    (h : PlainInput ansi lineInput deferred data w.comm) :
    Returns (slotHandler setup (policySurroundings setup policy takes) (depth + 1))
      (invokeCharInputMessage setup message) w fun result w' =>
        result ≠ .queueFull ∧
        PlainInput ansi ((policy.choose (w.outside ++ [message])).after lineInput) true data
          w'.comm ∧
        w'.outside = w.outside ++ [message] := by
  rw [invokeCharInputMessage, returns_commGuard h.live]
  simp only [hstrict, Bool.not_false, if_true]
  rw [returns_modifyFlags h.live]
  have hin : PlainInput ansi lineInput deferred data
      (w.comm.mapFlags fun flags => { flags with invokedPrompt := false }) := { h with }
  apply (commInvokeInboundMessage_strict hstrict hreg hconsole message (by exact hin)).bind
  rintro result w₁ ⟨hresult, hin₁, houtside⟩
  rw [commDeferInput, Program.bind_assoc', returns_commGuard hin₁.live,
    returns_deferInbound hin₁.live]
  refine returns_done.mpr ⟨hresult, ?_, houtside⟩
  exact { hin₁ with deferred := rfl }

/-- The line loop in strict mode takes every line, whatever mode the hooks choose meanwhile. -/
theorem lineLoop_strict (fuel : Nat) (w : World (List Bytes)) (lineInput : Bool) (data : Bytes)
    (hfuel : data.length < fuel) (h : PlainInput ansi lineInput deferred data w.comm) :
    Returns (slotHandler setup (policySurroundings setup policy takes) (depth + 1))
      (lineLoop setup fuel none) w fun _ w' =>
        (∃ lineInput' rest, PlainInput ansi lineInput' deferred rest w'.comm) ∧
        w'.outside = w.outside ++ linesOf [] data := by
  induction fuel generalizing w lineInput data with
  | zero => omega
  | succ fuel ih =>
    apply lineLoop_plain fuel policySurroundings_asksQuietly h
    · intro hwaits
      rw [linesOf_nextLine, hwaits]
      exact ⟨⟨lineInput, data, h⟩, (List.append_nil _).symm⟩
    · intro line rest dirty comm hnext hin
      apply (commInvokeInboundMessage_strict hstrict hreg hconsole line (by exact hin)).mono
      rintro result w₁ ⟨hresult, hin₁, houtside⟩
      refine ⟨hresult, _, _, hin₁, ?_⟩
      intro comm' hin'
      have hshort := length_rest_lt_of_nextLine hnext
      show Returns _ (lineLoop setup fuel none) _ _
      apply (ih { w₁ with comm := comm' } _ rest (by omega) hin').mono
      rintro _ w₂ ⟨hleft, houtside₂⟩
      refine ⟨hleft, ?_⟩
      rw [houtside₂, linesOf_nextLine data, hnext]
      show w₁.outside ++ _ = _
      rw [houtside, List.append_assoc, List.singleton_append]

/-- A pass in line input leaves nothing deferred. -/
theorem resume_strict_line (h : PlainInput ansi true true data w.comm) :
    Returns (slotHandler setup (policySurroundings setup policy takes) (depth + 1))
      (commResumeDeferredInput setup) w fun _ w' =>
        (∃ lineInput' rest, PlainInput ansi lineInput' false rest w'.comm) ∧
        w'.outside = w.outside ++ linesOf [] data := by
  apply commResumeDeferredInput_plain policySurroundings_asksQuietly rfl h
  · intro _ comm fuel hin hfuel
    apply (lineLoop_strict hstrict hreg hconsole fuel { w with comm } true data hfuel hin).mono
    rintro _ w' ⟨hleft, houtside⟩
    obtain ⟨lineInput', rest, hin'⟩ := hleft
    exact ⟨hin'.live, ⟨lineInput', rest, hin'⟩, houtside⟩
  · intro hmode
    exact absurd hmode (by simp)

/-- A pass in character input takes one message, and defers what is behind it. -/
theorem resume_strict_char (h : PlainInput ansi false true data w.comm) :
    Returns (slotHandler setup (policySurroundings setup policy takes) (depth + 1))
      (commResumeDeferredInput setup) w fun _ w' =>
        match nextChar setup ansi data with
        | none => PlainInput ansi false false data w'.comm ∧ w'.outside = w.outside
        | some (message, rest) =>
          PlainInput ansi (policy.choose (w.outside ++ [message])).lineAfter true rest w'.comm ∧
          w'.outside = w.outside ++ [message] := by
  apply commResumeDeferredInput_plain policySurroundings_asksQuietly rfl h
  · intro hmode
    exact absurd hmode (by simp)
  · intro _ comm hin
    apply charInput_plain (by simp [hconsole]) (by exact hin)
    · intro hwaits
      rw [hwaits]
      exact ⟨rfl, hin.live, hin, rfl⟩
    · intro message rest comm₁ hnext hin₁
      apply (invokeCharInputMessage_strict hstrict hreg hconsole message (by exact hin₁)).mono
      rintro result w₂ ⟨hresult, hin₂, houtside⟩
      refine ⟨hresult, _, _, hin₂, ?_⟩
      intro comm' hin'
      rw [hnext]
      rw [ModeChoice.after_line] at hin'
      exact ⟨rfl, hin'.live, hin', houtside⟩

omit hstrict hreg hconsole in
/-- With nothing deferred there is nothing to resume. -/
theorem resumeTimes_settled (count : Nat) (h : PlainInput ansi lineInput false data w.comm) :
    Returns (slotHandler setup (policySurroundings setup policy takes) (depth + 1))
      (resumeTimes setup count) w fun _ w' => w' = w := by
  induction count with
  | zero => exact returns_done.mpr rfl
  | succ count ih =>
    rw [resumeTimes, commResumeDeferredInput, Program.bind_assoc', returns_commGuard h.live]
    simp only [h.deferred, Bool.not_false, if_true]
    exact ih

/-- A run in strict mode: as many passes as there are bytes, and one to see that they are used
up. -/
theorem resumeTimes_strict (fuel count : Nat) (w : World (List Bytes)) (lineInput : Bool)
    (data : Bytes) (hmbrlen : MbrlenOk setup.mbrlen) (hnul : 0 ∉ data) (hfuel : data.length < fuel)
    (hcount : fuel ≤ count) (h : PlainInput ansi lineInput true data w.comm) :
    Returns (slotHandler setup (policySurroundings setup policy takes) (depth + 1))
      (resumeTimes setup count) w fun _ w' =>
        w'.comm.flags.deferredInbound = false ∧
        w'.outside = w.outside ++ passMessages setup ansi policy fuel lineInput data w.outside := by
  induction fuel generalizing count w lineInput data with
  | zero => omega
  | succ fuel ih =>
    obtain ⟨count, rfl⟩ : ∃ c, count = c + 1 := ⟨count - 1, by omega⟩
    rw [resumeTimes]
    cases lineInput with
    | true =>
      apply (resume_strict_line hstrict hreg hconsole h).bind
      rintro _ w₁ ⟨⟨lineInput', rest, hin⟩, houtside⟩
      apply (resumeTimes_settled count hin).mono
      rintro _ w₂ rfl
      refine ⟨hin.deferred, ?_⟩
      rw [passMessages, if_pos rfl]
      exact houtside
    | false =>
      apply (resume_strict_char hstrict hreg hconsole h).bind
      intro _ w₁ hpass
      rw [passMessages, if_neg Bool.false_ne_true]
      cases hnext : nextChar setup ansi data with
      | none =>
        rw [hnext] at hpass
        obtain ⟨hin, houtside⟩ := hpass
        apply (resumeTimes_settled count hin).mono
        rintro _ w₂ rfl
        refine ⟨hin.deferred, ?_⟩
        rw [houtside]
        exact (List.append_nil _).symm
      | some next =>
        obtain ⟨message, rest⟩ := next
        rw [hnext] at hpass
        obtain ⟨hin, houtside⟩ := hpass
        have hmessage : nextMessage setup ansi false data = some (message, rest) := hnext
        have hshort := length_rest_lt_of_nextMessage hmbrlen hnul hmessage
        have hnul' := nul_notMem_of_nextMessage hnul hmessage
        apply (ih count w₁ _ rest hnul' (by omega) (by omega) hin).mono
        rintro _ w₂ ⟨hdeferred, houtside₂⟩
        refine ⟨hdeferred, ?_⟩
        rw [houtside₂, houtside, List.append_assoc, List.singleton_append]

end Strict

/-! ### Relaxed mode: one pass -/

section Relaxed

theorem laneSurroundings_asksQuietly : laneSurroundings.AsksQuietly := fun _ _ => rfl

variable {w : World LaneView}

/-- An idle lane takes the message. -/
theorem lane_accepts (message : Bytes) (hidle : w.outside.stage = .idle) :
    slotHandler setup laneSurroundings 0 _ (.enqueue (.messageInbound message) .inbound) w
      = some (.queued, { w with outside := ⟨.queued message, .queued⟩ }) := by
  obtain ⟨comm, entries, reads, ⟨stage, answer⟩⟩ := w
  obtain rfl : stage = .idle := hidle
  rfl

variable (hrelaxed : setup.relaxed = true)

include hrelaxed

/-- A message in relaxed mode: it is accepted, and the rest of the input is deferred. -/
theorem commInvokeInboundMessage_relaxed (message : Bytes) (hidle : w.outside.stage = .idle)
    (h : PlainInput ansi lineInput deferred data w.comm) :
    Returns (slotHandler setup laneSurroundings 0) (commInvokeInboundMessage setup message) w
      fun result w' =>
        result ≠ .queueFull ∧ PlainInput ansi lineInput true data w'.comm ∧
        w'.outside.stage = .queued message := by
  rw [returns_invokeRelaxed h.live hrelaxed, returns_answered (lane_accepts message (by exact hidle))]
  refine returns_done.mpr ⟨by simp, ?_, rfl⟩
  exact { h with deferred := rfl }

theorem invokeCharInputMessage_relaxed (message : Bytes) (hidle : w.outside.stage = .idle)
    (h : PlainInput ansi lineInput deferred data w.comm) :
    Returns (slotHandler setup laneSurroundings 0) (invokeCharInputMessage setup message) w
      fun result w' =>
        result ≠ .queueFull ∧ PlainInput ansi lineInput true data w'.comm ∧
        w'.outside.stage = .queued message := by
  rw [invokeCharInputMessage, returns_commGuard h.live]
  simp only [hrelaxed, Bool.not_true, Bool.false_eq_true, if_false]
  rw [returns_modifyFlags h.live]
  have hin : PlainInput ansi lineInput deferred data
      (w.comm.mapFlags fun flags => { flags with invokedPrompt := false }) := { h with }
  apply (commInvokeInboundMessage_relaxed hrelaxed message (by exact hidle) (by exact hin)).bind
  intro result w₁ hpost
  exact returns_done.mpr hpost

/-- A pass in relaxed mode takes the next message of the mode in force, and only that one. -/
theorem resume_relaxed (hconsole : setup.console = false) (hidle : w.outside.stage = .idle)
    (h : PlainInput ansi lineInput true data w.comm) :
    Returns (slotHandler setup laneSurroundings 0) (commResumeDeferredInput setup) w fun _ w' =>
      match nextMessage setup ansi lineInput data with
      | none => PlainInput ansi lineInput false data w'.comm ∧ w'.outside.stage = .idle
      | some (message, rest) =>
        PlainInput ansi true true rest w'.comm ∧ w'.outside.stage = .queued message := by
  have hfree : laneSurroundings.slotBusy w.outside = false := by
    show decide (w.outside.stage ≠ .idle) = false
    simp [hidle]
  apply commResumeDeferredInput_plain laneSurroundings_asksQuietly hfree h
  · rintro rfl comm fuel hin hfuel
    obtain ⟨fuel, rfl⟩ : ∃ f, fuel = f + 1 := ⟨fuel - 1, by omega⟩
    rw [nextMessage, if_pos rfl]
    apply lineLoop_plain fuel laneSurroundings_asksQuietly (by exact hin)
    · intro hwaits
      rw [hwaits]
      exact ⟨hin.live, hin, hidle⟩
    · intro line rest dirty comm₁ hnext hin₁
      apply (commInvokeInboundMessage_relaxed hrelaxed line (by exact hidle) (by exact hin₁)).mono
      rintro result w₂ ⟨hresult, hin₂, hqueued⟩
      refine ⟨hresult, _, _, hin₂, ?_⟩
      intro comm' hin'
      -- the execution of the line holds the slot now
      have hbusy : laneSurroundings.slotBusy w₂.outside = true := by
        show decide (w₂.outside.stage ≠ .idle) = true
        simp [hqueued]
      rw [if_pos hbusy, hnext]
      exact ⟨hin'.live, hin', hqueued⟩
  · rintro rfl comm hin
    rw [nextMessage, if_neg Bool.false_ne_true]
    apply charInput_plain (by simp [hconsole]) (by exact hin)
    · intro hwaits
      rw [hwaits]
      exact ⟨rfl, hin.live, hin, hidle⟩
    · intro message rest comm₁ hnext hin₁
      apply (invokeCharInputMessage_relaxed hrelaxed message (by exact hidle) (by exact hin₁)).mono
      rintro result w₂ ⟨hresult, hin₂, hqueued⟩
      refine ⟨hresult, _, _, hin₂, ?_⟩
      intro comm' hin'
      rw [hnext]
      exact ⟨rfl, hin'.live, hin', hqueued⟩

omit hrelaxed in
/-- A pass over a slot that is busy or has nothing deferred changes nothing. -/
theorem resume_idles (h : PlainInput ansi lineInput deferred data w.comm)
    (hnothing : deferred = false ∨ w.outside.stage ≠ .idle) :
    Returns (slotHandler setup laneSurroundings 0) (commResumeDeferredInput setup) w
      fun _ w' => w' = w := by
  rw [commResumeDeferredInput, returns_commGuard h.live]
  dsimp only
  rw [h.deferred]
  cases deferred with
  | false => exact returns_done.mpr rfl
  | true =>
    have hbusy : laneSurroundings.slotBusy w.outside = true := by
      show decide (w.outside.stage ≠ .idle) = true
      simpa using hnothing
    rw [Bool.not_true, if_neg Bool.false_ne_true, Program.effect_bind,
      returns_slotBusy laneSurroundings_asksQuietly, hbusy, if_pos rfl]
    exact returns_done.mpr rfl

end Relaxed

/-! ### Relaxed mode: every schedule -/

/-- The messages still to come when the slot is in `lineInput` with `data` unread. -/
def messagesToCome (setup : Setup) (ansi : Bool) (policy : HookPolicy) (lineInput : Bool)
    (data : Bytes) (history : List Bytes) : List Bytes :=
  (inputSteps setup ansi policy (data.length + 1) lineInput data history).map InputStep.message

theorem messagesToCome_none {history : List Bytes}
    (hnext : nextMessage setup ansi lineInput data = none) :
    messagesToCome setup ansi policy lineInput data history = [] := by
  rw [messagesToCome, inputSteps, hnext]
  rfl

theorem messagesToCome_some {history : List Bytes} {message rest : Bytes}
    (hmbrlen : MbrlenOk setup.mbrlen) (hnul : 0 ∉ data)
    (hnext : nextMessage setup ansi lineInput data = some (message, rest)) :
    messagesToCome setup ansi policy lineInput data history
      = message :: messagesToCome setup ansi policy
          (policy.choose (history ++ [message])).lineAfter rest (history ++ [message]) := by
  have hshort := length_rest_lt_of_nextMessage hmbrlen hnul hnext
  have hnul' := nul_notMem_of_nextMessage hnul hnext
  rw [messagesToCome, inputSteps, hnext, List.map_cons, messagesToCome,
    inputSteps_fuel hmbrlen hnul' hshort (Nat.lt_succ_self _)]

/-- The messages so far and those to come are `messages`, wherever the slot's execution is. -/
inductive RelaxedSlot.OnTrack (setup : Setup) (ansi : Bool) (policy : HookPolicy)
    (messages : List Bytes) : RelaxedSlot → Prop where
  | idle {comm : CommAbstract} {history : List Bytes} {lineInput deferred : Bool} {data : Bytes}
      (h : PlainInput ansi lineInput deferred data comm) (hnul : 0 ∉ data)
      (hdone : deferred = false → nextMessage setup ansi lineInput data = none)
      (hmessages : history ++ messagesToCome setup ansi policy lineInput data history = messages) :
      OnTrack setup ansi policy messages ⟨comm, .idle, history⟩
  | queued {comm : CommAbstract} {history : List Bytes} {message data : Bytes}
      (h : PlainInput ansi true true data comm) (hnul : 0 ∉ data)
      (hmessages : history ++ [message] ++ messagesToCome setup ansi policy
        (policy.choose (history ++ [message])).lineAfter data (history ++ [message]) = messages) :
      OnTrack setup ansi policy messages ⟨comm, .queued message, history⟩
  | running {comm : CommAbstract} {history : List Bytes} {data : Bytes}
      (h : PlainInput ansi true true data comm) (hnul : 0 ∉ data)
      (hmessages : history ++ messagesToCome setup ansi policy (policy.choose history).lineAfter
        data history = messages) :
      OnTrack setup ansi policy messages ⟨comm, .running, history⟩
  | returned {comm : CommAbstract} {history : List Bytes} {lineInput : Bool} {data : Bytes}
      (h : PlainInput ansi lineInput true data comm) (hnul : 0 ∉ data)
      (hmessages : history ++ messagesToCome setup ansi policy lineInput data history = messages) :
      OnTrack setup ansi policy messages ⟨comm, .returned, history⟩
  | completed {comm : CommAbstract} {history : List Bytes} {lineInput : Bool} {data : Bytes}
      (h : PlainInput ansi lineInput true data comm) (hnul : 0 ∉ data)
      (hmessages : history ++ messagesToCome setup ansi policy lineInput data history = messages) :
      OnTrack setup ansi policy messages ⟨comm, .completed, history⟩

/-- What is left to do: a message costs one step each for its pass, its hook, the hook's call, its
completion and the release of the slot. -/
def RelaxedSlot.work (s : RelaxedSlot) : Nat :=
  6 * inboundBytes s.comm.inbound + (if s.comm.flags.deferredInbound then 1 else 0) +
    match s.stage with
    | .idle => 0
    | .completed => 1
    | .returned => 2
    | .running => 3
    | .queued _ => 4

theorem PlainInput.inboundBytes_eq {comm : CommAbstract}
    (h : PlainInput ansi lineInput deferred data comm) :
    inboundBytes comm.inbound = data.length := by
  obtain ⟨buf, hbuf, hdata⟩ := h.buffer
  simp [hbuf, hdata, inboundBytes]

section Schedules

variable {messages : List Bytes} (hmbrlen : MbrlenOk setup.mbrlen)
  (hrelaxed : setup.relaxed = true) (hconsole : setup.console = false)

include hmbrlen hrelaxed hconsole

/-- A pass stays on track, and changes the slot only if it brings it forward. -/
theorem RelaxedSlot.OnTrack.resume {s : RelaxedSlot} (h : s.OnTrack setup ansi policy messages) :
    ∃ s', s.resume setup = some s' ∧ s'.OnTrack setup ansi policy messages ∧
      (s' = s ∧ (s.stage = .idle → s.Quiescent) ∨ s'.work < s.work) := by
  -- a pass over a busy slot
  have hidles : ∀ {lineInput deferred : Bool} {data : Bytes},
      PlainInput ansi lineInput deferred data s.comm → deferred = false ∨ s.stage ≠ .idle →
      s.resume setup = some s := by
    intro lineInput deferred data hin hnothing
    have hpass : Returns (slotHandler setup laneSurroundings 0) (commResumeDeferredInput setup)
        ⟨s.comm, [], [], ⟨s.stage, .error⟩⟩ fun _ w' => w' = ⟨s.comm, [], [], ⟨s.stage, .error⟩⟩ :=
      resume_idles hin hnothing
    obtain ⟨_, w', heval, rfl⟩ := hpass
    rw [RelaxedSlot.resume, heval]
    rfl
  have hbusy : ∀ {lineInput deferred : Bool} {data : Bytes},
      PlainInput ansi lineInput deferred data s.comm → s.stage ≠ .idle →
      ∃ s', s.resume setup = some s' ∧ s'.OnTrack setup ansi policy messages ∧
        (s' = s ∧ (s.stage = .idle → s.Quiescent) ∨ s'.work < s.work) := by
    intro lineInput deferred data hin hstage
    exact ⟨s, hidles hin (.inr hstage), h, .inl ⟨rfl, fun hidle => absurd hidle hstage⟩⟩
  cases h with
  | queued hin => exact hbusy hin (by simp)
  | running hin => exact hbusy hin (by simp)
  | returned hin => exact hbusy hin (by simp)
  | completed hin => exact hbusy hin (by simp)
  | @idle comm history lineInput deferred data hin hnul hdone hmessages =>
    cases deferred with
    | false =>
      exact ⟨_, hidles hin (.inl rfl), .idle hin hnul hdone hmessages,
        .inl ⟨rfl, fun _ => ⟨rfl, hin.deferred⟩⟩⟩
    | true =>
      have hpass : Returns (slotHandler setup laneSurroundings 0)
          (commResumeDeferredInput setup) ⟨comm, [], [], ⟨.idle, .error⟩⟩ _ :=
        resume_relaxed hrelaxed hconsole rfl hin
      obtain ⟨_, w', heval, hpost⟩ := hpass
      refine ⟨⟨w'.comm, w'.outside.stage, history⟩, ?_, ?_⟩
      · rw [RelaxedSlot.resume, heval]
        rfl
      cases hnext : nextMessage setup ansi lineInput data with
      | none =>
        rw [hnext] at hpost
        obtain ⟨hin', hstage⟩ := hpost
        rw [hstage]
        refine ⟨.idle hin' hnul (fun _ => hnext) hmessages, .inr ?_⟩
        simp only [RelaxedSlot.work, hin.inboundBytes_eq, hin'.inboundBytes_eq, hin.deferred,
          hin'.deferred]
        simp
      | some next =>
        obtain ⟨message, rest⟩ := next
        rw [hnext] at hpost
        obtain ⟨hin', hstage⟩ := hpost
        rw [hstage]
        have hshort := length_rest_lt_of_nextMessage hmbrlen hnul hnext
        refine ⟨.queued hin' (nul_notMem_of_nextMessage hnul hnext) ?_, .inr ?_⟩
        · rw [List.append_assoc, List.singleton_append,
            ← messagesToCome_some hmbrlen hnul hnext, hmessages]
        · simp only [RelaxedSlot.work, hin.inboundBytes_eq, hin'.inboundBytes_eq,
            hin.deferred, hin'.deferred, if_true]
          omega

omit hmbrlen hrelaxed hconsole in
/-- The completion callback defers the input again, which it already was. -/
theorem RelaxedSlot.complete_plain (setup : Setup) (s : RelaxedSlot)
    (h : PlainInput ansi lineInput deferred data s.comm) :
    ∃ comm, s.complete setup = some { s with comm, stage := .completed } ∧
      PlainInput ansi lineInput true data comm := by
  have hcomplete : Returns (slotHandler setup laneSurroundings 0) (runCompletion .inbound)
      ⟨s.comm, [], [], ⟨s.stage, .error⟩⟩ fun _ w' => PlainInput ansi lineInput true data w'.comm := by
    rw [runCompletion, commDeferInput, returns_commGuard (by exact h.live)]
    dsimp only
    rw [deferInbound, returns_modifyFlags (by exact h.live), effect, returns_setHasDeferred]
    apply returns_done.mpr
    exact { h with deferred := rfl }
  obtain ⟨_, w', heval, hin⟩ := hcomplete
  refine ⟨w'.comm, ?_, hin⟩
  rw [RelaxedSlot.complete, heval]
  rfl

/-- Every step stays on track, and changes the slot only if it brings it forward. -/
theorem RelaxedSlot.OnTrack.step {s s' : RelaxedSlot} (h : s.OnTrack setup ansi policy messages)
    (hstep : s.Step setup policy s') :
    s'.OnTrack setup ansi policy messages ∧ (s' = s ∨ s'.work < s.work) := by
  cases hstep with
  | resume hs =>
    obtain ⟨s₁, hs₁, htrack, hforward⟩ := h.resume hmbrlen hrelaxed hconsole
    obtain rfl : s₁ = s' := Option.some.inj (hs₁.symm.trans hs)
    exact ⟨htrack, hforward.imp_left And.left⟩
  | invoke hstage =>
    cases h with
    | queued hin hnul hmessages =>
      cases hstage
      exact ⟨.running hin hnul hmessages, .inr (by simp [RelaxedSlot.work])⟩
    | _ => cases hstage
  | call hstage =>
    cases h with
    | @running comm history data hin hnul hmessages =>
      have hmodes : (setup.console && !setup.consoleTty) = false := by simp [hconsole]
      have hin' := ModeChoice.apply_plain hmodes (policy.choose history) hin
      rw [ModeChoice.after_line] at hin'
      refine ⟨.returned hin' hnul hmessages, .inr ?_⟩
      simp [RelaxedSlot.work, hin.inboundBytes_eq, hin'.inboundBytes_eq, hin.deferred,
        hin'.deferred]
    | _ => cases hstage
  | complete hstage hs =>
    cases h with
    | @returned comm history lineInput data hin hnul hmessages =>
      obtain ⟨comm', hs₁, hin'⟩ :=
        RelaxedSlot.complete_plain setup ⟨comm, .returned, history⟩ hin
      obtain rfl := Option.some.inj (hs₁.symm.trans hs)
      refine ⟨.completed hin' hnul hmessages, .inr ?_⟩
      simp [RelaxedSlot.work, hin.inboundBytes_eq, hin'.inboundBytes_eq, hin.deferred,
        hin'.deferred]
    | _ => cases hstage
  | finish hstage =>
    cases h with
    | completed hin hnul hmessages =>
      refine ⟨.idle hin hnul ?_ hmessages, .inr (by simp [RelaxedSlot.work])⟩
      intro hdeferred
      cases hdeferred
    | _ => cases hstage

/-- A slot on track that is not done can be brought forward. -/
theorem RelaxedSlot.OnTrack.progress {s : RelaxedSlot} (h : s.OnTrack setup ansi policy messages) :
    s.Quiescent ∨ ∃ s', s.Step setup policy s' ∧ s'.work < s.work := by
  have hmove : ∀ s', s.Step setup policy s' → s'.stage ≠ s.stage →
      ∃ s', s.Step setup policy s' ∧ s'.work < s.work := by
    intro s' hstep hstage
    rcases (h.step hmbrlen hrelaxed hconsole hstep).2 with rfl | hwork
    · exact absurd rfl hstage
    · exact ⟨s', hstep, hwork⟩
  have htrack := h
  cases h with
  | idle =>
    obtain ⟨s', hs', _, hsame | hwork⟩ := htrack.resume hmbrlen hrelaxed hconsole
    · exact .inl (hsame.2 rfl)
    · exact .inr ⟨s', .resume hs', hwork⟩
  | queued => exact .inr (hmove _ (.invoke rfl) (by simp))
  | running => exact .inr (hmove _ (.call rfl) (by simp))
  | @returned comm history lineInput data hin =>
    obtain ⟨comm', hs₁, _⟩ := RelaxedSlot.complete_plain setup ⟨comm, .returned, history⟩ hin
    exact .inr (hmove _ (.complete rfl hs₁) (by simp))
  | completed => exact .inr (hmove _ (.finish rfl) (by simp))

end Schedules

/-! ### Both modes -/

/-- In strict mode, enough passes leave nothing deferred, and the hook has got `messages`. -/
def StrictDelivers (setup : Setup) (policy : HookPolicy) (takes : List Bytes → List WriteAnswer)
    (depth : Nat) (comm : CommAbstract) (messages : List Bytes) : Prop :=
  ∃ enough, ∀ count ≥ enough, Returns (slotHandler setup (policySurroundings setup policy takes)
    depth) (resumeTimes setup count) ⟨comm, [], [], []⟩ fun _ w =>
      w.comm.flags.deferredInbound = false ∧ w.outside = messages

/-- In relaxed mode, the hook has got `messages` when the slot is quiescent, in whatever order the
steps came; and every schedule gets there: a step either changes nothing or lessens the work left,
and until the slot is quiescent there is one that does. -/
structure RelaxedDelivers (setup : Setup) (policy : HookPolicy) (comm : CommAbstract)
    (messages : List Bytes) : Prop where
  delivered : ∀ s, Relation.ReflTransGen (RelaxedSlot.Step setup policy) ⟨comm, .idle, []⟩ s →
    s.Quiescent → s.history = messages
  lessens : ∀ s s', Relation.ReflTransGen (RelaxedSlot.Step setup policy) ⟨comm, .idle, []⟩ s →
    s.Step setup policy s' → s' = s ∨ s'.work < s.work
  progress : ∀ s, Relation.ReflTransGen (RelaxedSlot.Step setup policy) ⟨comm, .idle, []⟩ s →
    s.Quiescent ∨ ∃ s', s.Step setup policy s' ∧ s'.work < s.work

theorem StrictDelivers.unique {takes : List Bytes → List WriteAnswer} {depth : Nat}
    {comm : CommAbstract} {messages messages' : List Bytes}
    (h : StrictDelivers setup policy takes depth comm messages)
    (h' : StrictDelivers setup policy takes depth comm messages') : messages = messages' := by
  obtain ⟨enough, hruns⟩ := h
  obtain ⟨enough', hruns'⟩ := h'
  obtain ⟨_, w, heval, _, hw⟩ := hruns (max enough enough') (Nat.le_max_left _ _)
  obtain ⟨_, w', heval', _, hw'⟩ := hruns' (max enough enough') (Nat.le_max_right _ _)
  obtain rfl : w = w' := (Prod.mk.inj (Option.some.inj (heval.symm.trans heval'))).2
  exact hw.symm.trans hw'

section Modes

variable {comm : CommAbstract} (hmbrlen : MbrlenOk setup.mbrlen)
  (hconsole : setup.console = false) (h : PlainInput ansi lineInput true data comm)
  (hnul : 0 ∉ data)

include hmbrlen hconsole h hnul

theorem strictDelivers_passMessages (hstrict : setup.relaxed = false)
    (hreg : setup.registered .messageInbound = true) (takes : List Bytes → List WriteAnswer)
    (depth : Nat) :
    StrictDelivers setup policy takes (depth + 1) comm
      (passMessages setup ansi policy (data.length + 1) lineInput data []) := by
  refine ⟨data.length + 1, ?_⟩
  intro count hcount
  exact resumeTimes_strict hstrict hreg hconsole (data.length + 1) count ⟨comm, [], [], []⟩
    lineInput data hmbrlen hnul (Nat.lt_succ_self _) hcount h

theorem relaxedDelivers_messagesToCome (hrelaxed : setup.relaxed = true) :
    RelaxedDelivers setup policy comm (messagesToCome setup ansi policy lineInput data []) := by
  have htrack : ∀ s, Relation.ReflTransGen (RelaxedSlot.Step setup policy) ⟨comm, .idle, []⟩ s →
      s.OnTrack setup ansi policy (messagesToCome setup ansi policy lineInput data []) := by
    intro s hreach
    induction hreach with
    | refl =>
      refine .idle h hnul ?_ (List.nil_append _)
      intro hdeferred
      cases hdeferred
    | tail _ hstep ih => exact (ih.step hmbrlen hrelaxed hconsole hstep).1
  refine ⟨?_, ?_, ?_⟩
  · intro s hreach hquiet
    have hs := htrack s hreach
    cases hs with
    | idle hin hnul' hdone hmessages =>
      have hdeferred := hin.deferred.symm.trans hquiet.2
      rw [← hmessages, messagesToCome_none (hdone hdeferred), List.append_nil]
    | _ => exact absurd hquiet.1 (by simp)
  · intro s s' hreach hstep
    exact ((htrack s hreach).step hmbrlen hrelaxed hconsole hstep).2
  · intro s hreach
    exact (htrack s hreach).progress hmbrlen hrelaxed hconsole

/-- The same bytes and the same hook in both modes. In relaxed mode every schedule delivers the
messages that are each parsed in the mode the hook before left; in strict mode the slot delivers
these messages exactly if no hook of a line switches to character input while something behind the
line could be parsed. -/
theorem modes_agree_iff_switches_settled (hreg : setup.registered .messageInbound = true)
    (policy : HookPolicy) (takes : List Bytes → List WriteAnswer) (depth : Nat) :
    RelaxedDelivers { setup with relaxed := true } policy comm
        (messagesToCome setup ansi policy lineInput data []) ∧
      (∃ messages, StrictDelivers { setup with relaxed := false } policy takes (depth + 1) comm
        messages) ∧
      (StrictDelivers { setup with relaxed := false } policy takes (depth + 1) comm
          (messagesToCome setup ansi policy lineInput data [])
        ↔ SwitchesSettled setup ansi
            (inputSteps setup ansi policy (data.length + 1) lineInput data [])) := by
  have hrelaxed : RelaxedDelivers { setup with relaxed := true } policy comm
      (messagesToCome { setup with relaxed := true } ansi policy lineInput data []) :=
    relaxedDelivers_messagesToCome (by exact hmbrlen) (by exact hconsole) h hnul rfl
  have hstrict : StrictDelivers { setup with relaxed := false } policy takes (depth + 1) comm
      (passMessages { setup with relaxed := false } ansi policy (data.length + 1) lineInput data
        []) :=
    strictDelivers_passMessages (by exact hmbrlen) (by exact hconsole) h hnul rfl (by exact hreg)
      takes depth
  have hsame : passMessages { setup with relaxed := false } ansi policy (data.length + 1) lineInput
        data [] = messagesToCome { setup with relaxed := false } ansi policy lineInput data []
      ↔ SwitchesSettled { setup with relaxed := false } ansi _ :=
    passMessages_eq_iff (by exact hmbrlen) hnul (Nat.lt_succ_self _) lineInput []
  rw [messagesToCome, inputSteps_relaxed] at hrelaxed hsame
  refine ⟨hrelaxed, ⟨_, hstrict⟩, ?_, ?_⟩
  · intro hdelivers
    exact hsame.mp (hstrict.unique hdelivers)
  · intro hsettled
    have hmessages := hsame.mpr hsettled
    rw [hmessages] at hstrict
    exact hstrict

end Modes

/-! ### Two inputs -/

/-- A plain connection with deferred bytes. -/
def typedAhead (data : Bytes) (hfits : data.length ≤ bufferSize) : CommAbstract where
  rbio := true
  wbio := true
  inbound := [⟨.data, ⟨0, data, (Nat.zero_add _).trans_le hfits⟩⟩]
  flags := { lineInput := true, deferredInbound := true }

theorem typedAhead_plain (data : Bytes) (hfits : data.length ≤ bufferSize) :
    PlainInput false true true data (typedAhead data hfits) :=
  ⟨⟨⟨rfl, rfl, rfl, rfl, by simp [typedAhead]⟩, rfl, rfl⟩, rfl, rfl, rfl, _, rfl, rfl⟩

theorem chatSetup_mbrlenOk : MbrlenOk chatSetup.mbrlen where
  complete := by
    intro data length hdata _ hlength
    obtain rfl : 1 = length := MbrLen.complete.inj hlength
    exact ⟨Nat.one_pos, List.length_pos_iff.mpr hdata, .inl rfl⟩
  incomplete := by
    intro data _ _ hincomplete
    cases hincomplete

/-- A hook that asks for one key after the line `a`. -/
def askKey : HookPolicy where
  choose messages := if messages = [[97]] then .charInput else .keep
  succeeds _ := true

/-- Nothing is behind the line `a` when its hook asks for a key. -/
theorem modes_agree_on_last_line :
    RelaxedDelivers { chatSetup with relaxed := true } askKey
        (typedAhead [97, 10] (by decide)) [[97]] ∧
      StrictDelivers { chatSetup with relaxed := false } askKey (fun _ => []) 1
        (typedAhead [97, 10] (by decide)) [[97]] := by
  have hagree := modes_agree_iff_switches_settled chatSetup_mbrlenOk rfl
    (typedAhead_plain [97, 10] (by decide)) (by decide) rfl askKey (fun _ => []) 0
  refine ⟨hagree.1, hagree.2.2.mpr ?_⟩
  intro step hstep _ _
  have hone : step = ⟨true, [97], [], false⟩ := List.mem_singleton.mp hstep
  rw [hone]
  exact ⟨rfl, rfl⟩

/-- With `bc` typed ahead, the key is `b` in relaxed mode and the next line is `c`; in strict mode
the next message is the line `bc`. -/
theorem line_typed_ahead_is_split :
    RelaxedDelivers { chatSetup with relaxed := true } askKey
        (typedAhead [97, 10, 98, 99, 10] (by decide)) [[97], [98], [99]] ∧
      StrictDelivers { chatSetup with relaxed := false } askKey (fun _ => []) 1
        (typedAhead [97, 10, 98, 99, 10] (by decide)) [[97], [98, 99]] := by
  have hin := typedAhead_plain [97, 10, 98, 99, 10] (by decide)
  have hmbrlen : MbrlenOk { chatSetup with relaxed := true }.mbrlen := chatSetup_mbrlenOk
  constructor
  · exact relaxedDelivers_messagesToCome hmbrlen rfl hin (by decide) rfl
  · exact strictDelivers_passMessages chatSetup_mbrlenOk rfl hin (by decide) rfl rfl _ 0

end Mudmux.Comm
