import Mudmux.Proofs.InputTokens
import Mudmux.Proofs.LineChunks

/-!
# `Mudmux.Proofs.PlainInput`: a parser pass over a plain slot

A plain slot is neither Telnet nor WebSocket, and waits for no hook. `PlainInput` is what the
parsers and the calls that set the input mode see of it. The lemmas run
`comm_resume_deferred_input` on such a slot up to the dispatch of a message, whatever the dispatch
does: `lineLoop_plain` and `charInput_plain` take its specification as a hypothesis, so they hold in
strict and in relaxed mode.
-/

set_option autoImplicit false

namespace Mudmux.Comm

open Mudmux.Lib
open Mudmux.Lib.Program (Returns returns_done returns_bind effect)

/-! ### Plain slots -/

/-- A slot that is neither Telnet nor WebSocket and waits for no hook. -/
structure PlainSlot (comm : CommAbstract) : Prop extends TextSlot comm where
  noTelnet : comm.flags.enableTelnet = false
  notAwaiting : comm.flags.awaitingHook = false

/-- What the parsers see of a plain slot: the flags they read and the unread bytes. -/
structure PlainInput (ansi lineInput deferred : Bool) (data : Bytes) (comm : CommAbstract) :
    Prop extends PlainSlot comm where
  ansi : comm.flags.enableAnsi = ansi
  lineInput : comm.flags.lineInput = lineInput
  deferred : comm.flags.deferredInbound = deferred
  buffer : ∃ buf, comm.inbound = [⟨.data, buf⟩] ∧ buf.data = data

variable {ansi lineInput deferred : Bool} {data : Bytes} {comm : CommAbstract}

theorem PlainInput.with_inbound (h : PlainInput ansi lineInput deferred data comm) (buf : Cells) :
    PlainInput ansi lineInput deferred buf.data { comm with inbound := [⟨.data, buf⟩] } :=
  { h with buffer := ⟨buf, rfl, rfl⟩ }

/-- The input mode behind a hook that was entered in `lineInput`. -/
def ModeChoice.after : ModeChoice → Bool → Bool
  | .keep, lineInput => lineInput
  | .lineInput _, _ => true
  | .charInput, _ => false

theorem ModeChoice.after_line (choice : ModeChoice) : choice.after true = choice.lineAfter := by
  cases choice <;> rfl

section Modes

variable {ρ : Type} {setup : Setup} {env : Surroundings ρ} {depth : Nat} {w : World ρ}
  (hmodes : (setup.console && !setup.consoleTty) = false)

include hmodes

section

variable (h : PlainInput ansi lineInput deferred data w.comm)

include h

theorem commSetEcho_plain (echo : Bool) :
    Returns (slotHandler setup env depth) (commSetEcho setup echo) w fun ok w' =>
      ok = true ∧ PlainInput ansi lineInput deferred data w'.comm ∧
        w' = { w with comm := w'.comm } := by
  rw [commSetEcho, returns_commGuard h.live]
  simp only [hmodes, h.noTelnet, Bool.false_and, Bool.and_false, Bool.false_eq_true, if_false]
  rw [returns_modifyFlags h.live]
  refine returns_done.mpr ⟨rfl, ?_, rfl⟩
  exact { h with }

/-- `comm_set_line_input` on a plain slot. -/
theorem commSetLineInput_plain (echo : Bool) :
    Returns (slotHandler setup env depth) (commSetLineInput setup echo) w fun ok w' =>
      ok = true ∧ PlainInput ansi true deferred data w'.comm ∧ w' = { w with comm := w'.comm } := by
  rw [commSetLineInput, returns_commGuard h.live]
  dsimp only
  cases hline : w.comm.flags.lineInput with
  | true =>
    obtain rfl : true = lineInput := hline.symm.trans h.lineInput
    rw [if_pos rfl]
    exact commSetEcho_plain hmodes h echo
  | false =>
    simp only [hmodes, h.noTelnet, Bool.and_false, Bool.false_eq_true, if_false]
    rw [returns_modifyFlags h.live]
    apply commSetEcho_plain hmodes
    exact { h with lineInput := rfl }

/-- `comm_set_char_input` on a plain slot. -/
theorem commSetCharInput_plain :
    Returns (slotHandler setup env depth) (commSetCharInput setup) w fun ok w' =>
      ok = true ∧ PlainInput ansi false deferred data w'.comm ∧ w' = { w with comm := w'.comm } := by
  rw [commSetCharInput, returns_commGuard h.live]
  dsimp only
  cases hline : w.comm.flags.lineInput with
  | false =>
    obtain rfl : false = lineInput := hline.symm.trans h.lineInput
    rw [Bool.not_false, if_pos rfl]
    exact commSetEcho_plain hmodes h false
  | true =>
    simp only [hmodes, h.noTelnet, Bool.and_false, Bool.not_true, Bool.false_eq_true, if_false]
    rw [returns_modifyFlags h.live]
    apply commSetEcho_plain hmodes
    exact { h with lineInput := rfl }

end

/-- The hook's call sets the mode and nothing else that the parsers see. -/
theorem ModeChoice.apply_plain (choice : ModeChoice)
    (h : PlainInput ansi lineInput deferred data comm) :
    PlainInput ansi (choice.after lineInput) deferred data (choice.apply setup comm) := by
  obtain ⟨w, hw⟩ : ∃ w : World Unit, w = ⟨comm, [], [], ()⟩ := ⟨_, rfl⟩
  have hcall : Returns (slotHandler setup stillSurroundings 0) (choice.call setup) w
      fun _ w' => PlainInput ansi (choice.after lineInput) deferred data w'.comm := by
    have hin : PlainInput ansi lineInput deferred data w.comm := by
      rw [hw]
      exact h
    cases choice with
    | keep => exact returns_done.mpr hin
    | lineInput echo =>
      apply (commSetLineInput_plain hmodes hin echo).bind
      rintro _ w' ⟨_, hin', _⟩
      exact returns_done.mpr hin'
    | charInput =>
      apply (commSetCharInput_plain hmodes hin).bind
      rintro _ w' ⟨_, hin', _⟩
      exact returns_done.mpr hin'
  obtain ⟨_, w', heval, hin'⟩ := hcall
  rw [ModeChoice.apply, ← hw, heval]
  exact hin'

end Modes

/-! ### A pass -/

section Pass

variable {ρ : Type} {setup : Setup} {env : Surroundings ρ} {depth : Nat} {w : World ρ}

/-- Asking whether the slot is busy changes nothing. -/
def Surroundings.AsksQuietly (env : Surroundings ρ) : Prop :=
  ∀ comm outside, (env.foreign .slotBusy comm outside).2 = outside

theorem returns_slotBusy {α : Type} {k : Bool → Code α} {Q : α → World ρ → Prop}
    (hasks : env.AsksQuietly) :
    Returns (slotHandler setup env depth) (.perform .slotBusy k) w Q
      ↔ Returns (slotHandler setup env depth) (k (env.slotBusy w.outside)) w Q := by
  rw [returns_asksBusy, hasks]

/-- `_comm_process_input` on a plain slot that is not busy: the flag is taken back, and the parser of
the input mode runs. -/
theorem commProcessInput_plain (hasks : env.AsksQuietly) (hidle : env.slotBusy w.outside = false)
    (h : PlainInput ansi lineInput deferred data w.comm) {Q : ProcessResult → World ρ → Prop}
    (hpass : ∀ comm, PlainInput ansi lineInput false data comm →
      Returns (slotHandler setup env depth) (processText setup none) { w with comm } Q) :
    Returns (slotHandler setup env depth) (commProcessInput setup none) w Q := by
  obtain ⟨buf, hbuf, hdata⟩ := h.buffer
  have hskip : skipNonDataHeadBuffers w.comm.inbound = w.comm.inbound := by
    rw [hbuf]
    rfl
  apply commProcessInput_asks h.toTextSlot h.notAwaiting
  dsimp only
  rw [hasks, hidle, if_neg Bool.false_ne_true]
  apply hpass
  exact { h with deferred := rfl, buffer := ⟨buf, hskip.trans hbuf, hdata⟩ }

/-- The line and character branches on a plain slot that stays open. -/
theorem processText_plain (h : PlainInput ansi lineInput false data w.comm) {Q : World ρ → Prop}
    (hline : lineInput = true → ∀ fuel, data.length < fuel →
      Returns (slotHandler setup env depth) (lineLoop setup fuel none) w
        fun _ w' => w'.comm.live = true ∧ Q w') (hchar : lineInput = false →
      Returns (slotHandler setup env depth) (charInput setup none) w
        fun failed w' => failed = false ∧ w'.comm.live = true ∧ Q w') :
    Returns (slotHandler setup env depth) (processText setup none) w
      fun result w' => (result = .ok ∨ result = .deferred) ∧ Q w' := by
  cases lineInput with
  | true =>
    obtain ⟨buf, hbuf, rfl⟩ := h.buffer
    exact processText_line h.live h.lineInput hbuf (hline rfl)
  | false =>
    rw [processText, returns_commDeref h.live, h.lineInput, if_neg Bool.false_ne_true]
    apply (hchar rfl).bind
    rintro failed w' ⟨rfl, hlive, hQ⟩
    exact processText_end hlive hQ

/-- `comm_resume_deferred_input` on a plain slot with deferred input that is not busy. -/
theorem commResumeDeferredInput_plain (hasks : env.AsksQuietly)
    (hidle : env.slotBusy w.outside = false) (h : PlainInput ansi lineInput true data w.comm)
    {Q : World ρ → Prop}
    (hline : lineInput = true → ∀ comm fuel, PlainInput ansi true false data comm →
      data.length < fuel →
      Returns (slotHandler setup env depth) (lineLoop setup fuel none) { w with comm }
        fun _ w' => w'.comm.live = true ∧ Q w')
    (hchar : lineInput = false → ∀ comm, PlainInput ansi false false data comm →
      Returns (slotHandler setup env depth) (charInput setup none) { w with comm }
        fun failed w' => failed = false ∧ w'.comm.live = true ∧ Q w') :
    Returns (slotHandler setup env depth) (commResumeDeferredInput setup) w fun _ w' => Q w' := by
  rw [commResumeDeferredInput, returns_commGuard h.live]
  simp only [h.deferred, Bool.not_true, Bool.false_eq_true, if_false, Program.effect_bind]
  rw [returns_slotBusy hasks, hidle, if_neg Bool.false_ne_true, returns_modifyFlags h.live]
  have htaken : PlainInput ansi lineInput false data
      (w.comm.mapFlags fun flags => { flags with deferredInbound := false }) :=
    { h with deferred := rfl }
  have hprocess : Returns (slotHandler setup env depth) (commProcessInput setup none)
      { w with comm := w.comm.mapFlags fun flags => { flags with deferredInbound := false } }
      fun result w' => (result = .ok ∨ result = .deferred) ∧ Q w' := by
    apply commProcessInput_plain hasks (by exact hidle) (by exact htaken)
    intro comm hin
    apply processText_plain (by exact hin)
    · rintro rfl fuel hfuel
      exact hline rfl comm fuel hin hfuel
    · rintro rfl
      exact hchar rfl comm hin
  apply hprocess.bind
  rintro result w' ⟨hresult, hQ⟩
  rcases hresult with rfl | rfl
  · exact returns_done.mpr hQ
  · exact returns_done.mpr hQ

/-- Without Telnet no newline is echoed. -/
theorem echoedNewline_of_plain {comm : CommAbstract} (h : comm.flags.enableTelnet = false) :
    echoedNewline comm = comm := by
  rw [echoedNewline, h, Bool.false_and, if_neg Bool.false_ne_true]

/-- The line loop on a plain slot: a line is dispatched, and unless the slot is busy then the loop
goes on behind its terminator. The hook finds the bytes of the line overwritten, `dirty`. -/
theorem lineLoop_plain (fuel : Nat) (hasks : env.AsksQuietly)
    (h : PlainInput ansi lineInput deferred data w.comm) {Q : Unit → World ρ → Prop}
    (hwaits : nextLine data = none → Q () w)
    (hdispatch : ∀ line rest dirty comm, nextLine data = some (line, rest) →
      PlainInput ansi lineInput deferred dirty comm →
      Returns (slotHandler setup env depth) (commInvokeInboundMessage setup line) { w with comm }
        fun result w₁ => result ≠ .queueFull ∧ ∃ lineInput' deferred',
          PlainInput ansi lineInput' deferred' dirty w₁.comm ∧
          ∀ comm', PlainInput ansi lineInput' deferred' rest comm' →
            if env.slotBusy w₁.outside then Q () { w₁ with comm := comm' }
            else Returns (slotHandler setup env depth) (lineLoop setup fuel none)
              { w₁ with comm := comm' } Q) :
    Returns (slotHandler setup env depth) (lineLoop setup (fuel + 1) none) w Q := by
  obtain ⟨buf, hbuf, rfl⟩ := h.buffer
  rcases findNewlineAndStrip_cases buf with ⟨hnone, htext⟩ | ⟨found, hfound, hnext, -⟩
  · exact lineLoop_waits fuel h.live hbuf htext (hwaits hnone)
  apply lineLoop_found fuel (by simp) h.live hbuf hfound
  rw [echoedNewline_of_plain (by exact h.noTelnet)]
  apply (hdispatch _ _ _ _ hnext (h.with_inbound found.buf)).mono
  rintro result w₁ ⟨hresult, lineInput', deferred', hin, hgoes⟩
  obtain ⟨_, hchain, _⟩ := hin.buffer
  rw [if_neg hresult]
  refine ⟨hin.live, by rw [hchain, List.tail_cons], ?_⟩
  dsimp only
  rw [hasks]
  split
  · next hbusy =>
      have hends := hgoes _ (hin.with_inbound (found.buf.consume found.next))
      rwa [if_pos hbusy] at hends
  · next hidle =>
      intro buf' hbuf'
      have hgoes' := hgoes _ (hbuf' ▸ hin.with_inbound buf')
      rwa [if_neg hidle] at hgoes'

/-- The character branch on a plain slot: back in line input, the slot gets one message. -/
theorem charInput_plain (hmodes : (setup.console && !setup.consoleTty) = false)
    (h : PlainInput ansi false deferred data w.comm) {Q : Bool → World ρ → Prop}
    (hwaits : nextChar setup ansi data = none → Q false w)
    (hdispatch : ∀ message rest comm, nextChar setup ansi data = some (message, rest) →
      PlainInput ansi true deferred data comm →
      Returns (slotHandler setup env depth) (invokeCharInputMessage setup message) { w with comm }
        fun result w₁ => result ≠ .queueFull ∧ ∃ lineInput' deferred',
          PlainInput ansi lineInput' deferred' data w₁.comm ∧
          ∀ comm', PlainInput ansi lineInput' deferred' rest comm' →
            Q false { w₁ with comm := comm' }) :
    Returns (slotHandler setup env depth) (charInput setup none) w Q := by
  obtain ⟨buf, hbuf, rfl⟩ := h.buffer
  rw [charInput, if_neg (by simp), returns_commDeref h.live]
  simp only [hbuf, h.ansi]
  cases hfind : findCharInputSequence setup ansi buf.data with
  | none =>
    apply returns_done.mpr
    apply hwaits
    rw [nextChar, hfind]
    rfl
  | some charLen =>
    have hnext : nextChar setup ansi buf.data
        = some (buf.data.take charLen, (buf.consume charLen).data) := by
      rw [nextChar, hfind]
      rfl
    apply (commSetLineInput_plain hmodes h true).bind
    rintro _ w₁ ⟨rfl, hin₁, hw₁⟩
    rw [Bool.not_true, if_neg Bool.false_ne_true, returns_commDeref hin₁.live]
    simp only [hin₁.noTelnet, Bool.false_and, Bool.false_eq_true, if_false]
    have hdispatch₁ := hdispatch _ _ _ hnext hin₁
    rw [← hw₁] at hdispatch₁
    apply hdispatch₁.bind
    rintro result w₂ ⟨hresult, lineInput', deferred', hin₂, hgoes⟩
    obtain ⟨_, hchain, _⟩ := hin₂.buffer
    rw [if_neg hresult, returns_commGuard hin₂.live]
    simp only [returns_setComm, hchain, List.tail_cons]
    exact returns_done.mpr (hgoes _ (hin₂.with_inbound (buf.consume charLen)))

end Pass

end Mudmux.Comm
