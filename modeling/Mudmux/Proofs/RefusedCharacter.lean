import Mudmux.Proofs.RefusedLines

/-!
# `Mudmux.Proofs.RefusedCharacter`: a character whose dispatch is refused

Character input is one-shot: `_comm_process_input` puts the slot back in line input before it dispatches
the message, with `comm_set_line_input`, which also sets the echo and tells a Telnet client about both.
When the scheduler then refuses the message with `MUDMUX_DISPATCH_QUEUE_FULL` nothing of this is taken
back. So a pass over a slot in character input leaves the mode as it was only if no dispatch is refused
(`refused_character_kept_iff`), and the next pass reads the same bytes as lines
(`refused_character_becomes_line_input`).
-/

set_option autoImplicit false

namespace Mudmux.Comm

open Mudmux.Lib
open Mudmux.Lib.Program (Returns returns_done)

/-! ### Setting line input -/

section LineInput

variable {ρ : Type} {setup : Setup} {env : Surroundings ρ} {depth : Nat} {sameMode : Prop}
  {w : World ρ} (hslot : TextSlot w.comm)

include hslot

theorem commTelnetSend_quiet (command option : Byte) :
    ReturnsQuietly setup env depth sameMode (commTelnetSend command option) w := by
  rw [ReturnsQuietly, commTelnetSend, returns_commGuard hslot.live]
  dsimp only
  split
  · exact ReturnsQuietly.pure hslot ()
  · exact write_quiet hslot false _

theorem negotiateTelnetLineInput_quiet (comm : CommAbstract) :
    ReturnsQuietly setup env depth sameMode (negotiateTelnetLineInput comm true) w := by
  rw [negotiateTelnetLineInput, if_pos rfl]
  split
  · exact commTelnetSendSubnegotiation_quiet hslot _ _
  · exact ReturnsQuietly.pure hslot ()

/-- `comm_set_echo` sets the echo, unless the slot is a console without a terminal, and leaves the input
alone. -/
theorem commSetEcho_text (echo : Bool) :
    Returns (slotHandler setup env depth) (commSetEcho setup echo) w fun ok w' =>
      ok = !(setup.console && !setup.consoleTty) ∧ w' = { w with comm := w'.comm } ∧
        InputKept True w.comm w'.comm ∧ (ok = true → w'.comm.flags.clientEcho = echo) := by
  have hset : ¬ (setup.console && !setup.consoleTty) = true → ∀ comm, InputKept True w.comm comm →
      Returns (slotHandler setup env depth)
        (do
          modifyFlags fun flags => { flags with clientEcho := echo }
          pure true) { w with comm }
        fun ok w' => ok = !(setup.console && !setup.consoleTty) ∧ w' = { w with comm := w'.comm } ∧
          InputKept True w.comm w'.comm ∧ (ok = true → w'.comm.flags.clientEcho = echo) := by
    intro hterminal comm hkept
    have ht := hkept.textSlot
    rw [returns_modifyFlags ht.live, eq_false_of_ne_true hterminal]
    refine returns_done.mpr ⟨rfl, rfl, hkept.trans ?_, fun _ => rfl⟩
    exact ⟨{ ht with }, rfl, rfl, rfl, rfl,
      rfl, fun _ => rfl⟩
  have hsend : ∀ command option, ReturnsQuietly setup env depth True
      (commTelnetSend command option) w := commTelnetSend_quiet hslot
  rw [commSetEcho, returns_commGuard hslot.live]
  dsimp only
  split
  · next hpipe =>
      rw [hpipe]
      exact returns_done.mpr ⟨rfl, rfl, InputKept.refl hslot, nofun⟩
  · next hterminal =>
      split
      · split
        · apply Returns.bind (hsend telnetWONT TELOPT_ECHO)
          rintro _ w' ⟨hkept, hw'⟩
          rw [hw']
          exact hset hterminal w'.comm hkept
        · exact returns_optional_quiet hslot (hsend telnetWILL TELOPT_ECHO) (hset hterminal)
      · exact hset hterminal w.comm (InputKept.refl hslot)

/-- `comm_set_line_input` on a slot in character input: if it succeeds, the slot is in line input. -/
theorem commSetLineInput_text (hchar : w.comm.flags.lineInput = false) (echo : Bool) :
    Returns (slotHandler setup env depth) (commSetLineInput setup echo) w fun ok w' =>
      ok = !(setup.console && !setup.consoleTty) ∧ w' = { w with comm := w'.comm } ∧
        InputKept False w.comm w'.comm ∧
        (ok = true → w'.comm.flags.lineInput = true ∧ w'.comm.flags.clientEcho = echo) := by
  have hset : ∀ comm, InputKept False w.comm comm →
      Returns (slotHandler setup env depth)
        (do
          modifyFlags fun flags => { flags with lineInput := true }
          commSetEcho setup echo) { w with comm }
        fun ok w' => ok = !(setup.console && !setup.consoleTty) ∧ w' = { w with comm := w'.comm } ∧
          InputKept False w.comm w'.comm ∧
          (ok = true → w'.comm.flags.lineInput = true ∧ w'.comm.flags.clientEcho = echo) := by
    intro comm hkept
    have ht := hkept.textSlot
    have hline : InputKept False w.comm
        (comm.mapFlags fun flags => { flags with lineInput := true }) :=
      hkept.trans ⟨{ ht with }, rfl, rfl,
        rfl, rfl, rfl, nofun⟩
    rw [returns_modifyFlags ht.live]
    apply (commSetEcho_text (by exact hline.textSlot) echo).mono
    rintro ok w' ⟨hterminal, hw', hecho, hok⟩
    refine ⟨hterminal, hw', hline.trans { hecho with lineInput := nofun }, fun h => ⟨hecho.lineInput trivial, hok h⟩⟩
  rw [commSetLineInput, returns_commGuard hslot.live]
  dsimp only
  rw [hchar, if_neg Bool.false_ne_true]
  split
  · next hpipe =>
      rw [hpipe]
      exact returns_done.mpr ⟨rfl, rfl, InputKept.refl hslot, nofun⟩
  · exact returns_optional_quiet hslot (negotiateTelnetLineInput_quiet hslot _) hset

end LineInput

/-! ### A pass -/

/-- A dispatch of the run is answered `MUDMUX_DISPATCH_QUEUE_FULL`. -/
def DispatchLog.Refuses (log : DispatchLog) : Prop :=
  ∃ d ∈ log, d.2 = .queueFull

instance (log : DispatchLog) : Decidable log.Refuses :=
  inferInstanceAs (Decidable (∃ d ∈ log, d.2 = .queueFull))

/-- The input mode, the echo, the queued output and the buffered bytes are as before. -/
structure CharacterKept (comm comm' : CommAbstract) : Prop where
  lineInput : comm'.flags.lineInput = comm.flags.lineInput
  clientEcho : comm'.flags.clientEcho = comm.flags.clientEcho
  outbound : comm'.outbound = comm.outbound
  bytes : comm'.inbound.flatMap (fun ibb => ibb.buf.data) =
    comm.inbound.flatMap fun ibb => ibb.buf.data

/-- What a pass over a slot in character input does, seen from its dispatches: none, or one, for the first
character sequence. Behind a refusal the slot is in line input, with echo, and its bytes are unread. -/
structure World.CharPass {ρ : Type} (setup : Setup) (w w' : World (ρ × DispatchLog))
    (log : DispatchLog) : Prop where
  dispatches : w'.outside.2 = w.outside.2 ++ log
  single : log = [] ∨ ∃ message result, log = [(.messageInbound message, result)] ∧
    ∃ ibb rest charLen, w.comm.inbound = ibb :: rest ∧
      findCharInputSequence setup w.comm.flags.enableAnsi ibb.buf.data = some charLen ∧
      message = ibb.buf.data.take charLen
  refused : log.Refuses →
    w'.comm.flags.lineInput = true ∧ w'.comm.flags.clientEcho = true ∧
      w'.comm.inbound = w.comm.inbound

section Pass

variable {ρ : Type} {setup : Setup} {env : Surroundings ρ} {depth : Nat}
  {w : World (ρ × DispatchLog)}

/-- A pass that dispatches nothing. -/
theorem World.CharPass.of_quiet {w' : World (ρ × DispatchLog)} (h : w'.outside = w.outside) :
    w.CharPass setup w' [] :=
  ⟨by rw [h, List.append_nil], .inl rfl, nofun⟩

variable (hrelaxed : setup.relaxed = true) (hpool : env.PoolRunning)

include hrelaxed hpool

/-- The dispatch of a message behind `comm_set_line_input`. -/
theorem commInvokeInboundMessage_char (hslot : LineSlot w.comm) (data : Bytes) :
    Returns (slotHandler setup env.logging depth) (commInvokeInboundMessage setup data) w
      fun result w' => LineSlot w'.comm ∧ w'.comm.flags.clientEcho = w.comm.flags.clientEcho ∧
        w'.comm.inbound = w.comm.inbound ∧
        w'.outside.2 = w.outside.2 ++ [(.messageInbound data, result)] := by
  rw [returns_invokeRelaxed hslot.live hrelaxed]
  apply returns_enqueue hpool
  intro result outside _
  refine returns_done.mpr ⟨?_, rfl, rfl, rfl⟩
  exact { hslot with }

/-- `_invoke_char_input_message` in relaxed mode comes down to the same. -/
theorem invokeCharInputMessage_char (hslot : LineSlot w.comm) (data : Bytes) :
    Returns (slotHandler setup env.logging depth) (invokeCharInputMessage setup data) w
      fun result w' => LineSlot w'.comm ∧ w'.comm.flags.clientEcho = w.comm.flags.clientEcho ∧
        w'.comm.inbound = w.comm.inbound ∧
        w'.outside.2 = w.outside.2 ++ [(.messageInbound data, result)] := by
  have hslot' : LineSlot
      (w.comm.mapFlags fun flags => { flags with invokedPrompt := false }) :=
    { hslot with }
  rw [invokeCharInputMessage, returns_commGuard hslot.live]
  dsimp only
  rw [returns_modifyFlags hslot.live]
  apply (commInvokeInboundMessage_char hrelaxed hpool (by exact hslot') data).bind
  intro result w₁ h₁
  rw [hrelaxed, Bool.not_true, if_neg Bool.false_ne_true]
  exact returns_done.mpr h₁

/-- The character branch of `_comm_process_input`. -/
theorem charInput_pass (hslot : TextSlot w.comm) (hnotAwaiting : w.comm.flags.awaitingHook = false)
    (hchar : w.comm.flags.lineInput = false) (budget : Option Nat) :
    Returns (slotHandler setup env.logging depth) (charInput setup budget) w
      fun _ w' => w'.comm.live = true ∧ ∃ log, w.CharPass setup w' log := by
  rw [charInput]
  split
  · exact returns_done.mpr ⟨hslot.live, [], .of_quiet rfl⟩
  rw [returns_commDeref hslot.live]
  cases hinbound : w.comm.inbound with
  | nil => exact returns_done.mpr ⟨hslot.live, [], .of_quiet rfl⟩
  | cons ibb rest =>
    dsimp only
    cases hfind : findCharInputSequence setup w.comm.flags.enableAnsi ibb.buf.data with
    | none => exact returns_done.mpr ⟨hslot.live, [], .of_quiet rfl⟩
    | some charLen =>
      apply (commSetLineInput_text hslot hchar true).bind
      rintro ok w₁ ⟨-, hw₁, hkept, hok⟩
      have houtside : w₁.outside = w.outside := by rw [hw₁]
      cases ok with
      | false => exact returns_done.mpr ⟨hkept.textSlot.live, [], .of_quiet houtside⟩
      | true =>
        obtain ⟨hline, hecho⟩ := hok rfl
        have hslot₁ : LineSlot w₁.comm :=
          ⟨hkept.textSlot, hline, hkept.awaitingHook.trans hnotAwaiting⟩
        rw [Bool.not_true, if_neg Bool.false_ne_true, returns_commDeref hslot₁.live]
        refine Returns.ite_bind
          (fun _ => commInvokeInboundMessage_char hrelaxed hpool hslot₁ _)
          (fun _ => invokeCharInputMessage_char hrelaxed hpool hslot₁ _) ?_
        rintro result w₂ ⟨hslot₂, hecho₂, hinbound₂, hlog⟩
        -- one dispatch, for the first character sequence
        have hpass : ∀ w₃ : World (ρ × DispatchLog), w₃.outside.2 = w₂.outside.2 →
            (result = .queueFull → w₃.comm.flags.lineInput = true ∧
              w₃.comm.flags.clientEcho = true ∧ w₃.comm.inbound = w.comm.inbound) →
            w.CharPass setup w₃ [(.messageInbound (ibb.buf.data.take charLen), result)] := by
          intro w₃ hlog₃ hrefused
          refine ⟨by rw [hlog₃, hlog, houtside],
            .inr ⟨_, _, rfl, ibb, rest, charLen, hinbound, hfind, rfl⟩, ?_⟩
          rintro ⟨d, hd, hfull⟩
          rw [List.mem_singleton.mp hd] at hfull
          exact hrefused hfull
        split
        · next hfull =>
            rw [returns_deferInbound hslot₂.live]
            refine returns_done.mpr ⟨hslot₂.live, _, hpass _ rfl fun _ => ?_⟩
            exact ⟨hslot₂.lineInput, hecho₂.trans hecho, hinbound₂.trans hkept.inbound⟩
        · next haccepted =>
            rw [returns_commGuard hslot₂.live, returns_setComm]
            exact returns_done.mpr ⟨hslot₂.live, _, hpass _ rfl fun hfull =>
              absurd hfull haccepted⟩

/-- The end of `_comm_process_input` behind the character branch. -/
theorem processText_character (hslot : TextSlot w.comm)
    (hnotAwaiting : w.comm.flags.awaitingHook = false) (hchar : w.comm.flags.lineInput = false)
    (budget : Option Nat) :
    Returns (slotHandler setup env.logging depth) (processText setup budget) w
      fun _ w' => ∃ log, w.CharPass setup w' log := by
  rw [processText, returns_commDeref hslot.live, hchar, if_neg Bool.false_ne_true]
  apply (charInput_pass hrelaxed hpool hslot hnotAwaiting hchar budget).bind
  rintro failed w' ⟨hlive, hpass⟩
  cases failed with
  | true => exact returns_done.mpr hpass
  | false =>
    dsimp only
    rw [if_neg Bool.false_ne_true, returns_commGuard hlive]
    exact returns_done.mpr hpass

/-- A pass of `comm_process_input` in relaxed mode over a slot in character input, whatever the scheduler
answers and whatever is buffered. That a refused character leaves the slot as it was holds exactly if no
character is refused: behind a refusal the slot is in line input with echo, its bytes unread. -/
theorem refused_character_kept_iff (hslot : TextSlot w.comm)
    (hnotAwaiting : w.comm.flags.awaitingHook = false) (hchar : w.comm.flags.lineInput = false)
    (budget : Option Nat) :
    Returns (slotHandler setup env.logging depth) (commProcessInput setup budget) w
      fun _ w' => ∃ log, w'.outside.2 = w.outside.2 ++ log ∧
        ((log.Refuses → CharacterKept w.comm w'.comm) ↔ ¬ log.Refuses) ∧
        (log.Refuses → w'.comm.flags.lineInput = true ∧ w'.comm.flags.clientEcho = true ∧
          w'.comm.inbound = skipNonDataHeadBuffers w.comm.inbound) := by
  apply commProcessInput_asks hslot hnotAwaiting
  dsimp only
  split
  · exact ⟨[], rfl, ⟨fun _ => nofun, fun _ => nofun⟩, nofun⟩
  · have hslot' : TextSlot
        { w.comm with
            flags := { w.comm.flags with deferredInbound := false }
            inbound := skipNonDataHeadBuffers w.comm.inbound } :=
      { hslot with }
    refine Returns.mono (processText_character hrelaxed hpool (by exact hslot')
      (by exact hnotAwaiting) (by exact hchar) budget) ?_
    rintro _ w' ⟨log, hpass⟩
    have hlog : w'.outside.2 = (w.outside.2 ++ []) ++ log := hpass.dispatches
    rw [List.append_nil] at hlog
    refine ⟨log, hlog, ⟨fun hkept hrefused => ?_, fun hnone hrefused => absurd hrefused hnone⟩,
      hpass.refused⟩
    -- `comm_set_line_input(slot, true)` stands before the dispatch and is not taken back
    have hline := (hpass.refused hrefused).1
    rw [(hkept hrefused).lineInput, hchar] at hline
    cases hline

end Pass

/-! ### Two runs -/

/-- A connection in character input with these bytes in its buffer. -/
def characterWorld (buf : Cells) (refusals : List Bool) :
    World ((List Bool × Bool) × DispatchLog) :=
  let w := bufferedWorld false buf refusals
  { w with comm := w.comm.mapFlags fun flags =>
      { flags with lineInput := false, clientEcho := false } }

/-- `ab`. -/
def abBuffer : Cells :=
  LinearBuffer.empty.append [97, 98] (by decide)

theorem characterWorld_textSlot (buf : Cells) (refusals : List Bool) :
    TextSlot (characterWorld buf refusals).comm :=
  ⟨rfl, rfl, rfl, rfl, nofun⟩

/-- The scheduler accepts `a`. -/
theorem refused_character_kept_accepted :
    ∃ result w', (commProcessInput relaxedSetup none).eval
        (slotHandler relaxedSetup refusingScheduler.logging 0) (characterWorld abBuffer []) =
          some (result, w') ∧
      w'.outside.2 = [(.messageInbound [97], .queued)] ∧
      (w'.outside.2.Refuses → CharacterKept (characterWorld abBuffer []).comm w'.comm) := by
  have hpass : Returns (slotHandler relaxedSetup refusingScheduler.logging 0)
      (commProcessInput relaxedSetup none) (characterWorld abBuffer []) _ :=
    refused_character_kept_iff rfl refusingScheduler_poolRunning
      (characterWorld_textSlot abBuffer []) rfl rfl none
  obtain ⟨result, w', heval, log, hlog, hiff, -⟩ := hpass
  have hdispatched : ((commProcessInput relaxedSetup none).eval
      (slotHandler relaxedSetup refusingScheduler.logging 0) (characterWorld abBuffer [])).all
        (fun r => decide (r.2.outside.2 = [(.messageInbound [97], .queued)])) = true := by
    decide +kernel
  rw [heval, Option.all_some, decide_eq_true_eq] at hdispatched
  have hlog' : w'.outside.2 = log := hlog
  refine ⟨result, w', heval, hdispatched, ?_⟩
  rw [hlog'] at hdispatched ⊢
  refine hiff.mpr ?_
  rw [hdispatched]
  decide

/-- `ab` in character input, and the first character is refused once: the first pass leaves the slot in line
input with echo, and the second delivers nothing, for there is no line in the buffer. -/
theorem refused_character_becomes_line_input :
    ((passTimes relaxedSetup refusingScheduler 1 (characterWorld abBuffer [true])).any fun w' =>
        decide (w'.outside.2 = [(.messageInbound [97], .queueFull)]) &&
          w'.comm.flags.lineInput && w'.comm.flags.clientEcho) = true ∧
      ((passTimes relaxedSetup refusingScheduler 2 (characterWorld abBuffer [true])).any fun w' =>
        decide (w'.outside.2 = [(.messageInbound [97], .queueFull)]) &&
          w'.comm.flags.lineInput &&
          decide (w'.comm.inbound.map (fun ibb => ibb.buf.data) = [[97, 98]])) = true := by
  constructor <;> decide +kernel

end Mudmux.Comm
