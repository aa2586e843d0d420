import Mudmux.Proofs.FrameRoundTrip
import Mudmux.Proofs.PlainInput

/-!
# `Mudmux.Proofs.FrameText`: a WebSocket message on its way through the inbound buffer

A message that the decoder has accepted goes to `decoded_input`, and from there through the inbound
buffer of the slot to the line parser. The decoder takes messages of up to 65536 bytes, the buffer holds
4096: a longer message is refused there, after it was accepted, and `comm_process_input` reports an error
(`websocket_lines_delivered_iff`).

`FrameInput` is what the parser sees of an upgraded slot. Hooks run while the message is parsed, and behind
each of them the slot is flushed. On an upgraded slot with an empty queue a flush also tries to announce
the transport, once, with a hook of its own. `KeepsFrames.calm` is the invariant that all this keeps.
-/

set_option autoImplicit false

namespace Mudmux.Comm

open Mudmux.Lib
open Mudmux.Lib.Program (Returns returns_done effect)

variable {message : Bytes} {buf : Cells}

/-! ### Upgraded slots -/

/-- An open upgraded slot without Telnet, in line input, that waits for no hook and has released its
upgrade barrier. -/
structure FrameSlot (comm : CommAbstract) : Prop where
  live : comm.live = true
  notClosing : comm.flags.closing = false
  ready : comm.flags.websocketState = .ready
  noTelnet : comm.flags.enableTelnet = false
  notAwaiting : comm.flags.awaitingHook = false
  lineInput : comm.flags.lineInput = true
  established : comm.ssl = true → comm.flags.tlsEstablished = true
  noBarrier : comm.websocketUpgradeBarrier = []

/-- What the parsers see of an upgraded slot: its decoder and the unread bytes. -/
structure FrameInput (decoder : WebSocketDecoder) (data : Bytes) (comm : CommAbstract) : Prop
    extends FrameSlot comm where
  decoder : comm.websocket = some decoder
  buffer : ∃ buf, comm.inbound = [⟨.data, buf⟩] ∧ buf.data = data

variable {ρ : Type} {setup : Setup} {env : Surroundings ρ} {depth : Nat} {w : World ρ}
  {decoder : WebSocketDecoder} {data : Bytes} {comm : CommAbstract}

section

variable (h : FrameInput decoder data comm)

include h

/-- The fields of the record that neither the parsers nor `comm_flush` decide by. -/
theorem FrameInput.of_flags (outbound : List OutboundBuffer)
    (bufferedWrite invokedPrompt deferredInbound transportReady : Bool) :
    FrameInput decoder data
      { comm with
          outbound
          flags := { comm.flags with bufferedWrite, invokedPrompt, deferredInbound, transportReady } } :=
  { h with }

theorem FrameInput.freed :
    FrameInput decoder data
      { comm with
          outbound := []
          websocketUpgradeBarrier := []
          flags := { comm.flags with bufferedWrite := false } } :=
  { h with noBarrier := rfl }

theorem FrameInput.with_inbound (buf : Cells) :
    FrameInput decoder buf.data { comm with inbound := [⟨.data, buf⟩] } :=
  { h with buffer := ⟨buf, rfl, rfl⟩ }

end

/-- Surroundings in which nobody closes an upgraded slot, reconfigures it, suspends it or takes its
input away. -/
structure Surroundings.KeepsFrames (env : Surroundings ρ) : Prop where
  input : ∀ {β : Type} (e : SlotEffect β) {decoder : WebSocketDecoder} {data : Bytes}
    {comm : CommAbstract} (outside : ρ), reentrant e = true → FrameInput decoder data comm →
    FrameInput decoder data (env.foreign e comm outside).1
  transportReady : ∀ {β : Type} (e : SlotEffect β) {decoder : WebSocketDecoder} {data : Bytes}
    {comm : CommAbstract} (outside : ρ), reentrant e = true → FrameInput decoder data comm →
    comm.flags.transportReady = true →
    (env.foreign e comm outside).1.flags.transportReady = true
  notBusy : ∀ outside, env.slotBusy outside = false

/-! ### Flushing between two messages -/

theorem FrameSlot.steady (h : FrameSlot comm) : SteadySlot comm :=
  { h with framing := .inr ⟨h.ready, h.noBarrier⟩ }

variable {Q : ProcessResult → World ρ → Prop}

section Keeps

variable (henv : env.KeepsFrames) (hstrict : setup.relaxed = false)

include henv

theorem Surroundings.KeepsFrames.calm (decoder : WebSocketDecoder) (data : Bytes)
    (messages : List Bytes) :
    env.Calm fun w => FrameInput decoder data w.comm ∧ w.inboundMessages = messages where
  steady h := h.1.toFrameSlot.steady
  output outbound bufferedWrite h := ⟨h.1.of_flags outbound bufferedWrite _ _ _, h.2⟩
  freed h := ⟨h.1.freed, h.2⟩
  otherSlots h := ⟨henv.input .otherSlots _ rfl h.1, h.2⟩
  finalizeAwait h := ⟨henv.input .finalizeAwait _ rfl h.1, h.2⟩
  drain h := h

theorem Surroundings.KeepsFrames.calm_announced (decoder : WebSocketDecoder) (data : Bytes)
    (messages : List Bytes) :
    env.Calm fun w => (FrameInput decoder data w.comm ∧ w.inboundMessages = messages) ∧
      w.comm.flags.transportReady = true where
  steady h := h.1.1.toFrameSlot.steady
  output outbound bufferedWrite h := ⟨(henv.calm _ _ _).output outbound bufferedWrite h.1, h.2⟩
  freed h := ⟨(henv.calm _ _ _).freed h.1, h.2⟩
  otherSlots h :=
    ⟨(henv.calm _ _ _).otherSlots h.1, henv.transportReady .otherSlots _ rfl h.1.1 h.2⟩
  finalizeAwait h :=
    ⟨(henv.calm _ _ _).finalizeAwait h.1, henv.transportReady .finalizeAwait _ rfl h.1.1 h.2⟩
  drain h := h

omit henv in
/-- A hook that is entered hands out the message of its call, if it has one. -/
theorem inboundMessages_entered (call : HookCall) (comm : CommAbstract) (w : World ρ) :
    ((w.entries ++ [(call, comm)]).map Prod.fst).filterMap inboundPayload
      = w.inboundMessages ++ (inboundPayload call).toList := by
  rw [List.map_append, List.filterMap_append]
  cases call <;> rfl

omit henv in
/-- The transport is announced once. -/
theorem callTransportReady_announced {I : World ρ → Prop} (hI : I w) (hlive : w.comm.live = true)
    (hready : w.comm.flags.transportReady = true) :
    Returns (slotHandler setup env (depth + 1)) (effect .callTransportReady) w fun _ => I := by
  have hcode : Returns (slotHandler setup env depth) (commInvokeTransportReady setup) w
      fun _ => I := by
    rw [commInvokeTransportReady, returns_commGuard hlive]
    simp only [hready, Bool.or_true, if_true]
    exact returns_done.mpr hI
  obtain ⟨_, w', heval, hpost⟩ := hcode
  have hanswer : slotHandler setup env (depth + 1) _ .callTransportReady w = some ((), w') := heval
  exact (returns_answered hanswer).mpr (returns_done.mpr hpost)

include hstrict

/-- The announcement of the transport: while its hook runs and the slot is flushed behind it, it counts
as made. A hook that fails takes it back. -/
theorem callTransportReady_frame (h : FrameInput decoder data w.comm) :
    Returns (slotHandler setup env (depth + 3)) (effect .callTransportReady) w fun _ w' =>
      FrameInput decoder data w'.comm ∧ w'.inboundMessages = w.inboundMessages := by
  cases hready : w.comm.flags.transportReady with
  | true => exact callTransportReady_announced ⟨h, rfl⟩ h.live hready
  | false =>
    have htls : (w.comm.ssl && !w.comm.flags.tlsEstablished) = false := by
      cases hssl : w.comm.ssl with
      | false => rfl
      | true => simp [h.established hssl]
    have hcode : Returns (slotHandler setup env (depth + 2)) (commInvokeTransportReady setup) w
        fun _ w' => FrameInput decoder data w'.comm ∧ w'.inboundMessages = w.inboundMessages := by
      rw [commInvokeTransportReady, returns_commGuard h.live]
      have hupgraded : (w.comm.flags.enableWebsocket && !w.comm.flags.websocketState.isReady)
          = false := by simp [h.ready, WebSocketState.isReady]
      simp only [h.notClosing, hready, htls, hupgraded, hstrict, Bool.or_self, Bool.or_false,
        Bool.false_eq_true, if_false]
      rw [returns_setComm]
      have hannounced : FrameInput decoder data (w.comm.mapFlags fun flags =>
          { flags with transportReady := true, awaitingHook := flags.awaitingHook }) :=
        h.of_flags w.comm.outbound _ _ _ true
      refine (mudmuxExecutionDispatch_calm (henv.calm_announced decoder data w.inboundMessages)
        (fun w' h' _ => callTransportReady_announced h' h'.1.1.live h'.2) hstrict .transportReady
        (fun _ => ?_) fun _ => ?_).bind ?_
      · have hmessages := inboundMessages_entered .transportReady
          (w.comm.mapFlags fun flags => { flags with transportReady := true }) w
        exact ⟨⟨henv.input _ _ rfl hannounced, hmessages.trans (List.append_nil _)⟩,
          henv.transportReady _ _ rfl hannounced rfl⟩
      · exact ⟨⟨hannounced, rfl⟩, rfl⟩
      rintro result w₁ ⟨-, ⟨hin, hsame⟩, -⟩
      split
      · rw [modifyFlags, modifyComm, returns_commDeref hin.live, setComm, effect, returns_setSlot,
          returns_done]
        exact ⟨{ hin with notAwaiting := rfl }, hsame⟩
      · exact returns_done.mpr ⟨hin, hsame⟩
    obtain ⟨_, w', heval, hpost⟩ := hcode
    have hanswer : slotHandler setup env (depth + 3) _ .callTransportReady w = some ((), w') := heval
    exact (returns_answered hanswer).mpr (returns_done.mpr hpost)

/-! ### Lines -/

variable (hreg : setup.registered .messageInbound = true)

include hreg

theorem commInvokeInboundMessage_frame (message : Bytes) (h : FrameInput decoder data w.comm) :
    Returns (slotHandler setup env (depth + 4)) (commInvokeInboundMessage setup message) w
      fun result w' => result ≠ .queueFull ∧ FrameInput decoder data w'.comm ∧
        w'.inboundMessages = w.inboundMessages ++ [message] := by
  rw [returns_invokeStrict h.live hstrict]
  have hin : FrameInput decoder data
      (w.comm.mapFlags fun flags => { flags with invokedPrompt := false }) :=
    h.of_flags w.comm.outbound _ false _ _
  refine mudmuxExecutionDispatch_calm (henv.calm decoder data (w.inboundMessages ++ [message]))
    (fun w₁ h₁ _ => ?_) hstrict (.messageInbound message) (fun _ => ?_)
    fun hnone => absurd (hnone.symm.trans hreg) Bool.false_ne_true
  · obtain ⟨hin₁, hmessages⟩ := h₁
    rw [← hmessages]
    exact callTransportReady_frame henv hstrict hin₁
  · exact ⟨henv.input _ _ rfl hin, inboundMessages_entered (.messageInbound message) _ w⟩

/-- The line loop hands out every line of the buffer. -/
theorem lineLoop_frame (fuel : Nat) (w : World ρ) (data : Bytes) (hfuel : data.length < fuel)
    (h : FrameInput decoder data w.comm) :
    Returns (slotHandler setup env (depth + 4)) (lineLoop setup fuel none) w fun _ w' =>
      (∃ rest, FrameInput decoder rest w'.comm) ∧
        w'.inboundMessages = w.inboundMessages ++ linesOf [] data := by
  induction fuel generalizing w data with
  | zero => omega
  | succ fuel ih =>
    obtain ⟨buf, hbuf, rfl⟩ := h.buffer
    rw [linesOf_nextLine]
    rcases findNewlineAndStrip_cases buf with ⟨hnone, htext⟩ | ⟨found, hfound, hnext, hshort⟩
    · apply lineLoop_waits fuel h.live hbuf htext
      rw [hnone]
      exact ⟨⟨_, h⟩, (List.append_nil _).symm⟩
    · rw [hnext]
      apply lineLoop_found fuel (by simp) h.live hbuf hfound
      rw [echoedNewline_of_plain (by exact h.noTelnet)]
      apply (commInvokeInboundMessage_frame henv hstrict hreg found.line
        (by exact h.with_inbound found.buf)).mono
      rintro result w₁ ⟨hresult, hin₁, hmessages₁⟩
      obtain ⟨_, hchain, _⟩ := hin₁.buffer
      rw [if_neg hresult]
      refine ⟨hin₁.live, by rw [hchain, List.tail_cons], ?_⟩
      dsimp only
      rw [henv.notBusy, if_neg Bool.false_ne_true]
      intro buf' hbuf'
      refine (ih _ buf'.data (by rw [hbuf']; omega) (by exact hin₁.with_inbound buf')).mono ?_
      rintro _ w₂ ⟨hleft, hmessages₂⟩
      refine ⟨hleft, hmessages₂.trans ?_⟩
      show w₁.inboundMessages ++ _ = _
      rw [hmessages₁, hbuf', List.append_assoc, List.singleton_append]
      rfl

/-- The text parser on an upgraded slot. -/
theorem processText_frame (h : FrameInput decoder data w.comm) :
    Returns (slotHandler setup env (depth + 4)) (processText setup none) w fun result w' =>
      (result = .ok ∨ result = .deferred) ∧ (∃ rest, FrameInput decoder rest w'.comm) ∧
        w'.inboundMessages = w.inboundMessages ++ linesOf [] data := by
  obtain ⟨buf, hbuf, rfl⟩ := h.buffer
  apply processText_line h.live h.lineInput hbuf
  intro fuel hfuel
  apply (lineLoop_frame henv hstrict hreg fuel w buf.data hfuel h).mono
  rintro _ w' ⟨⟨rest, hin⟩, hmessages⟩
  exact ⟨hin.live, ⟨rest, hin⟩, hmessages⟩

/-- `comm_process_decoded_input` on an upgraded slot. -/
theorem commProcessDecodedInput_frame (h : FrameInput decoder data w.comm) :
    Returns (slotHandler setup env (depth + 4)) (commProcessDecodedInput setup none) w
      fun result w' => (result = .ok ∨ result = .deferred) ∧
        (∃ rest, FrameInput decoder rest w'.comm) ∧
        w'.inboundMessages = w.inboundMessages ++ linesOf [] data := by
  obtain ⟨buf, hbuf, rfl⟩ := h.buffer
  have hready : w.comm.flags.websocketState.isReady = true := by rw [h.ready]; rfl
  rw [commProcessDecodedInput, processInputWith, returns_commGuard h.live]
  simp only [h.notAwaiting, hready, Bool.not_true, Bool.and_false, Bool.false_eq_true, if_false,
    if_true, Program.effect_bind]
  rw [returns_asksBusy, henv.notBusy, if_neg Bool.false_ne_true, returns_modifyComm (by exact h.live)]
  apply processText_frame henv hstrict hreg
  have hskip : skipNonDataHeadBuffers w.comm.inbound = [⟨.data, buf⟩] := by
    rw [hbuf]
    rfl
  exact { h with buffer := ⟨buf, hskip, rfl⟩ }

/-! ### A decoded message -/

omit henv hstrict hreg in
theorem FrameSlot.with_input (h : FrameSlot comm) (inbound : List InboundBuffer)
    (websocket : Option WebSocketDecoder) : FrameSlot { comm with inbound, websocket } :=
  { h with }

omit henv hstrict hreg in
theorem FrameSlot.of_output (h : FrameSlot comm) (outbound : List OutboundBuffer)
    (bufferedWrite : Bool) :
    FrameSlot { comm with outbound, flags := { comm.flags with bufferedWrite } } :=
  { h with }

omit henv hstrict hreg in
/-- A decoded message is put into the inbound buffer, if it fits. -/
theorem refill_decoded (hslot : FrameSlot w.comm) (hbuf : OneBuffer w.comm buf)
    (hempty : buf.data = []) (message : Bytes) :
    Returns (slotHandler setup env depth) (refillInboundBuffersFromSrc setup message) w
      fun accepted w' => accepted = decide (message.length ≤ bufferSize) ∧ ∃ buf',
        w' = w.withBuffer buf' ∧ (message.length ≤ bufferSize → buf'.data = message) := by
  have hready : w.comm.flags.websocketState.isReady = true := by rw [hslot.ready]; rfl
  apply (refill_copies w hslot.live (by simp [parsesTelnet, hslot.noTelnet]) (by simp [hready]) buf hbuf
    message).mono
  rintro accepted w' ⟨haccepted, buf', rfl, hdata⟩
  rw [hempty, List.length_nil, Nat.zero_add] at haccepted
  rw [hempty, List.length_nil, List.nil_append] at hdata
  exact ⟨haccepted, buf', rfl, fun hfits => hdata.trans (List.take_of_length_le hfits)⟩

/-- `_process_websocket_decoded_input`: the lines of a message that fits into the buffer are handed
out. -/
theorem processWebsocketDecodedInput_frame (hslot : FrameSlot w.comm)
    (hdecoder : w.comm.websocket = some decoder) (hbuf : OneBuffer w.comm buf)
    (hempty : buf.data = []) (hfits : decoder.decodedInput.length ≤ bufferSize) :
    Returns (slotHandler setup env (depth + 4)) (processWebsocketDecodedInput setup none) w
      fun result w' => (result = .ok ∨ result = .deferred) ∧ FrameSlot w'.comm ∧
        (∃ rest, w'.comm.websocket = some { decoder with decodedInput := rest }) ∧
        w'.inboundMessages = w.inboundMessages ++ linesOf [] decoder.decodedInput := by
  rw [processWebsocketDecodedInput, returns_commDeref hslot.live]
  simp only [hdecoder, Option.getD_some]
  split
  · next hnone =>
      rw [List.isEmpty_iff.mp hnone]
      exact returns_done.mpr ⟨.inl rfl, hslot, ⟨_, hdecoder⟩, (List.append_nil _).symm⟩
  · apply (refill_decoded hslot hbuf hempty decoder.decodedInput).bind
    rintro accepted w₁ ⟨rfl, buf', rfl, hdata⟩
    rw [decide_eq_true hfits, Bool.not_true, if_neg Bool.false_ne_true, modifyWebsocket,
      returns_modifyComm (by exact hslot.live)]
    have hin : FrameInput { decoder with decodedInput := [] } decoder.decodedInput
        { w.comm with
            inbound := [⟨.data, buf'⟩]
            websocket := some { decoder with decodedInput := [] } } :=
      ⟨hslot.with_input _ _, rfl, buf', rfl, hdata hfits⟩
    have hmapped : w.comm.websocket.map (fun w => { w with decodedInput := [] })
        = some { decoder with decodedInput := [] } := by rw [hdecoder]; rfl
    simp only [World.withBuffer, hmapped]
    apply (commProcessDecodedInput_frame henv hstrict hreg (by exact hin)).bind
    rintro result w₂ ⟨hresult, ⟨rest, hin₂⟩, hmessages⟩
    rw [returns_modifyComm hin₂.live]
    refine returns_done.mpr ⟨hresult, hin₂.toFrameSlot.with_input _ _,
      ⟨commCopyInboundDataPrefix w₂.comm sizeMax, ?_⟩, hmessages⟩
    show w₂.comm.websocket.map _ = _
    rw [hin₂.decoder]
    rfl

omit henv hstrict hreg in
/-- A message that does not fit is an error. -/
theorem processWebsocketDecodedInput_long (hslot : FrameSlot w.comm)
    (hdecoder : w.comm.websocket = some decoder) (hbuf : OneBuffer w.comm buf)
    (hempty : buf.data = []) (hlong : bufferSize < decoder.decodedInput.length) :
    Returns (slotHandler setup env depth) (processWebsocketDecodedInput setup none) w
      fun result _ => result = .error := by
  have hsome : decoder.decodedInput.isEmpty = false := by
    rw [List.isEmpty_eq_false_iff, ← List.length_pos_iff]
    omega
  rw [processWebsocketDecodedInput, returns_commDeref hslot.live]
  simp only [hdecoder, Option.getD_some, hsome, Bool.false_eq_true, if_false]
  apply (refill_decoded hslot hbuf hempty decoder.decodedInput).bind
  rintro accepted w₁ ⟨rfl, -⟩
  rw [decide_eq_false (Nat.not_le.mpr hlong), Bool.not_false, if_pos rfl]
  exact returns_done.mpr rfl

/-! ### The decoder's loop -/

omit henv hstrict hreg in
/-- Pongs change the queue. -/
theorem sendPongs_frame (pongs : List Bytes) (w : World ρ) (hslot : FrameSlot w.comm) :
    Returns (slotHandler setup env depth) (sendPongs pongs) w fun _ w' =>
      ∃ outbound bufferedWrite, w' = { w with comm := { w.comm with
        outbound, flags := { w.comm.flags with bufferedWrite } } } := by
  induction pongs generalizing w with
  | nil => exact returns_done.mpr ⟨w.comm.outbound, w.comm.flags.bufferedWrite, rfl⟩
  | cons payload pongs ih =>
    obtain ⟨outbound, bufferedWrite, hqueued⟩ :
        ∃ outbound bufferedWrite, writeControlFrame w.comm opPong payload
          = { w.comm with outbound, flags := { w.comm.flags with bufferedWrite } } := by
      rw [writeControlFrame]
      split
      · exact ⟨w.comm.outbound, w.comm.flags.bufferedWrite, rfl⟩
      · exact commBufferedWriteRaw_eq w.comm _
    rw [sendPongs, Program.effect_bind, returns_pong, ifLive, if_pos hslot.live, hqueued]
    apply (ih { w with comm := { w.comm with
      outbound, flags := { w.comm.flags with bufferedWrite } } } (hslot.of_output _ _)).mono
    rintro _ w' ⟨outbound', bufferedWrite', rfl⟩
    exact ⟨outbound', bufferedWrite', rfl⟩

omit henv hstrict hreg in
/-- A decoder call on an upgraded slot that takes all the wire bytes and ends with a message. -/
theorem commWebsocketProcessInbound_frame (hslot : FrameSlot w.comm)
    (hdecoder : w.comm.websocket = some decoder) {wire message : Bytes} {pongs : List Bytes}
    {fragment : Fragment} (hdecode : websocketDecode 1 decoder.fragment wire
      = ⟨fragment, [message], pongs, .accepted wire.length⟩) :
    Returns (slotHandler setup env depth) (commWebsocketProcessInbound wire 1) w fun result w' =>
      result = ([message], .accepted wire.length) ∧ FrameSlot w'.comm ∧
        w'.comm.inbound = w.comm.inbound ∧ w'.inboundMessages = w.inboundMessages ∧
        w'.comm.websocket = some { decoder with
          fragmentedOpcode := fragment.opcode, fragmentedPayload := fragment.payload } := by
  rw [commWebsocketProcessInbound, returns_commDeref hslot.live]
  simp only [hdecoder, Option.getD_some, hdecode, returns_setComm]
  apply (sendPongs_frame pongs _ (by exact hslot.with_input _ _)).bind
  rintro _ w' ⟨outbound, bufferedWrite, rfl⟩
  exact returns_done.mpr ⟨rfl, (hslot.with_input _ _).of_output _ _, rfl, rfl, rfl⟩

omit henv hstrict hreg in
/-- The iteration of the loop that decodes the message, up to the text parser. -/
theorem websocketInputLoop_message (fuel : Nat) (hslot : FrameSlot w.comm)
    (hdecoder : w.comm.websocket = some decoder) (hbuf : OneBuffer w.comm buf)
    (hdecoded : decoder.decodedInput = []) {pongs : List Bytes} {fragment : Fragment}
    (hwire : decoder.pendingWire ≠ [])
    (hdecode : websocketDecode 1 decoder.fragment decoder.pendingWire
      = ⟨fragment, [message], pongs, .accepted decoder.pendingWire.length⟩)
    (htext : ∀ w₁ : World ρ, FrameSlot w₁.comm → OneBuffer w₁.comm buf →
      w₁.inboundMessages = w.inboundMessages →
      w₁.comm.websocket = some { decoder with
        fragmentedOpcode := fragment.opcode
        fragmentedPayload := fragment.payload
        pendingWire := []
        decodedInput := message } →
      Returns (slotHandler setup env depth)
        (do
          let result ← processWebsocketDecodedInput setup none
          if result ≠ .ok then pure result
          else
            match ← commGuard with
            | none => pure .closed
            | some _ =>
              if ← effect .slotBusy then pure .deferred
              else websocketInputLoop setup none fuel) w₁ Q) :
    Returns (slotHandler setup env depth) (websocketInputLoop setup none (fuel + 1)) w Q := by
  have hconsumed : decoder.pendingWire.length ≠ 0 := fun h => hwire (List.length_eq_zero_iff.mp h)
  rw [websocketInputLoop, returns_commDeref hslot.live]
  simp only [hdecoder, Option.getD_some, List.isEmpty_eq_false_iff.mpr hwire, Bool.false_eq_true,
    if_false]
  apply (commWebsocketProcessInbound_frame hslot hdecoder hdecode).bind
  rintro _ w₁ ⟨rfl, hslot₁, hinbound₁, hmessages₁, hdecoder₁⟩
  simp only [hconsumed, if_false, modifyWebsocket]
  rw [returns_modifyComm hslot₁.live, returns_commDeref (by exact hslot₁.live)]
  simp only [hslot₁.noTelnet, Bool.false_eq_true, if_false]
  rw [returns_modifyComm (by exact hslot₁.live)]
  simp only [Program.pure_eq, Program.done_bind, reduceCtorEq, if_false, DispatchResult.accepted,
    decide_true, Bool.true_or, Bool.not_true, Bool.false_eq_true]
  have hbuf₁ : OneBuffer w₁.comm buf := by
    rw [OneBuffer, hinbound₁]
    exact hbuf
  apply htext
  · exact hslot₁.with_input _ _
  · exact hbuf₁
  · exact hmessages₁
  · simp only [hdecoder₁, Option.map_some, hdecoded, List.drop_length, List.nil_append]

omit henv hstrict hreg in
/-- With nothing pending the loop ends. -/
theorem websocketInputLoop_idle (fuel : Nat) (hlive : w.comm.live = true)
    (hdecoder : w.comm.websocket = some decoder) (hwire : decoder.pendingWire = []) :
    Returns (slotHandler setup env depth) (websocketInputLoop setup none fuel) w
      fun result w' => result = .ok ∧ w' = w := by
  cases fuel with
  | zero => exact returns_done.mpr ⟨rfl, rfl⟩
  | succ fuel =>
    rw [websocketInputLoop, returns_commDeref hlive]
    simp only [hdecoder, Option.getD_some, hwire, List.isEmpty_nil, if_true]
    exact returns_done.mpr ⟨rfl, rfl⟩

end Keeps

/-! ### The message on the slot -/

/-- The frames of a message have arrived on an upgraded slot, and nothing else: the decoder takes all the
bytes there are and ends with the message. -/
structure MessageArrived (message : Bytes) (comm : CommAbstract) : Prop extends FrameSlot comm where
  decoded : ∃ decoder buf fragment pongs, comm.websocket = some decoder ∧ OneBuffer comm buf ∧
    decoder.decodedInput = [] ∧
    websocketDecode 1 decoder.fragment (decoder.pendingWire ++ buf.data)
      = ⟨fragment, [message], pongs, .accepted (decoder.pendingWire ++ buf.data).length⟩

/-- Nothing decoded, nothing to do. -/
theorem processWebsocketDecodedInput_nothing (hlive : w.comm.live = true)
    (hdecoder : w.comm.websocket = some decoder) (hnone : decoder.decodedInput = []) :
    Returns (slotHandler setup env depth) (processWebsocketDecodedInput setup none) w
      fun result w' => result = .ok ∧ w' = w := by
  rw [processWebsocketDecodedInput, returns_commDeref hlive]
  simp only [hdecoder, Option.getD_some, hnone, List.isEmpty_nil, if_true]
  exact returns_done.mpr ⟨rfl, rfl⟩

/-- `comm_process_websocket_input` on a slot with an arrived message, up to the text parser. -/
theorem commProcessWebsocketInput_message (h : MessageArrived message w.comm)
    (htext : ∀ (w₁ : World ρ) (decoder : WebSocketDecoder) (buf : Cells)
      (fuel : Nat), FrameSlot w₁.comm → OneBuffer w₁.comm buf → buf.data = [] →
      w₁.inboundMessages = w.inboundMessages → w₁.comm.websocket = some decoder →
      decoder.pendingWire = [] → decoder.decodedInput = message →
      Returns (slotHandler setup env depth)
        (do
          let result ← processWebsocketDecodedInput setup none
          if result ≠ .ok then pure result
          else
            match ← commGuard with
            | none => pure .closed
            | some _ =>
              if ← effect .slotBusy then pure .deferred
              else websocketInputLoop setup none fuel) w₁ Q) :
    Returns (slotHandler setup env depth) (commProcessWebsocketInput setup none) w Q := by
  obtain ⟨decoder, buf, fragment, pongs, hdecoder, hbuf, hnone, hdecode⟩ := h.decoded
  have hwire : decoder.pendingWire ++ buf.data ≠ [] := by
    intro hwire
    rw [hwire] at hdecode
    exact List.cons_ne_nil message [] (congrArg DecodeResult.messages hdecode).symm
  -- the inbound bytes go behind the pending wire bytes, and nothing is decoded yet
  obtain ⟨buf', hempty, hbuf'⟩ := hbuf.consumeInboundData
  obtain ⟨moved, hmoved⟩ : ∃ moved : WebSocketDecoder,
      moved = { decoder with pendingWire := decoder.pendingWire ++ buf.data } := ⟨_, rfl⟩
  have hpending : moved.pendingWire = decoder.pendingWire ++ buf.data := by rw [hmoved]
  have hnone' : moved.decodedInput = [] := by rw [hmoved]; exact hnone
  have hfragment : moved.fragment = decoder.fragment := by rw [hmoved]; rfl
  rw [← hpending, ← hfragment] at hdecode
  rw [← hpending] at hwire
  rw [commProcessWebsocketInput, returns_modifyComm h.live]
  simp only [hdecoder, Option.getD_some, hbuf.copyInboundData (show bufferSize ≤ sizeMax by decide), ← hmoved]
  have hslot := h.toFrameSlot.with_input (consumeInboundData buf.data.length w.comm.inbound)
    (some moved)
  apply (processWebsocketDecodedInput_nothing (by exact hslot.live) rfl hnone').bind
  rintro _ _ ⟨rfl, rfl⟩
  simp only [ne_eq, not_true_eq_false, if_false]
  rw [returns_commDeref (by exact hslot.live)]
  apply websocketInputLoop_message _ hslot rfl hbuf' hnone' hwire hdecode
  intro w₁ hslot₁ hbuf₁ hmessages hdecoder₁
  exact htext w₁ _ buf' _ hslot₁ hbuf₁ hempty hmessages hdecoder₁ rfl rfl

/-- `comm_process_input` on such a slot is `comm_process_websocket_input`. -/
theorem commProcessInput_arrived (h : MessageArrived message w.comm)
    (hidle : ∀ outside, env.slotBusy outside = false)
    (hinput : ∀ w₁ : World ρ, MessageArrived message w₁.comm →
      w₁.inboundMessages = w.inboundMessages →
      Returns (slotHandler setup env depth) (commProcessWebsocketInput setup none) w₁ Q) :
    Returns (slotHandler setup env depth) (commProcessInput setup none) w Q := by
  obtain ⟨decoder, buf, fragment, pongs, hdecoder, hbuf, hdecoded⟩ := h.decoded
  have hready : w.comm.flags.websocketState.isReady = true := by rw [h.ready]; rfl
  rw [commProcessInput, processInputWith, returns_commGuard h.live]
  simp only [h.notAwaiting, hready, Bool.not_true, Bool.and_false, Bool.false_eq_true, if_false,
    if_true, Program.effect_bind]
  rw [returns_asksBusy, hidle, if_neg Bool.false_ne_true, returns_modifyComm (by exact h.live)]
  simp only [hbuf.skipNonDataHeadBuffers]
  refine hinput _ ⟨?_, decoder, buf, fragment, pongs, hdecoder, hbuf, hdecoded⟩ rfl
  exact { h.toFrameSlot with }

/-! ### Delivery -/

/-- `comm_process_input` hands exactly these lines to the hook, in this order, and does not end in
`COMM_PROCESS_ERROR`. -/
def DeliversLines (setup : Setup) (env : Surroundings ρ) (depth : Nat) (lines : List Bytes)
    (w : World ρ) : Prop :=
  Returns (slotHandler setup env depth) (commProcessInput setup none) w fun result w' =>
    result ≠ .error ∧ w'.inboundMessages = w.inboundMessages ++ lines

/-- A message that fits the inbound buffer is delivered. -/
theorem deliversLines_of_fits (henv : env.KeepsFrames) (hstrict : setup.relaxed = false)
    (hreg : setup.registered .messageInbound = true) (h : MessageArrived message w.comm)
    (hfits : message.length ≤ bufferSize) :
    DeliversLines setup env (depth + 4) (linesOf [] message) w := by
  apply commProcessInput_arrived h henv.notBusy
  intro w₀ h₀ hmessages₀
  apply commProcessWebsocketInput_message h₀
  intro w₁ decoder buf fuel hslot hbuf hempty hmessages hdecoder hwire hdecoded
  rw [← hdecoded] at hfits
  apply (processWebsocketDecodedInput_frame henv hstrict hreg hslot hdecoder hbuf hempty hfits).bind
  rintro result w₂ ⟨hresult, hslot₂, ⟨rest, hdecoder₂⟩, hmessages₂⟩
  rw [hmessages, hmessages₀, hdecoded] at hmessages₂
  rcases hresult with rfl | rfl
  · simp only [ne_eq, not_true_eq_false, if_false]
    rw [returns_commGuard hslot₂.live, Program.effect_bind, returns_asksBusy, henv.notBusy,
      if_neg Bool.false_ne_true]
    have hwire₂ : ({ decoder with decodedInput := rest } : WebSocketDecoder).pendingWire = [] := hwire
    apply (websocketInputLoop_idle fuel (by exact hslot₂.live) (by exact hdecoder₂) hwire₂).mono
    rintro _ _ ⟨rfl, rfl⟩
    exact ⟨nofun, hmessages₂⟩
  · exact returns_done.mpr ⟨nofun, hmessages₂⟩

/-- A longer one ends in an error. -/
theorem not_deliversLines_of_long (hidle : ∀ outside, env.slotBusy outside = false)
    (h : MessageArrived message w.comm) (hlong : bufferSize < message.length) (lines : List Bytes) :
    ¬ DeliversLines setup env depth lines w := by
  intro hdelivers
  have herror : Returns (slotHandler setup env depth) (commProcessInput setup none) w
      fun result _ => result = .error := by
    apply commProcessInput_arrived h hidle
    intro w₀ h₀ _
    apply commProcessWebsocketInput_message h₀
    intro w₁ decoder buf fuel hslot hbuf hempty _ hdecoder _ hdecoded
    rw [← hdecoded] at hlong
    apply (processWebsocketDecodedInput_long hslot hdecoder hbuf hempty hlong).bind
    rintro _ w₂ rfl
    exact returns_done.mpr rfl
  obtain ⟨result, w', heval, hresult, -⟩ := hdelivers
  exact hresult (herror.of_eval heval)

/-- The lines of a text that consists of lines that end in LF. -/
theorem linesOf_flatMap_lf (lines : List Bytes)
    (hlines : ∀ line ∈ lines, ∀ b ∈ line, isTerminator b = false) :
    linesOf [] (lines.flatMap (· ++ [10])) = lines.map stripSpace := by
  induction lines with
  | nil => rfl
  | cons line lines ih =>
    have hrest := ih fun other hother => hlines other (List.mem_cons_of_mem _ hother)
    have hline := (lineReader_run_line [] line 10 (lines.flatMap (· ++ [10]))
      (hlines line List.mem_cons_self) rfl).2
    rw [List.flatMap_cons, List.append_assoc, List.singleton_append, hline, List.map_cons, ← hrest]
    rfl

/-- The lines of a message that has arrived on an upgraded slot are delivered exactly if the message is
not longer than an inbound buffer. Where it consists of lines that end in LF, they are these lines
without the white space around them. -/
theorem websocket_lines_delivered_iff {ρ : Type} (setup : Setup) (env : Surroundings ρ) (depth : Nat)
    (henv : env.KeepsFrames) (hstrict : setup.relaxed = false)
    (hreg : setup.registered .messageInbound = true) (w : World ρ) (message : Bytes)
    (h : MessageArrived message w.comm) :
    (DeliversLines setup env (depth + 4) (linesOf [] message) w ↔ message.length ≤ bufferSize) ∧
      ∀ lines : List Bytes, (∀ line ∈ lines, ∀ b ∈ line, isTerminator b = false) →
        message = lines.flatMap (· ++ [10]) → linesOf [] message = lines.map stripSpace := by
  constructor
  · constructor
    · intro hdelivers
      by_contra hlong
      exact not_deliversLines_of_long henv.notBusy h (Nat.not_le.mp hlong) _ hdelivers
    · exact deliversLines_of_fits henv hstrict hreg h
  · rintro lines hlines rfl
    exact linesOf_flatMap_lf lines hlines

/-! ### A message that fits and one that does not -/

/-- A client's binary frame. -/
def clientFrame (payload : Bytes) : Bytes :=
  ((commWebsocketEncodeFrame payload opBinary).map (maskFrame [1, 2, 3, 4])).getD []

/-- An upgraded slot on which the bytes of a frame have arrived, those of `last` in the last read. -/
def frameWorld (earlier last : Bytes) (hlast : last.length ≤ bufferSize) : World Unit where
  comm :=
    { rbio := true
      wbio := true
      flags := { enableWebsocket := true, lineInput := true, websocketState := .ready }
      websocket := some { pendingWire := earlier }
      inbound := [⟨.data, ⟨0, last, LinearBuffer.fits_zero hlast⟩⟩] }
  entries := []
  reads := []
  outside := ()

theorem clientFrame_eq (payload : Bytes) (hsize : payload.length < 2 ^ 64) :
    clientFrame payload = maskFrame [1, 2, 3, 4]
      (0x82 :: (encodedHeader payload.length hsize).short ::
        ((encodedHeader payload.length hsize).field ++ payload)) := by
  rw [clientFrame, commWebsocketEncodeFrame_eq payload hsize (by decide)]
  rfl

theorem frameWorld_arrived {earlier last payload : Bytes} (hlast : last.length ≤ bufferSize)
    (hpayload : payload.length ≤ maxMessageBytes) (hframe : earlier ++ last = clientFrame payload) :
    MessageArrived payload (frameWorld earlier last hlast).comm where
  live := rfl
  notClosing := rfl
  ready := rfl
  noTelnet := rfl
  notAwaiting := rfl
  lineInput := rfl
  established := nofun
  noBarrier := rfl
  decoded := by
    have hsize : payload.length < 2 ^ 64 := Nat.lt_of_le_of_lt hpayload (by decide)
    have hdecode := websocketDecode_masked ⟨0, []⟩ [1, 2, 3, 4] payload []
      (encodedHeader payload.length hsize) rfl hpayload rfl
    rw [← clientFrame_eq payload hsize, List.append_nil, ← hframe] at hdecode
    exact ⟨_, _, ⟨0, []⟩, [], rfl, .inl rfl, rfl, hdecode⟩

/-- Writes to an upgraded slot change the queue. -/
theorem commBufferedWriteImpl_of_ready (normalize : Bool) (buf : Bytes)
    (hready : comm.flags.websocketState = .ready) :
    ∃ outbound bufferedWrite, commBufferedWriteImpl normalize comm buf
      = { comm with outbound, flags := { comm.flags with bufferedWrite } } := by
  have hisReady : comm.flags.websocketState.isReady = true := by rw [hready]; rfl
  have hopen : (comm.flags.websocketState == .closeSent) = false := by rw [hready]; rfl
  simp only [commBufferedWriteImpl, hisReady, hopen, Bool.not_true, Bool.and_false,
    Bool.false_eq_true, if_false, if_true]
  split
  · exact ⟨comm.outbound, comm.flags.bufferedWrite, rfl⟩
  · split
    · exact ⟨comm.outbound, comm.flags.bufferedWrite, rfl⟩
    · exact commBufferedWriteRaw_eq comm _

theorem chatSurroundings_keepsFrames : chatSurroundings.KeepsFrames where
  input e _ _ comm _ _ h := by
    cases e with
    | runHook call =>
      obtain ⟨outbound, bufferedWrite, hwrite⟩ :=
        commBufferedWriteImpl_of_ready true [111, 107, 10] h.ready
      show FrameInput _ _ (ifLive comm fun comm => commBufferedWriteImpl true comm [111, 107, 10])
      rw [ifLive, if_pos h.live, hwrite]
      exact h.of_flags outbound bufferedWrite _ _ _
    | _ => exact h
  transportReady e _ _ comm _ _ h hannounced := by
    cases e with
    | runHook call =>
      obtain ⟨outbound, bufferedWrite, hwrite⟩ :=
        commBufferedWriteImpl_of_ready true [111, 107, 10] h.ready
      show (ifLive comm fun comm =>
        commBufferedWriteImpl true comm [111, 107, 10]).flags.transportReady = true
      rw [ifLive, if_pos h.live, hwrite]
      exact hannounced
    | _ => exact hannounced
  notBusy _ := rfl

/-- A frame with the line "hi", in one read. -/
theorem websocket_lines_delivered_iff_hi :
    DeliversLines chatSetup chatSurroundings 4 (linesOf [] [104, 105, 10])
      (frameWorld [] (clientFrame [104, 105, 10]) (by decide)) :=
  (websocket_lines_delivered_iff chatSetup chatSurroundings 0 chatSurroundings_keepsFrames rfl rfl _ _
    (frameWorld_arrived (by decide) (by decide) rfl)).1.mpr (by decide)

/-- Two lines of 2500 bytes. -/
def longLines : Bytes := [List.replicate 2500 97, List.replicate 2500 97].flatMap (· ++ [10])

theorem length_longLines : longLines.length = 5002 := by
  simp only [longLines, List.flatMap_cons, List.flatMap_nil, List.append_nil, List.length_append,
    List.length_replicate, List.length_singleton]

/-- A frame whose length field has two bytes. -/
theorem length_clientFrame {payload : Bytes} (hlong : 125 < payload.length)
    (hfits : payload.length ≤ 0xffff) : (clientFrame payload).length = payload.length + 8 := by
  have hsize : payload.length < 2 ^ 64 := by omega
  have hfield : (encodedHeader payload.length hsize).field.length = 2 := by
    rw [encodedHeader, dif_neg (Nat.not_le.mpr hlong), dif_pos hfits]
    exact length_bigEndian 2 _
  rw [clientFrame_eq payload hsize, maskFrame_eq]
  simp only [List.length_cons, List.length_append, hfield, length_unmask, List.length_nil]
  omega

/-- A binary message of two lines of 2500 bytes, read in two pieces, is accepted by the decoder and not
delivered. -/
theorem two_lines_are_not_delivered :
    ¬ DeliversLines chatSetup chatSurroundings 4 (linesOf [] longLines)
      (frameWorld ((clientFrame longLines).take 4096) ((clientFrame longLines).drop 4096)
        (by
          rw [List.length_drop, length_clientFrame (by rw [length_longLines]; decide)
            (by rw [length_longLines]; decide), length_longLines]
          decide)) := by
  apply not_deliversLines_of_long (fun _ => rfl)
  · exact frameWorld_arrived _ (by rw [length_longLines]; decide) (List.take_append_drop _ _)
  · rw [length_longLines]
    decide

end Mudmux.Comm
