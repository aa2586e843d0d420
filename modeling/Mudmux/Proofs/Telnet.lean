import Mudmux.Comm.Input

/-!
# `Mudmux.Proofs.Telnet`: Telnet decoding and the loops that drive it

The parser returns early at an IAC SE, and both of its callers call it again until the input is
used up, carrying the state and nothing else. `telnetTransducer` is the parser without the early
return: one byte moves the state and may produce an application byte. `telnetCall_implements` says
that a call does what the transducer does on the bytes it consumed, so the library's driver theorem
gives independence of every cut.

`decodeWebsocketTelnetPayload_fuel` and `refillLoop_fuel` are the termination of the two callers:
fuel beyond one iteration a byte changes nothing in the code.
-/

set_option autoImplicit false

namespace Mudmux.Comm

open Mudmux.Lib

/-! ### One pass over the stream -/

variable (state : TelnetState)

/-- The state and the application byte of a step do not depend on the negotiation record. -/
theorem telnetStep_neg_irrelevant (neg neg' : TelnetNegotiation) (byte : Byte) :
    (telnetStep state neg byte).state = (telnetStep state neg' byte).state ∧
      (telnetStep state neg byte).out = (telnetStep state neg' byte).out := by
  cases state <;> simp only [telnetStep] <;> (repeat' split) <;> simp_all

/-- The Telnet automaton without the early return at IAC SE. -/
def telnetTransducer : Transducer TelnetState Byte Byte where
  step state byte := ((telnetStep state .zero byte).state, (telnetStep state .zero byte).out)

theorem telnetTransducer_step (neg : TelnetNegotiation) (byte : Byte) :
    telnetTransducer.step state byte
      = ((telnetStep state neg byte).state, (telnetStep state neg byte).out) := by
  have h := telnetStep_neg_irrelevant state .zero neg byte
  simp only [telnetTransducer, h.1, h.2]

theorem telnetTransducer_run_length (src : Bytes) :
    (telnetTransducer.run state src).2.length ≤ src.length := by
  induction src generalizing state with
  | nil => simp
  | cons b src ih =>
    have hstep : (telnetTransducer.step state b).2.length ≤ 1 := telnetStep_out_length _ _ _
    have hrest := ih (telnetTransducer.step state b).1
    simp only [Transducer.run_cons, List.length_append, List.length_cons]
    omega

/-- On the bytes it consumes the parser's loop runs the automaton. -/
theorem telnetLoop_agrees (src : Bytes) (state : TelnetState) (neg : TelnetNegotiation) :
    telnetTransducer.run state (src.take (telnetLoop src state neg).consumed)
      = ((telnetLoop src state neg).state, (telnetLoop src state neg).dest) := by
  induction src generalizing state neg with
  | nil => rfl
  | cons byte rest ih =>
    simp only [telnetLoop]
    split
    · simp [Transducer.run_cons, telnetTransducer_step state neg byte]
    · have hrest := ih (telnetStep state neg byte).state (telnetStep state neg byte).neg
      simp only [List.take_succ_cons, Transducer.run_cons, telnetTransducer_step state neg byte,
        hrest]

/-- One call of `comm_telnet_process_inbound` as both callers make it: with a zeroed negotiation
record, keeping the state. -/
def telnetCall (state : TelnetState) (src : Bytes) : Transducer.Call TelnetState Byte :=
  let r := commTelnetProcessInbound src state .zero
  ⟨r.consumed, r.state, r.dest⟩

theorem telnetCall_implements : telnetTransducer.Implements telnetCall where
  progress state src hsrc := commTelnetProcessInbound_consumed_pos src state .zero hsrc
  bounded state src := commTelnetProcessInbound_consumed_le src state .zero
  agrees state src := telnetLoop_agrees src state _

/-- Drive the parser over one chunk until it is consumed, with a call per byte as fuel. -/
def driveTelnet (state : TelnetState) (chunk : Bytes) : Option (TelnetState × Bytes) :=
  Transducer.drive telnetCall chunk.length state chunk

/-- Drive the parser over the chunks one after the other, carrying the state. -/
def driveTelnetChunks : TelnetState → List Bytes → Option (TelnetState × Bytes)
  | state, [] => some (state, [])
  | state, chunk :: chunks =>
    (driveTelnet state chunk).bind fun r =>
      (driveTelnetChunks r.1 chunks).map fun t => (t.1, r.2 ++ t.2)

theorem driveTelnet_eq_run (chunk : Bytes) :
    driveTelnet state chunk = some (telnetTransducer.run state chunk) :=
  Transducer.drive_eq_run _ telnetCall_implements _ _ _ (Nat.le_refl _)

theorem driveTelnetChunks_eq_runChunks (chunks : List Bytes) :
    driveTelnetChunks state chunks = some (telnetTransducer.runChunks state chunks) := by
  induction chunks generalizing state with
  | nil => rfl
  | cons chunk chunks ih =>
    simp [driveTelnetChunks, driveTelnet_eq_run, ih, Transducer.runChunks]

/-! ### The two callers terminate -/

variable (setup : Setup)

/-- One iteration of `_decode_websocket_telnet_payload` for every byte is enough: any two amounts
of fuel that allow for it give the same code. -/
theorem decodeWebsocketTelnetPayload_fuel (fuel fuel' : Nat) (payload : Bytes)
    (hfuel : payload.length ≤ fuel) (hfuel' : payload.length ≤ fuel') :
    decodeWebsocketTelnetPayload setup fuel payload
      = decodeWebsocketTelnetPayload setup fuel' payload := by
  induction fuel generalizing fuel' payload with
  | zero =>
    have hnil : payload = [] := List.eq_nil_of_length_eq_zero (by omega)
    subst hnil
    cases fuel' <;> rfl
  | succ fuel ih =>
    cases payload with
    | nil => cases fuel' <;> rfl
    | cons byte rest =>
      cases fuel' with
      | zero => simp at hfuel'
      | succ fuel' =>
        -- a call consumes at least one byte, so what is left needs one iteration less
        have hrest : ∀ state,
            decodeWebsocketTelnetPayload setup fuel ((byte :: rest).drop
                (commTelnetProcessInbound (byte :: rest) state .zero).consumed)
              = decodeWebsocketTelnetPayload setup fuel' ((byte :: rest).drop
                (commTelnetProcessInbound (byte :: rest) state .zero).consumed) := by
          intro state
          have hpos := commTelnetProcessInbound_consumed_pos (byte :: rest) state .zero
            (List.cons_ne_nil _ _)
          apply ih <;> simp only [List.length_drop] <;> omega
        simp only [decodeWebsocketTelnetPayload, hrest]

/-- An iteration of the refill loop goes on with fewer bytes than it had. -/
theorem refillStep_congr (again again' : Nat → Bytes → Bool → Code Bytes) (pos : Nat) (src : Bytes)
    (paused : Bool) (hsrc : src ≠ [])
    (h : ∀ n pos paused, 0 < n → again pos (src.drop n) paused = again' pos (src.drop n) paused) :
    refillStep setup again pos src paused = refillStep setup again' pos src paused := by
  simp only [refillStep]
  congr 1
  funext comm
  split
  · rfl
  · rename_i ibb _
    split
    · rfl
    · rename_i hroom
      have hoffered : src.take (min src.length ibb.buf.room) ≠ [] := by
        have hlen := List.length_pos_of_ne_nil hsrc
        apply List.ne_nil_of_length_pos
        simp only [List.length_take]
        omega
      have hpos := commTelnetProcessInbound_consumed_pos _ comm.flags.telnetState .zero hoffered
      split
      · simp only [h _ _ _ hpos]
      · rw [h _ _ _ (by omega)]

/-- One iteration of the refill loop for every byte is enough, whatever the buffers look like. -/
theorem refillLoop_fuel (fuel fuel' pos : Nat) (src : Bytes) (paused : Bool)
    (hfuel : src.length ≤ fuel) (hfuel' : src.length ≤ fuel') :
    refillLoop setup fuel pos src paused = refillLoop setup fuel' pos src paused := by
  induction fuel generalizing fuel' pos src paused with
  | zero =>
    have hnil : src = [] := List.eq_nil_of_length_eq_zero (by omega)
    subst hnil
    cases fuel' <;> rfl
  | succ fuel ih =>
    cases src with
    | nil => cases fuel' <;> rfl
    | cons byte rest =>
      cases fuel' with
      | zero => simp at hfuel'
      | succ fuel' =>
        refine refillStep_congr setup _ _ pos (byte :: rest) paused (List.cons_ne_nil _ _) ?_
        intro n pos paused hn
        apply ih <;> simp only [List.length_drop] <;> omega

/-- Telnet decoding is a streaming homomorphism, and its two callers terminate within their
buffers. However the stream is cut, driving the parser over the chunks gives what driving it over
the whole stream gives. A call consumes at least one byte of a non-empty input, no more than it is
given, and writes no more than it consumes. The code of either caller's loop is the same for every
amount of fuel from one iteration a byte on, and what a call writes fits the space it was offered
bytes for. -/
theorem telnet_decoding_is_streaming :
    (∀ (state : TelnetState) (chunks : List Bytes),
      ∃ result, driveTelnetChunks state chunks = some result ∧
        driveTelnet state chunks.flatten = some result) ∧
    (∀ (src : Bytes) (state : TelnetState) (neg : TelnetNegotiation),
      (src ≠ [] → 1 ≤ (commTelnetProcessInbound src state neg).consumed) ∧
        (commTelnetProcessInbound src state neg).consumed ≤ src.length ∧
        (commTelnetProcessInbound src state neg).dest.length
          ≤ (commTelnetProcessInbound src state neg).consumed) ∧
    (∀ (setup : Setup) (payload : Bytes) (fuel : Nat), payload.length ≤ fuel →
      decodeWebsocketTelnetPayload setup fuel payload
        = decodeWebsocketTelnetPayload setup payload.length payload) ∧
    (∀ (setup : Setup) (src : Bytes) (pos fuel : Nat) (paused : Bool), src.length ≤ fuel →
      refillLoop setup fuel pos src paused = refillLoop setup src.length pos src paused) ∧
    (∀ (src : Bytes) (room : Nat) (state : TelnetState),
      (commTelnetProcessInbound (src.take (min src.length room)) state .zero).dest.length
        ≤ room) := by
  refine ⟨?_, ?_, ?_, ?_, commTelnetProcessInbound_fits⟩
  · intro state chunks
    refine ⟨telnetTransducer.run state chunks.flatten, ?_, driveTelnet_eq_run _ _⟩
    rw [driveTelnetChunks_eq_runChunks, Transducer.runChunks_eq]
  · intro src state neg
    exact ⟨commTelnetProcessInbound_consumed_pos src state neg,
      commTelnetProcessInbound_consumed_le src state neg,
      commTelnetProcessInbound_dest_length src state neg⟩
  · intro setup payload fuel hfuel
    exact decodeWebsocketTelnetPayload_fuel setup fuel _ payload hfuel (Nat.le_refl _)
  · intro setup src pos fuel paused hfuel
    exact refillLoop_fuel setup fuel _ pos src paused hfuel (Nat.le_refl _)

end Mudmux.Comm
