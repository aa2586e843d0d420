import Mudmux.Lib.Transducer

/-!
# `Mudmux.Comm.Telnet`: the inbound Telnet parser

The parser of `lib/comm/telnet.cpp`. `commTelnetProcessInbound` reads raw bytes, copies the
application bytes among them to its destination and notes the option commands and the bytes of a
subnegotiation in a `TelnetNegotiation`. It returns early at the IAC SE that ends a
subnegotiation, so a caller has to call it again for the rest of the input.

Between two calls the caller keeps the state only, as four bits of the slot's flags. The
negotiation record is the callers' own: both of them zero it before every call, and the parser
itself starts every call by setting the subnegotiation length back to zero.
-/

set_option autoImplicit false

namespace Mudmux.Comm

/-- A byte of the wire. -/
abbrev Byte := UInt8

/-- A string of bytes. -/
abbrev Bytes := List Byte

/-! ### Telnet command bytes and options -/

/-- End of subnegotiation. -/
def telnetSE : Byte := 240
/-- Start of subnegotiation. -/
def telnetSB : Byte := 250
def telnetWILL : Byte := 251
def telnetWONT : Byte := 252
def telnetDO : Byte := 253
def telnetDONT : Byte := 254
/-- Interpret as command; also the escape for a data byte 255. -/
def telnetIAC : Byte := 255

def TELOPT_ECHO : Byte := 1
def TELOPT_SGA : Byte := 3
def TELOPT_LINEMODE : Byte := 34

/-- The parser states `S_TELNET_*` kept in the low four bits of the slot flags. `unexpected`
stands for the nibble values above `S_TELNET_SUBNEG_IAC`, which the parser never produces. -/
inductive TelnetState where
  | data
  | iac
  | iacWill
  | iacWont
  | iacDo
  | iacDont
  | subneg
  | subnegIac
  | unexpected
  deriving DecidableEq, Repr, Inhabited

/-- `comm_telnet_negotiation_t`. The four option masks hold one bit per option. `suboptBuf` is
the used part of `subopt_buf`, so `sb_len` is its length. -/
structure TelnetNegotiation where
  will : BitVec 256
  doo : BitVec 256
  wont : BitVec 256
  dont : BitVec 256
  suboptBuf : Bytes
  deriving DecidableEq, Repr

namespace TelnetNegotiation

/-- The zeroed record both callers pass in. -/
def zero : TelnetNegotiation := ⟨0, 0, 0, 0, []⟩

/-- `sizeof(negotiation->subopt_buf)`. -/
def suboptCapacity : Nat := 1024

/-- The bit of an option in a mask: word `option >> 5`, bit `option & 31`. -/
def optionBit (option : Byte) : BitVec 256 := 1#256 <<< option.toNat

/-- `THEY_WILL`, `THEY_WONT`, `PLEASE_DO` and `PLEASE_DONT` on one of the masks. -/
def hasOption (mask : BitVec 256) (option : Byte) : Bool := mask.getLsbD option.toNat

/-- Note an option in `mask` and clear it in the mask of the opposite command. -/
def setOption (mask opposite : BitVec 256) (option : Byte) : BitVec 256 × BitVec 256 :=
  (mask ||| optionBit option, opposite &&& ~~~(optionBit option))

/-- Buffer one subnegotiation byte; a byte past the capacity is discarded. -/
def pushSubopt (neg : TelnetNegotiation) (byte : Byte) : TelnetNegotiation :=
  if neg.suboptBuf.length < suboptCapacity then
    { neg with suboptBuf := neg.suboptBuf ++ [byte] }
  else neg

end TelnetNegotiation

/-- What one iteration of the parser's loop does with a byte: the next state, the byte copied
to the destination if any, the negotiation record, and whether the byte ended a subnegotiation,
which makes the parser return. -/
structure TelnetStep where
  state : TelnetState
  out : Bytes
  neg : TelnetNegotiation
  finished : Bool := false

/-- The `switch (*state)` of the parser. -/
def telnetStep (state : TelnetState) (neg : TelnetNegotiation) (byte : Byte) : TelnetStep :=
  match state with
  | .data =>
    if byte = telnetIAC then { state := .iac, out := [], neg }
    else { state := .data, out := [byte], neg }
  | .iac =>
    if byte = telnetWILL then { state := .iacWill, out := [], neg }
    else if byte = telnetWONT then { state := .iacWont, out := [], neg }
    else if byte = telnetDO then { state := .iacDo, out := [], neg }
    else if byte = telnetDONT then { state := .iacDont, out := [], neg }
    else if byte = telnetSB then { state := .subneg, out := [], neg }
    else if byte = telnetIAC then { state := .data, out := [byte], neg }
    else { state := .data, out := [], neg } -- unknown command, ignored
  | .iacWill =>
    let m := TelnetNegotiation.setOption neg.will neg.wont byte
    { state := .data, out := [], neg := { neg with will := m.1, wont := m.2 } }
  | .iacWont =>
    let m := TelnetNegotiation.setOption neg.wont neg.will byte
    { state := .data, out := [], neg := { neg with wont := m.1, will := m.2 } }
  | .iacDo =>
    let m := TelnetNegotiation.setOption neg.doo neg.dont byte
    { state := .data, out := [], neg := { neg with doo := m.1, dont := m.2 } }
  | .iacDont =>
    let m := TelnetNegotiation.setOption neg.dont neg.doo byte
    { state := .data, out := [], neg := { neg with dont := m.1, doo := m.2 } }
  | .subneg =>
    if byte = telnetIAC then { state := .subnegIac, out := [], neg }
    else { state := .subneg, out := [], neg := neg.pushSubopt byte }
  | .subnegIac =>
    if byte = telnetSE then { state := .data, out := [], neg, finished := true }
    else if byte = telnetIAC then
      { state := .subneg, out := [], neg := neg.pushSubopt telnetIAC }
    else { state := .subneg, out := [], neg } -- unidentified IAC sequence, a no-op
  | .unexpected => { state := .data, out := [], neg }

/-- What `comm_telnet_process_inbound` leaves behind: the bytes written to the destination
(the return value is their number), `*src_consumed`, `*state` and `*negotiation`. -/
structure TelnetResult where
  dest : Bytes
  consumed : Nat
  state : TelnetState
  neg : TelnetNegotiation
  deriving DecidableEq, Repr

/-- The parser's loop over the source bytes. -/
def telnetLoop : Bytes → TelnetState → TelnetNegotiation → TelnetResult
  | [], state, neg => { dest := [], consumed := 0, state, neg }
  | byte :: rest, state, neg =>
    let s := telnetStep state neg byte
    if s.finished then { dest := s.out, consumed := 1, state := s.state, neg := s.neg }
    else
      let r := telnetLoop rest s.state s.neg
      { r with dest := s.out ++ r.dest, consumed := r.consumed + 1 }

/-- `comm_telnet_process_inbound`. -/
def commTelnetProcessInbound (src : Bytes) (state : TelnetState) (negotiation : TelnetNegotiation) :
    TelnetResult :=
  telnetLoop src state { negotiation with suboptBuf := [] }

/-! ### What every call guarantees its callers

These bounds are what lets a caller offer exactly as many destination bytes as source bytes. -/

/-- A step copies at most one byte. -/
theorem telnetStep_out_length (state : TelnetState) (neg : TelnetNegotiation) (byte : Byte) :
    (telnetStep state neg byte).out.length ≤ 1 := by
  cases state <;> simp only [telnetStep] <;> (repeat' split) <;> simp

variable (src : Bytes)

theorem telnetLoop_dest_length (state : TelnetState) (neg : TelnetNegotiation) :
    (telnetLoop src state neg).dest.length ≤ (telnetLoop src state neg).consumed := by
  induction src generalizing state neg with
  | nil => simp [telnetLoop]
  | cons byte rest ih =>
    have hout := telnetStep_out_length state neg byte
    simp only [telnetLoop]
    split
    · exact hout
    · have hrest := ih (telnetStep state neg byte).state (telnetStep state neg byte).neg
      simp only [List.length_append]
      omega

theorem telnetLoop_consumed_le (state : TelnetState) (neg : TelnetNegotiation) :
    (telnetLoop src state neg).consumed ≤ src.length := by
  induction src generalizing state neg with
  | nil => simp [telnetLoop]
  | cons byte rest ih =>
    simp only [telnetLoop]
    split
    · simp
    · have hrest := ih (telnetStep state neg byte).state (telnetStep state neg byte).neg
      simp only [List.length_cons]
      omega

/-- A call writes no more bytes than it consumes. -/
theorem commTelnetProcessInbound_dest_length (state : TelnetState) (neg : TelnetNegotiation) :
    (commTelnetProcessInbound src state neg).dest.length
      ≤ (commTelnetProcessInbound src state neg).consumed :=
  telnetLoop_dest_length src state _

/-- A call consumes no more bytes than it is given. -/
theorem commTelnetProcessInbound_consumed_le (state : TelnetState) (neg : TelnetNegotiation) :
    (commTelnetProcessInbound src state neg).consumed ≤ src.length :=
  telnetLoop_consumed_le src state _

/-- A call on a non-empty input consumes at least one byte. -/
theorem commTelnetProcessInbound_consumed_pos (state : TelnetState) (neg : TelnetNegotiation)
    (hsrc : src ≠ []) : 0 < (commTelnetProcessInbound src state neg).consumed := by
  cases src with
  | nil => exact absurd rfl hsrc
  | cons byte rest =>
    simp only [commTelnetProcessInbound, telnetLoop]
    split <;> simp

end Mudmux.Comm
