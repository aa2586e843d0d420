import Mudmux.Comm.Telnet
import Mudmux.Lib.LinearBuffer

/-!
# `Mudmux.Comm.Abstract`: the record of a communication slot

`comm_abstract_t` and what it is made of: the flag word, the buffer chains, the WebSocket decoder
state. A flag bit is a `Bool` field and each of the two state nibbles of the flag word is an
enumeration. `C_SOCKET_READABLE`, `C_SOCKET_WRITABLE` and the runtime's event interest only steer
when the event loop is woken and are left out.

A BIO is a pointer in the source; here `rbio` and `wbio` say whether it is set and `wbioFd`
whether `BIO_get_fd` finds a descriptor behind the write BIO.
-/

set_option autoImplicit false

namespace Mudmux.Comm

open Mudmux.Lib (LinearBuffer)

/-- `sizeof(inbound_buffer_s::buffer)` and `sizeof(outbound_buffer_s::buffer)`. -/
def bufferSize : Nat := 4096

/-- The WebSocket lifecycle states `WS_*`. -/
inductive WebSocketState where
  | handshake
  | ready
  | telnetPending
  | closeSent
  | closeReceived
  deriving DecidableEq, Repr, Inhabited

/-- `C_WEBSOCKET_IS_READY`: every state but the handshake. -/
def WebSocketState.isReady (s : WebSocketState) : Bool := s != .handshake

/-- The flag word of a slot. -/
structure Flags where
  closing : Bool := false
  socketListening : Bool := false
  lineInput : Bool := false
  clientEcho : Bool := false
  enableTelnet : Bool := false
  enableAnsi : Bool := false
  enableWebsocket : Bool := false
  enablePrompt : Bool := false
  invokedPrompt : Bool := false
  bufferedWrite : Bool := false
  tlsEstablished : Bool := false
  deferredInbound : Bool := false
  awaitingHook : Bool := false
  disconnectPending : Bool := false
  transportReady : Bool := false
  websocketState : WebSocketState := .handshake
  telnetState : TelnetState := .data
  deriving DecidableEq, Repr, Inhabited

/-- The bands of an inbound buffer. -/
inductive InboundBand where
  | data
  | subneg
  deriving DecidableEq, Repr

/-- The cells of a buffer, with its two cursors. -/
abbrev Cells := LinearBuffer Byte bufferSize

/-- `inbound_buffer_t`. -/
structure InboundBuffer where
  band : InboundBand
  buf : LinearBuffer Byte bufferSize
  deriving DecidableEq, Repr

/-- `inbound_buffer_s::reset`. -/
def InboundBuffer.fresh : InboundBuffer := ⟨.data, .empty⟩

/-- `outbound_buffer_t`. -/
abbrev OutboundBuffer := LinearBuffer Byte bufferSize

/-- `comm_websocket_state_t`. A fragmented message is in progress when `fragmentedOpcode` is
not zero. -/
structure WebSocketDecoder where
  fragmentedOpcode : Byte := 0
  fragmentedPayload : Bytes := []
  preferredProtocols : Bytes := []
  pendingWire : Bytes := []
  decodedInput : Bytes := []
  deriving DecidableEq, Repr, Inhabited

/-- `comm_abstract_s::caps`, the capabilities that some function reads. -/
structure ClientCapabilities where
  telnetLinemode : Bool := false
  telnetEcho : Bool := false
  deriving DecidableEq, Repr, Inhabited

/-- `comm_abstract_t`. -/
structure CommAbstract where
  rbio : Bool := false
  wbio : Bool := false
  wbioFd : Bool := true
  ssl : Bool := false
  inbound : List InboundBuffer := []
  outbound : List OutboundBuffer := []
  websocketUpgradeBarrier : List OutboundBuffer := []
  websocket : Option WebSocketDecoder := none
  generation : Nat := 0
  flags : Flags := {}
  caps : ClientCapabilities := {}
  deriving DecidableEq, Repr, Inhabited

namespace CommAbstract

/-- A slot is in use while it has a read or a write BIO (`resolve_slot_unlocked`). -/
def live (c : CommAbstract) : Bool := c.rbio || c.wbio

/-- The unread bytes of the data band, in order. -/
def inboundData (c : CommAbstract) : Bytes :=
  (c.inbound.filter fun b => b.band = .data).flatMap fun b => b.buf.data

/-- The bytes queued for the transport, in order. -/
def outboundData (c : CommAbstract) : Bytes := c.outbound.flatMap fun b => b.data

/-- Change the flag word. -/
def mapFlags (f : Flags → Flags) (c : CommAbstract) : CommAbstract := { c with flags := f c.flags }

end CommAbstract

/-! ### Hooks and results -/

/-- The registered hooks that belong to a slot. -/
inductive HookType where
  | connect
  | disconnect
  | messageInbound
  | messageOutbound
  | transportReady
  | prompt
  | telnetSubneg
  deriving DecidableEq, Repr

/-- One hook call of a slot with its payload. Telnet subnegotiation passes its option as the
message. -/
inductive HookCall where
  | connect
  | disconnect
  | messageInbound (data : Bytes)
  | messageOutbound (data : Bytes)
  | transportReady
  | prompt
  | telnetSubneg (option : Byte) (payload : Bytes)
  deriving DecidableEq, Repr

def HookCall.hookType : HookCall → HookType
  | .connect => .connect
  | .disconnect => .disconnect
  | .messageInbound _ => .messageInbound
  | .messageOutbound _ => .messageOutbound
  | .transportReady => .transportReady
  | .prompt => .prompt
  | .telnetSubneg _ _ => .telnetSubneg

/-- `mudmux_dispatch_result_t`. -/
inductive DispatchResult where
  | error
  | ok
  | queueFull
  | queued
  deriving DecidableEq, Repr

/-- `mudmux_dispatch_accepted`. -/
def DispatchResult.accepted (r : DispatchResult) : Bool := r = .ok || r = .queued

/-- `comm_process_result_t`. -/
inductive ProcessResult where
  | error
  | ok
  | closed
  | deferred
  deriving DecidableEq, Repr

end Mudmux.Comm
