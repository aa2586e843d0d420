import Mudmux.Comm.WebSocketFrame

/-!
# `Mudmux.Comm.Outbound`: the outbound queue of a slot

The functions of `lib/comm/outbound.cpp` that work on one slot record: queueing bytes, framing
application output, draining the queue into the transport. The pool of recycled buffers is left
out: an allocation gives an empty buffer, and a buffer that is freed is not seen again.
-/

set_option autoImplicit false

namespace Mudmux.Comm

open Mudmux.Lib (LinearBuffer)

/-- `MAX_OUTBOUND_BUFFERS_PER_SLOT`. -/
def maxOutboundBuffers : Nat := 16

/-! ### Queueing bytes -/

/-- The fill loop of `comm_buffered_write_raw_comm` and `append_websocket_upgrade_barrier`, from the
tail buffer on. `left` is how many more buffers may be allocated; what does not fit into them is
dropped. -/
def fillOutbound : Nat → OutboundBuffer → Bytes → List OutboundBuffer
  | left, obb, buf =>
    if h : buf.length ≤ obb.room then [obb.append buf h]
    else
      let filled := obb.append (buf.take obb.room) (List.length_take_le _ _)
      match left with
      | 0 => [filled]
      | left + 1 => filled :: fillOutbound left .empty (buf.drop obb.room)

/-- Apply `f` to the last buffer of a non-empty chain. -/
def onTail (f : OutboundBuffer → List OutboundBuffer) : List OutboundBuffer → List OutboundBuffer
  | [] => []
  | [obb] => f obb
  | obb :: rest => obb :: onTail f rest

/-- `comm_buffered_write_raw_comm`. The walk to the tail gives up as soon as it has counted
`MAX_OUTBOUND_BUFFERS_PER_SLOT` buffers, so a chain of that many takes nothing more. -/
def commBufferedWriteRaw (comm : CommAbstract) (buf : Bytes) : CommAbstract :=
  if !comm.wbio || buf.isEmpty then comm
  else if buf.length > bufferSize * maxOutboundBuffers then comm
  else
    let chain := if comm.outbound.isEmpty then [.empty] else comm.outbound
    if chain.length ≥ maxOutboundBuffers then comm
    else
      { comm with
          outbound := onTail (fun obb => fillOutbound (maxOutboundBuffers - chain.length) obb buf)
            chain
          flags := { comm.flags with bufferedWrite := true } }

/-- `append_websocket_upgrade_barrier`: the same chain discipline on the upgrade barrier. -/
def appendWebsocketUpgradeBarrier (comm : CommAbstract) (data : Bytes) : CommAbstract :=
  if data.isEmpty then comm
  else
    let chain :=
      if comm.websocketUpgradeBarrier.isEmpty then [.empty] else comm.websocketUpgradeBarrier
    if chain.length ≥ maxOutboundBuffers then { comm with websocketUpgradeBarrier := chain }
    else
      { comm with
          websocketUpgradeBarrier :=
            onTail (fun tail => fillOutbound (maxOutboundBuffers - chain.length) tail data)
              chain }

/-- `normalize_telnet_newlines`. After a CR the loop looks at the next byte twice: for an LF, and
then, past that LF, for a NUL. -/
def normalizeTelnetNewlines : Bytes → Bytes
  | [] => []
  | 13 :: 10 :: 0 :: rest => 13 :: 10 :: 10 :: normalizeTelnetNewlines rest
  | 13 :: 10 :: rest => 13 :: 10 :: normalizeTelnetNewlines rest
  | 13 :: 0 :: rest => 13 :: 10 :: normalizeTelnetNewlines rest
  | 10 :: rest => 13 :: 10 :: normalizeTelnetNewlines rest
  | ch :: rest => ch :: normalizeTelnetNewlines rest

/-- `comm_buffered_write_comm_impl`. -/
def commBufferedWriteImpl (normalize : Bool) (comm : CommAbstract) (buf : Bytes) : CommAbstract :=
  if buf.isEmpty then comm
  else
    let buf :=
      if normalize && comm.flags.enableTelnet then normalizeTelnetNewlines buf else buf
    let state := comm.flags.websocketState
    if state == .closeSent then comm -- no data frame after Close
    else if comm.flags.enableWebsocket && !state.isReady then
      match commWebsocketEncodeFrame buf opBinary with
      | none => comm
      | some frame => appendWebsocketUpgradeBarrier comm frame
    else if state.isReady then
      match commWebsocketEncodeFrame buf opBinary with
      | none => comm
      | some frame => commBufferedWriteRaw comm frame
    else commBufferedWriteRaw comm buf

/-- `comm_free_outbound_buffers`. -/
def commFreeOutboundBuffers (comm : CommAbstract) : CommAbstract :=
  { comm with outbound := [], websocketUpgradeBarrier := [] }

/-! ### Draining the queue -/

/-- What the transport answers to one `BIO_write` or `SSL_write_ex`: the number of bytes it took,
zero for a failure, and whether a failed write may be retried. -/
structure WriteAnswer where
  written : Nat
  shouldRetry : Bool := true
  deriving DecidableEq, Repr

/-- How the write loop of `comm_flush` ended. -/
inductive DrainEnd where
  | drained
  | blocked
  | failed
  deriving DecidableEq, Repr

/-- What the write loop of `comm_flush` leaves: the chain, the bytes the transport took and how
the loop ended. -/
structure DrainResult where
  chain : List OutboundBuffer
  taken : Bytes
  result : DrainEnd
  deriving DecidableEq, Repr

/-- Free the leading buffers that hold no more data. -/
def dropDrained : List OutboundBuffer → List OutboundBuffer
  | [] => []
  | obb :: rest => if obb.data.isEmpty then dropDrained rest else obb :: rest

/-- The write loop of `comm_flush`, one transport answer a write. A transport that has no more
answers blocks. -/
def drainOutbound : List WriteAnswer → List OutboundBuffer → DrainResult
  | answers, chain =>
    match dropDrained chain with
    | [] => { chain := [], taken := [], result := .drained }
    | obb :: rest =>
      match answers with
      | [] => { chain := obb :: rest, taken := [], result := .blocked }
      | answer :: answers =>
        if answer.written = 0 then
          if answer.shouldRetry then { chain := obb :: rest, taken := [], result := .blocked }
          else { chain := [], taken := [], result := .failed }
        else
          let r := drainOutbound answers (obb.consume answer.written :: rest)
          { r with taken := obb.data.take answer.written ++ r.taken }

/-- The write loop of `comm_flush` on a slot. A fatal error drops everything queued, and while
closing it also ends the TLS session. -/
def flushOutbound (comm : CommAbstract) (answers : List WriteAnswer) : CommAbstract × DrainResult :=
  let r := drainOutbound answers comm.outbound
  match r.result with
  | .failed =>
    let comm := commFreeOutboundBuffers comm
    let flags := { comm.flags with bufferedWrite := false }
    let flags :=
      if comm.ssl && flags.closing then { flags with tlsEstablished := false } else flags
    ({ comm with flags }, r)
  | _ => ({ comm with outbound := r.chain }, r)

/-- The release of the upgrade barrier in `comm_flush`: its chain becomes the queue. -/
def releaseUpgradeBarrier (comm : CommAbstract) : CommAbstract :=
  { comm with
      outbound := comm.websocketUpgradeBarrier
      websocketUpgradeBarrier := []
      flags := { comm.flags with bufferedWrite := true } }

/-- A control frame, encoded and queued. -/
def writeControlFrame (comm : CommAbstract) (opcode : Byte) (payload : Bytes) : CommAbstract :=
  match commWebsocketEncodeFrame payload opcode with
  | none => comm
  | some frame => commBufferedWriteRaw comm frame

/-- `comm_websocket_queue_close` on a slot in use. -/
def commWebsocketQueueClose (comm : CommAbstract) (payload : Bytes) : CommAbstract :=
  match comm.flags.websocketState with
  | .closeSent | .closeReceived => comm
  | _ =>
    (writeControlFrame comm opClose payload).mapFlags fun flags =>
      { flags with websocketState := .closeSent }

end Mudmux.Comm
