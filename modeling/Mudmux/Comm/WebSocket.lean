import Mudmux.Comm.Inbound
import Mudmux.Comm.InputMode

/-!
# `Mudmux.Comm.WebSocket`: decoding client frames

`comm_websocket_process_inbound` and `comm_websocket_queue_close` of `lib/comm/websocket.cpp`.
`websocketFrame` is one iteration of the decoder's loop: it looks at the first frame of the wire
bytes and says what becomes of it. The loop stops at a frame that is not complete, at the message
limit, and at a frame that is refused or is a Close, in which case nothing counts as consumed.

The payloads of the Pings met on the way are collected, and their Pong frames are queued behind the
loop in the same order; the loop does not look at the outbound queue.
-/

set_option autoImplicit false

namespace Mudmux.Comm

open Mudmux.Lib.Program (effect)

/-- `kMaxMessageBytes`. -/
def maxMessageBytes : Nat := 64 * 1024

/-- The value of bytes, most significant first. -/
def bigEndianValue (bytes : Bytes) : Nat := bytes.foldl (fun acc b => acc * 256 + b.toNat) 0

/-- The message in pieces: the opcode it started with, zero for none, and its bytes so far. -/
structure Fragment where
  opcode : Byte := 0
  payload : Bytes := []
  deriving DecidableEq, Repr, Inhabited

/-- What the decoder does with the frame at the front of the wire bytes. A frame that is passed
has its length on the wire, and may ask for a Pong or complete a message. -/
inductive FrameStep where
  | incomplete
  | reject (closeCode : Nat) (fragment : Fragment)
  | close (payload : Bytes)
  | pass (size : Nat) (fragment : Fragment) (pong : Option Bytes) (message : Option Bytes)
  deriving DecidableEq, Repr

/-- The payload behind the mask key. -/
def unmask (mask payload : Bytes) : Bytes :=
  payload.mapIdx fun i b => b ^^^ mask.getD (i % 4) 0

/-- The part of the loop behind the unmasking: control frames, continuations and data frames. -/
def websocketPayload (fragment : Fragment) (fin : Bool) (opcode : Byte) (payload : Bytes)
    (size : Nat) : FrameStep :=
  if opcode = opClose then
    if payload.length = 1 then .reject 1002 fragment else .close payload
  else if opcode = opPing then
    .pass size fragment (some payload) none
  else if opcode = opPong then .pass size fragment none none
  else if opcode = opContinuation then
    if fragment.opcode = 0 then .reject 1002 fragment
    else
      let fragment := { fragment with payload := fragment.payload ++ payload }
      if fragment.payload.length > maxMessageBytes then .reject 1009 fragment
      else if fin then
        if fragment.opcode = opText && !isValidUtf8 fragment.payload then .reject 1007 fragment
        else .pass size {} none (some fragment.payload)
      else .pass size fragment none none
  else if fragment.opcode ≠ 0 then .reject 1002 fragment -- text or binary
  else if fin then
    if opcode = opText && !isValidUtf8 payload then .reject 1007 fragment
    else .pass size fragment none (some payload)
  else .pass size { opcode, payload } none none

/-- One iteration of the decoder's loop on the wire bytes from `offset` on. -/
def websocketFrame (fragment : Fragment) (wire : Bytes) : FrameStep :=
  match wire with
  | first :: second :: rest =>
    let fin := first &&& 0x80 ≠ 0
    let opcode := first &&& 0x0f
    if first &&& 0x70 ≠ 0 || second &&& 0x80 = 0 || (3 ≤ opcode && opcode ≤ 7) || 0x0b ≤ opcode then
      .reject 1002 fragment
    else
      let short := (second &&& 0x7f).toNat
      let extended := if short = 126 then 2 else if short = 127 then 8 else 0
      if rest.length < extended then .incomplete
      else if short = 127 && rest.headD 0 &&& 0x80 ≠ 0 then .reject 1002 fragment
      else
        let payloadSize := if extended = 0 then short else bigEndianValue (rest.take extended)
        let body := rest.drop extended
        if body.length < 4 then .incomplete
        else if (opcode &&& 0x08 ≠ 0 && (!fin || payloadSize > 125))
            || payloadSize > maxMessageBytes then .reject 1009 fragment
        else if body.length < 4 + payloadSize then .incomplete
        else
          websocketPayload fragment fin opcode
            (unmask (body.take 4) ((body.drop 4).take payloadSize))
            (2 + extended + 4 + payloadSize)
  | _ => .incomplete

/-- How a decoder call ended: with so many bytes consumed, at a refused frame, at a Close. -/
inductive DecodeVerdict where
  | accepted (consumed : Nat)
  | rejected (closeCode : Nat)
  | closed (payload : Bytes)
  deriving DecidableEq, Repr

/-- What a decoder call leaves: the fragment in progress, the messages, the payloads of the Pongs
it queues and the verdict. -/
structure DecodeResult where
  fragment : Fragment
  messages : List Bytes
  pongs : List Bytes
  verdict : DecodeVerdict
  deriving DecidableEq, Repr

/-- The decoder's loop. `room` is the number of messages that may still be produced, and `offset`
the bytes consumed so far. -/
def websocketLoop : Nat → Nat → Fragment → Bytes → Nat → DecodeResult
  | 0, _, fragment, _, offset => ⟨fragment, [], [], .accepted offset⟩
  | fuel + 1, room, fragment, wire, offset =>
    match websocketFrame fragment wire with
    | .incomplete => ⟨fragment, [], [], .accepted offset⟩
    | .reject closeCode fragment => ⟨fragment, [], [], .rejected closeCode⟩
    | .close payload => ⟨fragment, [], [], .closed payload⟩
    | .pass size fragment pong message =>
      if message.isSome && room ≤ 1 then
        ⟨fragment, message.toList, pong.toList, .accepted (offset + size)⟩
      else
        let r := websocketLoop fuel (room - message.toList.length) fragment (wire.drop size)
          (offset + size)
        { r with messages := message.toList ++ r.messages, pongs := pong.toList ++ r.pongs }

/-- The decoder as a function of the fragment in progress. Every frame takes at least one byte,
so the length is enough fuel. -/
def websocketDecode (maxMessages : Nat) (fragment : Fragment) (wire : Bytes) : DecodeResult :=
  websocketLoop wire.length maxMessages fragment wire 0

/-! ### On a slot -/

/-- The fragment in progress in a decoder state. -/
def WebSocketDecoder.fragment (w : WebSocketDecoder) : Fragment :=
  ⟨w.fragmentedOpcode, w.fragmentedPayload⟩

/-- Queue the Pong frames. -/
def sendPongs : List Bytes → Code Unit
  | [] => pure ()
  | payload :: rest => do
    effect (.pong payload)
    sendPongs rest

/-- `comm_websocket_process_inbound`: the messages and the verdict. -/
def commWebsocketProcessInbound (wire : Bytes) (maxMessages : Nat) :
    Code (List Bytes × DecodeVerdict) := do
  let comm ← commDeref
  let websocket := comm.websocket.getD {}
  let r := websocketDecode maxMessages websocket.fragment wire
  setComm
    { comm with
        websocket := some
          { websocket with
              fragmentedOpcode := r.fragment.opcode
              fragmentedPayload := r.fragment.payload } }
  sendPongs r.pongs
  match r.verdict with
  | .closed payload => do
    effect (.queueClose payload)
    modifyFlags fun flags => { flags with websocketState := .closeReceived }
  | _ => pure ()
  pure (r.messages, r.verdict)

end Mudmux.Comm
