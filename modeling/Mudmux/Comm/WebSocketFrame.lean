import Mudmux.Comm.Abstract

/-!
# `Mudmux.Comm.WebSocketFrame`: server frames and text validation

The parts of `lib/comm/websocket.cpp` that look at bytes only: the encoder of unmasked
server-to-client frames and the UTF-8 validation of text messages.
-/

set_option autoImplicit false

namespace Mudmux.Comm

/-! ### Opcodes -/

def opContinuation : Byte := 0x0
def opText : Byte := 0x1
def opBinary : Byte := 0x2
def opClose : Byte := 0x8
def opPing : Byte := 0x9
def opPong : Byte := 0xA

/-- The low `8 * count` bits of `size`, most significant byte first. -/
def bigEndian : Nat → Nat → Bytes
  | 0, _ => []
  | count + 1, size => UInt8.ofNat (size >>> (8 * count)) :: bigEndian count size

/-- `comm_websocket_encode_frame`. A payload is shorter than 2^64 bytes by its type, so only the
opcode can be refused. -/
def commWebsocketEncodeFrame (payload : Bytes) (opcode : Byte) : Option Bytes :=
  if opcode > 0x0f then none
  else
    let length : Bytes :=
      if payload.length ≤ 125 then [UInt8.ofNat payload.length]
      else if payload.length ≤ 0xffff then 126 :: bigEndian 2 payload.length
      else 127 :: bigEndian 8 payload.length
    some ((0x80 ||| opcode) :: length ++ payload)

/-- The lead byte's row of `is_valid_utf8`: the payload bits it carries and the number of
continuation bytes that follow. -/
def utf8Lead (first : Byte) : Option (Nat × Nat) :=
  if 0xc2 ≤ first ∧ first ≤ 0xdf then some ((first &&& 0x1f).toNat, 1)
  else if 0xe0 ≤ first ∧ first ≤ 0xef then some ((first &&& 0x0f).toNat, 2)
  else if 0xf0 ≤ first ∧ first ≤ 0xf4 then some ((first &&& 0x07).toNat, 3)
  else none

/-- The inner loop of `is_valid_utf8`: fold `count` continuation bytes into the code point. The
answer is `none` when a byte is missing or is not a continuation byte. -/
def utf8Continuation : Nat → Nat → Bytes → Option (Nat × Bytes)
  | 0, codepoint, rest => some (codepoint, rest)
  | _ + 1, _, [] => none
  | count + 1, codepoint, next :: rest =>
    if next &&& 0xc0 ≠ 0x80 then none
    else utf8Continuation count ((codepoint <<< 6) ||| (next &&& 0x3f).toNat) rest

/-- The checks on a decoded code point: shortest form, no surrogate, at most U+10FFFF. -/
def utf8CodepointRejected (codepoint count : Nat) : Bool :=
  (count == 1 && codepoint < 0x80) || (count == 2 && codepoint < 0x800) ||
    (count == 3 && codepoint < 0x10000) ||
    (0xd800 ≤ codepoint && codepoint ≤ 0xdfff) || codepoint > 0x10ffff

/-- The outer loop of `is_valid_utf8`, one character an iteration. -/
def isValidUtf8Loop : Nat → Bytes → Bool
  | _, [] => true
  | 0, _ :: _ => false
  | fuel + 1, first :: rest =>
    if first ≤ 0x7f then isValidUtf8Loop fuel rest
    else
      match utf8Lead first with
      | none => false
      | some (bits, count) =>
        match utf8Continuation count bits rest with
        | none => false
        | some (codepoint, rest) =>
          if utf8CodepointRejected codepoint count then false else isValidUtf8Loop fuel rest

/-- `is_valid_utf8`. Every character takes at least one byte, so the length is enough fuel. -/
def isValidUtf8 (value : Bytes) : Bool := isValidUtf8Loop value.length value

end Mudmux.Comm
