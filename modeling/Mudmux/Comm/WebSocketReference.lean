import Mudmux.Comm.WebSocket
import Mudmux.Lib.FrameReader

/-!
# `Mudmux.Comm.WebSocketReference`: the frame grammar a client speaks

A decoder of client frames in its own terms, to compare `comm_websocket_process_inbound` with. It is
not translated from the source: header fields are quotients and remainders of bytes, a frame has a
kind and not an opcode, and there is no offset, no message limit and no pending buffer.

A frame is judged by what is there of it. The two header bytes, the length field, the mask key and
the payload arrive in this order, and a fault shows as soon as the part it is in has arrived; faults
of size wait for the mask key.
-/

set_option autoImplicit false

namespace Mudmux.Comm

open Mudmux.Lib

/-- What is wrong with a client frame. -/
inductive Violation where
  | reservedBits
  | unmasked
  | reservedOpcode
  | lengthTopBit
  | fragmentedControl
  | longControl
  | longPayload
  | orphanContinuation
  | interleavedMessage
  | longMessage
  | invalidText
  | shortClose
  deriving DecidableEq, Repr

/-- The code of the Close frame that answers a violation. -/
def Violation.closeCode : Violation → Nat
  | fragmentedControl | longControl | longPayload | longMessage => 1009
  | invalidText => 1007
  | _ => 1002

/-- Why decoding ends: a frame is refused, or the client closes. -/
inductive ReferenceEnd where
  | refused (violation : Violation)
  | closed (payload : Bytes)
  deriving DecidableEq, Repr

/-! ### Frames -/

inductive FrameKind where
  | continuation | text | binary | close | ping | pong
  deriving DecidableEq, Repr

/-- The kind an opcode stands for; the others are reserved. -/
def FrameKind.ofOpcode : Nat → Option FrameKind
  | 0 => some continuation
  | 1 => some text
  | 2 => some binary
  | 8 => some close
  | 9 => some ping
  | 10 => some pong
  | _ => none

def FrameKind.isControl : FrameKind → Bool
  | close | ping | pong => true
  | continuation | text | binary => false

/-- A frame with its payload in the clear. -/
structure ClientFrame where
  fin : Bool
  kind : FrameKind
  payload : Bytes
  deriving DecidableEq, Repr

/-- What is at the front of the stream: a part of a frame, a faulty frame, or a frame of so many
bytes. -/
inductive FrameParse where
  | unfinished
  | faulty (violation : Violation)
  | frame (size : Nat) (client : ClientFrame)
  deriving DecidableEq, Repr

/-- The payload length and the size of the field behind the two header bytes that holds it, if it has
arrived. -/
def payloadLength (short : Nat) (rest : Bytes) : Option (Nat × Nat) :=
  let size := if short = 126 then 2 else if short = 127 then 8 else 0
  if rest.length < size then none
  else if size = 0 then some (short, 0)
  else some (Nat.ofDigits 256 ((rest.take size).map UInt8.toNat).reverse, size)

/-- The part of a frame from the mask key on. -/
def parseBody (fin : Bool) (kind : FrameKind) (length headerSize : Nat) : Bytes → FrameParse
  | k₀ :: k₁ :: k₂ :: k₃ :: body =>
    if kind.isControl && !fin then .faulty .fragmentedControl
    else if kind.isControl && 125 < length then .faulty .longControl
    else if 65536 < length then .faulty .longPayload
    else if body.length < length then .unfinished
    else
      .frame (headerSize + 4 + length) ⟨fin, kind, unmask [k₀, k₁, k₂, k₃] (body.take length)⟩
  | _ => .unfinished

/-- The frame at the front of the stream. -/
def parseClientFrame : Bytes → FrameParse
  | first :: second :: rest =>
    if first.toNat / 16 % 8 ≠ 0 then .faulty .reservedBits
    else if second.toNat < 128 then .faulty .unmasked
    else
      match FrameKind.ofOpcode (first.toNat % 16) with
      | none => .faulty .reservedOpcode
      | some kind =>
        match payloadLength (second.toNat % 128) rest with
        | none => .unfinished
        | some (length, size) =>
          if 2 ^ 63 ≤ length then .faulty .lengthTopBit
          else parseBody (128 ≤ first.toNat) kind length (2 + size) (rest.drop size)
  | _ => .unfinished

/-! ### Messages -/

/-- A message of which not all frames have arrived. -/
structure OpenMessage where
  text : Bool
  payload : Bytes
  deriving DecidableEq, Repr

/-- The messages handed on and the payloads of the Pongs sent, in their orders. -/
structure Delivered where
  messages : List Bytes := []
  pongs : List Bytes := []
  deriving DecidableEq, Repr

instance : Monoid Delivered where
  one := {}
  mul d d' := ⟨d.messages ++ d'.messages, d.pongs ++ d'.pongs⟩
  one_mul _ := rfl
  mul_one d := by cases d; simp [HMul.hMul, OfNat.ofNat]
  mul_assoc d d' d'' := by simp [HMul.hMul]

/-- A message up to a data frame: refused if it is too long, kept open, or complete. -/
def extendMessage (size : Nat) (fin : Bool) (message : OpenMessage) :
    Reading (Option OpenMessage) Delivered ReferenceEnd :=
  if 65536 < message.payload.length then .halt (.refused .longMessage)
  else if !fin then .frame size {} (some message)
  else if message.text && !isValidUtf8 message.payload then .halt (.refused .invalidText)
  else .frame size { messages := [message.payload] } none

/-- What a frame of `size` bytes means, given the message that is open. -/
def deliver (size : Nat) (opened : Option OpenMessage) (frame : ClientFrame) :
    Reading (Option OpenMessage) Delivered ReferenceEnd :=
  match frame.kind, opened with
  | .close, _ =>
    if frame.payload.length = 1 then .halt (.refused .shortClose)
    else .halt (.closed frame.payload)
  | .ping, _ => .frame size { pongs := [frame.payload] } opened
  | .pong, _ => .frame size {} opened
  | .continuation, none => .halt (.refused .orphanContinuation)
  | .continuation, some message =>
    extendMessage size frame.fin { message with payload := message.payload ++ frame.payload }
  | .text, none => extendMessage size frame.fin ⟨true, frame.payload⟩
  | .binary, none => extendMessage size frame.fin ⟨false, frame.payload⟩
  | .text, some _ => .halt (.refused .interleavedMessage)
  | .binary, some _ => .halt (.refused .interleavedMessage)

/-- What the front of the stream means. -/
def FrameParse.meaning (opened : Option OpenMessage) :
    FrameParse → Reading (Option OpenMessage) Delivered ReferenceEnd
  | unfinished => .more
  | faulty violation => .halt (.refused violation)
  | frame size client => deliver size opened client

/-- The reference decoder reads frames one by one with the message that is open as its state. -/
def referenceReader : FrameReader (Option OpenMessage) Byte Delivered ReferenceEnd :=
  fun opened stream => (parseClientFrame stream).meaning opened

end Mudmux.Comm
