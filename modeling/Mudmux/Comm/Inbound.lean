import Mudmux.Comm.Slot
import Mudmux.Comm.Http

/-!
# `Mudmux.Comm.Inbound`: the inbound buffer chain and its scanners

The functions of `lib/comm/inbound.cpp` that only look at buffers: peeking and consuming, and the
two scanners that find the next line and the next character sequence. A position in a buffer is
counted from its read cursor.
-/

set_option autoImplicit false

namespace Mudmux.Comm

open Mudmux.Lib (LinearBuffer)

/-- `std::numeric_limits<size_t>::max()`. -/
def sizeMax : Nat := 2 ^ 64 - 1

/-! ### Peeking and consuming -/

/-- The copy loop of `comm_copy_inbound_data_prefix`. -/
def copyInboundData : Nat → List InboundBuffer → Bytes
  | _, [] => []
  | limit, ibb :: rest =>
    if limit = 0 then []
    else if ibb.band ≠ .data || ibb.buf.data.isEmpty then copyInboundData limit rest
    else
      let chunk := min ibb.buf.data.length limit
      ibb.buf.data.take chunk ++ copyInboundData (limit - chunk) rest

/-- `comm_copy_inbound_data_prefix`. -/
def commCopyInboundDataPrefix (comm : CommAbstract) (limit : Nat) : Bytes :=
  copyInboundData limit comm.inbound

/-- The loop of `comm_consume_inbound_data`. Buffers of other bands and empty ones are freed on
the way. -/
def consumeInboundData : Nat → List InboundBuffer → List InboundBuffer
  | _, [] => []
  | bytes, head :: rest =>
    if bytes = 0 then head :: rest
    else if head.band ≠ .data || head.buf.data.isEmpty then consumeInboundData bytes rest
    else
      let consume := min head.buf.data.length bytes
      if consume = head.buf.data.length then consumeInboundData (bytes - consume) rest
      else { head with buf := head.buf.consume consume } :: rest

/-- `comm_consume_inbound_data`. -/
def commConsumeInboundData (comm : CommAbstract) (bytes : Nat) : CommAbstract :=
  { comm with inbound := consumeInboundData bytes comm.inbound }

/-- `comm_free_inbound_buffers`. -/
def commFreeInboundBuffers (comm : CommAbstract) : CommAbstract := { comm with inbound := [] }

/-- `comm_websocket_has_pending_input`. -/
def commWebsocketHasPendingInput (comm : CommAbstract) : Bool :=
  match comm.websocket with
  | none => false
  | some w =>
    w.fragmentedOpcode != 0 || !w.fragmentedPayload.isEmpty || !w.pendingWire.isEmpty
      || !w.decodedInput.isEmpty

/-- `_comm_has_pending_inbound`. -/
def commHasPendingInbound (comm : CommAbstract) : Bool :=
  comm.flags.deferredInbound || comm.inbound.any (fun ibb => !ibb.buf.data.isEmpty)
    || commWebsocketHasPendingInput comm

/-- `_skip_non_data_head_buffers`. -/
def skipNonDataHeadBuffers : List InboundBuffer → List InboundBuffer
  | [] => []
  | ibb :: rest => if ibb.band ≠ .data then skipNonDataHeadBuffers rest else ibb :: rest

/-- `_recycle_current_inbound_buffer`: the head, reset, goes to the tail of the chain. -/
def recycleCurrentInboundBuffer (chain : List InboundBuffer) : List InboundBuffer :=
  match chain with
  | [] => []
  | _ :: rest => skipNonDataHeadBuffers (rest ++ [.fresh])

/-! ### Filling -/

/-- The buffer a refill starts at: the first empty one that has a successor, or the last. -/
def refillPosition : List InboundBuffer → Nat
  | [] => 0
  | [_] => 0
  | ibb :: rest => if ibb.buf.data.isEmpty then 0 else refillPosition rest + 1

/-- What the fill loop does to a buffer before using it: an empty one is reset to the front, and
one whose write cursor is at the end is compacted. -/
def prepareInbound (ibb : InboundBuffer) : InboundBuffer :=
  let buf := if ibb.buf.data.isEmpty then LinearBuffer.empty else ibb.buf
  let buf := if buf.stop = bufferSize && buf.start > 0 then buf.compact else buf
  { ibb with buf }

/-- The next data buffer from position `pos` on, with every buffer passed on the way and that
buffer itself prepared. Buffers of other bands are skipped. -/
def seekData : Nat → List InboundBuffer → Nat × List InboundBuffer
  | pos, [] => (pos, [])
  | 0, ibb :: rest =>
    let ibb := prepareInbound ibb
    if ibb.band = .data then (0, ibb :: rest)
    else
      let r := seekData 0 rest
      (r.1 + 1, ibb :: r.2)
  | pos + 1, ibb :: rest =>
    let r := seekData pos rest
    (r.1 + 1, ibb :: r.2)

/-! ### The line scanner -/

/-- The bytes that end a line. -/
def isTerminator (b : Byte) : Bool := b = 13 || b = 10 || b = 0

/-- Overwrite the cells from `first` up to `last` with NUL. -/
def zeroCells (first last : Nat) (data : Bytes) : Bytes :=
  data.mapIdx fun i b => if first ≤ i && i < last then 0 else b

@[simp] theorem length_zeroCells (first last : Nat) (data : Bytes) :
    (zeroCells first last data).length = data.length := by
  simp [zeroCells]

/-- A line that `_find_newline_and_strip` found: the buffer with its read cursor at the stripped
line, the length of that line, and how far behind the read cursor the next line begins. -/
structure LineFound where
  buf : LinearBuffer Byte bufferSize
  lineLen : Nat
  next : Nat
  deriving DecidableEq, Repr

/-- The line handed to the hook. -/
def LineFound.line (f : LineFound) : Bytes := f.buf.data.take f.lineLen

/-- The end of `_find_newline_and_strip`: white space is stripped from both ends of the line in
front of `lineEnd`. -/
def stripLine (ibb : LinearBuffer Byte bufferSize) (lineEnd next : Nat) : LineFound :=
  let lead := ((ibb.data.take lineEnd).takeWhile isSpace).length
  let start := ibb.consume lead
  let kept := ((start.data.take (lineEnd - lead)).reverse.dropWhile isSpace).length
  { buf := start.overwrite (zeroCells kept (lineEnd - lead) start.data) (length_zeroCells _ _ _)
    lineLen := kept
    next := next - lead }

/-- `_find_newline_and_strip`. -/
def findNewlineAndStrip (ibb : LinearBuffer Byte bufferSize) : Option LineFound :=
  match ibb.data.findIdx? isTerminator with
  | none => none
  | some i =>
    let cell (k : Nat) : Byte := ibb.data.getD k 1
    let pair := cell i = 13 && i + 1 < ibb.data.length && (cell (i + 1) = 10 || cell (i + 1) = 0)
    let next := if pair then i + 2 else i + 1
    let lineEnd :=
      if !pair && (cell i = 10 || cell i = 0) && i > 0 && cell (i - 1) = 13 then i - 1 else i
    let zeroed := zeroCells lineEnd (lineEnd + 1)
      (if pair then zeroCells (i + 1) (i + 2) ibb.data else ibb.data)
    some (stripLine (ibb.overwrite zeroed (by simp only [zeroed]; split <;> simp)) lineEnd next)

/-! ### The character scanner -/

/-- A parameter byte of an ANSI control sequence: a digit or a semicolon. -/
def isAnsiParameter (b : Byte) : Bool := (48 ≤ b && b ≤ 57) || b = 59

/-- A final byte of an ANSI control sequence: a letter or a tilde. -/
def isAnsiFinal (b : Byte) : Bool := (65 ≤ b && b ≤ 90) || (97 ≤ b && b ≤ 122) || b = 126

/-- The multibyte branch of `_find_char_input_sequence`: an invalid byte counts as one. -/
def multibyteLength (setup : Setup) (data : Bytes) : Option Nat :=
  match setup.mbrlen data with
  | .incomplete => none
  | .invalid => some 1
  | .complete length => some length

/-- `_find_char_input_sequence`: the length of the next character sequence. -/
def findCharInputSequence (setup : Setup) (ansi : Bool) (data : Bytes) : Option Nat :=
  match data with
  | [] => none
  | first :: rest =>
    if ansi && first = 27 then
      match rest with
      | [] => none
      | 91 :: params =>
        let count := (params.takeWhile isAnsiParameter).length
        match params.drop count with
        | [] => none
        | last :: _ => if isAnsiFinal last then some (count + 3) else some 1
      | _ => multibyteLength setup data
    else multibyteLength setup data

end Mudmux.Comm
