import Mudmux.Comm.WebSocketReference

/-!
# `Mudmux.Proofs.WebSocket`: the frame decoder against the grammar

The reference reader is lawful: it takes whole frames off the front, and what it says of some bytes
stays so when more arrive. `agrees_websocketFrame` compares the decoder's loop body with it, case by
case. A call of the decoder then reads frames up to its message limit (`decoderCall_implements`), and
the library's theorem makes the caller's loop over any arrivals one decoding of the whole stream.
-/

set_option autoImplicit false

namespace Mudmux.Comm

open Mudmux.Lib

/-! ### The reference is lawful -/

variable {length size : Nat}

theorem payloadLength_spec {short : Nat} {rest : Bytes}
    (h : payloadLength short rest = some (length, size)) :
    size ≤ rest.length ∧ ∀ x, payloadLength short (rest ++ x) = some (length, size) := by
  simp only [payloadLength] at h ⊢
  generalize (if short = 126 then 2 else if short = 127 then 8 else 0) = field at h ⊢
  split at h
  · cases h
  · next hlen =>
      have hle : field ≤ rest.length := by omega
      refine ⟨?_, fun x => ?_⟩
      · split at h <;> cases h <;> omega
      · rw [if_neg (by rw [List.length_append]; omega), List.take_append_of_le_length hle]
        exact h

theorem parseBody_append {fin : Bool} {kind : FrameKind} {headerSize : Nat} {body : Bytes}
    (x : Bytes) (h : parseBody fin kind length headerSize body ≠ .unfinished) :
    parseBody fin kind length headerSize (body ++ x) = parseBody fin kind length headerSize body := by
  match body with
  | k₀ :: k₁ :: k₂ :: k₃ :: body =>
    simp only [parseBody, List.cons_append] at h ⊢
    split
    · rfl
    split
    · rfl
    split
    · rfl
    next h₁ h₂ h₃ =>
    rw [if_neg h₁, if_neg h₂, if_neg h₃] at h
    by_cases hshort : body.length < length
    · rw [if_pos hshort] at h
      exact absurd rfl h
    · rw [if_neg hshort, if_neg (by rw [List.length_append]; omega),
        List.take_append_of_le_length (by omega)]
  | [] => exact absurd rfl h
  | [_] => exact absurd rfl h
  | [_, _] => exact absurd rfl h
  | [_, _, _] => exact absurd rfl h

theorem parseBody_size {fin : Bool} {kind : FrameKind} {headerSize : Nat} {body : Bytes}
    {frame : ClientFrame} (h : parseBody fin kind length headerSize body = .frame size frame) :
    0 < size ∧ size ≤ headerSize + body.length ∧ frame.payload.length ≤ 65536 := by
  match body with
  | k₀ :: k₁ :: k₂ :: k₃ :: body =>
    simp only [parseBody] at h
    split at h
    · cases h
    split at h
    · cases h
    split at h
    · cases h
    split at h
    · cases h
    next hlong hshort =>
    cases h
    simp only [List.length_cons, unmask, List.length_mapIdx, List.length_take]
    omega
  | [] => cases h
  | [_] => cases h
  | [_, _] => cases h
  | [_, _, _] => cases h

variable {stream : Bytes}

theorem parseClientFrame_append (x : Bytes) (h : parseClientFrame stream ≠ .unfinished) :
    parseClientFrame (stream ++ x) = parseClientFrame stream := by
  match stream with
  | [] => exact absurd rfl h
  | [_] => exact absurd rfl h
  | first :: second :: rest =>
    simp only [parseClientFrame, List.cons_append] at h ⊢
    split
    · rfl
    split
    · rfl
    next h₁ h₂ =>
    rw [if_neg h₁, if_neg h₂] at h
    cases hkind : FrameKind.ofOpcode (first.toNat % 16) with
    | none => rfl
    | some kind =>
      simp only [hkind] at h ⊢
      cases hlength : payloadLength (second.toNat % 128) rest with
      | none =>
        rw [hlength] at h
        exact absurd rfl h
      | some field =>
        obtain ⟨length, size⟩ := field
        obtain ⟨hsize, hmore⟩ := payloadLength_spec hlength
        simp only [hlength] at h
        simp only [hmore x]
        split
        · rfl
        next htop =>
        rw [if_neg htop] at h
        rw [List.drop_append_of_le_length hsize, parseBody_append x h]

theorem parseClientFrame_size {frame : ClientFrame}
    (h : parseClientFrame stream = .frame size frame) :
    0 < size ∧ size ≤ stream.length ∧ frame.payload.length ≤ 65536 := by
  match stream with
  | [] => cases h
  | [_] => cases h
  | first :: second :: rest =>
    simp only [parseClientFrame] at h
    split at h
    · cases h
    split at h
    · cases h
    split at h
    · cases h
    split at h
    · cases h
    next hlength =>
    split at h
    · cases h
    obtain ⟨hpos, hle, hpayload⟩ := parseBody_size h
    have hfield := (payloadLength_spec hlength).1
    rw [List.length_drop] at hle
    refine ⟨hpos, ?_, hpayload⟩
    simp only [List.length_cons]
    omega

/-- A frame either ends the decoding or is passed with its own size. -/
theorem deliver_cases (size : Nat) (opened : Option OpenMessage) (frame : ClientFrame) :
    (∃ reason, deliver size opened frame = .halt reason) ∨
      ∃ out opened', deliver size opened frame = .frame size out opened' := by
  have hextend (fin : Bool) (message : OpenMessage) :
      (∃ reason, extendMessage size fin message = .halt reason) ∨
        ∃ out opened', extendMessage size fin message = .frame size out opened' := by
    simp only [extendMessage]
    repeat' split
    all_goals simp
  obtain ⟨fin, kind, payload⟩ := frame
  cases kind <;> cases opened <;> simp only [deliver] <;> first
    | exact hextend _ _
    | (split <;> simp)
    | simp

/-- A frame that the reference passes is a frame of the grammar. -/
theorem exists_parse_of_frame {opened opened' : Option OpenMessage} {n : Nat} {out : Delivered}
    (h : referenceReader opened stream = .frame n out opened') :
    ∃ frame, parseClientFrame stream = .frame n frame := by
  rw [referenceReader] at h
  cases hparse : parseClientFrame stream with
  | unfinished =>
    rw [hparse] at h
    cases h
  | faulty violation =>
    rw [hparse] at h
    cases h
  | frame size frame =>
    rw [hparse, FrameParse.meaning] at h
    obtain ⟨reason, hd⟩ | ⟨out, opened, hd⟩ := deliver_cases size opened frame
    · rw [hd] at h
      cases h
    · rw [hd] at h
      cases h
      exact ⟨frame, rfl⟩

theorem referenceReader_lawful : referenceReader.Lawful where
  read_nil _ := rfl
  size_pos h := by
    obtain ⟨frame, hparse⟩ := exists_parse_of_frame h
    exact (parseClientFrame_size hparse).1
  size_le h := by
    obtain ⟨frame, hparse⟩ := exists_parse_of_frame h
    exact (parseClientFrame_size hparse).2.1
  stable {s w} x h := by
    have hparse : parseClientFrame w ≠ .unfinished := by
      intro hw
      exact h (by rw [referenceReader, hw, FrameParse.meaning])
    simp only [referenceReader, parseClientFrame_append x hparse]

/-! ### The decoder's words and the grammar's -/

/-- The message that is open in a decoder. -/
def openMessage (fragment : Fragment) : Option OpenMessage :=
  if fragment.opcode = 0 then none else some ⟨fragment.opcode = opText, fragment.payload⟩

/-- The opcode of a kind of frame. -/
def FrameKind.opcode : FrameKind → Byte
  | continuation => opContinuation
  | text => opText
  | binary => opBinary
  | close => opClose
  | ping => opPing
  | pong => opPong

/-- The decoder's loop body and the reference say the same of the bytes at the front. -/
inductive Agrees : FrameStep → Reading (Option OpenMessage) Delivered ReferenceEnd → Prop where
  | more : Agrees .incomplete .more
  | refused (violation : Violation) (fragment : Fragment) :
    Agrees (.reject violation.closeCode fragment) (.halt (.refused violation))
  | closed (payload : Bytes) : Agrees (.close payload) (.halt (.closed payload))
  | frame (size : Nat) (fragment : Fragment) (pong message : Option Bytes) :
    Agrees (.pass size fragment pong message)
      (.frame size ⟨message.toList, pong.toList⟩ (openMessage fragment))

/-- Statements about all bytes can be checked one byte at a time. -/
theorem forall_byte {P : Byte → Prop} (h : ∀ v : BitVec 8, P ⟨v⟩) (b : Byte) : P b := h b.toBitVec

variable (b : Byte)

theorem reservedBits_iff : b &&& 0x70 ≠ 0 ↔ b.toNat / 16 % 8 ≠ 0 := by
  revert b
  exact forall_byte (by decide +kernel)

theorem topBit_iff : b &&& 0x80 = 0 ↔ b.toNat < 128 := by
  revert b
  exact forall_byte (by decide +kernel)

theorem low_seven : (b &&& 0x7f).toNat = b.toNat % 128 := by
  revert b
  exact forall_byte (by decide +kernel)

theorem ofOpcode_none (h : FrameKind.ofOpcode (b.toNat % 16) = none) :
    ((3 ≤ b &&& 0x0f && b &&& 0x0f ≤ 7) || 0x0b ≤ b &&& 0x0f) = true := by
  revert b
  exact forall_byte (by decide +kernel)

theorem ofOpcode_some (kind : FrameKind) (h : FrameKind.ofOpcode (b.toNat % 16) = some kind) :
    b &&& 0x0f = kind.opcode := by
  revert b
  cases kind <;> exact forall_byte (by decide +kernel)

theorem control_iff (kind : FrameKind) : kind.opcode &&& 0x08 ≠ 0 ↔ kind.isControl = true := by
  cases kind <;> decide

theorem opcode_not_reserved (kind : FrameKind) :
    ((3 ≤ kind.opcode && kind.opcode ≤ 7) || 0x0b ≤ kind.opcode) = false := by
  cases kind <;> decide

/-! ### Lengths -/

variable (bytes : Bytes)

theorem foldl_bigEndian (acc : Nat) :
    bytes.foldl (fun acc b => acc * 256 + b.toNat) acc
      = Nat.ofDigits 256 (bytes.map UInt8.toNat).reverse + 256 ^ bytes.length * acc := by
  induction bytes generalizing acc with
  | nil => simp
  | cons b bytes ih =>
    rw [List.foldl_cons, ih, List.map_cons, List.reverse_cons, Nat.ofDigits_append,
      Nat.ofDigits_singleton, List.length_reverse, List.length_map, List.length_cons, pow_succ]
    ring

theorem bigEndianValue_eq :
    bigEndianValue bytes = Nat.ofDigits 256 (bytes.map UInt8.toNat).reverse := by
  rw [bigEndianValue, foldl_bigEndian, Nat.mul_zero, Nat.add_zero]

theorem ofDigits_bytes_lt :
    Nat.ofDigits 256 (bytes.map UInt8.toNat).reverse < 256 ^ bytes.length := by
  have h := Nat.ofDigits_lt_base_pow_length (b := 256)
    (l := (bytes.map UInt8.toNat).reverse) (by norm_num) (by
      intro d hd
      obtain ⟨b, -, rfl⟩ := List.mem_map.mp (List.mem_reverse.mp hd)
      exact b.toNat_lt)
  simpa using h

/-- The top bit of an eight-byte length is the top bit of its first byte. -/
theorem two_pow_le_bigEndianValue_iff (h : bytes.length = 7) :
    2 ^ 63 ≤ bigEndianValue (b :: bytes) ↔ b &&& 0x80 ≠ 0 := by
  have hlow := ofDigits_bytes_lt bytes
  have hvalue : bigEndianValue (b :: bytes)
      = Nat.ofDigits 256 (bytes.map UInt8.toNat).reverse + 256 ^ 7 * b.toNat := by
    rw [bigEndianValue, List.foldl_cons, foldl_bigEndian, h, Nat.zero_mul, Nat.zero_add]
  rw [h] at hlow
  rw [hvalue, Ne, topBit_iff]
  omega

/-- The field that holds a payload length. -/
def lengthField (short : Nat) : Nat := if short = 126 then 2 else if short = 127 then 8 else 0

theorem payloadLength_eq (short : Nat) (rest : Bytes) (h : lengthField short ≤ rest.length) :
    payloadLength short rest = some
      (if lengthField short = 0 then short else bigEndianValue (rest.take (lengthField short)),
        lengthField short) := by
  have hshow : payloadLength short rest
      = if rest.length < lengthField short then none
        else if lengthField short = 0 then some (short, 0)
        else some (Nat.ofDigits 256 ((rest.take (lengthField short)).map UInt8.toNat).reverse,
          lengthField short) := rfl
  rw [hshow, if_neg (by omega), bigEndianValue_eq]
  split
  · next hzero => rw [hzero]
  · rfl

/-- The decoder's test of the top bit is a test of the value. -/
theorem lengthTopBit_iff (short : Nat) (rest : Bytes) (hshort : short < 128)
    (h : lengthField short ≤ rest.length) :
    (short = 127 && rest.headD 0 &&& 0x80 ≠ 0) = true ↔
      2 ^ 63 ≤ if lengthField short = 0 then short
        else bigEndianValue (rest.take (lengthField short)) := by
  by_cases h127 : short = 127
  · subst h127
    match rest, h with
    | b :: rest, h =>
      have hseven : (rest.take 7).length = 7 := by
        have hfield : lengthField 127 = 8 := rfl
        rw [hfield, List.length_cons] at h
        rw [List.length_take]
        omega
      simpa [lengthField] using (two_pow_le_bigEndianValue_iff b (rest.take 7) hseven).symm
  · have hsmall : (if lengthField short = 0 then short
        else bigEndianValue (rest.take (lengthField short))) < 2 ^ 63 := by
      by_cases h126 : short = 126
      · subst h126
        have hlt := ofDigits_bytes_lt (rest.take 2)
        rw [← bigEndianValue_eq, List.length_take] at hlt
        have hfield : lengthField 126 = 2 := rfl
        rw [Nat.min_eq_left (hfield ▸ h)] at hlt
        show bigEndianValue (rest.take 2) < 2 ^ 63
        omega
      · simp only [lengthField, h126, h127, if_false, if_true]
        omega
    simp only [h127, decide_false, Bool.false_and, Bool.false_eq_true, false_iff]
    omega

/-! ### Frame by frame -/

variable (fragment : Fragment)

variable (fin : Bool)

/-- A text or binary frame while no message is open. -/
theorem agrees_dataFrame (opcode : Byte) (payload : Bytes) (size : Nat)
    (hpayload : payload.length ≤ 65536) (hopcode : opcode ≠ 0) (hopen : fragment.opcode = 0) :
    Agrees
      (if fin then
        if opcode = opText && !isValidUtf8 payload then .reject 1007 fragment
        else .pass size fragment none (some payload)
      else .pass size { opcode, payload } none none)
      (extendMessage size fin ⟨opcode = opText, payload⟩) := by
  have hnone : openMessage fragment = none := if_pos hopen
  have hsome : openMessage { opcode, payload } = some ⟨opcode = opText, payload⟩ := if_neg hopcode
  have hshort : ¬ 65536 < payload.length := by omega
  simp only [extendMessage, hshort, if_false]
  cases fin with
  | false =>
    have h := Agrees.frame size { opcode, payload } none none
    rw [hsome] at h
    exact h
  | true =>
    simp only [Bool.not_true, Bool.false_eq_true, if_false, if_true]
    split
    · exact .refused .invalidText fragment
    · have h := Agrees.frame size fragment none (some payload)
      rw [hnone] at h
      exact h

/-- A continuation of a message that is open. -/
theorem agrees_continuation (size : Nat) (hopen : fragment.opcode ≠ 0) :
    Agrees
      (if fragment.payload.length > maxMessageBytes then .reject 1009 fragment
      else if fin then
        if fragment.opcode = opText && !isValidUtf8 fragment.payload then .reject 1007 fragment
        else .pass size {} none (some fragment.payload)
      else .pass size fragment none none)
      (extendMessage size fin ⟨fragment.opcode = opText, fragment.payload⟩) := by
  have hmax : maxMessageBytes = 65536 := rfl
  rw [extendMessage, hmax]
  simp only [gt_iff_lt]
  split
  · exact .refused .longMessage fragment
  cases fin with
  | false =>
    have hsome : openMessage fragment = some ⟨fragment.opcode = opText, fragment.payload⟩ :=
      if_neg hopen
    have h := Agrees.frame size fragment none none
    rw [hsome] at h
    exact h
  | true =>
    simp only [Bool.not_true, Bool.false_eq_true, if_false, if_true]
    split
    · exact .refused .invalidText fragment
    · exact .frame size {} none (some fragment.payload)

/-- The decoder on text and binary frames. -/
theorem websocketPayload_data {opcode : Byte} (payload : Bytes) (size : Nat)
    (h : opcode = opText ∨ opcode = opBinary) :
    websocketPayload fragment fin opcode payload size
      = if fragment.opcode ≠ 0 then .reject 1002 fragment
        else if fin then
          if opcode = opText && !isValidUtf8 payload then .reject 1007 fragment
          else .pass size fragment none (some payload)
        else .pass size { opcode, payload } none none := by
  rcases h with rfl | rfl <;> rfl

/-- Control frames, continuations and data frames mean the same to both. -/
theorem agrees_websocketPayload (kind : FrameKind) (payload : Bytes) (size : Nat)
    (hpayload : payload.length ≤ 65536) :
    Agrees (websocketPayload fragment fin kind.opcode payload size)
      (deliver size (openMessage fragment) ⟨fin, kind, payload⟩) := by
  have hdata (kind : FrameKind) (hkind : kind.opcode = opText ∨ kind.opcode = opBinary)
      (hopcode : kind.opcode ≠ 0)
      (hdeliver : ∀ opened, deliver size opened ⟨fin, kind, payload⟩
        = match opened with
          | none => extendMessage size fin ⟨kind.opcode = opText, payload⟩
          | some _ => .halt (.refused .interleavedMessage)) :
      Agrees (websocketPayload fragment fin kind.opcode payload size)
        (deliver size (openMessage fragment) ⟨fin, kind, payload⟩) := by
    rw [websocketPayload_data fragment fin payload size hkind, hdeliver, openMessage]
    by_cases hopen : fragment.opcode = 0
    · rw [if_neg (by simpa using hopen), if_pos hopen]
      exact agrees_dataFrame fragment fin kind.opcode payload size hpayload hopcode hopen
    · rw [if_pos hopen, if_neg hopen]
      exact .refused .interleavedMessage fragment
  cases kind with
  | close =>
    simp only [websocketPayload, FrameKind.opcode, deliver, if_true]
    split
    · exact .refused .shortClose fragment
    · exact .closed payload
  | ping => exact .frame size fragment (some payload) none
  | pong => exact .frame size fragment none none
  | continuation =>
    have hcode : websocketPayload fragment fin opContinuation payload size
        = if fragment.opcode = 0 then .reject 1002 fragment else _ := rfl
    simp only [FrameKind.opcode, openMessage, hcode]
    by_cases hopen : fragment.opcode = 0
    · rw [if_pos hopen, if_pos hopen]
      exact .refused .orphanContinuation fragment
    · rw [if_neg hopen, if_neg hopen]
      exact agrees_continuation
        { fragment with payload := fragment.payload ++ payload } fin size hopen
  | text => exact hdata .text (.inl rfl) (by decide) (fun opened => by cases opened <;> rfl)
  | binary => exact hdata .binary (.inr rfl) (by decide) (fun opened => by cases opened <;> rfl)

/-- The part of a frame from the mask key on. -/
theorem agrees_body (kind : FrameKind) (length headerSize : Nat) (body : Bytes) :
    Agrees
      (if body.length < 4 then .incomplete
      else if (kind.opcode &&& 0x08 ≠ 0 && (!fin || length > 125)) || length > maxMessageBytes then
        .reject 1009 fragment
      else if body.length < 4 + length then .incomplete
      else
        websocketPayload fragment fin kind.opcode
          (unmask (body.take 4) ((body.drop 4).take length)) (headerSize + 4 + length))
      ((parseBody fin kind length headerSize body).meaning (openMessage fragment)) := by
  have hcontrol : (decide (kind.opcode &&& 0x08 ≠ 0)) = kind.isControl :=
    Bool.eq_iff_iff.mpr (by simpa using control_iff kind)
  have hmax : maxMessageBytes = 65536 := rfl
  match body with
  | k₀ :: k₁ :: k₂ :: k₃ :: body =>
    rw [if_neg (by simp only [List.length_cons]; omega), hcontrol, hmax, parseBody]
    -- the decoder has one test for the three faults of size
    by_cases hfragmented : (kind.isControl && !fin) = true
    · rw [if_pos hfragmented, if_pos (by simp_all)]
      exact .refused .fragmentedControl fragment
    by_cases hcontrolLong : (kind.isControl && decide (125 < length)) = true
    · rw [if_neg hfragmented, if_pos hcontrolLong, if_pos (by simp_all)]
      exact .refused .longControl fragment
    by_cases hlong : 65536 < length
    · rw [if_neg hfragmented, if_neg hcontrolLong, if_pos hlong, if_pos (by simp_all)]
      exact .refused .longPayload fragment
    rw [if_neg hfragmented, if_neg hcontrolLong, if_neg hlong, if_neg (by grind)]
    by_cases hshort : body.length < length
    · rw [if_pos hshort, if_pos (by simp only [List.length_cons]; omega)]
      exact .more
    · rw [if_neg hshort, if_neg (by simp only [List.length_cons]; omega)]
      refine agrees_websocketPayload fragment fin kind _ _ ?_
      simp only [unmask, List.length_mapIdx, List.length_take]
      omega
  | [] => exact .more
  | [_] => exact .more
  | [_, _] => exact .more
  | [_, _, _] => exact .more

/-- The decoder's loop body says what the reference says. -/
theorem agrees_websocketFrame (wire : Bytes) :
    Agrees (websocketFrame fragment wire) (referenceReader (openMessage fragment) wire) := by
  match wire with
  | [] => exact .more
  | [_] => exact .more
  | first :: second :: rest =>
    rw [referenceReader, parseClientFrame, websocketFrame]
    by_cases hbits : first &&& 0x70 ≠ 0
    · rw [if_pos ((reservedBits_iff first).mp hbits), if_pos (by simp [hbits])]
      exact .refused .reservedBits fragment
    by_cases hmask : second &&& 0x80 = 0
    · rw [if_neg (mt (reservedBits_iff first).mpr hbits), if_pos ((topBit_iff second).mp hmask),
        if_pos (by simp [hmask])]
      exact .refused .unmasked fragment
    rw [if_neg (mt (reservedBits_iff first).mpr hbits), if_neg (mt (topBit_iff second).mpr hmask)]
    cases hkind : FrameKind.ofOpcode (first.toNat % 16) with
    | none =>
      rw [if_pos (by simpa [or_assoc] using Or.inr (Or.inr (ofOpcode_none first hkind)))]
      exact .refused .reservedOpcode fragment
    | some kind =>
      have hopcode := ofOpcode_some first kind hkind
      have hreserved := opcode_not_reserved kind
      have hshort : second.toNat % 128 < 128 := Nat.mod_lt _ (by decide)
      have hfin : decide (first &&& 0x80 ≠ 0) = decide (128 ≤ first.toNat) := by
        simp [topBit_iff]
      simp only [hopcode, low_seven, hfin]
      rw [if_neg (by simp_all)]
      generalize second.toNat % 128 = short at hshort ⊢
      show Agrees
        (if rest.length < lengthField short then .incomplete
        else if short = 127 && rest.headD 0 &&& 0x80 ≠ 0 then .reject 1002 fragment
        else _) _
      by_cases hfield : rest.length < lengthField short
      · rw [if_pos hfield]
        have hnone : payloadLength short rest = none := if_pos hfield
        rw [hnone]
        exact .more
      have hlength := payloadLength_eq short rest (by omega)
      rw [if_neg hfield, hlength]
      by_cases htop : (short = 127 && rest.headD 0 &&& 0x80 ≠ 0) = true
      · rw [if_pos htop]
        simp only [if_pos ((lengthTopBit_iff short rest hshort (by omega)).mp htop)]
        exact .refused .lengthTopBit fragment
      · rw [if_neg htop]
        simp only [if_neg (mt (lengthTopBit_iff short rest hshort (by omega)).mpr htop)]
        exact agrees_body fragment _ kind _ (2 + lengthField short) _

/-! ### Calls and arrivals -/

/-- How the decoder ends for good. -/
inductive DecodeEnd where
  | rejected (closeCode : Nat)
  | closed (payload : Bytes)
  deriving DecidableEq, Repr

/-- The end of decoding in the decoder's words. -/
def ReferenceEnd.verdict : ReferenceEnd → DecodeEnd
  | refused violation => .rejected violation.closeCode
  | closed payload => .closed payload

/-- `comm_websocket_process_inbound` as a call that reads frames. -/
def decoderCall (maxMessages : Nat) (fragment : Fragment) (wire : Bytes) :
    FrameReader.Call Fragment Delivered DecodeEnd :=
  let r := websocketDecode maxMessages fragment wire
  match r.verdict with
  | .accepted consumed => ⟨consumed, r.fragment, ⟨r.messages, r.pongs⟩, none⟩
  | .rejected closeCode => ⟨0, r.fragment, ⟨r.messages, r.pongs⟩, some (.rejected closeCode)⟩
  | .closed payload => ⟨0, r.fragment, ⟨r.messages, r.pongs⟩, some (.closed payload)⟩

/-- What the decoder's loop has read when it stops, `offset` bytes into the wire bytes at its
start. -/
def LoopReads (fragment : Fragment) (wire : Bytes) (offset : Nat) (r : DecodeResult) : Prop :=
  match r.verdict with
  | .accepted consumed =>
    offset ≤ consumed ∧
    referenceReader.decode (openMessage fragment) wire
      = (referenceReader.decode (openMessage r.fragment) (wire.drop (consumed - offset))).after
          ⟨r.messages, r.pongs⟩ ∧
    (consumed = offset → referenceReader.decode (openMessage fragment) wire
      = .waiting ⟨r.messages, r.pongs⟩ (openMessage r.fragment) wire)
  | .rejected closeCode =>
    (referenceReader.decode (openMessage fragment) wire).map id ReferenceEnd.verdict
      = .halted ⟨r.messages, r.pongs⟩ (.rejected closeCode)
  | .closed payload =>
    (referenceReader.decode (openMessage fragment) wire).map id ReferenceEnd.verdict
      = .halted ⟨r.messages, r.pongs⟩ (.closed payload)

/-- Nothing is read where the reference asks for more. -/
theorem loopReads_of_more {fragment : Fragment} {wire : Bytes} (offset : Nat)
    (h : referenceReader (openMessage fragment) wire = .more) :
    LoopReads fragment wire offset ⟨fragment, [], [], .accepted offset⟩ := by
  have hdecode := referenceReader_lawful.decode_of_more h
  refine ⟨Nat.le_refl _, ?_, fun _ => hdecode⟩
  rw [Nat.sub_self, List.drop_zero]
  exact (Outcome.after_one _).symm

/-- A frame in front of what the rest of the loop reads. -/
theorem LoopReads.frame {fragment fragment' : Fragment} {wire : Bytes} {offset : Nat}
    {pong message : Option Bytes} {r : DecodeResult}
    (h : referenceReader (openMessage fragment) wire
      = .frame size ⟨message.toList, pong.toList⟩ (openMessage fragment'))
    (hr : LoopReads fragment' (wire.drop size) (offset + size) r) :
    LoopReads fragment wire offset
      { r with messages := message.toList ++ r.messages, pongs := pong.toList ++ r.pongs } := by
  have hpos := referenceReader_lawful.size_pos h
  obtain ⟨rfragment, messages, pongs, verdict⟩ := r
  cases verdict with
  | accepted consumed =>
    obtain ⟨hle, hreads, -⟩ := hr
    have hrest : consumed - offset = size + (consumed - (offset + size)) := by omega
    refine ⟨by omega, ?_, fun heq => absurd heq (by omega)⟩
    rw [referenceReader_lawful.decode_of_frame h, hreads, Outcome.after_after, hrest,
      ← List.drop_drop]
    rfl
  | rejected closeCode =>
    show Outcome.map id ReferenceEnd.verdict (referenceReader.decode _ _) = _
    rw [referenceReader_lawful.decode_of_frame h, Outcome.map_after, hr]
    rfl
  | closed payload =>
    show Outcome.map id ReferenceEnd.verdict (referenceReader.decode _ _) = _
    rw [referenceReader_lawful.decode_of_frame h, Outcome.map_after, hr]
    rfl

theorem loopReads_websocketLoop (fuel room : Nat) (fragment : Fragment) (wire : Bytes)
    (offset : Nat) (hfuel : wire.length ≤ fuel) :
    LoopReads fragment wire offset (websocketLoop fuel room fragment wire offset) := by
  induction fuel generalizing room fragment wire offset with
  | zero =>
    have hwire : wire = [] := List.eq_nil_of_length_eq_zero (by omega)
    subst hwire
    exact loopReads_of_more offset (referenceReader_lawful.read_nil _)
  | succ fuel ih =>
    have hagrees := agrees_websocketFrame fragment wire
    rw [websocketLoop]
    generalize hread : referenceReader (openMessage fragment) wire = reading at hagrees
    generalize websocketFrame fragment wire = step at hagrees
    cases hagrees with
    | more => exact loopReads_of_more offset hread
    | refused violation fragment' =>
      show Outcome.map id ReferenceEnd.verdict (referenceReader.decode _ _) = _
      rw [referenceReader_lawful.decode_of_halt hread]
      rfl
    | closed payload =>
      show Outcome.map id ReferenceEnd.verdict (referenceReader.decode _ _) = _
      rw [referenceReader_lawful.decode_of_halt hread]
      rfl
    | frame size fragment' pong message =>
      have hpos := referenceReader_lawful.size_pos hread
      simp only
      split
      · -- the message limit: the loop stops behind this frame
        refine ⟨by omega, ?_, fun heq => absurd heq (by omega)⟩
        rw [referenceReader_lawful.decode_of_frame hread, Nat.add_sub_cancel_left]
      · have hshort := referenceReader_lawful.length_drop_le hread hfuel
        exact (ih _ fragment' (wire.drop size) (offset + size) hshort).frame hread

theorem loopReads_websocketDecode (maxMessages : Nat) (fragment : Fragment) (wire : Bytes) :
    LoopReads fragment wire 0 (websocketDecode maxMessages fragment wire) :=
  loopReads_websocketLoop wire.length maxMessages fragment wire 0 (Nat.le_refl _)

theorem decoderCall_implements (maxMessages : Nat) :
    referenceReader.Implements openMessage ReferenceEnd.verdict (decoderCall maxMessages) := by
  refine ⟨fun fragment wire reason h => ?_, fun fragment wire h => ?_,
    fun fragment wire h hzero => ?_⟩
  all_goals
    have hr := loopReads_websocketDecode maxMessages fragment wire
    simp only [decoderCall] at *
    generalize websocketDecode maxMessages fragment wire = r at *
    obtain ⟨rfragment, messages, pongs, verdict⟩ := r
  · cases verdict with
    | accepted consumed => cases h
    | rejected closeCode =>
      cases h
      exact hr
    | closed payload =>
      cases h
      exact hr
  · cases verdict with
    | accepted consumed => exact hr.2.1
    | rejected closeCode => cases h
    | closed payload => cases h
  · cases verdict with
    | accepted consumed => exact hr.2.2 hzero
    | rejected closeCode => cases h
    | closed payload => cases h

/-- However the stream arrives and however many messages a call may produce, the decoder's caller gets
the messages, the Pongs and the verdict of the reference on the whole stream. -/
theorem websocket_decoding_is_frame_grammar (maxMessages : Nat) (chunks : List Bytes) :
    ∃ o, FrameReader.driveChunks (decoderCall maxMessages) {} [] chunks = some o ∧
      o.map openMessage id
        = (referenceReader.decode none chunks.flatten).map id ReferenceEnd.verdict :=
  FrameReader.driveChunks_eq_decode referenceReader_lawful (decoderCall_implements maxMessages)
    {} [] chunks (referenceReader_lawful.read_nil none)

/-- A text message in two pieces with a Ping between them, over three arrivals. -/
example :
    FrameReader.driveChunks (decoderCall 1) {} []
        [[0x01, 0x82, 0, 0, 0, 0], [0x48, 0x65, 0x89, 0x80, 0, 0, 0, 0, 0x80],
          [0x81, 0, 0, 0, 0, 0x21]]
      = some (.waiting ⟨[ascii "He!"], [[]]⟩ {} []) := by
  decide +kernel

end Mudmux.Comm
