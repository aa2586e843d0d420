import Mudmux.Proofs.StrictDispatch
import Mudmux.Proofs.WebSocket

/-!
# `Mudmux.Proofs.FrameRoundTrip`: the decoder reads what the encoder writes

A server frame has no mask; a client's frame is the same frame with the mask bit, a key and a masked
payload. `comm_websocket_encode_frame` and `comm_websocket_process_inbound` agree on everything else.

The two meet at the length. `LengthHeader n` is a length field that stands for `n`, in any of the three
forms. The decoder reads every one of them (`websocketFrame_masked`), and the encoder writes the shortest
(`encodedHeader`, `encodedHeader_shortest`).
-/

set_option autoImplicit false

namespace Mudmux.Comm

open Mudmux.Lib
open Mudmux.Lib.Program (Returns returns_done)

/-! ### Masking -/

/-- Masking twice with the same key gives the payload back, whatever its length. -/
theorem unmask_unmask (key payload : Bytes) : unmask key (unmask key payload) = payload := by
  apply List.ext_getElem
  · simp [unmask]
  · intro i _ _
    simp [unmask]

theorem length_unmask (key payload : Bytes) : (unmask key payload).length = payload.length :=
  List.length_mapIdx

/-- A client's frame from a frame of the encoder: the mask bit is set, the key stands behind the length
field, and the payload is masked. -/
def maskFrame (key : Bytes) : Bytes → Bytes
  | first :: second :: rest =>
    let size := lengthField (second &&& 0x7f).toNat
    first :: (second ||| 0x80) :: (rest.take size ++ key ++ unmask key (rest.drop size))
  | frame => frame

theorem maskBit_set (b : Byte) : (b ||| 0x80) &&& 0x80 ≠ 0 := by
  revert b
  exact forall_byte (by decide +kernel)

theorem maskBit_low_seven (b : Byte) : ((b ||| 0x80) &&& 0x7f).toNat = b.toNat % 128 := by
  revert b
  exact forall_byte (by decide +kernel)

/-! ### Lengths -/

@[simp] theorem length_bigEndian (count n : Nat) : (bigEndian count n).length = count := by
  induction count with
  | zero => rfl
  | succ count ih => rw [bigEndian, List.length_cons, ih]

/-- Reading a big-endian number back keeps the bits that fit. -/
theorem bigEndianValue_bigEndian (count n : Nat) :
    bigEndianValue (bigEndian count n) = n % 256 ^ count := by
  induction count with
  | zero => rw [pow_zero, Nat.mod_one]; rfl
  | succ count ih =>
    have hbyte : (UInt8.ofNat (n >>> (8 * count))).toNat = n / 256 ^ count % 256 := by
      rw [UInt8.toNat_ofNat', Nat.shiftRight_eq_div_pow, Nat.pow_mul]
    rw [bigEndianValue_eq] at ih
    rw [bigEndianValue, bigEndian, List.foldl_cons, foldl_bigEndian, ih, length_bigEndian, hbyte,
      Nat.zero_mul, Nat.zero_add, pow_succ, Nat.mod_mul]

/-- A length field that stands for `n`: the second header byte without the mask bit, and the bytes
behind it. -/
structure LengthHeader (n : Nat) where
  short : Byte
  field : Bytes
  clear : short.toNat < 128
  size : field.length = lengthField short.toNat
  value : (if lengthField short.toNat = 0 then short.toNat else bigEndianValue field) = n

theorem lengthField_short {n : Nat} (h : n ≤ 125) : lengthField n = 0 := by
  rw [lengthField, if_neg (by omega), if_neg (by omega)]

theorem toNat_short {n : Nat} (h : n ≤ 125) : (UInt8.ofNat n).toNat = n := by
  rw [UInt8.toNat_ofNat']
  omega

/-- The length field that the encoder writes. -/
def encodedHeader (n : Nat) (hn : n < 2 ^ 64) : LengthHeader n :=
  if hshort : n ≤ 125 then
    { short := UInt8.ofNat n
      field := []
      clear := by rw [toNat_short hshort]; omega
      size := by rw [toNat_short hshort, lengthField_short hshort, List.length_nil]
      value := by rw [toNat_short hshort, lengthField_short hshort, if_pos rfl] }
  else if hmedium : n ≤ 0xffff then
    { short := 126
      field := bigEndian 2 n
      clear := by decide
      size := length_bigEndian 2 n
      value := (bigEndianValue_bigEndian 2 n).trans (Nat.mod_eq_of_lt (by omega)) }
  else
    { short := 127
      field := bigEndian 8 n
      clear := by decide
      size := length_bigEndian 8 n
      value := (bigEndianValue_bigEndian 8 n).trans (Nat.mod_eq_of_lt (by omega)) }

theorem commWebsocketEncodeFrame_eq (payload : Bytes) (hpayload : payload.length < 2 ^ 64)
    {opcode : Byte} (hopcode : opcode ≤ 0x0f) :
    commWebsocketEncodeFrame payload opcode = some ((0x80 ||| opcode) ::
      (encodedHeader payload.length hpayload).short ::
        ((encodedHeader payload.length hpayload).field ++ payload)) := by
  rw [commWebsocketEncodeFrame, if_neg (by simpa using hopcode), encodedHeader]
  by_cases hshort : payload.length ≤ 125
  · simp [hshort]
  · by_cases hmedium : payload.length ≤ 0xffff
    · simp [hshort, hmedium]
    · simp [hshort, hmedium]

/-- A length beyond 125 needs two bytes, one beyond 65535 eight. -/
theorem LengthHeader.length_field {n : Nat} (header : LengthHeader n) :
    (125 < n → 2 ≤ header.field.length) ∧ (0xffff < n → 8 ≤ header.field.length) := by
  have hsize := header.size
  have hvalue := header.value
  have hclear := header.clear
  by_cases hmedium : header.short.toNat = 126
  · have hlt := ofDigits_bytes_lt header.field
    rw [hmedium, lengthField, if_pos rfl] at hsize hvalue
    rw [← bigEndianValue_eq, hsize] at hlt
    rw [if_neg (by decide)] at hvalue
    omega
  · by_cases hlong : header.short.toNat = 127
    · rw [hlong] at hsize
      have hfield : lengthField 127 = 8 := rfl
      omega
    · rw [lengthField, if_neg hmedium, if_neg hlong, if_pos rfl] at hvalue
      omega

/-- No form of the length is shorter than the encoder's. -/
theorem encodedHeader_shortest (n : Nat) (hn : n < 2 ^ 64) (other : LengthHeader n) :
    (encodedHeader n hn).field.length ≤ other.field.length := by
  have hother := other.length_field
  rw [encodedHeader]
  split
  · exact Nat.zero_le _
  · next hshort =>
      split
      · exact (length_bigEndian 2 n).trans_le (hother.1 (by omega))
      · exact (length_bigEndian 8 n).trans_le (hother.2 (by omega))

/-! ### The round trip -/

theorem maskFrame_eq {n : Nat} (header : LengthHeader n) (key : Bytes) (first : Byte)
    (payload : Bytes) :
    maskFrame key (first :: header.short :: (header.field ++ payload)) =
      first :: (header.short ||| 0x80) :: (header.field ++ key ++ unmask key payload) := by
  have hsize : lengthField (header.short &&& 0x7f).toNat = header.field.length := by
    rw [low_seven, Nat.mod_eq_of_lt header.clear, header.size]
  rw [maskFrame, hsize, List.take_left, List.drop_left]

/-- The decoder passes a masked binary frame, whichever form its length has. -/
theorem websocketFrame_masked (fragment : Fragment) (key payload more : Bytes)
    (header : LengthHeader payload.length) (hkey : key.length = 4)
    (hpayload : payload.length ≤ maxMessageBytes) (hfragment : fragment.opcode = 0) :
    websocketFrame fragment
        (0x82 :: (header.short ||| 0x80) :: (header.field ++ (key ++ (unmask key payload ++ more)))) =
      .pass (2 + header.field.length + 4 + payload.length) fragment none (some payload) := by
  have hmax : maxMessageBytes = 65536 := rfl
  have hmasked := length_unmask key payload
  have hshort : ((header.short ||| 0x80) &&& 0x7f).toNat = header.short.toNat := by
    rw [maskBit_low_seven, Nat.mod_eq_of_lt header.clear]
  have hextended (short : Nat) :
      (if short = 126 then 2 else if short = 127 then 8 else 0) = lengthField short := rfl
  obtain ⟨body, hbody⟩ : ∃ body, body = key ++ (unmask key payload ++ more) := ⟨_, rfl⟩
  have hlength : body.length = 4 + payload.length + more.length := by
    rw [hbody, List.length_append, List.length_append, hkey, hmasked, Nat.add_assoc]
  have htake : (header.field ++ body).take (lengthField header.short.toNat) = header.field := by
    rw [← header.size, List.take_left]
  have hdrop : (header.field ++ body).drop (lengthField header.short.toNat) = body := by
    rw [← header.size, List.drop_left]
  have hfits : lengthField header.short.toNat ≤ (header.field ++ body).length := by
    rw [List.length_append, header.size]
    omega
  -- the length is far below `2 ^ 63`
  have htop := (lengthTopBit_iff header.short.toNat (header.field ++ body) header.clear hfits).not
  rw [htake, header.value] at htop
  rw [← hbody, websocketFrame]
  have hopcode : (0x82 &&& 0x0f : Byte) = opBinary := rfl
  have hdata : (opBinary &&& 0x08 : Byte) = 0 := rfl
  simp only [hshort, hextended, htake, hdrop, header.value, hopcode, hdata, ne_eq, not_true,
    decide_false, Bool.false_and, Bool.false_or, decide_eq_true_eq]
  rw [if_neg (by simp [maskBit_set]; decide), if_neg (by omega), if_neg (htop.mpr (by omega)),
    if_neg (by omega), if_neg (by omega), if_neg (by omega)]
  have hkeyed : body.take 4 = key := by rw [hbody, ← hkey, List.take_left]
  have hclear : unmask key ((body.drop 4).take payload.length) = payload := by
    rw [hbody, ← hkey, List.drop_left, ← hmasked, List.take_left, unmask_unmask]
  rw [hkeyed, hclear, ← header.size, websocketPayload_data fragment _ payload _ (.inr rfl),
    if_neg (by simpa using hfragment)]
  rfl

/-- The decoder, asked for one message, takes exactly the frame. -/
theorem websocketDecode_masked (fragment : Fragment) (key payload more : Bytes)
    (header : LengthHeader payload.length) (hkey : key.length = 4)
    (hpayload : payload.length ≤ maxMessageBytes) (hfragment : fragment.opcode = 0) :
    websocketDecode 1 fragment
        (maskFrame key (0x82 :: header.short :: (header.field ++ payload)) ++ more) =
      ⟨fragment, [payload], [],
        .accepted (maskFrame key (0x82 :: header.short :: (header.field ++ payload))).length⟩ := by
  have hframe := websocketFrame_masked fragment key payload more header hkey hpayload hfragment
  have hsize : (0x82 :: (header.short ||| 0x80) :: (header.field ++ key ++ unmask key payload)).length
      = 2 + header.field.length + 4 + payload.length := by
    simp only [List.length_cons, List.length_append, length_unmask, hkey]
    omega
  rw [maskFrame_eq, hsize, websocketDecode, List.length_append, List.length_cons, Nat.add_right_comm,
    websocketLoop]
  simp only [List.cons_append, List.append_assoc, hframe, Option.isSome_some, le_refl, decide_true,
    Bool.and_true, if_true, Nat.zero_add]
  rfl

/-- A decoder call that sends no Pong and meets no Close leaves everything but the decoder alone. -/
theorem commWebsocketProcessInbound_quiet {ρ : Type} {setup : Setup} {env : Surroundings ρ} {depth : Nat}
    {w : World ρ} (hlive : w.comm.live = true) {wire : Bytes} {maxMessages consumed : Nat}
    {messages : List Bytes} {fragment : Fragment}
    (hdecode : websocketDecode maxMessages (w.comm.websocket.getD {}).fragment wire
      = ⟨fragment, messages, [], .accepted consumed⟩) :
    Returns (slotHandler setup env depth) (commWebsocketProcessInbound wire maxMessages) w
      fun result _ => result = (messages, .accepted consumed) := by
  rw [commWebsocketProcessInbound, returns_commDeref hlive]
  simp only [hdecode, returns_setComm]
  exact returns_done.mpr rfl

/-- What the encoder writes, masked by a client with any key, is read back as it was, whatever follows
it; and no length field that stands for the payload's length is shorter than the encoder's. -/
theorem websocket_frame_round_trip {ρ : Type} (setup : Setup) (env : Surroundings ρ) (depth : Nat)
    (w : World ρ) (hlive : w.comm.live = true)
    (hfragment : (w.comm.websocket.getD {}).fragmentedOpcode = 0) (payload key : Bytes)
    (hkey : key.length = 4) :
    (payload.length ≤ 65536 → ∀ more, ∃ frame, commWebsocketEncodeFrame payload 2 = some frame ∧
      Returns (slotHandler setup env depth)
        (commWebsocketProcessInbound (maskFrame key frame ++ more) 1) w
        fun result _ => result = ([payload], .accepted (maskFrame key frame).length)) ∧
    (payload.length < 2 ^ 64 → ∀ opcode ≤ 0x0f, ∃ header : LengthHeader payload.length,
      commWebsocketEncodeFrame payload opcode
          = some ((0x80 ||| opcode) :: header.short :: (header.field ++ payload)) ∧
        ∀ other : LengthHeader payload.length, header.field.length ≤ other.field.length) := by
  constructor
  · intro hpayload more
    have hsize : payload.length < 2 ^ 64 := by omega
    refine ⟨_, commWebsocketEncodeFrame_eq payload hsize (by decide), ?_⟩
    exact commWebsocketProcessInbound_quiet hlive
      (websocketDecode_masked _ key payload more _ hkey hpayload hfragment)
  · intro hsize opcode hopcode
    exact ⟨encodedHeader payload.length hsize, commWebsocketEncodeFrame_eq payload hsize hopcode,
      encodedHeader_shortest payload.length hsize⟩

/-- "hi" under the key 1, 2, 3, 4, with the beginning of another frame behind it. -/
theorem websocket_frame_round_trip_hi :
    ∃ frame, commWebsocketEncodeFrame [104, 105] 2 = some frame ∧
      maskFrame [1, 2, 3, 4] frame = [0x82, 0x82, 1, 2, 3, 4, 105, 107] ∧
      Returns (slotHandler chatSetup chatSurroundings 0)
        (commWebsocketProcessInbound (maskFrame [1, 2, 3, 4] frame ++ [0x82]) 1) (chatWorld false [])
        fun result _ => result = ([[104, 105]], .accepted (maskFrame [1, 2, 3, 4] frame).length) := by
  obtain ⟨frame, hframe, hreturns⟩ :=
    (websocket_frame_round_trip chatSetup chatSurroundings 0 (chatWorld false []) rfl rfl [104, 105]
      [1, 2, 3, 4] rfl).1 (by decide) [0x82]
  refine ⟨frame, hframe, ?_, hreturns⟩
  cases hframe
  decide

end Mudmux.Comm
