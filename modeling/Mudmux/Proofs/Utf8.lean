import Mudmux.Proofs.WebSocket

/-!
# `Mudmux.Proofs.Utf8`: the validation of text is exact

`is_valid_utf8` decodes one character after the other and looks at the code point: the lead byte fixes the
number of bytes, every continuation byte adds six bits, and the result must need that many bytes, be no
surrogate and be at most U+10FFFF. Unicode scalar values are Lean's `Char`, and `String.utf8EncodeChar`
is their encoding by RFC 3629.

`utf8Front` is one iteration of the loop. It takes off a code point exactly where the bytes begin with the
encoding of a scalar value (`utf8Front_eq_some_iff`), and the rest is an induction over the loop.
-/

set_option autoImplicit false

namespace Mudmux.Comm

/-! ### The bits as arithmetic -/

theorem utf8Lead_eq (first : Byte) : utf8Lead first =
    if 0xc2 ≤ first.toNat ∧ first.toNat ≤ 0xdf then some (first.toNat % 32, 1)
    else if 0xe0 ≤ first.toNat ∧ first.toNat ≤ 0xef then some (first.toNat % 16, 2)
    else if 0xf0 ≤ first.toNat ∧ first.toNat ≤ 0xf4 then some (first.toNat % 8, 3)
    else none := by
  revert first
  exact forall_byte (by decide +kernel)

theorem continuation_iff (b : Byte) : b &&& 0xc0 = 0x80 ↔ 128 ≤ b.toNat ∧ b.toNat < 192 := by
  revert b
  exact forall_byte (by decide +kernel)

theorem low_six (b : Byte) : (b &&& 0x3f).toNat = b.toNat % 64 := by
  revert b
  exact forall_byte (by decide +kernel)

/-- A continuation byte adds its six bits. -/
theorem utf8Continuation_cons (count codepoint : Nat) (next : Byte) (rest : Bytes) :
    utf8Continuation (count + 1) codepoint (next :: rest) =
      if 128 ≤ next.toNat ∧ next.toNat < 192 then
        utf8Continuation count (codepoint * 64 + next.toNat % 64) rest
      else none := by
  have hbits : codepoint <<< 6 ||| next.toNat % 64 = codepoint * 64 + next.toNat % 64 := by
    rw [← Nat.shiftLeft_add_eq_or_of_lt (Nat.mod_lt _ (by decide)), Nat.shiftLeft_eq]
  rw [utf8Continuation, low_six, hbits]
  by_cases hnext : 128 ≤ next.toNat ∧ next.toNat < 192
  · rw [if_neg (by simpa [continuation_iff] using hnext), if_pos hnext]
  · rw [if_pos (by simpa [continuation_iff] using hnext), if_neg hnext]

/-! ### One character -/

/-- One iteration of the loop: the code point at the front of the bytes, and what follows it. -/
def utf8Front : Bytes → Option (Nat × Bytes)
  | [] => none
  | first :: rest =>
    if first ≤ 0x7f then some (first.toNat, rest)
    else
      match utf8Lead first with
      | none => none
      | some (bits, count) =>
        match utf8Continuation count bits rest with
        | none => none
        | some (codepoint, rest) =>
          if utf8CodepointRejected codepoint count then none else some (codepoint, rest)

theorem isValidUtf8Loop_cons (fuel : Nat) (first : Byte) (rest : Bytes) :
    isValidUtf8Loop (fuel + 1) (first :: rest) =
      match utf8Front (first :: rest) with
      | none => false
      | some (_, rest) => isValidUtf8Loop fuel rest := by
  rw [isValidUtf8Loop, utf8Front]
  split
  · rfl
  · cases utf8Lead first with
    | none => rfl
    | some lead =>
      cases hcontinued : utf8Continuation lead.2 lead.1 rest with
      | none => simp [hcontinued]
      | some taken =>
        simp only [hcontinued]
        split <;> rfl

/-- A byte `10xxxxxx`. -/
def IsContinuation (b : Byte) : Prop := 128 ≤ b.toNat ∧ b.toNat < 192

/-- The sequences that the validator lets pass, with their code points. -/
inductive Utf8Sequence : Bytes → Nat → Prop where
  | one {a : Byte} : a.toNat < 128 → Utf8Sequence [a] a.toNat
  | two {a x : Byte} {codepoint : Nat} : 0xc2 ≤ a.toNat → a.toNat ≤ 0xdf → IsContinuation x →
      codepoint = a.toNat % 32 * 64 + x.toNat % 64 → utf8CodepointRejected codepoint 1 = false →
      Utf8Sequence [a, x] codepoint
  | three {a x y : Byte} {codepoint : Nat} : 0xe0 ≤ a.toNat → a.toNat ≤ 0xef → IsContinuation x →
      IsContinuation y → codepoint = (a.toNat % 16 * 64 + x.toNat % 64) * 64 + y.toNat % 64 →
      utf8CodepointRejected codepoint 2 = false → Utf8Sequence [a, x, y] codepoint
  | four {a x y z : Byte} {codepoint : Nat} : 0xf0 ≤ a.toNat → a.toNat ≤ 0xf4 → IsContinuation x →
      IsContinuation y → IsContinuation z →
      codepoint = ((a.toNat % 8 * 64 + x.toNat % 64) * 64 + y.toNat % 64) * 64 + z.toNat % 64 →
      utf8CodepointRejected codepoint 3 = false → Utf8Sequence [a, x, y, z] codepoint

variable {codepoint : Nat} {data rest : Bytes}

theorem utf8Continuation_succ_iff {count bits : Nat} :
    utf8Continuation (count + 1) bits data = some (codepoint, rest) ↔
      ∃ x data', data = x :: data' ∧ IsContinuation x ∧
        utf8Continuation count (bits * 64 + x.toNat % 64) data' = some (codepoint, rest) := by
  cases data with
  | nil => simp [utf8Continuation]
  | cons x data' =>
    rw [utf8Continuation_cons]
    by_cases hx : 128 ≤ x.toNat ∧ x.toNat < 192
    · simp [IsContinuation, hx]
    · simp [IsContinuation, hx]

/-- A byte below 128 stands for itself; any other needs its row and the continuation bytes of it. -/
theorem utf8Front_cons_iff {first : Byte} :
    utf8Front (first :: data) = some (codepoint, rest) ↔
      (first.toNat < 128 ∧ first.toNat = codepoint ∧ data = rest) ∨
        ∃ bits count, utf8Lead first = some (bits, count) ∧
          utf8Continuation count bits data = some (codepoint, rest) ∧
          utf8CodepointRejected codepoint count = false := by
  have hascii : first ≤ 0x7f ↔ first.toNat < 128 := UInt8.le_iff_toNat_le.trans Nat.lt_succ_iff.symm
  rw [utf8Front]
  by_cases hfirst : first.toNat < 128
  · have hlead : utf8Lead first = none := by
      rw [utf8Lead_eq, if_neg (by omega), if_neg (by omega), if_neg (by omega)]
    rw [if_pos (hascii.mpr hfirst)]
    simp [hfirst, hlead]
  · rw [if_neg (hascii.not.mpr hfirst)]
    cases utf8Lead first with
    | none => simp [hfirst]
    | some lead =>
      obtain ⟨bits, count⟩ := lead
      cases hcontinued : utf8Continuation count bits data with
      | none => simp [hfirst, hcontinued]
      | some taken =>
        obtain ⟨codepoint', rest'⟩ := taken
        cases hpassed : utf8CodepointRejected codepoint' count with
        | false =>
          simp only [hfirst, hcontinued, hpassed]
          grind
        | true =>
          simp only [hfirst, hcontinued, hpassed]
          grind

/-- The loop takes off the sequences of `Utf8Sequence` and no others. -/
theorem utf8Front_iff_sequence :
    utf8Front data = some (codepoint, rest) ↔
      ∃ sequence, data = sequence ++ rest ∧ Utf8Sequence sequence codepoint := by
  constructor
  · intro h
    cases data with
    | nil => cases h
    | cons first data =>
      rcases utf8Front_cons_iff.mp h with ⟨hascii, rfl, rfl⟩ | ⟨bits, count, hlead, htaken, hpassed⟩
      · exact ⟨[first], rfl, .one hascii⟩
      · rw [utf8Lead_eq] at hlead
        split_ifs at hlead with htwo hthree hfour
        · cases hlead
          obtain ⟨x, _, rfl, hx, hend⟩ := utf8Continuation_succ_iff.mp htaken
          cases hend
          exact ⟨[first, x], rfl, .two htwo.1 htwo.2 hx rfl hpassed⟩
        · cases hlead
          obtain ⟨x, _, rfl, hx, hnext⟩ := utf8Continuation_succ_iff.mp htaken
          obtain ⟨y, _, rfl, hy, hend⟩ := utf8Continuation_succ_iff.mp hnext
          cases hend
          exact ⟨[first, x, y], rfl, .three hthree.1 hthree.2 hx hy rfl hpassed⟩
        · cases hlead
          obtain ⟨x, _, rfl, hx, hnext⟩ := utf8Continuation_succ_iff.mp htaken
          obtain ⟨y, _, rfl, hy, hnext⟩ := utf8Continuation_succ_iff.mp hnext
          obtain ⟨z, _, rfl, hz, hend⟩ := utf8Continuation_succ_iff.mp hnext
          cases hend
          exact ⟨[first, x, y, z], rfl, .four hfour.1 hfour.2 hx hy hz rfl hpassed⟩
  · rintro ⟨sequence, rfl, hsequence⟩
    cases hsequence with
    | one ha => exact utf8Front_cons_iff.mpr (.inl ⟨ha, rfl, rfl⟩)
    | @two a x codepoint hlow hhigh hx hcodepoint hpassed =>
      refine utf8Front_cons_iff.mpr (.inr ⟨a.toNat % 32, 1, ?_, ?_, hpassed⟩)
      · rw [utf8Lead_eq, if_pos ⟨hlow, hhigh⟩]
      · exact utf8Continuation_succ_iff.mpr ⟨_, _, rfl, hx, by rw [hcodepoint]; rfl⟩
    | @three a x y codepoint hlow hhigh hx hy hcodepoint hpassed =>
      refine utf8Front_cons_iff.mpr (.inr ⟨a.toNat % 16, 2, ?_, ?_, hpassed⟩)
      · rw [utf8Lead_eq, if_neg (by omega), if_pos ⟨hlow, hhigh⟩]
      · refine utf8Continuation_succ_iff.mpr ⟨_, _, rfl, hx, ?_⟩
        exact utf8Continuation_succ_iff.mpr ⟨_, _, rfl, hy, by rw [hcodepoint]; rfl⟩
    | @four a x y z codepoint hlow hhigh hx hy hz hcodepoint hpassed =>
      refine utf8Front_cons_iff.mpr (.inr ⟨a.toNat % 8, 3, ?_, ?_, hpassed⟩)
      · rw [utf8Lead_eq, if_neg (by omega), if_neg (by omega), if_pos ⟨hlow, hhigh⟩]
      · refine utf8Continuation_succ_iff.mpr ⟨_, _, rfl, hx, ?_⟩
        refine utf8Continuation_succ_iff.mpr ⟨_, _, rfl, hy, ?_⟩
        exact utf8Continuation_succ_iff.mpr ⟨_, _, rfl, hz, by rw [hcodepoint]; rfl⟩

/-! ### Encodings -/

theorem utf8CodepointRejected_eq_false_iff {count : Nat} :
    utf8CodepointRejected codepoint count = false ↔
      (count = 1 → 0x80 ≤ codepoint) ∧ (count = 2 → 0x800 ≤ codepoint) ∧
        (count = 3 → 0x10000 ≤ codepoint) ∧ codepoint.isValidChar := by
  simp only [utf8CodepointRejected, Bool.or_eq_false_iff, Bool.and_eq_false_iff, beq_eq_false_iff_ne,
    decide_eq_false_iff_not]
  omega

/-- The encoding of a scalar value is let pass, and stands for it. -/
theorem utf8Sequence_encode (c : Char) : Utf8Sequence (String.utf8EncodeChar c) c.toNat := by
  have hvalid : c.toNat.isValidChar := c.valid
  fun_cases String.utf8EncodeChar c with
  | case1 v hone =>
    have hv : v = c.toNat := rfl
    have hbyte : (UInt8.ofNat v).toNat = c.toNat := by
      rw [UInt8.toNat_ofNat']
      omega
    rw [← hbyte]
    exact .one (by omega)
  | case2 v hone htwo =>
    have hv : v = c.toNat := rfl
    refine .two ?_ ?_ ⟨?_, ?_⟩ ?_ (utf8CodepointRejected_eq_false_iff.mpr ?_)
    all_goals simp only [UInt8.toNat_ofNat']; omega
  | case3 v hone htwo hthree =>
    have hv : v = c.toNat := rfl
    refine .three ?_ ?_ ⟨?_, ?_⟩ ⟨?_, ?_⟩ ?_ (utf8CodepointRejected_eq_false_iff.mpr ?_)
    all_goals simp only [UInt8.toNat_ofNat']; omega
  | case4 v hone htwo hthree =>
    have hv : v = c.toNat := rfl
    refine .four ?_ ?_ ⟨?_, ?_⟩ ⟨?_, ?_⟩ ⟨?_, ?_⟩ ?_ (utf8CodepointRejected_eq_false_iff.mpr ?_)
    all_goals simp only [UInt8.toNat_ofNat']; omega

/-- A sequence that is let pass is the encoding of its code point. -/
theorem exists_char_of_sequence {sequence : Bytes} (h : Utf8Sequence sequence codepoint) :
    ∃ c : Char, sequence = String.utf8EncodeChar c := by
  have hvalid : codepoint.isValidChar := by
    cases h with
    | one ha => exact .inl (by omega)
    | two _ _ _ _ hpassed => exact (utf8CodepointRejected_eq_false_iff.mp hpassed).2.2.2
    | three _ _ _ _ _ hpassed => exact (utf8CodepointRejected_eq_false_iff.mp hpassed).2.2.2
    | four _ _ _ _ _ _ hpassed => exact (utf8CodepointRejected_eq_false_iff.mp hpassed).2.2.2
  refine ⟨Char.ofNatAux codepoint hvalid, ?_⟩
  have hv : (Char.ofNatAux codepoint hvalid).val.toNat = codepoint := rfl
  simp only [String.utf8EncodeChar, hv]
  cases h with
  | one ha =>
    rw [if_pos (by omega), UInt8.ofNat_toNat]
  | @two a x codepoint hlow hhigh hx hcodepoint hpassed =>
    have hshort := utf8CodepointRejected_eq_false_iff.mp hpassed
    rw [if_neg (by omega), if_pos (by omega)]
    simp only [List.cons.injEq, and_true, ← UInt8.toNat_inj, UInt8.toNat_ofNat']
    unfold IsContinuation at hx
    omega
  | @three a x y codepoint hlow hhigh hx hy hcodepoint hpassed =>
    have hshort := utf8CodepointRejected_eq_false_iff.mp hpassed
    rw [if_neg (by omega), if_neg (by omega), if_pos (by omega)]
    simp only [List.cons.injEq, and_true, ← UInt8.toNat_inj, UInt8.toNat_ofNat']
    unfold IsContinuation at hx hy
    omega
  | @four a x y z codepoint hlow hhigh hx hy hz hcodepoint hpassed =>
    have hshort := utf8CodepointRejected_eq_false_iff.mp hpassed
    rw [if_neg (by omega), if_neg (by omega), if_neg (by omega)]
    simp only [List.cons.injEq, and_true, ← UInt8.toNat_inj, UInt8.toNat_ofNat']
    unfold IsContinuation at hx hy hz
    omega

/-! ### The whole string -/

/-- What the loop lets pass is a concatenation of encodings. -/
theorem exists_chars_of_isValidUtf8Loop (fuel : Nat) (data : Bytes)
    (h : isValidUtf8Loop fuel data = true) :
    ∃ chars : List Char, data = chars.flatMap String.utf8EncodeChar := by
  induction fuel generalizing data with
  | zero =>
    cases data with
    | nil => exact ⟨[], rfl⟩
    | cons => cases h
  | succ fuel ih =>
    cases data with
    | nil => exact ⟨[], rfl⟩
    | cons first data =>
      rw [isValidUtf8Loop_cons] at h
      cases hfront : utf8Front (first :: data) with
      | none =>
        rw [hfront] at h
        cases h
      | some taken =>
        rw [hfront] at h
        obtain ⟨sequence, hdata, hsequence⟩ := utf8Front_iff_sequence.mp hfront
        obtain ⟨c, rfl⟩ := exists_char_of_sequence hsequence
        obtain ⟨chars, hchars⟩ := ih _ h
        exact ⟨c :: chars, by rw [hdata, hchars, List.flatMap_cons]⟩

/-- The loop lets encodings pass, one an iteration. -/
theorem isValidUtf8Loop_encodings (chars : List Char) (fuel : Nat) (hfuel : chars.length ≤ fuel) :
    isValidUtf8Loop fuel (chars.flatMap String.utf8EncodeChar) = true := by
  induction chars generalizing fuel with
  | nil => cases fuel <;> rfl
  | cons c chars ih =>
    cases fuel with
    | zero => cases hfuel
    | succ fuel =>
      have hfront : utf8Front (String.utf8EncodeChar c ++ chars.flatMap String.utf8EncodeChar)
          = some (c.toNat, chars.flatMap String.utf8EncodeChar) :=
        utf8Front_iff_sequence.mpr ⟨_, rfl, utf8Sequence_encode c⟩
      rw [List.flatMap_cons]
      cases hdata : String.utf8EncodeChar c ++ chars.flatMap String.utf8EncodeChar with
      | nil => rfl
      | cons first data =>
        rw [isValidUtf8Loop_cons, ← hdata, hfront]
        exact ih fuel (Nat.le_of_succ_le_succ hfuel)

theorem length_le_encodings (chars : List Char) :
    chars.length ≤ (chars.flatMap String.utf8EncodeChar).length := by
  induction chars with
  | nil => exact Nat.zero_le _
  | cons c chars ih =>
    have hpos := List.length_pos_iff.mpr (String.utf8EncodeChar_ne_nil (c := c))
    rw [List.flatMap_cons, List.length_cons, List.length_append]
    omega

/-- `is_valid_utf8` accepts exactly the concatenations of encodings of Unicode scalar values. -/
theorem utf8_validation_exact (value : Bytes) :
    isValidUtf8 value = true ↔ ∃ chars : List Char, value = chars.flatMap String.utf8EncodeChar := by
  constructor
  · exact exists_chars_of_isValidUtf8Loop value.length value
  · rintro ⟨chars, rfl⟩
    exact isValidUtf8Loop_encodings chars _ (length_le_encodings chars)

-- an overlong NUL, a surrogate and a truncated character
example : isValidUtf8 [0xc0, 0x80] = false ∧ isValidUtf8 [0xed, 0xa0, 0x80] = false ∧
    isValidUtf8 [0xe2, 0x82] = false := by decide

end Mudmux.Comm
