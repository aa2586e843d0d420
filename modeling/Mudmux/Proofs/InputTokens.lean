import Mudmux.Comm.HookPolicy
import Mudmux.Proofs.LineInput

/-!
# `Mudmux.Proofs.InputTokens`: messages under a changing input mode

What the buffered bytes of a plain slot mean when the hook may choose the input mode after every
message. `inputSteps` is the reading in which each message is parsed in the mode that the hook of
the message before it left. `passMessages` is the reading of a parser whose line pass does not look
at the mode again: once a pass is in line input, it takes all complete lines.

`passMessages_eq_iff`: the two agree exactly if no hook of a line leaves the slot in character input
with something behind the line that could be parsed (`Exhausted`). The argument is a count: a message
takes at most one line terminator, so the first reading never has fewer messages than there are
lines.
-/

set_option autoImplicit false

namespace Mudmux.Comm

open Mudmux.Lib

/-! ### The next message -/

/-- The first character sequence of the bytes and what is behind it. -/
def nextChar (setup : Setup) (ansi : Bool) (data : Bytes) : Option (Bytes × Bytes) :=
  (findCharInputSequence setup ansi data).map fun charLen => (data.take charLen, data.drop charLen)

/-- The next message in an input mode. -/
def nextMessage (setup : Setup) (ansi lineInput : Bool) (data : Bytes) : Option (Bytes × Bytes) :=
  if lineInput then nextLine data else nextChar setup ansi data

variable {data : Bytes}

/-- Without a line there is no terminator. -/
theorem text_of_nextLine (hnone : nextLine data = none) : ∀ b ∈ data, isTerminator b = false := by
  rcases exists_terminator data with htext | ⟨line, t, rest, rfl, hline, ht⟩
  · exact htext
  · rw [nextLine_eq_some rest hline ht] at hnone
    cases hnone

/-- What the character scanner finds at the front of the bytes: nothing, an escape character alone, a
control sequence without or with its last byte, or something to pass to `mbrlen`. -/
inductive CharFront (ansi : Bool) : Bytes → Prop where
  | empty : CharFront ansi []
  | escape (hansi : ansi = true) : CharFront ansi [27]
  | openSequence (hansi : ansi = true) {params : Bytes}
      (hparams : ∀ b ∈ params, isAnsiParameter b = true) : CharFront ansi (27 :: 91 :: params)
  | sequence (hansi : ansi = true) {params : Bytes} {last : Byte} (rest : Bytes)
      (hparams : ∀ b ∈ params, isAnsiParameter b = true) (hlast : isAnsiParameter last = false) :
      CharFront ansi (27 :: 91 :: (params ++ last :: rest))
  | character {first : Byte} {rest : Bytes}
      (hchar : ansi = true → first = 27 → ∃ second tail, rest = second :: tail ∧ second ≠ 91) :
      CharFront ansi (first :: rest)

theorem charFront (ansi : Bool) (data : Bytes) : CharFront ansi data := by
  cases data with
  | nil => exact .empty
  | cons first rest =>
    by_cases hescape : ansi = true ∧ first = 27
    · obtain ⟨hansi, rfl⟩ := hescape
      cases rest with
      | nil => exact .escape hansi
      | cons second params =>
        by_cases hbracket : second = 91
        · subst hbracket
          have hsplit := List.takeWhile_append_dropWhile (p := isAnsiParameter) (l := params)
          have hparams : ∀ b ∈ params.takeWhile isAnsiParameter, isAnsiParameter b = true :=
            fun b hb => List.mem_takeWhile_imp hb
          rw [← hsplit]
          cases hleft : params.dropWhile isAnsiParameter with
          | nil =>
            rw [List.append_nil]
            exact .openSequence hansi hparams
          | cons last left =>
            refine .sequence hansi left hparams ?_
            have hhead := List.head_dropWhile_not isAnsiParameter
              (show params.dropWhile isAnsiParameter ≠ [] by simp [hleft])
            simpa [hleft] using hhead
        · exact .character fun _ _ => ⟨second, params, rfl, hbracket⟩
    · exact .character fun hansi hfirst => absurd ⟨hansi, hfirst⟩ hescape

variable {rest : Bytes}

section Fronts

variable {setup : Setup} {ansi : Bool} {params : Bytes}

theorem findCharInputSequence_escape (hansi : ansi = true) :
    findCharInputSequence setup ansi [27] = none := by
  simp [findCharInputSequence, hansi]

theorem findCharInputSequence_openSequence (hansi : ansi = true)
    (hparams : ∀ b ∈ params, isAnsiParameter b = true) :
    findCharInputSequence setup ansi (27 :: 91 :: params) = none := by
  have htaken : params.takeWhile isAnsiParameter = params := by
    rw [List.takeWhile_eq_self_iff]
    exact hparams
  simp [findCharInputSequence, hansi, htaken]

theorem findCharInputSequence_sequence (hansi : ansi = true) {last : Byte} (rest : Bytes)
    (hparams : ∀ b ∈ params, isAnsiParameter b = true) (hlast : isAnsiParameter last = false) :
    findCharInputSequence setup ansi (27 :: 91 :: (params ++ last :: rest))
      = some (if isAnsiFinal last then params.length + 3 else 1) := by
  have htaken : (params ++ last :: rest).takeWhile isAnsiParameter = params := by
    rw [List.takeWhile_append_of_pos hparams, List.takeWhile_cons_of_neg (by simp [hlast]),
      List.append_nil]
  simp only [findCharInputSequence, hansi, htaken, List.drop_left, decide_true, Bool.and_self,
    if_true]
  split <;> rfl

theorem findCharInputSequence_character {first : Byte}
    (hchar : ansi = true → first = 27 → ∃ second tail, rest = second :: tail ∧ second ≠ 91) :
    findCharInputSequence setup ansi (first :: rest) = multibyteLength setup (first :: rest) := by
  unfold findCharInputSequence
  dsimp only
  split
  · next hescape =>
      obtain ⟨hansi, hfirst⟩ : ansi = true ∧ first = 27 := by simpa using hescape
      obtain ⟨second, tail, rfl, hbracket⟩ := hchar hansi hfirst
      split
      · next heq => cases heq
      · next heq => exact absurd (List.cons.inj heq).1 hbracket
      · rfl
  · rfl

end Fronts

/-- What `mbrlen` guarantees on bytes without NUL: a character takes a byte at least and no more
than there are, line terminators are characters of their own, and an incomplete character has
none. -/
structure MbrlenOk (mbrlen : Bytes → MbrLen) : Prop where
  complete : ∀ {data : Bytes} {length : Nat}, data ≠ [] → 0 ∉ data →
    mbrlen data = .complete length → 0 < length ∧ length ≤ data.length ∧
      (length = 1 ∨ ∀ b ∈ data.take length, isTerminator b = false)
  incomplete : ∀ {data : Bytes}, data ≠ [] → 0 ∉ data → mbrlen data = .incomplete →
    ∀ b ∈ data, isTerminator b = false

variable {message : Bytes}

section Chars

variable {setup : Setup} {ansi : Bool} (hmbrlen : MbrlenOk setup.mbrlen)
  (hnul : 0 ∉ data)

include hmbrlen hnul

theorem multibyteLength_eq_some {charLen : Nat} (hdata : data ≠ [])
    (h : multibyteLength setup data = some charLen) :
    0 < charLen ∧ charLen ≤ data.length ∧
      (charLen = 1 ∨ ∀ b ∈ data.take charLen, isTerminator b = false) := by
  rw [multibyteLength] at h
  cases hlen : setup.mbrlen data with
  | incomplete =>
    rw [hlen] at h
    cases h
  | invalid =>
    rw [hlen] at h
    cases h
    exact ⟨Nat.one_pos, List.length_pos_iff.mpr hdata, .inl rfl⟩
  | complete length =>
    rw [hlen] at h
    cases h
    exact hmbrlen.complete hdata hnul hlen

theorem multibyteLength_eq_none (hdata : data ≠ []) (h : multibyteLength setup data = none) :
    ∀ b ∈ data, isTerminator b = false := by
  rw [multibyteLength] at h
  cases hlen : setup.mbrlen data with
  | incomplete => exact hmbrlen.incomplete hdata hnul hlen
  | invalid =>
    rw [hlen] at h
    cases h
  | complete length =>
    rw [hlen] at h
    cases h

omit hmbrlen hnul in
theorem isTerminator_of_isAnsiParameter {b : Byte} (h : isAnsiParameter b = true) :
    isTerminator b = false := by
  cases hb : isTerminator b with
  | false => rfl
  | true =>
    simp only [isTerminator, Bool.or_eq_true, decide_eq_true_eq] at hb
    rcases hb with (rfl | rfl) | rfl <;> simp [isAnsiParameter] at h

omit hmbrlen hnul in
theorem isTerminator_of_isAnsiFinal {b : Byte} (h : isAnsiFinal b = true) :
    isTerminator b = false := by
  cases hb : isTerminator b with
  | false => rfl
  | true =>
    simp only [isTerminator, Bool.or_eq_true, decide_eq_true_eq] at hb
    rcases hb with (rfl | rfl) | rfl <;> simp [isAnsiFinal] at h

/-- A character sequence takes a byte at least, and a line terminator only as the whole of it. -/
theorem findCharInputSequence_eq_some {charLen : Nat}
    (h : findCharInputSequence setup ansi data = some charLen) :
    0 < charLen ∧ charLen ≤ data.length ∧
      (charLen = 1 ∨ ∀ b ∈ data.take charLen, isTerminator b = false) := by
  cases charFront ansi data with
  | empty => cases h
  | escape hansi =>
    rw [findCharInputSequence_escape hansi] at h
    cases h
  | openSequence hansi hparams =>
    rw [findCharInputSequence_openSequence hansi hparams] at h
    cases h
  | @sequence hansi params last rest hparams hlast =>
    rw [findCharInputSequence_sequence hansi rest hparams hlast, Option.some.injEq] at h
    subst h
    split
    · next hfinal =>
        refine ⟨by omega, by simp, .inr ?_⟩
        have htake : (27 :: 91 :: (params ++ last :: rest)).take (params.length + 3)
            = 27 :: 91 :: (params ++ [last]) := by
          simp [List.take_append, List.take_of_length_le]
        rw [htake]
        intro b hb
        simp only [List.mem_cons, List.mem_append, List.not_mem_nil, or_false] at hb
        rcases hb with rfl | rfl | hb | rfl
        · rfl
        · rfl
        · exact isTerminator_of_isAnsiParameter (hparams b hb)
        · exact isTerminator_of_isAnsiFinal hfinal
    · exact ⟨Nat.one_pos, by simp, .inl rfl⟩
  | character hchar =>
    rw [findCharInputSequence_character hchar] at h
    exact multibyteLength_eq_some hmbrlen hnul (List.cons_ne_nil _ _) h

/-- An incomplete character sequence has no line terminator in it. -/
theorem findCharInputSequence_eq_none (h : findCharInputSequence setup ansi data = none) :
    ∀ b ∈ data, isTerminator b = false := by
  cases charFront ansi data with
  | empty => nofun
  | escape hansi =>
    intro b hb
    rw [List.mem_singleton.mp hb]
    rfl
  | openSequence hansi hparams =>
    intro b hb
    simp only [List.mem_cons] at hb
    rcases hb with rfl | rfl | hb
    · rfl
    · rfl
    · exact isTerminator_of_isAnsiParameter (hparams b hb)
  | sequence hansi rest hparams hlast =>
    rw [findCharInputSequence_sequence hansi rest hparams hlast] at h
    cases h
  | character hchar =>
    rw [findCharInputSequence_character hchar] at h
    exact multibyteLength_eq_none hmbrlen hnul (List.cons_ne_nil _ _) h

/-- What is left behind a character. -/
theorem nextChar_eq_some (h : nextChar setup ansi data = some (message, rest)) :
    data = message ++ rest ∧ 0 < message.length ∧
      ((∃ b, message = [b]) ∨ ∀ b ∈ message, isTerminator b = false) := by
  rw [nextChar] at h
  cases hfind : findCharInputSequence setup ansi data with
  | none =>
    rw [hfind] at h
    cases h
  | some charLen =>
    rw [hfind] at h
    cases h
    obtain ⟨hpos, hle, hone⟩ := findCharInputSequence_eq_some hmbrlen hnul hfind
    have hlength : (data.take charLen).length = charLen := by
      rw [List.length_take, Nat.min_eq_left hle]
    refine ⟨(List.take_append_drop _ _).symm, by omega, ?_⟩
    rcases hone with rfl | htext
    · exact .inl (List.length_eq_one_iff.mp hlength)
    · exact .inr htext

/-- A message takes something of the bytes. -/
theorem length_rest_lt_of_nextMessage {lineInput : Bool}
    (h : nextMessage setup ansi lineInput data = some (message, rest)) :
    rest.length < data.length := by
  cases lineInput with
  | true => exact length_rest_lt_of_nextLine h
  | false =>
    obtain ⟨rfl, hpos, _⟩ := nextChar_eq_some hmbrlen hnul h
    rw [List.length_append]
    omega

end Chars

theorem nul_notMem_of_nextLine {line : Bytes} (hnul : 0 ∉ data)
    (h : nextLine data = some (line, rest)) : 0 ∉ rest := by
  rcases exists_terminator data with htext | ⟨line', t, rest', rfl, hline, ht⟩
  · rw [nextLine_eq_none htext] at h
    cases h
  · rw [nextLine_eq_some rest' hline ht] at h
    cases h
    intro hmem
    have hrest : 0 ∈ rest' := by
      rw [skipTerminator] at hmem
      split at hmem
      · exact List.mem_of_mem_tail hmem
      · exact hmem
    exact hnul (List.mem_append_right _ (List.mem_cons_of_mem _ hrest))

theorem nul_notMem_of_nextMessage {setup : Setup} {ansi lineInput : Bool} (hnul : 0 ∉ data)
    (h : nextMessage setup ansi lineInput data = some (message, rest)) : 0 ∉ rest := by
  cases lineInput with
  | true => exact nul_notMem_of_nextLine hnul h
  | false =>
    obtain ⟨charLen, _, hrest⟩ := Option.map_eq_some_iff.mp h
    cases hrest
    exact fun hmem => hnul (List.mem_of_mem_drop hmem)

/-! ### Counting lines -/

theorem mem_of_mem_stripSpace {line : Bytes} {b : Byte} (h : b ∈ stripSpace line) : b ∈ line :=
  (List.dropWhile_suffix _).subset ((List.rdropWhile_prefix _ _).subset h)

/-- How many lines there are does not depend on what the first one begins with. -/
theorem length_linesOf_held (held data : Bytes) :
    (linesOf held data).length = (linesOf [] data).length := by
  rcases exists_terminator data with htext | ⟨line, t, rest, rfl, hline, ht⟩
  · rw [linesOf, linesOf, lineReader_run_text held data htext, lineReader_run_text [] data htext]
  · rw [(lineReader_run_line held line t rest hline ht).2,
      (lineReader_run_line [] line t rest hline ht).2, List.length_cons, List.length_cons]

theorem length_linesOf_append_text {text : Bytes} (htext : ∀ b ∈ text, isTerminator b = false)
    (data : Bytes) : (linesOf [] (text ++ data)).length = (linesOf [] data).length := by
  have hrun : linesOf [] (text ++ data) = linesOf text data := by
    rw [linesOf, Transducer.run_append, lineReader_run_text [] text htext]
    rfl
  rw [hrun, length_linesOf_held]

theorem length_linesOf_cons_le (b : Byte) (data : Bytes) :
    (linesOf [] (b :: data)).length ≤ (linesOf [] data).length + 1 := by
  cases hb : isTerminator b with
  | false =>
    have htext : (linesOf [] ([b] ++ data)).length = (linesOf [] data).length :=
      length_linesOf_append_text (by simpa using hb) data
    rw [List.singleton_append] at htext
    omega
  | true =>
    have hcons : linesOf [] (b :: data) = [] :: linesOf [] (skipTerminator b data) :=
      (lineReader_run_line [] [] b data (by simp) hb).2
    rw [hcons, List.length_cons, skipTerminator]
    split
    case isFalse => exact Nat.le_refl _
    case isTrue hpair =>
      -- the LF behind a CR would be a line of its own
      cases data with
      | nil => exact Nat.le_refl _
      | cons c data =>
        have hc : isTerminator c = true ∧ c ≠ 13 := by
          simp only [List.head?_cons, Option.some.injEq, Bool.and_eq_true, Bool.or_eq_true,
            decide_eq_true_eq] at hpair
          rcases hpair.2 with rfl | rfl <;> decide
        have hsame : skipTerminator c data = data := by simp [skipTerminator, hc.2]
        have hline : linesOf [] (c :: data) = [] :: linesOf [] (skipTerminator c data) :=
          (lineReader_run_line [] [] c data (by simp) hc.1).2
        rw [hline, hsame, List.tail_cons, List.length_cons]
        omega

/-! ### Two readings -/

/-- Whether the slot is in line input after the hook. Both parsers dispatch in line input. -/
def ModeChoice.lineAfter : ModeChoice → Bool
  | .charInput => false
  | _ => true

/-- A message that was parsed: in which mode, what was behind it, and the mode its hook left. -/
structure InputStep where
  byLine : Bool
  message : Bytes
  rest : Bytes
  lineAfter : Bool

/-- Each message parsed in the mode that the hook of the message before it left. -/
def inputSteps (setup : Setup) (ansi : Bool) (policy : HookPolicy) :
    Nat → Bool → Bytes → List Bytes → List InputStep
  | 0, _, _, _ => []
  | fuel + 1, lineInput, data, history =>
    match nextMessage setup ansi lineInput data with
    | none => []
    | some (message, rest) =>
      let lineAfter := (policy.choose (history ++ [message])).lineAfter
      ⟨lineInput, message, rest, lineAfter⟩
        :: inputSteps setup ansi policy fuel lineAfter rest (history ++ [message])

/-- The messages of passes of which one in line input takes all lines. -/
def passMessages (setup : Setup) (ansi : Bool) (policy : HookPolicy) :
    Nat → Bool → Bytes → List Bytes → List Bytes
  | 0, _, _, _ => []
  | fuel + 1, lineInput, data, history =>
    if lineInput then linesOf [] data
    else
      match nextChar setup ansi data with
      | none => []
      | some (message, rest) =>
        message :: passMessages setup ansi policy fuel (policy.choose (history ++ [message])).lineAfter
          rest (history ++ [message])

/-- Nothing can be parsed, neither as a line nor as a character. -/
def Exhausted (setup : Setup) (ansi : Bool) (rest : Bytes) : Prop :=
  nextLine rest = none ∧ nextChar setup ansi rest = none

/-- Whenever the hook of a line leaves the slot in character input, nothing is left that could be
parsed. -/
def SwitchesSettled (setup : Setup) (ansi : Bool) (steps : List InputStep) : Prop :=
  ∀ step ∈ steps, step.byLine = true → step.lineAfter = false → Exhausted setup ansi step.rest

/-- The parsers read the same messages in strict and in relaxed mode. -/
theorem inputSteps_relaxed (setup : Setup) (relaxed ansi : Bool) (policy : HookPolicy) (fuel : Nat)
    (lineInput : Bool) (data : Bytes) (history : List Bytes) :
    inputSteps { setup with relaxed } ansi policy fuel lineInput data history
      = inputSteps setup ansi policy fuel lineInput data history := by
  induction fuel generalizing lineInput data history with
  | zero => rfl
  | succ fuel ih =>
    have hnext : nextMessage { setup with relaxed } ansi lineInput data
        = nextMessage setup ansi lineInput data := rfl
    rw [inputSteps, inputSteps, hnext]
    simp only [ih]

section Readings

variable {setup : Setup} {ansi : Bool} {policy : HookPolicy} (hmbrlen : MbrlenOk setup.mbrlen)

include hmbrlen

variable {fuel : Nat}

/-- A byte of fuel for every byte, and one to see the end, is enough. -/
theorem inputSteps_fuel {fuel' : Nat} (hnul : 0 ∉ data) (hfuel : data.length < fuel)
    (hfuel' : data.length < fuel') (lineInput : Bool) (history : List Bytes) :
    inputSteps setup ansi policy fuel lineInput data history
      = inputSteps setup ansi policy fuel' lineInput data history := by
  induction fuel generalizing fuel' data lineInput history with
  | zero => omega
  | succ fuel ih =>
    obtain ⟨fuel', rfl⟩ := Nat.exists_eq_add_one_of_ne_zero (by omega : fuel' ≠ 0)
    rw [inputSteps, inputSteps]
    cases hnext : nextMessage setup ansi lineInput data with
    | none => rfl
    | some parsed =>
      obtain ⟨message, rest⟩ := parsed
      have hshort := length_rest_lt_of_nextMessage hmbrlen hnul hnext
      exact congrArg _ (ih (nul_notMem_of_nextMessage hnul hnext) (by omega) (by omega) _ _)

/-- A message takes at most one terminator, so there is a message for every line. -/
theorem length_linesOf_le (hnul : 0 ∉ data) (hfuel : data.length < fuel) (lineInput : Bool)
    (history : List Bytes) :
    (linesOf [] data).length
      ≤ (inputSteps setup ansi policy fuel lineInput data history).length := by
  induction fuel generalizing data lineInput history with
  | zero => omega
  | succ fuel ih =>
    rw [inputSteps]
    cases hnext : nextMessage setup ansi lineInput data with
    | none =>
      have hnone : nextLine data = none := by
        cases lineInput with
        | true => exact hnext
        | false =>
          exact nextLine_eq_none (findCharInputSequence_eq_none hmbrlen hnul
            (Option.map_eq_none_iff.mp hnext))
      rw [linesOf_nextLine, hnone]
      exact Nat.zero_le _
    | some parsed =>
      obtain ⟨message, rest⟩ := parsed
      have hshort := length_rest_lt_of_nextMessage hmbrlen hnul hnext
      have hrest := ih (nul_notMem_of_nextMessage hnul hnext) (by omega)
        (policy.choose (history ++ [message])).lineAfter (history ++ [message])
      have hone : (linesOf [] data).length ≤ (linesOf [] rest).length + 1 := by
        cases lineInput with
        | true =>
          rw [linesOf_nextLine data, show nextLine data = some (message, rest) from hnext]
          exact Nat.le_refl _
        | false =>
          obtain ⟨rfl, _, ⟨b, rfl⟩ | htext⟩ := nextChar_eq_some hmbrlen hnul hnext
          · exact length_linesOf_cons_le b rest
          · rw [length_linesOf_append_text htext]
            exact Nat.le_succ _
      rw [List.length_cons]
      omega

/-- Lines and characters are different readings of bytes that are not settled: behind a character
that happens to be a line, its terminator is still to be read. -/
theorem linesOf_eq_chars_iff (hnul : 0 ∉ data) (hfuel : data.length < fuel) (history : List Bytes) :
    linesOf [] data
        = (inputSteps setup ansi policy fuel false data history).map InputStep.message
      ↔ Exhausted setup ansi data := by
  obtain ⟨fuel, rfl⟩ := Nat.exists_eq_add_one_of_ne_zero (by omega : fuel ≠ 0)
  rw [inputSteps, Exhausted, show nextMessage setup ansi false data = nextChar setup ansi data from rfl]
  cases hchar : nextChar setup ansi data with
  | none =>
    have hnone : nextLine data = none :=
      nextLine_eq_none (findCharInputSequence_eq_none hmbrlen hnul (Option.map_eq_none_iff.mp hchar))
    rw [linesOf_nextLine, hnone]
    simp
  | some parsed =>
    obtain ⟨message, rest⟩ := parsed
    refine iff_of_false ?_ (fun h => nomatch h.2)
    intro heq
    obtain ⟨hdata, hpos, _⟩ := nextChar_eq_some hmbrlen hnul hchar
    rw [linesOf_nextLine] at heq
    rcases exists_terminator data with htext | ⟨line, t, rest', hline', hline, ht⟩
    · rw [nextLine_eq_none htext] at heq
      cases heq
    · have hnext : nextLine data = some (stripSpace line, skipTerminator t rest') := by
        rw [hline', nextLine_eq_some rest' hline ht]
      rw [hnext, List.map_cons, List.cons.injEq] at heq
      obtain ⟨hmessage, htail⟩ : stripSpace line = message ∧ linesOf [] _ = _ := heq
      have htext : ∀ b ∈ message, isTerminator b = false := by
        intro b hb
        rw [← hmessage] at hb
        exact hline b (mem_of_mem_stripSpace hb)
      have hlines : (linesOf [] data).length = (linesOf [] (skipTerminator t rest')).length + 1 := by
        rw [linesOf_nextLine, hnext, List.length_cons]
      have hparsed : nextMessage setup ansi false data = some (message, rest) := hchar
      have hshort := length_rest_lt_of_nextMessage hmbrlen hnul hparsed
      have hcount : (linesOf [] rest).length
          ≤ (inputSteps setup ansi policy fuel _ rest (history ++ [message])).length :=
        length_linesOf_le hmbrlen (nul_notMem_of_nextMessage hnul hparsed) (by omega)
          (policy.choose (history ++ [message])).lineAfter _
      have hlength := congrArg List.length htail
      rw [List.length_map] at hlength
      rw [hdata, length_linesOf_append_text htext] at hlines
      omega

omit hmbrlen in
theorem switchesSettled_cons (step : InputStep) (steps : List InputStep) :
    SwitchesSettled setup ansi (step :: steps)
      ↔ (step.byLine = true → step.lineAfter = false → Exhausted setup ansi step.rest) ∧
        SwitchesSettled setup ansi steps := by
  rw [SwitchesSettled, List.forall_mem_cons]
  rfl

/-- The two readings agree exactly if hooks of lines switch to character input only where nothing
is left to parse. -/
theorem passMessages_eq_iff (hnul : 0 ∉ data) (hfuel : data.length < fuel) (lineInput : Bool)
    (history : List Bytes) :
    passMessages setup ansi policy fuel lineInput data history
        = (inputSteps setup ansi policy fuel lineInput data history).map InputStep.message
      ↔ SwitchesSettled setup ansi
          (inputSteps setup ansi policy fuel lineInput data history) := by
  induction fuel generalizing data lineInput history with
  | zero => omega
  | succ fuel ih =>
    rw [passMessages, inputSteps]
    cases lineInput with
    | false =>
      rw [if_neg Bool.false_ne_true,
        show nextMessage setup ansi false data = nextChar setup ansi data from rfl]
      cases hnext : nextChar setup ansi data with
      | none => exact iff_of_true rfl nofun
      | some parsed =>
        obtain ⟨message, rest⟩ := parsed
        have hparsed : nextMessage setup ansi false data = some (message, rest) := hnext
        have hshort := length_rest_lt_of_nextMessage hmbrlen hnul hparsed
        dsimp only
        rw [switchesSettled_cons, List.map_cons, List.cons.injEq,
          ← ih (nul_notMem_of_nextMessage hnul hparsed) (by omega)]
        simp
    | true =>
      rw [if_pos rfl, show nextMessage setup ansi true data = nextLine data from rfl,
        linesOf_nextLine]
      cases hnext : nextLine data with
      | none => exact iff_of_true rfl nofun
      | some parsed =>
        obtain ⟨line, rest⟩ := parsed
        have hshort := length_rest_lt_of_nextLine hnext
        have hnul' := nul_notMem_of_nextLine hnul hnext
        dsimp only
        rw [switchesSettled_cons, List.map_cons, List.cons.injEq]
        cases hafter : (policy.choose (history ++ [line])).lineAfter with
        | true =>
          -- the pass and the other reading go on in line input
          obtain ⟨fuel, rfl⟩ := Nat.exists_eq_add_one_of_ne_zero (by omega : fuel ≠ 0)
          have hrest := ih hnul' (by omega) true (history ++ [line])
          rw [passMessages, if_pos rfl] at hrest
          rw [hrest]
          simp
        | false =>
          rw [linesOf_eq_chars_iff hmbrlen hnul' (by omega)]
          constructor
          · rintro ⟨_, hsettled⟩
            refine ⟨fun _ _ => hsettled, ?_⟩
            -- nothing follows
            obtain ⟨fuel, rfl⟩ := Nat.exists_eq_add_one_of_ne_zero (by omega : fuel ≠ 0)
            rw [inputSteps,
              show nextMessage setup ansi false rest = none from hsettled.2]
            nofun
          · rintro ⟨hsettled, _⟩
            exact ⟨rfl, hsettled rfl rfl⟩

end Readings

end Mudmux.Comm
