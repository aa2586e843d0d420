import Mudmux.Lib.Tokenizer
import Mudmux.Proofs.ModeSwitches

/-!
# `Mudmux.Proofs.CharTokens`: the tokens of character input

Character input hands out one token a pass: an escape sequence, a character as `mbrlen` measures it, or
a single byte that belongs to neither.

`_find_char_input_sequence` decides on the bytes it has looked at, and waits only where every continuation
may still matter. So it is a lawful tokenizer, and the tokens of a stream do not depend on the
boundaries of the reads (`char_tokens_prefix_stable`).

A hook that re-arms character input after every message gets the stream token by token. `mbrlen` answers zero
for a NUL, though, and the parser takes that for the length of a token. Such a pass hands out an empty
message and consumes nothing, and so does every pass after it (`char_input_lossless_iff`).
-/

set_option autoImplicit false

namespace Mudmux.Comm

open Mudmux.Lib
open Mudmux.Lib.Program (Returns returns_done)

/-! ### Prefix stability -/

/-- What `mbrlen` guarantees about the prefixes of a stream: a character is made of the bytes it was
given, and an answer other than "incomplete" stays when more bytes follow. -/
structure MbrlenStreams (mbrlen : Bytes → MbrLen) : Prop where
  bounded : ∀ {data : Bytes} {length : Nat}, mbrlen data = .complete length → length ≤ data.length
  append : ∀ {data : Bytes} (more : Bytes), mbrlen data ≠ .incomplete →
    mbrlen (data ++ more) = mbrlen data

section Stability

variable {setup : Setup} {ansi : Bool} {data : Bytes} {charLen : Nat}
  (hmbrlen : MbrlenStreams setup.mbrlen)

include hmbrlen

theorem multibyteLength_append (hdata : data ≠ []) (h : multibyteLength setup data = some charLen)
    (more : Bytes) :
    multibyteLength setup (data ++ more) = some charLen ∧ charLen ≤ data.length := by
  rw [multibyteLength] at h
  cases hlen : setup.mbrlen data with
  | incomplete =>
    rw [hlen] at h
    cases h
  | invalid =>
    rw [hlen] at h
    cases h
    rw [multibyteLength, hmbrlen.append more (by simp [hlen]), hlen]
    exact ⟨rfl, List.length_pos_iff.mpr hdata⟩
  | complete length =>
    rw [hlen] at h
    cases h
    rw [multibyteLength, hmbrlen.append more (by simp [hlen]), hlen]
    exact ⟨rfl, hmbrlen.bounded hlen⟩

/-- A token stays the next token whatever follows, and it is made of the bytes that were there. -/
theorem findCharInputSequence_append (h : findCharInputSequence setup ansi data = some charLen)
    (more : Bytes) :
    findCharInputSequence setup ansi (data ++ more) = some charLen ∧ charLen ≤ data.length := by
  cases charFront ansi data with
  | empty => cases h
  | escape hansi =>
    rw [findCharInputSequence_escape hansi] at h
    cases h
  | openSequence hansi hparams =>
    rw [findCharInputSequence_openSequence hansi hparams] at h
    cases h
  | @sequence hansi params last rest hparams hlast =>
    rw [findCharInputSequence_sequence hansi rest hparams hlast] at h
    have happend : 27 :: 91 :: (params ++ last :: rest) ++ more
        = 27 :: 91 :: (params ++ last :: (rest ++ more)) := by simp
    rw [happend, findCharInputSequence_sequence hansi _ hparams hlast]
    refine ⟨h, ?_⟩
    cases h
    split <;> simp
  | @character first rest hchar =>
    rw [findCharInputSequence_character hchar] at h
    -- the byte behind an ESC was already there
    have hchar' : ansi = true → first = 27 →
        ∃ second tail, rest ++ more = second :: tail ∧ second ≠ 91 := fun hansi hfirst => by
      obtain ⟨second, tail, rfl, hbracket⟩ := hchar hansi hfirst
      exact ⟨second, tail ++ more, rfl, hbracket⟩
    rw [List.cons_append, findCharInputSequence_character hchar']
    exact multibyteLength_append hmbrlen (List.cons_ne_nil _ _) h more

theorem nextChar_lawful : Tokenizer.Lawful (nextChar setup ansi) := by
  intro data token rest more h
  obtain ⟨charLen, hfind, hsplit⟩ := Option.map_eq_some_iff.mp h
  cases hsplit
  obtain ⟨hfind', hle⟩ := findCharInputSequence_append hmbrlen hfind more
  rw [nextChar, hfind', Option.map_some, List.take_append_of_le_length hle,
    List.drop_append_of_le_length hle]

end Stability

/-- Where the scanner waits: at the beginning of an escape sequence, or in the middle of a
character. -/
theorem findCharInputSequence_waits {setup : Setup} {ansi : Bool} {data : Bytes} (hdata : data ≠ [])
    (h : findCharInputSequence setup ansi data = none) :
    ansi = true ∧ (data = [27] ∨ ∃ params, data = 27 :: 91 :: params ∧
        ∀ b ∈ params, isAnsiParameter b = true) ∨
      setup.mbrlen data = .incomplete := by
  cases charFront ansi data with
  | empty => exact absurd rfl hdata
  | escape hansi => exact .inl ⟨hansi, .inl rfl⟩
  | openSequence hansi hparams => exact .inl ⟨hansi, .inr ⟨_, rfl, hparams⟩⟩
  | sequence hansi rest hparams hlast =>
    rw [findCharInputSequence_sequence hansi rest hparams hlast] at h
    cases h
  | character hchar =>
    rw [findCharInputSequence_character hchar, multibyteLength] at h
    right
    split at h
    · assumption
    · cases h
    · cases h

/-- The tokens of character input are prefix-stable. A token stays the same token whatever bytes follow.
The scanner waits only at an ESC, in a control sequence without its last byte, or at an incomplete
character. So however a stream is cut into reads and whenever tokens are taken from it, the tokens are
those of the stream: two such runs differ at most in how many they have taken, and agree when both
wait. -/
theorem char_tokens_prefix_stable (setup : Setup) (ansi : Bool) (hmbrlen : MbrlenStreams setup.mbrlen) :
    (∀ b c k, findCharInputSequence setup ansi b = some k →
      findCharInputSequence setup ansi (b ++ c) = some k ∧ (b ++ c).take k = b.take k) ∧
    (∀ b, b ≠ [] → findCharInputSequence setup ansi b = none →
      ansi = true ∧ (b = [27] ∨ ∃ params, b = 27 :: 91 :: params ∧
          ∀ p ∈ params, isAnsiParameter p = true) ∨
        setup.mbrlen b = .incomplete) ∧
    (∀ (events events' : List (Tokenizer.Event Byte)) (s s' : Tokenizer.State Byte),
      Tokenizer.arrived events = Tokenizer.arrived events' →
      Tokenizer.run (nextChar setup ansi) ⟨[], []⟩ events = s →
      Tokenizer.run (nextChar setup ansi) ⟨[], []⟩ events' = s' →
      (s.tokens <+: s'.tokens ∨ s'.tokens <+: s.tokens) ∧
        (nextChar setup ansi s.buffer = none → nextChar setup ansi s'.buffer = none → s = s')) := by
  refine ⟨fun b c k h => ?_, fun b hb h => findCharInputSequence_waits hb h,
    fun events events' s s' harrived hs hs' => ?_⟩
  · obtain ⟨hfind, hle⟩ := findCharInputSequence_append hmbrlen h c
    exact ⟨hfind, List.take_append_of_le_length hle⟩
  · have hnext : Tokenizer.Lawful (nextChar setup ansi) := nextChar_lawful hmbrlen
    exact ⟨Tokenizer.run_prefix hnext hs hs' harrived,
      Tokenizer.run_eq_of_waiting hnext hs hs' harrived⟩

/-- `mbrlen` in a locale of single-byte characters. -/
def asciiMbrlen : Bytes → MbrLen
  | [] => .incomplete
  | first :: _ => if first = 0 then .complete 0 else if first < 128 then .complete 1 else .invalid

theorem asciiMbrlen_streams : MbrlenStreams asciiMbrlen where
  bounded := by
    intro data length h
    cases data with
    | nil => cases h
    | cons first rest =>
      simp only [asciiMbrlen] at h
      split at h
      · cases h
        exact Nat.zero_le _
      · split at h
        · cases h
          simp
        · cases h
  append := by
    intro data more h
    cases data with
    | nil => exact absurd rfl h
    | cons first rest => rfl

/-- A strict-mode program with an input hook and single-byte characters. -/
def asciiSetup : Setup := { chatSetup with mbrlen := asciiMbrlen }

/-- `ESC [ 3 ~`, with the reads cut behind `[` and behind `3`. -/
theorem char_tokens_prefix_stable_delete :
    Tokenizer.run (nextChar asciiSetup true) ⟨[], []⟩
        [.arrive [27, 91], .take, .arrive [51, 126], .take]
      = Tokenizer.run (nextChar asciiSetup true) ⟨[], []⟩
        [.arrive [27, 91, 51], .take, .take, .arrive [126], .take, .take] :=
  ((char_tokens_prefix_stable asciiSetup true asciiMbrlen_streams).2.2 _ _ _ _ rfl rfl rfl).2
    (by decide) (by decide)

/-! ### Character input to the end -/

/-- ISO C about `mbrlen`: zero for a NUL, otherwise between one byte and those available; and a NUL byte is
no part of another character, complete or not. -/
structure MbrlenIso (mbrlen : Bytes → MbrLen) : Prop where
  nul : ∀ rest, mbrlen (0 :: rest) = .complete 0
  complete : ∀ {first : Byte} {rest : Bytes} {length : Nat}, first ≠ 0 →
    mbrlen (first :: rest) = .complete length →
    0 < length ∧ length ≤ rest.length + 1 ∧ 0 ∉ (first :: rest).take length
  incomplete : ∀ {data : Bytes}, mbrlen data = .incomplete → 0 ∉ data

theorem nextChar_split {setup : Setup} {ansi : Bool} {data token rest : Bytes}
    (h : nextChar setup ansi data = some (token, rest)) : token ++ rest = data := by
  obtain ⟨charLen, _, hsplit⟩ := Option.map_eq_some_iff.mp h
  cases hsplit
  exact List.take_append_drop _ _

section Iso

variable {setup : Setup} {ansi : Bool} {data token rest : Bytes} (hmbrlen : MbrlenIso setup.mbrlen)

include hmbrlen

/-- A NUL is never part of a token, and only a NUL at the front makes an empty one. -/
theorem nul_notMem_token (h : nextChar setup ansi data = some (token, rest)) :
    0 ∉ token ∧ (0 ∉ data → token ≠ []) := by
  obtain ⟨charLen, hfind, hsplit⟩ := Option.map_eq_some_iff.mp h
  cases hsplit
  cases charFront ansi data with
  | empty => cases hfind
  | escape hansi =>
    rw [findCharInputSequence_escape hansi] at hfind
    cases hfind
  | openSequence hansi hparams =>
    rw [findCharInputSequence_openSequence hansi hparams] at hfind
    cases hfind
  | @sequence hansi params last rest hparams hlast =>
    rw [findCharInputSequence_sequence hansi rest hparams hlast, Option.some.injEq] at hfind
    subst hfind
    have hparams' : 0 ∉ params := fun hzero => absurd (hparams 0 hzero) (by decide)
    split
    · next hfinal =>
        have hlast' : last ≠ 0 := by
          rintro rfl
          cases hfinal
        simp [List.take_append, List.take_of_length_le, hparams', hlast'.symm]
    · simp
  | @character first rest hchar =>
    rw [findCharInputSequence_character hchar, multibyteLength] at hfind
    by_cases hnul : first = 0
    · subst hnul
      rw [hmbrlen.nul] at hfind
      cases hfind
      simp
    · split at hfind
      · cases hfind
      · cases hfind
        simp [Ne.symm hnul]
      · next length hlen =>
          cases hfind
          obtain ⟨hpos, -, hclean⟩ := hmbrlen.complete hnul hlen
          refine ⟨hclean, fun _ htake => ?_⟩
          have hlength := congrArg List.length htake
          simp only [List.length_take, List.length_cons, List.length_nil] at hlength
          omega

/-- Where the scanner waits there is no NUL. -/
theorem nul_notMem_of_waiting (h : nextChar setup ansi data = none) : 0 ∉ data := by
  cases charFront ansi data with
  | empty => simp
  | escape => simp
  | openSequence hansi hparams =>
    intro hzero
    simp only [List.mem_cons] at hzero
    rcases hzero with hzero | hzero | hzero
    · cases hzero
    · cases hzero
    · exact absurd (hparams 0 hzero) (by decide)
  | sequence hansi rest hparams hlast =>
    rw [nextChar, findCharInputSequence_sequence hansi rest hparams hlast] at h
    cases h
  | character hchar =>
    rw [nextChar, findCharInputSequence_character hchar, multibyteLength] at h
    split at h
    · next hlen => exact hmbrlen.incomplete hlen
    · cases h
    · cases h

theorem nul_mem_of_taken {tokens : List Bytes}
    (h : Tokenizer.Taken (nextChar setup ansi) data tokens rest) (hnul : 0 ∈ data) : 0 ∈ rest := by
  induction h with
  | nil => exact hnul
  | @cons data token rest tokens rest' hnext _ ih =>
    refine ih ?_
    rw [← nextChar_split hnext, List.mem_append] at hnul
    exact hnul.resolve_left (nul_notMem_token hmbrlen hnext).1

/-- Bytes without NUL make non-empty tokens, so there are no more of them than bytes. -/
theorem taken_of_nul_free {tokens : List Bytes}
    (h : Tokenizer.Taken (nextChar setup ansi) data tokens rest) (hnul : 0 ∉ data) :
    (∀ token ∈ tokens, token ≠ []) ∧ tokens.length ≤ data.length := by
  induction h with
  | nil => simp
  | @cons data token rest tokens rest' hnext _ ih =>
    have hsplit := nextChar_split hnext
    have htoken := (nul_notMem_token hmbrlen hnext).2 hnul
    have hrest : 0 ∉ rest := fun hzero => hnul (by rw [← hsplit]; simp [hzero])
    obtain ⟨htokens, hlen⟩ := ih hrest
    refine ⟨List.forall_mem_cons.mpr ⟨htoken, htokens⟩, ?_⟩
    have hpos := List.length_pos_iff.mpr htoken
    rw [← hsplit, List.length_cons, List.length_append]
    omega

end Iso

/-- Surroundings in which the hook re-arms character input after every message, on a plain slot that
otherwise nobody touches. -/
structure Surroundings.Rearms {ρ : Type} (env : Surroundings ρ) (ansi : Bool) : Prop where
  rearms : ∀ {lineInput deferred : Bool} {data : Bytes} {comm : CommAbstract} (message : Bytes)
    (outside : ρ), PlainInput ansi lineInput deferred data comm → ∃ deferred',
      PlainInput ansi false deferred' data
        (env.foreign (.runHook (.messageInbound message)) comm outside).1
  otherSlots : ∀ {deferred : Bool} {data : Bytes} {comm : CommAbstract} (outside : ρ),
    PlainInput ansi false deferred data comm → ∃ deferred',
      PlainInput ansi false deferred' data (env.foreign .otherSlots comm outside).1
  finalizeAwait : ∀ {deferred : Bool} {data : Bytes} {comm : CommAbstract} (outside : ρ),
    PlainInput ansi false deferred data comm → ∃ deferred',
      PlainInput ansi false deferred' data (env.foreign .finalizeAwait comm outside).1
  notBusy : ∀ outside, env.slotBusy outside = false
  asksQuietly : env.AsksQuietly

/-- A plain slot in character input with these unread bytes. -/
def CharInput (ansi : Bool) (data : Bytes) (comm : CommAbstract) : Prop :=
  ∃ deferred, PlainInput ansi false deferred data comm

/-- `comm_process_input` again and again. -/
def processTimes (setup : Setup) : Nat → Code Unit
  | 0 => pure ()
  | count + 1 => do
    let _ ← commProcessInput setup none
    processTimes setup count

section Passes

variable {ρ : Type} {setup : Setup} {env : Surroundings ρ} {depth : Nat} {ansi deferred : Bool}
  {data : Bytes} {w : World ρ}

theorem Surroundings.Rearms.calm (henv : env.Rearms ansi) (data : Bytes)
    (entries : List (HookCall × CommAbstract)) :
    env.Calm fun w => CharInput ansi data w.comm ∧ w.entries = entries where
  steady := fun ⟨⟨_, h⟩, _⟩ => h.steady
  output _ _ := fun ⟨⟨deferred, h⟩, hentries⟩ => ⟨⟨deferred, { h with }⟩, hentries⟩
  freed := fun ⟨⟨deferred, h⟩, hentries⟩ => ⟨⟨deferred, { h with }⟩, hentries⟩
  otherSlots := fun ⟨⟨_, h⟩, hentries⟩ => ⟨henv.otherSlots _ h, hentries⟩
  finalizeAwait := fun ⟨⟨_, h⟩, hentries⟩ => ⟨henv.finalizeAwait _ h, hentries⟩
  drain h := h

variable (hstrict : setup.relaxed = false) (hreg : setup.registered .messageInbound = true)
  (henv : env.Rearms ansi)

include hstrict hreg henv

/-- A character message: its hook has re-armed character input when the dispatch returns. -/
theorem invokeCharInputMessage_rearms (message : Bytes)
    (h : PlainInput ansi true deferred data w.comm) :
    Returns (slotHandler setup env (depth + 1)) (invokeCharInputMessage setup message) w
      fun result w' => result ≠ .queueFull ∧ PlainInput ansi false true data w'.comm ∧
        w'.inboundMessages = w.inboundMessages ++ [message] := by
  have hprompt (comm : CommAbstract) (h : PlainInput ansi true deferred data comm) :
      PlainInput ansi true deferred data
        (comm.mapFlags fun flags => { flags with invokedPrompt := false }) := { h with }
  rw [invokeCharInputMessage, returns_commGuard h.live]
  simp only [hstrict, Bool.not_false, if_true]
  rw [returns_modifyFlags h.live, commInvokeInboundMessage, Program.bind_assoc',
    returns_commGuard (by exact h.live)]
  simp only [hstrict, Bool.false_eq_true, if_false, Program.bind_assoc']
  rw [returns_modifyFlags (by exact h.live)]
  apply (mudmuxExecutionDispatch_calm (henv.calm data _)
    (fun _ h => h.1.elim fun _ h => h.not_ready) hstrict
    (.messageInbound message) (fun _ => ⟨henv.rearms _ _ (hprompt _ (hprompt _ h)), rfl⟩)
    (fun hnone => absurd (hnone.symm.trans hreg) Bool.false_ne_true)).bind
  rintro result w₁ ⟨hresult, ⟨_, hin⟩, hentries⟩
  rw [Program.pure_eq, commDeferInput, Program.bind_assoc', returns_commGuard hin.live,
    returns_deferInbound hin.live]
  refine returns_done.mpr ⟨hresult, ?_, ?_⟩
  · exact { hin with deferred := rfl }
  · show w₁.inboundMessages = _
    rw [World.inboundMessages, hentries, List.map_append, List.filterMap_append]
    rfl

variable (hmodes : (setup.console && !setup.consoleTty) = false)

include hmodes

/-- A call of `comm_process_input` takes one token, or waits. -/
theorem commProcessInput_rearms (h : CharInput ansi data w.comm) :
    Returns (slotHandler setup env (depth + 1)) (commProcessInput setup none) w fun _ w' =>
      (nextChar setup ansi data = none ∧ CharInput ansi data w'.comm ∧
        w'.inboundMessages = w.inboundMessages) ∨
      ∃ token rest, nextChar setup ansi data = some (token, rest) ∧ CharInput ansi rest w'.comm ∧
        w'.inboundMessages = w.inboundMessages ++ [token] := by
  obtain ⟨deferred, hin⟩ := h
  apply commProcessInput_plain henv.asksQuietly (henv.notBusy _) hin
  intro comm hin
  refine (processText_plain (by exact hin) (fun hline => by cases hline) fun _ => ?_).mono
    fun _ _ hpost => hpost.2
  apply charInput_plain hmodes (by exact hin)
  · intro hwaits
    exact ⟨rfl, hin.live, .inl ⟨hwaits, ⟨_, hin⟩, rfl⟩⟩
  · intro token rest comm₁ hnext hin₁
    apply (invokeCharInputMessage_rearms hstrict hreg henv token (by exact hin₁)).mono
    rintro result w₂ ⟨hresult, hin₂, hmessages⟩
    refine ⟨hresult, _, _, hin₂, fun comm' hin' => ⟨rfl, hin'.live, .inr ?_⟩⟩
    exact ⟨token, rest, hnext, ⟨_, hin'⟩, hmessages⟩

/-- Calls of `comm_process_input` take one token each until the parser waits. -/
theorem processTimes_rearms (depth count : Nat) (w : World ρ) (data : Bytes)
    (h : CharInput ansi data w.comm) :
    Returns (slotHandler setup env (depth + 1)) (processTimes setup count) w fun _ w' =>
      ∃ tokens rest, Tokenizer.Taken (nextChar setup ansi) data tokens rest ∧
        CharInput ansi rest w'.comm ∧ w'.inboundMessages = w.inboundMessages ++ tokens ∧
        (tokens.length = count ∨ nextChar setup ansi rest = none) := by
  induction count generalizing w data with
  | zero => exact returns_done.mpr ⟨[], data, .nil data, h, (List.append_nil _).symm, .inl rfl⟩
  | succ count ih =>
    apply (commProcessInput_rearms hstrict hreg henv hmodes h).bind
    rintro _ w₁ (⟨hwaits, hin, hmessages⟩ | ⟨token, rest, hnext, hin, hmessages⟩)
    · apply (ih w₁ data hin).mono
      rintro _ w₂ ⟨tokens, rest, htaken, hin', hmessages', -⟩
      -- a parser that waits goes on waiting
      obtain ⟨rfl, rfl⟩ := htaken.of_waiting hwaits
      exact ⟨[], rest, htaken, hin', hmessages ▸ hmessages', .inr hwaits⟩
    · apply (ih w₁ rest hin).mono
      rintro _ w₂ ⟨tokens, rest', htaken, hin', hmessages', hend⟩
      refine ⟨token :: tokens, rest', .cons hnext htaken, hin', ?_, ?_⟩
      · rw [hmessages', hmessages, List.append_assoc, List.singleton_append]
      · exact hend.imp (congrArg (· + 1)) id

end Passes

/-- Character input is lossless: from some call of `comm_process_input` on no message is added to
`messages`, none of them is empty, and together with the unread bytes they are `data`. -/
def LosslessInput {ρ : Type} (setup : Setup) (env : Surroundings ρ) (depth : Nat) (ansi : Bool)
    (data : Bytes) (w : World ρ) : Prop :=
  ∃ count messages, ∀ more,
    Returns (slotHandler setup env depth) (processTimes setup (count + more)) w fun _ w' =>
      w'.inboundMessages = w.inboundMessages ++ messages ∧ (∀ message ∈ messages, message ≠ []) ∧
        ∃ rest, CharInput ansi rest w'.comm ∧ messages.flatten ++ rest = data

section Lossless

variable {ρ : Type} {setup : Setup} {env : Surroundings ρ} {ansi : Bool} {data : Bytes} {w : World ρ}
  (hmbrlen : MbrlenIso setup.mbrlen) (hstrict : setup.relaxed = false)
  (hreg : setup.registered .messageInbound = true)
  (hmodes : (setup.console && !setup.consoleTty) = false) (henv : env.Rearms ansi)
  (h : CharInput ansi data w.comm)

include hmbrlen hstrict hreg hmodes henv h

/-- Every token takes a byte, so as many calls as there are bytes are enough. -/
theorem losslessInput_of_nul_free (depth : Nat) (hnul : 0 ∉ data) :
    LosslessInput setup env (depth + 1) ansi data w := by
  have hrun (more : Nat) :
      Returns (slotHandler setup env (depth + 1)) (processTimes setup (data.length + 1 + more)) w
        fun _ w' => ∃ tokens rest, Tokenizer.Taken (nextChar setup ansi) data tokens rest ∧
          CharInput ansi rest w'.comm ∧ w'.inboundMessages = w.inboundMessages ++ tokens ∧
          nextChar setup ansi rest = none := by
    apply (processTimes_rearms hstrict hreg henv hmodes depth _ w data h).mono
    rintro _ w' ⟨tokens, rest, htaken, hin, hmessages, hend⟩
    have hlength := (taken_of_nul_free hmbrlen htaken hnul).2
    exact ⟨tokens, rest, htaken, hin, hmessages, hend.resolve_left (by omega)⟩
  obtain ⟨_, _, _, messages, rest, htaken, -, -, hwaits⟩ := hrun 0
  refine ⟨data.length + 1, messages, fun more => (hrun more).mono ?_⟩
  rintro _ w' ⟨tokens, rest', htaken', hin, hmessages, hwaits'⟩
  obtain ⟨rfl, rfl⟩ := htaken.eq_of_waiting htaken' hwaits hwaits'
  exact ⟨hmessages, (taken_of_nul_free hmbrlen htaken hnul).1, rest, hin,
    htaken.flatten_append nextChar_split⟩

/-- The parser does not get past a NUL and does not wait at it: every call dispatches a message. -/
theorem not_losslessInput_of_nul (depth : Nat) (hnul : 0 ∈ data) :
    ¬ LosslessInput setup env (depth + 1) ansi data w := by
  rintro ⟨count, messages, hall⟩
  have hcount (more : Nat) : messages.length = count + more := by
    obtain ⟨_, w', heval, tokens, rest, htaken, -, hmessages, hend⟩ :=
      processTimes_rearms hstrict hreg henv hmodes depth (count + more) w data h
    obtain ⟨_, w'', heval', hmessages', -⟩ := hall more
    cases heval.symm.trans heval'
    have hsame : tokens = messages := List.append_cancel_left (hmessages.symm.trans hmessages')
    have hrest := nul_mem_of_taken hmbrlen htaken hnul
    have hgoes : nextChar setup ansi rest ≠ none := fun hwaits =>
      nul_notMem_of_waiting hmbrlen hwaits hrest
    exact hsame ▸ hend.resolve_right hgoes
  have hzero := hcount 0
  have hone := hcount 1
  omega

/-- Character input is lossless and comes to an end exactly for bytes without a NUL. -/
theorem char_input_lossless_iff (depth : Nat) :
    LosslessInput setup env (depth + 1) ansi data w ↔ 0 ∉ data := by
  constructor
  · intro hlossless hnul
    exact not_losslessInput_of_nul hmbrlen hstrict hreg hmodes henv h depth hnul hlossless
  · exact losslessInput_of_nul_free hmbrlen hstrict hreg hmodes henv h depth

end Lossless

theorem asciiMbrlen_iso : MbrlenIso asciiMbrlen where
  nul _ := rfl
  complete := by
    intro first rest length hfirst h
    simp only [asciiMbrlen, if_neg hfirst] at h
    split at h
    · cases h
      simp [hfirst.symm]
    · cases h
  incomplete := by
    intro data h
    cases data with
    | nil => simp
    | cons first rest =>
      simp only [asciiMbrlen] at h
      split at h
      · cases h
      · split at h <;> cases h

/-- A hook that calls `comm_set_char_input` after every message. -/
def rearmingPolicy : HookPolicy where
  choose _ := .charInput
  succeeds _ := true

/-- The slot of such a hook: nothing else happens to it. -/
def rearmingSurroundings : Surroundings (List Bytes) :=
  policySurroundings asciiSetup rearmingPolicy fun _ => []

theorem rearmingSurroundings_rearms (ansi : Bool) : rearmingSurroundings.Rearms ansi where
  rearms _ _ h := ⟨_, ModeChoice.apply_plain rfl .charInput h⟩
  otherSlots _ h := ⟨_, h⟩
  finalizeAwait _ h := ⟨_, h⟩
  notBusy _ := rfl
  asksQuietly := policySurroundings_asksQuietly

/-- A plain connection in character input that has received `data`. -/
def charWorld (ansi : Bool) (data : Bytes) (hfits : data.length ≤ bufferSize) : World (List Bytes) where
  comm :=
    { rbio := true
      wbio := true
      flags := { enableAnsi := ansi }
      inbound := [⟨.data, ⟨0, data, LinearBuffer.fits_zero hfits⟩⟩] }
  entries := []
  reads := []
  outside := []

theorem charWorld_charInput (ansi : Bool) (data : Bytes) (hfits : data.length ≤ bufferSize) :
    CharInput ansi data (charWorld ansi data hfits).comm :=
  ⟨false, ⟨⟨rfl, rfl, rfl, rfl, nofun⟩, rfl, rfl⟩, rfl, rfl, rfl, _, rfl, rfl⟩

/-- The Delete key and a letter. -/
theorem char_input_lossless_iff_delete :
    LosslessInput asciiSetup rearmingSurroundings 1 true [27, 91, 51, 126, 97]
      (charWorld true [27, 91, 51, 126, 97] (by decide)) :=
  (char_input_lossless_iff asciiMbrlen_iso rfl rfl rfl (rearmingSurroundings_rearms true)
    (charWorld_charInput true [27, 91, 51, 126, 97] (by decide)) 0).mpr (by decide)

/-- A NUL is an empty message in every call, and stays in the buffer. -/
theorem nul_is_never_consumed :
    ¬ LosslessInput asciiSetup rearmingSurroundings 1 false [0] (charWorld false [0] (by decide)) :=
  not_losslessInput_of_nul asciiMbrlen_iso rfl rfl rfl (rearmingSurroundings_rearms false)
    (charWorld_charInput false [0] (by decide)) 0 (by decide)

end Mudmux.Comm
