import Mudmux.Proofs.Capacity

/-!
# `Mudmux.Proofs.TlsRecords`: line input through TLS

`comm_refill_inbound_buffers` of an established TLS slot reads on for as long as OpenSSL holds decrypted
bytes, which is to the end of the record, and the parser only runs behind it. A record has up to 16384
bytes and the inbound buffer 4096, so a record with more lines than the buffer can hold is refused even
if each line is short. A plain slot parses after every read of the transport.

`exchange` follows a slot that refills and parses in turn, whatever it is sent through. A round in which
the slot is sent `src` does what the line reader does with the application bytes of `src`, if they fit
(`Sends`); `tlsRound_sends` and `plainRound_sends` say so of the two kinds of slot, and
`exchange_returns` of all rounds together. Both slots deliver the same payloads if every record fits and
no CR is cut from the LF or NUL behind it (`tls_input_transparent_iff`).
-/

set_option autoImplicit false

namespace Mudmux.Comm

open Mudmux.Lib
open Mudmux.Lib.Program (Returns returns_done returns_bind effect)

/-! ### Sources in pieces -/

variable (decoder : Transducer TelnetState Byte Byte)

/-- Two sources fit one behind the other exactly if they fit as one. -/
theorem fitsBuffer_append (state : TelnetState) (held : Nat) (src : Bytes) (hsrc : src ≠ [])
    (rest : Bytes) :
    fitsBuffer decoder state held (src ++ rest) ↔
      fitsBuffer decoder state held src ∧
        fitsBuffer decoder (decoder.run state src).1
          (held + (decoder.run state src).2.length) rest := by
  have hshort : (decoder.run state src.dropLast).2.length ≤ (decoder.run state src).2.length := by
    conv_rhs => rw [← List.dropLast_append_getLast hsrc, Transducer.run_append]
    rw [List.length_append]
    omega
  by_cases hrest : rest = []
  · subst hrest
    rw [List.append_nil, and_iff_left (.inl rfl)]
  · -- only the last byte of the whole need not leave room behind it
    have happend : src ++ rest ≠ [] := by simp [hsrc]
    rw [fitsBuffer, fitsBuffer, fitsBuffer, or_iff_right happend, or_iff_right hsrc,
      or_iff_right hrest, List.dropLast_append_of_ne_nil hrest, Transducer.run_append]
    rw [List.length_append]
    omega

/-- The application bytes of each source, with the parser's state carried from one to the next. -/
def decodedChunks (decoder : Transducer TelnetState Byte Byte) : TelnetState → List Bytes → List Bytes
  | _, [] => []
  | state, src :: srcs =>
    (decoder.run state src).2 :: decodedChunks decoder (decoder.run state src).1 srcs

theorem flatten_decodedChunks (state : TelnetState) (srcs : List Bytes) :
    (decodedChunks decoder state srcs).flatten = (decoder.run state srcs.flatten).2 := by
  induction srcs generalizing state with
  | nil => rfl
  | cons src srcs ih =>
    rw [decodedChunks, List.flatten_cons, List.flatten_cons, Transducer.run_append, ih]

/-! ### What a slot is sent -/

/-- A TLS record as `SSL_read_ex` hands it out: pieces of plaintext, none of them empty and none longer than
the caller's array, and `SSL_has_pending` holds between them. -/
structure TlsRecord where
  pieces : List Chunk
  nonempty : ∀ piece ∈ pieces, piece.data ≠ []
  short : (wireBytes pieces).length ≤ 16384

/-- The plaintext of a record. -/
def TlsRecord.data (record : TlsRecord) : Bytes := wireBytes record.pieces

variable {ρ : Type}

/-- The surroundings while OpenSSL has this record to hand out. -/
def Surroundings.decrypting (env : Surroundings ρ) (record : TlsRecord) : Surroundings ρ :=
  { env with sslRead := fun _ => ⟨record.pieces, true⟩ }

/-- One refill and the parser behind it, with one record to be read. -/
def tlsRound (setup : Setup) (env : Surroundings ρ) (depth : Nat) (record : TlsRecord) (w : World ρ) :
    Option (Bool × World ρ) :=
  (readRounds setup 1).eval (slotHandler setup (env.decrypting record) depth) w

/-- One refill and the parser behind it, with one read of the transport to come. -/
def plainRound (setup : Setup) (env : Surroundings ρ) (depth : Nat) (read : Chunk) (w : World ρ) :
    Option (Bool × World ρ) :=
  (readRounds setup 1).eval (slotHandler setup env depth) { w with reads := [.data read] }

/-- Rounds one after the other, until a refill fails. -/
def exchange {S : Type} (round : S → World ρ → Option (Bool × World ρ)) :
    List S → World ρ → Option (Bool × World ρ)
  | [], w => some (true, w)
  | src :: srcs, w =>
    (round src w).bind fun r => if r.1 then exchange round srcs r.2 else some r

/-! ### One round -/

/-- A line-input slot that waits for input, with the state of its Telnet parser and the unfinished line in
its buffer. -/
structure World.Listening (ssl enableTelnet : Bool) (state : TelnetState) (held : Bytes)
    (w : World ρ) : Prop where
  lineSlot : LineSlot w.comm
  ssl : w.comm.ssl = ssl
  enableTelnet : w.comm.flags.enableTelnet = enableTelnet
  telnetState : w.comm.flags.telnetState = state
  buffer : ∃ buf, OneBuffer w.comm buf ∧ buf.data = held
  unfinished : ∀ b ∈ held, isTerminator b = false

/-- A refill took `src`: its application bytes stand in the buffer, and no message was handed out. -/
structure World.Took (enableTelnet : Bool) (state : TelnetState) (held src : Bytes)
    (w w' : World ρ) : Prop where
  input : InputKept True
    { w.comm with
        inbound := w'.comm.inbound
        flags := { w.comm.flags with
          telnetState := ((slotDecoder enableTelnet).run state src).1 } } w'.comm
  buffer : ∃ buf, OneBuffer w'.comm buf ∧
    buf.data = held ++ ((slotDecoder enableTelnet).run state src).2
  messages : w'.inboundMessages = w.inboundMessages

/-- A round in which the slot is sent `src` is what the line reader does with the application bytes, if
they fit. -/
def Sends (ssl enableTelnet : Bool) (src : Bytes) (round : World ρ → Option (Bool × World ρ)) : Prop :=
  ∀ state held (w : World ρ), w.Listening ssl enableTelnet state held →
    ∃ accepted w', round w = some (accepted, w') ∧
      (accepted = true ↔ fitsBuffer (slotDecoder enableTelnet) state held.length src) ∧
      (accepted = true →
        w'.Listening ssl enableTelnet ((slotDecoder enableTelnet).run state src).1
          (partialLine held ((slotDecoder enableTelnet).run state src).2) ∧
        w'.inboundMessages
          = w.inboundMessages ++ linesOf held ((slotDecoder enableTelnet).run state src).2)

section Round

variable {setup : Setup} {env : Surroundings ρ} {depth : Nat} {ssl enableTelnet : Bool}
  {state : TelnetState} {held : Bytes} {w w' w'' : World ρ}

variable {buf : Cells}

/-- Nothing was sent. -/
theorem World.Took.refl (hslot : TextSlot w.comm) (hstate : w.comm.flags.telnetState = state)
    (hbuf : OneBuffer w.comm buf) :
    w.Took enableTelnet state buf.data [] w where
  input := ⟨hslot, rfl, rfl, rfl, hstate, rfl, fun _ => rfl⟩
  buffer := ⟨buf, hbuf, (List.append_nil _).symm⟩
  messages := rfl

variable {src : Bytes}

theorem World.Took.trans {rest : Bytes} (h : w.Took enableTelnet state held src w')
    (h' : w'.Took enableTelnet ((slotDecoder enableTelnet).run state src).1
      (held ++ ((slotDecoder enableTelnet).run state src).2) rest w'') :
    w.Took enableTelnet state held (src ++ rest) w'' where
  input := by
    have hin := h.input
    have hin' := h'.input
    refine ⟨hin'.textSlot, rfl, hin'.ssl.trans hin.ssl, hin'.enableTelnet.trans hin.enableTelnet,
      ?_, hin'.awaitingHook.trans hin.awaitingHook,
      fun hmode => (hin'.lineInput hmode).trans (hin.lineInput hmode)⟩
    rw [Transducer.run_append]
    exact hin'.telnetState
  buffer := by
    obtain ⟨buf, hbuf, hdata⟩ := h'.buffer
    refine ⟨buf, hbuf, ?_⟩
    rw [hdata, Transducer.run_append, List.append_assoc]
  messages := h'.messages.trans h.messages

/-- What a refill of a text slot leaves. -/
theorem World.Took.of_refilled
    (hdata : buf.data = held ++ ((slotDecoder enableTelnet).run state src).2)
    (hkept : InputKept True
      (w.comm.refilled buf ((slotDecoder enableTelnet).run state src).1) w'.comm)
    (hmessages : w'.inboundMessages = w.inboundMessages) :
    w.Took enableTelnet state held src w' where
  input := { hkept with inbound := rfl }
  buffer := ⟨buf, .inl hkept.inbound, hdata⟩
  messages := hmessages

variable (henv : env.KeepsInput True) (hstrict : setup.relaxed = false)

include henv hstrict

/-- The read loop of a TLS slot takes all pieces exactly if they fit as one source. -/
theorem refillTls_returns (pieces : List Chunk) (hpieces : ∀ piece ∈ pieces, piece.data ≠ [])
    (w : World ρ) (hslot : TextSlot w.comm) (htelnet : w.comm.flags.enableTelnet = enableTelnet)
    (hstate : w.comm.flags.telnetState = state) (buf : Cells) (hbuf : OneBuffer w.comm buf) :
    Returns (slotHandler setup env (depth + 1)) (refillTls setup pieces true) w
      fun accepted w' =>
        (accepted = true ↔ fitsBuffer (slotDecoder enableTelnet) state buf.data.length
          (wireBytes pieces)) ∧
        (accepted = true → w.Took enableTelnet state buf.data (wireBytes pieces) w') := by
  induction pieces generalizing w state buf with
  | nil =>
    refine returns_done.mpr ⟨iff_of_true rfl (.inl rfl), fun _ => ?_⟩
    exact .refl hslot hstate hbuf
  | cons piece pieces ih =>
    have hne := hpieces piece List.mem_cons_self
    have hempty : ¬ piece.data.isEmpty = true := by
      rw [List.isEmpty_iff]
      exact hne
    rw [refillTls, if_neg hempty, wireBytes, List.flatMap_cons,
      fitsBuffer_append _ state buf.data.length piece.data hne]
    have hdecoder : slotDecoder w.comm.flags.enableTelnet = slotDecoder enableTelnet := by
      rw [htelnet]
    apply (refill_decodes henv hstrict hslot buf hbuf piece.data hdecoder).bind
    rintro accepted w₁ ⟨hfits, htaken⟩
    rw [hstate] at hfits htaken
    cases accepted with
    | false =>
      -- the loop ends at the first piece that is refused
      refine returns_done.mpr ⟨iff_of_false Bool.false_ne_true fun hall => ?_, by simp⟩
      exact Bool.false_ne_true (hfits.mpr hall.1)
    | true =>
      obtain ⟨-, hmessages, buf₁, hdata₁, hkept⟩ := htaken rfl
      have htook : w.Took enableTelnet state buf.data piece.data w₁ :=
        .of_refilled hdata₁ hkept hmessages
      have hrest := ih (fun p hp => hpieces p (List.mem_cons_of_mem _ hp)) w₁ hkept.textSlot
        (hkept.enableTelnet.trans htelnet) hkept.telnetState buf₁ (.inl hkept.inbound)
      rw [hdata₁] at hrest
      refine hrest.mono fun accepted w₂ h => ⟨?_, fun haccepted => htook.trans (h.2 haccepted)⟩
      rw [h.1, and_iff_right (hfits.mp rfl), List.length_append]
      rfl

/-- A refill of an established TLS slot reads one record to its end. -/
theorem commRefillInboundBuffers_tls (hslot : TextSlot w.comm) (hssl : w.comm.ssl = true)
    (htelnet : w.comm.flags.enableTelnet = enableTelnet) (hstate : w.comm.flags.telnetState = state)
    (hbuf : OneBuffer w.comm buf) (record : TlsRecord) :
    Returns (slotHandler setup (env.decrypting record) (depth + 1))
      (commRefillInboundBuffers setup) w fun accepted w' =>
        (accepted = true ↔ fitsBuffer (slotDecoder enableTelnet) state buf.data.length
          record.data) ∧
        (accepted = true → w.Took enableTelnet state buf.data record.data w') := by
  have henv' : (env.decrypting record).KeepsInput True := ⟨henv.foreign, henv.notBusy⟩
  rw [commRefillInboundBuffers, returns_commGuard hslot.live]
  dsimp only
  rw [if_pos hssl, commTlsHandshakeStep, Program.bind_assoc', returns_commGuard hslot.live]
  dsimp only
  rw [hslot.established hssl, Bool.or_true, if_pos rfl, Program.pure_eq, Program.done_bind]
  dsimp only
  rw [returns_commDeref hslot.live, Program.effect_bind,
    returns_answered (slotHandler_of_unfold_none _ rfl)]
  refine (refillTls_returns henv' hstrict record.pieces record.nonempty
    { w with outside := (env.foreign .sslRead w.comm w.outside).2 } hslot htelnet hstate buf
    hbuf).mono fun accepted w' h => ⟨h.1, fun haccepted => ?_⟩
  have htook := h.2 haccepted
  exact ⟨htook.input, htook.buffer, htook.messages⟩

variable (hreg : setup.registered .messageInbound = true)

include hreg

/-- Behind a refill that took `src` the parser hands out the lines and leaves the unfinished one. -/
theorem readRounds_one (hw : w.Listening ssl enableTelnet state held) {w₀ : World ρ}
    (hrefill : Returns (slotHandler setup env (depth + 1)) (commRefillInboundBuffers setup) w₀
      fun accepted w' =>
        (accepted = true ↔ fitsBuffer (slotDecoder enableTelnet) state held.length src) ∧
        (accepted = true → w.Took enableTelnet state held src w')) :
    Returns (slotHandler setup env (depth + 1)) (readRounds setup 1) w₀ fun accepted w' =>
      (accepted = true ↔ fitsBuffer (slotDecoder enableTelnet) state held.length src) ∧
      (accepted = true →
        w'.Listening ssl enableTelnet ((slotDecoder enableTelnet).run state src).1
          (partialLine held ((slotDecoder enableTelnet).run state src).2) ∧
        w'.inboundMessages
          = w.inboundMessages ++ linesOf held ((slotDecoder enableTelnet).run state src).2) := by
  rw [readRounds]
  apply hrefill.bind
  rintro accepted w₁ ⟨hfits, htook⟩
  cases accepted with
  | false => exact returns_done.mpr ⟨hfits, by simp⟩
  | true =>
    have h₁ := htook rfl
    obtain ⟨buf₁, hbuf₁, hdata₁⟩ := h₁.buffer
    have hslot₁ : LineSlot w₁.comm :=
      ⟨h₁.input.textSlot, (h₁.input.lineInput trivial).trans hw.lineSlot.lineInput,
        h₁.input.awaitingHook.trans hw.lineSlot.notAwaiting⟩
    rw [if_pos rfl]
    apply (commProcessInput_oneBuffer henv hstrict hslot₁ hbuf₁).bind
    rintro _ w₂ ⟨-, hkept, ⟨buf₂, hbuf₂, hdata₂⟩, entered, hentries, hcalls⟩
    -- the reader has the held bytes behind it before it sees the first new one
    have hrun : ∀ data, lineReader.run ⟨[], false⟩ (held ++ data)
        = lineReader.run ⟨held, false⟩ data := by
      intro data
      rw [Transducer.run_append, lineReader_run_text [] held hw.unfinished, List.nil_append]
      rfl
    have hmessages := inboundMessages_of_lines hreg hentries hcalls
    rw [hdata₁, linesOf, hrun, h₁.messages] at hmessages
    rw [hdata₁, partialLine, hrun] at hdata₂
    refine returns_done.mpr ⟨hfits, fun _ => ⟨?_, hmessages⟩⟩
    exact {
      lineSlot := (hslot₁.with_inbound _).of_kept hkept
      ssl := (hkept.ssl.trans h₁.input.ssl).trans hw.ssl
      enableTelnet := (hkept.enableTelnet.trans h₁.input.enableTelnet).trans hw.enableTelnet
      telnetState := hkept.telnetState.trans h₁.input.telnetState
      buffer := ⟨buf₂, hbuf₂, hdata₂⟩
      unfinished := lineReader_run_held ⟨held, false⟩ _ hw.unfinished }

theorem tlsRound_sends (record : TlsRecord) :
    Sends true enableTelnet record.data (tlsRound setup env (depth + 1) record) := by
  intro state held w hw
  obtain ⟨buf, hbuf, rfl⟩ := hw.buffer
  have henv' : (env.decrypting record).KeepsInput True := ⟨henv.foreign, henv.notBusy⟩
  exact readRounds_one henv' hstrict hreg hw (commRefillInboundBuffers_tls henv hstrict
    hw.lineSlot.toTextSlot hw.ssl hw.enableTelnet hw.telnetState hbuf record)

theorem plainRound_sends (read : Chunk) :
    Sends false enableTelnet read.data (plainRound setup env (depth + 1) read) := by
  intro state held w hw
  obtain ⟨buf, hbuf, rfl⟩ := hw.buffer
  have hdecoder : slotDecoder w.comm.flags.enableTelnet = slotDecoder enableTelnet := by
    rw [hw.enableTelnet]
  have hslot : TextSlot ({ w with reads := [.data read] } : World ρ).comm := hw.lineSlot.toTextSlot
  apply readRounds_one henv hstrict hreg hw
  apply (commRefillInboundBuffers_returns henv hstrict hslot hw.ssl hbuf rfl hdecoder).mono
  rintro accepted w' ⟨hfits, htaken⟩
  rw [hw.telnetState] at hfits htaken
  refine ⟨hfits, fun haccepted => ?_⟩
  obtain ⟨-, hmessages, buf', hbuf', hdata, hkept⟩ := htaken haccepted
  exact ⟨hkept, ⟨buf', hbuf', hdata⟩, hmessages⟩

end Round

/-! ### All rounds -/

/-- Rounds of any kind: every refill succeeds exactly if every source fits, and the slot then delivers the
lines of a reader that forgets a CR at every cut. -/
theorem exchange_returns {S : Type} {round : S → World ρ → Option (Bool × World ρ)}
    {data : S → Bytes} {ssl enableTelnet : Bool}
    (hround : ∀ src, Sends ssl enableTelnet (data src) (round src)) (srcs : List S)
    (state : TelnetState) (held : Bytes) (w : World ρ) (hw : w.Listening ssl enableTelnet state held) :
    ∃ accepted w', exchange round srcs w = some (accepted, w') ∧
      (accepted = true ↔ SourcesFit (slotDecoder enableTelnet) state held (srcs.map data)) ∧
      (accepted = true → w'.inboundMessages = w.inboundMessages ++
        chunkedLines held (decodedChunks (slotDecoder enableTelnet) state (srcs.map data))) := by
  induction srcs generalizing state held w with
  | nil =>
    refine ⟨true, w, rfl, iff_of_true rfl ?_, fun _ => (List.append_nil _).symm⟩
    intro before src after hsplit
    exact absurd hsplit (by simp)
  | cons src srcs ih =>
    obtain ⟨accepted, w₁, hrun, hfits, hnext⟩ := hround src state held w hw
    rw [exchange, hrun, Option.bind_some, List.map_cons,
      sourcesFit_cons _ state held hw.unfinished]
    cases accepted with
    | false =>
      refine ⟨false, w₁, rfl, iff_of_false Bool.false_ne_true fun hall => ?_, by simp⟩
      exact Bool.false_ne_true (hfits.mpr hall.1)
    | true =>
      obtain ⟨hw₁, hmessages₁⟩ := hnext rfl
      obtain ⟨accepted, w₂, hrun₂, hfits₂, hmessages₂⟩ := ih _ _ w₁ hw₁
      rw [partialLine_eq_openLine held _ hw.unfinished] at hfits₂
      refine ⟨accepted, w₂, hrun₂, ?_, fun haccepted => ?_⟩
      · rw [hfits₂, and_iff_right (hfits.mp rfl)]
      · rw [hmessages₂ haccepted, hmessages₁, decodedChunks, chunkedLines, List.append_assoc]

/-! ### TLS and small reads -/

theorem slotDecoder_run_length (enableTelnet : Bool) (state : TelnetState) (src : Bytes) :
    ((slotDecoder enableTelnet).run state src).2.length ≤ src.length := by
  cases enableTelnet with
  | true => exact telnetTransducer_run_length state src
  | false =>
    show (plainTransducer.run state src).2.length ≤ src.length
    rw [plainTransducer_run]

/-- Reads of at most half a buffer fit behind an unfinished line of less than that. -/
theorem sourcesFit_of_small {enableTelnet : Bool} {state : TelnetState} {held : Bytes}
    {reads : List Chunk} (hsmall : ∀ read ∈ reads, read.data.length ≤ 2048)
    (hshort : ShortLines (held ++ ((slotDecoder enableTelnet).run state (wireBytes reads)).2)) :
    SourcesFit (slotDecoder enableTelnet) state held (reads.map Chunk.data) := by
  rw [← readsFit_iff]
  rintro before read after rfl
  have hread := hsmall read (by simp)
  have hdecoded := slotDecoder_run_length enableTelnet
    ((slotDecoder enableTelnet).run state (wireBytes before)).1 read.data.dropLast
  rw [List.length_dropLast] at hdecoded
  -- the unfinished line is part of the stream
  have hline := hshort
    ((held ++ ((slotDecoder enableTelnet).run state (wireBytes before)).2).rdropWhile
      fun b => !isTerminator b)
    (openLine (held ++ ((slotDecoder enableTelnet).run state (wireBytes before)).2))
    ((slotDecoder enableTelnet).run ((slotDecoder enableTelnet).run state (wireBytes before)).1
      (wireBytes (read :: after))).2
    (by
      rw [openLine, List.rdropWhile_append_rtakeWhile, wireBytes, List.flatMap_append,
        Transducer.run_append, List.append_assoc]
      rfl)
    (openLine_text _)
  have hsize : bufferSize = 4096 := rfl
  right
  omega

/-- Among the application bytes no cut falls between a CR and an LF or NUL behind it. -/
def KeepsTerminators (enableTelnet : Bool) (state : TelnetState) (srcs : List Bytes) : Prop :=
  ¬ CutsTerminator (decodedChunks (slotDecoder enableTelnet) state srcs)

theorem keepsTerminators_iff (enableTelnet : Bool) (state : TelnetState) (held : Bytes)
    (srcs : List Bytes) :
    KeepsTerminators enableTelnet state srcs ↔
      chunkedLines held (decodedChunks (slotDecoder enableTelnet) state srcs)
        = linesOf held ((slotDecoder enableTelnet).run state srcs.flatten).2 := by
  rw [KeepsTerminators, ← chunkedLines_eq_iff held, flatten_decodedChunks]

/-- The two slots have delivered the same payloads since `w` and `v`. -/
def SamePayloads {ρ' : Type} (w w' : World ρ) (v v' : World ρ') : Prop :=
  ∃ delivered, w'.inboundMessages = w.inboundMessages ++ delivered ∧
    v'.inboundMessages = v.inboundMessages ++ delivered

theorem samePayloads_iff {ρ' : Type} {w w' : World ρ} {v v' : World ρ'} {lines lines' : List Bytes}
    (hw : w'.inboundMessages = w.inboundMessages ++ lines)
    (hv : v'.inboundMessages = v.inboundMessages ++ lines') :
    SamePayloads w w' v v' ↔ lines = lines' := by
  constructor
  · rintro ⟨delivered, hw', hv'⟩
    rw [List.append_cancel_left (hw.symm.trans hw'), List.append_cancel_left (hv.symm.trans hv')]
  · rintro rfl
    exact ⟨lines, hw, hv⟩

/-- An established TLS slot and a slot without TLS, both strict and in line input, plain or Telnet, with
the same unfinished line. One is sent a stream of short lines in records, the other in small reads. All
runs return and the small reads are always taken. A refill of the TLS slot fails exactly if a record does
not fit. If one side keeps every CR next to the LF or NUL behind it, both deliver the same payloads exactly
if every record fits and the other side does so too. -/
theorem tls_input_transparent_iff {ρ' : Type} (setup : Setup) (env : Surroundings ρ)
    (env' : Surroundings ρ') (depth : Nat) (w : World ρ) (v : World ρ')
    (hstrict : setup.relaxed = false) (hreg : setup.registered .messageInbound = true)
    (henv : env.KeepsInput True) (henv' : env'.KeepsInput True) {enableTelnet : Bool}
    {state : TelnetState} {held : Bytes} (hw : w.Listening true enableTelnet state held)
    (hv : v.Listening false enableTelnet state held) (records : List TlsRecord)
    (reads : List Chunk) (hbytes : wireBytes reads = (records.map TlsRecord.data).flatten)
    (hsmall : ∀ read ∈ reads, read.data.length ≤ 2048)
    (hshort : ShortLines (held ++ ((slotDecoder enableTelnet).run state (wireBytes reads)).2)) :
    ∃ accepted w' v',
      exchange (tlsRound setup env (depth + 1)) records w = some (accepted, w') ∧
      exchange (plainRound setup env' (depth + 1)) reads v = some (true, v') ∧
      (accepted = true ↔
        SourcesFit (slotDecoder enableTelnet) state held (records.map TlsRecord.data)) ∧
      (KeepsTerminators enableTelnet state (reads.map Chunk.data) →
        (accepted = true ∧ SamePayloads w w' v v' ↔
          SourcesFit (slotDecoder enableTelnet) state held (records.map TlsRecord.data) ∧
          KeepsTerminators enableTelnet state (records.map TlsRecord.data))) ∧
      (KeepsTerminators enableTelnet state (records.map TlsRecord.data) →
        (accepted = true ∧ SamePayloads w w' v v' ↔
          SourcesFit (slotDecoder enableTelnet) state held (records.map TlsRecord.data) ∧
          KeepsTerminators enableTelnet state (reads.map Chunk.data))) := by
  have htls : ∀ record, Sends true enableTelnet (TlsRecord.data record)
      (tlsRound setup env (depth + 1) record) := tlsRound_sends henv hstrict hreg
  have hplain : ∀ read, Sends false enableTelnet (Chunk.data read)
      (plainRound setup env' (depth + 1) read) := plainRound_sends henv' hstrict hreg
  obtain ⟨accepted, w', hrun, hfits, hlines⟩ := exchange_returns htls records state held w hw
  obtain ⟨accepted', v', hrun', hfits', hlines'⟩ :=
    exchange_returns hplain reads state held v hv
  obtain rfl : accepted' = true := hfits'.mpr (sourcesFit_of_small hsmall hshort)
  have hreads : (reads.map Chunk.data).flatten = (records.map TlsRecord.data).flatten := by
    rw [← hbytes, wireBytes, List.flatMap_def]
  have hsame : accepted = true → (SamePayloads w w' v v' ↔ _) :=
    fun haccepted => samePayloads_iff (hlines haccepted) (hlines' rfl)
  have hrecords := keepsTerminators_iff enableTelnet state held (records.map TlsRecord.data)
  have hpieces := keepsTerminators_iff enableTelnet state held (reads.map Chunk.data)
  rw [hreads] at hpieces
  refine ⟨accepted, w', v', hrun, hrun', hfits, fun hkeeps => ?_, fun hkeeps => ?_⟩
  · rw [← hfits, hrecords]
    refine and_congr_right fun haccepted => ?_
    rw [hsame haccepted, hpieces.mp hkeeps]
  · rw [← hfits, hpieces]
    refine and_congr_right fun haccepted => ?_
    rw [hsame haccepted, hrecords.mp hkeeps]
    exact eq_comm

/-! ### Two streams -/

/-- The connection of `chatWorld` with an established TLS session. -/
def tlsWorld : World Unit :=
  { chatWorld false [] with
      comm := { (chatWorld false []).comm with
        ssl := true
        flags := { (chatWorld false []).comm.flags with tlsEstablished := true } } }

theorem tlsWorld_listening : tlsWorld.Listening true false .data [] where
  lineSlot := ⟨⟨rfl, rfl, rfl, rfl, fun _ => rfl⟩, rfl, rfl⟩
  ssl := rfl
  enableTelnet := rfl
  telnetState := rfl
  buffer := ⟨.empty, .inr ⟨rfl, rfl⟩, rfl⟩
  unfinished := nofun

theorem chatWorld_listening : (chatWorld false []).Listening false false .data [] where
  lineSlot := chatWorld_lineSlot false []
  ssl := rfl
  enableTelnet := rfl
  telnetState := rfl
  buffer := ⟨.empty, .inr ⟨rfl, rfl⟩, rfl⟩
  unfinished := nofun

theorem nonempty_singleton {chunk : Chunk} (hne : chunk.data ≠ []) :
    ∀ piece ∈ [chunk], piece.data ≠ [] := by
  intro piece hpiece
  rw [List.mem_singleton.mp hpiece]
  exact hne

theorem short_singleton (chunk : Chunk) : (wireBytes [chunk]).length ≤ 16384 := by
  have hfits := chunk.fits
  have hsize : bufferSize = 4096 := rfl
  rw [wireBytes, List.flatMap_singleton]
  omega

/-- A record that is read at once. -/
def TlsRecord.ofChunk (chunk : Chunk) (hne : chunk.data ≠ []) : TlsRecord where
  pieces := [chunk]
  nonempty := nonempty_singleton hne
  short := short_singleton chunk

/-- `ab CR LF` in two records, and in one read. -/
theorem tls_input_transparent_greeting :
    ∃ w' v',
      exchange (tlsRound chatSetup chatSurroundings 1)
        [.ofChunk ⟨[97], by decide⟩ (by decide), .ofChunk ⟨[98, 13, 10], by decide⟩ (by decide)]
        tlsWorld = some (true, w') ∧
      exchange (plainRound chatSetup chatSurroundings 1) [⟨[97, 98, 13, 10], by decide⟩]
        (chatWorld false []) = some (true, v') ∧
      SamePayloads tlsWorld w' (chatWorld false []) v' := by
  have hline : ShortLines [97, 98, 13, 10] := by
    intro before line after hstream _
    have hlength := congrArg List.length hstream
    simp only [List.length_append, List.length_cons, List.length_nil] at hlength
    omega
  obtain ⟨accepted, w', v', hrun, hrun', hfits, hsame, -⟩ :=
    tls_input_transparent_iff chatSetup chatSurroundings chatSurroundings 0 tlsWorld
      (chatWorld false []) rfl rfl (chatSurroundings_keepsInput True)
      (chatSurroundings_keepsInput True) tlsWorld_listening chatWorld_listening
      [.ofChunk ⟨[97], by decide⟩ (by decide), .ofChunk ⟨[98, 13, 10], by decide⟩ (by decide)]
      [⟨[97, 98, 13, 10], by decide⟩] rfl (by decide) hline
  have hreads : KeepsTerminators false .data [[97, 98, 13, 10]] :=
    (keepsTerminators_iff false .data [] _).mpr (by decide)
  have hrecords : KeepsTerminators false .data [[97], [98, 13, 10]] :=
    (keepsTerminators_iff false .data [] _).mpr (by decide)
  have haccepted : (exchange (tlsRound chatSetup chatSurroundings 1)
      [.ofChunk ⟨[97], by decide⟩ (by decide), .ofChunk ⟨[98, 13, 10], by decide⟩ (by decide)]
      tlsWorld).map Prod.fst = some true := by
    decide +kernel
  rw [hrun, Option.map_some, Option.some.injEq] at haccepted
  obtain rfl : accepted = true := haccepted
  exact ⟨w', v', hrun, hrun', ((hsame hreads).mpr ⟨hfits.mp rfl, hrecords⟩).2⟩

/-- A read of so many newlines. -/
def newlines (n : Nat) (hn : n ≤ bufferSize) : Chunk :=
  ⟨List.replicate n 10, by rwa [List.length_replicate]⟩

/-- 4097 newlines in one record, read in two pieces. -/
def newlineRecord : TlsRecord where
  pieces := [newlines 4096 (by decide), newlines 1 (by decide)]
  nonempty := by
    intro piece hpiece
    rcases List.mem_cons.mp hpiece with rfl | hpiece
    · exact List.cons_ne_nil 10 (List.replicate 4095 10)
    · rw [List.mem_singleton.mp hpiece]
      exact List.cons_ne_nil 10 []
  short := by
    simp only [wireBytes, newlines, List.flatMap_cons, List.flatMap_nil, List.length_append,
      List.length_replicate, List.length_nil]
    decide

/-- The same bytes in reads of at most 2048. -/
def newlineReads : List Chunk :=
  [newlines 2048 (by decide), newlines 2048 (by decide), newlines 1 (by decide)]

theorem newlineRecord_data : newlineRecord.data = List.replicate 4097 10 := by
  simp only [TlsRecord.data, newlineRecord, wireBytes, newlines, List.flatMap_cons,
    List.flatMap_nil, List.append_nil, List.replicate_append_replicate]

theorem wireBytes_newlineReads : wireBytes newlineReads = List.replicate 4097 10 := by
  simp only [newlineReads, wireBytes, newlines, List.flatMap_cons, List.flatMap_nil,
    List.append_nil, List.replicate_append_replicate]

theorem shortLines_newlines (n : Nat) : ShortLines (List.replicate n 10) := by
  intro before line after hstream hline
  -- there is nothing but terminators, so every line is empty
  have hnil : line = [] := by
    rw [List.eq_nil_iff_forall_not_mem]
    intro b hb
    have hmem : b ∈ List.replicate n (10 : Byte) := by
      rw [hstream]
      simp [hb]
    have hterm := hline b hb
    rw [List.eq_of_mem_replicate hmem] at hterm
    cases hterm
  rw [hnil]
  decide

/-- The record does not fit into an empty buffer. -/
theorem newlineRecord_refused :
    ∃ w', exchange (tlsRound chatSetup chatSurroundings 1) [newlineRecord] tlsWorld
      = some (false, w') := by
  have htls : ∀ record, Sends true false (TlsRecord.data record)
      (tlsRound chatSetup chatSurroundings 1 record) :=
    tlsRound_sends (chatSurroundings_keepsInput True) rfl rfl
  obtain ⟨accepted, w', hrun, hfits, -⟩ :=
    exchange_returns htls [newlineRecord] .data [] tlsWorld tlsWorld_listening
  cases accepted with
  | false => exact ⟨w', hrun⟩
  | true =>
    have hfit := hfits.mp rfl [] newlineRecord.data [] rfl
    have hroom : ([] : Bytes).length + newlineRecord.data.length ≤ bufferSize :=
      (fitsBuffer_plain .data (by decide) newlineRecord.data).mp hfit
    rw [newlineRecord_data, List.length_replicate] at hroom
    exact absurd hroom (by decide)

/-- The small reads fit. -/
theorem newlineReads_accepted :
    ∃ v', exchange (plainRound chatSetup chatSurroundings 1) newlineReads (chatWorld false [])
      = some (true, v') := by
  have hplain : ∀ read, Sends false false (Chunk.data read)
      (plainRound chatSetup chatSurroundings 1 read) :=
    plainRound_sends (chatSurroundings_keepsInput True) rfl rfl
  obtain ⟨accepted, v', hrun, hfits, -⟩ :=
    exchange_returns hplain newlineReads .data [] (chatWorld false []) chatWorld_listening
  have hsmall : ∀ read ∈ newlineReads, read.data.length ≤ 2048 := by
    simp only [newlineReads, newlines, List.forall_mem_cons, List.length_replicate]
    exact ⟨le_rfl, le_rfl, by decide, nofun⟩
  have hdecoded : ((slotDecoder false).run .data (wireBytes newlineReads)).2
      = List.replicate 4097 10 := by
    rw [wireBytes_newlineReads]
    exact congrArg Prod.snd (plainTransducer_run .data _)
  have hshort : ShortLines
      ([] ++ ((slotDecoder false).run .data (wireBytes newlineReads)).2) := by
    rw [List.nil_append, hdecoded]
    exact shortLines_newlines 4097
  rw [hfits.mpr (sourcesFit_of_small hsmall hshort)] at hrun
  exact ⟨v', hrun⟩

/-- A record of 4097 newlines is refused, though a plain slot takes them in small reads; and a record that
ends between the CR and the LF of `a CR LF` adds an empty line. -/
theorem tls_record_is_not_transparent :
    (ShortLines newlineRecord.data ∧ wireBytes newlineReads = newlineRecord.data ∧
      (∃ w', exchange (tlsRound chatSetup chatSurroundings 1) [newlineRecord] tlsWorld
        = some (false, w')) ∧
      ∃ v', exchange (plainRound chatSetup chatSurroundings 1) newlineReads (chatWorld false [])
        = some (true, v')) ∧
    (exchange (tlsRound chatSetup chatSurroundings 1)
        [.ofChunk ⟨[97, 13], by decide⟩ (by decide), .ofChunk ⟨[10], by decide⟩ (by decide)]
        tlsWorld).map (fun r => (r.1, r.2.inboundMessages)) = some (true, [[97], []]) ∧
    (exchange (plainRound chatSetup chatSurroundings 1) [⟨[97, 13, 10], by decide⟩]
        (chatWorld false [])).map (fun r => (r.1, r.2.inboundMessages)) = some (true, [[97]]) := by
  refine ⟨⟨?_, ?_, newlineRecord_refused, newlineReads_accepted⟩, by decide +kernel,
    by decide +kernel⟩
  · rw [newlineRecord_data]
    exact shortLines_newlines 4097
  · rw [newlineRecord_data, wireBytes_newlineReads]

end Mudmux.Comm
