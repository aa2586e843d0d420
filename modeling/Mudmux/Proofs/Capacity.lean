import Mudmux.Proofs.LineChunks

/-!
# `Mudmux.Proofs.Capacity`: when a read fits into the inbound buffer

A text slot has one inbound buffer of 4096 bytes. A read asks for as many, whatever the buffer still
holds of an unfinished line, and `comm_refill_inbound_buffers` fails when the bytes do not fit.
`fitsBuffer` is the exact condition on what is held and what is read. On a Telnet slot only the
application bytes need room, but the loop has to find some room even for its last byte.

`readRounds_returns` follows a slot that reads and parses in turn: before every read the buffer
holds `openLine` of everything decoded so far.
-/

set_option autoImplicit false

namespace Mudmux.Comm

open Mudmux.Lib
open Mudmux.Lib.Program (Returns returns_done returns_bind effect)

/-! ### Decoding -/

/-- The bytes of a plain slot are application bytes as they come. -/
def plainTransducer : Transducer TelnetState Byte Byte := ⟨fun state byte => (state, [byte])⟩

/-- How the refill of a text slot decodes received bytes. -/
def slotDecoder (enableTelnet : Bool) : Transducer TelnetState Byte Byte :=
  if enableTelnet then telnetTransducer else plainTransducer

theorem plainTransducer_run (state : TelnetState) (src : Bytes) :
    plainTransducer.run state src = (state, src) := by
  induction src with
  | nil => rfl
  | cons b src ih =>
    have hstep : plainTransducer.step state b = (state, [b]) := rfl
    rw [Transducer.run_cons, hstep, ih]
    rfl

/-- A read fits behind the held bytes: nothing is read, or all but the last byte of it decode to
fewer bytes than there is room for. -/
def fitsBuffer (decoder : Transducer TelnetState Byte Byte) (state : TelnetState) (held : Nat)
    (src : Bytes) : Prop :=
  src = [] ∨ held + (decoder.run state src.dropLast).2.length < bufferSize

/-- A read of a plain slot fits if the buffer can hold it as a whole. -/
theorem fitsBuffer_plain (state : TelnetState) {held : Nat} (hheld : held ≤ bufferSize)
    (src : Bytes) : fitsBuffer plainTransducer state held src ↔ held + src.length ≤ bufferSize := by
  rw [fitsBuffer, plainTransducer_run, List.length_dropLast]
  cases src with
  | nil => simpa using hheld
  | cons b src =>
    simp only [reduceCtorEq, false_or, List.length_cons]
    omega

/-- What remains to be read fits behind what was decoded exactly if the whole did: the bytes decoded
so far needed no more room than there was. -/
theorem fitsBuffer_drop {state state' : TelnetState} {dest src : Bytes} {held count : Nat}
    (hrun : telnetTransducer.run state (src.take count) = (state', dest)) (hpos : 0 < count)
    (hcount : count ≤ src.length) (hroom : count ≤ bufferSize - held) :
    fitsBuffer telnetTransducer state' (held + dest.length) (src.drop count)
      ↔ fitsBuffer telnetTransducer state held src := by
  have hsrc : src ≠ [] := List.length_pos_iff.mp (by omega)
  have hsplit := List.take_append_drop count src
  rcases Nat.eq_or_lt_of_le hcount with hall | hmore
  · -- everything was taken, each byte of it into a cell of its own
    have hlast := telnetTransducer_run_length state src.dropLast
    rw [List.length_dropLast] at hlast
    rw [List.drop_of_length_le (Nat.le_of_eq hall.symm)]
    exact iff_of_true (.inl rfl) (.inr (by omega))
  · have hrest : src.drop count ≠ [] := by
      rw [ne_eq, List.drop_eq_nil_iff]
      omega
    have hlast : src.dropLast = src.take count ++ (src.drop count).dropLast := by
      rw [← List.dropLast_append_of_ne_nil hrest, hsplit]
    rw [fitsBuffer, fitsBuffer, hlast, Transducer.run_append, hrun, List.length_append]
    simp only [hsrc, hrest, false_or]
    omega

/-- The bytes a parser call of the fill loop consumes, and what they decode to. -/
theorem refillCall_agrees (buf : Cells) (state : TelnetState) (src : Bytes) :
    telnetTransducer.run state (src.take (refillCall buf state src).consumed)
      = ((refillCall buf state src).state, (refillCall buf state src).dest) := by
  have hagrees := telnetCall_implements.agrees state
    (src.take (min src.length (prepareInbound ⟨.data, buf⟩).buf.room))
  have hle := telnetCall_implements.bounded state
    (src.take (min src.length (prepareInbound ⟨.data, buf⟩).buf.room))
  rw [List.take_take, Nat.min_eq_left (hle.trans (List.length_take_le _ _))] at hagrees
  exact hagrees

theorem refillBuffer_data (buf : Cells) (state : TelnetState) (src : Bytes) :
    (refillBuffer buf state src).data = buf.data ++ (refillCall buf state src).dest := by
  rw [refillBuffer, LinearBuffer.append_data, prepareInbound_data]

theorem refillCall_consumed (buf : Cells) (state : TelnetState) (src : Bytes)
    (hsrc : src ≠ []) (hroom : (prepareInbound ⟨.data, buf⟩).buf.room ≠ 0) :
    0 < (refillCall buf state src).consumed ∧ (refillCall buf state src).consumed ≤ src.length ∧
      (refillCall buf state src).consumed ≤ (prepareInbound ⟨.data, buf⟩).buf.room := by
  have hle := commTelnetProcessInbound_consumed_le
    (src.take (min src.length (prepareInbound ⟨.data, buf⟩).buf.room)) state .zero
  have hpos := commTelnetProcessInbound_consumed_pos
    (src.take (min src.length (prepareInbound ⟨.data, buf⟩).buf.room)) state .zero (by
      have hlen := List.length_pos_iff.mpr hsrc
      rw [ne_eq, List.take_eq_nil_iff, not_or]
      exact ⟨by omega, hsrc⟩)
  rw [List.length_take] at hle
  rw [refillCall]
  omega

/-- The fill loop of a Telnet slot takes all of its bytes exactly if they fit, and then it has
appended what they decode to. -/
theorem telnetRefill_left (fuel : Nat) (buf : Cells) (state : TelnetState)
    (src : Bytes) (hfuel : src.length ≤ fuel) :
    ((telnetRefill fuel buf state src).left = []
        ↔ fitsBuffer telnetTransducer state buf.data.length src) ∧
      ((telnetRefill fuel buf state src).left = [] →
        (telnetRefill fuel buf state src).buf.data
            = buf.data ++ (telnetTransducer.run state src).2 ∧
          (telnetRefill fuel buf state src).state = (telnetTransducer.run state src).1) := by
  induction fuel generalizing buf state src with
  | zero =>
    obtain rfl : src = [] := List.length_eq_zero_iff.mp (Nat.le_zero.mp hfuel)
    simp [telnetRefill, fitsBuffer]
  | succ fuel ih =>
    by_cases hsrc : src = []
    · subst hsrc
      simp [telnetRefill, fitsBuffer]
    · by_cases hroom : (prepareInbound ⟨.data, buf⟩).buf.room = 0
      · have hfull := (prepareInbound_room_eq_zero ⟨.data, buf⟩).mp hroom
        simp [telnetRefill, hsrc, hroom, fitsBuffer, hfull]
      · obtain ⟨hpos, hle, hoffered⟩ := refillCall_consumed buf state src hsrc hroom
        have hrun := refillCall_agrees buf state src
        have hdata := refillBuffer_data buf state src
        have hcapacity := prepareInbound_room_le ⟨.data, buf⟩
        generalize hr : refillCall buf state src = r at hpos hle hoffered hrun hdata
        generalize ht : telnetRefill fuel (refillBuffer buf state src) r.state
          (src.drop r.consumed) = t
        have hstep := telnetRefill_step fuel hsrc hroom hr ht
        obtain ⟨hleft, hdone⟩ := ih (refillBuffer buf state src) r.state (src.drop r.consumed)
          (by rw [List.length_drop]; omega)
        rw [ht, hdata] at hleft hdone
        rw [List.length_append, fitsBuffer_drop hrun hpos hle (hoffered.trans hcapacity)] at hleft
        rw [hstep]
        refine ⟨hleft, fun hempty => ?_⟩
        have hwhole : telnetTransducer.run state src
            = ((telnetTransducer.run r.state (src.drop r.consumed)).1,
              r.dest ++ (telnetTransducer.run r.state (src.drop r.consumed)).2) := by
          conv_lhs => rw [← List.take_append_drop r.consumed src]
          rw [Transducer.run_append, hrun]
        obtain ⟨hbuf, hstate⟩ := hdone hempty
        rw [hwhole]
        exact ⟨hbuf.trans (List.append_assoc _ _ _), hstate⟩

/-! ### The unfinished line -/

/-- The bytes behind the last terminator. -/
def openLine (data : Bytes) : Bytes := data.rtakeWhile fun b => !isTerminator b

theorem openLine_append_terminator (data : Bytes) (t : Byte) (rest : Bytes)
    (ht : isTerminator t = true) : openLine (data ++ t :: rest) = openLine rest := by
  rw [openLine, openLine, List.rtakeWhile, List.rtakeWhile, List.reverse_append,
    List.reverse_cons, List.append_assoc, List.takeWhile_append]
  split
  case isTrue hall => simp [ht, (List.takeWhile_prefix _).eq_of_length hall]
  case isFalse => rfl

theorem openLine_of_text (data : Bytes) (htext : ∀ b ∈ data, isTerminator b = false) :
    openLine data = data := by
  rw [openLine, List.rtakeWhile_eq_self_iff]
  intro b hb
  rw [htext b hb, Bool.not_false]

/-- What the reader holds is what stands behind the last terminator. -/
theorem partialLine_eq_openLine (held data : Bytes) (hheld : ∀ b ∈ held, isTerminator b = false) :
    partialLine held data = openLine (held ++ data) := by
  -- along the terminators of `data`, each of which starts a new line
  induction hlen : data.length using Nat.strong_induction_on generalizing held data with
  | _ n ih =>
    rcases exists_terminator data with htext | ⟨line, t, rest, rfl, hline, ht⟩
    · rw [partialLine, lineReader_run_text held data htext, openLine_of_text]
      intro b hb
      rcases List.mem_append.mp hb with hb | hb
      · exact hheld b hb
      · exact htext b hb
    · rw [(lineReader_run_line held line t rest hline ht).1, ← List.append_assoc,
        openLine_append_terminator _ t rest ht]
      have hskip : openLine (skipTerminator t rest) = openLine rest := by
        rw [skipTerminator]
        split
        case isFalse => rfl
        case isTrue hpair =>
          cases rest with
          | nil => rfl
          | cons b rest =>
            have hb : isTerminator b = true := by
              simp only [List.head?_cons, Option.some.injEq, Bool.and_eq_true,
                Bool.or_eq_true, decide_eq_true_eq] at hpair
              rcases hpair.2 with rfl | rfl <;> rfl
            exact (openLine_append_terminator [] b rest hb).symm
      have hshort : (skipTerminator t rest).length < n := by
        have hle := length_skipTerminator_le t rest
        rw [List.length_append, List.length_cons] at hlen
        omega
      rw [ih _ hshort [] (skipTerminator t rest) (by simp) rfl, List.nil_append, hskip]

theorem openLine_text (data : Bytes) : ∀ b ∈ openLine data, isTerminator b = false := by
  intro b hb
  have hp := List.mem_rtakeWhile_imp hb
  simpa using hp

/-- More bytes are only read behind the last terminator. -/
theorem openLine_openLine_append (data data' : Bytes) :
    openLine (openLine data ++ data') = openLine (data ++ data') := by
  have hsplit : data.rdropWhile (fun b => !isTerminator b) ++ openLine data = data :=
    List.rdropWhile_append_rtakeWhile
  by_cases hnil : data.rdropWhile (fun b => !isTerminator b) = []
  · rw [hnil, List.nil_append] at hsplit
    rw [hsplit]
  · have hlast := List.rdropWhile_last_not (fun b => !isTerminator b) data hnil
    have hconcat := List.dropLast_append_getLast hnil
    conv_rhs => rw [← hsplit, ← hconcat, List.append_assoc, List.append_assoc,
      List.singleton_append]
    exact (openLine_append_terminator _ _ _ (by simpa using hlast)).symm

/-! ### Reading in rounds -/

variable {ρ : Type} {setup : Setup} {env : Surroundings ρ} {depth : Nat} {w : World ρ}

/-- A refill enters no hook but the subnegotiations'. -/
theorem World.Refilled.inboundMessages {sameMode : Prop} {r : TelnetRefill} {w' : World ρ}
    (h : w.Refilled setup sameMode r w') : w'.inboundMessages = w.inboundMessages := by
  obtain ⟨entered, hentries, hcalls⟩ := h.entries
  have hnone : (entered.map Prod.fst).filterMap inboundPayload = [] := by
    rw [List.filterMap_eq_nil_iff]
    intro call hcall
    obtain ⟨e, he, rfl⟩ := List.mem_map.mp hcall
    have hmem : (e.1, e.2.flags.telnetState) ∈ subnegCalls setup r.calls :=
      hcalls ▸ List.mem_map_of_mem he
    unfold subnegCalls at hmem
    split at hmem
    · obtain ⟨t, -, ht⟩ := List.mem_filterMap.mp hmem
      split at ht
      · cases ht
      · rw [← (Prod.mk.inj (Option.some.inj ht)).1]
        rfl
    · cases hmem
  rw [World.inboundMessages, hentries, List.map_append, List.filterMap_append, hnone,
    List.append_nil]
  rfl

variable {decoder : Transducer TelnetState Byte Byte}

/-- A refill of a text slot, plain or Telnet: whether it takes all bytes, and what it leaves in the
buffer if it does. -/
theorem refill_decodes {sameMode : Prop} (henv : env.KeepsInput sameMode)
    (hstrict : setup.relaxed = false) (hslot : TextSlot w.comm) (buf : Cells)
    (hbuf : OneBuffer w.comm buf) (src : Bytes)
    (hdecoder : slotDecoder w.comm.flags.enableTelnet = decoder) :
    Returns (slotHandler setup env (depth + 1)) (refillInboundBuffersFromSrc setup src) w
      fun accepted w' =>
        (accepted = true ↔ fitsBuffer decoder w.comm.flags.telnetState buf.data.length src) ∧
        (accepted = true → w'.reads = w.reads ∧ w'.inboundMessages = w.inboundMessages ∧ ∃ buf',
          buf'.data = buf.data ++ (decoder.run w.comm.flags.telnetState src).2 ∧
          InputKept sameMode
            (w.comm.refilled buf' (decoder.run w.comm.flags.telnetState src).1) w'.comm) := by
  subst hdecoder
  cases htelnet : w.comm.flags.enableTelnet with
  | true =>
    refine (refill_telnet henv hstrict w hslot htelnet buf hbuf src).mono fun accepted w' h => ?_
    obtain ⟨haccepted, hrefilled⟩ := h
    obtain ⟨hleft, hdone⟩ := telnetRefill_left src.length buf w.comm.flags.telnetState src
      (Nat.le_refl _)
    rw [haccepted, List.isEmpty_iff]
    refine ⟨hleft, fun hempty =>
      ⟨hrefilled.reads, hrefilled.inboundMessages, _, (hdone hempty).1, ?_⟩⟩
    show InputKept sameMode (w.comm.refilled _ (telnetTransducer.run _ src).1) w'.comm
    rw [← (hdone hempty).2]
    exact hrefilled.input
  | false =>
    refine (refill_plain w hslot htelnet buf hbuf src).mono fun accepted w' h => ?_
    obtain ⟨haccepted, buf', rfl, hdata⟩ := h
    show (accepted = true ↔ fitsBuffer plainTransducer _ _ src) ∧
      (accepted = true → _ ∧ _ ∧ ∃ buf'', buf''.data = buf.data ++ (plainTransducer.run _ src).2 ∧
        InputKept sameMode (w.comm.refilled buf'' (plainTransducer.run _ src).1) _)
    rw [haccepted, decide_eq_true_eq, fitsBuffer_plain _ buf.length_le, plainTransducer_run]
    refine ⟨Iff.rfl, fun hfit => ⟨rfl, rfl, buf', ?_, ?_⟩⟩
    · rw [hdata, List.take_of_length_le (by omega)]
    · exact ⟨{ hslot with }, rfl, rfl, rfl, rfl, rfl, fun _ => rfl⟩

/-- Rounds of one read and the parser behind it, until a refill fails. -/
def readRounds (setup : Setup) : Nat → Code Bool
  | 0 => pure true
  | rounds + 1 => do
    if ← commRefillInboundBuffers setup then do
      let _ ← commProcessInput setup none
      readRounds setup rounds
    else pure false

/-- The bytes of reads, one behind the other. -/
def wireBytes (reads : List Chunk) : Bytes := reads.flatMap Chunk.data

/-- Every source fits behind the unfinished line that was received before it. -/
def SourcesFit (decoder : Transducer TelnetState Byte Byte) (state : TelnetState) (held : Bytes)
    (srcs : List Bytes) : Prop :=
  ∀ before src after, srcs = before ++ src :: after →
    fitsBuffer decoder (decoder.run state before.flatten).1
      (openLine (held ++ (decoder.run state before.flatten).2)).length src

/-- The first source fits behind the line held, and the others behind what it leaves. -/
theorem sourcesFit_cons (decoder : Transducer TelnetState Byte Byte) (state : TelnetState)
    (held : Bytes) (hheld : ∀ b ∈ held, isTerminator b = false) (src : Bytes) (srcs : List Bytes) :
    SourcesFit decoder state held (src :: srcs) ↔
      fitsBuffer decoder state held.length src ∧
        SourcesFit decoder (decoder.run state src).1
          (openLine (held ++ (decoder.run state src).2)) srcs := by
  constructor
  · intro hfit
    constructor
    · have hfirst := hfit [] src srcs rfl
      rwa [List.flatten_nil, Transducer.run_nil, List.append_nil,
        openLine_of_text held hheld] at hfirst
    · rintro before next after rfl
      have hnext := hfit (src :: before) next after rfl
      rwa [List.flatten_cons, Transducer.run_append, ← List.append_assoc,
        ← openLine_openLine_append] at hnext
  · rintro ⟨hfirst, hrest⟩ before next after hsplit
    cases before with
    | nil =>
      obtain ⟨rfl, rfl⟩ := List.cons.inj hsplit
      rwa [List.flatten_nil, Transducer.run_nil, List.append_nil, openLine_of_text held hheld]
    | cons first before =>
      obtain ⟨rfl, rfl⟩ := List.cons.inj hsplit
      have hnext := hrest before next after rfl
      rwa [List.flatten_cons, Transducer.run_append, ← List.append_assoc,
        ← openLine_openLine_append]

/-- Every read fits behind the unfinished line that was received before it. -/
def ReadsFit (decoder : Transducer TelnetState Byte Byte) (state : TelnetState) (held : Bytes)
    (reads : List Chunk) : Prop :=
  ∀ before read after, reads = before ++ read :: after →
    fitsBuffer decoder (decoder.run state (wireBytes before)).1
      (openLine (held ++ (decoder.run state (wireBytes before)).2)).length read.data

theorem readsFit_iff (decoder : Transducer TelnetState Byte Byte) (state : TelnetState)
    (held : Bytes) (reads : List Chunk) :
    ReadsFit decoder state held reads ↔ SourcesFit decoder state held (reads.map Chunk.data) := by
  constructor
  · intro hfit before src after hsplit
    obtain ⟨reads₁, reads₂, rfl, rfl, hrest⟩ := List.map_eq_append_iff.mp hsplit
    obtain ⟨read, reads₃, rfl, rfl, rfl⟩ := List.map_eq_cons_iff.mp hrest
    exact hfit reads₁ read reads₃ rfl
  · rintro hfit before read after rfl
    exact hfit _ _ _ (by rw [List.map_append, List.map_cons])

/-- The first read fits behind the line held, and the others behind what it leaves. -/
theorem readsFit_cons (decoder : Transducer TelnetState Byte Byte) (state : TelnetState)
    (held : Bytes) (hheld : ∀ b ∈ held, isTerminator b = false) (read : Chunk) (reads : List Chunk) :
    ReadsFit decoder state held (read :: reads) ↔
      fitsBuffer decoder state held.length read.data ∧
        ReadsFit decoder (decoder.run state read.data).1
          (openLine (held ++ (decoder.run state read.data).2)) reads := by
  rw [readsFit_iff, readsFit_iff, List.map_cons, sourcesFit_cons decoder state held hheld]

section Rounds

variable (henv : env.KeepsInput True) (hstrict : setup.relaxed = false)

include henv hstrict

/-- One read of a plain or Telnet slot without TLS. -/
theorem commRefillInboundBuffers_returns (hslot : TextSlot w.comm) (hssl : w.comm.ssl = false)
    {buf : Cells} (hbuf : OneBuffer w.comm buf) {read : Chunk} {rest : List ReadAnswer}
    (hreads : w.reads = .data read :: rest)
    (hdecoder : slotDecoder w.comm.flags.enableTelnet = decoder) :
    Returns (slotHandler setup env (depth + 1)) (commRefillInboundBuffers setup) w
      fun accepted w' =>
        (accepted = true ↔ fitsBuffer decoder w.comm.flags.telnetState buf.data.length read.data) ∧
        (accepted = true → w'.reads = rest ∧ w'.inboundMessages = w.inboundMessages ∧
          ∃ buf', OneBuffer w'.comm buf' ∧
          buf'.data = buf.data ++ (decoder.run w.comm.flags.telnetState read.data).2 ∧
          InputKept True
            { w.comm.refilled buf' (decoder.run w.comm.flags.telnetState read.data).1 with
                inbound := w'.comm.inbound } w'.comm) := by
  rw [commRefillInboundBuffers, returns_commGuard hslot.live]
  simp only [hssl, Bool.false_eq_true, if_false, Program.effect_bind, returns_transportRead, hreads,
    List.headD_cons, List.tail_cons]
  split
  case isTrue hempty =>
    -- nothing was read: not even the first buffer is allocated
    rw [List.isEmpty_iff.mp hempty]
    refine returns_done.mpr ⟨iff_of_true rfl (.inl rfl), fun _ => ⟨rfl, rfl, buf, hbuf, ?_, ?_⟩⟩
    · rw [Transducer.run_nil, List.append_nil]
    · exact ⟨hslot, rfl, rfl, rfl, rfl, rfl, fun _ => rfl⟩
  case isFalse =>
    have hslot' : TextSlot ({ w with reads := rest } : World ρ).comm := hslot
    refine (refill_decodes henv hstrict hslot' buf hbuf read.data hdecoder).mono
      fun accepted w' h => ⟨h.1, fun haccepted => ?_⟩
    obtain ⟨hrest, hmessages, buf', hdata, hkept⟩ := h.2 haccepted
    exact ⟨hrest, hmessages, buf', .inl hkept.inbound, hdata, hkept.textSlot, rfl, hkept.ssl,
      hkept.enableTelnet, hkept.telnetState, hkept.awaitingHook, hkept.lineInput⟩

/-- The parser behind a read leaves the unfinished line, and enters no hook but the input's. -/
theorem commProcessInput_openLine (hslot : LineSlot w.comm) {buf : Cells}
    (hbuf : OneBuffer w.comm buf) :
    Returns (slotHandler setup env (depth + 1)) (commProcessInput setup none) w
      fun _ w' => w'.reads = w.reads ∧
        InputKept True { w.comm with inbound := w'.comm.inbound } w'.comm ∧
        (∃ buf', OneBuffer w'.comm buf' ∧ buf'.data = openLine buf.data) ∧
        ∃ entered, w'.entries = w.entries ++ entered ∧
          ∀ e ∈ entered, e.1.hookType = .messageInbound := by
  refine (commProcessInput_oneBuffer henv hstrict hslot hbuf).mono fun _ w' h => ?_
  obtain ⟨hreads, hkept, ⟨buf', hbuf', hdata⟩, entered, hentries, hcalls⟩ := h
  rw [partialLine_eq_openLine [] buf.data (by simp), List.nil_append] at hdata
  refine ⟨hreads, hkept, ⟨buf', hbuf', hdata⟩, entered, hentries, fun e he => ?_⟩
  have hcall : e.1 ∈ lineCalls setup (linesOf [] buf.data) := hcalls ▸ List.mem_map_of_mem he
  exact hookType_of_mem_lineCalls hcall

/-- Rounds of reading and parsing: every refill succeeds exactly if every read fits, and the slot
then stays open with the unfinished line in its buffer. -/
theorem readRounds_returns (depth : Nat) (reads : List Chunk) (w : World ρ)
    (hslot : LineSlot w.comm) (hssl : w.comm.ssl = false) (buf : Cells)
    (hbuf : OneBuffer w.comm buf) (hheld : ∀ b ∈ buf.data, isTerminator b = false)
    (hreads : w.reads = reads.map .data)
    (hdecoder : slotDecoder w.comm.flags.enableTelnet = decoder) :
    Returns (slotHandler setup env (depth + 1)) (readRounds setup reads.length) w
      fun accepted w' =>
        (accepted = true ↔ ReadsFit decoder w.comm.flags.telnetState buf.data reads) ∧
        (accepted = true → LineSlot w'.comm ∧ ∃ buf', OneBuffer w'.comm buf' ∧ buf'.data =
          openLine (buf.data ++ (decoder.run w.comm.flags.telnetState (wireBytes reads)).2)) := by
  induction reads generalizing w buf with
  | nil =>
    refine returns_done.mpr ⟨iff_of_true rfl ?_, fun _ => ⟨hslot, buf, hbuf, ?_⟩⟩
    · rintro before read after hsplit
      cases before <;> cases hsplit
    · rw [wireBytes, List.flatMap_nil, Transducer.run_nil, List.append_nil,
        openLine_of_text buf.data hheld]
  | cons read reads ih =>
    rw [List.length_cons, readRounds]
    refine (commRefillInboundBuffers_returns henv hstrict hslot.toTextSlot hssl hbuf hreads
      hdecoder).bind fun accepted w₁ h₁ => ?_
    obtain ⟨hfits, htaken⟩ := h₁
    cases accepted with
    | false =>
      rw [if_neg Bool.false_ne_true]
      refine returns_done.mpr ⟨iff_of_false Bool.false_ne_true fun hall => ?_, nofun⟩
      exact Bool.false_ne_true
        (hfits.mpr ((readsFit_cons decoder _ buf.data hheld read reads).mp hall).1)
    | true =>
      obtain ⟨hreads₁, -, buf₁, hbuf₁, hdata₁, hkept₁⟩ := htaken rfl
      have hslot₁ : LineSlot w₁.comm :=
        ⟨hkept₁.textSlot, (hkept₁.lineInput trivial).trans hslot.lineInput,
          hkept₁.awaitingHook.trans hslot.notAwaiting⟩
      rw [if_pos rfl]
      refine (commProcessInput_openLine henv hstrict hslot₁ hbuf₁).bind fun _ w₂ h₂ => ?_
      obtain ⟨hreads₂, hkept₂, ⟨buf₂, hbuf₂, hdata₂⟩, -⟩ := h₂
      rw [hdata₁] at hdata₂
      have hheld₂ : ∀ b ∈ buf₂.data, isTerminator b = false := by
        rw [hdata₂]
        exact openLine_text _
      have hstate : w₂.comm.flags.telnetState
          = (decoder.run w.comm.flags.telnetState read.data).1 :=
        hkept₂.telnetState.trans hkept₁.telnetState
      have htelnet : w₂.comm.flags.enableTelnet = w.comm.flags.enableTelnet :=
        hkept₂.enableTelnet.trans hkept₁.enableTelnet
      have hrounds := ih w₂ ((hslot₁.with_inbound _).of_kept hkept₂)
        ((hkept₂.ssl.trans hkept₁.ssl).trans hssl) buf₂ hbuf₂ hheld₂
        (hreads₂.trans hreads₁) (by rw [htelnet, hdecoder])
      refine hrounds.mono fun accepted w₃ h₃ => ?_
      rw [hstate, hdata₂] at h₃
      refine ⟨h₃.1.trans ?_, fun haccepted => ?_⟩
      · rw [readsFit_cons decoder _ buf.data hheld read reads, and_iff_right (hfits.mp rfl)]
      · obtain ⟨hslot₃, buf₃, hbuf₃, hdata₃⟩ := h₃.2 haccepted
        refine ⟨hslot₃, buf₃, hbuf₃, ?_⟩
        rw [hdata₃, openLine_openLine_append, List.append_assoc, wireBytes, wireBytes,
          List.flatMap_cons, Transducer.run_append]

end Rounds

/-- Whether a strict-mode line-input slot takes everything it is sent. From a slot with an unfinished
line in its buffer, or nothing, that reads and parses in turn: the rounds return, and no refill fails
exactly if every read fits into the buffer behind the unfinished line that precedes it. -/
theorem reads_are_taken_iff_they_fit (setup : Setup) (env : Surroundings ρ) (depth : Nat)
    (w : World ρ) (buf : LinearBuffer Byte bufferSize) (reads : List Chunk)
    (hstrict : setup.relaxed = false) (henv : env.KeepsInput True) (hslot : LineSlot w.comm)
    (hssl : w.comm.ssl = false) (hbuf : OneBuffer w.comm buf)
    (hheld : ∀ b ∈ buf.data, isTerminator b = false) (hreads : w.reads = reads.map .data) :
    ∃ accepted w', (readRounds setup reads.length).eval (slotHandler setup env (depth + 1)) w
        = some (accepted, w') ∧
      (accepted = true ↔ ReadsFit (slotDecoder w.comm.flags.enableTelnet)
        w.comm.flags.telnetState buf.data reads) := by
  obtain ⟨accepted, w', heval, hfit, _⟩ :=
    readRounds_returns henv hstrict depth reads w hslot hssl buf hbuf hheld hreads rfl
  exact ⟨accepted, w', heval, hfit⟩

/-- Two reads of a plain connection with a line cut between them. -/
theorem reads_are_taken_iff_they_fit_greeting :
    ∃ w', (readRounds chatSetup 2).eval (slotHandler chatSetup chatSurroundings 1)
      (chatWorld false [.data ⟨[104], by decide⟩, .data ⟨[105, 10], by decide⟩])
        = some (true, w') := by
  obtain ⟨accepted, w', heval, hfit⟩ :=
    reads_are_taken_iff_they_fit chatSetup chatSurroundings 0
      (chatWorld false [.data ⟨[104], by decide⟩, .data ⟨[105, 10], by decide⟩]) .empty
      [⟨[104], by decide⟩, ⟨[105, 10], by decide⟩] rfl (chatSurroundings_keepsInput True)
      (chatWorld_lineSlot false _) rfl (.inr ⟨rfl, rfl⟩) (by simp) rfl
  obtain rfl : accepted = true := by
    refine hfit.mpr ((readsFit_cons _ _ _ (by simp) _ _).mpr ⟨.inr (by decide), ?_⟩)
    refine (readsFit_cons _ _ _ (openLine_text _) _ _).mpr ⟨.inr (by decide), ?_⟩
    rintro before read after hsplit
    cases before <;> cases hsplit
  exact ⟨w', heval⟩

/-! ### A well-behaved client that is cut off -/

/-- No line of the stream is longer than 2048 bytes with a terminator of two. -/
def ShortLines (stream : Bytes) : Prop :=
  ∀ before line after, stream = before ++ line ++ after →
    (∀ b ∈ line, isTerminator b = false) → line.length + 2 ≤ 2048

/-- A line without its terminator, and a full read of line ends behind it. -/
def lineThenNewlines : List Chunk :=
  [⟨List.replicate 2046 97, by rw [List.length_replicate]; decide⟩,
    ⟨List.replicate 4096 10, by rw [List.length_replicate]; decide⟩]

theorem shortLines_lineThenNewlines : ShortLines (wireBytes lineThenNewlines) := by
  intro before line after hstream hline
  -- the stream has 2046 bytes that are no terminators, so no line has more
  have hcount := congrArg (List.countP fun b => !isTerminator b) hstream
  have hall : line.countP (fun b => !isTerminator b) = line.length :=
    List.countP_eq_length.mpr fun b hb => by simp [hline b hb]
  have htext : (!isTerminator 97) = true := rfl
  have hnewline : (!isTerminator 10) = false := rfl
  simp only [wireBytes, lineThenNewlines, List.flatMap_cons, List.flatMap_nil, List.append_nil,
    List.countP_append, List.countP_replicate, htext, hnewline, if_true, Bool.false_eq_true,
    if_false, hall] at hcount
  omega

/-- The second read is refused, although no line of the stream is long. -/
theorem short_lines_are_refused :
    ShortLines (wireBytes lineThenNewlines) ∧
    ∃ w', (readRounds chatSetup 2).eval (slotHandler chatSetup chatSurroundings 1)
      (chatWorld false (lineThenNewlines.map .data)) = some (false, w') := by
  refine ⟨shortLines_lineThenNewlines, ?_⟩
  have hstrict : chatSetup.relaxed = false := rfl
  obtain ⟨accepted, w', heval, hfit, _⟩ :=
    readRounds_returns (chatSurroundings_keepsInput True) hstrict 0 lineThenNewlines
      (chatWorld false (lineThenNewlines.map .data)) (chatWorld_lineSlot false _) rfl .empty
      (.inr ⟨rfl, rfl⟩) (by simp) rfl rfl
  cases accepted with
  | false => exact ⟨w', heval⟩
  | true =>
    have hread := hfit.mp rfl [⟨List.replicate 2046 97, _⟩] ⟨List.replicate 4096 10, _⟩ [] rfl
    have hheld : openLine (List.replicate 2046 97) = List.replicate 2046 97 :=
      openLine_of_text _ fun b hb => by rw [List.eq_of_mem_replicate hb]; rfl
    rw [wireBytes, List.flatMap_cons, List.flatMap_nil, List.append_nil] at hread
    change fitsBuffer plainTransducer (plainTransducer.run .data (List.replicate 2046 97)).1
      (openLine ([] ++ (plainTransducer.run .data (List.replicate 2046 97)).2)).length
      (List.replicate 4096 10) at hread
    rw [plainTransducer_run, List.nil_append, hheld, List.length_replicate,
      fitsBuffer_plain _ (by decide), List.length_replicate] at hread
    exact absurd hread (by decide)

end Mudmux.Comm
