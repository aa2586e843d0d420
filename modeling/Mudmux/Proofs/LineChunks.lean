import Mudmux.Proofs.LineInput
import Mudmux.Proofs.Refill

/-!
# `Mudmux.Proofs.LineChunks`: line input and the boundaries of packets

The line parser looks one byte ahead behind a CR, but only as far as the buffer is filled. A CR at
the end of a packet ends its line at once, and an LF or NUL at the beginning of the next packet then
ends another, empty line. `feedChunks_returns` describes a slot that is fed packet by packet, as a
line reader that forgets the CR at every cut; `length_chunkedLines` counts the empty lines that
come out of it.
-/

set_option autoImplicit false

namespace Mudmux.Comm

open Mudmux.Lib
open Mudmux.Lib.Program (Returns returns_done returns_bind effect)

/-! ### Cutting a stream -/

/-- The stream begins with a byte that may belong to a CR before it. -/
def startsWithMate (data : Bytes) : Bool := data.head? = some 10 || data.head? = some 0

/-- A cut falls between a CR and the LF or NUL behind it. -/
def CutsTerminator (chunks : List Bytes) : Prop :=
  ∃ before after, chunks = before ++ after ∧ before.flatten.getLast? = some 13 ∧
    startsWithMate after.flatten = true

/-- The lines of a stream read chunk by chunk, with a CR forgotten at every cut. -/
def chunkedLines : Bytes → List Bytes → List Bytes
  | _, [] => []
  | held, chunk :: chunks => linesOf held chunk ++ chunkedLines (partialLine held chunk) chunks

/-- Whether the byte before was a CR, after more bytes. -/
def crAfter (cr : Bool) (data : Bytes) : Bool := (data.getLast?.map fun b => decide (b = 13)).getD cr

theorem crAfter_cons (cr : Bool) (b : Byte) (data : Bytes) :
    crAfter cr (b :: data) = crAfter (b = 13) data := by
  cases data with
  | nil => rfl
  | cons c data =>
    obtain ⟨l, hl⟩ : ∃ l, (c :: data).getLast? = some l := ⟨_, List.getLast?_cons⟩
    simp [crAfter, List.getLast?_cons_cons, hl]

theorem crAfter_append (cr : Bool) (data data' : Bytes) :
    crAfter cr (data ++ data') = crAfter (crAfter cr data) data' := by
  induction data generalizing cr with
  | nil => rfl
  | cons b data ih => rw [List.cons_append, crAfter_cons, crAfter_cons, ih]

/-- The number of cuts between a CR and its mate. -/
def cutCount : Bool → List Bytes → Nat
  | _, [] => 0
  | cr, chunk :: chunks =>
    (if cr && startsWithMate chunk then 1 else 0) + cutCount (crAfter cr chunk) chunks

variable (s : LineState)

/-- The reader remembers a CR exactly when it was the last byte, and holds nothing behind it. -/
theorem lineReader_run_state (data : Bytes) (hs : s.afterCr = true → s.held = []) :
    (lineReader.run s data).1.afterCr = crAfter s.afterCr data ∧
      ((lineReader.run s data).1.afterCr = true → (lineReader.run s data).1.held = []) := by
  induction data generalizing s with
  | nil => exact ⟨rfl, hs⟩
  | cons b data ih =>
    have hstep : (lineReader.step s b).1.afterCr = decide (b = 13) ∧
        ((lineReader.step s b).1.afterCr = true → (lineReader.step s b).1.held = []) := by
      simp only [lineReader, lineStep]
      split
      case isTrue hmate =>
        have hb : b ≠ 13 := by
          rintro rfl
          simp at hmate
        simp [hb]
      case isFalse =>
        split
        case isTrue => simp
        case isFalse hterm =>
          have hb : b ≠ 13 := by
            rintro rfl
            exact hterm rfl
          simp [hb]
    have hrest := ih _ hstep.2
    rw [Transducer.run_cons]
    refine ⟨hrest.1.trans ?_, hrest.2⟩
    rw [hstep.1, crAfter_cons]

/-- Behind a CR, forgetting it costs an empty line when its mate follows, and nothing else. -/
theorem lineReader_run_forget (data : Bytes) (hs : s.afterCr = true → s.held = []) :
    (lineReader.run ⟨s.held, false⟩ data).1.held = (lineReader.run s data).1.held ∧
      linesOf s.held data
        = (if s.afterCr && startsWithMate data then [[]] else []) ++ (lineReader.run s data).2 := by
  obtain ⟨held, cr⟩ := s
  cases cr with
  | false => simp [linesOf]
  | true =>
    obtain rfl : held = [] := hs rfl
    cases data with
    | nil => simp [startsWithMate, linesOf]
    | cons b data =>
      cases hmate : startsWithMate (b :: data) with
      | true =>
        have hb : b = 10 ∨ b = 0 := by simpa [startsWithMate] using hmate
        rcases hb with rfl | rfl <;> exact ⟨rfl, rfl⟩
      | false =>
        have hstep : lineReader.step ⟨[], true⟩ b = lineReader.step ⟨[], false⟩ b := by
          simp_all [startsWithMate, lineReader, lineStep]
        simp [linesOf, Transducer.run_cons, hstep]

/-- A stream read in chunks has one line more for every cut between a CR and its mate, and the same
lines if there is no such cut. -/
theorem length_chunkedLines (chunks : List Bytes) (hs : s.afterCr = true → s.held = []) :
    (chunkedLines s.held chunks).length
        = (lineReader.run s chunks.flatten).2.length + cutCount s.afterCr chunks ∧
      (cutCount s.afterCr chunks = 0 →
        chunkedLines s.held chunks = (lineReader.run s chunks.flatten).2) := by
  induction chunks generalizing s with
  | nil => simp [chunkedLines, cutCount]
  | cons chunk chunks ih =>
    obtain ⟨hcr, hnext⟩ := lineReader_run_state s chunk hs
    obtain ⟨hheld, hlines⟩ := lineReader_run_forget s chunk hs
    obtain ⟨hlen, heq⟩ := ih _ hnext
    rw [hcr] at hlen heq
    simp only [chunkedLines, cutCount, List.flatten_cons, Transducer.run_append, partialLine,
      hheld, hlines, List.length_append, hlen]
    constructor
    · split <;> simp <;> omega
    · intro hzero
      rw [heq (by omega)]
      split at hzero
      · omega
      · simp_all

theorem startsWithMate_append (data data' : Bytes) (hne : data ≠ []) :
    startsWithMate (data ++ data') = startsWithMate data := by
  cases data with
  | nil => exact absurd rfl hne
  | cons b data => rfl

theorem cutCount_eq_zero (cr : Bool) (chunks : List Bytes) :
    cutCount cr chunks = 0 ↔ ∀ before after, chunks = before ++ after →
      crAfter cr before.flatten = true → startsWithMate after.flatten = false := by
  induction chunks generalizing cr with
  | nil =>
    refine ⟨fun _ before after hsplit _ => ?_, fun _ => rfl⟩
    rw [(List.append_eq_nil_iff.mp hsplit.symm).2]
    rfl
  | cons chunk chunks ih =>
    rw [cutCount, Nat.add_eq_zero_iff, ih]
    constructor
    · rintro ⟨hhead, htail⟩ before after hsplit hcr
      cases before with
      | cons chunk' before =>
        obtain ⟨rfl, hrest⟩ := List.cons.inj hsplit
        rw [List.flatten_cons, crAfter_append] at hcr
        exact htail before after hrest hcr
      | nil =>
        -- the stream itself begins with the mate, in the first chunk that is not empty
        obtain rfl : chunk :: chunks = after := hsplit
        obtain rfl : cr = true := hcr
        rw [List.flatten_cons]
        by_cases hne : chunk = []
        · subst hne
          exact htail [] chunks rfl rfl
        · rw [startsWithMate_append chunk _ hne]
          simpa using hhead
    · intro hall
      constructor
      · rw [ite_eq_right_iff]
        intro hhead
        rw [Bool.and_eq_true] at hhead
        have hne : chunk ≠ [] := by
          rintro rfl
          simp [startsWithMate] at hhead
        have hfalse := hall [] (chunk :: chunks) rfl hhead.1
        rw [List.flatten_cons, startsWithMate_append chunk _ hne, hhead.2] at hfalse
        cases hfalse
      · intro before after hsplit hcr
        refine hall (chunk :: before) after (by rw [hsplit, List.cons_append]) ?_
        rwa [List.flatten_cons, crAfter_append]

/-- From the beginning of a line: the lines come out the same exactly if no cut falls between a CR
and its mate. -/
theorem chunkedLines_eq_iff (held : Bytes) (chunks : List Bytes) :
    chunkedLines held chunks = linesOf held chunks.flatten ↔ ¬ CutsTerminator chunks := by
  obtain ⟨hlen, heq⟩ := length_chunkedLines ⟨held, false⟩ chunks (by simp)
  dsimp only at hlen heq
  have hcuts : cutCount false chunks = 0 ↔ ¬ CutsTerminator chunks := by
    rw [cutCount_eq_zero, CutsTerminator]
    push Not
    refine forall₃_congr fun before after hsplit => ?_
    have hcr : crAfter false before.flatten = true ↔ before.flatten.getLast? = some 13 := by
      cases hlast : before.flatten.getLast? <;> simp [crAfter, hlast]
    rw [hcr, ne_eq, Bool.not_eq_true]
  rw [← hcuts]
  constructor
  · intro hlines
    rw [hlines, linesOf] at hlen
    omega
  · exact heq

/-! ### Feeding a slot -/

/-- A refill with one packet, and the parser behind it. -/
def refillAndProcess (setup : Setup) (chunk : Bytes) : Code Bool := do
  let accepted ← refillInboundBuffersFromSrc setup chunk
  let _ ← commProcessInput setup none
  pure accepted

/-- Packets one after the other; the answers say which of them were accepted as a whole. -/
def feedChunks (setup : Setup) : List Bytes → Code (List Bool)
  | [] => pure []
  | chunk :: chunks => do
    let accepted ← refillAndProcess setup chunk
    let rest ← feedChunks setup chunks
    pure (accepted :: rest)

/-- The payload of an inbound message. -/
def inboundPayload : HookCall → Option Bytes
  | .messageInbound data => some data
  | _ => none

variable {ρ : Type}

/-- The payloads that `HOOK_MESSAGE_INBOUND` was entered with. -/
def World.inboundMessages (w : World ρ) : List Bytes :=
  (w.entries.map Prod.fst).filterMap inboundPayload

theorem inboundMessages_of_lines {setup : Setup} (hreg : setup.registered .messageInbound = true)
    {w w' : World ρ} {entered : List (HookCall × CommAbstract)} {lines : List Bytes}
    (hentries : w'.entries = w.entries ++ entered)
    (hcalls : entered.map Prod.fst = lineCalls setup lines) :
    w'.inboundMessages = w.inboundMessages ++ lines := by
  have hlines : (lines.map HookCall.messageInbound).filterMap inboundPayload = lines := by
    rw [List.filterMap_map]
    exact List.filterMap_some
  rw [World.inboundMessages, hentries, List.map_append, List.filterMap_append, hcalls, lineCalls,
    if_pos hreg, hlines]
  rfl

/-- The parser on a slot that may have no buffer yet: it hands out the lines of the buffer and leaves the
unfinished one. -/
theorem commProcessInput_oneBuffer {setup : Setup} {env : Surroundings ρ} {depth : Nat} {w : World ρ}
    (henv : env.KeepsInput True) (hstrict : setup.relaxed = false) (hslot : LineSlot w.comm)
    {buf : Cells} (hbuf : OneBuffer w.comm buf) :
    Returns (slotHandler setup env (depth + 1)) (commProcessInput setup none) w
      fun _ w' => w'.reads = w.reads ∧
        InputKept True { w.comm with inbound := w'.comm.inbound } w'.comm ∧
        (∃ buf', OneBuffer w'.comm buf' ∧ buf'.data = partialLine [] buf.data) ∧
        ∃ entered, w'.entries = w.entries ++ entered ∧
          entered.map Prod.fst = lineCalls setup (linesOf [] buf.data) := by
  rcases hbuf with hbuf | ⟨hnil, rfl⟩
  · apply (commProcessInput_returns henv hstrict hslot buf hbuf).mono
    intro _ w' h
    obtain ⟨buf', hbuf', hdata⟩ := h.buffer
    exact ⟨h.reads, h.input, ⟨buf', .inl hbuf', hdata⟩, h.entries⟩
  · -- nothing was ever received: there is no buffer to parse
    have hskip : skipNonDataHeadBuffers w.comm.inbound = w.comm.inbound := by
      rw [hnil]
      rfl
    apply commProcessInput_text henv hslot hskip
    intro w₁ h₁
    have hnil₁ : w₁.comm.inbound = [] := h₁.input.inbound.trans hnil
    apply (processText_of_nil (hslot.of_kept h₁.input) hnil₁).mono
    rintro _ w' rfl
    have hin := h₁.input
    refine ⟨h₁.reads, { hin with inbound := rfl }, ⟨.empty, .inr ⟨hnil₁, rfl⟩, rfl⟩, [], h₁.entries, ?_⟩
    show [] = lineCalls setup []
    simp [lineCalls]

section Feed

variable {setup : Setup} {env : Surroundings ρ} {depth : Nat}
  (hstrict : setup.relaxed = false) (hreg : setup.registered .messageInbound = true)
  (henv : env.KeepsInput True)

include hstrict hreg henv

/-- A packet that fits: its lines are handed out, and the partial line stays in the buffer. -/
theorem refillAndProcess_returns {w : World ρ} (hslot : LineSlot w.comm)
    (hplain : w.comm.flags.enableTelnet = false) {buf : Cells}
    (hbuf : OneBuffer w.comm buf) (hheld : ∀ b ∈ buf.data, isTerminator b = false) (chunk : Bytes)
    (hfit : buf.data.length + chunk.length ≤ bufferSize) :
    Returns (slotHandler setup env (depth + 1)) (refillAndProcess setup chunk) w
      fun accepted w' => accepted = true ∧ LineSlot w'.comm ∧
        w'.comm.flags.enableTelnet = false ∧
        w'.inboundMessages = w.inboundMessages ++ linesOf buf.data chunk ∧
        ∃ buf', OneBuffer w'.comm buf' ∧ buf'.data = partialLine buf.data chunk := by
  rw [refillAndProcess]
  refine (refill_plain w hslot.toTextSlot hplain buf hbuf chunk).bind fun accepted w₁ h₁ => ?_
  obtain ⟨haccepted, buf₁, rfl, hdata⟩ := h₁
  rw [List.take_of_length_le (by omega)] at hdata
  have hrun : lineReader.run ⟨[], false⟩ (buf.data ++ chunk)
      = lineReader.run ⟨buf.data, false⟩ chunk := by
    rw [Transducer.run_append, lineReader_run_text [] buf.data hheld, List.nil_append]
    rfl
  have hslot₁ : LineSlot (w.withBuffer buf₁).comm := hslot.with_inbound _
  refine (commProcessInput_returns henv hstrict hslot₁ buf₁ rfl).bind fun _ w₂ h₂ => ?_
  rw [hdata, linesOf, partialLine, hrun] at h₂
  obtain ⟨entered, hentered, hcalls⟩ := h₂.entries
  obtain ⟨buf₂, hbuf₂, hdata₂⟩ := h₂.buffer
  refine returns_done.mpr ⟨haccepted.trans (decide_eq_true hfit), ?_, ?_, ?_, ?_⟩
  · exact (hslot₁.with_inbound _).of_kept h₂.input
  · exact h₂.input.enableTelnet.trans hplain
  · exact inboundMessages_of_lines hreg hentered hcalls
  · exact ⟨buf₂, .inl hbuf₂, hdata₂⟩

/-- Packets that fit into one buffer are all accepted, and their lines are those of the reader that
forgets a CR at every cut. -/
theorem feedChunks_returns (depth : Nat) (chunks : List Bytes) (w : World ρ) (hslot : LineSlot w.comm)
    (hplain : w.comm.flags.enableTelnet = false) (buf : Cells)
    (hbuf : OneBuffer w.comm buf) (hheld : ∀ b ∈ buf.data, isTerminator b = false)
    (hfit : buf.data.length + chunks.flatten.length ≤ bufferSize) :
    Returns (slotHandler setup env (depth + 1)) (feedChunks setup chunks) w
      fun accepted w' => (∀ a ∈ accepted, a = true) ∧
        w'.inboundMessages = w.inboundMessages ++ chunkedLines buf.data chunks := by
  induction chunks generalizing w buf with
  | nil => exact returns_done.mpr ⟨by simp, by simp [chunkedLines]⟩
  | cons chunk chunks ih =>
    rw [List.flatten_cons, List.length_append] at hfit
    rw [feedChunks]
    refine (refillAndProcess_returns hstrict hreg henv hslot hplain hbuf hheld chunk
      (by omega)).bind fun accepted w₁ h₁ => ?_
    obtain ⟨haccepted, hslot₁, hplain₁, hmessages₁, buf₁, hbuf₁, hdata₁⟩ := h₁
    have hheld₁ : ∀ b ∈ buf₁.data, isTerminator b = false := by
      rw [hdata₁]
      exact lineReader_run_held ⟨buf.data, false⟩ chunk hheld
    have hshort : (partialLine buf.data chunk).length ≤ buf.data.length + chunk.length :=
      lineReader_run_held_length ⟨buf.data, false⟩ chunk
    refine (ih w₁ hslot₁ hplain₁ buf₁ hbuf₁ hheld₁ (by rw [hdata₁]; omega)).bind
      fun rest w₂ h₂ => ?_
    refine returns_done.mpr ⟨?_, ?_⟩
    · rintro a (_ | ⟨_, ha⟩)
      · exact haccepted
      · exact h₂.1 a ha
    · rw [h₂.2, hmessages₁, hdata₁, chunkedLines, List.append_assoc]

end Feed

/-- Line input of a plain strict-mode slot and the cuts of its stream. From the same slot, with a
partial line in its buffer or nothing, the packets are fed one by one and as one packet. Both runs
return with every refill accepted, and they hand the same payloads to `HOOK_MESSAGE_INBOUND` exactly
if no cut falls between a CR and an LF or NUL behind it. -/
theorem line_input_independent_of_cuts (setup : Setup) (env : Surroundings ρ) (depth : Nat)
    (w : World ρ) (buf : LinearBuffer Byte bufferSize) (chunks : List Bytes)
    (hstrict : setup.relaxed = false) (hreg : setup.registered .messageInbound = true)
    (henv : env.KeepsInput True) (hslot : LineSlot w.comm)
    (hplain : w.comm.flags.enableTelnet = false) (hbuf : OneBuffer w.comm buf)
    (hheld : ∀ b ∈ buf.data, isTerminator b = false)
    (hfit : buf.data.length + chunks.flatten.length ≤ bufferSize) :
    ∃ accepted w₁ accepted' w₂,
      (feedChunks setup chunks).eval (slotHandler setup env (depth + 1)) w
        = some (accepted, w₁) ∧
      (feedChunks setup [chunks.flatten]).eval (slotHandler setup env (depth + 1)) w
        = some (accepted', w₂) ∧
      (∀ a ∈ accepted, a = true) ∧ (∀ a ∈ accepted', a = true) ∧
      (w₁.inboundMessages = w₂.inboundMessages ↔ ¬ CutsTerminator chunks) := by
  obtain ⟨accepted, w₁, heval₁, haccepted, hmessages₁⟩ :=
    feedChunks_returns hstrict hreg henv depth chunks w hslot hplain buf hbuf hheld hfit
  obtain ⟨accepted', w₂, heval₂, haccepted', hmessages₂⟩ :=
    feedChunks_returns hstrict hreg henv depth [chunks.flatten] w hslot hplain buf hbuf
      hheld (by simpa using hfit)
  refine ⟨accepted, w₁, accepted', w₂, heval₁, heval₂, haccepted, haccepted', ?_⟩
  rw [hmessages₁, hmessages₂, List.append_cancel_left_eq, ← chunkedLines_eq_iff buf.data chunks]
  simp [chunkedLines]

/-- `ab CR LF` with a cut inside the line. -/
theorem line_input_independent_of_cuts_greeting :
    ∃ accepted w₁ accepted' w₂,
      (feedChunks chatSetup [[97], [98, 13, 10]]).eval (slotHandler chatSetup chatSurroundings 1)
        (chatWorld false []) = some (accepted, w₁) ∧
      (feedChunks chatSetup [[97, 98, 13, 10]]).eval (slotHandler chatSetup chatSurroundings 1)
        (chatWorld false []) = some (accepted', w₂) ∧
      w₁.inboundMessages = w₂.inboundMessages := by
  have hcuts : ¬ CutsTerminator [[97], [98, 13, 10]] :=
    (chunkedLines_eq_iff [] _).mp (by decide)
  obtain ⟨accepted, w₁, accepted', w₂, heval₁, heval₂, _, _, hiff⟩ :=
    line_input_independent_of_cuts chatSetup chatSurroundings 0 (chatWorld false []) .empty
      [[97], [98, 13, 10]] rfl rfl (chatSurroundings_keepsInput True)
      (chatWorld_lineSlot false []) rfl (.inr ⟨rfl, rfl⟩) (by simp) (by decide)
  exact ⟨accepted, w₁, accepted', w₂, heval₁, heval₂, hiff.mpr hcuts⟩

/-- A packet that ends between the CR and the LF of `a CR LF` adds an empty line. -/
theorem split_terminator_adds_line :
    ((feedChunks chatSetup [[97, 13], [10]]).eval (slotHandler chatSetup chatSurroundings 1)
        (chatWorld false [])).map (fun r => (r.1, r.2.inboundMessages))
      = some ([true, true], [[97], []]) ∧
    ((feedChunks chatSetup [[97, 13, 10]]).eval (slotHandler chatSetup chatSurroundings 1)
        (chatWorld false [])).map (fun r => (r.1, r.2.inboundMessages))
      = some ([true], [[97]]) := by
  decide +kernel

end Mudmux.Comm
