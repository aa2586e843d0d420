import Mudmux.Proofs.InputTokens

/-!
# `Mudmux.Proofs.LineSplitter`: the line parser against a reference splitter

`splitLines` cuts bytes into lines without buffers, cursors or overwriting: at the first CR LF, CR NUL,
CR, LF or NUL, each line stripped of white space and paired with the bytes behind its terminator.

`commProcessInput_splits`: in strict mode, with hooks that leave the slot open and in line input,
`comm_process_input` with a limit enters the hook for the lines of the splitter up to the limit, in order,
and leaves the bytes behind the last of them. The scanner overwrites what it has passed, but only in front
of the cursor that the loop then moves (`findNewlineAndStrip_eq_some`), so nothing is read twice.
-/

set_option autoImplicit false

namespace Mudmux.Comm

open Mudmux.Lib
open Mudmux.Lib.Program (Returns returns_done)

/-! ### The splitter -/

/-- The lines of `data`, with `held` read before it: each one stripped, with the bytes behind its
terminator. -/
def splitLines (held : Bytes) : Bytes → List (Bytes × Bytes)
  | [] => []
  | 13 :: 10 :: rest => (stripSpace held, rest) :: splitLines [] rest
  | 13 :: 0 :: rest => (stripSpace held, rest) :: splitLines [] rest
  | 13 :: rest => (stripSpace held, rest) :: splitLines [] rest
  | 10 :: rest => (stripSpace held, rest) :: splitLines [] rest
  | 0 :: rest => (stripSpace held, rest) :: splitLines [] rest
  | b :: rest => splitLines (held ++ [b]) rest

theorem splitLines_text (held line rest : Bytes) (hline : ∀ b ∈ line, isTerminator b = false) :
    splitLines held (line ++ rest) = splitLines (held ++ line) rest := by
  induction line generalizing held with
  | nil => simp
  | cons b line ih =>
    have hb := hline b List.mem_cons_self
    simp only [isTerminator, Bool.or_eq_false_iff, decide_eq_false_iff_not] at hb
    have hrest := ih (held ++ [b]) fun c hc => hline c (List.mem_cons_of_mem b hc)
    rw [List.cons_append, splitLines, hrest, List.append_assoc, List.singleton_append]
    all_goals grind

theorem splitLines_terminator (held : Bytes) (t : Byte) (rest : Bytes) (ht : isTerminator t = true) :
    splitLines held (t :: rest)
      = (stripSpace held, skipTerminator t rest) :: splitLines [] (skipTerminator t rest) := by
  simp only [isTerminator, Bool.or_eq_true, decide_eq_true_eq] at ht
  rcases ht with (rfl | rfl) | rfl
  · cases rest with
    | nil => rfl
    | cons b rest =>
      by_cases hlf : b = 10
      · subst hlf
        rfl
      · by_cases hnul : b = 0
        · subst hnul
          rfl
        · have hskip : skipTerminator 13 (b :: rest) = b :: rest := by
            simp [skipTerminator, hlf, hnul]
          rw [hskip, splitLines]
          all_goals grind
  · rfl
  · rfl

theorem splitLines_nextLine (data : Bytes) :
    splitLines [] data
      = match nextLine data with
        | none => []
        | some (line, rest) => (line, rest) :: splitLines [] rest := by
  rcases exists_terminator data with htext | ⟨line, t, rest, rfl, hline, ht⟩
  · have htexts := splitLines_text [] data [] htext
    rw [List.append_nil] at htexts
    rw [nextLine_eq_none htext, htexts]
    rfl
  · rw [nextLine_eq_some rest hline ht, splitLines_text [] line _ hline, List.nil_append,
      splitLines_terminator _ t _ ht]

/-- The first `limit` entries, all of them without a limit. -/
def upTo {α : Type} (limit : Option Nat) (entries : List α) : List α :=
  match limit with
  | none => entries
  | some n => entries.take n

theorem upTo_cons {α : Type} {limit : Option Nat} (hlimit : limit ≠ some 0) (a : α)
    (entries : List α) : upTo limit (a :: entries) = a :: upTo (limit.map (· - 1)) entries := by
  cases limit with
  | none => rfl
  | some n =>
    cases n with
    | zero => exact absurd rfl hlimit
    | succ n => rfl

/-- The bytes behind the last of these lines. -/
def bytesBehind (data : Bytes) (lines : List (Bytes × Bytes)) : Bytes :=
  (lines.getLast?.map Prod.snd).getD data

theorem bytesBehind_cons (data : Bytes) (line : Bytes × Bytes) (lines : List (Bytes × Bytes)) :
    bytesBehind data (line :: lines) = bytesBehind line.2 lines := by
  rw [bytesBehind, bytesBehind, List.getLast?_cons]
  cases lines.getLast? <;> rfl

/-! ### Hooks that keep the slot in line input -/

variable {ρ : Type} {setup : Setup} {env : Surroundings ρ} {depth : Nat} {w : World ρ}

/-- Surroundings in which nobody closes a slot in line input, suspends it, changes its mode or reads its
input, and in which the slot is never busy. -/
structure Surroundings.KeepsLines (env : Surroundings ρ) : Prop where
  foreign : ∀ {β : Type} (e : SlotEffect β) (comm : CommAbstract) (outside : ρ),
    reentrant e = true → LineSlot comm →
      LineSlot (env.foreign e comm outside).1 ∧ (env.foreign e comm outside).1.inbound = comm.inbound
  notBusy : ∀ outside, env.slotBusy outside = false

/-- A slot in line input with this inbound chain. -/
def LinesKept (inbound : List InboundBuffer) (comm : CommAbstract) : Prop :=
  LineSlot comm ∧ comm.inbound = inbound

theorem LinesKept.of_kept {inbound : List InboundBuffer} {comm comm' : CommAbstract}
    (h : LinesKept inbound comm) (hkept : InputKept True comm comm') : LinesKept inbound comm' :=
  ⟨h.1.of_kept hkept, hkept.inbound.trans h.2⟩

theorem Surroundings.KeepsLines.calm (henv : env.KeepsLines) (inbound : List InboundBuffer)
    (entries : List (HookCall × CommAbstract)) :
    env.Calm fun w => LinesKept inbound w.comm ∧ w.entries = entries where
  steady h := h.1.1.steady
  output outbound bufferedWrite h :=
    ⟨h.1.of_kept (.of_output h.1.1.toTextSlot outbound bufferedWrite), h.2⟩
  freed h := ⟨h.1.of_kept ⟨{ h.1.1 with }, rfl, rfl, rfl, rfl, rfl, fun _ => rfl⟩, h.2⟩
  otherSlots h :=
    have hf := henv.foreign _ _ _ rfl h.1.1
    ⟨⟨hf.1, hf.2.trans h.1.2⟩, h.2⟩
  finalizeAwait h :=
    have hf := henv.foreign _ _ _ rfl h.1.1
    ⟨⟨hf.1, hf.2.trans h.1.2⟩, h.2⟩
  drain h := h

section Parser

variable (henv : env.KeepsLines) (hstrict : setup.relaxed = false)

include henv hstrict

/-- `comm_invoke_inbound_message` keeps the slot and its chain, and enters the hook once. -/
theorem commInvokeInboundMessage_keepsLines {inbound : List InboundBuffer}
    (hslot : LinesKept inbound w.comm) (data : Bytes) :
    Returns (slotHandler setup env (depth + 1)) (commInvokeInboundMessage setup data) w
      fun result w' => result ≠ .queueFull ∧ LinesKept inbound w'.comm ∧
        ∃ comm, w'.entries = w.entries ++ enteredBy setup (.messageInbound data) comm := by
  have ht := hslot.1.toTextSlot
  rw [commInvokeInboundMessage, returns_commGuard ht.live]
  dsimp only
  rw [returns_modifyFlags ht.live, hstrict, if_neg Bool.false_ne_true, if_neg Bool.false_ne_true]
  have hflags : LinesKept inbound
      (w.comm.mapFlags fun flags => { flags with invokedPrompt := false }) :=
    hslot.of_kept ⟨{ ht with }, rfl, rfl, rfl, rfl, rfl, fun _ => rfl⟩
  have hhook := henv.foreign (.runHook (.messageInbound data)) _ w.outside rfl hflags.1
  apply (mudmuxExecutionDispatch_calm (henv.calm inbound (w.entries ++ enteredBy setup
    (.messageInbound data) (w.comm.mapFlags fun flags => { flags with invokedPrompt := false })))
    (fun _ h => h.1.1.not_ready) hstrict (.messageInbound data) (fun hreg => ?_) fun hnone => ?_).mono
  · rintro result w' ⟨hresult, hkept, hentries⟩
    exact ⟨hresult, hkept, _, hentries⟩
  · refine ⟨⟨hhook.1, hhook.2.trans hflags.2⟩, ?_⟩
    rw [enteredBy, hreg, if_pos rfl]
  · refine ⟨hflags, ?_⟩
    rw [enteredBy, hnone, if_neg Bool.false_ne_true, List.append_nil]

omit henv hstrict in
/-- What the parser does with `data`: the hook was entered for these lines, and the bytes behind the last
of them are in the buffer. -/
structure World.Split (setup : Setup) (data : Bytes) (lines : List (Bytes × Bytes))
    (w w' : World ρ) : Prop where
  lineSlot : LineSlot w'.comm
  buffer : ∃ buf, w'.comm.inbound = [⟨.data, buf⟩] ∧ buf.data = bytesBehind data lines
  entries : ∃ entered, w'.entries = w.entries ++ entered ∧
    entered.map Prod.fst = lineCalls setup (lines.map Prod.fst)

omit henv hstrict in
theorem World.Split.refl (hslot : LineSlot w.comm) {buf : Cells}
    (hbuf : w.comm.inbound = [⟨.data, buf⟩]) : w.Split setup buf.data [] w where
  lineSlot := hslot
  buffer := ⟨buf, hbuf, rfl⟩
  entries := ⟨[], (List.append_nil _).symm, by simp [lineCalls]⟩

omit henv hstrict in
/-- A line was dispatched before. -/
theorem World.Split.after_line {data line rest : Bytes} {lines : List (Bytes × Bytes)}
    {comm : CommAbstract} {w' w'' : World ρ} (h : w'.Split setup rest lines w'')
    (hentries : w'.entries = w.entries ++ enteredBy setup (.messageInbound line) comm) :
    w.Split setup data ((line, rest) :: lines) w'' where
  lineSlot := h.lineSlot
  buffer := by
    rw [bytesBehind_cons]
    exact h.buffer
  entries := by
    obtain ⟨entered, hentered, hcalls⟩ := h.entries
    refine ⟨enteredBy setup (.messageInbound line) comm ++ entered, ?_, ?_⟩
    · rw [hentered, hentries, List.append_assoc]
    · rw [List.map_append, hcalls, List.map_cons]
      exact lineCalls_cons line _ comm

/-- The line loop takes the lines of the splitter, as many as it may. -/
theorem lineLoop_splits (fuel : Nat) (limit : Option Nat) (w : World ρ) (hslot : LineSlot w.comm)
    (buf : Cells) (hbuf : w.comm.inbound = [⟨.data, buf⟩]) (hfuel : buf.data.length < fuel) :
    Returns (slotHandler setup env (depth + 1)) (lineLoop setup fuel limit) w
      fun _ w' => w.Split setup buf.data (upTo limit (splitLines [] buf.data)) w' := by
  -- one byte of fuel at least for every line
  induction fuel generalizing limit w buf with
  | zero => omega
  | succ fuel ih =>
    by_cases hlimit : limit = some 0
    · subst hlimit
      rw [lineLoop, if_pos rfl]
      exact returns_done.mpr (World.Split.refl hslot hbuf)
    rw [splitLines_nextLine]
    rcases findNewlineAndStrip_cases buf with ⟨hnone, htext⟩ | ⟨found, hfound, hnext, hshort⟩
    · have hupTo : upTo limit ([] : List (Bytes × Bytes)) = [] := by
        cases limit <;> simp [upTo]
      apply lineLoop_waits fuel hslot.live hbuf htext
      rw [hnone, hupTo]
      exact World.Split.refl hslot hbuf
    · rw [hnext]
      have hslot₀ := hslot.with_inbound [⟨.data, found.buf⟩]
      have hecho := InputKept.of_echo hslot₀.toTextSlot
      apply lineLoop_found fuel hlimit hslot.live hbuf hfound
      have hkept : LinesKept [⟨.data, found.buf⟩]
          (echoedNewline { w.comm with inbound := [⟨.data, found.buf⟩] }) :=
        LinesKept.of_kept ⟨hslot₀, rfl⟩ hecho
      apply (commInvokeInboundMessage_keepsLines henv hstrict (by exact hkept) _).mono
      rintro result w₁ ⟨hresult, hkept₁, comm, hentries⟩
      rw [if_neg hresult]
      refine ⟨hkept₁.1.live, by rw [hkept₁.2, List.tail_cons], ?_⟩
      dsimp only
      rw [henv.notBusy, if_neg Bool.false_ne_true]
      intro buf' hbuf'
      have hslot' := hkept₁.1.with_inbound [⟨.data, buf'⟩]
      refine Returns.mono (ih _ _ (by exact hslot') buf' (by rfl) (by rw [hbuf']; omega)) fun _ w₂ h₂ => ?_
      rw [upTo_cons hlimit, ← hbuf']
      exact h₂.after_line hentries

end Parser

theorem chatSurroundings_keepsLines : chatSurroundings.KeepsLines where
  foreign e comm outside he hslot :=
    have hkept := (chatSurroundings_keepsInput True).foreign e comm outside he hslot.toTextSlot
    ⟨hslot.of_kept hkept, hkept.inbound⟩
  notBusy _ := rfl

/-- A buffer whose first two cells have been read: a line with a blank at its end, an empty one, one with
a blank in front, and a partial one. -/
def splitterBuffer : Cells :=
  (LinearBuffer.empty.append [120, 10, 104, 105, 32, 13, 10, 0, 32, 111, 107, 10, 114]
    (by decide)).consume 2

/-- A plain slot with that buffer. -/
def splitterWorld : World Unit :=
  { chatWorld false [] with
      comm := { (chatWorld false []).comm with inbound := [⟨.data, splitterBuffer⟩] } }

end Mudmux.Comm
