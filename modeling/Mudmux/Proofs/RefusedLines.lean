import Mudmux.Proofs.BusySubnegotiation
import Mudmux.Proofs.InputTokens

/-!
# `Mudmux.Proofs.RefusedLines`: lines whose dispatch is refused

In relaxed mode the scheduler refuses a line with `MUDMUX_DISPATCH_QUEUE_FULL` while an execution of the
slot is active. The parser then leaves the read cursor where it is, and the line is parsed again by a
later pass. But by then it has been stripped in place: white space behind the line and both bytes of its
terminator are NUL, and NUL ends a line. The second pass takes one NUL for the terminator and every
other one for an empty line; and a Telnet slot echoes a newline for each attempt.

`Attempts` is the sequence of attempts on the buffered bytes, without buffers, and `Attempts.lines` counts
the lines that refusals add. `retried_lines_unchanged_iff`: the accepted lines are the ones that would have
been accepted at once exactly if every refused line has no white space behind it and a terminator of one
byte; and the echo is the same if on a Telnet slot no line is refused.
-/

set_option autoImplicit false

namespace Mudmux.Comm

open Mudmux.Lib
open Mudmux.Lib.Program (Returns returns_done)

/-! ### What a refusal leaves -/

/-- The bytes of a buffer behind an attempt on its first line that was refused. -/
def refusedBytes (data : Bytes) : Bytes :=
  match data.dropWhile fun b => !isTerminator b with
  | [] => data
  | t :: rest =>
    let line := data.takeWhile fun b => !isTerminator b
    stripSpace line ++ strippedCells line (terminatorLength t rest) ++ skipTerminator t rest

/-- The first line has no white space behind it, and a terminator of one byte. -/
def endsCleanly (data : Bytes) : Bool :=
  match data.dropWhile fun b => !isTerminator b with
  | [] => true
  | t :: rest =>
    let line := data.takeWhile fun b => !isTerminator b
    decide (terminatorLength t rest = 1) && decide (stripSpace line = line.dropWhile isSpace)

theorem stripSpace_idem (line : Bytes) : stripSpace (stripSpace line) = stripSpace line := by
  have hinitial : stripSpace line <+: line.dropWhile isSpace := List.rdropWhile_prefix isSpace _
  have hfront : (stripSpace line).dropWhile isSpace = stripSpace line := by
    cases hstrip : stripSpace line with
    | nil => rfl
    | cons b rest =>
      -- the first byte is the first one behind the leading white space
      obtain ⟨rest', hrest'⟩ : ∃ rest', line.dropWhile isSpace = b :: rest' := by
        rw [hstrip] at hinitial
        obtain ⟨tail, htail⟩ := hinitial
        exact ⟨rest ++ tail, htail.symm⟩
      have hb := List.head_dropWhile_not isSpace (l := line) (by rw [hrest']; exact List.cons_ne_nil _ _)
      simp only [hrest', List.head_cons] at hb
      rw [List.dropWhile_cons_of_neg (by simp [hb])]
  conv_lhs => rw [stripSpace, hfront]
  exact List.rdropWhile_idempotent isSpace _

theorem isTerminator_of_mem_stripSpace {line : Bytes} (hline : ∀ b ∈ line, isTerminator b = false) :
    ∀ b ∈ stripSpace line, isTerminator b = false := by
  intro b hb
  have hinitial : stripSpace line <+: line.dropWhile isSpace := List.rdropWhile_prefix isSpace _
  exact hline b ((List.dropWhile_sublist _).subset (hinitial.subset hb))

/-- How many empty lines a refusal of the first line adds. -/
def extraLines (data : Bytes) : Nat :=
  match data.dropWhile fun b => !isTerminator b with
  | [] => 0
  | t :: rest =>
    let line := data.takeWhile fun b => !isTerminator b
    (line.dropWhile isSpace).length - (stripSpace line).length + (terminatorLength t rest - 1)

theorem terminatorLength_pos (t : Byte) (rest : Bytes) : 0 < terminatorLength t rest := by
  rw [terminatorLength]
  split <;> omega

theorem extraLines_eq_zero_iff (data : Bytes) : extraLines data = 0 ↔ endsCleanly data = true := by
  rw [extraLines, endsCleanly]
  split
  · simp
  · next t rest _ =>
      have hpos := terminatorLength_pos t rest
      have hinitial : stripSpace (data.takeWhile fun b => !isTerminator b)
          <+: (data.takeWhile fun b => !isTerminator b).dropWhile isSpace :=
        List.rdropWhile_prefix isSpace _
      have hle := hinitial.length_le
      simp only [Bool.and_eq_true, decide_eq_true_eq]
      constructor
      · intro hzero
        exact ⟨by omega, hinitial.eq_of_length (by omega)⟩
      · rintro ⟨hone, heq⟩
        rw [heq]
        omega

/-- Every NUL is an empty line. -/
theorem linesOf_replicate_nul (n : Nat) (rest : Bytes) :
    linesOf [] (List.replicate n 0 ++ rest) = List.replicate n [] ++ linesOf [] rest := by
  induction n with
  | zero => rfl
  | succ n ih =>
    have hline := (lineReader_run_line [] [] 0 (List.replicate n 0 ++ rest) nofun rfl).2
    rw [List.replicate_succ, List.cons_append, List.replicate_succ, List.cons_append, ← ih]
    exact hline

variable {data : Bytes}

/-- Behind a refusal the first line is still there, with empty lines behind it. -/
theorem linesOf_refusedBytes {line rest : Bytes} (h : nextLine data = some (line, rest)) :
    linesOf [] (refusedBytes data)
      = line :: (List.replicate (extraLines data) [] ++ linesOf [] rest) := by
  rcases exists_terminator data with htext | ⟨raw, t, tail, rfl, hraw, ht⟩
  · rw [nextLine_eq_none htext] at h
    cases h
  rw [nextLine_eq_some tail hraw ht] at h
  obtain ⟨rfl, rfl⟩ := Prod.mk.inj (Option.some.inj h)
  have hpos := terminatorLength_pos t tail
  simp only [refusedBytes, extraLines, dropWhile_line tail hraw ht, takeWhile_line tail hraw ht]
  obtain ⟨n, hn⟩ : ∃ n, (raw.dropWhile isSpace).length - (stripSpace raw).length
      + terminatorLength t tail = n + 1 := ⟨_, (Nat.succ_pred_eq_of_pos (by omega)).symm⟩
  have hcells : strippedCells raw (terminatorLength t tail) = 0 :: List.replicate n 0 := by
    rw [strippedCells, hn, List.replicate_succ]
  have hfirst := (lineReader_run_line [] (stripSpace raw) 0
    (List.replicate n 0 ++ skipTerminator t tail) (isTerminator_of_mem_stripSpace hraw) rfl).2
  have hskip : skipTerminator 0 (List.replicate n 0 ++ skipTerminator t tail)
      = List.replicate n 0 ++ skipTerminator t tail := rfl
  rw [hskip, linesOf_replicate_nul, List.nil_append, stripSpace_idem] at hfirst
  rw [hcells, List.append_assoc, List.cons_append, hfirst]
  congr 3
  omega

/-! ### Attempts -/

/-- The attempts on the lines of `data`, each with the scheduler's answer, and the bytes they leave. -/
inductive Attempts : Bytes → DispatchLog → Bytes → Prop where
  | nil (data : Bytes) : Attempts data [] data
  | accepted {data line rest unread : Bytes} {log : DispatchLog}
      (hline : nextLine data = some (line, rest)) (hrest : Attempts rest log unread) :
      Attempts data ((.messageInbound line, .queued) :: log) unread
  | refused {data line rest unread : Bytes} {log : DispatchLog}
      (hline : nextLine data = some (line, rest)) (hrest : Attempts (refusedBytes data) log unread) :
      Attempts data ((.messageInbound line, .queueFull) :: log) unread

variable {log : DispatchLog}

theorem Attempts.append {middle unread : Bytes} {log' : DispatchLog} (h : Attempts data log middle)
    (h' : Attempts middle log' unread) : Attempts data (log ++ log') unread := by
  induction h with
  | nil => exact h'
  | accepted hline _ ih => exact .accepted hline (ih h')
  | refused hline _ ih => exact .refused hline (ih h')

/-- The message of an execution that was accepted. -/
def acceptedLine (d : HookCall × DispatchResult) : Option Bytes :=
  match d with
  | (.messageInbound line, .queued) => some line
  | _ => none

/-- The messages accepted, in order. -/
def acceptedLines (log : DispatchLog) : List Bytes := log.filterMap acceptedLine

/-- Under these answers, only lines are refused that end cleanly. -/
def cleanRefusals : Bytes → List DispatchResult → Bool
  | _, [] => true
  | data, .queueFull :: answers => endsCleanly data && cleanRefusals (refusedBytes data) answers
  | data, _ :: answers => cleanRefusals (((nextLine data).map Prod.snd).getD data) answers

/-- Refusals do not lose lines, and those of lines that end cleanly do not add any; all others do. -/
theorem Attempts.lines {unread : Bytes} (h : Attempts data log unread) :
    ∃ extra, (acceptedLines log).length + (linesOf [] unread).length
        = (linesOf [] data).length + extra ∧
      (extra = 0 ↔ cleanRefusals data (log.map Prod.snd) = true) ∧
      (cleanRefusals data (log.map Prod.snd) = true →
        acceptedLines log ++ linesOf [] unread = linesOf [] data) := by
  induction h with
  | nil data => exact ⟨0, by simp [acceptedLines], by simp [cleanRefusals], fun _ => rfl⟩
  | @accepted data line rest unread log hline _ ih =>
    obtain ⟨extra, hcount, hclean, hlines⟩ := ih
    have hdata := linesOf_nextLine data
    rw [hline] at hdata
    have hanswers : cleanRefusals data (.queued :: log.map Prod.snd)
        = cleanRefusals rest (log.map Prod.snd) := by
      rw [cleanRefusals, hline]
      · rfl
      · nofun
    have haccepted : acceptedLines ((.messageInbound line, .queued) :: log)
        = line :: acceptedLines log := rfl
    rw [List.map_cons, hanswers, haccepted, hdata]
    refine ⟨extra, ?_, hclean, fun h => ?_⟩
    · rw [List.length_cons, List.length_cons]
      omega
    · rw [List.cons_append, hlines h]
  | @refused data line rest unread log hline _ ih =>
    obtain ⟨extra, hcount, hclean, hlines⟩ := ih
    have hdata := linesOf_nextLine data
    rw [hline] at hdata
    have hrefused := linesOf_refusedBytes hline
    have hzero := extraLines_eq_zero_iff data
    have haccepted : acceptedLines ((.messageInbound line, .queueFull) :: log)
        = acceptedLines log := rfl
    rw [List.map_cons, cleanRefusals, haccepted, Bool.and_eq_true, ← hclean, ← hzero]
    refine ⟨extra + extraLines data, ?_, by omega, fun h => ?_⟩
    · rw [hcount, hrefused, hdata]
      simp only [List.length_cons, List.length_append, List.length_replicate]
      omega
    · rw [hlines (hclean.mp h.2), hrefused, h.1, hdata]
      rfl

/-- Once no line is left, the accepted lines are the lines of the bytes exactly if the refused ones ended
cleanly. -/
theorem Attempts.accepted_iff {unread : Bytes} (h : Attempts data log unread)
    (hdone : nextLine unread = none) :
    acceptedLines log = linesOf [] data ↔ cleanRefusals data (log.map Prod.snd) = true := by
  obtain ⟨extra, hcount, hclean, hlines⟩ := h.lines
  have hnone : linesOf [] unread = [] := by
    rw [linesOf_nextLine, hdone]
  rw [hnone, List.append_nil] at hlines
  rw [hnone, List.length_nil, Nat.add_zero] at hcount
  constructor
  · intro heq
    rw [heq] at hcount
    exact hclean.mp (by omega)
  · exact hlines

/-- Without a refusal there are as many attempts as accepted lines, and conversely. -/
theorem Attempts.length_eq_iff {unread : Bytes} (h : Attempts data log unread) :
    (acceptedLines log).length ≤ log.length ∧
      (log.length = (acceptedLines log).length ↔ ∀ d ∈ log, d.2 = .queued) := by
  induction h with
  | nil => exact ⟨le_rfl, by simp [acceptedLines]⟩
  | @accepted data line rest unread log hline _ ih =>
    have haccepted : acceptedLines ((.messageInbound line, .queued) :: log)
        = line :: acceptedLines log := rfl
    rw [haccepted, List.length_cons, List.length_cons, List.forall_mem_cons]
    refine ⟨by omega, ?_⟩
    rw [← ih.2]
    constructor
    · exact fun h => ⟨rfl, by omega⟩
    · exact fun h => by omega
  | @refused data line rest unread log hline _ ih =>
    have haccepted : acceptedLines ((.messageInbound line, .queueFull) :: log)
        = acceptedLines log := rfl
    rw [haccepted, List.length_cons, List.forall_mem_cons]
    refine ⟨by omega, fun h => by omega, fun h => ?_⟩
    cases h.1

/-! ### Echoes -/

/-- What the echo of a newline makes of a queue. -/
def echoOutbound (wbio enableTelnet : Bool) (outbound : List OutboundBuffer) : List OutboundBuffer :=
  if enableTelnet then
    (commBufferedWriteRaw ({ wbio, outbound } : CommAbstract) [13, 10]).outbound
  else outbound

/-- A raw write looks at the write BIO and the queue only. -/
theorem commBufferedWriteRaw_outbound (comm : CommAbstract) (buf : Bytes) :
    (commBufferedWriteRaw comm buf).outbound = (commBufferedWriteRaw
      ({ wbio := comm.wbio, outbound := comm.outbound } : CommAbstract) buf).outbound := by
  simp only [commBufferedWriteRaw]
  split
  · rfl
  · split
    · rfl
    · generalize (if comm.outbound.isEmpty then [.empty] else comm.outbound) = chain
      split <;> rfl

/-- A slot in line input whose queue has `n` more newlines than before. -/
structure Echoed (n : Nat) (comm comm' : CommAbstract) : Prop where
  lineSlot : LineSlot comm'
  wbio : comm'.wbio = comm.wbio
  enableTelnet : comm'.flags.enableTelnet = comm.flags.enableTelnet
  outbound : comm'.outbound
    = (echoOutbound comm.wbio comm.flags.enableTelnet)^[n] comm.outbound

variable {comm : CommAbstract}

theorem Echoed.refl (h : LineSlot comm) : Echoed 0 comm comm :=
  ⟨h, rfl, rfl, rfl⟩

theorem Echoed.trans {n n' : Nat} {comm' comm'' : CommAbstract} (h : Echoed n comm comm')
    (h' : Echoed n' comm' comm'') : Echoed (n + n') comm comm'' where
  lineSlot := h'.lineSlot
  wbio := h'.wbio.trans h.wbio
  enableTelnet := h'.enableTelnet.trans h.enableTelnet
  outbound := by
    rw [h'.outbound, h.wbio, h.enableTelnet, h.outbound, Nat.add_comm, Function.iterate_add_apply]

/-- The echo in front of a dispatch. -/
theorem Echoed.of_echo (h : LineSlot comm) : Echoed 1 comm (echoedNewline comm) := by
  have hkept := InputKept.of_echo h.toTextSlot
  refine ⟨h.of_kept hkept, ?_, hkept.enableTelnet, ?_⟩
  · rw [echoedNewline]
    split
    · rw [ifLive, if_pos h.live]
      exact (commBufferedWriteImpl_queueStep true [13, 10] comm).wbio
    · rfl
  · rw [Function.iterate_one, echoedNewline, echoOutbound, h.notClosing]
    cases htelnet : comm.flags.enableTelnet with
    | false => rfl
    | true =>
      simp only [Bool.not_false, Bool.and_true, if_true]
      rw [ifLive, if_pos h.live, ← commBufferedWriteRaw_outbound]
      simp [commBufferedWriteImpl, htelnet, h.noFrames, h.noWebsocket, normalizeTelnetNewlines,
        WebSocketState.isReady]

/-- Changes of the buffers and of flags that neither the echo nor the line loop reads. -/
theorem Echoed.of_input (h : LineSlot comm) (inbound : List InboundBuffer)
    (invokedPrompt deferredInbound : Bool) :
    Echoed 0 comm
      { comm with inbound, flags := { comm.flags with invokedPrompt, deferredInbound } } :=
  ⟨{ h with },
    rfl, rfl, rfl⟩

/-! ### A pass -/

/-- What a pass over `data` does: it attempts lines and echoes a newline for each attempt. -/
structure World.Attempted {ρ : Type} (data : Bytes) (log : DispatchLog)
    (w w' : World (ρ × DispatchLog)) : Prop where
  echoed : Echoed log.length w.comm w'.comm
  buffer : ∃ buf, w'.comm.inbound = [⟨.data, buf⟩] ∧ Attempts data log buf.data
  dispatches : w'.outside.2 = w.outside.2 ++ log

section Pass

variable {ρ : Type} {setup : Setup} {env : Surroundings ρ} {depth : Nat}
  {w : World (ρ × DispatchLog)}

theorem World.Attempted.refl (hslot : LineSlot w.comm) {buf : Cells}
    (hbuf : w.comm.inbound = [⟨.data, buf⟩]) : w.Attempted buf.data [] w :=
  ⟨.refl hslot, ⟨buf, hbuf, .nil _⟩, (List.append_nil _).symm⟩

theorem World.Attempted.trans {log' : DispatchLog} {w' w'' : World (ρ × DispatchLog)} {buf : Cells}
    (h : w.Attempted data log w') (hbuf : w'.comm.inbound = [⟨.data, buf⟩])
    (h' : w'.Attempted buf.data log' w'') : w.Attempted data (log ++ log') w'' where
  echoed := by
    rw [List.length_append]
    exact h.echoed.trans h'.echoed
  buffer := by
    obtain ⟨buf₁, hbuf₁, hattempts⟩ := h.buffer
    obtain ⟨buf₂, hbuf₂, hattempts'⟩ := h'.buffer
    rw [hbuf] at hbuf₁
    cases hbuf₁
    exact ⟨buf₂, hbuf₂, hattempts.append hattempts'⟩
  dispatches := by rw [h'.dispatches, h.dispatches, List.append_assoc]

theorem returns_lastDefer (hslot : LineSlot w.comm) {Q : Unit → World (ρ × DispatchLog) → Prop}
    (hQ : Q () { w with comm := w.comm.mapFlags fun flags => { flags with deferredInbound := true } }) :
    Returns (slotHandler setup env.logging depth) deferInbound w Q := by
  rw [deferInbound, returns_modifyFlags hslot.live, Program.effect, returns_setHasDeferred]
  exact returns_done.mpr hQ

variable (hrelaxed : setup.relaxed = true) (hpool : env.PoolRunning)

include hrelaxed hpool

/-- `comm_invoke_inbound_message` in relaxed mode: the scheduler's answer is noted. -/
theorem commInvokeInboundMessage_attempt (hslot : LineSlot w.comm) (data : Bytes) :
    Returns (slotHandler setup env.logging depth) (commInvokeInboundMessage setup data) w
      fun result w' => (result = .queued ∨ result = .queueFull) ∧ Echoed 0 w.comm w'.comm ∧
        w'.comm.inbound = w.comm.inbound ∧
        w'.outside.2 = w.outside.2 ++ [(.messageInbound data, result)] := by
  rw [returns_invokeRelaxed hslot.live hrelaxed]
  apply returns_enqueue hpool
  intro result outside hresult
  exact returns_done.mpr ⟨hresult, .of_input hslot w.comm.inbound false true, rfl, rfl⟩

/-- The line loop in relaxed mode: it ends at a refusal, where the slot is busy, or without a line. -/
theorem lineLoop_attempts (fuel : Nat) (budget : Option Nat) (w : World (ρ × DispatchLog))
    (hslot : LineSlot w.comm) (buf : Cells) (hbuf : w.comm.inbound = [⟨.data, buf⟩]) :
    Returns (slotHandler setup env.logging depth) (lineLoop setup fuel budget) w
      fun _ w' => ∃ log, w.Attempted buf.data log w' := by
  induction fuel generalizing budget w buf with
  | zero => exact returns_done.mpr ⟨[], .refl hslot hbuf⟩
  | succ fuel ih =>
    by_cases hbudget : budget = some 0
    · rw [lineLoop, if_pos hbudget]
      exact returns_done.mpr ⟨[], .refl hslot hbuf⟩
    rcases exists_terminator buf.data with htext | ⟨line, t, rest, hdata, hline, ht⟩
    · exact lineLoop_waits fuel hslot.live hbuf htext ⟨[], .refl hslot hbuf⟩
    obtain ⟨found, hfound, hcells, hlen, hnext⟩ :=
      findNewlineAndStrip_spec buf line t rest hdata hline ht
    obtain ⟨found', hfound', hfline, hfrest⟩ :=
      findNewlineAndStrip_eq_some buf line t rest hdata hline ht
    obtain rfl : found = found' := Option.some.inj (hfound.symm.trans hfound')
    have hnextLine : nextLine buf.data = some (found.line, skipTerminator t rest) := by
      rw [hdata, nextLine_eq_some rest hline ht, hfline]
    have hrefused : refusedBytes buf.data = found.buf.data := by
      rw [hdata, refusedBytes, dropWhile_line rest hline ht, takeWhile_line rest hline ht, hcells]
    have hecho : Echoed 1 w.comm (echoedNewline { w.comm with inbound := [⟨.data, found.buf⟩] }) := by
      have hin : Echoed 0 w.comm { w.comm with inbound := [⟨.data, found.buf⟩] } :=
        .of_input hslot _ w.comm.flags.invokedPrompt w.comm.flags.deferredInbound
      exact hin.trans (.of_echo hin.lineSlot)
    apply lineLoop_found fuel hbudget hslot.live hbuf hfound
    apply (commInvokeInboundMessage_attempt hrelaxed hpool (by exact hecho.lineSlot) _).mono
    rintro result w₁ ⟨hresult, hechoed, hinbound, hlog⟩
    have hechoed₁ := hecho.trans hechoed
    have hinbound₁ : w₁.comm.inbound = [⟨.data, found.buf⟩] := by
      rw [hinbound]
      exact (InputKept.of_echo
        (hslot.with_inbound [⟨.data, found.buf⟩]).toTextSlot).inbound
    split
    · next hfull =>
        -- the cursor stays, and the buffer has been stripped
        subst hfull
        apply returns_lastDefer hechoed₁.lineSlot
        refine ⟨[(.messageInbound found.line, .queueFull)], ?_, ⟨found.buf, hinbound₁, ?_⟩, hlog⟩
        · exact hechoed₁.trans (.of_input hechoed₁.lineSlot _ w₁.comm.flags.invokedPrompt true)
        · exact .refused hnextLine (hrefused ▸ .nil _)
    · next haccepted =>
        obtain rfl : result = .queued := hresult.resolve_right haccepted
        have hnew : ∀ buf' : Cells,
            Echoed 1 w.comm { w₁.comm with inbound := [⟨.data, buf'⟩] } := fun buf' =>
          hechoed₁.trans (.of_input hechoed₁.lineSlot _ w₁.comm.flags.invokedPrompt
            w₁.comm.flags.deferredInbound)
        have hattempted : ∀ (buf' : Cells) (outside : ρ),
            buf'.data = (found.buf.consume found.next).data →
            w.Attempted buf.data [(.messageInbound found.line, .queued)]
              { w₁ with
                  comm := { w₁.comm with inbound := [⟨.data, buf'⟩] }
                  outside := (outside, w₁.outside.2 ++ []) } := by
          intro buf' outside hbuf'
          refine ⟨hnew buf', ⟨buf', rfl, ?_⟩, (List.append_nil _).trans hlog⟩
          rw [hbuf', hfrest]
          exact .accepted hnextLine (.nil _)
        refine ⟨hechoed₁.lineSlot.live, by rw [hinbound₁, List.tail_cons], ?_⟩
        dsimp only
        split
        · exact ⟨_, hattempted _ _ rfl⟩
        · intro buf' hbuf'
          refine Returns.mono (ih _ _ (by exact (hnew buf').lineSlot) buf' (by rfl)) ?_
          rintro _ w₂ ⟨log, h₂⟩
          exact ⟨_, (hattempted buf' _ hbuf').trans rfl h₂⟩

/-- `comm_process_input` in relaxed mode on a slot in line input with one buffer. -/
theorem commProcessInput_attempts (hslot : LineSlot w.comm) (buf : Cells)
    (hbuf : w.comm.inbound = [⟨.data, buf⟩]) (budget : Option Nat) :
    Returns (slotHandler setup env.logging depth) (commProcessInput setup budget) w
      fun _ w' => ∃ log, w.Attempted buf.data log w' := by
  apply commProcessInput_asks hslot.toTextSlot hslot.notAwaiting
  dsimp only
  split
  · exact ⟨[], .refl hslot, ⟨buf, hbuf, .nil _⟩, rfl⟩
  · have hbuf₁ : skipNonDataHeadBuffers w.comm.inbound = [⟨.data, buf⟩] := by
      rw [hbuf]
      rfl
    have hin : Echoed 0 w.comm { w.comm with
        flags := { w.comm.flags with deferredInbound := false }
        inbound := skipNonDataHeadBuffers w.comm.inbound } :=
      .of_input hslot _ w.comm.flags.invokedPrompt false
    apply processText_lines (by exact hslot.live) (by exact hslot.lineInput) (by exact hbuf₁)
    intro fuel _
    refine Returns.mono (lineLoop_attempts hrelaxed hpool fuel budget _ (by exact hin.lineSlot) buf
      (by exact hbuf₁)) ?_
    rintro _ w' ⟨log, h⟩
    refine ⟨h.echoed.lineSlot.live, [] ++ log, World.Attempted.trans ?_ hbuf₁ h⟩
    exact ⟨hin, ⟨buf, hbuf₁, .nil _⟩, rfl⟩

end Pass

/-! ### Pass after pass -/

/-- What may happen to a slot in line input between two passes without touching its input, its output or
the dispatches: hooks run, complete and set flags. -/
structure World.BetweenPasses {ρ : Type} (w w' : World (ρ × DispatchLog)) : Prop where
  echoed : Echoed 0 w.comm w'.comm
  inbound : w'.comm.inbound = w.comm.inbound
  dispatches : w'.outside.2 = w.outside.2

/-- `comm_process_input` again and again, with anything in between. -/
inductive PassesRun {ρ : Type} (setup : Setup) (env : Surroundings ρ) (depth : Nat)
    (w : World (ρ × DispatchLog)) : World (ρ × DispatchLog) → Prop where
  | start : PassesRun setup env depth w w
  | pass {w₁ w₂ : World (ρ × DispatchLog)} {budget : Option Nat} {result : ProcessResult}
      (hrun : PassesRun setup env depth w w₁)
      (heval : (commProcessInput setup budget).eval (slotHandler setup env.logging depth) w₁
        = some (result, w₂)) :
      PassesRun setup env depth w w₂
  | other {w₁ w₂ : World (ρ × DispatchLog)} (hrun : PassesRun setup env depth w w₁)
      (hbetween : w₁.BetweenPasses w₂) : PassesRun setup env depth w w₂

/-- The bytes of the slot's one buffer that have not been read. -/
def World.unread {ρ : Type} (w : World ρ) : Bytes := w.comm.inbound.flatMap fun ibb => ibb.buf.data

section Passes

variable {ρ : Type} {setup : Setup} {env : Surroundings ρ} {depth : Nat}
  {w w' : World (ρ × DispatchLog)} (hrelaxed : setup.relaxed = true) (hpool : env.PoolRunning)
  (hslot : LineSlot w.comm) {buf : Cells}
  (hbuf : w.comm.inbound = [⟨.data, buf⟩])

include hrelaxed hpool hslot hbuf

theorem PassesRun.attempted (hrun : PassesRun setup env depth w w') :
    ∃ log, w.Attempted buf.data log w' := by
  induction hrun with
  | start => exact ⟨[], .refl hslot hbuf⟩
  | @pass w₁ w₂ budget result _ heval ih =>
    obtain ⟨log, h⟩ := ih
    obtain ⟨buf₁, hbuf₁, _⟩ := h.buffer
    obtain ⟨log', h'⟩ := (commProcessInput_attempts hrelaxed hpool h.echoed.lineSlot buf₁ hbuf₁
      budget).of_eval heval
    exact ⟨_, h.trans hbuf₁ h'⟩
  | @other w₁ w₂ _ hbetween ih =>
    obtain ⟨log, h⟩ := ih
    obtain ⟨buf₁, hbuf₁, hattempts⟩ := h.buffer
    exact ⟨log, h.echoed.trans hbetween.echoed, ⟨buf₁, hbetween.inbound.trans hbuf₁, hattempts⟩,
      hbetween.dispatches.trans h.dispatches⟩

omit hrelaxed hpool hslot hbuf in
/-- Newlines that find room are queued one behind the other. -/
theorem length_chainData_echoOutbound (n : Nat) (outbound : List OutboundBuffer)
    (hroom : bufferSize + 2 * n < outboundRoom outbound) :
    (chainData ((echoOutbound true true)^[n] outbound)).length
      = (chainData outbound).length + 2 * n := by
  induction n generalizing outbound with
  | zero => rfl
  | succ n ih =>
    -- a chain with more room than a buffer is not full
    have hchain : outbound.length < maxOutboundBuffers := by
      by_contra hfull
      rw [outboundRoom] at hroom
      split at hroom
      · next hnone =>
          rw [List.getLast?_eq_none_iff.mp hnone] at hfull
          exact hfull (by decide)
      · next tail _ =>
          have htail : tail.room ≤ bufferSize := Nat.sub_le _ _
          have hzero : maxOutboundBuffers - outbound.length = 0 := by omega
          rw [hzero, Nat.zero_mul] at hroom
          omega
    have hfit : withinOutboundLimit ({ wbio := true, outbound } : CommAbstract) [13, 10] = true := by
      have hlength : ([13, 10] : Bytes).length ≤ outboundRoom outbound := by
        show 2 ≤ _
        omega
      simpa [withinOutboundLimit] using hlength
    have hdata := chainData_commBufferedWriteRaw hfit hchain
    have hspace := outboundRoom_commBufferedWriteRaw hfit hchain rfl
    have hecho : echoOutbound true true outbound
        = (commBufferedWriteRaw ({ wbio := true, outbound } : CommAbstract) [13, 10]).outbound := rfl
    have hspace' : outboundRoom (echoOutbound true true outbound) + 2 = outboundRoom outbound :=
      hspace
    rw [Function.iterate_succ_apply, ih _ (by omega), hecho, hdata, List.length_append]
    show (chainData outbound).length + 2 + 2 * n = _
    omega

/-- The lines accepted and the newlines echoed are those of a slot whose dispatches are all accepted at
once. -/
def SameAsAccepted (data : Bytes) (log : DispatchLog) (comm comm' : CommAbstract) : Prop :=
  acceptedLines log = linesOf [] data ∧
    comm'.outbound = (echoOutbound comm.wbio comm.flags.enableTelnet)^[(linesOf [] data).length]
      comm.outbound

/-- The refused lines end cleanly, and on a Telnet slot there are none. -/
def RefusalsHarmless (data : Bytes) (log : DispatchLog) (comm : CommAbstract) : Prop :=
  cleanRefusals data (log.map Prod.snd) = true ∧
    (comm.flags.enableTelnet = true → ∀ d ∈ log, d.2 = .queued)

/-- Passes in relaxed mode until no line is left, with any answers of the scheduler: if the refusals are
harmless, the lines accepted and the newlines echoed are as if no dispatch had been refused. The
converse holds as well, as long as the queue of a Telnet slot takes the newlines. -/
theorem retried_lines_unchanged_iff (hrun : PassesRun setup env depth w w')
    (hdone : nextLine w'.unread = none) :
    ∃ log, w'.outside.2 = w.outside.2 ++ log ∧
      (RefusalsHarmless buf.data log w.comm → SameAsAccepted buf.data log w.comm w'.comm) ∧
      ((w.comm.flags.enableTelnet = true → w.comm.wbio = true ∧
          bufferSize + 2 * log.length < outboundRoom w.comm.outbound) →
        SameAsAccepted buf.data log w.comm w'.comm → RefusalsHarmless buf.data log w.comm) := by
  obtain ⟨log, h⟩ := hrun.attempted hrelaxed hpool hslot hbuf
  obtain ⟨buf', hbuf', hattempts⟩ := h.buffer
  have hunread : w'.unread = buf'.data := by
    simp [World.unread, hbuf']
  rw [hunread] at hdone
  have hlines := hattempts.accepted_iff hdone
  have hcount := hattempts.length_eq_iff
  refine ⟨log, h.dispatches, ?_, ?_⟩
  · rintro ⟨hclean, hall⟩
    have heq := hlines.mpr hclean
    refine ⟨heq, ?_⟩
    rw [h.echoed.outbound]
    cases htelnet : w.comm.flags.enableTelnet with
    | false =>
      have hid : echoOutbound w.comm.wbio false = id := rfl
      rw [hid, Function.iterate_id, Function.iterate_id]
    | true => rw [hcount.2.mpr (hall htelnet), heq]
  · rintro hroom ⟨heq, houtbound⟩
    refine ⟨hlines.mp heq, fun htelnet => hcount.2.mp ?_⟩
    obtain ⟨hwbio, hroom⟩ := hroom htelnet
    rw [h.echoed.outbound, htelnet, hwbio] at houtbound
    have hlength := congrArg (fun chain => (chainData chain).length) houtbound
    have hle := hcount.1
    rw [heq] at hle ⊢
    rw [length_chainData_echoOutbound _ _ hroom, length_chainData_echoOutbound _ _ (by omega)]
      at hlength
    omega

end Passes

/-! ### Given answers -/

/-- A scheduler that refuses as the list says, and accepts from its end on. The slot is never busy when it
is asked for. -/
def refusingScheduler : Surroundings (List Bool × Bool) where
  foreign e comm refusals :=
    match e with
    | .enqueue _ _ => (comm, (refusals.1.tail, refusals.1.headD false))
    | _ => (comm, refusals)
  hookReturns _ _ := true
  slotBusy _ := false
  enqueue _ refusals := if refusals.2 then .queueFull else .queued
  writes _ := []
  sslHandshake _ := .wantIo
  sslRead _ := ⟨[], true⟩

theorem refusingScheduler_poolRunning : refusingScheduler.PoolRunning := by
  rintro call ⟨refusals, refuses⟩
  cases refuses
  · exact .inl rfl
  · exact .inr rfl

/-- Passes without a limit. -/
def passTimes {ρ : Type} (setup : Setup) (env : Surroundings ρ) :
    Nat → World (ρ × DispatchLog) → Option (World (ρ × DispatchLog))
  | 0, w => some w
  | n + 1, w =>
    ((commProcessInput setup none).eval (slotHandler setup env.logging 0) w).bind fun r =>
      passTimes setup env n r.2

theorem PassesRun.of_passTimes {ρ : Type} {setup : Setup} {env : Surroundings ρ} (n : Nat)
    {w w₁ w' : World (ρ × DispatchLog)} (hrun : PassesRun setup env 0 w w₁)
    (h : passTimes setup env n w₁ = some w') : PassesRun setup env 0 w w' := by
  induction n generalizing w₁ with
  | zero =>
    cases h
    exact hrun
  | succ n ih =>
    obtain ⟨⟨result, w₂⟩, heval, hrest⟩ := Option.bind_eq_some_iff.mp h
    exact ih (hrun.pass heval) hrest

theorem exists_passesRun {ρ : Type} {setup : Setup} {env : Surroundings ρ} (n : Nat)
    (w : World (ρ × DispatchLog)) (P : World (ρ × DispatchLog) → Bool)
    (h : (passTimes setup env n w).any P = true) :
    ∃ w', PassesRun setup env 0 w w' ∧ P w' = true := by
  cases hw : passTimes setup env n w with
  | none => simp [hw] at h
  | some w' => exact ⟨w', PassesRun.start.of_passTimes n hw, by simpa [hw] using h⟩

/-- A connection in line input with these bytes in its buffer, in front of that scheduler. -/
def bufferedWorld (enableTelnet : Bool) (buf : Cells) (refusals : List Bool) :
    World ((List Bool × Bool) × DispatchLog) where
  comm := { (chatWorld enableTelnet []).comm with inbound := [⟨.data, buf⟩] }
  entries := []
  reads := []
  outside := ((refusals, false), [])

/-- `  go LF ok CR LF`. -/
def cleanBuffer : Cells :=
  LinearBuffer.empty.append [32, 32, 103, 111, 10, 111, 107, 13, 10] (by decide)

/-- The first line is refused twice: its terminator is a single byte. -/
theorem retried_lines_unchanged_clean :
    ∃ w', PassesRun relaxedSetup refusingScheduler 0 (bufferedWorld false cleanBuffer [true, true]) w' ∧
      acceptedLines w'.outside.2 = linesOf [] cleanBuffer.data := by
  have hpasses : (passTimes relaxedSetup refusingScheduler 3
      (bufferedWorld false cleanBuffer [true, true])).any (fun w' =>
        decide (nextLine w'.unread = none) &&
        decide (w'.outside.2.map Prod.snd = [.queueFull, .queueFull, .queued, .queued])) = true := by
    decide +kernel
  obtain ⟨w', hrun, hw'⟩ := exists_passesRun 3 _ _ hpasses
  rw [Bool.and_eq_true, decide_eq_true_eq, decide_eq_true_eq] at hw'
  have hslot : LineSlot (bufferedWorld false cleanBuffer [true, true]).comm :=
    ⟨⟨rfl, rfl, rfl, rfl, nofun⟩, rfl, rfl⟩
  obtain ⟨log, hlog, hharmless, -⟩ := retried_lines_unchanged_iff rfl refusingScheduler_poolRunning
    hslot rfl hrun hw'.1
  have hlog' : w'.outside.2 = log := hlog
  rw [hlog'] at hw'
  refine ⟨w', hrun, ?_⟩
  rw [hlog']
  refine (hharmless ⟨?_, nofun⟩).1
  rw [hw'.2]
  decide +kernel

/-- `go CR LF`. -/
def crlfBuffer : Cells :=
  LinearBuffer.empty.append [103, 111, 13, 10] (by decide)

/-- `go LF`. -/
def lfBuffer : Cells :=
  LinearBuffer.empty.append [103, 111, 10] (by decide)

/-- A line that ends in CR LF and is refused once is accepted with an empty line behind it. A Telnet slot
echoes two newlines for a line that is refused once. In both runs no line is left. -/
theorem refused_line_is_changed :
    (∃ w', PassesRun relaxedSetup refusingScheduler 0 (bufferedWorld false crlfBuffer [true]) w' ∧
      (decide (nextLine w'.unread = none) &&
        decide (acceptedLines w'.outside.2 = [[103, 111], []]) &&
        decide (linesOf [] crlfBuffer.data = [[103, 111]])) = true) ∧
    ∃ w', PassesRun relaxedSetup refusingScheduler 0 (bufferedWorld true lfBuffer [true]) w' ∧
      (decide (nextLine w'.unread = none) &&
        decide (acceptedLines w'.outside.2 = [[103, 111]]) &&
        decide (linesOf [] lfBuffer.data = [[103, 111]]) &&
        decide (chainData w'.comm.outbound = [13, 10, 13, 10])) = true :=
  ⟨exists_passesRun 2 _ _ (by decide +kernel), exists_passesRun 2 _ _ (by decide +kernel)⟩

end Mudmux.Comm
