import Mudmux.Comm.FileInput
import Mudmux.Proofs.LineChunks

/-!
# `Mudmux.Proofs.QueuedInput`: the console and file queues

A reader thread puts what it reads into a queue, up to 4095 bytes at a time and a NUL behind them.
`comm_process_file_input` and `comm_process_console_input` first empty that queue into the inbound
buffer of the slot, and parse only afterwards. So everything that waits has to fit into one buffer
of 4096 bytes next to the partial line kept there. `fillQueue` says what happens to a queue in
general: the first chunk that does not fit loses its end, and the chunks behind it stay queued. On
the console this also counts as the end of input.
-/

set_option autoImplicit false

namespace Mudmux.Comm

open Mudmux.Lib
open Mudmux.Lib.Program (Returns returns_done)

/-! ### The code -/

@[simp] theorem trimNul_queueMessage (chunk : Bytes) : trimNul (queueMessage chunk) = chunk := by
  simp [trimNul, queueMessage]

/-- The entry of the slot machine is this code with its answer dropped. -/
theorem processQueuedInput_eq (source : QueueSource) (setup : Setup) (chunks : List Chunk) :
    processQueuedInput setup chunks
      = (processQueue source setup (chunks.map fun chunk => queueMessage chunk.data)
          >>= fun _ => pure ()) := by
  have hdrain : ∀ chunks : List Chunk, refillQueued setup chunks
      = (drainQueue setup (chunks.map fun chunk => queueMessage chunk.data)
          >>= fun _ => pure ()) := by
    intro chunks
    induction chunks with
    | nil => rfl
    | cons chunk chunks ih =>
      rw [List.map_cons, refillQueued, drainQueue, trimNul_queueMessage, Program.bind_assoc']
      congr 1
      funext accepted
      cases accepted with
      | true => exact ih
      | false => rfl
  rw [processQueuedInput, processQueue, hdrain, Program.bind_assoc', Program.bind_assoc']
  congr 1
  funext drained
  show (commProcessInput setup none >>= fun _ => pure ())
    = ((commProcessInput setup none >>= fun _ => pure _) >>= fun _ => pure ())
  rw [Program.bind_assoc']
  rfl

/-! ### Filling the buffer from a queue -/

/-- What a queue leaves: the bytes in the buffer, the chunks still queued, and whether one of them
did not fit. -/
def fillQueue (held : Bytes) : List Bytes → Bytes × List Bytes × Bool
  | [] => (held, [], false)
  | chunk :: chunks =>
    if held.length + chunk.length ≤ bufferSize then fillQueue (held ++ chunk) chunks
    else (held ++ chunk.take (bufferSize - held.length), chunks, true)

theorem fillQueue_of_fits (held : Bytes) (chunks : List Bytes)
    (hfit : held.length + chunks.flatten.length ≤ bufferSize) :
    fillQueue held chunks = (held ++ chunks.flatten, [], false) := by
  induction chunks generalizing held with
  | nil => simp [fillQueue]
  | cons chunk chunks ih =>
    rw [List.flatten_cons, List.length_append] at hfit
    rw [fillQueue, if_pos (by omega), ih _ (by rw [List.length_append]; omega),
      List.flatten_cons, List.append_assoc]

/-- A queue that does not fit as a whole has a chunk that does not fit. -/
theorem fillQueue_discards (held : Bytes) (chunks : List Bytes) (hheld : held.length ≤ bufferSize)
    (hlong : bufferSize < held.length + chunks.flatten.length) :
    (fillQueue held chunks).2.2 = true := by
  induction chunks generalizing held with
  | nil =>
    rw [List.flatten_nil, List.length_nil] at hlong
    omega
  | cons chunk chunks ih =>
    rw [List.flatten_cons, List.length_append] at hlong
    rw [fillQueue]
    split
    case isTrue hfit =>
      apply ih
      · rwa [List.length_append]
      · rw [List.length_append]
        omega
    case isFalse => rfl

/-- The slot of a queue: line input, neither Telnet nor TLS. -/
structure QueueSlot (comm : CommAbstract) : Prop extends LineSlot comm where
  noTelnet : comm.flags.enableTelnet = false
  noTls : comm.ssl = false

theorem QueueSlot.with_inbound {comm : CommAbstract} (h : QueueSlot comm)
    (inbound : List InboundBuffer) : QueueSlot { comm with inbound } :=
  ⟨h.toLineSlot.with_inbound inbound, h.noTelnet, h.noTls⟩

section Drain

variable {ρ : Type} {setup : Setup} {env : Surroundings ρ} {depth : Nat}

/-- The drain loop is `fillQueue`, and it changes nothing but the inbound buffer. -/
theorem drainQueue_returns (chunks : List Bytes) (w : World ρ) (hslot : QueueSlot w.comm)
    (buf : Cells) (hbuf : OneBuffer w.comm buf) :
    Returns (slotHandler setup env depth) (drainQueue setup (chunks.map queueMessage)) w
      fun drained w' =>
        drained = ((fillQueue buf.data chunks).2.1.map queueMessage,
          (fillQueue buf.data chunks).2.2) ∧
        w' = { w with comm := { w.comm with inbound := w'.comm.inbound } } ∧
        ∃ buf', OneBuffer w'.comm buf' ∧ buf'.data = (fillQueue buf.data chunks).1 := by
  induction chunks generalizing w buf with
  | nil => exact returns_done.mpr ⟨rfl, rfl, buf, hbuf, rfl⟩
  | cons chunk chunks ih =>
    rw [List.map_cons, drainQueue, trimNul_queueMessage]
    apply (refill_plain w hslot.toTextSlot hslot.noTelnet buf hbuf chunk).bind
    rintro accepted _ ⟨rfl, buf₁, rfl, hdata⟩
    by_cases hfit : buf.data.length + chunk.length ≤ bufferSize
    · -- the chunk is in the buffer as a whole, and the loop goes on
      have htake : chunk.take (bufferSize - buf.data.length) = chunk :=
        List.take_of_length_le (by omega)
      rw [htake] at hdata
      rw [if_pos (decide_eq_true hfit), fillQueue, if_pos hfit, ← hdata]
      exact ih (w.withBuffer buf₁) (hslot.with_inbound _) buf₁ (.inl rfl)
    · -- the rest of the chunk is gone, the chunks behind it were not dequeued
      have hrefused : ¬ decide (buf.data.length + chunk.length ≤ bufferSize) = true := by
        simpa using hfit
      rw [if_neg hrefused, fillQueue, if_neg hfit]
      exact returns_done.mpr ⟨rfl, rfl, buf₁, .inl rfl, hdata⟩

/-- A whole call, for any queue: the lines of what came into the buffer are handed out. -/
theorem processQueue_returns (hstrict : setup.relaxed = false)
    (hreg : setup.registered .messageInbound = true) (henv : env.KeepsInput True)
    (source : QueueSource) (chunks : List Bytes) {w : World ρ} (hslot : QueueSlot w.comm)
    {buf : Cells} (hbuf : OneBuffer w.comm buf) :
    Returns (slotHandler setup env (depth + 1))
      (processQueue source setup (chunks.map queueMessage)) w fun outcome w' =>
        outcome = ⟨(fillQueue buf.data chunks).2.1.map queueMessage,
          (fillQueue buf.data chunks).2.2,
          (fillQueue buf.data chunks).2.2 && decide (source = .console)⟩ ∧
        w'.inboundMessages = w.inboundMessages ++ linesOf [] (fillQueue buf.data chunks).1 ∧
        ∃ buf', OneBuffer w'.comm buf' ∧
          buf'.data = partialLine [] (fillQueue buf.data chunks).1 := by
  rw [processQueue]
  apply (drainQueue_returns chunks w hslot buf hbuf).bind
  rintro drained w₁ ⟨rfl, hw₁, buf₁, hbuf₁, hdata₁⟩
  have hslot₁ : LineSlot w₁.comm := by
    rw [hw₁]
    exact hslot.toLineSlot.with_inbound _
  have hmessages₁ : w₁.inboundMessages = w.inboundMessages := by
    rw [hw₁]
    rfl
  apply (commProcessInput_oneBuffer henv hstrict hslot₁ hbuf₁).bind
  rintro _ w₂ ⟨-, -, hbuf₂, entered, hentries, hcalls⟩
  have hmessages₂ := inboundMessages_of_lines hreg hentries hcalls
  rw [hdata₁, hmessages₁] at hmessages₂
  rw [hdata₁] at hbuf₂
  exact returns_done.mpr ⟨rfl, hmessages₂, hbuf₂⟩

end Drain

/-! ### What waits is delivered exactly if it fits -/

variable {ρ : Type}

/-- The lines of `data` are delivered in order, its partial line stays in the buffer, the queue is
empty, and neither was a byte discarded nor the end of input signalled. -/
def QueueDelivered (w : World ρ) (data : Bytes) (outcome : QueueOutcome) (w' : World ρ) : Prop :=
  w'.inboundMessages = w.inboundMessages ++ linesOf [] data ∧
  (∃ buf', OneBuffer w'.comm buf' ∧ buf'.data = partialLine [] data) ∧
  outcome = ⟨[], false, false⟩

/-- The console and file queues of a strict-mode slot in line input, with any chunks waiting and
anything buffered. The call returns; and it delivers what is buffered and what waits without loss
exactly if all of it fits into one buffer. -/
theorem queued_input_delivered_iff_fits (source : QueueSource) (setup : Setup)
    (env : Surroundings ρ) (depth : Nat) (w : World ρ) (buf : LinearBuffer Byte bufferSize)
    (chunks : List Bytes) (hstrict : setup.relaxed = false)
    (hreg : setup.registered .messageInbound = true) (henv : env.KeepsInput True)
    (hslot : QueueSlot w.comm) (hbuf : OneBuffer w.comm buf) :
    ∃ outcome w',
      (processQueue source setup (chunks.map queueMessage)).eval
        (slotHandler setup env (depth + 1)) w = some (outcome, w') ∧
      (QueueDelivered w (buf.data ++ chunks.flatten) outcome w'
        ↔ buf.data.length + chunks.flatten.length ≤ bufferSize) := by
  have hcall : Returns (slotHandler setup env (depth + 1))
      (processQueue source setup (chunks.map queueMessage)) w _ :=
    processQueue_returns hstrict hreg henv source chunks hslot hbuf
  obtain ⟨outcome, w', heval, houtcome, hmessages, hbuf'⟩ := hcall
  refine ⟨outcome, w', heval, ?_, ?_⟩
  · rintro ⟨_, _, hclean⟩
    by_contra hlong
    have hdiscards := fillQueue_discards buf.data chunks buf.length_le (by omega)
    have hkept : (fillQueue buf.data chunks).2.2 = false := by
      rw [houtcome] at hclean
      exact congrArg QueueOutcome.discarded hclean
    rw [hkept] at hdiscards
    exact Bool.false_ne_true hdiscards
  · intro hfit
    rw [fillQueue_of_fits buf.data chunks hfit] at houtcome hmessages hbuf'
    exact ⟨hmessages, hbuf', houtcome⟩

/-- A line that two chunks of a file share. -/
theorem queued_input_delivered_iff_fits_greeting :
    ∃ outcome w',
      (commProcessFileInput chatSetup ([[97], [98, 10, 99]].map queueMessage)).eval
        (slotHandler chatSetup chatSurroundings 1) (chatWorld false []) = some (outcome, w') ∧
      QueueDelivered (chatWorld false []) [97, 98, 10, 99] outcome w' := by
  have hslot : QueueSlot (chatWorld false []).comm := ⟨chatWorld_lineSlot false [], rfl, rfl⟩
  obtain ⟨outcome, w', heval, hiff⟩ :=
    queued_input_delivered_iff_fits .file chatSetup chatSurroundings 0 (chatWorld false []) .empty
      [[97], [98, 10, 99]] rfl rfl (chatSurroundings_keepsInput True) hslot (.inr ⟨rfl, rfl⟩)
  exact ⟨outcome, w', heval, hiff.mpr (by decide)⟩

/-- A line of `count` letters and LF in front of `rest`. -/
def letters (count : Nat) (rest : Bytes) : Bytes := List.replicate count 97 ++ 10 :: rest

theorem length_letters (count : Nat) (rest : Bytes) :
    (letters count rest).length = count + 1 + rest.length := by
  simp only [letters, List.length_append, List.length_replicate, List.length_cons]
  omega

theorem letters_append (count : Nat) (rest more : Bytes) :
    letters count rest ++ more = letters count (rest ++ more) := by
  rw [letters, List.append_assoc, List.cons_append, letters]

theorem linesOf_letters (count : Nat) (rest : Bytes) :
    linesOf [] (letters count rest) = List.replicate count 97 :: linesOf [] rest := by
  have hline : ∀ b ∈ List.replicate count (97 : Byte), isTerminator b = false := by
    intro b hb
    rw [List.eq_of_mem_replicate hb]
    rfl
  have hstrip : stripSpace (List.replicate count 97) = List.replicate count 97 := by
    have hspace : isSpace 97 = false := rfl
    simp [stripSpace, List.rdropWhile, hspace]
  rw [letters, (lineReader_run_line [] _ 10 rest hline rfl).2, List.nil_append, hstrip]
  rfl

/-- On the console wait a chunk of 4095 bytes, which is a line of 2048 bytes and one of 2047, and
two short lines. The first of these is cut, the second stays in the queue, and the console worker is
told that its input has ended. -/
theorem waiting_chunks_end_console :
    (letters 2047 (letters 2046 [])).length = 4095 ∧
    (∃ outcome w',
      (commProcessConsoleInput chatSetup
          ([letters 2047 (letters 2046 []), [98, 10], [99, 10]].map queueMessage)).eval
        (slotHandler chatSetup chatSurroundings 1) (chatWorld false []) = some (outcome, w') ∧
      outcome = ⟨[queueMessage [99, 10]], true, true⟩ ∧
      w'.inboundMessages = [List.replicate 2047 97, List.replicate 2046 97]) ∧
    linesOf [] [letters 2047 (letters 2046 []), [98, 10], [99, 10]].flatten
      = [List.replicate 2047 97, List.replicate 2046 97, [98], [99]] := by
  have hlength : (letters 2047 (letters 2046 [])).length = 4095 := by
    rw [length_letters, length_letters, List.length_nil]
  have hfill : fillQueue [] [letters 2047 (letters 2046 []), [98, 10], [99, 10]]
      = (letters 2047 (letters 2046 [98]), [[99, 10]], true) := by
    rw [fillQueue, if_pos (by rw [hlength]; decide), List.nil_append, fillQueue,
      if_neg (by rw [hlength]; decide), hlength, letters_append, letters_append]
    rfl
  refine ⟨hlength, ?_, ?_⟩
  · have hslot : QueueSlot (chatWorld false []).comm := ⟨chatWorld_lineSlot false [], rfl, rfl⟩
    have hcall : Returns (slotHandler chatSetup chatSurroundings 1) _ (chatWorld false []) _ :=
      processQueue_returns rfl rfl (chatSurroundings_keepsInput True) .console
        [letters 2047 (letters 2046 []), [98, 10], [99, 10]] hslot
        (.inr ⟨rfl, rfl⟩ : OneBuffer _ .empty)
    obtain ⟨outcome, w', heval, houtcome, hmessages, _⟩ := hcall
    have hempty : (LinearBuffer.empty : LinearBuffer Byte bufferSize).data = [] := rfl
    rw [hempty, hfill] at houtcome hmessages
    rw [linesOf_letters, linesOf_letters] at hmessages
    exact ⟨outcome, w', heval, houtcome, hmessages⟩
  · rw [List.flatten_cons, letters_append, letters_append, linesOf_letters, linesOf_letters]
    rfl

end Mudmux.Comm
