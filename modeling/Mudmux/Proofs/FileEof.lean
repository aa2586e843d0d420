import Mudmux.Proofs.PlainInput
import Mudmux.Proofs.QueuedInput
import Mudmux.Proofs.RefusedCharacter

/-!
# `Mudmux.Proofs.FileEof`: the end of a file and what has not been delivered yet

`comm_process_file_input` asks for shutdown as soon as the reader has seen the end of the file. It does not
look at what its own drain loop and its own parser pass have left: chunks behind one that did not fit, lines
behind the first one in relaxed mode, a slot that was busy, characters behind the first.

The reader itself does no harm. Whatever it has read is in the queue before it reads again, and it cannot
read while the call is under way. So `seesEof` does not change during a call, and a call that sees the end
of the file sees all chunks. `FileInput.Sound` carries this along a run, together with what the call still
has to do; `nothing_cut_off_at_eof` is the result for every run in which such calls find input that one pass
can deliver.
-/

set_option autoImplicit false

namespace Mudmux.Comm

open Mudmux.Lib
open Mudmux.Lib.Program (Returns returns_done)
open Mudmux.Async (Fifo)

variable {buf : Cells} {comm : CommAbstract}

/-! ### What is left to deliver -/

/-- The unread bytes of a slot. -/
def CommAbstract.unread (comm : CommAbstract) : Bytes := comm.inbound.flatMap fun ibb => ibb.buf.data

/-- A complete message stands in the inbound buffer, in the slot's input mode. -/
def undelivered (setup : Setup) (comm : CommAbstract) : Bool :=
  (nextMessage setup comm.flags.enableAnsi comm.flags.lineInput comm.unread).isSome

theorem OneBuffer.unread (h : OneBuffer comm buf) : comm.unread = buf.data := by
  rcases h with h | ⟨h, rfl⟩
  · rw [CommAbstract.unread, h, List.flatMap_singleton]
  · rw [CommAbstract.unread, h]
    rfl

/-- No buffer yet, or a single one. -/
def holdsOneBuffer : List InboundBuffer → Bool
  | [] => true
  | [ibb] => decide (ibb.band = .data)
  | _ => false

/-- An open slot without TLS, Telnet or WebSocket that waits for no hook. -/
def isOpenPlain (comm : CommAbstract) : Bool :=
  comm.live && !comm.flags.closing && !comm.flags.enableWebsocket &&
    decide (comm.flags.websocketState = .handshake) && !comm.ssl && !comm.flags.enableTelnet &&
    !comm.flags.awaitingHook && holdsOneBuffer comm.inbound

/-- One pass of the parser gets through these bytes: in strict mode all lines, and otherwise a single
message with no line behind it. Behind a character message the slot is in line input, for which a console
needs a terminal. -/
def settles (setup : Setup) (comm : CommAbstract) (bytes : Bytes) : Bool :=
  (!setup.relaxed && comm.flags.lineInput) ||
    ((comm.flags.lineInput || !(setup.console && !setup.consoleTty)) &&
      match nextMessage setup comm.flags.enableAnsi comm.flags.lineInput bytes with
      | none => true
      | some (_, rest) => (nextLine rest).isNone)

/-- The slot is open, and what it has to deliver fits into its buffer and into one pass. -/
structure Ready (setup : Setup) (comm : CommAbstract) (bytes : Bytes) : Prop where
  isOpenPlain : isOpenPlain comm = true
  fits : bytes.length ≤ bufferSize
  settles : settles setup comm bytes = true

variable {setup : Setup}

theorem Ready.plainSlot {bytes : Bytes} (h : Ready setup comm bytes) :
    PlainSlot comm ∧ ∃ buf, OneBuffer comm buf := by
  have hopen := h.isOpenPlain
  simp only [Comm.isOpenPlain, Bool.and_eq_true, Bool.not_eq_true', decide_eq_true_eq] at hopen
  obtain ⟨⟨⟨⟨⟨⟨⟨hlive, hclosing⟩, hwebsocket⟩, hframes⟩, hssl⟩, htelnet⟩, hawaiting⟩, hbuffer⟩ := hopen
  refine ⟨⟨⟨hlive, hclosing, hwebsocket, hframes, fun hs => ?_⟩, htelnet, hawaiting⟩, ?_⟩
  · rw [hssl] at hs
    cases hs
  · match hinbound : comm.inbound with
    | [] => exact ⟨.empty, .inr ⟨hinbound, rfl⟩⟩
    | [⟨band, buf⟩] =>
      rw [hinbound] at hbuffer
      obtain rfl : band = .data := of_decide_eq_true hbuffer
      exact ⟨buf, .inl hinbound⟩
    | _ :: _ :: _ =>
      rw [hinbound] at hbuffer
      cases hbuffer

/-! ### One pass -/

/-- During the call the hooks leave the input alone. In relaxed mode the scheduler accepts what it is handed,
and in strict mode nothing keeps the slot busy. -/
structure Surroundings.Cooperative {ρ : Type} (setup : Setup) (env : Surroundings ρ) : Prop where
  foreign : ∀ {β : Type} (e : SlotEffect β) (comm : CommAbstract) (outside : ρ),
    reentrant e = true → TextSlot comm → InputKept True comm (env.foreign e comm outside).1
  accepts : setup.relaxed = true → ∀ call outside, env.enqueue call outside = .queued
  idle : setup.relaxed = false → ∀ outside, env.slotBusy outside = false

section Pass

variable {ρ : Type} {env : Surroundings ρ} {depth : Nat} {w : World ρ}
  (hcoop : env.Cooperative setup)

include hcoop

theorem Surroundings.Cooperative.keepsInput (hstrict : setup.relaxed = false) :
    env.KeepsInput True :=
  ⟨hcoop.foreign, hcoop.idle hstrict⟩

/-- A message is dispatched in either mode, and the input behind it is untouched. -/
theorem commInvokeInboundMessage_cooperative (hslot : TextSlot w.comm) (data : Bytes) :
    Returns (slotHandler setup env (depth + 1)) (commInvokeInboundMessage setup data) w
      fun result w' => result ≠ .queueFull ∧ InputKept True w.comm w'.comm := by
  cases hrelaxed : setup.relaxed with
  | false =>
    apply (commInvokeInboundMessage_returns (hcoop.keepsInput hrelaxed) hslot hrelaxed data).mono
    rintro result w' ⟨hresult, _, hkeeps⟩
    exact ⟨hresult, hkeeps.input⟩
  | true =>
    rw [returns_invokeRelaxed hslot.live hrelaxed]
    have hqueued := hcoop.accepts hrelaxed (.messageInbound data)
    rw [returns_enqueued rfl (by rw [hqueued]; nofun), hqueued]
    refine returns_done.mpr ⟨nofun, ?_⟩
    exact ⟨{ hslot with }, rfl, rfl, rfl, rfl, rfl, fun _ => rfl⟩

theorem invokeCharInputMessage_cooperative (hslot : TextSlot w.comm) (data : Bytes) :
    Returns (slotHandler setup env (depth + 1)) (invokeCharInputMessage setup data) w
      fun result w' => result ≠ .queueFull ∧ InputKept True w.comm w'.comm := by
  have hprompt : InputKept True w.comm
      (w.comm.mapFlags fun flags => { flags with invokedPrompt := false }) :=
    ⟨{ hslot with }, rfl, rfl,
      rfl, rfl, rfl, fun _ => rfl⟩
  rw [invokeCharInputMessage, returns_commGuard hslot.live]
  dsimp only
  rw [returns_modifyFlags hslot.live]
  apply (commInvokeInboundMessage_cooperative hcoop (by exact hprompt.textSlot) data).bind
  rintro result w₁ ⟨hresult, hkept⟩
  have hin := hprompt.trans hkept
  have ht := hin.textSlot
  split
  · -- in strict mode the input behind the character is left for the next pass
    rw [commDeferInput, Program.bind_assoc', returns_commGuard ht.live, returns_deferInbound ht.live]
    refine returns_done.mpr ⟨hresult, hin.trans ?_⟩
    exact ⟨{ ht with }, rfl, rfl, rfl, rfl, rfl, fun _ => rfl⟩
  · exact returns_done.mpr ⟨hresult, hin⟩

omit hcoop in
theorem undelivered_of_line (hline : comm.flags.lineInput = true) (hbuf : OneBuffer comm buf)
    (hnone : nextLine buf.data = none) : undelivered setup comm = false := by
  rw [undelivered, hline, hbuf.unread, nextMessage, if_pos rfl, hnone]
  rfl

/-- The line loop, with no more than one line in the buffer. -/
theorem lineLoop_settles {fuel : Nat} (hslot : LineSlot w.comm)
    (hbuf : w.comm.inbound = [⟨.data, buf⟩]) (hfuel : buf.data.length < fuel)
    (hsingle : ∀ line rest, nextLine buf.data = some (line, rest) → nextLine rest = none) :
    Returns (slotHandler setup env (depth + 1)) (lineLoop setup fuel none) w fun _ w' =>
      w'.comm.live = true ∧ undelivered setup w'.comm = false := by
  rcases findNewlineAndStrip_cases buf with ⟨hnone, htext⟩ | ⟨found, hfound, hnext, hshort⟩
  · obtain ⟨fuel, rfl⟩ : ∃ n, fuel = n + 1 := ⟨fuel - 1, by omega⟩
    apply lineLoop_waits fuel hslot.live hbuf htext
    exact ⟨hslot.live, undelivered_of_line hslot.lineInput (.inl hbuf) hnone⟩
  · -- there is a line, so there is fuel for the look behind it
    obtain ⟨fuel, rfl⟩ : ∃ n, fuel = n + 1 + 1 := ⟨fuel - 2, by omega⟩
    have hnone : nextLine (found.buf.consume found.next).data = none := hsingle _ _ hnext
    have hecho := InputKept.of_echo (hslot.with_inbound [⟨.data, found.buf⟩]).toTextSlot
    apply lineLoop_found (fuel + 1) (by simp) hslot.live hbuf hfound
    apply (commInvokeInboundMessage_cooperative hcoop (by exact hecho.textSlot) _).mono
    rintro result w₁ ⟨hresult, hkept⟩
    have hin := hecho.trans hkept
    have hmode : w₁.comm.flags.lineInput = true := (hin.lineInput trivial).trans hslot.lineInput
    rw [if_neg hresult]
    refine ⟨hin.textSlot.live, by rw [hin.inbound, List.tail_cons], ?_⟩
    dsimp only
    split
    · exact ⟨hin.textSlot.live, undelivered_of_line hmode (.inl rfl) hnone⟩
    · intro buf' hbuf'
      rw [← hbuf'] at hnone
      apply lineLoop_waits fuel (by exact hin.textSlot.live) (by rfl) (text_of_nextLine hnone)
      exact ⟨hin.textSlot.live, undelivered_of_line hmode (.inl rfl) hnone⟩

/-- The character branch, with no line behind the first character sequence. -/
theorem charInput_settles (hslot : PlainSlot w.comm) (hbuf : OneBuffer w.comm buf)
    (hchar : w.comm.flags.lineInput = false)
    (hterminal : (setup.console && !setup.consoleTty) = false)
    (hsingle : ∀ message rest, nextChar setup w.comm.flags.enableAnsi buf.data = some (message, rest) →
      nextLine rest = none) :
    Returns (slotHandler setup env (depth + 1)) (charInput setup none) w fun failed w' =>
      failed = false ∧ w'.comm.live = true ∧ undelivered setup w'.comm = false := by
  have hwaits : nextChar setup w.comm.flags.enableAnsi buf.data = none →
      undelivered setup w.comm = false := by
    intro hnone
    rw [undelivered, hchar, hbuf.unread, nextMessage, if_neg Bool.false_ne_true, hnone]
    rfl
  rw [charInput, if_neg (by simp), returns_commDeref hslot.live]
  rcases hbuf with hbuf | ⟨hnil, rfl⟩
  · simp only [hbuf]
    cases hfind : findCharInputSequence setup w.comm.flags.enableAnsi buf.data with
    | none =>
      refine returns_done.mpr ⟨rfl, hslot.live, hwaits ?_⟩
      rw [nextChar, hfind, Option.map_none]
    | some charLen =>
      have hnone : nextLine (buf.consume charLen).data = none := by
        rw [LinearBuffer.consume_data]
        apply hsingle (buf.data.take charLen)
        rw [nextChar, hfind, Option.map_some]
      apply (commSetLineInput_text hslot.toTextSlot hchar true).bind
      rintro ok w₁ ⟨hok, -, hkept, hline⟩
      rw [hterminal, Bool.not_false] at hok
      subst hok
      have hslot₁ := hkept.textSlot
      rw [Bool.not_true, if_neg Bool.false_ne_true, returns_commDeref hslot₁.live,
        hkept.enableTelnet.trans hslot.noTelnet, Bool.false_and, if_neg Bool.false_ne_true]
      apply (invokeCharInputMessage_cooperative hcoop hslot₁ _).bind
      rintro result w₂ ⟨hresult, hkept₂⟩
      have hmode : w₂.comm.flags.lineInput = true :=
        (hkept₂.lineInput trivial).trans (hline rfl).1
      rw [if_neg hresult, returns_commGuard hkept₂.textSlot.live]
      dsimp only
      rw [returns_setComm]
      refine returns_done.mpr ⟨rfl, hkept₂.textSlot.live, ?_⟩
      refine undelivered_of_line hmode (.inl ?_) hnone
      rw [hkept₂.inbound, hkept.inbound, hbuf, List.tail_cons]
  · rw [hnil]
    exact returns_done.mpr ⟨rfl, hslot.live, hwaits rfl⟩

/-- The parsers, with at most one message to deliver. -/
theorem processText_settles (hslot : PlainSlot w.comm) (hbuf : OneBuffer w.comm buf)
    (hterminal : (w.comm.flags.lineInput || !(setup.console && !setup.consoleTty)) = true)
    (hsingle : ∀ message rest, nextMessage setup w.comm.flags.enableAnsi w.comm.flags.lineInput
      buf.data = some (message, rest) → nextLine rest = none) :
    Returns (slotHandler setup env (depth + 1)) (processText setup none) w fun _ w' =>
      undelivered setup w'.comm = false := by
  cases hmode : w.comm.flags.lineInput with
  | true =>
    have hline : LineSlot w.comm := ⟨hslot.toTextSlot, hmode, hslot.notAwaiting⟩
    rw [hmode] at hsingle
    rcases hbuf with hbuf | ⟨hnil, rfl⟩
    · apply processText_lines hslot.live hmode hbuf
      intro fuel hfuel
      exact lineLoop_settles hcoop hline hbuf hfuel hsingle
    · apply (processText_of_nil hline hnil).mono
      rintro _ w' rfl
      exact undelivered_of_line hmode (.inr ⟨hnil, rfl⟩) rfl
  | false =>
    rw [hmode, Bool.false_or, Bool.not_eq_true'] at hterminal
    rw [hmode] at hsingle
    rw [processText, returns_commDeref hslot.live, hmode, if_neg Bool.false_ne_true]
    apply (charInput_settles hcoop hslot hbuf hmode hterminal hsingle).bind
    rintro failed w' ⟨rfl, hlive, hnone⟩
    dsimp only
    rw [if_neg Bool.false_ne_true, returns_commGuard hlive]
    exact returns_done.mpr hnone

/-- A pass over a slot that is ready for it leaves no complete message. -/
theorem commProcessInput_settles (hready : Ready setup w.comm w.comm.unread)
    (hidle : env.slotBusy (env.foreign .slotBusy w.comm w.outside).2 = false) :
    Returns (slotHandler setup env (depth + 1)) (commProcessInput setup none) w fun _ w' =>
      undelivered setup w'.comm = false := by
  obtain ⟨hslot, buf, hbuf⟩ := hready.plainSlot
  have hsettles := hready.settles
  rw [hbuf.unread, settles, Bool.or_eq_true] at hsettles
  rcases hsettles with hlines | hsingle
  · -- strict mode: the pass goes through all lines
    rw [Bool.and_eq_true, Bool.not_eq_true'] at hlines
    have hline : LineSlot w.comm := ⟨hslot.toTextSlot, hlines.2, hslot.notAwaiting⟩
    apply (commProcessInput_oneBuffer (hcoop.keepsInput hlines.1) hlines.1 hline hbuf).mono
    rintro _ w' ⟨-, hkept, ⟨buf', hbuf', hdata⟩, -⟩
    refine undelivered_of_line ((hkept.lineInput trivial).trans hlines.2) hbuf' ?_
    rw [hdata]
    exact nextLine_eq_none (lineReader_run_held ⟨[], false⟩ buf.data nofun)
  · rw [Bool.and_eq_true] at hsingle
    have hsingle' : ∀ message rest, nextMessage setup w.comm.flags.enableAnsi w.comm.flags.lineInput
        buf.data = some (message, rest) → nextLine rest = none := by
      intro message rest hnext
      have hrest := hsingle.2
      rw [hnext] at hrest
      exact Option.isNone_iff_eq_none.mp hrest
    apply commProcessInput_asks hslot.toTextSlot hslot.notAwaiting
    dsimp only
    rw [hidle, if_neg Bool.false_ne_true]
    have hskip : skipNonDataHeadBuffers w.comm.inbound = w.comm.inbound := by
      rcases hbuf with hbuf | ⟨hnil, -⟩
      · rw [hbuf]
        rfl
      · rw [hnil]
        rfl
    have hslot' : PlainSlot
        { w.comm with
            flags := { w.comm.flags with deferredInbound := false }
            inbound := skipNonDataHeadBuffers w.comm.inbound } :=
      { hslot with }
    have hbuf' : OneBuffer
        { w.comm with
            flags := { w.comm.flags with deferredInbound := false }
            inbound := skipNonDataHeadBuffers w.comm.inbound } buf := by
      rw [hskip]
      exact hbuf
    exact processText_settles hcoop (by exact hslot') hbuf' hsingle.1 hsingle'

end Pass

/-! ### Runs -/

variable {ι ρ : Type}

/-- The end of the file is known, or the reader is about to make it known. -/
def FileInput.seesEof (s : FileInput ρ) : Bool :=
  s.eof || match s.reader with
    | .holding chunk => chunk.data.isEmpty
    | _ => false

variable {s : FileInput ρ}

theorem FileInput.seesEof_of_eof (heof : s.eof = true) : s.seesEof = true := by
  rw [seesEof, heof, Bool.true_or]

/-- The bytes in the queue. -/
def FileInput.queued (s : FileInput ρ) : Bytes := (s.queue.messages.map trimNul).flatten

/-- The condition on the calls that see the end of the file: they find the slot ready for everything that
waits, not busy, and surroundings that cooperate. -/
def settlesAtEof (setup : Setup) (calls : ι → Surroundings ρ) (depth : Nat)
    (cooperative : ι → Bool) : (fileSystem setup calls depth).Guard where
  thread _ t _ := t.elim
  env s move :=
    !FileInput.seesEof s ||
      match move with
      | .enter =>
        isOpenPlain s.slot.comm &&
          decide ((s.slot.comm.unread ++ FileInput.queued s).length ≤ bufferSize) &&
          settles setup s.slot.comm (s.slot.comm.unread ++ FileInput.queued s)
      | .process call =>
        cooperative call &&
          !(calls call).slotBusy ((calls call).foreign .slotBusy s.slot.comm s.slot.outside).2
      | _ => true

/-- The reader has stopped when the flag is set; and a call that sees the end of the file is on its way to
deliver everything. -/
structure FileInput.Sound (setup : Setup) (s : FileInput ρ) : Prop where
  exited : s.eof = true → s.reader = .exited
  sizes : ∀ message ∈ s.queue.messages, message.length ≤ 4096
  draining : s.loop = .draining → s.seesEof = true →
    Ready setup s.slot.comm (s.slot.comm.unread ++ s.queued)
  processing : s.loop = .processing → s.seesEof = true →
    s.queue.messages = [] ∧ Ready setup s.slot.comm s.slot.comm.unread
  checking : s.loop = .checking → s.seesEof = true →
    s.queue.messages = [] ∧ undelivered setup s.slot.comm = false

/-- Outside of a call there is nothing to say but about the reader and the queue. -/
theorem FileInput.Sound.of_elsewhere (hloop : s.loop = .elsewhere)
    (hexited : s.eof = true → s.reader = .exited)
    (hsizes : ∀ message ∈ s.queue.messages, message.length ≤ 4096) : s.Sound setup where
  exited := hexited
  sizes := hsizes
  draining h := by rw [hloop] at h; cases h
  processing h := by rw [hloop] at h; cases h
  checking h := by rw [hloop] at h; cases h

/-- As long as the end of the file is not in sight there is nothing to say about calls. -/
theorem FileInput.Sound.of_blind (hblind : s.seesEof = false)
    (hsizes : ∀ message ∈ s.queue.messages, message.length ≤ 4096) : s.Sound setup where
  exited heof := by
    rw [seesEof, heof] at hblind
    cases hblind
  sizes := hsizes
  draining _ h := by rw [hblind] at h; cases h
  processing _ h := by rw [hblind] at h; cases h
  checking _ h := by rw [hblind] at h; cases h

section Steps

variable {calls : ι → Surroundings ρ} {depth : Nat} {cooperative : ι → Bool}
  {s' : FileInput ρ}

/-- The queue takes no message that is too long for the caller's array. -/
theorem sizes_of_enqueue {queue queue' : Fifo} {message : Bytes} {answer : Async.QueueAnswer}
    (hsizes : ∀ m ∈ queue.messages, m.length ≤ 4096)
    (hexec : queue.exec fileQueueShape (.enqueue (some message)) = some (answer, queue')) :
    ∀ m ∈ queue'.messages, m.length ≤ 4096 := by
  have happend : message.length ≤ 4096 → ∀ fifo : Fifo,
      (∀ m ∈ fifo.messages, m.length ≤ 4096) →
      ∀ m ∈ (fifo.append message).messages, m.length ≤ 4096 := by
    intro hmessage fifo hfifo m hm
    rcases List.mem_append.mp hm with hm | hm
    · exact hfifo m hm
    · rwa [List.mem_singleton.mp hm]
  rw [Fifo.exec] at hexec
  split at hexec
  · cases hexec
    exact hsizes
  · next hsize =>
      have hmessage : message.length ≤ 4096 := by
        have hmax : fileQueueShape.maxMsgSize = 4096 := rfl
        simp only [Bool.or_eq_true, decide_eq_true_eq, not_or, Nat.not_lt, hmax] at hsize
        exact hsize.2
      split at hexec
      · cases hexec
        exact happend hmessage queue hsizes
      · -- the oldest entry makes room
        have hdrops : fileQueueShape.flags.dropOldest = true := rfl
        rw [if_pos hdrops] at hexec
        cases hexec
        exact happend hmessage queue.dropOne fun m hm => hsizes m (List.mem_of_mem_tail hm)

theorem FileInput.Sound.read (h : s.Sound setup) {answer : FileRead}
    (hstep : fileStep setup calls depth s (.read answer) = some s') : s'.Sound setup := by
  have hopen : s.reader = .reading → s.eof = true → False := by
    intro hreading heof
    rw [h.exited heof] at hreading
    cases hreading
  cases answer with
  | data chunk =>
    rw [fileStep] at hstep
    split at hstep
    · next hphase =>
        cases hstep
        exact .of_elsewhere hphase.2 (fun heof => (hopen hphase.1 heof).elim) h.sizes
    · cases hstep
  | eof =>
    rw [fileStep] at hstep
    split at hstep
    · next hphase =>
        cases hstep
        exact .of_elsewhere hphase.2 (fun _ => rfl) h.sizes
    · cases hstep
  | error =>
    rw [fileStep] at hstep
    split at hstep
    · next hphase =>
        cases hstep
        exact .of_elsewhere hphase.2 (fun _ => rfl) h.sizes
    · cases hstep
  | retry =>
    rw [fileStep] at hstep
    split at hstep
    · cases hstep
      exact h
    · cases hstep

theorem FileInput.Sound.handOver (h : s.Sound setup)
    (hstep : fileStep setup calls depth s .handOver = some s') : s'.Sound setup := by
  rw [fileStep] at hstep
  split at hstep
  · next chunk hreader =>
      split at hstep
      · next hempty =>
          -- the flag is set only now, but the call has counted on it
          have hsees : s.seesEof = true := by
            rw [seesEof, hreader]
            exact Bool.or_eq_true_iff.mpr (.inr hempty)
          cases hstep
          exact ⟨fun _ => rfl, h.sizes, fun hl _ => h.draining hl hsees,
            fun hl _ => h.processing hl hsees, fun hl _ => h.checking hl hsees⟩
      · obtain ⟨⟨answer, queue⟩, hexec, rfl⟩ := Option.map_eq_some_iff.mp hstep
        have hopen : s.eof = false := by
          rw [← Bool.not_eq_true]
          intro heof
          have hexited := h.exited heof
          rw [hreader] at hexited
          cases hexited
        refine .of_blind ?_ (sizes_of_enqueue h.sizes hexec)
        show (s.eof || false) = false
        rw [hopen]
        rfl
  · cases hstep

theorem FileInput.Sound.enter (h : s.Sound setup)
    (hguard : (settlesAtEof setup calls depth cooperative).env s .enter = true)
    (hstep : fileStep setup calls depth s .enter = some s') : s'.Sound setup := by
  rw [fileStep] at hstep
  split at hstep
  · cases hstep
    refine ⟨h.exited, h.sizes, fun _ hsees => ?_, nofun, nofun⟩
    have hsees' : s.seesEof = true := hsees
    rw [settlesAtEof] at hguard
    dsimp only at hguard
    rw [hsees', Bool.not_true, Bool.false_or, Bool.and_eq_true, Bool.and_eq_true,
      decide_eq_true_eq] at hguard
    exact ⟨hguard.1.1, hguard.1.2, hguard.2⟩
  · cases hstep

/-- The record with another buffer is as ready as it was. -/
theorem Ready.withBuffer {w : World ρ} {bytes : Bytes} (h : Ready setup w.comm bytes)
    (buf : Cells) : Ready setup (w.withBuffer buf).comm bytes := by
  have hopen := h.isOpenPlain
  refine ⟨?_, h.fits, h.settles⟩
  simp only [Comm.isOpenPlain, Bool.and_eq_true] at hopen ⊢
  exact ⟨hopen.1, rfl⟩

theorem FileInput.Sound.dequeue (h : s.Sound setup) {call : ι}
    (hstep : fileStep setup calls depth s (.dequeue call) = some s') : s'.Sound setup := by
  rw [fileStep] at hstep
  split at hstep
  · next hloop =>
      obtain ⟨⟨answer, queue⟩, hexec, hstep⟩ := Option.bind_eq_some_iff.mp hstep
      cases hmessages : s.queue.messages with
      | nil =>
        rw [Fifo.exec, hmessages] at hexec
        cases hexec
        cases hstep
        refine ⟨h.exited, h.sizes, by simp, fun _ hsees => ⟨hmessages, ?_⟩, by simp⟩
        have hready := h.draining hloop hsees
        rwa [queued, hmessages, List.map_nil, List.flatten_nil, List.append_nil] at hready
      | cons message rest =>
        have hsize : ¬ 4096 < message.length := by
          have hle := h.sizes message (by rw [hmessages]; exact List.mem_cons_self)
          omega
        have hrest : ∀ m ∈ rest, m.length ≤ 4096 := fun m hm =>
          h.sizes m (by rw [hmessages]; exact List.mem_cons_of_mem _ hm)
        rw [Fifo.exec, hmessages] at hexec
        dsimp only at hexec
        rw [if_neg hsize] at hexec
        cases hexec
        obtain ⟨⟨accepted, w⟩, heval, rfl⟩ := Option.map_eq_some_iff.mp hstep
        cases hsees : s.seesEof with
        | false => exact .of_blind hsees hrest
        | true =>
          -- everything fits, so the chunk is taken as a whole
          have hready := h.draining hloop hsees
          obtain ⟨hslot, buf, hbuf⟩ := hready.plainSlot
          have hfits := hready.fits
          have hqueued : s.queued = trimNul message ++ (rest.map trimNul).flatten := by
            rw [queued, hmessages, List.map_cons, List.flatten_cons]
          rw [hbuf.unread, hqueued, List.length_append, List.length_append] at hfits
          obtain ⟨haccepted, buf', rfl, hdata⟩ := (refill_plain s.slot hslot.toTextSlot
            hslot.noTelnet buf hbuf (trimNul message)).of_eval heval
          rw [decide_eq_true (by omega)] at haccepted
          subst haccepted
          rw [List.take_of_length_le (by omega)] at hdata
          refine ⟨h.exited, hrest, fun _ _ => ?_, by simp, by simp⟩
          have hunread : (s.slot.withBuffer buf').comm.unread = buf.data ++ trimNul message := by
            rw [← hdata]
            exact OneBuffer.unread (.inl rfl)
          show Ready setup (s.slot.withBuffer buf').comm
            ((s.slot.withBuffer buf').comm.unread ++ (rest.map trimNul).flatten)
          rw [hunread, List.append_assoc, ← hqueued, ← hbuf.unread]
          exact hready.withBuffer buf'
  · cases hstep

variable (hcoop : ∀ i, cooperative i = true → (calls i).Cooperative setup)

include hcoop

theorem FileInput.Sound.process (h : s.Sound setup) {call : ι}
    (hguard : (settlesAtEof setup calls (depth + 1) cooperative).env s (.process call) = true)
    (hstep : fileStep setup calls (depth + 1) s (.process call) = some s') : s'.Sound setup := by
  rw [fileStep] at hstep
  split at hstep
  · next hloop =>
      obtain ⟨⟨result, w⟩, heval, rfl⟩ := Option.map_eq_some_iff.mp hstep
      refine ⟨h.exited, h.sizes, nofun, nofun, fun _ hsees => ?_⟩
      have hsees' : s.seesEof = true := hsees
      obtain ⟨hempty, hready⟩ := h.processing hloop hsees'
      rw [settlesAtEof] at hguard
      dsimp only at hguard
      rw [hsees', Bool.not_true, Bool.false_or, Bool.and_eq_true, Bool.not_eq_true'] at hguard
      exact ⟨hempty, (commProcessInput_settles (hcoop call hguard.1) hready hguard.2).of_eval heval⟩
  · cases hstep

/-- One step keeps the invariant. -/
theorem fileStep_sound {move : FileMove ι ρ} (h : s.Sound setup)
    (hguard : (settlesAtEof setup calls (depth + 1) cooperative).env s move = true)
    (hstep : fileStep setup calls (depth + 1) s move = some s') : s'.Sound setup := by
  cases move with
  | read answer => exact h.read hstep
  | handOver => exact h.handOver hstep
  | enter => exact h.enter hguard hstep
  | dequeue call => exact h.dequeue hstep
  | process call => exact h.process hcoop hguard hstep
  | check =>
    rw [fileStep] at hstep
    split at hstep
    · cases hstep
      exact .of_elsewhere rfl h.exited h.sizes
    · cases hstep
  | others slot =>
    rw [fileStep] at hstep
    split at hstep
    · next hloop =>
        cases hstep
        exact .of_elsewhere hloop h.exited h.sizes
    · cases hstep

end Steps

/-- Every run of the reader thread, the event loop and everything else that happens to slot 0, from an empty
queue with any slot. If the calls of `comm_process_file_input` that see the end of the file find the slot
ready, a call that is about to ask for shutdown has an empty queue and no complete message behind it. -/
theorem nothing_cut_off_at_eof (setup : Setup) (calls : ι → Surroundings ρ) (depth : Nat)
    (cooperative : ι → Bool) (hcoop : ∀ i, cooperative i = true → (calls i).Cooperative setup)
    (slot : World ρ) {c : (fileSystem setup calls (depth + 1)).Config}
    (hrun : ThreadSystem.Run (settlesAtEof setup calls (depth + 1) cooperative)
      ⟨({ slot } : FileInput ρ), []⟩ c)
    (hchecking : c.shared.loop = .checking) (heof : c.shared.eof = true) :
    c.shared.queue.messages = [] ∧ undelivered setup c.shared.slot.comm = false := by
  have hsound : FileInput.Sound setup c.shared := by
    refine ThreadSystem.invariant_of_run (fun s _ => FileInput.Sound setup s) ?_ ?_ ?_ hrun
    · intro s t
      exact t.elim
    · intro s move s' ts _ h hguard hact
      obtain ⟨s'', hstep, heq⟩ := Option.map_eq_some_iff.mp hact
      cases heq
      exact fileStep_sound hcoop h hguard hstep
    · exact .of_elsewhere rfl nofun nofun
  exact hsound.checking hchecking (FileInput.seesEof_of_eof heof)

/-! ### Two files -/

/-- Slot 0 with a file behind it, in strict mode. -/
def fileSetup : Setup := { chatSetup with console := true, fileInputs := true }

/-- A file input that has not read anything, on a slot in line input. -/
def chatFile : FileInput Unit := { slot := chatWorld false [] }

/-- A file of two lines, `a` and `b`, is read to its end, and then comes the first call. -/
def twoLines (ρ : Type) : List (FileMove Unit ρ) :=
  [.read (.data ⟨[97, 10, 98, 10], by decide⟩), .handOver, .read .eof, .enter, .dequeue (),
    .dequeue (), .process ()]

theorem chatSurroundings_cooperative : chatSurroundings.Cooperative fileSetup where
  foreign := (chatSurroundings_keepsInput True).foreign
  accepts := nofun
  idle _ := (chatSurroundings_keepsInput True).notBusy

/-- In strict mode one pass delivers both lines. -/
theorem nothing_cut_off_two_lines :
    ∃ c : (fileSystem fileSetup (fun _ : Unit => chatSurroundings) 1).Config,
      ThreadSystem.Run (settlesAtEof fileSetup (fun _ => chatSurroundings) 1 fun _ => true)
        ⟨chatFile, []⟩ c ∧
      (c.shared.loop = .checking ∧ c.shared.eof = true) ∧
      c.shared.queue.messages = [] ∧ undelivered fileSetup c.shared.slot.comm = false := by
  have hexec : (ThreadSystem.execAll
      (settlesAtEof fileSetup (fun _ : Unit => chatSurroundings) 1 fun _ => true) ⟨chatFile, []⟩
      ((twoLines Unit).map .env)).any (fun c =>
        decide (c.shared.loop = .checking) && c.shared.eof) = true := by
    decide +kernel
  obtain ⟨c, hrun, hc⟩ := ThreadSystem.exists_run_of_execAll _ _ _ _ hexec
  rw [Bool.and_eq_true, decide_eq_true_eq] at hc
  exact ⟨c, hrun, hc, nothing_cut_off_at_eof fileSetup (fun _ => chatSurroundings) 0 (fun _ => true)
    (fun _ _ => chatSurroundings_cooperative) (chatWorld false []) hrun hc.1 hc.2⟩

/-- A scheduler whose slot is busy from its first dispatch on. -/
def busyScheduler : Surroundings Bool where
  foreign e comm busy :=
    match e with
    | .enqueue _ _ => (comm, true)
    | _ => (comm, busy)
  hookReturns _ _ := true
  slotBusy busy := busy
  enqueue _ _ := .queued
  writes _ := []
  sslHandshake _ := .wantIo
  sslRead _ := ⟨[], true⟩

/-- The file input in front of that scheduler. -/
def busyFile : FileInput Bool where
  slot := { comm := (chatWorld false []).comm, entries := [], reads := [], outside := false }

/-- A file with a line of more than 4095 bytes, read in chunks of 4095, 2 and 2 bytes. -/
def longLine : List (FileMove Unit Unit) :=
  [.read (.data ⟨List.replicate 4095 97, by rw [List.length_replicate]⟩), .handOver,
    .read (.data ⟨[98, 10], by decide⟩), .handOver, .read (.data ⟨[99, 10], by decide⟩), .handOver,
    .read .eof, .enter, .dequeue (), .dequeue (), .process ()]

/-- In relaxed mode the pass stops behind the first line, and shutdown is asked for with the second one in
the buffer. In strict mode the long line does not fit: the loop that empties the queue ends at the second
chunk, and shutdown is asked for with the third one in the queue. -/
theorem eof_cuts_off_input :
    (∃ c : (fileSystem { fileSetup with relaxed := true } (fun _ : Unit => busyScheduler) 1).Config,
      ThreadSystem.Run (.trivial _) ⟨busyFile, []⟩ c ∧
      (decide (c.shared.loop = .checking) && c.shared.eof &&
        undelivered { fileSetup with relaxed := true } c.shared.slot.comm) = true) ∧
    ∃ c : (fileSystem fileSetup (fun _ : Unit => chatSurroundings) 1).Config,
      ThreadSystem.Run (.trivial _) ⟨chatFile, []⟩ c ∧
      (decide (c.shared.loop = .checking) && c.shared.eof &&
        decide (c.shared.queue.messages = [queueMessage [99, 10]])) = true := by
  constructor
  · exact ThreadSystem.exists_run_of_execAll (.trivial _) ((twoLines Bool).map .env) _ _
      (by decide +kernel)
  · exact ThreadSystem.exists_run_of_execAll (.trivial _) (longLine.map .env) _ _
      (by decide +kernel)

end Mudmux.Comm
