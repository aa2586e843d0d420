import Mudmux.Proofs.CodeSteps

/-!
# `Mudmux.Proofs.Conservation`: no queued byte is lost

An observer of the outbound queue notes the bytes that are passed to `comm_buffered_write_raw_comm`
and the bytes that the transport takes, for the connection that has the slot. As long as every write
stays within the buffer limit and no write to the transport fails for good, what the transport took
and what is still queued should be what was written. It is, unless a write finds a chain that already
has its sixteen buffers: such a write is dropped even if it fits into the last of them.

The removal of a slot rests on the flag `C_BUFFERED_WRITE`. The flag is set while anything is queued,
so a graceful close waits for the queue to drain.
-/

set_option autoImplicit false

namespace Mudmux.Comm

open Mudmux.Lib
open CallbackSystem

variable {setup : Setup}

/-! ### The observer -/

/-- What `comm_buffered_write_comm_impl` passes on to `comm_buffered_write_raw_comm`. -/
def rawWriteBytes (normalize : Bool) (c : CommAbstract) (buf : Bytes) : Bytes :=
  let buf := if normalize && c.flags.enableTelnet then normalizeTelnetNewlines buf else buf
  if c.flags.websocketState = .closeSent then []
  else if c.flags.websocketState.isReady then (commWebsocketEncodeFrame buf opBinary).getD []
  else if c.flags.enableWebsocket then []
  else buf

/-- The bytes that an effect passes to `comm_buffered_write_raw_comm`. -/
def rawBytes : {β : Type} → SlotEffect β → CommAbstract → Bytes
  | _, .write normalize buf, c => if buf.isEmpty then [] else rawWriteBytes normalize c buf
  | _, .writeRaw buf, _ => buf
  | _, .pong payload, _ => (commWebsocketEncodeFrame payload opPong).getD []
  | _, .queueClose payload, c =>
    if c.flags.websocketState.closed then []
    else (commWebsocketEncodeFrame payload opClose).getD []
  | _, _, _ => []

/-- The bytes written and taken for the current connection, and whether a connection was ever
removed with output queued. -/
structure OutboundNotes where
  written : Bytes := []
  taken : Bytes := []
  removedUnsent : Bool := false
  deriving DecidableEq, Repr

/-- The observer of a slot in use. -/
def observeLiveOutbound : Observer OutboundNotes
  | _, .drain, .writes answers, c, _, n =>
    { n with taken := n.taken ++ (drainOutbound answers c.outbound).taken }
  | _, .releaseBarrier, _, c, _, n =>
    { n with written := n.written ++ chainData c.websocketUpgradeBarrier }
  | _, .remove, _, c, _, n => { removedUnsent := n.removedUnsent || !c.outbound.isEmpty }
  | _, e, _, c, _, n => { n with written := n.written ++ rawBytes e c }

/-- The observer. A slot number that is not in use is only watched for the next connection. -/
def observeOutbound : Observer OutboundNotes
  | _, .addBio _ _ _ _, _, _, _, n => { removedUnsent := n.removedUnsent }
  | _, e, a, c, c', n => if c.live then observeLiveOutbound e a c c' n else n

/-- The transport takes bytes or asks to retry. -/
def retries (answers : List WriteAnswer) : Bool :=
  answers.all fun answer => answer.written ≠ 0 || answer.shouldRetry

/-- A raw write is empty or stays within the buffer limit, and with `room` it does not find a full
chain. -/
def fitsOutbound (room : Bool) (c : CommAbstract) (buf : Bytes) : Bool :=
  buf.isEmpty ||
    (withinOutboundLimit c buf && (!room || c.outbound.length < maxOutboundBuffers))

/-- The conditions on the steps. Every write fits; the transport takes bytes or asks to retry; and no
output is discarded by a refused WebSocket handshake or by a close before TLS is established. -/
def outboundGuard (setup : Setup) (room : Bool) : (slotSystem setup observeOutbound).Guard where
  entry _ _ := true
  effect s e a :=
    match e with
    | .drain =>
      match a with
      | .writes answers => retries answers
      | _ => true
    | .freeOutbound =>
      !s.comm.flags.enableWebsocket && !(s.comm.ssl && !s.comm.flags.tlsEstablished)
    | _ => fitsOutbound room s.comm (rawBytes e s.comm)

variable {c c' : CommAbstract} {n : OutboundNotes}

/-! ### The writes pass their bytes to the raw write -/

theorem commBufferedWriteRaw_nil (c : CommAbstract) : commBufferedWriteRaw c [] = c := by
  simp [commBufferedWriteRaw]

/-- Application output reaches the queue through the raw write, or goes to the barrier. -/
theorem commBufferedWriteImpl_eq (normalize : Bool) (c : CommAbstract) (buf : Bytes) :
    ∃ websocketUpgradeBarrier, commBufferedWriteImpl normalize c buf
      = { commBufferedWriteRaw c (rawBytes (.write normalize buf) c) with
            websocketUpgradeBarrier } := by
  have hraw (out : Bytes) : commBufferedWriteRaw c out
      = { commBufferedWriteRaw c out with
            websocketUpgradeBarrier := c.websocketUpgradeBarrier } := by
    obtain ⟨_, _, h⟩ := commBufferedWriteRaw_eq c out
    rw [h]
  simp only [commBufferedWriteImpl, rawBytes, rawWriteBytes]
  generalize (if normalize && c.flags.enableTelnet then normalizeTelnetNewlines buf else buf) = out
  by_cases hempty : buf.isEmpty = true
  · simp only [if_pos hempty, commBufferedWriteRaw_nil]
    exact ⟨_, rfl⟩
  · by_cases hsent : c.flags.websocketState = .closeSent
    · simp only [if_neg hempty, hsent, if_true, beq_self_eq_true, commBufferedWriteRaw_nil]
      exact ⟨_, rfl⟩
    · have hsent' : (c.flags.websocketState == .closeSent) = false := by simpa using hsent
      simp only [if_neg hempty, if_neg hsent, hsent', Bool.false_eq_true, if_false]
      cases hready : c.flags.websocketState.isReady with
      | true =>
        simp only [Bool.not_true, Bool.and_false, Bool.false_eq_true, if_false, if_true]
        cases commWebsocketEncodeFrame out opBinary with
        | none => exact ⟨_, by rw [Option.getD_none, commBufferedWriteRaw_nil]⟩
        | some frame => exact ⟨_, hraw frame⟩
      | false =>
        cases hws : c.flags.enableWebsocket with
        | false =>
          simp only [Bool.not_false, Bool.and_true, Bool.false_eq_true, if_false]
          exact ⟨_, hraw out⟩
        | true =>
          simp only [Bool.not_false, Bool.and_true, Bool.false_eq_true, if_false, if_true,
            commBufferedWriteRaw_nil]
          cases commWebsocketEncodeFrame out opBinary with
          | none => exact ⟨_, rfl⟩
          | some frame => exact appendWebsocketUpgradeBarrier_eq c frame

theorem writeControlFrame_eq (c : CommAbstract) (opcode : Byte) (payload : Bytes) :
    writeControlFrame c opcode payload
      = commBufferedWriteRaw c ((commWebsocketEncodeFrame payload opcode).getD []) := by
  unfold writeControlFrame
  cases commWebsocketEncodeFrame payload opcode with
  | none => exact (commBufferedWriteRaw_nil c).symm
  | some frame => rfl

/-! ### What all the code keeps -/

/-- The flag is set when there is something in the queue, and a slot out of use has no queue. -/
structure OutputAnnounced (c : CommAbstract) : Prop where
  buffered : c.outbound ≠ [] → c.flags.bufferedWrite = true
  unused : c.live = false → c.outbound = []

/-- A change that leaves the queue alone, or announces it. -/
theorem OutputAnnounced.of_queue (h : OutputAnnounced c) (hlive : c'.live = c.live)
    (hqueue : c'.outbound ≠ [] → c'.flags.bufferedWrite = true)
    (hunused : c.live = true ∨ c'.outbound = c.outbound) : OutputAnnounced c' := by
  refine ⟨hqueue, fun hdead => ?_⟩
  rw [hlive] at hdead
  rcases hunused with huse | hsame
  · rw [huse] at hdead
    cases hdead
  · rw [hsame]
    exact h.unused hdead

variable {f : CommAbstract → CommAbstract}

/-- The functions that act behind the guard. -/
theorem OutputAnnounced.ifLive (h : OutputAnnounced c) (hlive : (f c).live = c.live)
    (hqueue : (f c).outbound ≠ [] → (f c).flags.bufferedWrite = true) :
    OutputAnnounced (ifLive c f) := by
  unfold Comm.ifLive
  split
  · next huse => exact h.of_queue hlive hqueue (.inl huse)
  · exact h

theorem OutputAnnounced.flushOutbound (h : OutputAnnounced c) (answers : List WriteAnswer)
    (hne : (flushOutbound c answers).1.outbound ≠ []) :
    (Comm.flushOutbound c answers).1.flags.bufferedWrite = true := by
  simp only [Comm.flushOutbound] at hne ⊢
  split at hne
  · -- a failed write empties the queue
    exact absurd (by dsimp only; rfl) hne
  · next hresult =>
      refine h.buffered fun hempty => hne ?_
      dsimp only
      rw [hempty]
      exact drainOutbound_chain_nil answers

variable {a : Answer}

/-- A new connection starts with an empty queue. -/
theorem OutputAnnounced.addBio (h : OutputAnnounced c) {rbio wbio wbioFd : Bool} {flags : Flags}
    {b : Unit} (hexec : slotExec (.addBio rbio wbio wbioFd flags) a c = some (b, c')) :
    c'.outbound = [] := by
  cases a <;> cases hexec
  simp only [commAbstractAddBio]
  split
  · rfl
  · next hdead => exact h.unused (by simpa using hdead)

variable {β : Type} {e : SlotEffect β}

/-- Every effect that meets `slotSpec` keeps it. -/
theorem OutputAnnounced.exec {b : β} (h : OutputAnnounced c) (hspec : slotSpec setup True β c e)
    (hexec : slotExec e a c = some (b, c')) : OutputAnnounced c' := by
  have hraw (buf : Bytes) : (commBufferedWriteRaw c buf).outbound ≠ [] →
      (commBufferedWriteRaw c buf).flags.bufferedWrite = true :=
    bufferedWrite_commBufferedWriteRaw h.buffered
  cases e with
  | setSlot _ =>
    cases a <;> cases hexec
    refine h.of_queue hspec.live (fun hne => ?_) (.inr hspec.outbound)
    rw [hspec.outbound] at hne
    rw [hspec.buffered.resolve_right hne]
    exact h.buffered hne
  | write normalize buf =>
    cases a <;> cases hexec
    refine h.ifLive (commBufferedWriteImpl_queueStep normalize buf c).live ?_
    obtain ⟨barrier, heq⟩ := commBufferedWriteImpl_eq normalize c buf
    rw [heq]
    exact hraw _
  | writeRaw buf =>
    cases a <;> cases hexec
    exact h.ifLive (commBufferedWriteRaw_queueStep buf c).live (hraw buf)
  | pong payload =>
    cases a <;> cases hexec
    refine h.ifLive (writeControlFrame_queueStep opPong payload c).live ?_
    rw [writeControlFrame_eq]
    exact hraw _
  | queueClose payload =>
    cases a <;> cases hexec
    refine h.ifLive (commWebsocketQueueClose_queueStep payload c).live ?_
    cases hclosed : c.flags.websocketState.closed with
    | true =>
      rw [commWebsocketQueueClose_of_closed payload hclosed]
      exact h.buffered
    | false =>
      rw [commWebsocketQueueClose_of_open payload hclosed, writeControlFrame_eq]
      exact hraw _
  | releaseBarrier =>
    cases a <;> cases hexec
    exact h.ifLive (releaseUpgradeBarrier_queueStep c).live fun _ => rfl
  | freeOutbound =>
    cases a <;> cases hexec
    exact h.ifLive (commFreeOutboundBuffers_queueStep c).live fun hne => absurd rfl hne
  | drain =>
    cases a <;> cases hexec
    exact h.ifLive (flushOutbound_queueStep _ c).live (h.flushOutbound _)
  | remove =>
    cases a <;> cases hexec
    unfold Comm.ifLive
    split
    · exact ⟨fun hne => absurd rfl hne, fun _ => rfl⟩
    · exact h
  | addBio rbio wbio wbioFd flags =>
    have hempty := h.addBio hexec
    exact ⟨fun hne => absurd hempty hne, fun _ => hempty⟩
  | _ => rwa [slotExec_of_leavesRecord rfl hexec]

/-! ### The invariant -/

/-- What was taken and what is queued is what was written, the flag announces what is queued, and no
connection was removed with output queued. -/
structure Conserved (c : CommAbstract) (n : OutboundNotes) : Prop where
  bytes : n.taken ++ chainData c.outbound = n.written
  buffered : c.outbound ≠ [] → c.flags.bufferedWrite = true
  unused : c.live = false → c.outbound = []
  unsent : n.removedUnsent = false

/-- The part of it that the observer is about. -/
structure Balanced (c : CommAbstract) (n : OutboundNotes) : Prop where
  bytes : n.taken ++ chainData c.outbound = n.written
  unsent : n.removedUnsent = false

/-- A raw write that meets the conditions, seen by the observer. -/
theorem Balanced.rawWrite (h : Balanced c n) {buf : Bytes}
    (hqueue : c'.outbound = (commBufferedWriteRaw c buf).outbound)
    (hfit : fitsOutbound true c buf = true) : Balanced c' { n with written := n.written ++ buf } := by
  refine ⟨?_, h.unsent⟩
  have hdata : chainData c'.outbound = chainData c.outbound ++ buf := by
    rw [hqueue]
    cases hbuf : buf.isEmpty with
    | true =>
      rw [List.isEmpty_iff.mp hbuf, commBufferedWriteRaw_nil]
      exact (List.append_nil _).symm
    | false =>
      simp only [fitsOutbound, hbuf, Bool.false_or, Bool.not_true, Bool.and_eq_true, decide_eq_true_eq] at hfit
      exact chainData_commBufferedWriteRaw hfit.1 hfit.2
  rw [hdata, ← List.append_assoc, h.bytes]

/-- A flush that does not fail, seen by the observer. -/
theorem Balanced.flush (h : Balanced c n) {answers : List WriteAnswer}
    (hanswers : retries answers = true) :
    Balanced (flushOutbound c answers).1
      { n with taken := n.taken ++ (drainOutbound answers c.outbound).taken } := by
  have hresult := drainOutbound_result_ne_failed hanswers c.outbound
  have hflush : (flushOutbound c answers).1
      = { c with outbound := (drainOutbound answers c.outbound).chain } := by
    simp only [flushOutbound]
  refine ⟨?_, h.unsent⟩
  rw [hflush]
  simp only [List.append_assoc, drainOutbound_conserves answers c.outbound hresult, h.bytes]

/-- The functions that act behind the guard are watched only there. -/
theorem Balanced.ifLive {n n' : OutboundNotes} (h : Balanced c n) (hf : Balanced (f c) n') :
    Balanced (ifLive c f) (if c.live then n' else n) := by
  unfold Comm.ifLive
  split
  · exact hf
  · exact h

/-- The observer notes nothing at the other effects. -/
theorem observeOutbound_of_quiet
    (h : observeOutbound e a c c' n = if c.live then { n with written := n.written ++ [] } else n) :
    observeOutbound e a c c' n = n := by
  rw [h, List.append_nil, ite_self]

variable {s : SlotState OutboundNotes}

/-- Every effect conserves the output, on the conditions of `outboundGuard`. -/
theorem Balanced.step (hconsole : setup.console = false) {b : β}
    (hspec : slotSpec setup True β s.comm e) (hann : OutputAnnounced s.comm)
    (hi : Balanced s.comm s.notes) (hg : (outboundGuard setup true).effect s e a = true)
    (hexec : slotExec e a s.comm = some (b, c')) :
    Balanced c' (observeOutbound e a s.comm c' s.notes) := by
  cases e with
  | setSlot _ =>
    rw [observeOutbound_of_quiet rfl]
    cases a <;> cases hexec
    exact ⟨hspec.outbound ▸ hi.bytes, hi.unsent⟩
  | write normalize buf =>
    cases a <;> cases hexec
    obtain ⟨barrier, heq⟩ := commBufferedWriteImpl_eq normalize s.comm buf
    exact hi.ifLive (hi.rawWrite (by rw [heq]) hg)
  | writeRaw buf =>
    cases a <;> cases hexec
    exact hi.ifLive (hi.rawWrite rfl hg)
  | pong payload =>
    cases a <;> cases hexec
    have heq := writeControlFrame_eq s.comm opPong payload
    exact hi.ifLive (hi.rawWrite (by rw [heq]; rfl) hg)
  | queueClose payload =>
    cases a <;> cases hexec
    refine hi.ifLive (hi.rawWrite ?_ hg)
    cases hclosed : s.comm.flags.websocketState.closed with
    | true =>
      have hraw : rawBytes (.queueClose payload) s.comm = [] := by simp [rawBytes, hclosed]
      rw [commWebsocketQueueClose_of_closed payload hclosed, hraw, commBufferedWriteRaw_nil]
    | false =>
      have hraw : rawBytes (.queueClose payload) s.comm
          = (commWebsocketEncodeFrame payload opClose).getD [] := by simp [rawBytes, hclosed]
      rw [commWebsocketQueueClose_of_open payload hclosed, writeControlFrame_eq, hraw]
      rfl
  | releaseBarrier =>
    cases a <;> cases hexec
    have hempty : s.comm.outbound = [] := hspec
    have hbytes := hi.bytes
    rw [hempty, chainData_nil, List.append_nil] at hbytes
    exact hi.ifLive ⟨congrArg (· ++ chainData s.comm.websocketUpgradeBarrier) hbytes, hi.unsent⟩
  | freeOutbound =>
    exfalso
    have hguard : s.comm.flags.enableWebsocket = false ∧
        (s.comm.ssl = false ∨ s.comm.flags.tlsEstablished = true) := by
      simpa [outboundGuard] using hg
    rcases hspec with h | h | h
    · rw [hconsole] at h
      cases h
    · rw [hguard.1] at h
      cases h
    · simp [h] at hguard
  | drain =>
    cases a <;> cases hexec
    exact hi.ifLive (hi.flush hg)
  | remove =>
    cases a <;> cases hexec
    refine hi.ifLive ⟨rfl, ?_⟩
    -- the flag is down, so nothing is queued
    have hflag : s.comm.flags.bufferedWrite = false :=
      hspec.resolve_right (by rw [hconsole]; nofun)
    have hempty : s.comm.outbound = [] := by
      by_contra hne
      rw [hann.buffered hne] at hflag
      cases hflag
    simp [observeLiveOutbound, hi.unsent, hempty]
  | addBio rbio wbio wbioFd flags =>
    have hempty : c'.outbound = [] := hann.addBio hexec
    exact ⟨by rw [hempty]; rfl, hi.unsent⟩
  | _ =>
    rw [observeOutbound_of_quiet rfl, slotExec_of_leavesRecord rfl hexec]
    exact hi

theorem Conserved.step (hconsole : setup.console = false) {b : β}
    (hspec : slotSpec setup True β s.comm e) (hi : Conserved s.comm s.notes)
    (hg : (outboundGuard setup true).effect s e a = true)
    (hexec : slotExec e a s.comm = some (b, c')) :
    Conserved c' (observeOutbound e a s.comm c' s.notes) := by
  have hann : OutputAnnounced s.comm := ⟨hi.buffered, hi.unused⟩
  have hann' := hann.exec hspec hexec
  have hbalanced := Balanced.step hconsole hspec hann ⟨hi.bytes, hi.unsent⟩ hg hexec
  exact ⟨hbalanced.bytes, hann'.buffered, hann'.unused, hbalanced.unsent⟩

/-- In every run whose steps meet `outboundGuard` with room, the bytes taken by the transport and
the bytes still queued are the bytes written, and no slot is removed with output queued. -/
theorem outbound_is_conserved (hconsole : setup.console = false) (comm : CommAbstract)
    (tasks : List Task) (hempty : comm.outbound = [])
    (c : (slotSystem setup observeOutbound).Config)
    (hrun : Run (outboundGuard setup true) ⟨⟨comm, tasks, {}⟩, .done ()⟩ c) :
    (SlotState.notes c.state).taken ++ (SlotState.comm c.state).outboundData
        = (SlotState.notes c.state).written ∧
      (SlotState.notes c.state).removedUnsent = false := by
  have hinv := invariant_of_slot_run (fun s => Conserved s.comm s.notes)
    (fun e s a b c' hspec hi hg hexec => hi.step hconsole hspec hg hexec)
    ⟨by rw [hempty]; rfl, fun hne => absurd hempty hne, fun _ => hempty, rfl⟩ hrun
  exact ⟨hinv.bytes, hinv.unsent⟩

/-! ### A write that finds sixteen buffers -/

/-- A strict-mode server without hooks. -/
def hooklessSetup : Setup where
  relaxed := false
  registered _ := false
  console := false
  fileInputs := false
  consoleTty := false
  acceptKey := id
  mbrlen _ := .complete 1

/-- A public write on a slot in use without hooks and prompt is one raw step of the machine. -/
theorem run_bufferedWrite {guard : (slotSystem hooklessSetup observeOutbound).Guard}
    {c : (slotSystem hooklessSetup observeOutbound).Config} (buf : Bytes)
    (hrun : Run guard c ⟨s, .done ()⟩) (hlive : s.comm.live = true)
    (hprompt : s.comm.flags.enablePrompt = false)
    (hentry : guard.entry s (.api ⟨none, false⟩ (.bufferedWrite buf)) = true)
    (hget : guard.effect s .getSlot .unit = true)
    (hwrite : guard.effect s (.write true buf) .unit = true) :
    Run guard c ⟨⟨commBufferedWriteImpl true s.comm buf, s.tasks,
      { s.notes with written := s.notes.written ++ rawBytes (.write true buf) s.comm }⟩,
      .done ()⟩ := by
  have hcode : ∃ k, commBufferedWrite hooklessSetup ⟨none, false⟩ buf = .perform .getSlot k ∧
      k s.comm = .perform (.write true buf) .done := by
    refine ⟨_, rfl, ?_⟩
    simp [Program.bind, hlive, hprompt, commBufferedWriteComm, Program.effect]
  obtain ⟨k, hentryCode, hk⟩ := hcode
  have henter : Run guard c ⟨s, .perform .getSlot k⟩ := by
    rw [← hentryCode]
    exact hrun.tail (m := .enter (.api ⟨none, false⟩ (.bufferedWrite buf))) hentry rfl
  have hread : Run guard c ⟨s, .perform (.write true buf) .done⟩ := by
    have hnotes : observeOutbound .getSlot .unit s.comm s.comm s.notes = s.notes :=
      observeOutbound_of_quiet rfl
    have hs : s = ⟨s.comm, s.tasks, observeOutbound .getSlot .unit s.comm s.comm s.notes⟩ := by
      rw [hnotes]
    rw [hs, ← hk]
    exact henter.tail (m := .answer .unit) hget rfl
  have hstate : (⟨commBufferedWriteImpl true s.comm buf, s.tasks,
      { s.notes with written := s.notes.written ++ rawBytes (.write true buf) s.comm }⟩ :
        SlotState OutboundNotes)
      = ⟨ifLive s.comm fun comm => commBufferedWriteImpl true comm buf, s.tasks,
          observeOutbound (.write true buf) .unit s.comm
            (ifLive s.comm fun comm => commBufferedWriteImpl true comm buf) s.notes⟩ := by
    simp only [ifLive, hlive, if_true, observeOutbound, observeLiveOutbound]
  rw [hstate]
  exact hread.tail (m := .answer .unit) hwrite rfl

/-- A slot number that has just been given to a connection with both BIOs. -/
def connectedSlot : SlotState OutboundNotes :=
  ⟨commAbstractAddBio {} true true true {}, [], {}⟩

theorem run_connectedSlot (room : Bool) :
    Run (outboundGuard hooklessSetup room) (freeSlot hooklessSetup observeOutbound {})
      ⟨connectedSlot, .done ()⟩ := by
  have henter : Run (outboundGuard hooklessSetup room) (freeSlot hooklessSetup observeOutbound {})
      ⟨⟨{}, [], {}⟩, .perform (.addBio true true true {}) .done⟩ :=
    Run.refl.tail (m := .enter (Entry.addBio true true true {})) rfl rfl
  exact henter.tail (m := .answer Answer.unit) rfl rfl

/-- On a slot that is neither Telnet nor WebSocket application output is queued as it is. -/
theorem commBufferedWriteImpl_of_plain (normalize : Bool) (buf : Bytes) (hne : buf.isEmpty = false)
    (htelnet : c.flags.enableTelnet = false) (hstate : c.flags.websocketState = .handshake)
    (hwebsocket : c.flags.enableWebsocket = false) :
    commBufferedWriteImpl normalize c buf = commBufferedWriteRaw c buf ∧
      rawBytes (.write normalize buf) c = buf := by
  simp [commBufferedWriteImpl, rawBytes, rawWriteBytes, hne, htelnet, hstate, hwebsocket,
    WebSocketState.isReady]

/-- A first write that fills all buffers but the last and leaves 4095 bytes of room in that one. -/
theorem run_sixteenBuffers (room : Bool) {buf : Bytes} (hlen : buf.length = 61441) :
    ∃ c, Run (outboundGuard hooklessSetup room) (freeSlot hooklessSetup observeOutbound {})
        ⟨⟨c, [], ⟨buf, [], false⟩⟩, .done ()⟩ ∧
      (c.wbio = true ∧ c.flags.enablePrompt = false) ∧
      (c.flags.enableTelnet = false ∧ c.flags.websocketState = .handshake ∧
        c.flags.enableWebsocket = false) ∧
      chainData c.outbound = buf ∧ outboundRoom c.outbound = 4095 := by
  have hempty : outboundRoom connectedSlot.comm.outbound = 65536 := by
    rw [show connectedSlot.comm.outbound = [] from rfl]
    simp [outboundRoom, maxOutboundBuffers, bufferSize]
  have hne : buf.isEmpty = false := by
    cases buf with
    | nil => cases hlen
    | cons b rest => rfl
  obtain ⟨himpl, hraw⟩ := commBufferedWriteImpl_of_plain (c := connectedSlot.comm) true buf hne
    rfl rfl rfl
  have hfit : withinOutboundLimit connectedSlot.comm buf = true := by
    rw [withinOutboundLimit, hlen, hempty]
    rfl
  have hguard : fitsOutbound room connectedSlot.comm (rawBytes (.write true buf)
      connectedSlot.comm) = true := by
    rw [hraw, fitsOutbound, hne, hfit]
    cases room <;> rfl
  have hrun := run_bufferedWrite buf (run_connectedSlot room) rfl rfl rfl rfl hguard
  rw [himpl, hraw] at hrun
  refine ⟨_, hrun, ?_, ?_, chainData_commBufferedWriteRaw hfit (by decide), ?_⟩
  · obtain ⟨_, _, heq⟩ := commBufferedWriteRaw_eq connectedSlot.comm buf
    rw [heq]
    exact ⟨rfl, rfl⟩
  · obtain ⟨_, _, heq⟩ := commBufferedWriteRaw_eq connectedSlot.comm buf
    rw [heq]
    exact ⟨rfl, rfl, rfl⟩
  · have hroom := outboundRoom_commBufferedWriteRaw hfit (by decide) hne
    rw [hlen, hempty] at hroom
    exact Nat.add_right_cancel (m := 61441) hroom

/-- Sixteen buffers are queued with room in the last, and a byte more is dropped. -/
theorem byte_is_dropped_by_full_chain :
    ∃ c, Run (outboundGuard hooklessSetup false) (freeSlot hooklessSetup observeOutbound {}) c ∧
      (SlotState.notes c.state).taken ++ (SlotState.comm c.state).outboundData
        ≠ (SlotState.notes c.state).written := by
  obtain ⟨buf, hbuf⟩ : ∃ buf : Bytes, buf.length = 61441 :=
    ⟨List.replicate 61441 0, List.length_replicate⟩
  obtain ⟨c, hrun, ⟨hwbio, hprompt⟩, ⟨htelnet, hstate, hwebsocket⟩, hdata, hroom⟩ :=
    run_sixteenBuffers false hbuf
  obtain ⟨himpl, hraw⟩ := commBufferedWriteImpl_of_plain true [0] rfl htelnet hstate hwebsocket
  have hguard : fitsOutbound false c (rawBytes (.write true [0]) c) = true := by
    rw [hraw]
    simp [fitsOutbound, withinOutboundLimit, hwbio, hroom]
  have hrun' := run_bufferedWrite [0] hrun (by simp [CommAbstract.live, hwbio]) hprompt rfl
    rfl hguard
  have hfull : maxOutboundBuffers ≤ c.outbound.length :=
    maxOutboundBuffers_le_of_outboundRoom_lt (by simp [hroom, bufferSize])
  have hdropped : commBufferedWriteRaw c [0] = c := by
    have hempty : c.outbound.isEmpty = false := by
      cases hc : c.outbound with
      | nil => simp [hc, maxOutboundBuffers] at hfull
      | cons obb rest => rfl
    simp [commBufferedWriteRaw, hempty, hfull]
  rw [himpl, hraw, hdropped] at hrun'
  refine ⟨_, hrun', fun heq => ?_⟩
  have hlen := congrArg List.length heq
  simp only [List.nil_append, List.length_append, show c.outboundData = buf from hdata,
    List.length_singleton] at hlen
  omega

/-- The first of the two writes is conserved. -/
theorem outbound_is_conserved_sixteenBuffers :
    ∃ c, Run (outboundGuard hooklessSetup true) (freeSlot hooklessSetup observeOutbound {}) c ∧
      (SlotState.notes c.state).written.length = 61441 ∧
      (SlotState.notes c.state).taken ++ (SlotState.comm c.state).outboundData
        = (SlotState.notes c.state).written ∧
      (SlotState.notes c.state).removedUnsent = false := by
  have hlen : (List.replicate 61441 (0 : Byte)).length = 61441 := List.length_replicate
  obtain ⟨c, hrun, -⟩ := run_sixteenBuffers true hlen
  exact ⟨_, hrun, hlen, outbound_is_conserved rfl {} [] rfl _ hrun⟩

end Mudmux.Comm
