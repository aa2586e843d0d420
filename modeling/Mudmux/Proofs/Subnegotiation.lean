import Mudmux.Proofs.Capacity

/-!
# `Mudmux.Proofs.Subnegotiation`: Telnet subnegotiations across reads

`completedBlocks` is what a Telnet stream says: the contents of its `IAC SB … IAC SE` blocks,
unescaped. The parser keeps its state between two calls, but the bytes of a block only within one:
whatever a call has collected when its bytes run out is dispatched as if the block had ended there.
A call's bytes run out at the end of a read and where the space behind the write cursor ends.

`TelnetRun` is the life of a Telnet slot as the parser sees it: reads that fit into the buffer, and
any other work between them. Each read falls into the pieces its parser calls consumed. The blocks
of the stream reach the hook exactly if no piece ends inside a block with bytes in it (`CutsBlock`).
-/

set_option autoImplicit false

namespace Mudmux.Comm

open Mudmux.Lib
open Mudmux.Lib.Program (Returns returns_done)

/-! ### The blocks of a stream -/

/-- The reader of blocks: it carries the parser state and the bytes of the block it is in, and puts
out a block at its IAC SE. -/
def blockReader : Transducer (TelnetState × Bytes) Byte Bytes where
  step s byte :=
    let next := (telnetTransducer.step s.1 byte).1
    match s.1 with
    | .subneg => ((next, if byte = telnetIAC then s.2 else s.2 ++ [byte]), [])
    | .subnegIac =>
      if byte = telnetSE then ((next, []), [s.2])
      else ((next, if byte = telnetIAC then s.2 ++ [telnetIAC] else s.2), [])
    | _ => ((next, s.2), [])

/-- The blocks that are complete in a stream. -/
def completedBlocks (stream : Bytes) : List Bytes := (blockReader.run (.data, []) stream).2

/-- The parser is inside a block. -/
def TelnetState.inBlock (state : TelnetState) : Bool := state = .subneg || state = .subnegIac

/-- The hook call for a block, whose first byte is the option. An empty block has none. -/
def blockCall : Bytes → Option HookCall
  | [] => none
  | option :: payload => some (.telnetSubneg option payload)

variable {s : TelnetState × Bytes}

/-- Bytes are only held inside a block. -/
theorem blockReader_step_inBlock (hs : s.2 ≠ [] → s.1.inBlock = true) (byte : Byte) :
    (blockReader.step s byte).1.2 ≠ [] → (blockReader.step s byte).1.1.inBlock = true := by
  obtain ⟨state, held⟩ := s
  cases state with
  | subneg =>
    intro _
    simp only [blockReader, telnetTransducer, telnetStep]
    split <;> rfl
  | subnegIac =>
    simp only [blockReader, telnetTransducer, telnetStep]
    split
    · exact fun h => absurd rfl h
    · intro _
      split <;> rfl
  | _ =>
    intro hheld
    have hin := hs hheld
    cases hin

theorem blockReader_run_inBlock (hs : s.2 ≠ [] → s.1.inBlock = true) (src : Bytes) :
    (blockReader.run s src).1.2 ≠ [] → (blockReader.run s src).1.1.inBlock = true := by
  induction src generalizing s with
  | nil => exact hs
  | cons byte src ih => exact ih (blockReader_step_inBlock hs byte)

/-- The reader's parser state is the parser's. -/
theorem blockReader_run_state (s : TelnetState × Bytes) (src : Bytes) :
    (blockReader.run s src).1.1 = (telnetTransducer.run s.1 src).1 := by
  induction src generalizing s with
  | nil => rfl
  | cons byte src ih =>
    have hstep : (blockReader.step s byte).1.1 = (telnetTransducer.step s.1 byte).1 := by
      simp only [blockReader]
      split
      · rfl
      · split <;> rfl
      · rfl
    rw [Transducer.run_cons, Transducer.run_cons, ← hstep]
    exact ih _

/-! ### One parser call -/

variable {neg : TelnetNegotiation} {held : Bytes}

/-- The parser keeps as many bytes of a block as it has room for. -/
theorem pushSubopt_take (hheld : neg.suboptBuf = held.take TelnetNegotiation.suboptCapacity)
    (byte : Byte) :
    (neg.pushSubopt byte).suboptBuf = (held ++ [byte]).take TelnetNegotiation.suboptCapacity := by
  have hlen : neg.suboptBuf.length = min TelnetNegotiation.suboptCapacity held.length := by
    rw [hheld, List.length_take]
  rw [TelnetNegotiation.pushSubopt]
  split
  case isTrue hroom =>
    have hall : held.length < TelnetNegotiation.suboptCapacity := by omega
    show neg.suboptBuf ++ [byte] = _
    rw [hheld, List.take_of_length_le (Nat.le_of_lt hall), List.take_of_length_le (by simpa)]
  case isFalse hfull =>
    have hall : TelnetNegotiation.suboptCapacity ≤ held.length := by omega
    rw [hheld, List.take_append_of_le_length hall]

variable (state : TelnetState)

/-- Outside a block a byte finishes nothing and is not kept. -/
theorem telnetStep_outside (hout : state.inBlock = false) (neg : TelnetNegotiation) (byte : Byte) :
    (telnetStep state neg byte).finished = false ∧
      (telnetStep state neg byte).neg.suboptBuf = neg.suboptBuf := by
  cases state with
  | subneg => cases hout
  | subnegIac => cases hout
  | _ =>
    unfold telnetStep
    dsimp only
    repeat' split
    all_goals exact ⟨rfl, rfl⟩

/-- One byte: the parser holds what the reader holds, up to its capacity, and finishes where the
reader puts out a block. -/
theorem telnetStep_blocks (hheld : neg.suboptBuf = held.take TelnetNegotiation.suboptCapacity)
    (byte : Byte) :
    if (telnetStep state neg byte).finished then
      blockReader.step (state, held) byte = ((.data, []), [held]) ∧
        (telnetStep state neg byte).state = .data ∧
        (telnetStep state neg byte).neg.suboptBuf = held.take TelnetNegotiation.suboptCapacity
    else ∃ held', blockReader.step (state, held) byte
        = (((telnetStep state neg byte).state, held'), []) ∧
      (telnetStep state neg byte).neg.suboptBuf = held'.take TelnetNegotiation.suboptCapacity := by
  have hpush := pushSubopt_take hheld
  have hnext := telnetTransducer_step state neg byte
  have hout := fun h => telnetStep_outside state h neg byte
  simp only [blockReader, hnext]
  cases state with
  | subneg =>
    by_cases hiac : byte = telnetIAC
    · simp only [telnetStep, if_pos hiac, Bool.false_eq_true, if_false]
      exact ⟨held, rfl, hheld⟩
    · simp only [telnetStep, if_neg hiac, Bool.false_eq_true, if_false]
      exact ⟨held ++ [byte], rfl, hpush byte⟩
  | subnegIac =>
    by_cases hse : byte = telnetSE
    · simp only [telnetStep, if_pos hse, if_true]
      exact ⟨trivial, trivial, hheld⟩
    · by_cases hiac : byte = telnetIAC
      · simp only [telnetStep, if_neg hse, if_pos hiac, Bool.false_eq_true, if_false]
        exact ⟨held ++ [telnetIAC], rfl, hpush telnetIAC⟩
      · simp only [telnetStep, if_neg hse, if_neg hiac, Bool.false_eq_true, if_false]
        exact ⟨held, rfl, hheld⟩
  | _ =>
    obtain ⟨hfinished, hkept⟩ := hout rfl
    rw [hfinished, if_neg Bool.false_ne_true]
    exact ⟨held, rfl, hkept.trans hheld⟩

/-- One parser call on the bytes it consumes: the reader puts out at most one block, at the end of
the call, and what the call has collected is that block or else the bytes of the block it is in. -/
theorem telnetLoop_blocks (src : Bytes) (state : TelnetState)
    (hheld : neg.suboptBuf = held.take TelnetNegotiation.suboptCapacity) :
    ∃ held' blocks,
      blockReader.run (state, held) (src.take (telnetLoop src state neg).consumed)
        = (((telnetLoop src state neg).state, held'), blocks) ∧
      ((blocks = [] ∧ (telnetLoop src state neg).neg.suboptBuf
          = held'.take TelnetNegotiation.suboptCapacity) ∨
        ∃ block, blocks = [block] ∧ held' = [] ∧ (telnetLoop src state neg).state = .data ∧
          (telnetLoop src state neg).neg.suboptBuf
            = block.take TelnetNegotiation.suboptCapacity) := by
  induction src generalizing state neg held with
  | nil => exact ⟨held, [], rfl, .inl ⟨rfl, hheld⟩⟩
  | cons byte src ih =>
    have hstep := telnetStep_blocks state hheld byte
    simp only [telnetLoop]
    split
    case isTrue hfinished =>
      rw [if_pos hfinished] at hstep
      obtain ⟨hread, hdata, hblock⟩ := hstep
      refine ⟨[], [held], ?_, .inr ⟨held, rfl, rfl, hdata, hblock⟩⟩
      rw [List.take_succ_cons, List.take_zero, Transducer.run_cons, hread, hdata]
      rfl
    case isFalse hgoes =>
      rw [if_neg hgoes] at hstep
      obtain ⟨held₁, hread, hheld₁⟩ := hstep
      obtain ⟨held', blocks, hrun, hend⟩ := ih (telnetStep state neg byte).state hheld₁
      refine ⟨held', blocks, ?_, hend⟩
      rw [List.take_succ_cons, Transducer.run_cons, hread, hrun]
      rfl

variable {r : TelnetResult}

variable (offered : Bytes)

/-- The same for a call as both callers make it, with nothing collected before. A block that is
longer than the parser's own buffer is left out. -/
theorem commTelnetProcessInbound_blocks (state : TelnetState)
    (hr : commTelnetProcessInbound offered state .zero = r) {blocks : List Bytes}
    (hrun : blockReader.run (state, []) (offered.take r.consumed) = ((r.state, held), blocks))
    (hshort : ∀ block ∈ blocks, block.length ≤ TelnetNegotiation.suboptCapacity) :
    (blocks = [] ∧ (r.neg.suboptBuf = [] ↔ held = [])) ∨
      (blocks = [r.neg.suboptBuf] ∧ held = [] ∧ r.state = .data) := by
  have hzero : ({ TelnetNegotiation.zero with suboptBuf := [] } : TelnetNegotiation).suboptBuf
      = ([] : Bytes).take TelnetNegotiation.suboptCapacity := rfl
  obtain ⟨held', blocks', hrun', hend⟩ := telnetLoop_blocks offered state hzero
  subst hr
  obtain ⟨⟨_, rfl⟩, rfl⟩ := Prod.ext_iff.mp (hrun.symm.trans hrun') |>.imp Prod.ext_iff.mp id
  rcases hend with ⟨rfl, hcollected⟩ | ⟨block, rfl, rfl, hdata, hcollected⟩
  · refine .inl ⟨rfl, ?_⟩
    rw [commTelnetProcessInbound, hcollected, List.take_eq_nil_iff, or_iff_right (by decide)]
  · rw [List.take_of_length_le (hshort block (List.mem_singleton_self block))] at hcollected
    exact .inr ⟨by rw [commTelnetProcessInbound, hcollected], rfl, hdata⟩

theorem telnetTransducer_run_call (state : TelnetState)
    (hr : commTelnetProcessInbound offered state .zero = r) :
    (telnetTransducer.run state (offered.take r.consumed)).1 = r.state := by
  subst hr
  exact congrArg Prod.fst (telnetCall_implements.agrees state offered)

/-- The state behind a call is the reader's. -/
theorem blockReader_run_call (state : TelnetState)
    (hr : commTelnetProcessInbound offered state .zero = r) :
    blockReader.run (state, []) (offered.take r.consumed)
      = ((r.state, (blockReader.run (state, []) (offered.take r.consumed)).1.2),
        (blockReader.run (state, []) (offered.take r.consumed)).2) := by
  have hstate := blockReader_run_state (state, []) (offered.take r.consumed)
  exact Prod.ext (Prod.ext (hstate.trans (telnetTransducer_run_call offered state hr)) rfl) rfl

/-! ### The calls of a connection -/

/-- Parser calls that follow each other, each with the piece of the stream it consumed. -/
inductive CallsOn : TelnetState → List TelnetResult → List Bytes → Prop where
  | nil (state : TelnetState) : CallsOn state [] []
  | cons {state : TelnetState} {calls : List TelnetResult} {pieces : List Bytes} (offered : Bytes)
      {r : TelnetResult} (hr : commTelnetProcessInbound offered state .zero = r)
      (hcalls : CallsOn r.state calls pieces) :
      CallsOn state (r :: calls) (offered.take r.consumed :: pieces)

/-- The bytes that calls consumed of what was read, call by call. -/
def callPieces : Bytes → List TelnetResult → List Bytes
  | _, [] => []
  | src, r :: calls => src.take r.consumed :: callPieces (src.drop r.consumed) calls

/-- The hook calls for what parser calls collected, each with the parser state at its entry. -/
def calledBlocks (calls : List TelnetResult) : List (HookCall × TelnetState) :=
  calls.filterMap fun r => (blockCall r.neg.suboptBuf).map fun call => (call, r.state)

theorem calledBlocks_append (calls calls' : List TelnetResult) :
    calledBlocks (calls ++ calls') = calledBlocks calls ++ calledBlocks calls' :=
  List.filterMap_append

/-- Some piece of the stream ends inside a block with bytes in it. -/
def CutsBlock (state : TelnetState) (pieces : List Bytes) : Prop :=
  ∃ before after, pieces = before ++ after ∧
    (blockReader.run (state, []) before.flatten).1.2 ≠ []

theorem not_cutsBlock_nil : ¬ CutsBlock state [] := by
  rintro ⟨before, after, hsplit, hheld⟩
  obtain ⟨rfl, rfl⟩ := List.append_eq_nil_iff.mp hsplit.symm
  exact hheld rfl

variable {state}

/-- Behind a piece that leaves no bytes of a block, only the others can cut one. -/
theorem cutsBlock_cons {state' : TelnetState} {piece : Bytes} {blocks : List Bytes}
    (hrun : blockReader.run (state, []) piece = ((state', []), blocks)) (pieces : List Bytes) :
    CutsBlock state (piece :: pieces) ↔ CutsBlock state' pieces := by
  have hcons : ∀ before : List Bytes,
      (blockReader.run (state, []) (piece :: before).flatten).1
        = (blockReader.run (state', []) before.flatten).1 := by
    intro before
    rw [List.flatten_cons, Transducer.run_append, hrun]
  constructor
  · rintro ⟨before, after, hsplit, hheld⟩
    cases before with
    | nil => exact absurd rfl hheld
    | cons first before =>
      obtain ⟨rfl, rfl⟩ := List.cons.inj hsplit
      rw [hcons] at hheld
      exact ⟨before, after, rfl, hheld⟩
  · rintro ⟨before, after, rfl, hheld⟩
    refine ⟨piece :: before, after, rfl, ?_⟩
    rwa [hcons]

variable {calls : List TelnetResult}

theorem CallsOn.append {calls' : List TelnetResult} {pieces pieces' : List Bytes}
    (h : CallsOn state calls pieces)
    (h' : CallsOn (telnetTransducer.run state pieces.flatten).1 calls' pieces') :
    CallsOn state (calls ++ calls') (pieces ++ pieces') := by
  induction h with
  | nil state => exact h'
  | @cons state calls pieces offered r hr hcalls ih =>
    refine .cons offered hr (ih ?_)
    rwa [List.flatten_cons, Transducer.run_append, telnetTransducer_run_call offered state hr]
      at h'

/-- The calls of a refill follow each other on what was read. -/
theorem telnetRefill_callsOn (fuel : Nat) (buf : Cells) (state : TelnetState) (src : Bytes) :
    CallsOn state (telnetRefill fuel buf state src).calls
      (callPieces src (telnetRefill fuel buf state src).calls) := by
  induction fuel generalizing buf state src with
  | zero => exact .nil state
  | succ fuel ih =>
    rw [telnetRefill]
    split
    · exact .nil state
    · split
      · exact .nil state
      · have hle := commTelnetProcessInbound_consumed_le
          (src.take (min src.length (prepareInbound ⟨.data, buf⟩).buf.room)) state .zero
        have hcall := CallsOn.cons
          (src.take (min src.length (prepareInbound ⟨.data, buf⟩).buf.room)) rfl
          (ih (refillBuffer buf state src) (refillCall buf state src).state
            (src.drop (refillCall buf state src).consumed))
        rw [List.take_take, Nat.min_eq_left (hle.trans (List.length_take_le _ _))] at hcall
        exact hcall

/-- Pieces of a refill that takes everything make up what was read. -/
theorem flatten_callPieces (fuel : Nat) (buf : Cells) (state : TelnetState)
    (src : Bytes) (hleft : (telnetRefill fuel buf state src).left = []) :
    (callPieces src (telnetRefill fuel buf state src).calls).flatten = src := by
  induction fuel generalizing buf state src with
  | zero => exact hleft.symm
  | succ fuel ih =>
    rw [telnetRefill] at hleft ⊢
    split
    case isTrue hempty => exact (List.isEmpty_iff.mp hempty).symm
    case isFalse hsome =>
      rw [if_neg hsome] at hleft
      split
      case isTrue hfull =>
        rw [if_pos hfull] at hleft
        exact hleft.symm
      case isFalse hroom =>
        rw [if_neg hroom] at hleft
        show src.take _ ++ (callPieces (src.drop _) _).flatten = src
        rw [ih _ _ _ hleft, List.take_append_drop]

/-- Parser calls hand out the blocks of the stream, each behind its end, exactly if no piece cuts a
block. -/
theorem calledBlocks_eq_iff {pieces : List Bytes} (h : CallsOn state calls pieces)
    (hshort : ∀ block ∈ (blockReader.run (state, []) pieces.flatten).2,
      block.length ≤ TelnetNegotiation.suboptCapacity) :
    ((∀ called ∈ calledBlocks calls, called.2.inBlock = false) ∧
        (calledBlocks calls).map Prod.fst
          = (blockReader.run (state, []) pieces.flatten).2.filterMap blockCall)
      ↔ ¬ CutsBlock state pieces := by
  -- along the calls, as long as none of them cuts a block
  induction h with
  | nil state => simp [calledBlocks, not_cutsBlock_nil]
  | @cons state calls pieces offered r hr hcalls ih =>
    have hrun := blockReader_run_call offered state hr
    generalize (blockReader.run (state, []) (offered.take r.consumed)).1.2 = held at hrun
    generalize (blockReader.run (state, []) (offered.take r.consumed)).2 = blocks at hrun
    have hinBlock := blockReader_run_inBlock (s := (state, [])) (fun h => absurd rfl h)
      (offered.take r.consumed)
    rw [List.flatten_cons, Transducer.run_append, hrun] at hshort ⊢
    rw [hrun] at hinBlock
    dsimp only at hshort hinBlock ⊢
    rcases commTelnetProcessInbound_blocks offered state hr hrun
      (fun block hb => hshort block (List.mem_append_left _ hb)) with
      ⟨rfl, hcollected⟩ | ⟨rfl, rfl, hdata⟩
    · by_cases hheld : held = []
      · subst hheld
        have hnone : calledBlocks (r :: calls) = calledBlocks calls := by
          simp [calledBlocks, hcollected.mpr rfl, blockCall]
        rw [cutsBlock_cons hrun, hnone, List.nil_append]
        exact ih hshort
      · -- the call ended inside a block: its hook is entered there
        obtain ⟨option, payload, hblock⟩ :=
          List.exists_cons_of_ne_nil fun h => hheld (hcollected.mp h)
        have hmem : (.telnetSubneg option payload, r.state) ∈ calledBlocks (r :: calls) := by
          simp [calledBlocks, hblock, blockCall]
        refine iff_of_false (fun hall => ?_) (not_not.mpr ⟨[offered.take r.consumed], pieces,
          rfl, ?_⟩)
        · exact Bool.false_ne_true ((hall.1 _ hmem).symm.trans (hinBlock hheld))
        · rwa [List.flatten_cons, List.flatten_nil, List.append_nil, hrun]
    · have hrest := ih fun block hb => hshort block (List.mem_append_right _ hb)
      rw [cutsBlock_cons hrun, ← hrest, List.filterMap_append]
      cases hblock : r.neg.suboptBuf with
      | nil =>
        have hnone : calledBlocks (r :: calls) = calledBlocks calls := by
          simp [calledBlocks, hblock, blockCall]
        rw [hnone]
        rfl
      | cons option payload =>
        have hone : calledBlocks (r :: calls)
            = (.telnetSubneg option payload, r.state) :: calledBlocks calls := by
          simp [calledBlocks, hblock, blockCall]
        rw [hone]
        simp [blockCall, hdata, TelnetState.inBlock]

/-! ### The life of a Telnet slot -/

variable {ρ : Type} {setup : Setup} {env : Surroundings ρ} {depth : Nat} {w w' : World ρ}

/-- A text slot with Telnet. -/
structure TelnetSlot (comm : CommAbstract) : Prop extends TextSlot comm where
  enableTelnet : comm.flags.enableTelnet = true

/-- The subnegotiation hooks entered so far, each with the parser state at its entry. -/
def World.subnegEntries (w : World ρ) : List (HookCall × TelnetState) :=
  (w.entries.filter fun e => e.1.hookType = .telnetSubneg).map fun e =>
    (e.1, e.2.flags.telnetState)

/-- Work between two reads: whatever else happens to the slot, it stays a Telnet slot with one
buffer, the parser's state is left alone, and no subnegotiation is dispatched. -/
structure World.OtherWork (w w' : World ρ) : Prop where
  telnetSlot : TelnetSlot w'.comm
  telnetState : w'.comm.flags.telnetState = w.comm.flags.telnetState
  oneBuffer : ∃ buf, OneBuffer w'.comm buf
  subnegEntries : w'.subnegEntries = w.subnegEntries

/-- A read: the buffer and the parser state it meets, and its bytes. -/
structure TelnetRead where
  buf : Cells
  state : TelnetState
  src : Bytes

/-- The pieces of a read that the parser calls of its refill consume. -/
def TelnetRead.pieces (read : TelnetRead) : List Bytes :=
  callPieces read.src (telnetRefill read.src.length read.buf read.state read.src).calls

/-- The bytes of reads, one behind the other. -/
def telnetStream (reads : List TelnetRead) : Bytes := reads.flatMap TelnetRead.src

/-- The life of a Telnet slot: reads that fit, and other work between them. -/
inductive TelnetRun (setup : Setup) (env : Surroundings ρ) (depth : Nat) (w : World ρ) :
    List TelnetRead → World ρ → Prop where
  | start : TelnetRun setup env depth w [] w
  | read {reads : List TelnetRead} {w₁ w₂ : World ρ} {buf : Cells}
      {src : Bytes} {accepted : Bool} (hrun : TelnetRun setup env depth w reads w₁)
      (hbuf : OneBuffer w₁.comm buf)
      (hfit : fitsBuffer telnetTransducer w₁.comm.flags.telnetState buf.data.length src)
      (heval : (refillInboundBuffersFromSrc setup src).eval (slotHandler setup env (depth + 1)) w₁
        = some (accepted, w₂)) :
      TelnetRun setup env depth w (reads ++ [⟨buf, w₁.comm.flags.telnetState, src⟩]) w₂
  | other {reads : List TelnetRead} {w₁ w₂ : World ρ} (hrun : TelnetRun setup env depth w reads w₁)
      (hwork : w₁.OtherWork w₂) : TelnetRun setup env depth w reads w₂

/-- The hooks a refill enters are those for what its parser calls collected. -/
theorem World.Refilled.subnegEntries {sameMode : Prop} {r : TelnetRefill}
    (h : w.Refilled setup sameMode r w') (hreg : setup.registered .telnetSubneg = true) :
    w'.subnegEntries = w.subnegEntries ++ calledBlocks r.calls := by
  obtain ⟨entered, hentries, hcalls⟩ := h.entries
  have hblocks : subnegCalls setup r.calls = calledBlocks r.calls := by
    rw [subnegCalls, if_pos hreg, calledBlocks]
    congr 1
    funext call
    cases call.neg.suboptBuf <;> rfl
  have hall : entered.filter (fun e => e.1.hookType = .telnetSubneg) = entered := by
    rw [List.filter_eq_self]
    intro e he
    have hmem : (e.1, e.2.flags.telnetState) ∈ calledBlocks r.calls :=
      hblocks ▸ hcalls ▸ List.mem_map_of_mem he
    obtain ⟨call, _, hcall⟩ := List.mem_filterMap.mp hmem
    cases hblock : call.neg.suboptBuf with
    | nil => simp [hblock, blockCall] at hcall
    | cons option payload =>
      simp only [hblock, blockCall, Option.map_some, Option.some.injEq, Prod.mk.injEq] at hcall
      rw [← hcall.1]
      rfl
  rw [World.subnegEntries, World.subnegEntries, hentries, List.filter_append, hall,
    List.map_append, hcalls, hblocks]

/-- The refill of a read in which no dispatch is refused. -/
def TelnetRead.refill (read : TelnetRead) : TelnetRefill :=
  telnetRefill read.src.length read.buf read.state read.src

/-- The read fits into the buffer. -/
def TelnetRead.Fits (read : TelnetRead) : Prop :=
  fitsBuffer telnetTransducer read.state read.buf.data.length read.src

theorem telnetStream_concat (reads : List TelnetRead) (read : TelnetRead) :
    telnetStream (reads ++ [read]) = telnetStream reads ++ read.src := by
  rw [telnetStream, List.flatMap_append, List.flatMap_singleton]
  rfl

variable {reads : List TelnetRead}

section

variable (hcalls : CallsOn .data calls (reads.flatMap TelnetRead.pieces))

include hcalls

variable (hpieces : (reads.flatMap TelnetRead.pieces).flatten = telnetStream reads)

include hpieces

/-- The calls of a further read that fits follow those of the reads before it. -/
theorem CallsOn.read (read : TelnetRead)
    (hstate : read.state = (telnetTransducer.run .data (telnetStream reads)).1) (hfit : read.Fits) :
    CallsOn .data (calls ++ read.refill.calls) ((reads ++ [read]).flatMap TelnetRead.pieces) ∧
      ((reads ++ [read]).flatMap TelnetRead.pieces).flatten = telnetStream (reads ++ [read]) ∧
      read.refill.state = (telnetTransducer.run .data (telnetStream (reads ++ [read]))).1 := by
  obtain ⟨hleft, hdone⟩ := telnetRefill_left read.src.length read.buf read.state read.src
    (Nat.le_refl _)
  have hempty := hleft.mpr hfit
  have hread := flatten_callPieces read.src.length read.buf read.state read.src hempty
  rw [List.flatMap_append, List.flatMap_singleton, telnetStream_concat]
  refine ⟨?_, ?_, ?_⟩
  · apply hcalls.append
    rw [hpieces, ← hstate]
    exact telnetRefill_callsOn read.src.length read.buf read.state read.src
  · rw [List.flatten_append, hpieces, TelnetRead.pieces, hread]
  · rw [Transducer.run_append, ← hstate]
    exact (hdone hempty).2

/-- Calls that cut no block collect the blocks of the stream. -/
theorem calledBlocks_of_uncut (hshort : ∀ block ∈ completedBlocks (telnetStream reads),
      block.length ≤ TelnetNegotiation.suboptCapacity)
    (huncut : ¬ CutsBlock .data (reads.flatMap TelnetRead.pieces)) :
    (calledBlocks calls).map Prod.fst = (completedBlocks (telnetStream reads)).filterMap blockCall := by
  rw [completedBlocks, ← hpieces] at hshort ⊢
  exact ((calledBlocks_eq_iff hcalls hshort).mpr huncut).2

end

/-- What the parser calls of a life did. -/
structure CallsMade (reads : List TelnetRead) (calls : List TelnetResult) (w : World ρ) : Prop where
  callsOn : CallsOn .data calls (reads.flatMap TelnetRead.pieces)
  pieces : (reads.flatMap TelnetRead.pieces).flatten = telnetStream reads
  entries : w.subnegEntries = calledBlocks calls
  telnetSlot : TelnetSlot w.comm
  telnetState : w.comm.flags.telnetState = (telnetTransducer.run .data (telnetStream reads)).1
  oneBuffer : ∃ buf, OneBuffer w.comm buf

/-- A life of a Telnet slot is a sequence of parser calls on its stream. -/
theorem TelnetRun.callsMade (henv : env.KeepsInput False) (hstrict : setup.relaxed = false)
    (hreg : setup.registered .telnetSubneg = true) (hslot : TelnetSlot w.comm)
    (hstate : w.comm.flags.telnetState = .data) (hbuf : ∃ buf, OneBuffer w.comm buf)
    (hfresh : w.subnegEntries = []) (hrun : TelnetRun setup env depth w reads w') :
    ∃ calls, CallsMade reads calls w' := by
  induction hrun with
  | start => exact ⟨[], .nil _, rfl, hfresh, hslot, hstate, hbuf⟩
  | @other reads w₁ w₂ _ hwork ih =>
    obtain ⟨calls, h⟩ := ih
    exact ⟨calls, h.callsOn, h.pieces, hwork.subnegEntries.trans h.entries, hwork.telnetSlot,
      hwork.telnetState.trans h.telnetState, hwork.oneBuffer⟩
  | @read reads w₁ w₂ buf src accepted _ hbuf₁ hfit heval ih =>
    obtain ⟨calls, h⟩ := ih
    obtain ⟨_, hrefilled⟩ := (refill_telnet henv hstrict w₁ h.telnetSlot.toTextSlot
      h.telnetSlot.enableTelnet buf hbuf₁ src).of_eval heval
    obtain ⟨hcallsOn, hpieces, hstate₂⟩ :=
      h.callsOn.read h.pieces ⟨buf, w₁.comm.flags.telnetState, src⟩ h.telnetState hfit
    have hin := hrefilled.input
    refine ⟨_, hcallsOn, hpieces, ?_,
      ⟨hin.textSlot, hin.enableTelnet.trans h.telnetSlot.enableTelnet⟩,
      hin.telnetState.trans hstate₂, ⟨_, .inl hin.inbound⟩⟩
    rw [hrefilled.subnegEntries hreg, h.entries, calledBlocks_append]
    rfl

/-- A read that fits returns, and goes on with the life of the slot. -/
theorem TelnetRun.extend (henv : env.KeepsInput False) (hstrict : setup.relaxed = false)
    (hreg : setup.registered .telnetSubneg = true) (hrun : TelnetRun setup env depth w reads w')
    (hslot : TelnetSlot w'.comm) {buf : Cells} (hbuf : OneBuffer w'.comm buf)
    (hstate : w'.comm.flags.telnetState = state) {src : Bytes}
    (hfit : fitsBuffer telnetTransducer state buf.data.length src) {r : TelnetRefill}
    (hr : telnetRefill src.length buf state src = r) :
    ∃ w'', TelnetRun setup env depth w (reads ++ [⟨buf, state, src⟩]) w'' ∧
      TelnetSlot w''.comm ∧ OneBuffer w''.comm r.buf ∧ w''.comm.flags.telnetState = r.state ∧
      w''.subnegEntries = w'.subnegEntries ++ calledBlocks r.calls := by
  subst hstate hr
  obtain ⟨_, w'', heval, _, hrefilled⟩ : Returns (slotHandler setup env (depth + 1))
      (refillInboundBuffersFromSrc setup src) w' _ :=
    refill_telnet henv hstrict w' hslot.toTextSlot hslot.enableTelnet buf hbuf src
  have hin := hrefilled.input
  exact ⟨w'', hrun.read hbuf hfit heval,
    ⟨hin.textSlot, hin.enableTelnet.trans hslot.enableTelnet⟩, .inl hin.inbound, hin.telnetState,
    hrefilled.subnegEntries hreg⟩

/-- Subnegotiations of a strict-mode Telnet slot and the cuts of its stream. In every life of the slot
whose reads fit into the buffer, a further read that fits returns; and the hook has been entered for
exactly the completed blocks, each behind its IAC SE, if and only if no read, and no parser call
within one, ended inside a block with bytes in it. -/
theorem subnegotiations_survive_iff_uncut (setup : Setup) (env : Surroundings ρ) (depth : Nat)
    (w w' : World ρ) (reads : List TelnetRead) (henv : env.KeepsInput False)
    (hstrict : setup.relaxed = false) (hreg : setup.registered .telnetSubneg = true)
    (hslot : TelnetSlot w.comm) (hstate : w.comm.flags.telnetState = .data)
    (hbuf : ∃ buf, OneBuffer w.comm buf) (hfresh : w.subnegEntries = [])
    (hrun : TelnetRun setup env depth w reads w')
    (hshort : ∀ block ∈ completedBlocks (telnetStream reads),
      block.length ≤ TelnetNegotiation.suboptCapacity) :
    (∃ buf, OneBuffer w'.comm buf ∧ ∀ src,
      fitsBuffer telnetTransducer w'.comm.flags.telnetState buf.data.length src →
      ∃ w'', TelnetRun setup env depth w
        (reads ++ [⟨buf, w'.comm.flags.telnetState, src⟩]) w'') ∧
    ((∀ entry ∈ w'.subnegEntries, entry.2.inBlock = false) ∧
        w'.subnegEntries.map Prod.fst
          = (completedBlocks (telnetStream reads)).filterMap blockCall
      ↔ ¬ CutsBlock .data (reads.flatMap TelnetRead.pieces)) := by
  obtain ⟨calls, h⟩ := hrun.callsMade henv hstrict hreg hslot hstate hbuf hfresh
  obtain ⟨buf, hbuf'⟩ := h.oneBuffer
  refine ⟨⟨buf, hbuf', fun src hfit => ?_⟩, ?_⟩
  · obtain ⟨w'', hrun', _⟩ := hrun.extend henv hstrict hreg h.telnetSlot hbuf' rfl hfit rfl
    exact ⟨w'', hrun'⟩
  · rw [h.entries, completedBlocks, ← h.pieces]
    refine calledBlocks_eq_iff h.callsOn ?_
    rwa [h.pieces]

/-! ### A block in two reads -/

theorem chatWorld_telnetSlot (reads : List ReadAnswer) : TelnetSlot (chatWorld true reads).comm :=
  ⟨(chatWorld_lineSlot true reads).toTextSlot, rfl⟩

/-- Two short reads of a new Telnet connection. -/
theorem exists_chat_run (first second : Bytes) {r r' : TelnetRefill}
    (hr : telnetRefill first.length .empty .data first = r)
    (hr' : telnetRefill second.length r.buf r.state second = r')
    (hfit : fitsBuffer telnetTransducer .data 0 first)
    (hfit' : fitsBuffer telnetTransducer r.state r.buf.data.length second) :
    ∃ w', TelnetRun chatSetup chatSurroundings 0 (chatWorld true [])
        [⟨.empty, .data, first⟩, ⟨r.buf, r.state, second⟩] w' ∧
      w'.subnegEntries = calledBlocks (r.calls ++ r'.calls) := by
  have henv := chatSurroundings_keepsInput False
  have hstart : TelnetRun chatSetup chatSurroundings 0 (chatWorld true []) [] (chatWorld true []) :=
    .start
  obtain ⟨w₁, hrun₁, hslot₁, hbuf₁, hstate₁, hentries₁⟩ :=
    hstart.extend henv rfl rfl (chatWorld_telnetSlot []) (.inr ⟨rfl, rfl⟩) rfl hfit hr
  obtain ⟨w₂, hrun₂, _, _, _, hentries₂⟩ :=
    hrun₁.extend henv rfl rfl hslot₁ hbuf₁ hstate₁ hfit' hr'
  refine ⟨w₂, hrun₂, ?_⟩
  rw [hentries₂, hentries₁, calledBlocks_append]
  rfl

/-- The block `IAC SB 31 1 2 IAC SE`, cut behind the 1: each half is dispatched as a block, the first
one while the parser is still inside. -/
theorem cut_block_is_dispatched_twice :
    ∃ w' reads, TelnetRun chatSetup chatSurroundings 0 (chatWorld true []) reads w' ∧
      reads.map TelnetRead.src = [[255, 250, 31, 1], [2, 255, 240]] ∧
      completedBlocks (telnetStream reads) = [[31, 1, 2]] ∧
      w'.subnegEntries
        = [(.telnetSubneg 31 [1], .subneg), (.telnetSubneg 2 [], .data)] := by
  obtain ⟨w', hrun, hentries⟩ := exists_chat_run [255, 250, 31, 1] [2, 255, 240] rfl rfl
    (.inr (by decide)) (.inr (by decide))
  exact ⟨w', _, hrun, rfl, by decide, hentries.trans (by decide +kernel)⟩

/-- A cut directly behind `IAC SB` does no harm. -/
theorem subnegotiations_survive_iff_uncut_windowSize :
    ∃ w' reads, TelnetRun chatSetup chatSurroundings 0 (chatWorld true []) reads w' ∧
      reads.map TelnetRead.src = [[255, 250], [31, 1, 2, 255, 240]] ∧
      w'.subnegEntries.map Prod.fst = [.telnetSubneg 31 [1, 2]] := by
  obtain ⟨w', hrun, _⟩ := exists_chat_run [255, 250] [31, 1, 2, 255, 240] rfl rfl
    (.inr (by decide)) (.inr (by decide))
  have huncut : ¬ CutsBlock .data [[255, 250], [31, 1, 2, 255, 240]] := by
    rw [cutsBlock_cons rfl, cutsBlock_cons rfl]
    exact not_cutsBlock_nil _
  have hsurvive := subnegotiations_survive_iff_uncut chatSetup chatSurroundings 0
    (chatWorld true []) w' _ (chatSurroundings_keepsInput False) rfl rfl (chatWorld_telnetSlot [])
    rfl ⟨.empty, .inr ⟨rfl, rfl⟩⟩ rfl hrun (by decide)
  exact ⟨w', _, hrun, rfl, (hsurvive.2.mpr huncut).2⟩

end Mudmux.Comm
