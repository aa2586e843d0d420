import Mudmux.Proofs.Subnegotiation

/-!
# `Mudmux.Proofs.BusySubnegotiation`: Telnet input of a slot that may be busy

In relaxed mode a subnegotiation is handed to the scheduler, which refuses it with
`MUDMUX_DISPATCH_QUEUE_FULL` while an execution of the slot is active. The fill loop then marks the
input deferred and goes on, with `telnet_parsing_paused` set: the refused block is not offered
again, and the rest of the read is copied to the buffer as it is.

`Surroundings.logging` notes every dispatch with the scheduler's answer, whatever the scheduler
does; so the surroundings stand for every timing of hook completions. `RelaxedRun` is the life of a
Telnet slot in relaxed mode, with the application bytes that its refills placed in the buffer. As
long as no dispatch is refused these are what the stream decodes to. The first read with a refusal
loses a block.
-/

set_option autoImplicit false

namespace Mudmux.Comm

open Mudmux.Lib
open Mudmux.Lib.Program (Returns returns_done effect)

/-! ### The log of dispatches -/

variable {ρ : Type}

/-- Dispatched executions, each with the scheduler's answer. -/
abbrev DispatchLog := List (HookCall × DispatchResult)

/-- What an effect adds to the log in surroundings whose state has moved to `outside`. -/
def Surroundings.logged (env : Surroundings ρ) (outside : ρ) :
    {β : Type} → SlotEffect β → DispatchLog
  | _, .enqueue call _ => [(call, env.enqueue call outside)]
  | _, _ => []

/-- The same surroundings with a log of what is dispatched in relaxed mode. -/
def Surroundings.logging (env : Surroundings ρ) : Surroundings (ρ × DispatchLog) where
  foreign e comm outside :=
    let r := env.foreign e comm outside.1
    (r.1, r.2, outside.2 ++ env.logged r.2 e)
  hookReturns call outside := env.hookReturns call outside.1
  slotBusy outside := env.slotBusy outside.1
  enqueue call outside := env.enqueue call outside.1
  writes outside := env.writes outside.1
  sslHandshake outside := env.sslHandshake outside.1
  sslRead outside := env.sslRead outside.1

/-- The worker pool is running: a dispatch is accepted or refused. -/
def Surroundings.PoolRunning (env : Surroundings ρ) : Prop :=
  ∀ call outside, env.enqueue call outside = .queued ∨ env.enqueue call outside = .queueFull

/-- The subnegotiations dispatched so far. -/
def World.subnegDispatches (w : World (ρ × DispatchLog)) : DispatchLog :=
  w.outside.2.filter fun d => d.1.hookType = .telnetSubneg

/-- The subnegotiations the scheduler has accepted, in order. -/
def World.subnegAccepted (w : World (ρ × DispatchLog)) : List HookCall :=
  (w.subnegDispatches.filter fun d => d.2 = .queued).map Prod.fst

/-- Some subnegotiation was refused because an execution of the slot was active. -/
def World.Refused (w : World (ρ × DispatchLog)) : Prop :=
  ∃ d ∈ w.subnegDispatches, d.2 = .queueFull

/-- What a parser call adds to the log: nothing, if it has collected nothing. -/
def subnegDispatch (block : Bytes) (result : DispatchResult) : DispatchLog :=
  ((blockCall block).map fun call => (call, result)).toList

variable {w w' : World (ρ × DispatchLog)} {buf : Cells} {log : DispatchLog}

section Refill

variable {setup : Setup} {env : Surroundings ρ} {depth : Nat}

theorem returns_enqueue {α : Type} {call : HookCall} {completion : Completion}
    (hpool : env.PoolRunning) {k : DispatchResult → Code α} {Q : α → World (ρ × DispatchLog) → Prop}
    (hk : ∀ result outside, (result = .queued ∨ result = .queueFull) →
      Returns (slotHandler setup env.logging depth) (k result)
        { w with outside := (outside, w.outside.2 ++ [(call, result)]) } Q) :
    Returns (slotHandler setup env.logging depth) (.perform (.enqueue call completion) k) w Q := by
  obtain ⟨outside, houtside⟩ : ∃ outside,
      (env.foreign (.enqueue call completion) w.comm w.outside.1).2 = outside := ⟨_, rfl⟩
  have hresult := hpool call outside
  have hok : env.enqueue call outside ≠ .ok := by
    rcases hresult with h | h <;> simp [h]
  have hlogged : (env.logging.foreign (.enqueue call completion) w.comm w.outside).2
      = (outside, w.outside.2 ++ [(call, env.enqueue call outside)]) := by
    rw [← houtside]
    rfl
  exact (returns_enqueued hlogged hok).mpr (hk _ outside hresult)

variable (hrelaxed : setup.relaxed = true) (hreg : setup.registered .telnetSubneg = true)
  (hpool : env.PoolRunning)

include hrelaxed hreg hpool

/-- A dispatch in relaxed mode is logged with its answer. -/
theorem commDispatchTelnetSubnegotiation_relaxed (hslot : TextSlot w.comm) (neg : TelnetNegotiation) :
    Returns (slotHandler setup env.logging depth) (commDispatchTelnetSubnegotiation setup neg) w
      fun result w' => InputKept True w.comm w'.comm ∧
        (result = .queueFull → neg.suboptBuf ≠ []) ∧
        (neg.suboptBuf ≠ [] → result = .queued ∨ result = .queueFull) ∧
        w'.outside.2 = w.outside.2 ++ subnegDispatch neg.suboptBuf result := by
  rw [commDispatchTelnetSubnegotiation]
  cases hblock : neg.suboptBuf with
  | nil =>
    exact returns_done.mpr ⟨InputKept.refl hslot, by simp, by simp, (List.append_nil _).symm⟩
  | cons option payload =>
    dsimp only
    rw [hreg, Bool.not_true, if_neg Bool.false_ne_true, mudmuxExecutionDispatch, if_pos hrelaxed,
      Program.effect_bind]
    apply returns_enqueue hpool
    intro result outside hresult
    split
    · rw [returns_deferInbound (by exact hslot.live)]
      refine returns_done.mpr ⟨⟨{ hslot with }, rfl, rfl, rfl, rfl, rfl, fun _ => rfl⟩, by simp,
        fun _ => hresult, rfl⟩
    · exact returns_done.mpr ⟨InputKept.refl hslot, by simp, fun _ => hresult, rfl⟩

/-- What a refill in relaxed mode leaves, with `log` added to the dispatches, compared with the
refill `t` that the same bytes give when nothing is refused. -/
structure World.RelaxedRefill (t : TelnetRefill) (left : Bytes) (log : DispatchLog)
    (w w' : World (ρ × DispatchLog)) : Prop where
  telnetSlot : TelnetSlot w'.comm
  oneBuffer : ∃ buf, OneBuffer w'.comm buf
  dispatches : w'.outside.2 = w.outside.2 ++ log
  offered : log.map Prod.fst <+: (calledBlocks t.calls).map Prod.fst
  answers : ∀ d ∈ log, d.2 = .queued ∨ d.2 = .queueFull
  unrefused : (∀ d ∈ log, d.2 ≠ .queueFull) →
    log.map Prod.fst = (calledBlocks t.calls).map Prod.fst ∧ left = t.left ∧
      InputKept True (w.comm.refilled t.buf t.state) w'.comm

omit hrelaxed hreg hpool in
/-- No parser call was made. -/
theorem World.RelaxedRefill.of_buffer (hslot : TelnetSlot w.comm) (buf : Cells) (left : Bytes) :
    World.RelaxedRefill ⟨buf, w.comm.flags.telnetState, [], left⟩ left [] w (w.withBuffer buf) := by
  have htext : TextSlot (w.withBuffer buf).comm :=
    { hslot with }
  refine ⟨⟨htext, hslot.enableTelnet⟩, ⟨buf, .inl rfl⟩, (List.append_nil _).symm, ?_, nofun, ?_⟩
  · exact List.prefix_rfl
  · exact fun _ => ⟨rfl, rfl, htext, rfl, rfl, rfl, rfl, rfl, fun _ => rfl⟩

omit hrelaxed hreg hpool in
theorem World.RelaxedRefill.refl (hslot : TelnetSlot w.comm)
    (hbuf : w.comm.inbound = [⟨.data, buf⟩]) (left : Bytes) :
    World.RelaxedRefill ⟨buf, w.comm.flags.telnetState, [], left⟩ left [] w w := by
  have hrefill : World.RelaxedRefill ⟨buf, w.comm.flags.telnetState, [], left⟩ left [] w
      (w.withBuffer buf) := .of_buffer hslot buf left
  rwa [World.withBuffer_self hbuf] at hrefill

omit hrelaxed hreg hpool in
/-- The blocks of a call and of the calls behind it. -/
theorem calledBlocks_cons_fst (r : TelnetResult) (calls : List TelnetResult)
    (result : DispatchResult) :
    (calledBlocks (r :: calls)).map Prod.fst
      = (subnegDispatch r.neg.suboptBuf result).map Prod.fst
          ++ (calledBlocks calls).map Prod.fst := by
  cases hblock : r.neg.suboptBuf <;> simp [calledBlocks, subnegDispatch, blockCall, hblock]

omit hrelaxed hreg hpool in
/-- A call that is not refused came before. -/
theorem World.RelaxedRefill.after_call {w₁ : World (ρ × DispatchLog)} {t : TelnetRefill}
    {left : Bytes} (h : World.RelaxedRefill t left log w₁ w') {r : TelnetResult}
    {result : DispatchResult} {state : TelnetState}
    (hkept : InputKept True (w.comm.refilled buf state) w₁.comm)
    (hlog : w₁.outside.2 = w.outside.2 ++ subnegDispatch r.neg.suboptBuf result)
    (hresult : r.neg.suboptBuf ≠ [] → result = .queued) :
    World.RelaxedRefill { t with calls := r :: t.calls } left
      (subnegDispatch r.neg.suboptBuf result ++ log) w w' where
  telnetSlot := h.telnetSlot
  oneBuffer := h.oneBuffer
  dispatches := by rw [h.dispatches, hlog, List.append_assoc]
  offered := by
    rw [List.map_append, calledBlocks_cons_fst r t.calls result]
    exact (List.prefix_append_right_inj _).mpr h.offered
  answers := by
    intro d hd
    rcases List.mem_append.mp hd with hd | hd
    · cases hblock : r.neg.suboptBuf with
      | nil =>
        rw [hblock] at hd
        cases hd
      | cons option payload =>
        rw [hblock] at hd
        rw [List.mem_singleton.mp hd]
        exact .inl (hresult (by rw [hblock]; exact List.cons_ne_nil _ _))
    · exact h.answers d hd
  unrefused := by
    intro hclean
    obtain ⟨hall, hleft, hin⟩ := h.unrefused fun d hd => hclean d (List.mem_append_right _ hd)
    refine ⟨?_, hleft, hin.of_refilled hkept⟩
    rw [List.map_append, calledBlocks_cons_fst r t.calls result, hall]

/-- The fill loop of a Telnet slot in relaxed mode. -/
theorem refillLoop_relaxed (fuel : Nat) (w : World (ρ × DispatchLog)) (hslot : TelnetSlot w.comm)
    (buf : Cells) (hbuf : w.comm.inbound = [⟨.data, buf⟩]) (src : Bytes) (hfuel : src.length ≤ fuel) :
    Returns (slotHandler setup env.logging depth) (refillLoop setup fuel 0 src false) w
      fun left w' => ∃ log,
        World.RelaxedRefill (telnetRefill fuel buf w.comm.flags.telnetState src) left log w w' := by
  induction fuel generalizing w buf src with
  | zero => exact returns_done.mpr ⟨[], .refl hslot hbuf src⟩
  | succ fuel ih =>
    rw [refillLoop, telnetRefill]
    split
    case isTrue => exact returns_done.mpr ⟨[], .refl hslot hbuf []⟩
    case isFalse hsome =>
    have hsrc : src ≠ [] := fun h => hsome (by rw [h]; rfl)
    split
    case isTrue hfull =>
      rw [refillStep, returns_commDeref hslot.live]
      simp only [hbuf, seekData_single, List.getElem?_cons_zero, if_pos hfull, returns_setComm]
      exact returns_done.mpr ⟨[], .of_buffer hslot _ src⟩
    case isFalse hroom =>
      generalize hr : refillCall buf w.comm.flags.telnetState src = r
      have hshort : (src.drop r.consumed).length ≤ fuel := by
        have hpos := (refillCall_consumed buf w.comm.flags.telnetState src hsrc hroom).1
        rw [hr] at hpos
        rw [List.length_drop]
        omega
      apply refillStep_parses hslot.toTextSlot hslot.enableTelnet hbuf hroom hr
        (fun w₁ hslot₁ => commDispatchTelnetSubnegotiation_relaxed hrelaxed hreg hpool hslot₁ r.neg)
      rintro result comm comm' w₂ hstate ⟨hfull, hanswer, hlog⟩ hkept
      have htelnet : comm'.flags.enableTelnet = true :=
        hkept.enableTelnet.trans hslot.enableTelnet
      by_cases hrefused : result = .queueFull
      · -- the block is gone, and the rest of the bytes is copied
        subst hrefused
        have hcopies : parsesTelnet comm'.flags true = false := by simp [parsesTelnet]
        rw [decide_eq_true rfl]
        apply (refillLoop_copies fuel { w₂ with comm := comm' } hkept.textSlot.live hcopies _
          hkept.inbound _ hshort).mono
        rintro left _ ⟨-, buf', rfl, -⟩
        obtain ⟨option, payload, hblock⟩ := List.exists_cons_of_ne_nil (hfull rfl)
        refine ⟨subnegDispatch r.neg.suboptBuf .queueFull, ⟨{ hkept.textSlot with }, htelnet⟩, ⟨buf', .inl rfl⟩, hlog, ?_, ?_, ?_⟩
        · rw [calledBlocks_cons_fst r _ .queueFull]
          exact List.prefix_append _ _
        · intro d hd
          rw [hblock] at hd
          rw [List.mem_singleton.mp hd]
          exact .inr rfl
        · intro hclean
          rw [hblock] at hclean
          exact absurd rfl (hclean _ (List.mem_singleton_self _))
      · rw [decide_eq_false hrefused]
        apply (ih { w₂ with comm := comm' } ⟨hkept.textSlot, htelnet⟩ _ hkept.inbound _
          hshort).mono
        rintro left w' ⟨log, h⟩
        have hstate' : comm'.flags.telnetState = r.state := hkept.telnetState
        rw [hstate'] at h
        exact ⟨_, h.after_call hkept hlog fun hblock => (hanswer hblock).resolve_right hrefused⟩

/-- `_refill_inbound_buffers_from_src` on a Telnet slot in relaxed mode. -/
theorem refill_relaxed (w : World (ρ × DispatchLog)) (hslot : TelnetSlot w.comm)
    (buf : Cells) (hbuf : OneBuffer w.comm buf) (src : Bytes) :
    Returns (slotHandler setup env.logging depth) (refillInboundBuffersFromSrc setup src) w
      fun accepted w' => ∃ left log, accepted = left.isEmpty ∧
        World.RelaxedRefill (telnetRefill src.length buf w.comm.flags.telnetState src) left log w
          w' := by
  rw [refillInboundBuffersFromSrc, returns_commGuard hslot.live]
  simp only [hbuf.chain, returns_setComm, refillPosition]
  have hslot' : TelnetSlot (w.withBuffer buf).comm :=
    { hslot with }
  apply (refillLoop_relaxed hrelaxed hreg hpool src.length (w.withBuffer buf) hslot' buf rfl src
    (Nat.le_refl _)).bind
  rintro left w' ⟨log, h⟩
  rw [returns_commDeref h.telnetSlot.live]
  simp only [h.telnetSlot.noWebsocket, Bool.false_and, Bool.false_eq_true, if_false]
  refine returns_done.mpr ⟨left, log, rfl, h.telnetSlot, h.oneBuffer, h.dispatches, h.offered,
    h.answers, ?_⟩
  intro hclean
  obtain ⟨hall, hleft, hin⟩ := h.unrefused hclean
  exact ⟨hall, hleft, hin.textSlot, hin.inbound, hin.ssl, hin.enableTelnet, hin.telnetState,
    hin.awaitingHook, hin.lineInput⟩

end Refill

/-! ### The life of a Telnet slot in relaxed mode -/

/-- Work between two reads: the parser's state is left alone, and no subnegotiation is
dispatched. -/
structure World.RelaxedWork (w w' : World (ρ × DispatchLog)) : Prop where
  telnetSlot : TelnetSlot w'.comm
  telnetState : w'.comm.flags.telnetState = w.comm.flags.telnetState
  oneBuffer : ∃ buf, OneBuffer w'.comm buf
  subnegDispatches : w'.subnegDispatches = w.subnegDispatches

/-- The life of a Telnet slot: reads that would fit, other work between them, and the bytes that the
reads have placed in the inbound buffer, one behind the other. -/
inductive RelaxedRun (setup : Setup) (env : Surroundings ρ) (depth : Nat)
    (w : World (ρ × DispatchLog)) :
    List TelnetRead → Bytes → World (ρ × DispatchLog) → Prop where
  | start : RelaxedRun setup env depth w [] [] w
  | read {reads : List TelnetRead} {placed : Bytes} {w₁ w₂ : World (ρ × DispatchLog)}
      {buf buf' : Cells} {src : Bytes} {accepted : Bool}
      (hrun : RelaxedRun setup env depth w reads placed w₁) (hbuf : OneBuffer w₁.comm buf)
      (hfit : fitsBuffer telnetTransducer w₁.comm.flags.telnetState buf.data.length src)
      (heval : (refillInboundBuffersFromSrc setup src).eval (slotHandler setup env.logging depth) w₁
        = some (accepted, w₂))
      (hbuf' : OneBuffer w₂.comm buf') :
      RelaxedRun setup env depth w (reads ++ [⟨buf, w₁.comm.flags.telnetState, src⟩])
        (placed ++ buf'.data.drop buf.data.length) w₂
  | other {reads : List TelnetRead} {placed : Bytes} {w₁ w₂ : World (ρ × DispatchLog)}
      (hrun : RelaxedRun setup env depth w reads placed w₁) (hwork : w₁.RelaxedWork w₂) :
      RelaxedRun setup env depth w reads placed w₂

/-- What the parser calls of a life without refusals did. -/
structure CallsAccepted (reads : List TelnetRead) (placed : Bytes) (calls : List TelnetResult)
    (w : World (ρ × DispatchLog)) : Prop where
  callsOn : CallsOn .data calls (reads.flatMap TelnetRead.pieces)
  pieces : (reads.flatMap TelnetRead.pieces).flatten = telnetStream reads
  dispatches : w.subnegDispatches.map Prod.fst = (calledBlocks calls).map Prod.fst
  telnetState : w.comm.flags.telnetState = (telnetTransducer.run .data (telnetStream reads)).1
  placed : placed = (telnetTransducer.run .data (telnetStream reads)).2

/-- A slot stays a Telnet slot with one buffer and a log of answers, refusals or not. -/
structure RelaxedLife (reads : List TelnetRead) (placed : Bytes) (w : World (ρ × DispatchLog)) :
    Prop where
  telnetSlot : TelnetSlot w.comm
  oneBuffer : ∃ buf, OneBuffer w.comm buf
  answers : ∀ d ∈ w.subnegDispatches, d.2 = .queued ∨ d.2 = .queueFull
  accepted : ¬ w.Refused → ∃ calls, CallsAccepted reads placed calls w

theorem hookType_of_mem_calledBlocks {calls : List TelnetResult} {call : HookCall}
    (h : call ∈ (calledBlocks calls).map Prod.fst) : call.hookType = .telnetSubneg := by
  obtain ⟨called, hcalled, rfl⟩ := List.mem_map.mp h
  obtain ⟨r, _, hr⟩ := List.mem_filterMap.mp hcalled
  cases hblock : r.neg.suboptBuf with
  | nil => simp [hblock, blockCall] at hr
  | cons option payload =>
    simp only [hblock, blockCall, Option.map_some, Option.some.injEq] at hr
    rw [← hr]
    rfl

/-- The log of a refill has subnegotiations only. -/
theorem World.RelaxedRefill.subnegDispatches {t : TelnetRefill} {left : Bytes}
    (h : World.RelaxedRefill t left log w w') :
    w'.subnegDispatches = w.subnegDispatches ++ log := by
  have hall : log.filter (fun d => d.1.hookType = .telnetSubneg) = log := by
    rw [List.filter_eq_self]
    intro d hd
    have hoffered := h.offered.subset (List.mem_map_of_mem hd)
    rw [hookType_of_mem_calledBlocks hoffered]
    rfl
  rw [World.subnegDispatches, h.dispatches, List.filter_append, hall]
  rfl

theorem World.Refused.append (hlog : w'.subnegDispatches = w.subnegDispatches ++ log) :
    w'.Refused ↔ w.Refused ∨ ∃ d ∈ log, d.2 = .queueFull := by
  simp only [World.Refused, hlog, List.mem_append, or_and_right, exists_or]

/-- A buffer with bytes in it is the slot's only one. -/
theorem OneBuffer.unique {comm : CommAbstract} {buf' : Cells} (h : OneBuffer comm buf')
    (hbuf : comm.inbound = [⟨.data, buf⟩]) : buf' = buf := by
  rcases h with h | ⟨h, _⟩
  · rw [hbuf] at h
    exact (InboundBuffer.mk.inj (List.singleton_inj.mp h)).2.symm
  · rw [hbuf] at h
    cases h

section Life

variable {setup : Setup} {env : Surroundings ρ} {depth : Nat}
  {reads : List TelnetRead} {placed : Bytes}
  (hrelaxed : setup.relaxed = true) (hreg : setup.registered .telnetSubneg = true)
  (hpool : env.PoolRunning) (hslot : TelnetSlot w.comm)
  (hstate : w.comm.flags.telnetState = .data) (hbuf : ∃ buf, OneBuffer w.comm buf)
  (hfresh : w.subnegDispatches = [])

include hrelaxed hreg hpool hslot hstate hbuf hfresh

theorem RelaxedRun.life (hrun : RelaxedRun setup env depth w reads placed w') :
    RelaxedLife reads placed w' := by
  induction hrun with
  | start =>
    refine ⟨hslot, hbuf, ?_, fun _ => ⟨[], .nil _, rfl, ?_, hstate, rfl⟩⟩
    · rw [hfresh]
      nofun
    · rw [hfresh]
      rfl
  | @other reads placed w₁ w₂ _ hwork ih =>
    have hsame : w₂.Refused ↔ w₁.Refused := by
      rw [World.Refused, World.Refused, hwork.subnegDispatches]
    refine ⟨hwork.telnetSlot, hwork.oneBuffer, ?_, ?_⟩
    · rw [hwork.subnegDispatches]
      exact ih.answers
    · intro hclean
      obtain ⟨calls, h⟩ := ih.accepted (mt hsame.mpr hclean)
      exact ⟨calls, h.callsOn, h.pieces, by rw [hwork.subnegDispatches]; exact h.dispatches,
        hwork.telnetState.trans h.telnetState, h.placed⟩
  | @read reads placed w₁ w₂ buf buf' src accepted _ hbuf₁ hfit heval hbuf₂ ih =>
    obtain ⟨left, log, _, h⟩ := (refill_relaxed hrelaxed hreg hpool w₁ ih.telnetSlot buf hbuf₁
      src).of_eval heval
    have hlog := h.subnegDispatches
    refine ⟨h.telnetSlot, h.oneBuffer, ?_, ?_⟩
    · intro d hd
      rw [hlog] at hd
      exact (List.mem_append.mp hd).elim (ih.answers d) (h.answers d)
    · intro hclean
      rw [World.Refused.append hlog, not_or] at hclean
      obtain ⟨hclean₁, hcleanLog⟩ := hclean
      obtain ⟨calls, hcalls⟩ := ih.accepted hclean₁
      obtain ⟨hall, _, hin⟩ := h.unrefused fun d hd hfull => hcleanLog ⟨d, hd, hfull⟩
      obtain ⟨hcallsOn, hpieces, hstate₂⟩ :=
        hcalls.callsOn.read hcalls.pieces ⟨buf, w₁.comm.flags.telnetState, src⟩
          hcalls.telnetState hfit
      obtain ⟨hleft, hdone⟩ := telnetRefill_left src.length buf w₁.comm.flags.telnetState src
        (Nat.le_refl _)
      have hdata := (hdone (hleft.mpr hfit)).1
      refine ⟨_, hcallsOn, hpieces, ?_, hin.telnetState.trans hstate₂, ?_⟩
      · rw [hlog, List.map_append, hcalls.dispatches, hall, calledBlocks_append,
          List.map_append]
        rfl
      · -- the refill has appended what the read decodes to
        rw [hbuf₂.unique hin.inbound, hdata, List.drop_left, hcalls.placed, telnetStream_concat,
          Transducer.run_append, hcalls.telnetState]

omit hrelaxed hreg hpool hslot hstate hbuf hfresh in
/-- With nothing refused, everything that was dispatched is accepted. -/
theorem RelaxedLife.subnegAccepted_eq (h : RelaxedLife reads placed w) (hclean : ¬ w.Refused) :
    w.subnegAccepted = w.subnegDispatches.map Prod.fst := by
  have hall : w.subnegDispatches.filter (fun d => d.2 = .queued) = w.subnegDispatches := by
    rw [List.filter_eq_self]
    intro d hd
    rcases h.answers d hd with hqueued | hfull
    · exact decide_eq_true hqueued
    · exact absurd ⟨d, hd, hfull⟩ hclean
  rw [World.subnegAccepted, hall]

omit hrelaxed hreg hpool hslot hstate hbuf hfresh in
/-- A refused subnegotiation is missing among the accepted ones. -/
theorem World.Refused.length_lt (h : w.Refused) :
    w.subnegAccepted.length < w.subnegDispatches.length := by
  obtain ⟨d, hd, hfull⟩ := h
  rw [World.subnegAccepted, List.length_map, List.length_filter_lt_length_iff_exists]
  exact ⟨d, hd, by simp [hfull]⟩

end Life

/-- A read after which everything is as the stream says: the bytes placed are those it decodes to,
and the scheduler has accepted its completed blocks, each once and in order. -/
def StreamKept (reads : List TelnetRead) (placed : Bytes) (w : World (ρ × DispatchLog)) : Prop :=
  placed = (telnetTransducer.run .data (telnetStream reads)).2 ∧
  w.subnegAccepted = (completedBlocks (telnetStream reads)).filterMap blockCall

/-- The Telnet stream of a slot that may be busy, in relaxed mode and for every behaviour of the
scheduler. In a life in which no subnegotiation was refused the bytes placed in the inbound buffer
are what the stream decodes to. A further read that fits returns; and if neither it nor the reads
before it cut a block, then the stream is kept exactly if the scheduler refuses none of the
subnegotiations of that read. -/
theorem telnet_stream_kept_iff_unrefused (setup : Setup) (env : Surroundings ρ) (depth : Nat)
    (w w' : World (ρ × DispatchLog)) (reads : List TelnetRead) (placed : Bytes)
    (hrelaxed : setup.relaxed = true) (hreg : setup.registered .telnetSubneg = true)
    (hpool : env.PoolRunning) (hslot : TelnetSlot w.comm)
    (hstate : w.comm.flags.telnetState = .data) (hbuf : ∃ buf, OneBuffer w.comm buf)
    (hfresh : w.subnegDispatches = []) (hrun : RelaxedRun setup env depth w reads placed w')
    (hclean : ¬ w'.Refused) :
    placed = (telnetTransducer.run .data (telnetStream reads)).2 ∧
    ∃ buf, OneBuffer w'.comm buf ∧ ∀ read : TelnetRead,
      read.buf = buf → read.state = w'.comm.flags.telnetState → read.Fits →
      (∀ block ∈ completedBlocks (telnetStream (reads ++ [read])),
        block.length ≤ TelnetNegotiation.suboptCapacity) →
      ∃ accepted w'' buf'',
        (refillInboundBuffersFromSrc setup read.src).eval (slotHandler setup env.logging depth) w'
          = some (accepted, w'') ∧
        OneBuffer w''.comm buf'' ∧
        (¬ CutsBlock .data ((reads ++ [read]).flatMap TelnetRead.pieces) →
          (StreamKept (reads ++ [read]) (placed ++ buf''.data.drop buf.data.length) w''
            ↔ ¬ w''.Refused)) := by
  have hlife := hrun.life hrelaxed hreg hpool hslot hstate hbuf hfresh
  obtain ⟨calls, hcalls⟩ := hlife.accepted hclean
  obtain ⟨buf, hbuf'⟩ := hlife.oneBuffer
  refine ⟨hcalls.placed, buf, hbuf', ?_⟩
  rintro ⟨buf₁, state, src⟩ hreadBuf hreadState hfit hshort
  obtain rfl : buf₁ = buf := hreadBuf
  obtain rfl : state = w'.comm.flags.telnetState := hreadState
  have hrefill : Returns (slotHandler setup env.logging depth)
      (refillInboundBuffersFromSrc setup src) w' fun accepted w'' => ∃ left log,
        accepted = left.isEmpty ∧ World.RelaxedRefill
          (TelnetRead.refill ⟨buf₁, w'.comm.flags.telnetState, src⟩) left log w' w'' :=
    refill_relaxed hrelaxed hreg hpool w' hlife.telnetSlot buf₁ hbuf' src
  obtain ⟨accepted, w'', heval, left, log, _, h⟩ := hrefill
  obtain ⟨buf'', hbuf''⟩ := h.oneBuffer
  refine ⟨accepted, w'', buf'', heval, hbuf'', fun huncut => ?_⟩
  have hlog := h.subnegDispatches
  constructor
  · -- a refused block is missing among as many accepted ones as the stream has blocks
    rintro ⟨_, hblocks⟩ hrefused
    obtain ⟨hcallsOn, hpieces, _⟩ := hcalls.callsOn.read hcalls.pieces _ hcalls.telnetState hfit
    have hall := calledBlocks_of_uncut hcallsOn hpieces hshort huncut
    have hlength := hrefused.length_lt
    have hoffered := h.offered.length_le
    have hbefore := congrArg List.length hcalls.dispatches
    rw [hblocks, ← hall, hlog, List.length_append, List.length_map, calledBlocks_append,
      List.length_append] at hlength
    rw [List.length_map, List.length_map] at hoffered hbefore
    omega
  · intro hclean''
    have hrun'' := hrun.read hbuf' hfit heval hbuf''
    have hlife'' := hrun''.life hrelaxed hreg hpool hslot hstate hbuf hfresh
    obtain ⟨calls'', hcalls''⟩ := hlife''.accepted hclean''
    refine ⟨hcalls''.placed, ?_⟩
    rw [hlife''.subnegAccepted_eq hclean'', hcalls''.dispatches]
    exact calledBlocks_of_uncut hcalls''.callsOn hcalls''.pieces hshort huncut

/-! ### Two blocks in one read -/

def relaxedSetup : Setup := { chatSetup with relaxed := true }

/-- A scheduler whose slot is idle at first, and a hook that does not complete: the first dispatch
is accepted. -/
def slowHook : Surroundings Nat where
  foreign e comm dispatched :=
    match e with
    | .enqueue _ _ => (comm, dispatched + 1)
    | _ => (comm, dispatched)
  hookReturns _ _ := true
  slotBusy dispatched := 0 < dispatched
  enqueue _ dispatched := if dispatched ≤ 1 then .queued else .queueFull
  writes _ := []
  sslHandshake _ := .wantIo
  sslRead _ := ⟨[], true⟩

theorem slowHook_poolRunning : slowHook.PoolRunning := by
  intro call dispatched
  by_cases hfirst : dispatched ≤ 1
  · exact .inl (if_pos hfirst)
  · exact .inr (if_neg hfirst)

/-- A new Telnet connection in relaxed mode. -/
def relaxedWorld : World (Nat × DispatchLog) :=
  { comm := (chatWorld true []).comm, entries := [], reads := [], outside := (0, []) }

/-- The blocks `IAC SB 31 1 IAC SE` and `IAC SB 24 2 IAC SE`, then `IAC WILL 1` and `x`, in one
read. The second block comes while the hook of the first one is running: it is lost, and the option
command behind it lands among the application bytes. -/
theorem refused_block_is_lost :
    ((refillInboundBuffersFromSrc relaxedSetup
        [255, 250, 31, 1, 255, 240, 255, 250, 24, 2, 255, 240, 255, 251, 1, 120]).eval
        (slotHandler relaxedSetup slowHook.logging 0) relaxedWorld).map
        (fun r => (r.1, r.2.subnegAccepted, r.2.comm.inbound.map fun ibb => ibb.buf.data))
      = some (true, [.telnetSubneg 31 [1]], [[255, 251, 1, 120]]) ∧
    completedBlocks [255, 250, 31, 1, 255, 240, 255, 250, 24, 2, 255, 240, 255, 251, 1, 120]
      = [[31, 1], [24, 2]] ∧
    (telnetTransducer.run .data
      [255, 250, 31, 1, 255, 240, 255, 250, 24, 2, 255, 240, 255, 251, 1, 120]).2 = [120] := by
  decide +kernel

/-- One block and `x` in one read. -/
theorem telnet_stream_kept_iff_unrefused_windowSize :
    ∃ accepted w'' buf'',
      (refillInboundBuffersFromSrc relaxedSetup [255, 250, 31, 1, 255, 240, 120]).eval
        (slotHandler relaxedSetup slowHook.logging 0) relaxedWorld = some (accepted, w'') ∧
      OneBuffer w''.comm buf'' ∧
      StreamKept [⟨.empty, .data, [255, 250, 31, 1, 255, 240, 120]⟩] buf''.data w'' := by
  have hslot : TelnetSlot relaxedWorld.comm := chatWorld_telnetSlot []
  have hrefused : ¬ relaxedWorld.Refused := by
    rintro ⟨d, hd, _⟩
    cases hd
  obtain ⟨-, buf, hbuf, hnext⟩ := telnet_stream_kept_iff_unrefused relaxedSetup slowHook 0
    relaxedWorld relaxedWorld [] [] rfl rfl slowHook_poolRunning hslot rfl
    ⟨.empty, .inr ⟨rfl, rfl⟩⟩ rfl .start hrefused
  obtain rfl : buf = .empty := by
    rcases hbuf with hbuf | ⟨_, hempty⟩
    · cases hbuf
    · exact hempty
  obtain ⟨accepted, w'', buf'', heval, hbuf'', hkept⟩ :=
    hnext ⟨.empty, .data, [255, 250, 31, 1, 255, 240, 120]⟩ rfl rfl (.inr (by decide)) (by decide)
  have huncut : ¬ CutsBlock .data [[255, 250, 31, 1, 255, 240], [120]] := by
    rw [cutsBlock_cons rfl, cutsBlock_cons rfl]
    exact not_cutsBlock_nil _
  have hclean : ¬ w''.Refused := by
    have hlog : ((refillInboundBuffersFromSrc relaxedSetup
        [255, 250, 31, 1, 255, 240, 120]).eval (slotHandler relaxedSetup slowHook.logging 0)
        relaxedWorld).map (fun r => r.2.subnegDispatches)
        = some [(.telnetSubneg 31 [1], .queued)] := by decide +kernel
    rw [heval] at hlog
    rintro ⟨d, hd, hfull⟩
    rw [show w''.subnegDispatches = _ from Option.some.inj hlog, List.mem_singleton] at hd
    rw [hd] at hfull
    cases hfull
  exact ⟨accepted, w'', buf'', heval, hbuf'', (hkept huncut).mpr hclean⟩

end Mudmux.Comm
