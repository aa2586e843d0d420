import Mudmux.Proofs.MutualExclusion
import Mudmux.Proofs.ServerWp
import Mudmux.Server.InputTurns

/-!
# `Mudmux.Proofs.BusyInput`: input that is put off because the slot is busy

`comm_process_input` answers `COMM_PROCESS_DEFERRED` on a busy slot without setting `C_DEFERRED_INBOUND`.
It relies on the hook that has the slot: the connect, transport-ready and inbound hooks mark the input in
their completion, the other hooks do not.

`Marked` is what the callers have to establish: a busy slot has `C_DEFERRED_INBOUND` or `C_AWAITING_HOOK`.
Two of the three callers test the slot first and find it idle, so `Marked` holds there; it can be lost
between that test and the one in `comm_process_input`, to a hook without such a completion that takes the
idle slot. `HOOK_TELNET_SUBNEG` does so while the bytes are decoded (`subnegotiation_stalls_input`), and
`HOOK_MESSAGE_OUTBOUND`, which other threads queue without the lock of the slot table. In runs without
that the input is marked.
-/

set_option autoImplicit false

namespace Mudmux.Server

open Mudmux.Lib
open CallbackSystem
open Mudmux.Comm (CommAbstract SlotEffect Code StoreKind StoresTo HookCall ProcessResult)
open Mudmux.Execution (Point Gate discardsRequest takesTurn mudmuxExecutionSlotBusy)

variable {setup : Setup} {γ : Type} {observe : Observer γ}

/-! ### Conditions on the steps -/

/-- `C_DEFERRED_INBOUND` or `C_AWAITING_HOOK` is set. -/
def inputMarked (c : CommAbstract) : Bool := c.flags.deferredInbound || c.flags.awaitingHook

/-- A condition on the point of a thread that moves. -/
def State.movesWithin (s : State γ) (allowed : Point → Bool) : Move → Bool
  | .thread index _ => (s.threads[index]?).all allowed
  | .outbound => true

/-- A hook that is queued now is refused. -/
def State.full (setup : Setup) (s : State γ) : Bool :=
  s.scheduler.state.active && setup.scheduler.backlogCapacity ≤ s.scheduler.state.pending.length

/-- The hook takes the slot only where the input is marked, and neither `HOOK_TRANSPORT_READY` nor
`HOOK_DISCONNECT` is refused. -/
def State.effectMarks (setup : Setup) (s : State γ) : {β : Type} → SlotEffect β → Bool
  | _, .enqueue call _ =>
    (s.scheduler.state.active || inputMarked s.comm)
      && !((call = .transportReady || call = .disconnect) && s.full setup)
  | _, _ => true

/-- The work of a cancelled await discards no request of a later one. -/
def gateSteps : StepGuard γ where
  entry _ _ := true
  move s := s.movesWithin fun t => !discardsRequest s.scheduler t
  effect _ _ := true

/-- During a call of `comm_process_input`, moreover, no thread takes the idle slot for its hook, and the
hooks of the call itself take it only where the input is marked. -/
def inputSteps (setup : Setup) : StepGuard γ where
  entry _ _ := true
  move s := s.movesWithin fun t => !discardsRequest s.scheduler t && !takesTurn s.scheduler t
  effect s e := s.effectMarks setup e

/-- The condition on the turns. -/
def markGuard (setup : Setup) (observe : Observer γ) : (inputSystem setup observe).Guard where
  turn s _ l :=
    match l with
    | .queued _ => !mudmuxExecutionSlotBusy s.scheduler.state || inputMarked s.comm
    | _ => true
  code _ l :=
    match l with
    | .code _ => gateSteps.guard setup observe
    | _ => (inputSteps setup).guard setup observe

/-! ### The gate in the machine -/

/-- The scheduler sees the generation of the record, and the gate of the slot holds. -/
structure Gated (s : State γ) : Prop where
  synced : s.Synced
  gate : Gate s.scheduler.state (s.threads.map Point.tokens).sum

variable {rest : Multiset Point}

theorem tokens_of_cons {ts : List Point} {t : Point} (h : (ts : Multiset Point) = t ::ₘ rest) :
    (ts.map Point.tokens).sum = t.tokens + (rest.map Point.tokens).sum := by
  rw [← Multiset.sum_coe, ← Multiset.map_coe, h, Multiset.map_cons, Multiset.sum_cons]

theorem tokens_of_add {ts new : List Point}
    (h : (ts : Multiset Point) = (new : Multiset Point) + rest) :
    (ts.map Point.tokens).sum = (new.map Point.tokens).sum + (rest.map Point.tokens).sum := by
  rw [← Multiset.sum_coe, ← Multiset.map_coe, h, Multiset.map_add, Multiset.sum_add, Multiset.map_coe,
    Multiset.sum_coe]

variable {s s' : State γ}

/-- A step of a thread. -/
theorem Gated.thread {t : Point} {choice : Execution.Choice} {new : List Point} (h : Gated s)
    (hstep : Execution.step setup.scheduler s.scheduler t choice = some (s'.scheduler, new))
    (hthreads : (s.threads : Multiset Point) = t ::ₘ rest)
    (hthreads' : (s'.threads : Multiset Point) = (new : Multiset Point) + rest)
    (hcomm : s'.comm = s.comm) (hdiscard : discardsRequest s.scheduler t = false) : Gated s' := by
  have hgate := h.gate
  rw [tokens_of_cons hthreads] at hgate
  refine ⟨?_, ?_⟩
  · rw [State.Synced, hcomm, (generation_of_step hstep).1]
    exact h.synced
  · rw [tokens_of_add hthreads']
    exact Execution.gate_step (r := (s'.scheduler, new)) hgate hdiscard hstep

/-- A move keeps the gate, and the slot becomes busy only if a thread takes it. -/
theorem Gated.move {m : Move} (h : Gated s)
    (hdiscard : s.movesWithin (fun t => !discardsRequest s.scheduler t) m = true)
    (hmove : s.move setup observe m = some s') :
    Gated s' ∧ (s.movesWithin (fun t => !takesTurn s.scheduler t) m = true →
      mudmuxExecutionSlotBusy s'.scheduler.state = true →
      mudmuxExecutionSlotBusy s.scheduler.state = true) := by
  cases m with
  | thread index choice =>
    obtain ⟨t, new, rest, hget, -, hstep, hthreads, hthreads', hcomm, -⟩ := move_thread hmove
    simp only [State.movesWithin, hget, Option.all_some, Bool.not_eq_true'] at hdiscard ⊢
    refine ⟨h.thread hstep hthreads hthreads' hcomm hdiscard, fun htakes => ?_⟩
    have hgate := h.gate
    rw [tokens_of_cons hthreads] at hgate
    exact Execution.busy_of_step hgate htakes hstep
  | outbound =>
    obtain ⟨hcomm, -, ⟨dispatches, answers, hscheduler⟩, new, hthreads, hnew⟩ :=
      move_outbound hmove
    -- the new thread is in front of its critical section
    have htokens : (new.map Point.tokens).sum = 0 := by
      refine List.sum_eq_zero fun n hn => ?_
      obtain ⟨t, ht, rfl⟩ := List.mem_map.mp hn
      obtain ⟨execution, allowPending, rfl, -⟩ := hnew t ht
      rfl
    refine ⟨⟨?_, ?_⟩, fun _ hbusy => ?_⟩
    · rw [State.Synced, hcomm, hscheduler]
      exact h.synced
    · rw [hthreads, List.map_append, List.sum_append, htokens, hscheduler]
      exact h.gate
    · rwa [hscheduler] at hbusy

/-- A hook is queued. -/
theorem Gated.dispatch (h : Gated s) (call : HookCall) : Gated (s.dispatch setup call).2 := by
  have hgate := Execution.gate_enqueueSection setup.scheduler.backlogCapacity
    (s := { s.scheduler with dispatches := s.scheduler.dispatches + 1 })
    ⟨(Execution.mudmuxExecutionDispatch
      (hookExecution setup.scheduler.slot s.scheduler.dispatches call)).1, s.scheduler.generation⟩
    (Execution.mudmuxExecutionDispatch
      (hookExecution setup.scheduler.slot s.scheduler.dispatches call)).2.1 h.gate
  refine ⟨?_, ?_⟩
  · show (s.dispatch setup call).2.scheduler.generation = Comm.commAbstractGeneration s.comm
    rw [← h.synced]
    simp only [State.dispatch, Execution.enqueueSection]
    repeat' split
    all_goals rfl
  · show Gate _ ((s.threads ++ _).map Point.tokens).sum
    rw [List.map_append, List.sum_append, add_comm]
    exact hgate

theorem Gated.cancelAwait (h : Gated s) :
    Gated { s with
      scheduler := (Execution.mudmuxExecutionCancelAwait s.scheduler).1
      threads := s.threads ++ (Execution.mudmuxExecutionCancelAwait s.scheduler).2 } := by
  refine ⟨?_, ?_⟩
  · show (Execution.mudmuxExecutionCancelAwait s.scheduler).1.generation = _
    rw [← show s.scheduler.generation = _ from h.synced]
    simp only [Execution.mudmuxExecutionCancelAwait]
    repeat' split
    all_goals rfl
  · show Gate _ ((s.threads ++ _).map Point.tokens).sum
    rw [List.map_append, List.sum_append, add_comm]
    exact Execution.gate_cancelAwait h.gate

variable {β : Type}

/-- Every effect of the slot's code keeps the gate. -/
theorem Gated.effect {e : SlotEffect β} {a : Comm.Answer} {b : β} (h : Gated s)
    (hexec : s.effect setup observe e a = some (b, s')) : Gated s' := by
  cases e with
  | enqueue call completion =>
    cases hexec
    have hdispatch : Gated (s.dispatch setup call).2 := h.dispatch call
    exact ⟨hdispatch.synced, hdispatch.gate⟩
  | slotBusy =>
    cases a <;> simp only [State.effect, reduceCtorEq] at hexec
    split at hexec
    · cases hexec
    · cases hexec
      exact h
  | cancelAwait =>
    cases hexec
    exact h.cancelAwait
  | callFlush | callClose | callTransportReady => cases a <;> cases hexec
  | invalidAccess => exact b.elim
  | _ =>
    obtain ⟨r, -, hs'⟩ := Option.map_eq_some_iff.mp hexec
    cases hs'
    exact ⟨rfl, h.gate⟩

/-- Every step of the machine keeps the gate. -/
theorem Gated.exec {e : Effect β} {a : Answer} {b : β} (h : Gated s)
    (hguard : (gateSteps.guard setup observe).effect s e a = true)
    (hexec : (system setup observe).exec e a s = some (b, s')) : Gated s' := by
  have hmoved {s₁ : State γ} (hm : Moved setup observe gateSteps s s₁) : Gated s₁ :=
    hm.invariant (P := Gated) (fun _ _ _ ht hg hmove => (ht.move hg hmove).1) h
  cases e with
  | slot e =>
    obtain ⟨s₁, hm, -, heffect⟩ := exec_slot_eq_some hguard hexec
    exact (hmoved hm).effect heffect
  | worker e =>
    obtain ⟨s₁, hm, hexec⟩ := exec_worker_eq_some hguard hexec
    cases e with
    | idle =>
      cases hexec
      exact hmoved hm
    | completed task =>
      obtain ⟨s₂, hcompleted, hs'⟩ := Option.map_eq_some_iff.mp hexec
      cases hs'
      obtain ⟨rest, hstep, hthreads, hthreads', hcomm, -⟩ := completed_thread hcompleted
      exact (hmoved hm).thread hstep hthreads hthreads' hcomm rfl

/-! ### Marked input -/

/-- A busy slot has its input marked. -/
structure Marked (s : State γ) : Prop extends Gated s where
  marked : s.comm.live = true → mudmuxExecutionSlotBusy s.scheduler.state = true →
    inputMarked s.comm = true

theorem Gated.marked_of_idle (h : Gated s)
    (hidle : mudmuxExecutionSlotBusy s.scheduler.state = false) : Marked s :=
  ⟨h, fun _ hbusy => absurd (hidle.symm.trans hbusy) Bool.false_ne_true⟩

/-- Another record of the connection. -/
theorem Gated.withComm (h : Gated s) (c' : CommAbstract) : Gated (s.withComm c') :=
  ⟨rfl, h.gate⟩

variable {c' : CommAbstract}

theorem Marked.withComm (h : Marked s) (hmark : c'.live = true → s.comm.live = true ∧
      (inputMarked s.comm = true → inputMarked c' = true)) : Marked (s.withComm c') :=
  ⟨h.toGated.withComm c', fun hlive hbusy => (hmark hlive).2 (h.marked (hmark hlive).1 hbusy)⟩

theorem Gated.move_input {m : Move} (h : Gated s) (hg : (inputSteps setup).move s m = true)
    (hmove : s.move setup observe m = some s') :
    Gated s' ∧ (mudmuxExecutionSlotBusy s'.scheduler.state = true →
      mudmuxExecutionSlotBusy s.scheduler.state = true) := by
  have hboth : s.movesWithin (fun t => !discardsRequest s.scheduler t) m = true ∧
      s.movesWithin (fun t => !takesTurn s.scheduler t) m = true := by
    cases m with
    | thread index choice =>
      simp only [inputSteps, State.movesWithin] at hg ⊢
      cases hget : s.threads[index]? with
      | none => exact ⟨rfl, rfl⟩
      | some t =>
        rw [hget, Option.all_some, Bool.and_eq_true] at hg
        exact hg
    | outbound => exact ⟨rfl, rfl⟩
  obtain ⟨hgated, hbusy⟩ := h.move hboth.1 hmove
  exact ⟨hgated, hbusy hboth.2⟩

variable {s₁ : State γ}

/-- An idle slot stays idle during a call of `comm_process_input`. -/
theorem Gated.idle_moved (h : Gated s) (hidle : mudmuxExecutionSlotBusy s.scheduler.state = false)
    (hm : Moved setup observe (inputSteps setup) s s₁) :
    Gated s₁ ∧ mudmuxExecutionSlotBusy s₁.scheduler.state = false :=
  hm.invariant (P := fun t => Gated t ∧ mudmuxExecutionSlotBusy t.scheduler.state = false)
    (fun t m t' ht hg hmove => by
      obtain ⟨hgated, hbusy⟩ := ht.1.move_input hg hmove
      refine ⟨hgated, Bool.eq_false_iff.mpr fun hb => ?_⟩
      exact absurd (ht.2.symm.trans (hbusy hb)) Bool.false_ne_true) ⟨h, hidle⟩

theorem Marked.moved (h : Marked s) (hm : Moved setup observe (inputSteps setup) s s₁) :
    Marked s₁ :=
  hm.invariant (P := Marked) (fun t m t' ht hg hmove => by
    obtain ⟨hgated, hbusy⟩ := ht.toGated.move_input hg hmove
    refine ⟨hgated, fun hlive hb => ?_⟩
    rw [(move_keeps hmove).1] at hlive ⊢
    exact ht.marked hlive (hbusy hb)) h

/-- The kinds of stores that leave the marks of the input. -/
def keepsMark : StoreKind → Prop
  | .resume | .hookOver | .disconnected | .readyRefused | .connectRefused | .close => False
  | _ => True

theorem inputMarked_of_store {kind : StoreKind} {c : CommAbstract} (hkind : keepsMark kind)
    (h : kind.Store setup.comm c c') (hc : inputMarked c = true) : inputMarked c' = true := by
  cases kind <;> simp only [StoreKind.Store] at h <;>
    grind [CommAbstract.core, CommAbstract.mapFlags, Comm.commFreeInboundBuffers, inputMarked,
      keepsMark]

theorem keepsMark_of_steady (kind : StoreKind) (h : kind.steady = true) : keepsMark kind := by
  cases kind <;> first | exact True.intro | cases h

theorem inputMarked_of_still {c : CommAbstract} (h : c'.still = c.still) :
    c'.live = c.live ∧ inputMarked c' = inputMarked c := by
  have hlive : c'.still.live = c.still.live := by rw [h]
  have hmark : inputMarked c'.still = inputMarked c.still := by rw [h]
  exact ⟨hlive, hmark⟩

/-- A hook is queued. If it takes the slot, the input is marked; if it does not, the slot was busy. -/
theorem Marked.dispatch (h : Marked s) (call : HookCall)
    (hguard : s.scheduler.state.active = true ∨ inputMarked s.comm = true) :
    Marked (s.dispatch setup call).2 := by
  refine ⟨h.toGated.dispatch call, fun hlive _ => ?_⟩
  obtain hactive | hmark := hguard
  · refine h.marked hlive ?_
    rw [mudmuxExecutionSlotBusy, hactive, Bool.true_or, Bool.true_or]
  · exact hmark

/-- The effects of code whose stores keep the marks. -/
theorem Marked.effect {e : SlotEffect β} {a : Comm.Answer} {b : β} (h : Marked s)
    (hspec : kindSpec setup.comm keepsMark s.comm e) (hguard : s.effectMarks setup e = true)
    (hexec : s.effect setup observe e a = some (b, s')) : Marked s' := by
  have hgated : Gated s' := h.toGated.effect hexec
  cases e with
  | enqueue call completion =>
    cases hexec
    simp only [State.effectMarks, Bool.and_eq_true, Bool.or_eq_true] at hguard
    have hdispatch : Marked (s.dispatch setup call).2 := h.dispatch call hguard.1
    exact ⟨hgated, hdispatch.marked⟩
  | slotBusy =>
    cases a <;> simp only [State.effect, reduceCtorEq] at hexec
    split at hexec
    · cases hexec
    · cases hexec
      exact h
  | cancelAwait =>
    cases hexec
    exact ⟨hgated, fun hlive hbusy => h.marked hlive (Execution.busy_of_cancelAwait hbusy)⟩
  | setSlot c' =>
    obtain ⟨kind, hkind, hstore⟩ := hspec
    cases a <;> cases hexec
    refine ⟨hgated, fun hlive hbusy => inputMarked_of_store hkind hstore (h.marked ?_ hbusy)⟩
    rw [← hstore.live]
    exact hlive
  | addBio => exact absurd hspec id
  | remove => exact absurd hspec id
  | callFlush | callClose | callTransportReady => cases a <;> cases hexec
  | invalidAccess => exact b.elim
  | _ =>
    obtain ⟨⟨b', c'⟩, hr, hs'⟩ := Option.map_eq_some_iff.mp hexec
    cases hs'
    obtain ⟨hlive, hmark⟩ := inputMarked_of_still (Comm.still_of_exec rfl hr)
    refine ⟨hgated, fun hl hbusy => ?_⟩
    show inputMarked c' = true
    rw [hmark]
    exact h.marked (hlive ▸ hl) hbusy

/-! ### The plan -/

/-- The plan of the proof. -/
def inputOutline (setup : Setup) (observe : Observer γ) : (system setup observe).Outline where
  guard := (inputSteps setup).guard setup observe
  always _ := True
  inner := Marked
  grows _ _ := True
  rest _ := True

variable {result : ProcessResult}

section Code

variable {α : Type}

theorem steadyInput (s : State γ) :
    Steady setup observe (inputSteps setup) (inputOutline setup observe) s :=
  fun _ _ => True.intro

/-- Code whose stores keep the marks. -/
theorem wp_marked {p : Code α} {R : α → CommAbstract → Prop}
    (hp : StoresTo setup.comm keepsMark p R s.comm) (h : Marked s) :
    (inputOutline setup observe).wp (onSlot p) (fun a s' => R a s'.comm ∧ Marked s') s := by
  refine Outline.wp_mono _ (wp_of_storesTo rfl (fun _ _ => True) (fun _ => True.intro)
    (fun _ _ _ _ _ => True.intro) (fun _ _ _ => True.intro)
    (fun s s₁ hm hs => ⟨Marked.moved hs hm, True.intro⟩)
    (fun e s a b s' hspec hs hguard hexec =>
      ⟨True.intro, Marked.effect hs hspec hguard hexec, True.intro⟩) hp h) ?_
  exact fun a s' hpost => ⟨hpost.1, hpost.2.1⟩

theorem markPermits : Comm.PermitsInput setup.comm (Comm.storeRequirement setup.comm keepsMark) :=
  Comm.storePermits keepsMark_of_steady

theorem deferMarks : Comm.Grants setup.comm (Comm.storeRequirement setup.comm keepsMark) .defer :=
  Comm.grants_of_allowed True.intro

theorem wp_markedStores {p : Code α} (hp : Comm.Stores setup.comm keepsMark p) (h : Marked s) :
    (inputOutline setup observe).wp (onSlot p) (fun _ s' => Marked s') s :=
  Outline.wp_mono _ (wp_marked (hp s.comm) h) fun _ _ hpost => hpost.2

variable {completion : Comm.Completion}

/-- Where `HOOK_TRANSPORT_READY` and `HOOK_DISCONNECT` are not refused, they are queued. -/
theorem dispatch_queued {call : HookCall} (hcall : call = .transportReady ∨ call = .disconnect)
    (hguard : s.effectMarks setup (.enqueue call completion) = true) :
    (s.dispatch setup call).1 = .queued := by
  have hanswer : (s.dispatch setup call).1 = if s.full setup then .queueFull else .queued := by
    obtain rfl | rfl := hcall <;> rfl
  have hroom : s.full setup = false := by
    simp only [State.effectMarks, Bool.and_eq_true, Bool.not_eq_true'] at hguard
    obtain rfl | rfl := hcall <;> simpa using hguard.2
  rw [hanswer, hroom]
  rfl

variable {Q : α → State γ → Prop}

/-- `HOOK_TRANSPORT_READY` or `HOOK_DISCONNECT` is queued. -/
theorem wp_lifecycle {call : HookCall} {k : Comm.DispatchResult → Code α}
    (hcall : call = .transportReady ∨ call = .disconnect) (h : Marked s)
    (hk : ∀ s', Marked s' → (inputOutline setup observe).wp (onSlot (k .queued)) Q s') :
    (inputOutline setup observe).wp (onSlot (.perform (.enqueue call completion) k)) Q s := by
  refine wp_effect rfl rfl rfl fun s₁ a b s' hm hguard hexec => ⟨True.intro, ?_⟩
  have hguard : s₁.effectMarks setup (.enqueue call completion) = true := hguard
  have hfound : s₁.scheduler.state.active = true ∨ inputMarked s₁.comm = true := by
    simp only [State.effectMarks, Bool.and_eq_true, Bool.or_eq_true] at hguard
    exact hguard.1
  have hdispatch : Marked (s₁.dispatch setup call).2 := (h.moved hm).dispatch call hfound
  have hqueued := dispatch_queued hcall hguard
  cases hexec
  rw [hqueued]
  exact hk _ ⟨⟨hdispatch.synced, hdispatch.gate⟩, hdispatch.marked⟩

/-- `C_AWAITING_HOOK` is set. -/
theorem Marked.await (h : Gated s) (hc' : c'.flags.awaitingHook = true) : Marked (s.withComm c') :=
  ⟨h.withComm c', fun _ _ => by
    show inputMarked c' = true
    rw [inputMarked, hc', Bool.or_true]⟩

theorem wp_commInvokeTransportReady (hrelaxed : setup.comm.relaxed = true) (h : Marked s) :
    (inputOutline setup observe).wp (onSlot (Comm.commInvokeTransportReady setup.comm))
      (fun _ s' => Marked s') s := by
  refine wp_guard rfl h.synced (steadyInput s) (fun s₁ hm _ => h.moved hm) fun s₁ hm _ => ?_
  have h₁ : Marked s₁ := h.moved hm
  dsimp only
  split
  · exact h₁
  · split
    · exact h₁
    · split
      · exact h₁
      · refine wp_store rfl fun s₂ hm₂ => ⟨True.intro, ?_⟩
        rw [Comm.mudmuxExecutionDispatch, if_pos hrelaxed, Program.effect_bind]
        refine wp_lifecycle (.inl rfl) (Marked.await (h₁.moved hm₂).toGated ?_) fun s' hs' => hs'
        show (s.comm.flags.awaitingHook || setup.comm.relaxed) = true
        rw [hrelaxed, Bool.or_true]

/-- `comm_abstract_remove`. -/
theorem wp_remove {k : Unit → Code α} (h : Marked s)
    (hk : ∀ s', Marked s' → (inputOutline setup observe).wp (onSlot (k ())) Q s') :
    (inputOutline setup observe).wp (onSlot (.perform .remove k)) Q s := by
  refine wp_effect rfl rfl rfl fun s₁ a b s' hm _ hexec => ⟨True.intro, hk s' ?_⟩
  have hgated : Gated s' := (h.moved hm).toGated.effect hexec
  refine ⟨hgated, fun hlive => ?_⟩
  cases a <;> cases hexec
  have hgone : (Comm.ifLive s₁.comm Comm.commAbstractRemove).live = false := by
    unfold Comm.ifLive
    split
    · rfl
    · next hdead => simpa using hdead
  exact absurd (hgone.symm.trans hlive) Bool.false_ne_true

/-- What `comm_close_impl` does once the disconnect hook is behind it. -/
theorem wp_finishClose (h : Marked s) :
    (inputOutline setup observe).wp (onSlot (Comm.finishClose setup.comm)) (fun _ s' => Marked s') s :=
  wp_finishClose_rule rfl h.synced (steadyInput s) (fun _ hm _ _ => h.moved hm)
    (fun _ hm _ _ => h.moved hm)
    (fun _ ht => wp_markedStores (Comm.stores_flushed keepsMark_of_steady) ht)
    (fun _ _ he _ _ ht => wp_markedStores (Comm.stores_effect he) ht) (fun _ ht => ht)
    fun _ ht => wp_remove ht fun _ hs' => hs'

theorem wp_commClose (hrelaxed : setup.comm.relaxed = true) (h : Marked s) :
    (inputOutline setup observe).wp (onSlot (Comm.commClose setup.comm)) (fun _ s' => Marked s') s := by
  refine wp_guard rfl h.synced (steadyInput s) (fun s₁ hm _ => h.moved hm) fun s₁ hm hlive => ?_
  have h₁ : Marked s₁ := h.moved hm
  dsimp only
  split
  · refine wp_store rfl fun s₂ hm₂ => ⟨True.intro, ?_⟩
    have h₂ : Marked (s₂.withComm (s.comm.mapFlags fun flags =>
        { flags with closing := true, disconnectPending := false })) := by
      refine (h₁.moved hm₂).withComm fun _ => ?_
      rw [hm₂.comm, hm.comm]
      exact ⟨hlive, id⟩
    rw [wp_slotBind]
    refine Outline.wp_mono _ (wp_markedStores (markPermits.effect rfl) h₂) fun _ s₃ h₃ => ?_
    refine wp_modify rfl h₃.synced (steadyInput s₃) fun s₄ hm₄ _ => ⟨True.intro, ?_⟩
    rw [Comm.mudmuxExecutionDispatch, if_pos hrelaxed, Program.effect_bind]
    refine wp_lifecycle (.inr rfl) (Marked.await (h₃.moved hm₄).toGated rfl) fun s₅ h₅ => ?_
    -- the hook is queued, so nothing is left but the prompt
    exact wp_markedStores (Comm.meets_bind (markPermits.modifyFlags .prompt
      (Comm.grants_of_allowed True.intro) rfl fun _ => ⟨false, rfl⟩) fun _ => Comm.meets_pure _) h₅
  · exact wp_finishClose h₁

/-- The functions that the code calls and the public calls that foreign code makes. -/
theorem inputOutline_stable (setup : Setup) (observe : Observer γ)
    (hrelaxed : setup.comm.relaxed = true) : (inputOutline setup observe).Stable where
  grows_refl _ := True.intro
  grows_trans _ _ _ _ _ := True.intro
  call e p hu s hi := by
    cases e with
    | worker e => cases hu
    | slot e =>
      obtain ⟨q, hq, rfl⟩ := Option.map_eq_some_iff.mp hu
      refine Outline.wp_mono _ ?_ fun _ s' h => ⟨h, True.intro⟩
      cases e with
      | callFlush =>
        cases hq
        exact wp_markedStores (markPermits.commFlush) hi
      | callClose =>
        cases hq
        exact wp_commClose hrelaxed hi
      | callTransportReady =>
        cases hq
        exact wp_commInvokeTransportReady hrelaxed hi
      | _ => cases hq
  foreign x hforeign s hi _ _ := by
    refine Outline.wp_mono _ ?_ fun _ s' h => ⟨h, True.intro⟩
    cases x with
    | worker | complete => cases hforeign
    | slot x =>
      cases x with
      | api caller call =>
        refine wp_markedStores (markPermits.apiCode caller fun kind hkind =>
          Comm.grants_of_allowed ?_) hi
        cases call <;> simp_all [Comm.ApiCall.kinds, keepsMark]
      | _ => cases hforeign

/-! ### Input -/

/-- If the answer is `COMM_PROCESS_DEFERRED`, the input is marked. -/
structure Settled (result : ProcessResult) (s : State γ) : Prop extends Marked s where
  deferred : result = .deferred → inputMarked s.comm = true

theorem Marked.settled (h : Marked s) (hresult : result ≠ .deferred) : Settled result s :=
  ⟨h, fun hr => absurd hr hresult⟩

theorem wp_processText (budget : Option Nat) (h : Marked s) :
    (inputOutline setup observe).wp (onSlot (Comm.processText setup.comm budget)) Settled s := by
  -- behind the loop the answer is read off from the record
  have hend (t : State γ) (ht : Marked t) (failed : Bool) : (inputOutline setup observe).wp (onSlot (
      if failed then pure .error else Comm.textEnd)) Settled t := by
    cases failed with
    | true => exact ht.settled (by simp)
    | false =>
      refine wp_guard rfl ht.synced (steadyInput t) (fun t₁ hm _ => (ht.moved hm).settled (by simp))
        fun t₁ hm _ => ⟨ht.moved hm, fun hdeferred => ?_⟩
      rw [hm.comm, inputMarked]
      cases hflag : t.comm.flags.deferredInbound with
      | true => rfl
      | false =>
        rw [hflag] at hdeferred
        cases hdeferred
  refine wp_deref rfl h.synced (steadyInput s) fun s₁ hm _ => ?_
  have h₁ : Marked s₁ := h.moved hm
  split
  · rw [wp_slotBind]
    refine Outline.wp_mono _ (wp_markedStores (markPermits.lineLoop
      (fun _ => deferMarks) _ budget) h₁) fun _ t ht => hend t ht false
  · rw [wp_slotBind]
    refine Outline.wp_mono _ (wp_markedStores (markPermits.charInput deferMarks budget) h₁) fun failed t ht => hend t ht failed

variable (hrelaxed : setup.comm.relaxed = true)

include hrelaxed

/-- `_comm_process_input`: a busy slot is found marked, and the mark is taken away from an idle one. -/
theorem wp_processInputWith {ready : Code ProcessResult} (budget : Option Nat) (h : Marked s)
    (hready : ∀ t, Marked t → (inputOutline setup observe).wp (onSlot ready) Settled t) :
    (inputOutline setup observe).wp (onSlot (Comm.processInputWith setup.comm ready budget))
      Settled s := by
  refine wp_guard rfl h.synced (steadyInput s) (fun s₁ hm _ => (h.moved hm).settled nofun)
    fun s₁ hm hlive => ?_
  have h₁ : Marked s₁ := h.moved hm
  dsimp only
  split
  · next hawaiting =>
      refine ⟨h₁, fun _ => ?_⟩
      rw [hm.comm, inputMarked, hawaiting, Bool.or_true]
  · rw [Program.effect_bind]
    refine wp_slotBusy rfl hrelaxed (steadyInput s₁) fun s₂ hm₂ => ?_
    have h₂ : Marked s₂ := h₁.moved hm₂
    cases hbusy : mudmuxExecutionSlotBusy s₂.scheduler.state with
    | true =>
      refine ⟨h₂, fun _ => h₂.marked ?_ hbusy⟩
      rw [hm₂.comm, hm.comm]
      exact hlive
    | false =>
      -- no hook takes the slot before the mark is gone
      refine wp_modify rfl h₂.synced (steadyInput s₂) fun s₃ hm₃ _ => ⟨True.intro, ?_⟩
      obtain ⟨hgated, hidle⟩ := h₂.toGated.idle_moved hbusy hm₃
      have h₃ : Marked (s₃.withComm { s₂.comm with
          flags := { s₂.comm.flags with deferredInbound := false }
          inbound := Comm.skipNonDataHeadBuffers s₂.comm.inbound }) :=
        (hgated.withComm _).marked_of_idle hidle
      split
      · rw [wp_slotBind]
        refine Outline.wp_mono _ (wp_markedStores (markPermits.commTryUpgradeWebsocket) h₃) fun _ t ht => ?_
        refine wp_guard rfl ht.synced (steadyInput t) (fun t₁ hm _ => (ht.moved hm).settled nofun)
          fun t₁ hm _ => ?_
        dsimp only
        split
        · exact hready t₁ (ht.moved hm)
        · exact (ht.moved hm).settled nofun
      · split
        · exact hready _ h₃
        · exact wp_processText budget h₃

omit hrelaxed in
/-- The input is marked. -/
theorem wp_deferInbound (h : Marked s) :
    (inputOutline setup observe).wp (onSlot Comm.deferInbound) (fun _ => Settled .deferred) s := by
  refine wp_modify rfl h.synced (steadyInput s) fun s₁ hm hlive => ⟨True.intro, ?_⟩
  have h₁ : Settled .deferred (s₁.withComm (s.comm.mapFlags fun flags =>
      { flags with deferredInbound := true })) := by
    refine ⟨(h.moved hm).withComm fun _ => ?_, fun _ => rfl⟩
    rw [hm.comm]
    exact ⟨hlive, fun _ => rfl⟩
  refine wp_effect rfl rfl rfl fun s₂ a b s' hm₂ hguard hexec => ⟨True.intro, ?_⟩
  have h₂ : Marked s₂ := h₁.toMarked.moved hm₂
  have hspec : kindSpec setup.comm keepsMark s₂.comm (.setHasDeferred true) := True.intro
  refine ⟨h₂.effect hspec hguard hexec, fun _ => ?_⟩
  cases a <;> cases hexec
  show inputMarked s₂.comm = true
  rw [hm₂.comm]
  exact h₁.deferred rfl

/-- The input path of an upgraded WebSocket. -/
theorem frameRules_marked (budget : Option Nat) :
    Comm.FrameRules setup.comm budget (fun p Q s => (inputOutline setup observe).wp (onSlot p) Q s)
      Marked (fun _ => Marked) Settled where
  done h := h
  bind h := (wp_slotBind _ _).mpr h
  mono h himp := Outline.wp_mono _ h himp
  deref h hf := wp_deref rfl h.synced (steadyInput _) fun s₁ hm _ => hf _ s₁ (h.moved hm)
  store _ h := wp_markedStores (markPermits.modifyWebsocket _) h
  decode fuel payload h := Outline.wp_mono _ (wp_marked (markPermits.decodeWebsocketTelnetPayloadTo
    (fun _ => deferMarks) fuel payload _) h) fun _ _ ht => ht.2
  kept h _ := h
  defer h := wp_deferInbound h
  error h := h.settled nofun
  next {_ s} h hagain := by
    refine wp_guard rfl h.synced (steadyInput s) (fun s₁ hm _ => (h.moved hm).settled nofun)
      fun s₁ hm hlive => ?_
    dsimp only
    rw [Program.effect_bind]
    refine wp_slotBusy rfl hrelaxed (steadyInput s₁) fun s₂ hm₂ => ?_
    have h₂ : Marked s₂ := (h.moved hm).moved hm₂
    cases hbusy : mudmuxExecutionSlotBusy s₂.scheduler.state with
    | true =>
      refine ⟨h₂, fun _ => h₂.marked ?_ hbusy⟩
      rw [hm₂.comm, hm.comm]
      exact hlive
    | false => exact hagain s₂ h₂
  ok h := h.settled nofun
  closed h := h.settled nofun
  more h := h.toMarked
  frame wire h := wp_markedStores (markPermits.commWebsocketProcessInbound wire 1) h
  drop _ h := wp_markedStores (markPermits.modifyWebsocket _) h
  queueClose _ h := wp_markedStores (markPermits.effect rfl) h
  callClose h := wp_call rfl h fun _ _ h' _ => h'
  refill src h := wp_markedStores (markPermits.refillInboundBuffersFromSrc (fun _ => deferMarks) src) h
  text h := wp_processInputWith hrelaxed budget h fun _ => wp_processText budget
  back {result s} h := by
    -- the rest goes back to `decoded_input`, which is no part of the marks
    rw [← Program.bind_done (Comm.modifyComm _)]
    refine wp_modify rfl h.synced (steadyInput s) fun s₁ hm hlive => ⟨True.intro, ?_⟩
    refine ⟨(h.toMarked.moved hm).withComm fun _ => ?_, h.deferred⟩
    rw [hm.comm]
    exact ⟨hlive, id⟩
  receive h := wp_markedStores (markPermits.modifyComm .input markPermits.input rfl fun _ => rfl) h

/-- `comm_process_input`. -/
theorem wp_commProcessInput (budget : Option Nat) (h : Marked s) : (inputOutline setup observe).wp
      (onSlot (Comm.commProcessInput setup.comm budget)) Settled s :=
  wp_processInputWith hrelaxed budget h fun _ =>
    (frameRules_marked hrelaxed budget).commProcessWebsocketInput

end Code

/-! ### The three callers -/

section Turns

/-- What a turn leaves: if `comm_process_input` was called, its answer is accounted for. -/
def TurnDone (answer : Option ProcessResult) (s : State γ) : Prop :=
  Gated s ∧ ∀ result, answer = some result → Settled result s

theorem Settled.turnDone (h : Settled result s) : TurnDone (some result) s :=
  ⟨h.toGated, fun _ heq => Option.some.inj heq ▸ h⟩

theorem Gated.turnDone (h : Gated s) : TurnDone none s := ⟨h, nofun⟩

/-- Moves during a turn keep the gate. -/
theorem Gated.moved (h : Gated s) (hm : Moved setup observe (inputSteps setup) s s₁) : Gated s₁ :=
  hm.invariant (P := Gated) (fun _ _ _ ht hg hmove => (ht.move_input hg hmove).1) h

variable (hrelaxed : setup.comm.relaxed = true)

include hrelaxed

/-- A read event: the slot is found idle and not awaiting a hook. -/
theorem wp_readTurn (h : Gated s) :
    (inputOutline setup observe).wp (onSlot (readTurn setup.comm)) TurnDone s := by
  refine wp_guard rfl h.synced (steadyInput s) (fun s₁ hm _ => (h.moved hm).turnDone) fun s₁ hm _ => ?_
  have h₁ : Gated s₁ := h.moved hm
  dsimp only
  split
  · exact h₁.turnDone
  · rw [wp_slotBind, readInput]
    split
    · exact h₁.turnDone
    · rw [Program.effect_bind]
      refine wp_slotBusy rfl hrelaxed (steadyInput s₁) fun s₂ hm₂ => ?_
      have h₂ : Gated s₂ := h₁.moved hm₂
      cases hbusy : mudmuxExecutionSlotBusy s₂.scheduler.state with
      | true => exact h₂.turnDone
      | false =>
        have hmarked : Marked s₂ := h₂.marked_of_idle hbusy
        show (inputOutline setup observe).wp (onSlot (do
          let refilled ← Comm.commRefillInboundBuffers setup.comm
          let result ← Comm.commProcessInput setup.comm none
          pure (some (refilled, result)))) (fun answers t =>
            TurnDone (answers.map Prod.snd) t) s₂
        rw [wp_slotBind]
        refine Outline.wp_mono _ (wp_markedStores (markPermits.commRefillInboundBuffers
          fun _ => deferMarks) hmarked) fun _ t ht => ?_
        rw [wp_slotBind]
        exact Outline.wp_mono _ (wp_commProcessInput hrelaxed none ht) fun _ _ hsettled =>
          hsettled.turnDone

/-- `comm_resume_deferred_input`: the slot is found idle, and no hook takes it before the mark is gone. -/
theorem wp_resumeInput (h : Gated s) :
    (inputOutline setup observe).wp (onSlot (resumeInput setup.comm)) TurnDone s := by
  refine wp_guard rfl h.synced (steadyInput s) (fun s₁ hm _ => (h.moved hm).turnDone) fun s₁ hm _ => ?_
  have h₁ : Gated s₁ := h.moved hm
  dsimp only
  split
  · exact h₁.turnDone
  · rw [Program.effect_bind]
    refine wp_slotBusy rfl hrelaxed (steadyInput s₁) fun s₂ hm₂ => ?_
    have h₂ : Gated s₂ := h₁.moved hm₂
    cases hbusy : mudmuxExecutionSlotBusy s₂.scheduler.state with
    | true => exact h₂.turnDone
    | false =>
      refine wp_modify rfl h₂.synced (steadyInput s₂) fun s₃ hm₃ _ => ⟨True.intro, ?_⟩
      obtain ⟨hgated, hidle⟩ := h₂.idle_moved hbusy hm₃
      rw [wp_slotBind]
      exact Outline.wp_mono _ (wp_commProcessInput hrelaxed none
        ((hgated.withComm _).marked_of_idle hidle)) fun _ _ hsettled => hsettled.turnDone

/-- Input from the queue of the console or of a file, on a slot that is idle or marked. -/
theorem wp_queuedInput (chunks : List Comm.Chunk) (h : Marked s) :
    (inputOutline setup observe).wp (onSlot (queuedInput setup.comm chunks)) TurnDone s := by
  rw [queuedInput, wp_slotBind]
  refine Outline.wp_mono _ (wp_markedStores (markPermits.refillQueued deferMarks chunks) h) fun _ t ht => ?_
  rw [wp_slotBind]
  exact Outline.wp_mono _ (wp_commProcessInput hrelaxed none ht) fun _ _ hsettled => hsettled.turnDone

/-- Every turn keeps the gate and accounts for the answer of `comm_process_input`. -/
theorem turnDone_of_turn {control : Option ProcessResult} {l : InputTurn}
    {r : (inputSystem setup observe).Result l} (h : Gated s)
    (hturn : (markGuard setup observe).turn s control l = true)
    (hcode : Completes ((markGuard setup observe).code control l) ((inputSystem setup observe).code l)
      s r s') :
    TurnDone ((inputSystem setup observe).after l r s' control).2
      ((inputSystem setup observe).after l r s' control).1 := by
  have hstable := inputOutline_stable setup observe hrelaxed
  cases l with
  | code x =>
    exact Gated.turnDone (hcode.invariant Gated (fun e a t b t' ht hg hexec => ht.exec hg hexec) h)
  | read => exact Completes.of_wp hstable hcode (wp_readTurn hrelaxed h)
  | resume => exact Completes.of_wp hstable hcode (wp_resumeInput hrelaxed h)
  | queued chunks =>
    refine Completes.of_wp hstable hcode (wp_queuedInput hrelaxed chunks ⟨h, fun _ hbusy => ?_⟩)
    simp only [markGuard, hbusy, Bool.not_true, Bool.false_or] at hturn
    exact hturn

end Turns

/-- In every run whose turns meet the condition, input that `comm_process_input` puts off while no hook is
awaited is marked for resumption. -/
theorem busy_input_is_marked (hrelaxed : setup.comm.relaxed = true) {notes : γ}
    {c : (inputSystem setup observe).Config}
    (hrun : SectionSystem.Run (markGuard setup observe) (freshInput setup observe notes) c) :
    leftUnmarked c = false := by
  have hstart : Gated (freshInput setup observe notes).state := ⟨rfl, Nat.le_refl _, rfl⟩
  have hdone : TurnDone c.control c.state :=
    SectionSystem.invariant_of_run (fun s control => TurnDone control s)
      (fun s control l r s' h _ hturn hcode => turnDone_of_turn hrelaxed h.1 hturn hcode)
      hstart.turnDone hrun
  rw [Bool.eq_false_iff]
  intro hleft
  simp only [leftUnmarked, Bool.and_eq_true, decide_eq_true_eq, Bool.not_eq_true'] at hleft
  obtain ⟨⟨⟨⟨hcontrol, -⟩, hawaiting⟩, hdeferred⟩, -⟩ := hleft
  have hmark := (hdone.2 _ hcontrol).deferred rfl
  rw [inputMarked, hawaiting, hdeferred] at hmark
  cases hmark

/-! ### A subnegotiation in front of a line -/

/-- A relaxed-mode server with hooks for input and for Telnet subnegotiations. -/
def subnegServer : Setup where
  comm :=
    { relaxed := true
      registered := fun hook => hook = .messageInbound || hook = .telnetSubneg
      console := false
      fileInputs := false
      consoleTty := false
      acceptKey := id
      mbrlen := fun _ => .complete 1 }
  scheduler := ⟨5, 8⟩
  closuresCall := false

/-- Nothing is noted. -/
def noNotes : Observer Unit := fun _ notes => notes

/-- The transport hands over these bytes. -/
def transportAnswer (chunk : Comm.Chunk) (s : State Unit) : {β : Type} → SlotEffect β → Comm.Answer
  | _, .transportRead => .read (.data chunk)
  | _, .slotBusy => .bool (mudmuxExecutionSlotBusy s.scheduler.state)
  | _, _ => .unit

/-- No thread moves meanwhile. -/
def receives (chunk : Comm.Chunk) (_ : InputTurn) {β : Type} (s : State Unit) :
    Effect β → (system subnegServer noNotes).Move
  | .slot e => .answer { slot := transportAnswer chunk s e }
  | .worker _ => .answer {}

/-- Two lines. -/
def twoLinesChunk : Comm.Chunk := ⟨[97, 10, 98, 10], by decide⟩

/-- `IAC SB TTYPE IS IAC SE` and a line. -/
def subnegChunk : Comm.Chunk := ⟨[255, 250, 24, 0, 255, 240, 104, 10], by decide⟩

/-- A connection in line input is read once. -/
def connectAndRead (telnet : Bool) : List InputTurn :=
  [.code (.slot (.addBio true true true { lineInput := true, enableTelnet := telnet })), .read]

/-- The first line is with its hook, and the second one is marked. -/
theorem busy_input_is_marked_two_lines :
    ∃ c, SectionSystem.Run (markGuard subnegServer noNotes) (freshInput subnegServer noNotes ()) c ∧
      c.control = some .deferred ∧ leftUnmarked c = false := by
  obtain ⟨c, hrun, hc⟩ := SectionSystem.exists_run_of_playTurns (markGuard subnegServer noNotes)
    (receives twoLinesChunk) 200 (connectAndRead false) (freshInput subnegServer noNotes ())
    (fun c => c.control = some .deferred) (by decide +kernel)
  exact ⟨c, hrun, of_decide_eq_true hc, busy_input_is_marked rfl hrun⟩

/-- The subnegotiation hook takes the idle slot while the read is decoded. `comm_process_input` finds the
slot busy and leaves the line behind it, and nothing is there to resume it. -/
theorem subnegotiation_stalls_input :
    ∃ c, SectionSystem.Run (SectionSystem.Guard.trivial (inputSystem subnegServer noNotes))
        (freshInput subnegServer noNotes ()) c ∧
      (leftUnmarked c && mudmuxExecutionSlotBusy c.state.scheduler.state
        && c.state.comm.inboundData = [104, 10]) = true :=
  SectionSystem.exists_run_of_playTurns _ (receives subnegChunk) 200 (connectAndRead true)
    (freshInput subnegServer noNotes ()) _ (by decide +kernel)

end Mudmux.Server
