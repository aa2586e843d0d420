import Mudmux.Proofs.ServerWp
import Mudmux.Proofs.TaskStages

/-!
# `Mudmux.Proofs.ClosingSlot`: a connection and its disconnect hook

The record of a slot says how far the close of its connection is (`ClosePhase`): the disconnect hook is
still to be dispatched, it is under way, or it is over. The scheduler says the same in its own terms, by
the stage of the task. `Sound` ties what an observer notes to the tasks and holds in every state;
`ClosePhase.Fits` ties both to the record, and holds whenever foreign code or a called function takes
over.

`comm_close_impl` breaks the second of these for a moment: it sets `C_CLOSING` before it cancels the
await of the slot, and `C_AWAITING_HOOK` only behind that. The slot then looks as if the disconnect hook
were over. Nothing of this is seen if the closures that the cancelled await destroys make no public
call, which is assumed here.

The proofs are for two conditions on the steps at once. With `fifo` the steps also keep the order of
turns, and then `Turns` holds as well.
-/

set_option autoImplicit false

namespace Mudmux.Server

open Mudmux.Lib
open CallbackSystem
open Mudmux.Comm (CommAbstract SlotEffect Code StoreKind StoresTo HookCall HookType)
open Mudmux.Execution (Stage Point SlotExecution staged disconnects DisconnectStep Turns
  concernsDisconnect)

/-! ### What is noted -/

/-- What is noted of the close of a connection; `early` is about all connections of the slot. -/
structure CloseNotes where
  accepted : Bool := false
  begun : Nat := 0
  returned : Bool := false
  /-- A connection was removed before its disconnect hook had been accepted and had returned. -/
  early : Bool := false
  deriving DecidableEq, Repr

/-- There is a disconnect hook to wait for. In relaxed mode it is a task also when none is registered. -/
def Setup.expectsDisconnect (setup : Setup) : Bool :=
  setup.comm.relaxed || setup.comm.registered .disconnect

/-- The observer. A hook that runs inline is accepted when it begins. -/
def observeClose (setup : Setup) : Observer CloseNotes
  | .connected, n => { n with accepted := false, begun := 0, returned := false }
  | .removed, n =>
    { n with early := n.early || (setup.expectsDisconnect && !(n.accepted && n.returned)) }
  | .accepted .disconnect, n => { n with accepted := true }
  | .begun .disconnect, n => { n with accepted := true, begun := n.begun + 1 }
  | .returned .disconnect, n => { n with returned := true }
  | _, n => n

variable {setup : Setup}

theorem observeClose_of_not_concerns {event : Event} (h : concernsDisconnect event = false)
    (n : CloseNotes) : observeClose setup event n = n := by
  cases event with
  | connected | removed => cases h
  | accepted hook | begun hook | returned hook =>
    cases hook <;> first | rfl | cases h

variable {events : List Event}

theorem foldl_observeClose (h : ∀ event ∈ events, concernsDisconnect event = false) (n : CloseNotes) :
    events.foldl (fun n event => observeClose setup event n) n = n := by
  induction events with
  | nil => rfl
  | cons event events ih =>
    rw [List.foldl_cons, observeClose_of_not_concerns (h event List.mem_cons_self)]
    exact ih fun event' hmem => h event' (List.mem_cons_of_mem _ hmem)

/-! ### Phases -/

/-- How far the close of a connection is, by its record. -/
inductive ClosePhase where
  | gone
  | before
  | during
  | after
  deriving DecidableEq, Repr

def closePhase (c : CommAbstract) : ClosePhase :=
  if !c.live then .gone
  else if !c.flags.closing || c.flags.disconnectPending then .before
  else if c.flags.awaitingHook then .during
  else .after

/-- `comm_close_impl` has begun to dispatch the disconnect hook. -/
def ClosePhase.closing : ClosePhase → Bool
  | gone | before => false
  | during | after => true

/-- What is noted, by the stages of the disconnect hooks: there is at most one. -/
inductive Progress (n : CloseNotes) : Multiset Stage → Prop where
  | none : Progress n 0
  | waiting (haccepted : n.accepted = true) (hbegun : n.begun = 0) : Progress n {.waiting}
  | running (haccepted : n.accepted = true) : Progress n {.running}
  | passed (haccepted : n.accepted = true) (hreturned : n.returned = true) : Progress n {.passed}

variable {n : CloseNotes} {d : Multiset Stage}

theorem Progress.eq_zero_of_not_accepted (h : Progress n d) (hn : n.accepted = false) : d = 0 := by
  cases h with
  | none => rfl
  | waiting haccepted _ | running haccepted | passed haccepted _ =>
    exact absurd (hn.symm.trans haccepted) Bool.false_ne_true

theorem Progress.card_le (h : Progress n d) : d.card ≤ 1 := by
  cases h <;> simp

/-- A disconnect hook is the only one. -/
theorem Progress.eq_zero_of_add {stage : Stage} (h : Progress n ({stage} + d)) : d = 0 := by
  have hcard := h.card_le
  rw [Multiset.card_add, Multiset.card_singleton] at hcard
  exact Multiset.card_eq_zero.mp (by omega)

theorem Progress.of_stage {stage : Stage} (h : Progress n {stage}) :
    n.accepted = true ∧ (stage = .waiting → n.begun = 0) ∧
      (stage = .passed → n.returned = true) := by
  generalize hd : ({stage} : Multiset Stage) = d at h
  cases h with
  | none => exact absurd hd (Multiset.singleton_ne_zero stage)
  | waiting haccepted hbegun => exact ⟨haccepted, fun _ => hbegun, by simp_all⟩
  | running haccepted => exact ⟨haccepted, by simp_all, by simp_all⟩
  | passed haccepted hreturned => exact ⟨haccepted, by simp_all, fun _ => hreturned⟩

/-- What a phase says about the disconnect hook. -/
def ClosePhase.Fits (setup : Setup) (d : Multiset Stage) (n : CloseNotes) : ClosePhase → Prop
  | gone => d = 0
  | before => d = 0 ∧ n.begun = 0 ∧ n.accepted = false
  | during => True
  | after => d = 0 ∧ (setup.expectsDisconnect = true → n.accepted = true ∧ n.returned = true)

/-- What neither the threads nor code outside of `comm_close_impl` does. -/
structure Kept (d : Multiset Stage) (n : CloseNotes) (d' : Multiset Stage) (n' : CloseNotes) :
    Prop where
  none : d = 0 → d' = 0 ∧ n'.begun = n.begun
  accepted : n'.accepted = n.accepted
  returned : n.returned = true → n'.returned = true

theorem Kept.refl (d : Multiset Stage) (n : CloseNotes) : Kept d n d n := ⟨fun h => ⟨h, rfl⟩, rfl, id⟩

variable {d' : Multiset Stage} {n' : CloseNotes}

theorem Kept.trans {d'' : Multiset Stage} {n'' : CloseNotes} (h : Kept d n d' n')
    (h' : Kept d' n' d'' n'') : Kept d n d'' n'' where
  none hd := by
    obtain ⟨hd', hbegun⟩ := h.none hd
    obtain ⟨hd'', hbegun'⟩ := h'.none hd'
    exact ⟨hd'', hbegun'.trans hbegun⟩
  accepted := h'.accepted.trans h.accepted
  returned hn := h'.returned (h.returned hn)

theorem ClosePhase.Fits.kept {phase : ClosePhase} (h : phase.Fits setup d n)
    (hkept : Kept d n d' n') : phase.Fits setup d' n' := by
  cases phase with
  | gone => exact (hkept.none h).1
  | before =>
    obtain ⟨hd, hbegun, haccepted⟩ := h
    obtain ⟨hd', hbegun'⟩ := hkept.none hd
    exact ⟨hd', hbegun'.trans hbegun, hkept.accepted.trans haccepted⟩
  | during => exact True.intro
  | after =>
    obtain ⟨hd, hover⟩ := h
    refine ⟨(hkept.none hd).1, fun hexpects => ?_⟩
    obtain ⟨haccepted, hreturned⟩ := hover hexpects
    exact ⟨hkept.accepted.trans haccepted, hkept.returned hreturned⟩

/-- The threads take the disconnect hook through its stages. -/
theorem Progress.step (h : Progress n d) (honce : n.begun ≤ 1) (hstep : DisconnectStep d events d')
    (hn' : n' = events.foldl (fun n event => observeClose setup event n) n) :
    Progress n' d' ∧ n'.begun ≤ 1 ∧ n'.early = n.early ∧ Kept d n d' n' := by
  subst hn'
  cases hstep with
  | keep hevents =>
    rw [foldl_observeClose hevents]
    exact ⟨h, honce, rfl, Kept.refl _ _⟩
  | start d =>
    obtain rfl := h.eq_zero_of_add
    rw [add_zero] at h
    obtain ⟨haccepted, hbegun, -⟩ := h.of_stage
    refine ⟨.running rfl, ?_, rfl, ⟨nofun, haccepted.symm, id⟩⟩
    show n.begun + 1 ≤ 1
    rw [hbegun rfl]
  | returned d =>
    obtain rfl := h.eq_zero_of_add
    rw [add_zero] at h
    obtain ⟨haccepted, -⟩ := h.of_stage
    exact ⟨.passed haccepted rfl, honce, rfl, ⟨nofun, rfl, fun _ => rfl⟩⟩
  | drop _ dropped =>
    refine ⟨?_, honce, rfl, ⟨fun hzero => ?_, rfl, id⟩⟩
    · have hcard := h.card_le
      rw [Multiset.card_add] at hcard
      by_cases hd : d' = 0
      · rw [hd]
        exact .none
      · have hpos := Multiset.card_pos.mpr hd
        have hdropped : dropped = 0 := Multiset.card_eq_zero.mp (by omega)
        rwa [hdropped, zero_add] at h
    · have hcard := congrArg Multiset.card hzero
      rw [Multiset.card_add, Multiset.card_zero] at hcard
      exact ⟨Multiset.card_eq_zero.mp (by omega), rfl⟩

/-! ### States -/

section Steps

variable {γ : Type}

/-- The stages of the disconnect hooks of the slot. -/
def State.disconnects (s : State γ) : Multiset Stage :=
  Execution.disconnects s.scheduler.state.pending (staged s.threads)

/-- The thread queues a hook of the connection while it closes. -/
def State.queuesBehind (s : State γ) : Point → Bool
  | .enqueueLock task _ =>
    (closePhase s.comm).closing && task.generation = s.scheduler.generation
  | _ => false

/-- The move discards no request of an await and queues no hook of a connection that closes. -/
def State.moveInTurn (s : State γ) : Move → Bool
  | .thread index _ =>
    match s.threads[index]? with
    | none => true
    | some t => !Execution.discardsRequest s.scheduler t && !s.queuesBehind t
  | .outbound => true

/-- The effect queues no hook of a connection that closes, `HOOK_DISCONNECT` apart. -/
def State.effectInTurn (s : State γ) : {β : Type} → SlotEffect β → Bool
  | _, .enqueue call _ => call = .disconnect || !(closePhase s.comm).closing
  | _, _ => true

end Steps

/-- `HOOK_DISCONNECT` of the connection has been accepted. -/
def State.Disconnected (s : State CloseNotes) : Prop :=
  s.notes.accepted = true ∧ (closePhase s.comm).closing = true

/-- What the notes say of the connection's record: `HOOK_DISCONNECT` begins only behind its acceptance,
and is accepted only for a connection that closes. -/
structure NotesFit (c : CommAbstract) (n : CloseNotes) : Prop where
  fresh : n.accepted = false → n.begun = 0
  closing : n.accepted = true → c.live = true → (closePhase c).closing = true

/-- What holds in every state. -/
structure Sound (setup : Setup) (fifo : Prop) (s : State CloseNotes) : Prop where
  accepting : s.scheduler.accepting = true
  synced : s.Synced
  undecided : ∀ t ∈ s.threads, t.queuesDisconnect = false
  progress : Progress s.notes s.disconnects
  strict : setup.comm.relaxed = false → s.disconnects = 0
  once : s.notes.begun ≤ 1
  early : s.notes.early = false
  fit : NotesFit s.comm s.notes
  turns : fifo → Turns s.Disconnected s.scheduler s.threads

/-- The two conditions on the steps: with `fifo` they keep the order of turns. -/
structure InTurn (setup : Setup) (g : StepGuard CloseNotes) : Prop where
  relaxed : setup.comm.relaxed = true
  move : ∀ s m, g.move s m = true → s.moveInTurn m = true
  effect : ∀ {β : Type} (s : State CloseNotes) (e : SlotEffect β), g.effect s e = true →
    s.effectInTurn e = true

variable {g : StepGuard CloseNotes} {fifo : Prop}

variable {s s' : State CloseNotes}

/-- Threads without a task are started, and the queue stays as it is. -/
theorem Sound.start {new : List Point} (h : Sound setup fifo s) (hcomm : s'.comm = s.comm)
    (hnotes : s'.notes = s.notes) (hgeneration : s'.scheduler.generation = s.scheduler.generation)
    (haccepting : s'.scheduler.accepting = s.scheduler.accepting)
    (hpending : s'.scheduler.state.pending = s.scheduler.state.pending)
    (hactive : s'.scheduler.state.active = s.scheduler.state.active)
    (hthreads : s'.threads = s.threads ++ new)
    (hnew : ∀ t ∈ new, t.carries = 0 ∧ t.queuesDisconnect = false)
    (hgate : ∀ n, Execution.Gate s.scheduler.state n →
      Execution.Gate s'.scheduler.state ((new.map Point.tokens).sum + n)) :
    Sound setup fifo s' ∧ s'.disconnects = s.disconnects := by
  have hstaged : staged (s'.threads : Multiset Point) = staged s.threads := by
    have hzero : staged (new : Multiset Point) = 0 := by
      refine Multiset.sum_eq_zero fun x hx => ?_
      obtain ⟨t, ht, rfl⟩ := Multiset.mem_map.mp hx
      exact (hnew t ht).1
    rw [hthreads, ← Multiset.coe_add, Execution.staged_add, hzero, add_zero]
  have hsame : s'.disconnects = s.disconnects := by
    rw [State.disconnects, hpending, hstaged, State.disconnects]
  refine ⟨⟨haccepting.trans h.accepting, ?_, fun t ht => ?_, ?_, ?_, ?_, ?_, ?_, fun hf => ?_⟩, hsame⟩
  · rw [State.Synced, hcomm, hgeneration]
    exact h.synced
  · rw [hthreads] at ht
    obtain hold | hadded := List.mem_append.mp ht
    · exact h.undecided t hold
    · exact (hnew t hadded).2
  · rw [hsame, hnotes]
    exact h.progress
  · rw [hsame]
    exact h.strict
  · rw [hnotes]
    exact h.once
  · rw [hnotes]
    exact h.early
  · rw [hnotes, hcomm]
    exact h.fit
  · obtain ⟨hgate', hidle, hown, horder⟩ := h.turns hf
    refine ⟨?_, ?_, ?_, ?_⟩
    · rw [hthreads, ← Multiset.coe_add, Multiset.map_add, Multiset.sum_add, add_comm]
      exact hgate _ hgate'
    · rw [hactive, hpending]
      exact hidle
    · rw [hstaged, hgeneration]
      exact hown
    · rw [State.Disconnected, hnotes, hcomm, hgeneration, hpending, hstaged]
      exact horder

/-- A step of a thread. -/
theorem Sound.thread {t : Point} {choice : Execution.Choice} {new : List Point}
    {rest : Multiset Point} (h : Sound setup fifo s) (hmem : t ∈ s.threads)
    (hstep : Execution.step setup.scheduler s.scheduler t choice = some (s'.scheduler, new))
    (hthreads : (s.threads : Multiset Point) = t ::ₘ rest)
    (hthreads' : (s'.threads : Multiset Point) = (new : Multiset Point) + rest)
    (hcomm : s'.comm = s.comm)
    (hnotes : s'.notes = (pointEvents s.scheduler.generation t choice).foldl
      (fun notes event => observeClose setup event notes) s.notes)
    (hturn : fifo → Execution.discardsRequest s.scheduler t = false ∧ s.queuesBehind t = false) :
    Sound setup fifo s' ∧ Kept s.disconnects s.notes s'.disconnects s'.notes := by
  have hgeneration : s'.scheduler.generation = s.scheduler.generation := (generation_of_step hstep).1
  have hstage := (Execution.taskStep_of_step h.accepting hstep (staged rest)).disconnectStep
    (h.undecided t hmem)
  rw [← Execution.staged_cons, ← Execution.staged_add, ← hthreads, ← hthreads'] at hstage
  obtain ⟨hprogress, honce, hearly, hkept⟩ := h.progress.step h.once hstage hnotes
  refine ⟨⟨?_, ?_, ?_, hprogress, ?_, honce, ?_, ⟨?_, ?_⟩, ?_⟩, hkept⟩
  · exact (generation_of_step hstep).2.trans h.accepting
  · rw [State.Synced, hcomm, hgeneration]
    exact h.synced
  · intro t' ht'
    rw [← Multiset.mem_coe, hthreads', Multiset.mem_add] at ht'
    obtain hnew | hold := ht'
    · exact Execution.queuesDisconnect_of_step (h.undecided t hmem) hstep t' hnew
    · refine h.undecided t' ?_
      rw [← Multiset.mem_coe, hthreads]
      exact Multiset.mem_cons_of_mem hold
  · intro hstrict
    exact (hkept.none (h.strict hstrict)).1
  · exact hearly.trans h.early
  · intro hnot
    rw [hkept.accepted] at hnot
    exact (hkept.none (h.progress.eq_zero_of_not_accepted hnot)).2.trans (h.fit.fresh hnot)
  · rw [hkept.accepted, hcomm]
    exact h.fit.closing
  · intro hf
    obtain ⟨hdiscard, hbehind⟩ := hturn hf
    have hturns := h.turns hf
    rw [hthreads] at hturns
    have hclosed : s'.Disconnected ↔ s.Disconnected := by
      rw [State.Disconnected, hkept.accepted, hcomm, State.Disconnected]
    rw [hthreads', propext hclosed]
    refine Execution.turns_step h.accepting hturns hdiscard ?_ hgeneration hstep
    rintro ⟨-, hclosing⟩ task allowPending rfl hgen
    simp [State.queuesBehind, hclosing, hgen] at hbehind

/-- The moves of the threads. -/
theorem Sound.move (hfifo : fifo → InTurn setup g) {m : Move} (h : Sound setup fifo s)
    (hg : g.move s m = true) (hmove : s.move setup (observeClose setup) m = some s') :
    Sound setup fifo s' ∧ Kept s.disconnects s.notes s'.disconnects s'.notes := by
  cases m with
  | thread index choice =>
    obtain ⟨t, new, rest, hget, -, hstep, hthreads, hthreads', hcomm, hnotes⟩ := move_thread hmove
    refine h.thread (List.mem_of_getElem? hget) hstep hthreads hthreads' hcomm hnotes ?_
    intro hf
    have hguard := (hfifo hf).move s _ hg
    simpa [State.moveInTurn, hget] using hguard
  | outbound =>
    obtain ⟨hcomm, hnotes, ⟨dispatches, answers, hscheduler⟩, new, hthreads, hnew⟩ :=
      move_outbound hmove
    have hcarries : ∀ t ∈ new, t.carries = 0 ∧ t.queuesDisconnect = false := by
      intro t ht
      obtain ⟨execution, allowPending, rfl, htype⟩ := hnew t ht
      exact ⟨rfl, by simp [Point.queuesDisconnect, htype]⟩
    have htokens : (new.map Point.tokens).sum = 0 := by
      refine List.sum_eq_zero fun n hn => ?_
      obtain ⟨t, ht, rfl⟩ := List.mem_map.mp hn
      obtain ⟨execution, allowPending, rfl, -⟩ := hnew t ht
      rfl
    obtain ⟨hsound, hsame⟩ := h.start hcomm hnotes (by rw [hscheduler]) (by rw [hscheduler])
      (by rw [hscheduler]) (by rw [hscheduler]) hthreads hcarries (fun n hn => by
        rw [hscheduler, htokens, zero_add]
        exact hn)
    rw [hsame, hnotes]
    exact ⟨hsound, Kept.refl _ _⟩

/-! ### Effects on the record -/

variable {c : CommAbstract}

theorem closePhase_eq_gone : closePhase c = .gone ↔ c.live = false := by
  unfold closePhase
  cases c.live with
  | false => exact ⟨fun _ => rfl, fun _ => rfl⟩
  | true => grind

variable {c' : CommAbstract}

/-- Records in the same phase are in use alike. -/
theorem live_iff_of_closePhase (h : closePhase c' = closePhase c) :
    c'.live = true ↔ c.live = true := by
  rw [← Bool.not_eq_false, ← Bool.not_eq_false, ← closePhase_eq_gone, ← closePhase_eq_gone, h]

theorem live_of_closing (h : (closePhase c).closing = true) : c.live = true := by
  unfold closePhase at h
  split at h
  · cases h
  · next hlive => simpa using hlive

/-- The kinds of stores that leave the close of the connection alone. -/
def keepsPhase : StoreKind → Bool
  | .disconnected | .ready | .readyRefused | .connecting | .connectRefused | .close => false
  | _ => true

theorem closePhase_of_store {kind : StoreKind} (hkind : keepsPhase kind = true)
    (h : kind.Store setup.comm c c') : closePhase c' = closePhase c := by
  cases kind <;> simp only [StoreKind.Store] at h <;>
    grind [CommAbstract.core, CommAbstract.mapFlags, CommAbstract.live,
      Comm.commFreeInboundBuffers, closePhase, keepsPhase]

/-- An operation on the outbound queue. -/
theorem closePhase_of_still (h : c'.still = c.still) :
    closePhase c' = closePhase c ∧
      Comm.commAbstractGeneration c' = Comm.commAbstractGeneration c := by
  have hphase : closePhase c'.still = closePhase c.still := by rw [h]
  have hgeneration : Comm.commAbstractGeneration c'.still = Comm.commAbstractGeneration c.still := by
    rw [h]
  exact ⟨hphase, hgeneration⟩

/-- The record and the notes change within the life of a connection. -/
theorem Sound.record (h : Sound setup fifo s)
    (hgeneration : Comm.commAbstractGeneration c' = Comm.commAbstractGeneration s.comm)
    (hprogress : Progress n' s.disconnects) (honce : n'.begun ≤ 1) (hearly : n'.early = false)
    (hfit : NotesFit c' n')
    (hclosed : n'.accepted = true → (closePhase c').closing = true → s.Disconnected) :
    Sound setup fifo { s.withComm c' with notes := n' } := by
  have hscheduler : (s.withComm c').scheduler = s.scheduler := by
    rw [State.withComm, hgeneration, ← h.synced]
  refine ⟨?_, ?_, h.undecided, hprogress, h.strict, honce, hearly, hfit, ?_⟩
  · rw [hscheduler]
    exact h.accepting
  · rfl
  · intro hf
    obtain ⟨hgate, hidle, hown, horder⟩ := h.turns hf
    rw [hscheduler]
    exact ⟨hgate, hidle, hown, fun hdisconnected => horder (hclosed hdisconnected.1 hdisconnected.2)⟩

theorem Sound.withComm (h : Sound setup fifo s)
    (hgeneration : Comm.commAbstractGeneration c' = Comm.commAbstractGeneration s.comm)
    (hclosed : s.notes.accepted = true → c'.live = true →
      s.comm.live = true ∧ (closePhase c').closing = true) : Sound setup fifo (s.withComm c') :=
  h.record hgeneration h.progress h.once h.early
    ⟨h.fit.fresh, fun haccepted hlive => (hclosed haccepted hlive).2⟩ fun haccepted hclosing =>
    ⟨haccepted, h.fit.closing haccepted (hclosed haccepted (live_of_closing hclosing)).1⟩

/-- A record with the same phase and the same generation. -/
theorem Sound.withComm_of_phase (h : Sound setup fifo s)
    (hgeneration : Comm.commAbstractGeneration c' = Comm.commAbstractGeneration s.comm)
    (hphase : closePhase c' = closePhase s.comm) : Sound setup fifo (s.withComm c') := by
  refine h.withComm hgeneration fun haccepted hlive => ?_
  have hold : s.comm.live = true := (live_iff_of_closePhase hphase).mp hlive
  exact ⟨hold, hphase ▸ h.fit.closing haccepted hold⟩

/-! ### Dispatching a hook -/

/-- The task that a dispatch queues. -/
def State.dispatched (setup : Setup) (s : State CloseNotes) (call : HookCall) : SlotExecution :=
  ⟨(Execution.mudmuxExecutionDispatch
    (hookExecution setup.scheduler.slot s.scheduler.dispatches call)).1, s.scheduler.generation⟩

/-- The thread that a dispatch would need, if the slot's code did not run its critical section
itself. -/
def State.dispatching (setup : Setup) (s : State CloseNotes) (call : HookCall) (allowPending : Bool) :
    State CloseNotes :=
  { s with
      scheduler := { s.scheduler with dispatches := s.scheduler.dispatches + 1 }
      threads := s.threads ++ [.enqueueLock (s.dispatched setup call) allowPending] }

theorem dispatch_step (setup : Setup) (s : State CloseNotes) (call : HookCall) :
    ∃ allowPending new, Execution.step setup.scheduler (s.dispatching setup call allowPending).scheduler
        (.enqueueLock (s.dispatched setup call) allowPending) .proceed
          = some ((s.dispatch setup call).2.scheduler, new) ∧
      (s.dispatch setup call).2.threads = s.threads ++ new ∧
      (s.dispatch setup call).2.comm = s.comm ∧ (s.dispatch setup call).2.notes = s.notes :=
  ⟨_, _, rfl, rfl, rfl, rfl⟩

/-- A hook other than `HOOK_DISCONNECT` is queued. -/
theorem Sound.dispatch {call : HookCall} (h : Sound setup fifo s)
    (hcall : call.hookType ≠ .disconnect) (hturn : fifo → (closePhase s.comm).closing = false) :
    Sound setup fifo (s.dispatch setup call).2 ∧
      Kept s.disconnects s.notes (s.dispatch setup call).2.disconnects s.notes := by
  obtain ⟨allowPending, new, hstep, hthreads, hcomm, hnotes⟩ := dispatch_step setup s call
  have hstarted : Sound setup fifo (s.dispatching setup call allowPending) ∧
      (s.dispatching setup call allowPending).disconnects = s.disconnects := by
    refine h.start rfl rfl rfl rfl rfl rfl rfl ?_ ?_
    · intro t ht
      rw [List.mem_singleton.mp ht]
      exact ⟨rfl, decide_eq_false hcall⟩
    · intro n hn
      show Execution.Gate s.scheduler.state (0 + n)
      rwa [zero_add]
  have hhead : ((s.dispatching setup call allowPending).threads : Multiset Point)
      = .enqueueLock (s.dispatched setup call) allowPending ::ₘ (s.threads : Multiset Point) := by
    show ((s.threads ++ [_] : List Point) : Multiset Point) = _
    rw [← Multiset.coe_add, add_comm]
    rfl
  have htail : ((s.dispatch setup call).2.threads : Multiset Point)
      = (new : Multiset Point) + (s.threads : Multiset Point) := by
    rw [hthreads, ← Multiset.coe_add, add_comm]
  have hdone := hstarted.1.thread (List.mem_append_right _ (List.mem_singleton_self _)) hstep hhead htail
    hcomm hnotes fun hf => ⟨rfl, by
      show ((closePhase s.comm).closing && _) = false
      rw [hturn hf, Bool.false_and]⟩
  rw [hstarted.2, hnotes] at hdone
  exact hdone

/-- `HOOK_DISCONNECT` is refused. -/
theorem Sound.dispatchRefused (h : Sound setup fifo s) (hactive : s.scheduler.state.active = true)
    (hfull : setup.scheduler.backlogCapacity ≤ s.scheduler.state.pending.length) :
    Sound setup fifo (s.dispatch setup .disconnect).2 ∧
      (s.dispatch setup .disconnect).2.disconnects = s.disconnects := by
  have hsame : (s.dispatch setup .disconnect).2.threads = s.threads ++ [] ∧
      (s.dispatch setup .disconnect).2.scheduler.state = s.scheduler.state ∧
      (s.dispatch setup .disconnect).2.scheduler.generation = s.scheduler.generation ∧
      (s.dispatch setup .disconnect).2.scheduler.accepting = s.scheduler.accepting := by
    simp [State.dispatch, Execution.enqueueSection, hactive, hfull, Execution.Slot.answer]
  obtain ⟨hthreads, hstate, hgeneration, haccepting⟩ := hsame
  refine h.start rfl rfl hgeneration haccepting ?_ ?_ hthreads ?_ ?_
  · rw [hstate]
  · rw [hstate]
  · intro t ht
    exact absurd ht List.not_mem_nil
  · intro n hn
    rw [hstate]
    simpa using hn

/-- `HOOK_DISCONNECT` is accepted, and it is the one call of it that is under way. -/
theorem Sound.dispatchAccepted (h : Sound setup fifo s) (hrelaxed : setup.comm.relaxed = true)
    (hclosing : (closePhase s.comm).closing = true) (hnone : s.disconnects = 0)
    (hbegun : s.notes.begun = 0) (hroom : s.scheduler.state.active = true →
      s.scheduler.state.pending.length < setup.scheduler.backlogCapacity) :
    Sound setup fifo ((s.dispatch setup .disconnect).2.note (observeClose setup)
      [.accepted .disconnect]) := by
  -- the critical section, on the memory in which the dispatch is counted
  have hq : ∃ q, Execution.enqueueSection setup.scheduler.backlogCapacity
      (s.dispatching setup .disconnect true).scheduler (s.dispatched setup .disconnect) true = q ∧
        (s.dispatch setup .disconnect).2 = { s with scheduler := q.1, threads := s.threads ++ q.2 } :=
    ⟨_, rfl, rfl⟩
  obtain ⟨⟨scheduler, new⟩, hq, hdispatch⟩ := hq
  have hstep : Execution.step setup.scheduler (s.dispatching setup .disconnect true).scheduler
      (.enqueueLock (s.dispatched setup .disconnect) true) .proceed = some (scheduler, new) :=
    congrArg some hq
  have hcoe : ((s.threads ++ new : List Point) : Multiset Point)
      = (new : Multiset Point) + (s.threads : Multiset Point) := by
    rw [← Multiset.coe_add, add_comm]
  have htask : (s.dispatched setup .disconnect).isDisconnect = true := rfl
  have hroom : (s.dispatching setup .disconnect true).scheduler.state.active = true →
      (s.dispatching setup .disconnect true).scheduler.state.pending.length
        < setup.scheduler.backlogCapacity := hroom
  rw [hdispatch]
  refine ⟨?_, ?_, ?_, ?_, ?_, h.once, h.early, ⟨nofun, fun _ _ => hclosing⟩, ?_⟩
  · exact (generation_of_step hstep).2.trans h.accepting
  · exact (generation_of_step hstep).1.trans h.synced
  · intro t ht
    obtain hold | hnew := List.mem_append.mp ht
    · exact h.undecided t hold
    · simp only [Execution.enqueueSection] at hq
      repeat' split at hq
      all_goals cases hq
      · cases hnew
      · cases hnew
      · rw [List.mem_singleton.mp hnew]
        rfl
  · have hwaits : Execution.disconnects scheduler.state.pending (staged new + staged s.threads)
        = {Stage.waiting} + s.disconnects := by
      have hsection := Execution.disconnects_enqueueSection (s.dispatched setup .disconnect)
        (staged s.threads) hroom
      rwa [hq, Execution.disconnectStages_of_disconnect htask] at hsection
    show Progress { s.notes with accepted := true } (Execution.disconnects scheduler.state.pending
      (staged ((s.threads ++ new : List Point) : Multiset Point)))
    rw [hcoe, Execution.staged_add, hwaits, hnone, add_zero]
    exact .waiting rfl hbegun
  · intro hstrict
    exact absurd (hstrict.symm.trans hrelaxed) (by decide)
  · intro hf
    obtain ⟨hgate, hidle, hown, horder⟩ := h.turns hf
    have hturns : Turns s.Disconnected (s.dispatching setup .disconnect true).scheduler s.threads :=
      ⟨hgate, hidle, hown, horder⟩
    have hsection (closed : Prop) := Execution.turns_enqueueSection closed hturns htask hroom
    rw [hq, ← hcoe] at hsection
    exact hsection _

/-! ### The effects of code outside of `comm_close_impl` -/

theorem note_of_not_concerns (h : ∀ event ∈ events, concernsDisconnect event = false) :
    s.note (observeClose setup) events = s := by
  rw [State.note, foldl_observeClose h]

/-- A hook that has run inline has returned. -/
theorem Sound.noteReturned (h : Sound setup fifo s) (hook : HookType) :
    Sound setup fifo (s.note (observeClose setup) [.returned hook]) ∧
      Kept s.disconnects s.notes s.disconnects (s.note (observeClose setup) [.returned hook]).notes := by
  by_cases hhook : hook = .disconnect
  · subst hhook
    have hprogress : Progress { s.notes with returned := true } s.disconnects := by
      have hold := h.progress
      generalize s.disconnects = d at hold
      cases hold with
      | none => exact .none
      | waiting haccepted hbegun => exact .waiting haccepted hbegun
      | running haccepted => exact .running haccepted
      | passed haccepted _ => exact .passed haccepted rfl
    exact ⟨⟨h.accepting, h.synced, h.undecided, hprogress, h.strict, h.once, h.early,
      ⟨h.fit.fresh, h.fit.closing⟩, h.turns⟩,
      fun hd => ⟨hd, rfl⟩, rfl, fun _ => rfl⟩
  · rw [note_of_not_concerns (by simpa [concernsDisconnect] using hhook)]
    exact ⟨h, Kept.refl _ _⟩

/-- The destruction of an await. -/
theorem Sound.cancelAwait (h : Sound setup fifo s) :
    Sound setup fifo { s with
        scheduler := (Execution.mudmuxExecutionCancelAwait s.scheduler).1
        threads := s.threads ++ (Execution.mudmuxExecutionCancelAwait s.scheduler).2 } ∧
      State.disconnects { s with
        scheduler := (Execution.mudmuxExecutionCancelAwait s.scheduler).1
        threads := s.threads ++ (Execution.mudmuxExecutionCancelAwait s.scheduler).2 }
        = s.disconnects := by
  have hsame : (Execution.mudmuxExecutionCancelAwait s.scheduler).1.generation = s.scheduler.generation ∧
      (Execution.mudmuxExecutionCancelAwait s.scheduler).1.accepting = s.scheduler.accepting ∧
      (Execution.mudmuxExecutionCancelAwait s.scheduler).1.state.pending = s.scheduler.state.pending ∧
      (Execution.mudmuxExecutionCancelAwait s.scheduler).1.state.active = s.scheduler.state.active ∧
      ∀ t ∈ (Execution.mudmuxExecutionCancelAwait s.scheduler).2,
        t.carries = 0 ∧ t.queuesDisconnect = false := by
    simp only [Execution.mudmuxExecutionCancelAwait]
    split
    · exact ⟨rfl, rfl, rfl, rfl, by simp⟩
    · split
      · refine ⟨rfl, rfl, rfl, rfl, fun t ht => ?_⟩
        rw [List.mem_singleton.mp ht]
        exact ⟨rfl, rfl⟩
      · exact ⟨rfl, rfl, rfl, rfl, by simp⟩
  obtain ⟨hgeneration, haccepting, hpending, hactive, hnew⟩ := hsame
  exact h.start rfl rfl hgeneration haccepting hpending hactive rfl hnew fun n hn =>
    Execution.gate_cancelAwait hn

theorem hookType_ne_disconnect {call : HookCall} (h : call ≠ .disconnect) :
    call.hookType ≠ .disconnect := by
  cases call <;> first | exact absurd rfl h | nofun

/-- An effect that neither closes the connection nor replaces it. -/
theorem Sound.effect {β : Type} {e : SlotEffect β} {a : Comm.Answer} {b : β}
    (h : Sound setup fifo s)
    (hspec : kindSpec setup.comm (fun kind => keepsPhase kind = true) s.comm e)
    (hturn : fifo → s.effectInTurn e = true)
    (hexec : s.effect setup (observeClose setup) e a = some (b, s')) :
    Sound setup fifo s' ∧ closePhase s'.comm = closePhase s.comm ∧
      Kept s.disconnects s.notes s'.disconnects s'.notes := by
  have hrecord {c' : CommAbstract} (hphase : closePhase c' = closePhase s.comm)
      (hgeneration : Comm.commAbstractGeneration c' = Comm.commAbstractGeneration s.comm) :
      Sound setup fifo (s.withComm c') ∧ closePhase (s.withComm c').comm = closePhase s.comm ∧
        Kept s.disconnects s.notes (s.withComm c').disconnects (s.withComm c').notes :=
    ⟨h.withComm_of_phase hgeneration hphase, hphase, Kept.refl _ _⟩
  cases e with
  | enqueue call completion =>
    cases hexec
    have hcall : call.hookType ≠ .disconnect :=
      hookType_ne_disconnect fun heq => Bool.false_ne_true (hspec heq)
    obtain ⟨hsound, hkept⟩ := h.dispatch hcall fun hf => by
      have hguard := hturn hf
      cases call <;> first | exact absurd rfl hcall | simpa [State.effectInTurn] using hguard
    rw [note_of_not_concerns (by
      intro event hevent
      split at hevent
      · rw [List.mem_singleton.mp hevent]
        exact decide_eq_false hcall
      · cases hevent)]
    exact ⟨hsound, rfl, hkept⟩
  | slotBusy =>
    cases a <;> simp only [State.effect, reduceCtorEq] at hexec
    split at hexec
    · cases hexec
    · cases hexec
      exact ⟨h, rfl, Kept.refl _ _⟩
  | cancelAwait =>
    cases hexec
    obtain ⟨hsound, hsame⟩ := h.cancelAwait
    refine ⟨hsound, rfl, ?_⟩
    rw [hsame]
    exact Kept.refl _ _
  | setSlot c' =>
    obtain ⟨kind, hkind, hstore⟩ := hspec
    have hgeneration : Comm.commAbstractGeneration c' = Comm.commAbstractGeneration s.comm := by
      rw [Comm.commAbstractGeneration, hstore.live, hstore.generation, Comm.commAbstractGeneration]
    cases a <;> cases hexec
    exact hrecord (closePhase_of_store hkind hstore) hgeneration
  | addBio => exact absurd hspec id
  | remove => exact absurd hspec Bool.false_ne_true
  | invalidAccess => exact b.elim
  | callFlush | callClose | callTransportReady => cases a <;> cases hexec
  | beginHook call =>
    cases a <;> cases hexec
    have hcall : call.hookType ≠ .disconnect :=
      hookType_ne_disconnect fun heq => Bool.false_ne_true (hspec heq)
    rw [note_of_not_concerns (by simpa [effectEvents, concernsDisconnect] using hcall)]
    exact hrecord rfl rfl
  | runHook call =>
    cases a <;> cases hexec
    obtain ⟨hsound, hphase, hkept⟩ := hrecord rfl rfl
    obtain ⟨hreturned, hkept'⟩ := hsound.noteReturned call.hookType
    exact ⟨hreturned, hphase, hkept.trans hkept'⟩
  | _ =>
    obtain ⟨⟨b', c'⟩, hr, hs'⟩ := Option.map_eq_some_iff.mp hexec
    cases hs'
    obtain ⟨hphase, hgeneration⟩ := closePhase_of_still (Comm.still_of_exec rfl hr)
    exact hrecord hphase hgeneration

end Mudmux.Server
