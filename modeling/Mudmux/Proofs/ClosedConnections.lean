import Mudmux.Proofs.CloseOnce

/-!
# `Mudmux.Proofs.ClosedConnections`: when a connection is closed, and what runs on it then

The results of `Mudmux.Proofs.CloseOnce` for whole runs of a slot number. They need conditions on the
steps, and for each of these a run is given in which the result fails.

`comm_close` cancels the await of the slot after it has set `C_CLOSING` and before it sets
`C_AWAITING_HOOK`. A closure that is destroyed there and calls `comm_close` finds a slot whose disconnect
hook seems to be over, and removes it (`destroyed_closure_removes_slot`). So the closures are not to make
public calls when they are destroyed.

The close path waits for the completion of the disconnect hook and not for the turn of the slot. A hook
that is queued behind `HOOK_DISCONNECT` runs on a slot that may be removed at any time
(`late_hook_loses_slot`). So nothing is to be queued for a connection that closes (`turnSteps`).

In strict mode a hook runs inside of whatever dispatched it, so a callback that closes its own slot has the
disconnect hook run before it returns (`strict_close_is_nested`). Relaxed mode keeps the order.
-/

set_option autoImplicit false

namespace Mudmux.Server

open Mudmux.Lib
open CallbackSystem
open Mudmux.Comm (CommAbstract SlotEffect HookType)
open Mudmux.Execution (Stage Point SlotExecution staged)

/-! ### Conditions on the steps -/

/-- The connection is not replaced. -/
def closeSteps : StepGuard CloseNotes where
  entry _ x := !x.replaces
  move _ _ := true
  effect _ _ := true

/-- The connection is not replaced, no request of an await is discarded, and nothing but `HOOK_DISCONNECT`
is queued for a connection that closes. -/
def turnSteps : StepGuard CloseNotes where
  entry _ x := !x.replaces
  move s m := s.moveInTurn m
  effect s e := s.effectInTurn e

/-! ### Particular runs -/

/-- Slot 5 of a server on which every hook is registered. -/
def hookServer (relaxed closuresCall : Bool) : Setup where
  comm :=
    { relaxed
      registered := fun _ => true
      console := false
      fileInputs := false
      consoleTty := false
      acceptKey := id
      mbrlen := fun _ => .complete 1 }
  scheduler := ⟨5, 8⟩
  closuresCall

/-- A hook of the first connection. -/
def hookTask (id : Nat) (hook : HookType) (currentSlot : Int) : SlotExecution :=
  ⟨{ id, hookType := hook, message := 5, currentSlot }, 1⟩

section Scripts

variable {setup : Setup} {γ : Type} {observe : Observer γ}

/-- Effects of the slot's code, while no thread moves. -/
def effects (n : Nat) : List (system setup observe).Move := List.replicate n (.answer {})

/-- The threads move. -/
def threadsMove (moves : List Move) : List (system setup observe).Move :=
  [.enter .worker, .answer { moves }]

/-- The first thread takes some steps. -/
def firstThread (n : Nat) : List Move := List.replicate n (.thread 0 .proceed)

/-- A connection is accepted, its connect hook runs, and its transport-ready hook has begun. -/
def untilReadyHook : List (system setup observe).Move :=
  .enter (.slot (.accept {})) :: effects 5
    ++ threadsMove (firstThread 5)
    ++ .enter (.complete (hookTask 0 .connect 5)) :: effects 3
    ++ .unfold :: effects 7
    ++ threadsMove (firstThread 5)

/-- The transport-ready hook returns. -/
def readyHookOver : List (system setup observe).Move :=
  threadsMove (firstThread 2) ++ .enter (.complete (hookTask 1 .transportReady 5)) :: effects 7

/-- `comm_close`, up to the return of the call. -/
def closeCall (caller : Comm.Caller) : List (system setup observe).Move :=
  .enter (.slot (.api caller .close)) :: .unfold :: effects 8

/-- The event loop. -/
def eventLoop : Comm.Caller := ⟨none, false⟩

/-- The completion of the disconnect hook. -/
def disconnectOver : List (system setup observe).Move :=
  .enter (.complete (hookTask 2 .disconnect (-1))) :: effects 3

/-- `comm_flush_all` removes the slot. -/
def removal : List (system setup observe).Move :=
  .enter (.slot .progressClose) :: effects 1 ++ .unfold :: effects 3

end Scripts

variable {setup : Setup}

theorem turnSteps_inTurn (hrelaxed : setup.comm.relaxed = true) : InTurn setup turnSteps :=
  ⟨hrelaxed, fun _ _ h => h, fun _ _ h => h⟩

/-- A slot number without a connection. -/
theorem freeSlot_inPhase (setup : Setup) (fifo : Prop) :
    InPhase setup fifo (freeSlot setup (observeClose setup) {}).state := by
  refine ⟨⟨rfl, rfl, nofun, .none, fun _ => rfl, Nat.zero_le 1, rfl, ⟨fun _ => rfl, nofun⟩, fun _ => ?_⟩,
    rfl⟩
  exact ⟨⟨Nat.le_refl 0, rfl⟩, fun _ => rfl, fun _ htask => absurd htask (Multiset.notMem_zero _),
    fun hclosed => absurd hclosed.1 Bool.false_ne_true⟩

/-- `Sound` holds in every state of a run, with the order of turns. -/
theorem sound_of_turnRun (hrelaxed : setup.comm.relaxed = true) (hclosures : setup.closuresCall = false)
    {c : (system setup (observeClose setup)).Config}
    (hrun : Run (turnSteps.guard setup (observeClose setup))
      (freeSlot setup (observeClose setup) {}) c) : Sound setup True c.state := by
  have hvalid : (closeOutline setup turnSteps True).Valid :=
    closeOutline_valid (fun _ => turnSteps_inTurn hrelaxed) hclosures fun s x h => by
      simpa [turnSteps] using h
  exact hvalid.always_of_run (freeSlot_inPhase setup True) hrun

/-! ### At most one disconnect hook, and before the removal -/

variable {task : SlotExecution}

theorem mem_staged_of_hook {call : Option Execution.AwaitCall} {ts : List Point}
    (h : Point.hook task call ∈ ts) : (Stage.running, task) ∈ staged (ts : Multiset Point) := by
  obtain ⟨rest, hrest⟩ := Multiset.exists_cons_of_mem (Multiset.mem_coe.mpr h)
  rw [hrest, Execution.staged_cons]
  exact Multiset.mem_add.mpr (.inl (Multiset.mem_singleton_self _))

/-- A hook that runs has the connection that it was accepted for. -/
theorem Sound.own {fifo : Prop} {s : State CloseNotes} (h : Sound setup fifo s) (hf : fifo)
    (htask : (Stage.running, task) ∈ staged (s.threads : Multiset Point))
    (hgeneration : task.generation ≠ 0) :
    s.comm.live = true ∧ s.comm.generation = task.generation ∧
      task.generation = s.scheduler.generation := by
  have hown := (h.turns hf).own task htask
  have hcurrent : task.generation = s.scheduler.generation := hown.resolve_left hgeneration
  have hsynced : s.scheduler.generation = Comm.commAbstractGeneration s.comm := h.synced
  rw [hcurrent, hsynced] at hgeneration
  unfold Comm.commAbstractGeneration at hgeneration hsynced
  split at hsynced
  · next hlive => exact ⟨hlive, by rw [hcurrent, hsynced], hcurrent⟩
  · next hdead =>
      rw [if_neg hdead] at hgeneration
      exact absurd rfl hgeneration

/-- In relaxed mode, in every run in which nothing but `HOOK_DISCONNECT` is queued for a connection that
closes, no request of an await is discarded, and the closures make no public call when they are destroyed:
while a hook that was accepted for a connection is executing, the slot number is in use by this
connection. -/
theorem running_hook_keeps_slot (hrelaxed : setup.comm.relaxed = true)
    (hclosures : setup.closuresCall = false) {c : (system setup (observeClose setup)).Config}
    (hrun : Run (turnSteps.guard setup (observeClose setup))
      (freeSlot setup (observeClose setup) {}) c)
    {task : SlotExecution} {call : Option Execution.AwaitCall}
    (htask : Point.hook task call ∈ c.state.threads) (hgeneration : task.generation ≠ 0) :
    c.state.comm.live = true ∧ c.state.comm.generation = task.generation := by
  obtain ⟨hlive, hsame, -⟩ :=
    (sound_of_turnRun hrelaxed hclosures hrun).own True.intro (mem_staged_of_hook htask) hgeneration
  exact ⟨hlive, hsame⟩

/-- The transport-ready hook is executing. -/
theorem running_hook_keeps_slot_ready :
    ∃ c, Run (turnSteps.guard (hookServer true false) (observeClose (hookServer true false)))
        (freeSlot (hookServer true false) (observeClose (hookServer true false)) {}) c ∧
      Point.hook (hookTask 1 .transportReady 5) none ∈ c.state.threads ∧
      (c.state.comm.live = true ∧ c.state.comm.generation = 1) := by
  obtain ⟨c, hrun, hc⟩ := exists_run_of_playMoves
    (turnSteps.guard (hookServer true false) (observeClose (hookServer true false))) untilReadyHook
    (freeSlot (hookServer true false) (observeClose (hookServer true false)) {})
    (fun c => Point.hook (hookTask 1 .transportReady 5) none ∈ c.state.threads) (by decide +kernel)
  have hmem := of_decide_eq_true hc
  exact ⟨c, hrun, hmem, running_hook_keeps_slot rfl rfl hrun hmem (by decide)⟩

/-- Another slot sends a message to the closing one, and `HOOK_MESSAGE_OUTBOUND` is queued behind
`HOOK_DISCONNECT`. When it runs, `comm_flush_all` removes the slot, and the number goes to the next
connection. -/
theorem late_hook_loses_slot :
    ∃ c, Run (Guard.trivial (system (hookServer true false) (observeClose (hookServer true false))))
        (freeSlot (hookServer true false) (observeClose (hookServer true false)) {}) c ∧
      (Point.hook (hookTask 3 .messageOutbound 5) none ∈ c.state.threads ∧
        c.state.comm.live = true ∧ c.state.comm.generation = 2) := by
  obtain ⟨c, hrun, hc⟩ := exists_run_of_playMoves
    (Guard.trivial (system (hookServer true false) (observeClose (hookServer true false))))
    (untilReadyHook ++ readyHookOver ++ threadsMove (firstThread 2) ++ closeCall eventLoop
      ++ threadsMove (.outbound :: .thread 1 .proceed :: .thread 1 .proceed :: firstThread 5)
      ++ disconnectOver ++ threadsMove (firstThread 5) ++ removal
      ++ .enter (.slot (.accept {})) :: effects 2)
    (freeSlot (hookServer true false) (observeClose (hookServer true false)) {})
    (fun c => Point.hook (hookTask 3 .messageOutbound 5) none ∈ c.state.threads ∧
      c.state.comm.live = true ∧ c.state.comm.generation = 2) (by decide +kernel)
  exact ⟨c, hrun, of_decide_eq_true hc⟩

/-! ### The disconnect hook waits for the callback that asks for it -/

/-- The callbacks of a connection in front of `HOOK_DISCONNECT`. -/
def isCallback : HookType → Bool
  | .connect | .transportReady | .messageInbound => true
  | _ => false

/-- While another hook of the connection runs, `HOOK_DISCONNECT` has not begun. -/
theorem Sound.begun_eq_zero {fifo : Prop} {s : State CloseNotes} (h : Sound setup fifo s)
    (hf : fifo) (htask : (Stage.running, task) ∈ staged (s.threads : Multiset Point))
    (hgeneration : task.generation ≠ 0) (hhook : task.isDisconnect = false) :
    s.notes.begun = 0 := by
  obtain ⟨hlive, -, hcurrent⟩ := h.own hf htask hgeneration
  cases haccepted : s.notes.accepted with
  | false => exact h.fit.fresh haccepted
  | true =>
    have hclosed : s.Disconnected := ⟨haccepted, h.fit.closing haccepted hlive⟩
    obtain ⟨before, disconnect, behind, heq, hdisconnect, -⟩ | ⟨-, hlate⟩ := (h.turns hf).order hclosed
    · -- it waits in the queue
      have hprogress := h.progress
      have hcons : s.disconnects = {Stage.waiting} + Execution.disconnects (before ++ behind)
          (staged (s.threads : Multiset Point)) := by
        rw [State.disconnects, heq, Execution.disconnects_of_perm List.perm_middle,
          Execution.disconnects_cons, Execution.disconnects_add,
          Execution.disconnectStages_of_disconnect hdisconnect]
      rw [hcons] at hprogress
      have hnone := hprogress.eq_zero_of_add
      rw [hnone, add_zero] at hprogress
      exact hprogress.of_stage.2.1 rfl
    · exact absurd ⟨hcurrent, hhook⟩ (hlate _ htask (by simp))

/-- In relaxed mode, in every run as in `running_hook_keeps_slot`: while a connect, transport-ready or
inbound callback of a connection is executing, `HOOK_DISCONNECT` has not been invoked for the connection,
and the slot has not been removed. -/
theorem disconnect_waits_for_callback (hrelaxed : setup.comm.relaxed = true)
    (hclosures : setup.closuresCall = false) {c : (system setup (observeClose setup)).Config}
    (hrun : Run (turnSteps.guard setup (observeClose setup))
      (freeSlot setup (observeClose setup) {}) c)
    {task : SlotExecution} {call : Option Execution.AwaitCall}
    (htask : Point.hook task call ∈ c.state.threads)
    (hhook : isCallback task.execution.hookType = true) (hgeneration : task.generation ≠ 0) :
    c.state.notes.begun = 0 ∧ c.state.comm.live = true ∧
      c.state.comm.generation = task.generation := by
  have hsound := sound_of_turnRun hrelaxed hclosures hrun
  have hstage := mem_staged_of_hook htask
  have hother : task.isDisconnect = false := by
    rw [SlotExecution.isDisconnect]
    refine decide_eq_false fun htype => ?_
    rw [htype] at hhook
    cases hhook
  obtain ⟨hlive, hsame, -⟩ := hsound.own True.intro hstage hgeneration
  exact ⟨hsound.begun_eq_zero True.intro hstage hgeneration hother, hlive, hsame⟩

/-- The transport-ready hook has closed its own slot and is still executing. -/
theorem disconnect_waits_for_callback_ready :
    ∃ c, Run (turnSteps.guard (hookServer true false) (observeClose (hookServer true false)))
        (freeSlot (hookServer true false) (observeClose (hookServer true false)) {}) c ∧
      (Point.hook (hookTask 1 .transportReady 5) none ∈ c.state.threads ∧
        c.state.notes.accepted = true) ∧
      (c.state.notes.begun = 0 ∧ c.state.comm.live = true ∧ c.state.comm.generation = 1) := by
  obtain ⟨c, hrun, hc⟩ := exists_run_of_playMoves
    (turnSteps.guard (hookServer true false) (observeClose (hookServer true false)))
    (untilReadyHook ++ closeCall ⟨some .transportReady, true⟩)
    (freeSlot (hookServer true false) (observeClose (hookServer true false)) {})
    (fun c => Point.hook (hookTask 1 .transportReady 5) none ∈ c.state.threads ∧
      c.state.notes.accepted = true) (by decide +kernel)
  have hmem := of_decide_eq_true hc
  exact ⟨c, hrun, hmem, disconnect_waits_for_callback rfl rfl hrun hmem.1 rfl (by decide)⟩

/-- All events in their order. -/
def observeAll : Observer (List Event) := fun event events => events ++ [event]

/-- In strict mode the connect hook closes its own slot, and the disconnect hook begins before it has
returned. -/
theorem strict_close_is_nested :
    ∃ c, Run (Guard.trivial (system (hookServer false false) observeAll))
        (freeSlot (hookServer false false) observeAll []) c ∧
      c.state.notes = [.connected, .begun .connect, .begun .disconnect] := by
  obtain ⟨c, hrun, hc⟩ := exists_run_of_playMoves
    (Guard.trivial (system (hookServer false false) observeAll))
    (.enter (.slot (.accept {})) :: effects 3
      ++ .enter (.slot (.api ⟨some .connect, true⟩ .close)) :: .unfold :: effects 6)
    (freeSlot (hookServer false false) observeAll [])
    (fun c => c.state.notes = [.connected, .begun .connect, .begun .disconnect]) (by decide +kernel)
  exact ⟨c, hrun, of_decide_eq_true hc⟩

end Mudmux.Server
