import Mudmux.Proofs.CloseFrame

/-!
# `Mudmux.Proofs.SlotRules`: what the code of a slot never does

One observer notes whether every effect meets `slotSpec`. Another counts the connections of the slot number
and notes for which of them a task is accepted. The generation is that count, so the comparison that a worker
makes before a hook and its completion tells the tasks of the connection in the slot from all others.
-/

set_option autoImplicit false

namespace Mudmux.Comm

open Mudmux.Lib CallbackSystem

variable {setup : Setup}

/-- The slot number comes to this state in a run from a free slot. -/
def Reaches (setup : Setup) {γ : Type} (observe : Observer γ) (notes : γ) (s : SlotState γ) : Prop :=
  ∃ code, Run (Guard.trivial (slotSystem setup observe)) (freeSlot setup observe notes) ⟨s, code⟩

def taskSetup : Setup := { connectHookSetup with relaxed := true }

/-- Every task is accepted, and no slot is busy. -/
def acceptTasks {γ β : Type} (observe : Observer γ) (_ : SlotState γ) :
    SlotEffect β → (slotSystem taskSetup observe).Move
  | .enqueue _ _ => .answer (.dispatch .queued)
  | .slotBusy => .answer (.bool false)
  | _ => .answer .unit

theorem exists_reaches {γ : Type} (observe : Observer γ) (notes : γ) (xs : List Entry)
    (P : SlotState γ → Bool)
    (h : (playEntries (Guard.trivial _) (acceptTasks observe) 100 xs
      (freeSlot taskSetup observe notes)).any (fun d => P d.state) = true) :
    ∃ s, Reaches taskSetup observe notes s ∧ P s = true := by
  obtain ⟨d, hrun, hP⟩ := exists_run_of_playEntries (S := slotSystem taskSetup observe)
    (Guard.trivial _) (acceptTasks observe) 100 xs _ P h
  exact ⟨d.state, ⟨d.code, hrun⟩, hP⟩

/-! ### The rules -/

/-- Notes whether every effect so far met `slotSpec`. -/
def observeRules (setup : Setup) : Observer Prop := fun e _ c _ kept => kept ∧ slotSpec setup True _ c e

/-- The rules of `slotSpec` for hooks, queues, removal and stores are kept in every run. -/
theorem slot_rules_are_kept {s : SlotState Prop} (h : Reaches setup (observeRules setup) True s) :
    s.notes := by
  obtain ⟨code, hrun⟩ := h
  exact invariant_of_slot_run (fun s => s.notes) (fun _ _ _ _ _ hspec hkept _ _ => ⟨hkept, hspec⟩)
    True.intro hrun

/-- A connection that is accepted and closed. -/
theorem slot_rules_are_kept_closed :
    ∃ s, Reaches taskSetup (observeRules taskSetup) True s ∧ s.tasks.length = 2 ∧ s.notes := by
  obtain ⟨s, hs, htasks⟩ := exists_reaches (observeRules taskSetup) True
    [.accept {}, .api ⟨none, false⟩ .close] (fun s => s.tasks.length = 2) (by decide +kernel)
  exact ⟨s, hs, of_decide_eq_true htasks, slot_rules_are_kept hs⟩

/-! ### Generations -/

/-- How many connections the slot number has had, and which of them each task was accepted for, if any. -/
structure TaskNotes where
  connections : Nat := 0
  owners : List (Option Nat) := []

def observeTasks : Observer TaskNotes
  | _, .addBio _ _ _ _, _, _, _, n => { n with connections := n.connections + 1 }
  | _, .enqueue _ _, .dispatch .queued, c, _, n =>
    { n with owners := n.owners ++ [if c.live then some n.connections else none] }
  | _, _, _, _, _, n => n

/-- The generation counts the connections, and a task carries the number of its owner. -/
structure Numbered (s : SlotState TaskNotes) : Prop where
  live : s.comm.live = true → s.notes.connections ≠ 0
  counted : s.notes.connections < 2 ^ 64 → s.comm.generation = s.notes.connections ∧
    List.Forall₂ (fun (task : Task) owner => task.generation = owner.getD 0) s.tasks s.notes.owners

variable {s : SlotState TaskNotes}

theorem Numbered.mono (h : Numbered s) {c' : CommAbstract}
    (hlive : c'.live = true → s.comm.live = true) (hgen : c'.generation = s.comm.generation) :
    Numbered { s with comm := c' } :=
  ⟨fun hc => h.live (hlive hc), fun hfew => (h.counted hfew).imp_left hgen.trans⟩

theorem Numbered.step {β : Type} {e : SlotEffect β} {a : Answer} {b : β} {c' : CommAbstract}
    (hspec : slotSpec setup True β s.comm e) (h : Numbered s)
    (hexec : slotExec e a s.comm = some (b, c')) :
    Numbered ⟨c', tasksAfter s.comm s.tasks e b, observeTasks e a s.comm c' s.notes⟩ := by
  cases e with
  | setSlot comm' =>
    cases a <;> cases hexec
    exact h.mono (fun hc => hspec.live ▸ hc) hspec.generation
  | remove =>
    cases a <;> cases hexec
    unfold ifLive
    split
    · exact h.mono (fun hc => by cases hc) rfl
    · exact h
  | addBio rbio wbio wbioFd flags =>
    cases a <;> cases hexec
    refine ⟨fun _ => Nat.succ_ne_zero _, fun (hfew : s.notes.connections + 1 < 2 ^ 64) => ?_⟩
    obtain ⟨hold, howned⟩ := h.counted (Nat.lt_of_succ_lt hfew)
    have hgen : (if s.comm.live then commAbstractRemove s.comm else s.comm).generation
        = s.notes.connections := by
      rw [← hold]
      split <;> rfl
    refine ⟨?_, howned⟩
    simp only [commAbstractAddBio, hgen, observeTasks, Nat.mod_eq_of_lt hfew]
    exact if_neg (Nat.succ_ne_zero _)
  | enqueue call completion =>
    cases a <;> try cases hexec
    next result =>
      cases result <;> cases hexec
      case queued =>
        refine ⟨h.live, fun hfew => ?_⟩
        obtain ⟨hgen, howned⟩ := h.counted hfew
        refine ⟨hgen, List.rel_append howned (.cons ?_ .nil)⟩
        cases hlive : s.comm.live <;> simp [commAbstractGeneration, hlive, hgen]
      all_goals exact h
  | _ =>
    have hstill := still_of_exec rfl hexec
    have hlive := congrArg CommAbstract.live hstill
    have hgen := congrArg CommAbstract.generation hstill
    exact h.mono (fun hc => hlive.symm.trans hc) hgen

/-- The tasks that carry the generation of the slot are those accepted for the connection in it. -/
theorem generation_check_is_exact (h : Reaches setup observeTasks {} s)
    (hfew : s.notes.connections < 2 ^ 64) (hlive : s.comm.live = true) :
    List.Forall₂ (fun (task : Task) owner =>
        task.generation = commAbstractGeneration s.comm ↔ owner = some s.notes.connections)
      s.tasks s.notes.owners := by
  obtain ⟨code, hrun⟩ := h
  have hnumbered : Numbered s := invariant_of_slot_run Numbered
    (fun e s a b c' hspec hs _ hexec => hs.step hspec hexec)
    ⟨(fun h => by cases h), fun _ => ⟨rfl, .nil⟩⟩ hrun
  obtain ⟨hgen, howned⟩ := hnumbered.counted hfew
  refine howned.imp fun task owner howner => ?_
  rw [commAbstractGeneration, if_pos hlive, hgen, howner]
  cases owner with
  | none => simpa using (hnumbered.live hlive).symm
  | some k => simp

/-- A task whose connection has been replaced. -/
theorem generation_check_is_exact_replaced :
    ∃ s, Reaches taskSetup observeTasks {} s ∧ List.Forall₂ (fun (task : Task) owner =>
      task.generation = commAbstractGeneration s.comm ↔ owner = some 2) s.tasks [some 1] := by
  obtain ⟨s, hs, hend⟩ := exists_reaches observeTasks {} [.accept {}, .addBio true true true {}]
    (fun s => s.notes.connections = 2 && s.notes.owners = [some 1] && s.comm.live) (by decide +kernel)
  simp only [Bool.and_eq_true, decide_eq_true_eq] at hend
  have hexact := generation_check_is_exact hs (by rw [hend.1.1]; decide) hend.2
  rw [hend.1.1, hend.1.2] at hexact
  exact ⟨s, hs, hexact⟩

end Mudmux.Comm
