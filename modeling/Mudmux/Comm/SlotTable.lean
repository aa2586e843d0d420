import Mudmux.Comm.Machine
import Mudmux.Lib.Sections

/-!
# `Mudmux.Comm.SlotTable`: the table of slots and a batch of events

All slots at once, as far as `mudmux_run` dispatches I/O events in strict mode. The code of a slot is
what it is in `Mudmux.Comm.Machine`, run on one record of the table. During a hook, foreign code may make public
calls on any slot; where `comm_flush_all` turns to the other slots, their flushes and closes may run.

`async_runtime_wait` returns a batch of events. An event carries the number of the slot that its
descriptor is registered with and nothing else, and the loop looks the slot up when it comes to the
event. The event of a listener accepts a connection into the lowest free slot number. For each event
the model also keeps the generation that the slot had when the wait returned; no code looks at it.

A hook of a slot is inline in strict mode, so no accepted task is kept. Connections that a program adds
to the table itself are left out.
-/

set_option autoImplicit false

namespace Mudmux.Comm

open Mudmux.Lib

/-! ### The table -/

/-- `comm_abstract_ptr::all_comms_`. A slot number behind the end of the list has not been used. -/
structure SlotTable where
  records : List CommAbstract

namespace SlotTable

/-- The record of a slot number. -/
def comm (t : SlotTable) (slot : Nat) : CommAbstract := t.records.getD slot {}

/-- Store a record; the table grows as needed. -/
def put (t : SlotTable) (slot : Nat) (comm : CommAbstract) : SlotTable :=
  ⟨(t.records ++ List.replicate (slot + 1 - t.records.length) default).set slot comm⟩

/-- `RESERVED_SLOTS`: the console has the first slot number. -/
def reservedSlots : Nat := 1

/-- `comm_abstract_ptr::find_slot`: the first slot behind the reserved ones that is not in use. -/
def findSlot (t : SlotTable) : Nat :=
  reservedSlots + ((t.records.drop reservedSlots).takeWhile CommAbstract.live).length

@[simp] theorem comm_put (t : SlotTable) (slot i : Nat) (comm : CommAbstract) :
    (t.put slot comm).comm i = if i = slot then comm else t.comm i := by
  have hlength : slot < (t.records ++ List.replicate (slot + 1 - t.records.length)
      (default : CommAbstract)).length := by
    rw [List.length_append, List.length_replicate]
    omega
  rw [SlotTable.comm, put, List.getD_eq_getElem?_getD, List.getElem?_set]
  split
  · next hi =>
      subst hi
      rw [if_pos rfl, Option.getD_some]
  · next hne =>
      rw [if_neg (fun h => hne h.symm), SlotTable.comm, List.getD_eq_getElem?_getD]
      rw [List.getElem?_append]
      split
      · rfl
      · next hge =>
          have hnone : t.records[i]? = none := List.getElem?_eq_none (by omega)
          rw [hnone, List.getElem?_replicate]
          split <;> rfl

end SlotTable

/-! ### Code on the table -/

/-- An effect of the code of a slot, with the slot number. -/
structure TableEffect (β : Type) where
  slot : Nat
  effect : SlotEffect β

/-- The code of a slot, on the table. -/
def onSlot {α : Type} (slot : Nat) (p : Code α) : Program TableEffect α :=
  p.mapEffects (TableEffect.mk slot)

/-- `COMM_SLOT_CONSOLE`. -/
def consoleSlot : Nat := 0

/-- What is fixed for a slot number. -/
def Setup.forSlot (setup : Setup) (slot : Nat) : Setup :=
  { setup with console := slot = consoleSlot }

/-- What hooks do to slots, and what `comm_flush_all` does to the slots the running code is not
about. -/
def Entry.ofOtherSlots : Entry → Bool
  | .api _ _ | .flush | .progressClose => true
  | _ => false

/-- The slots of a strict-mode server as a callback system. -/
abbrev tableSystem (setup : Setup) : CallbackSystem TableEffect where
  State := SlotTable
  Answer := Answer
  Entry := Nat × Entry
  exec e a t := (slotExec e.effect a (t.comm e.slot)).map fun r => (r.1, t.put e.slot r.2)
  unfold e := (unfold (setup.forSlot e.slot) e.effect).map (onSlot e.slot)
  reentrant e := reentrant e.effect
  code x := onSlot x.1 (entryCode (setup.forSlot x.1) x.2)
  enabled _ _ := true
  foreign x := x.2.ofOtherSlots

/-! ### Batches of events -/

/-- An event of the batch that `async_runtime_wait` returned: the slot number in its context, and the
generation of the connection in that slot at the time. -/
structure BatchEvent where
  slot : Nat
  event : IoEvent
  generation : Nat
  deriving DecidableEq, Repr

/-- The turns of the event loop. -/
inductive BatchTurn where
  /-- `async_runtime_wait` returns events for these slots. -/
  | wait (events : List (Nat × IoEvent))
  /-- The next event of the batch. -/
  | event (event : BatchEvent)
  /-- The next event of the batch is that of a listener, and a connection is accepted into `slot`. -/
  | accept (listener : BatchEvent) (slot : Nat)
  /-- Other code on a slot, by the loop or by another thread. -/
  | code (slot : Nat) (x : Entry)
  deriving DecidableEq, Repr

/-- The code that the loop runs on a slot away from the events, and public calls of other threads. -/
def Entry.betweenEvents : Entry → Bool
  | .api _ _ | .resumeInput | .flush | .progressClose | .prompt | .queuedInput _ => true
  | _ => false

/-- The event loop on the table. Its control state is what is left of the batch. -/
abbrev batchSystem (setup : Setup) : SectionSystem (tableSystem setup) where
  Control := List BatchEvent
  Label := BatchTurn
  Result _ := Unit
  code
    | .wait _ => pure ()
    | .event e => onSlot e.slot (processEvent (setup.forSlot e.slot) e.event)
    | .accept _ slot => onSlot slot (entryCode (setup.forSlot slot) (.accept {}))
    | .code slot x => onSlot slot (entryCode (setup.forSlot slot) x)
  enabled t pending
    | .wait _ => pending = []
    | .event e => pending.head? = some e
    | .accept listener slot =>
      pending.head? = some listener && (t.comm listener.slot).live
        && (t.comm listener.slot).flags.socketListening && slot = t.findSlot
    | .code _ x => x.betweenEvents
  after
    | .wait events, _, t, _ =>
      (t, events.map fun e => ⟨e.1, e.2, commAbstractGeneration (t.comm e.1)⟩)
    | .event _, _, t, pending => (t, pending.tail)
    | .accept _ _, _, t, pending => (t, pending.tail)
    | .code _ _, _, t, pending => (t, pending)

end Mudmux.Comm
