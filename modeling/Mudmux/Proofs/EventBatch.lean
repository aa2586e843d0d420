import Mudmux.Comm.SlotTable
import Mudmux.Proofs.StoreKinds

/-!
# `Mudmux.Proofs.EventBatch`: events and the connections they are for

`mudmux_run` finds the slot of an event by its number. The number is given away again as soon as the
slot is free, and a listener's event earlier in the batch may do that: a hook closes a slot, the listener
accepts a connection into its number, and an event of the closed connection is then applied to the
accepted one.

Nothing else gives a number away. All code on a slot keeps the generation of the slot for as long as it
is in use (`Kept`), so in a batch without such an accept every event meets the connection that it was
registered for, or none.
-/

set_option autoImplicit false

namespace Mudmux.Comm

open Mudmux.Lib
open CallbackSystem

variable {setup : Setup}

variable {t t' : SlotTable} {c : CommAbstract} {slot : Nat} {α β : Type}

/-! ### The condition -/

/-- No connection is accepted into the slot number of a later event of the batch. -/
def acceptGuard (setup : Setup) : (batchSystem setup).Guard where
  turn _ pending turn :=
    match turn with
    | .accept _ slot => pending.tail.all fun e => e.slot ≠ slot
    | _ => true
  code _ _ := Guard.trivial (tableSystem setup)

/-! ### Connections keep their generation -/

/-- A slot in use has the connection it had before. -/
def Kept (c c' : CommAbstract) : Prop :=
  c'.live = true → c.live = true ∧ c'.generation = c.generation

theorem Kept.refl (c : CommAbstract) : Kept c c := fun hlive => ⟨hlive, rfl⟩

variable {c' : CommAbstract}

theorem Kept.trans {c'' : CommAbstract} (h : Kept c c') (h' : Kept c' c'') : Kept c c'' := by
  intro hlive
  obtain ⟨hlive', hgen'⟩ := h' hlive
  obtain ⟨hlive, hgen⟩ := h hlive'
  exact ⟨hlive, hgen'.trans hgen⟩

theorem Kept.of_eq (hlive : c'.live = c.live) (hgen : c'.generation = c.generation) : Kept c c' :=
  fun h => ⟨hlive ▸ h, hgen⟩

variable {allowed : StoreKind → Prop}

/-- Only the assignment of a slot number begins a connection. -/
theorem Kept.of_exec {e : SlotEffect β} {a : Answer} {b : β} (hspec : storeSpec setup allowed β c e)
    (hexec : slotExec e a c = some (b, c')) : Kept c c' := by
  cases e with
  | setSlot _ =>
    cases a <;> cases hexec
    obtain ⟨kind, _, _, hstore⟩ := hspec
    exact .of_eq hstore.live hstore.generation
  | addBio _ _ _ _ => exact absurd hspec id
  | remove =>
    cases a <;> cases hexec
    unfold ifLive
    split
    · exact nofun
    · exact .refl c
  | _ =>
    have hstill := still_of_exec rfl hexec
    have hlive : c'.still.live = c.still.live := by rw [hstill]
    have hgen : c'.still.generation = c.still.generation := by rw [hstill]
    exact .of_eq hlive hgen

/-- Every slot of the table keeps its connection. -/
def TableKept (t t' : SlotTable) : Prop := ∀ slot, Kept (t.comm slot) (t'.comm slot)

theorem TableKept.refl (t : SlotTable) : TableKept t t := fun _ => .refl _

theorem TableKept.trans {t t' t'' : SlotTable} (h : TableKept t t') (h' : TableKept t' t'') :
    TableKept t t'' :=
  fun slot => (h slot).trans (h' slot)

theorem TableKept.put (h : Kept (t.comm slot) c) : TableKept t (t.put slot c) := by
  intro i
  rw [SlotTable.comm_put]
  split
  · next hi =>
      subst hi
      exact h
  · exact .refl _

/-- The plan: foreign and called code keeps every connection. -/
def tableOutline (setup : Setup) : (tableSystem setup).Outline where
  guard := Guard.trivial (tableSystem setup)
  always _ := True
  inner _ := True
  grows := TableKept
  rest _ := True

/-- An effect on the table is the effect on the record of its slot. -/
theorem tableExec_eq_some (setup : Setup) {e : TableEffect β} {a : Answer} {b : β}
    (h : (tableSystem setup).exec e a t = some (b, t')) :
    ∃ c', slotExec e.effect a (t.comm e.slot) = some (b, c') ∧ t' = t.put e.slot c' := by
  obtain ⟨r, hr, hs⟩ := Option.map_eq_some_iff.mp h
  cases hs
  exact ⟨r.2, hr, rfl⟩

theorem wp_tableEffect {e : SlotEffect β} {k : β → Program TableEffect α} {Q : α → SlotTable → Prop}
    (hu : unfold (setup.forSlot slot) e = none) (hr : reentrant e = false)
    (h : ∀ a b c', slotExec e a (t.comm slot) = some (b, c') →
      (tableOutline setup).wp (k b) Q (t.put slot c')) :
    (tableOutline setup).wp (.perform ⟨slot, e⟩ k) Q t := by
  simp only [Outline.wp, tableSystem, hu, hr, Option.map_none, Option.isSome_none,
    Bool.false_eq_true, if_false]
  intro a b t' _ hexec
  obtain ⟨c', hslot, rfl⟩ := tableExec_eq_some setup (e := ⟨slot, e⟩) hexec
  exact ⟨True.intro, h a b c' hslot⟩

/-- The stores of a slot's code are stores to its record in the table. -/
theorem pairsTo_onSlot {p : Code α} {Q : α → CommAbstract → Prop}
    (h : StoresTo (setup.forSlot slot) allowed p Q (t.comm slot)) :
    PairsTo (S := tableSystem setup)
      (fun β t e => storeSpec (setup.forSlot (TableEffect.slot e)) allowed β
        (SlotTable.comm t (TableEffect.slot e)) (TableEffect.effect e))
      (fun β δ t e e' => TableEffect.slot e' = TableEffect.slot e ∧
        deferPair (setup.forSlot (TableEffect.slot e)) allowed β δ
          (SlotTable.comm t (TableEffect.slot e)) (TableEffect.effect e) (TableEffect.effect e'))
      (fun a t' => Q a (SlotTable.comm t' slot)) (onSlot slot p) t := by
  refine PairsTo.mapEffects (S := tableSystem setup) (R := recordSystem (setup.forSlot slot))
    (TableEffect.mk slot) (fun t => SlotTable.comm t slot) (fun e => Option.isSome_map)
    (fun _ => id) (fun e a t b t' hexec => ⟨a, ?_⟩) (fun _ _ => id) (fun _ _ _ h => ⟨rfl, h⟩) h rfl
  obtain ⟨c', hslot, rfl⟩ := tableExec_eq_some setup hexec
  rw [SlotTable.comm_put, if_pos rfl]
  exact hslot

/-- Code without an assignment of a slot number keeps every connection. -/
theorem wp_onSlot {p : Code α} (t : SlotTable) (hp : Stores (setup.forSlot slot) (fun _ => True) p) :
    (tableOutline setup).wp (onSlot slot p) (fun _ t' => TableKept t t') t := by
  refine Outline.wp_mono _ (Outline.wp_of_pairsTo (O := tableOutline setup) _ _ TableKept
    TableKept.refl (fun _ _ _ => TableKept.trans) (fun _ _ => id)
    (fun e t a b t' hspec _ _ hexec => ?_) (fun e e' t hpair _ a b t' _ hexec => ?_)
    (pairsTo_onSlot (hp (t.comm slot))) True.intro) fun _ _ h => h.2.2
  · obtain ⟨c', hslot, rfl⟩ := tableExec_eq_some setup hexec
    exact ⟨True.intro, True.intro, .put (.of_exec hspec hslot)⟩
  · refine ⟨True.intro, fun a' b' t'' _ hexec' => ⟨True.intro, True.intro, ?_⟩⟩
    obtain ⟨c', hslot, rfl⟩ := tableExec_eq_some setup hexec
    obtain ⟨c'', hslot', rfl⟩ := tableExec_eq_some setup hexec'
    obtain ⟨slot, e⟩ := e
    obtain ⟨slot', e'⟩ := e'
    obtain ⟨rfl, hpair⟩ := hpair
    refine TableKept.trans (.put ?_) (.put ?_)
    · cases e <;> cases e' <;> try exact absurd hpair id
      obtain ⟨_, hstore, _⟩ := hpair
      cases a <;> cases hslot
      exact .of_eq hstore.live hstore.generation
    · cases e <;> cases e' <;> try exact absurd hpair id
      rw [slotExec_of_leavesRecord rfl hslot']
      exact .refl _

theorem tableOutline_stable (setup : Setup) : (tableOutline setup).Stable where
  grows_refl := TableKept.refl
  grows_trans _ _ _ := TableKept.trans
  call e p hu t _ := by
    obtain ⟨q, hq, rfl⟩ := Option.map_eq_some_iff.mp hu
    refine Outline.wp_mono _ (wp_onSlot t (stores_of_unfold (fun _ _ => True.intro) ?_ ?_ hq))
      fun _ _ h => ⟨True.intro, h⟩
    · exact ⟨True.intro, True.intro⟩
    · exact ⟨True.intro, fun _ => True.intro⟩
  foreign x hx t _ _ _ := by
    obtain ⟨slot, x⟩ := x
    have hconnects : x.connects = false := by cases x <;> first | rfl | cases hx
    exact Outline.wp_mono _ (wp_onSlot t (stores_entryCode (fun _ _ => True.intro) hconnects
      fun _ _ => True.intro)) fun _ _ h => ⟨True.intro, h⟩

/-- The code of an accept, with what is found in the slot. -/
def acceptInto (setup : Setup) : Option CommAbstract → Code Unit
  | some _ => pure ()
  | none => do
    Program.effect (.addBio true true true {})
    commInvokeConnect setup

/-- An accept begins a connection in its slot and nowhere else. -/
theorem wp_accept (slot : Nat) (t : SlotTable) :
    (tableOutline setup).wp (onSlot slot (entryCode (setup.forSlot slot) (.accept {})))
      (fun _ t' => ∀ i, i ≠ slot → Kept (t.comm i) (t'.comm i)) t := by
  have hother {t' : SlotTable} {c : CommAbstract} (h : ∀ i, i ≠ slot → Kept (t.comm i) (t'.comm i))
      (i : Nat) (hi : i ≠ slot) : Kept (t.comm i) ((t'.put slot c).comm i) := by
    rw [SlotTable.comm_put, if_neg hi]
    exact h i hi
  show (tableOutline setup).wp (.perform ⟨slot, .getSlot⟩ fun comm => onSlot slot
    (acceptInto (setup.forSlot slot) (if comm.live then some comm else none))) _ t
  refine wp_tableEffect rfl rfl fun a comm c' _ => ?_
  unfold acceptInto
  split
  · exact hother fun _ _ => .refl _
  · refine wp_tableEffect rfl rfl fun a b c'' _ => ?_
    refine Outline.wp_mono _ (wp_onSlot _ (anyPermits.commInvokeConnect (anyGrants _) (anyGrants _)))
      fun _ t' h i hi => ?_
    exact (hother (hother fun _ _ => .refl _) i hi).trans (h i)

/-! ### Whole batches -/

/-- The events that are left meet the connections they were registered for, or none. -/
def Registered (t : SlotTable) (pending : List BatchEvent) : Prop :=
  ∀ e ∈ pending, (t.comm e.slot).live = true → (t.comm e.slot).generation = e.generation

variable {pending : List BatchEvent}

theorem Registered.keep {pending' : List BatchEvent} (h : Registered t pending)
    (hsub : ∀ e ∈ pending', e ∈ pending)
    (hkept : ∀ e ∈ pending', Kept (t.comm e.slot) (t'.comm e.slot)) : Registered t' pending' := by
  intro e he hlive
  obtain ⟨hlive', hgen⟩ := hkept e he hlive
  rw [hgen]
  exact h e (hsub e he) hlive'

/-- The code of an event keeps every connection. -/
theorem kept_of_event {e : BatchEvent} {r : Unit}
    (hcode : Completes (Guard.trivial (tableSystem setup))
      ((batchSystem setup).code (.event e)) t r t') : TableKept t t' :=
  Completes.of_wp (O := tableOutline setup) (tableOutline_stable setup) hcode
    (wp_onSlot t (anyPermits.processEvent (anyGrants _) (anyGrants _) e.event))

theorem Registered.turn {l : BatchTurn} {r : Unit} (h : Registered t pending)
    (henabled : (batchSystem setup).enabled t pending l = true)
    (hturn : (acceptGuard setup).turn t pending l = true)
    (hcode : Completes (Guard.trivial (tableSystem setup)) ((batchSystem setup).code l) t r t') :
    Registered (SectionSystem.Config.next (T := batchSystem setup) pending l r t').state
      (SectionSystem.Config.next (T := batchSystem setup) pending l r t').control := by
  cases l with
  | wait events =>
    obtain ⟨_, rfl⟩ := hcode.of_done
    intro e he hlive
    obtain ⟨x, _, rfl⟩ := List.mem_map.mp he
    show _ = commAbstractGeneration (t'.comm x.1)
    exact (if_pos hlive).symm
  | event e =>
    exact h.keep (fun _ => List.mem_of_mem_tail) fun e' _ => kept_of_event hcode e'.slot
  | accept listener slot =>
    have hkept := Completes.of_wp (O := tableOutline setup) (tableOutline_stable setup) hcode
      (wp_accept slot t)
    refine h.keep (fun _ => List.mem_of_mem_tail) fun e he => hkept e.slot ?_
    exact of_decide_eq_true (List.all_eq_true.mp hturn e he)
  | code slot x =>
    have hconnects : x.connects = false := by
      cases x <;> first | rfl | cases henabled
    have hkept := Completes.of_wp (O := tableOutline setup) (tableOutline_stable setup) hcode
      (wp_onSlot t (stores_entryCode (fun _ _ => True.intro) hconnects fun _ _ => True.intro))
    exact h.keep (fun _ => id) fun e _ => hkept e.slot

/-- An event is applied to the connection that its slot number stood for when the wait returned: when the
loop comes to the event that connection is in the slot or none is, and so it is until its code is done. -/
theorem events_act_on_their_connection (t : SlotTable) (c : (batchSystem setup).Config)
    (hrun : SectionSystem.Run (acceptGuard setup) ⟨t, []⟩ c) (e : BatchEvent)
    (hnext : c.control.head? = some e) :
    ((c.state.comm e.slot).live = true → (c.state.comm e.slot).generation = e.generation) ∧
      ∀ t', Completes (Guard.trivial (tableSystem setup)) ((batchSystem setup).code (.event e))
        c.state () t' → (t'.comm e.slot).live = true → (t'.comm e.slot).generation = e.generation := by
  have hinv : Registered c.state c.control :=
    SectionSystem.invariant_of_run (T := batchSystem setup) Registered
      (fun _ _ _ _ _ h henabled hturn hcode => Registered.turn h henabled hturn hcode)
      (fun _ he => absurd he List.not_mem_nil) hrun
  have he := hinv e (List.mem_of_head? hnext)
  refine ⟨he, fun t' hcode hlive => ?_⟩
  obtain ⟨hlive', hgen⟩ := kept_of_event hcode e.slot hlive
  rw [hgen]
  exact he hlive'

/-! ### A slot number given away in the middle of a batch -/

/-- A strict-mode server with an inbound hook. -/
def inboundSetup : Setup where
  relaxed := false
  registered hook := hook = .messageInbound
  console := false
  fileInputs := false
  consoleTty := false
  acceptKey := id
  mbrlen _ := .complete 1

/-- No console, and a listener in the first slot behind it. -/
def listenerTable : SlotTable :=
  ⟨[{}, { rbio := true, generation := 1, flags := { socketListening := true } }]⟩

/-- Every read gives a character, and the inbound hook closes slot 3. -/
def closingHook (_ : BatchTurn) {β : Type} (t : SlotTable) (e : TableEffect β) :
    (tableSystem inboundSetup).Move :=
  match e.effect with
  | .transportRead => .answer (.read (.data ⟨[97], by decide⟩))
  | .slotBusy => .answer (.bool false)
  | .drain => .answer (.writes [])
  | .runHook _ =>
    if (t.comm 3).live then .enter (3, .api ⟨some .messageInbound, false⟩ .close)
    else .answer (.bool true)
  | _ => .answer .unit

/-- A readable descriptor. -/
def readable : IoEvent := ⟨true, false, false⟩

/-- A descriptor whose peer is gone. -/
def hangup : IoEvent := ⟨false, false, true⟩

/-- Two connections are accepted, into the slots 2 and 3. Then a batch has an input for slot 2, and
the end of the connection in slot 3 behind what is in `between`. -/
def hangupBatch (between : List (Nat × IoEvent)) : List BatchTurn :=
  [.wait [(1, readable)], .accept ⟨1, readable, 1⟩ 2, .wait [(1, readable)],
    .accept ⟨1, readable, 1⟩ 3, .wait ((2, readable) :: between ++ [(3, hangup)]),
    .event ⟨2, readable, 1⟩]

/-- The end of the first connection of slot 3. -/
def staleHangup : BatchEvent := ⟨3, hangup, 1⟩

/-- The hook of slot 2 closes slot 3, the listener accepts the second connection of slot 3, and the event
of the first one removes it. -/
theorem event_of_closed_slot_closes_the_next_connection :
    ∃ c, SectionSystem.Run (SectionSystem.Guard.trivial (batchSystem inboundSetup))
        ⟨listenerTable, []⟩ c ∧
      c.control.head? = some staleHangup ∧
      (c.state.comm 3).live = true ∧ (c.state.comm 3).generation = 2 ∧
      ∃ t', Completes (Guard.trivial (tableSystem inboundSetup))
          ((batchSystem inboundSetup).code (.event staleHangup)) c.state () t' ∧
        (t'.comm 3).live = false := by
  obtain ⟨c, hrun, hc⟩ := SectionSystem.exists_run_of_playTurns
    (SectionSystem.Guard.trivial (batchSystem inboundSetup)) closingHook 200
    (hangupBatch [(1, readable)] ++ [.accept ⟨1, readable, 1⟩ 3]) ⟨listenerTable, []⟩
    (fun c => c.control.head? = some staleHangup && (c.state.comm 3).live
      && (c.state.comm 3).generation = 2
      && (playOut (Guard.trivial (tableSystem inboundSetup)) (closingHook (.event staleHangup)) 200
        ((batchSystem inboundSetup).code (.event staleHangup)) c.state).any
          fun r => !(r.2.comm 3).live) (by decide +kernel)
  simp only [Bool.and_eq_true, decide_eq_true_eq] at hc
  obtain ⟨⟨⟨hnext, hlive⟩, hgen⟩, hcode⟩ := hc
  obtain ⟨⟨_, t'⟩, hplay, hdead⟩ := (Option.any_eq_true _ _).mp hcode
  exact ⟨c, hrun, hnext, hlive, hgen, t', completes_of_playOut hplay, by simpa using hdead⟩

/-- Without an accept in between the event finds no connection. -/
theorem events_act_on_their_connection_hangup :
    ∃ c, SectionSystem.Run (acceptGuard inboundSetup) ⟨listenerTable, []⟩ c ∧
      c.control.head? = some staleHangup ∧
      ((c.state.comm 3).live = true → (c.state.comm 3).generation = 1) := by
  obtain ⟨c, hrun, hc⟩ := SectionSystem.exists_run_of_playTurns (acceptGuard inboundSetup)
    closingHook 200 (hangupBatch []) ⟨listenerTable, []⟩
    (fun c => c.control.head? = some staleHangup) (by decide +kernel)
  have hnext := of_decide_eq_true hc
  exact ⟨c, hrun, hnext, (events_act_on_their_connection listenerTable c hrun _ hnext).1⟩

end Mudmux.Comm
