import Mudmux.Proofs.StoreKinds

/-!
# `Mudmux.Proofs.CodeSteps`: the code of a slot meets `slotSpec`

`slotSpec` as a requirement of the pass over the code: every kind of store is a `SlotUpdate`, and the
functions that run the life of the slot need `lifecycle`. The safety theorems about whole runs are derived
from this and do not look at the code again.
-/

set_option autoImplicit false

namespace Mudmux.Comm

open Mudmux.Lib
open CallbackSystem

variable {setup : Setup} {lifecycle : Prop}

/-- The requirement of `slotSpec`. -/
abbrev slotRequirement (setup : Setup) (lifecycle : Prop) : Requirement :=
  ⟨slotSpec setup lifecycle, deferPair setup fun _ => True⟩

/-- The effects of the code meet `slotSpec` from the record `c`, and it ends in `Q`. -/
abbrev Does (setup : Setup) (lifecycle : Prop) {α : Type} (p : Code α)
    (Q : α → CommAbstract → Prop) (c : CommAbstract) : Prop :=
  MeetsTo setup (slotRequirement setup lifecycle) p Q c

/-- The effects of the code meet `slotSpec` from any record. -/
abbrev Steps (setup : Setup) (lifecycle : Prop) {α : Type} (p : Code α) : Prop :=
  Meets setup (slotRequirement setup lifecycle) p

/-- The kinds of stores that need the permission. -/
def StoreKind.ofLifecycle : StoreKind → Bool
  | close | prompt => true
  | _ => false

theorem StoreKind.Store.update {kind : StoreKind} {c c' : CommAbstract} (h : kind.Store setup c c')
    (hl : kind.ofLifecycle = true → lifecycle) (hflushed : kind = .flushed → c.outbound = []) :
    SlotUpdate lifecycle c c' := by
  rw [slotUpdate_iff]
  cases kind <;> simp only [StoreKind.Store] at h
  case enableWebsocket | enableTls => rcases h with rfl | ⟨_, rfl⟩ <;> simp
  all_goals
    grind [CommAbstract.core, CommAbstract.mapFlags, commFreeInboundBuffers, WebSocketState.closed,
      StoreKind.ofLifecycle]

theorem deferPair_splits : Splits (S := recordSystem setup) (slotSpec setup lifecycle)
    (deferPair setup fun _ => True) := by
  intro β δ c e e' h
  cases e with
  | setSlot c' =>
    cases e' with
    | setHasDeferred value =>
      have hstore : StoreKind.defer.Store setup c c' := h.2.1
      exact ⟨hstore.update nofun nofun,
        fun _ _ _ _ => True.intro⟩
    | _ => cases h
  | _ => cases e' <;> cases h

theorem stepGrants {kind : StoreKind} (hl : kind.ofLifecycle = true → lifecycle) :
    Grants setup (slotRequirement setup lifecycle) kind := by
  cases kind with
  | defer => exact fun _ => ⟨True.intro, rfl, rfl⟩
  | flushed =>
    intro c hc
    have hstore : StoreKind.flushed.Store setup c _ := rfl
    exact hstore.update nofun fun _ => hc
  | _ => exact fun _ _ hstore => hstore.update hl nofun

theorem stepPermits : PermitsInput setup (slotRequirement setup lifecycle) where
  free he _ := by cases ‹SlotEffect _› <;> first | exact True.intro | cases he
  writeRaw _ _ h := h
  releaseBarrier _ h := h
  freeOutbound _ h := h
  pong _ _ := True.intro
  hook _ _ h := by
    have hguard : DispatchGuard lifecycle _ _ := ⟨h.live, h.ready, fun _ => h.ordinary id⟩
    exact ⟨fun _ => hguard, fun _ => True.intro, hguard⟩
  idle kind hkind := stepGrants fun h => by cases kind <;> cases h <;> cases hkind
  text := stepGrants nofun
  input := stepGrants nofun

/-- No completion needs the permission. -/
theorem completionGrants (completion : Completion) :
    ∀ kind ∈ completion.kinds, Grants setup (slotRequirement setup lifecycle) kind := by
  intro kind hkind
  refine stepGrants fun h => ?_
  cases completion <;> cases kind <;> cases h <;> simp [Completion.kinds] at hkind

/-- The functions that need the permission dispatch the hooks that need it. -/
theorem lifecycleHook (hl : lifecycle) {call : HookCall} {c : CommAbstract}
    (hlive : call.hookType.ofOpenSlot = true → c.live = true)
    (hready : call.hookType ≠ .transportReady) :
    Dispatches (slotRequirement setup lifecycle) call c := by
  have hguard : DispatchGuard lifecycle call c := ⟨hlive, fun h => absurd h hready, fun h => absurd hl h⟩
  exact ⟨fun _ => hguard, fun _ => True.intro, hguard⟩

/-- The recursive functions. -/
theorem steps_of_unfold (hl : lifecycle) {β : Type} {e : SlotEffect β} {p : Code β}
    (h : unfold setup e = some p) : Steps setup lifecycle p := by
  refine stepPermits.of_unfold ⟨stepGrants nofun, stepGrants nofun⟩ ?_ h
  exact {
    close := stepGrants fun _ => hl
    disconnected := fun _ => stepGrants nofun
    hook := fun _ => lifecycleHook hl nofun nofun
    remove := fun _ h => h }

/-! ### Whole runs -/

/-- The entries whose code needs the permission. -/
def Entry.ofLifecycle : Entry → Bool
  | .api _ (.enablePrompt _) | .prompt | .accept _ | .addBio _ _ _ _ => true
  | _ => false

/-- The code of an entry, as far as it can be taken. -/
theorem steps_entryCode {γ : Type} {s : SlotState γ} {x : Entry}
    (henabled : entryEnabled setup s x = true) (hl : x.ofLifecycle = true → lifecycle) :
    Steps setup lifecycle (entryCode setup x) := by
  have hadd {rbio wbio wbioFd : Bool} {flags : Flags} (hl : lifecycle) :
      Steps setup lifecycle (Program.effect (.addBio rbio wbio wbioFd flags)) :=
    meets_effect fun _ => hl
  cases hx : x.connects with
  | true =>
    cases x with
    | accept flags =>
      refine stepPermits.guard (meets_bind (hadd (hl rfl)) fun _ => ?_) fun c _ => meets_pure _ c
      exact stepPermits.commInvokeConnect (stepGrants nofun) (stepGrants nofun)
    | addBio rbio wbio wbioFd flags => exact meets_when (hadd (hl rfl))
    | _ => cases hx
  | false =>
    refine stepPermits.entryCode (stepGrants nofun) hx ?_ fun kind hkind hclose =>
      stepGrants fun hprompt => ?_
    · cases x with
      | prompt => exact fun c hlive => lifecycleHook (hl rfl) (fun _ => hlive) nofun
      | consoleEof _ => exact fun _ => .inr henabled
      | startTask _ =>
        simp only [entryEnabled, Bool.and_eq_true] at henabled
        exact fun _ hstrict => by simp [henabled.1] at hstrict
      | _ => exact True.intro
    · -- of the kinds that need the permission, only switching the prompt is left
      cases kind <;> cases hprompt
      · exact absurd rfl hclose
      · cases x with
        | api _ call => cases call <;> simp_all [ApiCall.kinds, Entry.kinds, Entry.ofLifecycle]
        | completeTask task => cases hc : task.completion <;> simp [Entry.kinds, hc, Completion.kinds] at hkind
        | _ => simp [Entry.kinds] at hkind

variable {γ : Type} {observe : Observer γ}

/-- The two requirements in the machine, whose state holds more than the record. -/
theorem machineSplits : Splits (S := slotSystem setup observe)
    (fun β s e => slotSpec setup lifecycle β (SlotState.comm s) e)
    (fun β δ s e e' => deferPair setup (fun _ => True) β δ (SlotState.comm s) e e') := by
  intro β δ s e e' h
  obtain ⟨hspec, hspec'⟩ := deferPair_splits s.comm e e' h
  refine ⟨hspec, fun a b s' hexec => ?_⟩
  obtain ⟨r, hr, hs'⟩ := Option.map_eq_some_iff.mp hexec
  cases hs'
  exact hspec' a r.1 r.2 hr

/-- A property that every effect keeps, on the condition `guard`, holds in every state of every run
under that condition. -/
theorem invariant_of_slot_run {guard : (slotSystem setup observe).Guard} (inv : SlotState γ → Prop)
    (hlocal : ∀ {β : Type} (e : SlotEffect β) (s : SlotState γ) (a : Answer) (b : β)
      (comm' : CommAbstract), slotSpec setup True β s.comm e → inv s → guard.effect s e a = true →
      slotExec e a s.comm = some (b, comm') →
      inv ⟨comm', tasksAfter s.comm s.tasks e b, observe e a s.comm comm' s.notes⟩)
    {s : SlotState γ} (hs : inv s) {c : (slotSystem setup observe).Config}
    (hrun : Run guard ⟨s, .done ()⟩ c) : inv c.state := by
  refine invariant_of_run machineSplits inv
    (fun e p hu s => pairsTo_of_meetsTo (steps_of_unfold True.intro hu s.comm))
    (fun x s henabled s' => pairsTo_of_meetsTo (steps_entryCode henabled (fun _ => True.intro) s'.comm))
    (fun e s a b s' hspec hi hg hexec => ?_) hs hrun
  obtain ⟨r, hr, hs'⟩ := Option.map_eq_some_iff.mp hexec
  cases hs'
  exact hlocal e s a r.1 r.2 hspec hi hg hr

end Mudmux.Comm
