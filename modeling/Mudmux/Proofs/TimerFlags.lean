import Mudmux.Execution.Timer
import Mudmux.Lib.History

/-!
# `Mudmux.Proofs.TimerFlags`: timer flags are neither lost nor invented

`MaskAccount` follows every bit: what was published is in the mask, with the loop, or was dispatched with
a mask that was taken later; and what is in the mask was published behind the take of every dispatch so
far. Where a bit is can be read off the log because a take empties the mask: what was published behind
the last take is still there.

`Heeded` is the other half, that the loop will look. It resets the event before it takes the mask, so a
producer whose bits the take has missed sets the event behind the reset.
-/

set_option autoImplicit false

namespace Mudmux.Execution

open Mudmux.Lib ThreadSystem

/-! ### The account of the mask -/

/-- The bit is published at this place. -/
def PublishedAt (log : List TimerNote) (b i : Nat) : Prop :=
  ∃ f, log[i]? = some (.published f) ∧ f.testBit b = true

/-- The place is behind the take of every mask dispatched so far. -/
def BehindDispatches (log : List TimerNote) (i : Nat) : Prop :=
  ∀ k taken mask : Nat, log[k]? = some (.dispatched taken mask) → taken < i

/-- A mask with the bit was taken behind this place, and dispatched. -/
def Served (log : List TimerNote) (b i : Nat) : Prop :=
  ∃ k taken mask : Nat, i < taken ∧ log[taken]? = some (.taken mask) ∧
    log[k]? = some (.dispatched taken mask) ∧ mask.testBit b = true

/-- The mask that the loop holds, with the place where it was taken. -/
abbrev HeldMask := Option (Nat × Nat)

def HeldMask.mask (held : HeldMask) : Nat := (held.map Prod.snd).getD 0

/-- The loop holds a mask: it is the last one taken, its bits were published before and those in
`timer_pending_flags` behind that take. -/
structure Holding (flags taken mask : Nat) (log : List TimerNote) : Prop where
  place : log[taken]? = some (.taken mask)
  nonzero : mask ≠ 0
  latest : ∀ j m : Nat, log[j]? = some (.taken m) → j ≤ taken
  before : ∀ b, mask.testBit b = true → ∃ i < taken, PublishedAt log b i ∧ BehindDispatches log i
  since : ∀ b, flags.testBit b = true → ∃ i, taken < i ∧ PublishedAt log b i

/-- A mask that was dispatched: its bits were published before it was taken and behind the take of every
earlier dispatch. -/
def Accountable (log : List TimerNote) (k taken mask : Nat) : Prop :=
  mask ≠ 0 ∧ taken < k ∧ log[taken]? = some (.taken mask) ∧
    ∀ b, mask.testBit b = true → ∃ i < taken, PublishedAt log b i ∧
      ∀ k' taken' mask' : Nat, k' < k → log[k']? = some (.dispatched taken' mask') → taken' < i

structure MaskAccount (flags : Nat) (held : HeldMask) (log : List TimerNote) : Prop where
  served : ∀ b i, PublishedAt log b i →
    flags.testBit b = true ∨ held.mask.testBit b = true ∨ Served log b i
  recent : ∀ b i, PublishedAt log b i → (∀ j m : Nat, log[j]? = some (.taken m) → j < i) →
    flags.testBit b = true
  fresh : ∀ b, flags.testBit b = true → ∃ i, PublishedAt log b i ∧ BehindDispatches log i
  holding : ∀ taken mask, held = some (taken, mask) → Holding flags taken mask log
  history : ∀ k taken mask : Nat, log[k]? = some (.dispatched taken mask) → Accountable log k taken mask

variable {taken mask : Nat}

section Account

variable {flags : Nat} {held : HeldMask} {log : List TimerNote}

variable {i : Nat}

theorem PublishedAt.mono {b : Nat} (h : PublishedAt log b i) (note : TimerNote) :
    PublishedAt (log ++ [note]) b i := by
  obtain ⟨f, hf, hb⟩ := h
  exact ⟨f, getElem?_concat_of_some hf, hb⟩

/-- A publication stands where it stood, or is the new note. -/
theorem PublishedAt.cases {b : Nat} {note : TimerNote} (h : PublishedAt (log ++ [note]) b i) :
    PublishedAt log b i ∨ (i = log.length ∧ ∃ f, note = .published f ∧ f.testBit b = true) := by
  obtain ⟨f, hf, hb⟩ := h
  obtain hf | ⟨hi, hnote⟩ := getElem?_concat_eq_some.mp hf
  · exact .inl ⟨f, hf, hb⟩
  · exact .inr ⟨hi, f, hnote, hb⟩

theorem Served.mono {b : Nat} (h : Served log b i) (note : TimerNote) :
    Served (log ++ [note]) b i := by
  obtain ⟨k, taken, mask, hlt, htaken, hdispatched, hb⟩ := h
  exact ⟨k, taken, mask, hlt, getElem?_concat_of_some htaken, getElem?_concat_of_some hdispatched, hb⟩

/-- Only a dispatch moves the place that has to be behind. -/
theorem BehindDispatches.mono (h : BehindDispatches log i) {note : TimerNote}
    (hnote : ∀ taken mask, note = .dispatched taken mask → taken < i) :
    BehindDispatches (log ++ [note]) i := by
  intro k taken mask hk
  obtain hk | ⟨-, heq⟩ := getElem?_concat_eq_some.mp hk
  · exact h k taken mask hk
  · exact hnote taken mask heq

theorem Accountable.mono {k : Nat} (h : Accountable log k taken mask) (hk : k < log.length)
    (note : TimerNote) : Accountable (log ++ [note]) k taken mask := by
  obtain ⟨hmask, hlt, hplace, hbits⟩ := h
  refine ⟨hmask, hlt, getElem?_concat_of_some hplace, fun b hb => ?_⟩
  obtain ⟨i, hi, hpublished, hbehind⟩ := hbits b hb
  refine ⟨i, hi, hpublished.mono note, fun k' taken' mask' hk' hdispatched => ?_⟩
  obtain hdispatched | ⟨heq, -⟩ := getElem?_concat_eq_some.mp hdispatched
  · exact hbehind k' taken' mask' hk' hdispatched
  · omega

/-- Takes of masks that were dispatched are in the log. -/
theorem MaskAccount.behind_length (h : MaskAccount flags held log) :
    BehindDispatches log log.length := by
  intro k taken mask hk
  obtain ⟨-, hlt, -⟩ := h.history k taken mask hk
  have hlength := lt_length_of_getElem? hk
  omega

theorem maskAccount_nil : MaskAccount 0 none [] := by
  have hnone {b i : Nat} (h : PublishedAt [] b i) : False := by
    obtain ⟨f, hf, -⟩ := h
    cases hf
  refine ⟨fun b i h => absurd h hnone, fun b i h => absurd h hnone, fun b hb => ?_, nofun, nofun⟩
  rw [Nat.zero_testBit] at hb
  cases hb

theorem MaskAccount.publish (h : MaskAccount flags held log) (f : Nat) :
    MaskAccount (flags ||| f) held (log ++ [.published f]) := by
  have hold {b : Nat} (hb : flags.testBit b = true) : (flags ||| f).testBit b = true := by
    rw [Nat.testBit_or, hb, Bool.true_or]
  have hnew {b : Nat} (hb : f.testBit b = true) : (flags ||| f).testBit b = true := by
    rw [Nat.testBit_or, hb, Bool.or_true]
  have hsplit {b : Nat} (hb : (flags ||| f).testBit b = true) :
      flags.testBit b = true ∨ PublishedAt (log ++ [.published f]) b log.length := by
    rw [Nat.testBit_or, Bool.or_eq_true] at hb
    exact hb.imp_right fun hf => ⟨f, getElem?_concat_eq_some.mpr (.inr ⟨rfl, rfl⟩), hf⟩
  refine ⟨?_, ?_, ?_, ?_, ?_⟩
  · intro b i hpublished
    obtain hpublished | ⟨-, f', hf', hb⟩ := hpublished.cases
    · obtain hb | hb | hb := h.served b i hpublished
      · exact .inl (hold hb)
      · exact .inr (.inl hb)
      · exact .inr (.inr (hb.mono _))
    · cases hf'
      exact .inl (hnew hb)
  · intro b i hpublished hlast
    obtain hpublished | ⟨-, f', hf', hb⟩ := hpublished.cases
    · exact hold (h.recent b i hpublished fun j m hj => hlast j m (getElem?_concat_of_some hj))
    · cases hf'
      exact hnew hb
  · intro b hb
    obtain hb | hpublished := hsplit hb
    · obtain ⟨i, hpublished, hbehind⟩ := h.fresh b hb
      exact ⟨i, hpublished.mono _, hbehind.mono nofun⟩
    · exact ⟨log.length, hpublished, h.behind_length.mono nofun⟩
  · intro taken mask hheld
    have hholding := h.holding taken mask hheld
    refine ⟨getElem?_concat_of_some hholding.place, hholding.nonzero, ?_, ?_, ?_⟩
    · intro j m hj
      obtain hj | ⟨-, heq⟩ := getElem?_concat_eq_some.mp hj
      · exact hholding.latest j m hj
      · cases heq
    · intro b hb
      obtain ⟨i, hi, hpublished, hbehind⟩ := hholding.before b hb
      exact ⟨i, hi, hpublished.mono _, hbehind.mono nofun⟩
    · intro b hb
      obtain hb | hpublished := hsplit hb
      · obtain ⟨i, hi, hpublished⟩ := hholding.since b hb
        exact ⟨i, hi, hpublished.mono _⟩
      · exact ⟨log.length, lt_length_of_getElem? hholding.place, hpublished⟩
  · intro k taken mask hk
    obtain hk | ⟨-, heq⟩ := getElem?_concat_eq_some.mp hk
    · exact (h.history k taken mask hk).mono (lt_length_of_getElem? hk) _
    · cases heq

/-- The take empties the mask; unless there was nothing in it, the loop holds what was. -/
theorem MaskAccount.take (h : MaskAccount flags none log) :
    MaskAccount 0 (if flags = 0 then none else some (log.length, flags)) (log ++ [.taken flags]) := by
  have hzero (b : Nat) : ¬ (0 : Nat).testBit b = true := by simp
  have hmask : HeldMask.mask (if flags = 0 then none else some (log.length, flags)) = flags := by
    split
    · next hflags => exact hflags.symm
    · rfl
  refine ⟨?_, ?_, fun b hb => absurd hb (hzero b), ?_, ?_⟩
  · intro b i hpublished
    rw [hmask]
    obtain hpublished | ⟨-, f, hf, -⟩ := hpublished.cases
    · obtain hb | hb | hb := h.served b i hpublished
      · exact .inr (.inl hb)
      · exact absurd hb (hzero b)
      · exact .inr (.inr (hb.mono _))
    · cases hf
  · intro b i hpublished hlast
    -- the new take stands behind every publication
    have hlt := hlast log.length flags (getElem?_concat_eq_some.mpr (.inr ⟨rfl, rfl⟩))
    obtain ⟨f, hf, -⟩ := hpublished
    have hlength := lt_length_of_getElem? hf
    rw [List.length_append, List.length_singleton] at hlength
    omega
  · intro taken mask hheld
    split at hheld
    · cases hheld
    · next hflags =>
        cases hheld
        refine ⟨getElem?_concat_eq_some.mpr (.inr ⟨rfl, rfl⟩), hflags, ?_, ?_,
          fun b hb => absurd hb (hzero b)⟩
        · intro j m hj
          have hlength := lt_length_of_getElem? hj
          rw [List.length_append, List.length_singleton] at hlength
          omega
        · intro b hb
          obtain ⟨i, hpublished, hbehind⟩ := h.fresh b hb
          obtain ⟨f, hf, hfb⟩ := hpublished
          exact ⟨i, lt_length_of_getElem? hf, PublishedAt.mono ⟨f, hf, hfb⟩ _, hbehind.mono nofun⟩
  · intro k taken mask hk
    obtain hk | ⟨-, heq⟩ := getElem?_concat_eq_some.mp hk
    · exact (h.history k taken mask hk).mono (lt_length_of_getElem? hk) _
    · cases heq

variable (h : MaskAccount flags (some (taken, mask)) log)

include h

theorem MaskAccount.dispatch : MaskAccount flags none (log ++ [.dispatched taken mask]) := by
  have hholding := h.holding taken mask rfl
  have hlength := lt_length_of_getElem? hholding.place
  have hlast : (log ++ [TimerNote.dispatched taken mask])[log.length]? = some (.dispatched taken mask) :=
    getElem?_concat_eq_some.mpr (.inr ⟨rfl, rfl⟩)
  refine ⟨?_, ?_, ?_, nofun, ?_⟩
  · intro b i hpublished
    obtain hpublished' | ⟨-, f, hf, -⟩ := hpublished.cases
    · obtain hb | hb | hb := h.served b i hpublished'
      · exact .inl hb
      · -- the bit goes with the mask, or was published again since
        rcases Nat.lt_trichotomy i taken with hlt | rfl | hgt
        · exact .inr (.inr ⟨log.length, taken, mask, hlt, getElem?_concat_of_some hholding.place,
            hlast, hb⟩)
        · obtain ⟨f, hf, -⟩ := hpublished'
          exact absurd (Option.some.inj (hf.symm.trans hholding.place)) nofun
        · exact .inl (h.recent b i hpublished' fun j m hj =>
            Nat.lt_of_le_of_lt (hholding.latest j m hj) hgt)
      · exact .inr (.inr (hb.mono _))
    · cases hf
  · intro b i hpublished hlater
    obtain hpublished | ⟨-, f, hf, -⟩ := hpublished.cases
    · exact h.recent b i hpublished fun j m hj => hlater j m (getElem?_concat_of_some hj)
    · cases hf
  · intro b hb
    obtain ⟨i, hi, hpublished⟩ := hholding.since b hb
    refine ⟨i, hpublished.mono _, fun k taken' mask' hk => ?_⟩
    obtain hk | ⟨-, heq⟩ := getElem?_concat_eq_some.mp hk
    · obtain ⟨-, -, hplace, -⟩ := h.history k taken' mask' hk
      exact Nat.lt_of_le_of_lt (hholding.latest taken' mask' hplace) hi
    · cases heq
      exact hi
  · intro k taken' mask' hk
    obtain hk | ⟨rfl, heq⟩ := getElem?_concat_eq_some.mp hk
    · exact (h.history k taken' mask' hk).mono (lt_length_of_getElem? hk) _
    · cases heq
      refine ⟨hholding.nonzero, hlength, getElem?_concat_of_some hholding.place, fun b hb => ?_⟩
      obtain ⟨i, hi, hpublished, hbehind⟩ := hholding.before b hb
      refine ⟨i, hi, hpublished.mono _, fun k' taken' mask' hk' hdispatched => ?_⟩
      obtain hdispatched | ⟨heq, -⟩ := getElem?_concat_eq_some.mp hdispatched
      · exact hbehind k' taken' mask' hdispatched
      · omega

theorem MaskAccount.restore : MaskAccount (flags ||| mask) none log := by
  have hholding := h.holding taken mask rfl
  have hold {b : Nat} (hb : flags.testBit b = true) : (flags ||| mask).testBit b = true := by
    rw [Nat.testBit_or, hb, Bool.true_or]
  refine ⟨?_, ?_, ?_, nofun, h.history⟩
  · intro b i hpublished
    obtain hb | hb | hb := h.served b i hpublished
    · exact .inl (hold hb)
    · refine .inl ?_
      rw [Nat.testBit_or, show mask.testBit b = true from hb, Bool.or_true]
    · exact .inr (.inr hb)
  · intro b i hpublished hlast
    exact hold (h.recent b i hpublished hlast)
  · intro b hb
    rw [Nat.testBit_or, Bool.or_eq_true] at hb
    obtain hb | hb := hb
    · exact h.fresh b hb
    · obtain ⟨i, -, hpublished, hbehind⟩ := hholding.before b hb
      exact ⟨i, hpublished, hbehind⟩

end Account

/-! ### The loop will look -/

/-- The mask that the loop holds at a point. -/
def LoopPoint.held : LoopPoint → HeldMask
  | dispatch taken mask _ | restore taken mask _ => some (taken, mask)
  | _ => none

/-- The loop is on its way to take the mask. -/
def LoopPoint.takes : LoopPoint → Bool
  | acknowledge _ | take _ => true
  | _ => false

/-- Bits in the mask have the event signalled, or the registration marked, or somebody is about to do so
or to take them. -/
def Heeded (s : TimerState) (ts : Multiset TimerPoint) : Prop :=
  s.flags ≠ 0 → s.signaled = true ∨ s.pending = true ∨ .signal ∈ ts ∨ s.loop.takes = true

/-- `HOOK_TIMER` stays registered and returns no negative value, and the workers stay up. -/
def timerGuard (strict : Bool) : (timerSystem strict).Guard where
  thread _ _ _ := true
  env _
    | .trigger _ => true
    | .loop choice => !choice.negative
    | .setHook hook => hook
    | .setRunning running => running

/-- All of it, for a state and the threads beside it. -/
structure Timed (s : TimerState) (ts : Multiset TimerPoint) : Prop where
  hook : s.hook = true
  running : s.running = true
  account : MaskAccount s.flags s.loop.held s.log
  heeded : Heeded s ts
  marked : ∀ taken mask last, s.loop = .restore taken mask last → s.pending = true
  answers : ∀ answer ∈ s.answers, answer.2 ≠ .error

section Steps

variable {strict : Bool} {s s' : TimerState} {ts : List TimerPoint} {rest : Multiset TimerPoint}

theorem leave_held (last : Bool) : (s.leave last).loop.held = none := by
  cases last <;> rfl

theorem leave_ne_restore (last : Bool) (taken mask : Nat) (last' : Bool) :
    (s.leave last).loop ≠ .restore taken mask last' := by
  cases last <;> exact nofun

theorem timed_step {t : TimerPoint} {choice : Unit} (h : Timed s (t ::ₘ rest))
    (hstep : timerStep s t choice = some (s', ts)) : Timed s' (ts + rest) := by
  cases t with
  | signal =>
    cases hstep
    exact ⟨h.hook, h.running, h.account, fun _ => .inl rfl, h.marked, h.answers⟩
  | callback =>
    cases hstep
    refine ⟨h.hook, h.running, h.account, fun hflags => ?_, h.marked, h.answers⟩
    obtain hsignaled | hpending | hmem | htakes := h.heeded hflags
    · exact .inl hsignaled
    · exact .inr (.inl hpending)
    · refine .inr (.inr (.inl ?_))
      obtain hmem | hmem := Multiset.mem_cons.mp hmem
      · cases hmem
      · exact Multiset.mem_add.mpr (.inr hmem)
    · exact .inr (.inr (.inr htakes))

variable (h : Timed s rest)

include h

/-- A loop that is not about to take the mask leaves it to the event and the registration. -/
theorem Timed.waits (htakes : s.loop.takes = false) (hflags : s.flags ≠ 0) :
    s.signaled = true ∨ s.pending = true ∨ .signal ∈ rest := by
  obtain hsignaled | hpending | hmem | htakes' := h.heeded hflags
  · exact .inl hsignaled
  · exact .inr (.inl hpending)
  · exact .inr (.inr hmem)
  · exact absurd (htakes.symm.trans htakes') nofun

/-- The loop goes on without touching the mask, the event or the registration. -/
theorem Timed.move (htakes : s.loop.takes = false) (hheld : s.loop.held = none) {p : LoopPoint}
    (hp : p.held = none) (hp' : ∀ taken mask last, p ≠ .restore taken mask last) :
    Timed { s with loop := p } rest := by
  refine ⟨h.hook, h.running, ?_, fun hflags => ?_, fun taken mask last heq => ?_, h.answers⟩
  · have haccount := h.account
    rw [hheld] at haccount
    show MaskAccount s.flags p.held s.log
    rwa [hp]
  · obtain hsignaled | hpending | hmem := h.waits htakes hflags
    · exact .inl hsignaled
    · exact .inr (.inl hpending)
    · exact .inr (.inr (.inl hmem))
  · exact absurd heq (hp' taken mask last)

theorem Timed.leave (htakes : s.loop.takes = false) (hheld : s.loop.held = none) (last : Bool) :
    Timed (s.leave last) rest := by
  cases last
  · exact h.move htakes hheld rfl nofun
  · exact h.move htakes hheld rfl nofun

/-- What the mask, the event and the registration do not depend on. -/
theorem Timed.frame (hhook : s'.hook = s.hook) (hrunning : s'.running = s.running)
    (hflags : s'.flags = s.flags) (hsignaled : s'.signaled = s.signaled)
    (hpending : s'.pending = s.pending) (hloop : s'.loop = s.loop) (hlog : s'.log = s.log)
    (hanswers : ∀ answer ∈ s'.answers, answer.2 ≠ .error) : Timed s' rest := by
  refine ⟨hhook.trans h.hook, hrunning.trans h.running, ?_, ?_, ?_, hanswers⟩
  · rw [hflags, hloop, hlog]
    exact h.account
  · rw [Heeded, hflags, hsignaled, hpending, hloop]
    exact h.heeded
  · rw [hloop, hpending]
    exact h.marked

/-- More threads do no harm. -/
theorem Timed.mono (more : Multiset TimerPoint) : Timed s (more + rest) := by
  refine ⟨h.hook, h.running, h.account, fun hflags => ?_, h.marked, h.answers⟩
  obtain hsignaled | hpending | hmem | htakes := h.heeded hflags
  · exact .inl hsignaled
  · exact .inr (.inl hpending)
  · exact .inr (.inr (.inl (Multiset.mem_add.mpr (.inr hmem))))
  · exact .inr (.inr (.inr htakes))

theorem Timed.answer (mask : Nat) {result : Comm.DispatchResult} (hresult : result ≠ .error) :
    Timed (s.answer mask result) rest := by
  refine h.frame rfl rfl rfl rfl rfl rfl rfl fun answer hmem => ?_
  obtain hmem | hmem := List.mem_append.mp hmem
  · exact h.answers answer hmem
  · cases List.mem_singleton.mp hmem
    exact hresult

variable {last : Bool}

/-- The admission: the mask goes to a callback. -/
theorem Timed.dispatch (hloop : s.loop = .dispatch taken mask last) :
    Timed (({ s with inFlight := true, loop := .callback mask last }).observe
      (.dispatched taken mask)) rest := by
  have haccount := h.account
  rw [hloop] at haccount
  refine ⟨h.hook, h.running, haccount.dispatch, fun hflags => ?_, nofun, h.answers⟩
  obtain hsignaled | hpending | hmem := h.waits (by rw [hloop]; rfl) hflags
  · exact .inl hsignaled
  · exact .inr (.inl hpending)
  · exact .inr (.inr (.inl hmem))

omit h in
theorem timed_dispatch (strict : Bool) (h : Timed s rest)
    (hloop : s.loop = .dispatch taken mask last) :
    Timed (s.dispatchTimer strict taken mask last).1
      ((s.dispatchTimer strict taken mask last).2 + rest) := by
  have hup : ¬ (!s.running) = true := by simp [h.running]
  rw [TimerState.dispatchTimer, if_neg hup]
  split
  · -- refused: the loop keeps the mask, with the registration marked
    have haccount := h.account
    rw [hloop] at haccount
    have hfull : Comm.DispatchResult.queueFull ≠ .error := nofun
    rw [Multiset.coe_nil, zero_add]
    exact ⟨h.hook, h.running, haccount, fun _ => .inr (.inl rfl), fun _ _ _ _ => rfl,
      (h.answer mask hfull).answers⟩
  · split
    · rw [Multiset.coe_nil, zero_add]
      exact h.dispatch hloop
    · have hqueued : Comm.DispatchResult.queued ≠ .error := nofun
      have hleave := ((h.dispatch hloop).answer mask hqueued).leave rfl rfl last
      exact hleave.mono _

theorem timed_take (hloop : s.loop = .take last) {choice : LoopChoice}
    (hstep : s.loopStep strict choice = some (s', ts)) : Timed s' (ts + rest) := by
  have haccount := h.account
  rw [hloop] at haccount
  have htake := MaskAccount.take haccount
  simp only [TimerState.loopStep, hloop] at hstep
  split at hstep
  · next hflags =>
      cases hstep
      rw [Multiset.coe_nil, zero_add]
      rw [if_pos hflags] at htake
      refine ⟨h.hook, h.running, ?_, fun hne => absurd rfl hne,
        fun taken mask last' heq => absurd heq (leave_ne_restore last taken mask last'), h.answers⟩
      rw [leave_held]
      exact htake
  · next hflags =>
      cases hstep
      rw [Multiset.coe_nil, zero_add]
      rw [if_neg hflags] at htake
      exact ⟨h.hook, h.running, htake, fun hne => absurd rfl hne, nofun, h.answers⟩

theorem timed_restore (hloop : s.loop = .restore taken mask last) :
    Timed (({ s with flags := s.flags ||| mask }).leave last) rest := by
  have haccount := h.account
  rw [hloop] at haccount
  refine ⟨h.hook, h.running, ?_, fun _ => .inr (.inl (h.marked taken mask last hloop)),
    fun taken' mask' last' heq => absurd heq (leave_ne_restore last taken' mask' last'), h.answers⟩
  rw [leave_held]
  exact haccount.restore

theorem timed_loop {choice : LoopChoice} (hchoice : choice.negative = false)
    (hstep : s.loopStep strict choice = some (s', ts)) : Timed s' (ts + rest) := by
  cases hloop : s.loop with
  | wait =>
    have htakes : s.loop.takes = false := by rw [hloop]; rfl
    have hheld : s.loop.held = none := by rw [hloop]; rfl
    simp only [TimerState.loopStep, hloop] at hstep
    split at hstep
    · split at hstep <;> cases hstep
      rw [Multiset.coe_nil, zero_add]
      exact h.move htakes hheld rfl nofun
    · cases hstep
      rw [Multiset.coe_nil, zero_add]
      exact h.move htakes hheld rfl nofun
  | ready =>
    have haccount := h.account
    rw [hloop] at haccount
    simp only [TimerState.loopStep, hloop] at hstep
    cases hstep
    exact ⟨h.hook, h.running, haccount, fun _ => .inr (.inl rfl), nofun, h.answers⟩
  | testBusy last =>
    have htakes : s.loop.takes = false := by rw [hloop]; rfl
    have hheld : s.loop.held = none := by rw [hloop]; rfl
    simp only [TimerState.loopStep, hloop] at hstep
    split at hstep
    · cases hstep
      rw [Multiset.coe_nil, zero_add]
      exact h.leave htakes hheld last
    · rw [if_pos h.hook] at hstep
      cases hstep
      -- from here on the loop is on its way to the mask
      have haccount := h.account
      rw [hheld] at haccount
      exact ⟨h.hook, h.running, haccount, fun _ => .inr (.inr (.inr rfl)), nofun, h.answers⟩
  | acknowledge last =>
    have haccount := h.account
    rw [hloop] at haccount
    simp only [TimerState.loopStep, hloop] at hstep
    cases hstep
    exact ⟨h.hook, h.running, haccount, fun _ => .inr (.inr (.inr rfl)), nofun, h.answers⟩
  | take last => exact timed_take h hloop hstep
  | dispatch taken mask last =>
    simp only [TimerState.loopStep, hloop] at hstep
    have hdispatch := timed_dispatch strict h hloop
    rwa [Option.some.inj hstep] at hdispatch
  | restore taken mask last =>
    simp only [TimerState.loopStep, hloop] at hstep
    cases hstep
    rw [Multiset.coe_nil, zero_add]
    exact timed_restore h hloop
  | callback mask last =>
    simp only [TimerState.loopStep, hloop, hchoice] at hstep
    cases hstep
    rw [Multiset.coe_nil, zero_add]
    have hreleased : Timed { s with inFlight := false } rest :=
      h.frame rfl rfl rfl rfl rfl rfl rfl h.answers
    have hok : Comm.DispatchResult.ok ≠ .error := nofun
    refine (hreleased.answer mask hok).leave ?_ ?_ last
    · show s.loop.takes = false
      rw [hloop]
      rfl
    · show s.loop.held = none
      rw [hloop]
      rfl

theorem timed_trigger (flags : Nat) :
    Timed (s.triggerTimer flags).1 ((s.triggerTimer flags).2 + rest) := by
  rw [TimerState.triggerTimer]
  split
  · rw [Multiset.coe_nil, zero_add]
    exact h
  · -- the producer has yet to set the event
    refine ⟨h.hook, h.running, h.account.publish flags, fun _ => .inr (.inr (.inl ?_)), h.marked,
      h.answers⟩
    exact Multiset.mem_add.mpr (.inl (List.mem_singleton.mpr rfl))

theorem timed_act {action : TimerAction} (hguard : (timerGuard strict).env s action = true)
    (hact : timerAct strict s action = some (s', ts)) : Timed s' (ts + rest) := by
  cases action with
  | trigger flags =>
    have htrigger := timed_trigger h flags
    rwa [show s.triggerTimer flags = (s', ts) from Option.some.inj hact] at htrigger
  | loop choice => exact timed_loop h (by simpa [timerGuard] using hguard) hact
  | setHook hook =>
    cases hact
    rw [Multiset.coe_nil, zero_add]
    exact ⟨hguard, h.running, h.account, h.heeded, h.marked, h.answers⟩
  | setRunning running =>
    cases hact
    rw [Multiset.coe_nil, zero_add]
    exact ⟨h.hook, hguard, h.account, h.heeded, h.marked, h.answers⟩

end Steps

theorem timed_of_run {strict : Bool} {c : (timerSystem strict).Config}
    (hrun : Run (timerGuard strict) (timerIdle strict) c) : Timed c.shared c.threads := by
  refine invariant_of_run Timed ?_ ?_ ?_ hrun
  · intro s t choice s' ts rest h _ hstep
    exact timed_step h hstep
  · intro s action s' ts rest h hguard hact
    exact timed_act h hguard hact
  · exact ⟨rfl, rfl, maskAccount_nil, fun hflags => absurd rfl hflags, nofun,
      fun answer hmem => by cases hmem⟩

/-- In every state of a run: a bit that was published is in `timer_pending_flags`, or with the loop, or
was dispatched with a mask that was taken behind the publication. A mask that was dispatched is not zero,
and its bits were published behind the take of every earlier dispatch. No dispatch is answered with an
error. Unless a producer is about to set the event or the loop is about to take the mask, bits that wait
have the event signalled or the registration marked. -/
theorem timer_flags_conserved (strict : Bool) (c : (timerSystem strict).Config)
    (hrun : Run (timerGuard strict) (timerIdle strict) c) :
    (∀ b i, PublishedAt c.shared.log b i → c.shared.flags.testBit b = true ∨
        c.shared.loop.held.mask.testBit b = true ∨ Served c.shared.log b i) ∧
      (∀ k taken mask : Nat, c.shared.log[k]? = some (.dispatched taken mask) →
        Accountable c.shared.log k taken mask) ∧
      (∀ answer ∈ c.shared.answers, answer.2 ≠ .error) ∧
      (c.shared.flags ≠ 0 → .signal ∉ c.threads → c.shared.loop.takes = false →
        c.shared.signaled = true ∨ c.shared.pending = true) := by
  have h := timed_of_run hrun
  refine ⟨h.account.served, h.account.history, h.answers, fun hflags hsignal htakes => ?_⟩
  obtain hsignaled | hpending | hmem := h.waits htakes hflags
  · exact .inl hsignaled
  · exact .inr hpending
  · exact absurd hmem hsignal

/-- A second trigger comes while the callback of the first is in flight; the loop is told of it, marks the
registration and dispatches the bits when the callback is over. -/
def coalescedTimers : List (timerSystem false).Move :=
  [.env (.trigger 1), .thread 0 ()] ++ .env (.loop ⟨true, false⟩) :: List.replicate 6 (.env (.loop {}))
    ++ [.env (.trigger 2), .thread 1 ()] ++ .env (.loop ⟨true, false⟩) :: List.replicate 3 (.env (.loop {}))
    ++ .thread 0 () :: List.replicate 5 (.env (.loop {}))

theorem timer_flags_conserved_coalesced :
    ∃ c, Run (timerGuard false) (timerIdle false) c ∧
      decide (c.shared.log = [.published 1, .taken 1, .dispatched 1 1, .published 2, .taken 2,
        .dispatched 4 2]) = true ∧
      Accountable c.shared.log 5 4 2 := by
  obtain ⟨c, hrun, hc⟩ := exists_run_of_execAll (timerGuard false) coalescedTimers (timerIdle false)
    (fun c => decide (c.shared.log = [.published 1, .taken 1, .dispatched 1 1, .published 2, .taken 2,
      .dispatched 4 2])) (by decide +kernel)
  have hlog := of_decide_eq_true hc
  refine ⟨c, hrun, hc, (timer_flags_conserved false c hrun).2.1 5 4 2 ?_⟩
  rw [hlog]
  rfl

end Mudmux.Execution
