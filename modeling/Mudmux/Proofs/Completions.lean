import Mudmux.Async.EpollRuntime

/-!
# `Mudmux.Proofs.Completions`: completions through the eventfd

The eventfd adds what is written to it, so two writes between two reads are read as one number. A
completion therefore arrives as it was posted when its write finds the counter at zero, when the number
is one that an eventfd carries (not zero, not the largest), and when the read that takes it still has
room in the caller's array. `loneSignals` is that condition, step by step, and
`lone_signals_are_reported` says that under it the completions reported are the signals, in order and
unaltered, up to one that is still in the counter.

Without it one wakeup behind an error completion is enough: `error_completion_moves_to_next_slot`.
-/

set_option autoImplicit false

namespace Mudmux.Async

open Mudmux.Lib

variable {r : Runtime} {drained undrained : List Signal}

/-! ### One number for a key and its data -/

/-- The event of a completion with this key and this data. -/
def pairEvent (key data : UInt32) : IoEvent where
  fd := -1
  completionKey := key.toNat
  context := if key.toNat = asyncIoErrorKey then data.toNat else 0
  eventType := if key.toNat = asyncIoErrorKey then { error := true } else { read := true }
  bytesTransferred := data.toNat

theorem completionValue_eq (key data : UInt32) :
    completionValue key data = key.toNat * 2 ^ 32 + data.toNat := by
  have hdata : data.toNat < 2 ^ 32 := data.toNat_lt
  have hlow : data.toNat &&& 0xFFFFFFFF = data.toNat := by
    show data.toNat &&& (2 ^ 32 - 1) = data.toNat
    rw [Nat.and_two_pow_sub_one_eq_mod, Nat.mod_eq_of_lt hdata]
  rw [completionValue, hlow, ← Nat.shiftLeft_add_eq_or_of_lt hdata, Nat.shiftLeft_eq]

/-- A value that was written alone is read back as the completion it stands for. -/
theorem completionEvent_completionValue (key data : UInt32) :
    completionEvent (completionValue key data) = pairEvent key data := by
  have hdata : data.toNat < 2 ^ 32 := data.toNat_lt
  have hkey : completionValue key data >>> 32 = key.toNat := by
    rw [completionValue_eq, Nat.shiftRight_eq_div_pow]
    omega
  have hlow : completionValue key data &&& 0xFFFFFFFF = data.toNat := by
    show completionValue key data &&& (2 ^ 32 - 1) = data.toNat
    rw [Nat.and_two_pow_sub_one_eq_mod, completionValue_eq]
    omega
  simp only [completionEvent, hkey, hlow, pairEvent]

/-- What a signal that was written alone is read back as: a wakeup looks like a completion with key
zero and data one. -/
def Signal.event : Signal → IoEvent
  | .post key data => pairEvent key data
  | .wakeup => pairEvent 0 1

theorem completionEvent_value (s : Signal) : completionEvent s.value = s.event := by
  cases s with
  | post key data => exact completionEvent_completionValue key data
  | wakeup => exact completionEvent_completionValue 0 1

@[simp] theorem Signal.event_fd (s : Signal) : s.event.fd = -1 := by
  cases s <;> rfl

/-! ### Signals that meet no other -/

/-- The completions among the events that waits have stored. -/
def Runtime.completions (r : Runtime) : List IoEvent := r.reported.filter fun e => e.fd = -1

/-- Every signal finds the counter at zero and writes a number that the eventfd can carry, and no value
is read while the caller's array is full. -/
def loneSignals : epollRuntime.Guard where
  thread r w _ :=
    match w.point with
    | .drain _ => decide (r.counter = 0) || decide (w.eventCount < w.maxEvents)
    | .scan _ => true
  env r
    | .signal s =>
      decide (r.counter = 0) && decide (0 < s.value) && decide (s.value ≤ eventFdMax)
    | _ => true

/-- The signals up to some point have been reported, in order, and behind that point there is at most
the one that the counter holds. -/
structure Delivered (r : Runtime) (drained undrained : List Signal) : Prop where
  signals : r.signals = drained ++ undrained
  completions : r.completions = drained.map Signal.event
  counter : (undrained = [] ∧ r.counter = 0) ∨
    ∃ s, undrained = [s] ∧ r.counter = s.value ∧ 0 < s.value

@[simp] theorem Runtime.completions_report (r : Runtime) (e : IoEvent) :
    (r.report e).completions = r.completions ++ if e.fd = -1 then [e] else [] := by
  simp only [completions, report, List.filter_append, List.filter_singleton]
  by_cases h : e.fd = -1 <;> simp [h]

/-- A descriptor is never the descriptor of a completion. -/
theorem completions_report_ioEvent (r : Runtime) (registration : Registration) (e : EpollEvent) :
    (r.report (ioEvent registration e)).completions = r.completions := by
  have hfd : ¬ (ioEvent registration e).fd = -1 := by
    show ¬ (e.fd : Int) = -1
    omega
  rw [Runtime.completions_report, if_neg hfd, List.append_nil]

section

variable (h : Delivered r drained undrained)

include h

/-- Changes of the registrations do not touch the counter or the logs. -/
theorem Delivered.add (fd : Nat) (registration : Registration) :
    Delivered (r.add fd registration) drained undrained :=
  ⟨h.signals, h.completions, h.counter⟩

/-- A signal on a counter at zero waits there alone. -/
theorem Delivered.signal {s : Signal} (hzero : r.counter = 0) (hpos : 0 < s.value)
    (hmax : s.value ≤ eventFdMax) : Delivered (r.signal s) drained [s] := by
  have hnone : undrained = [] := by
    rcases h.counter with ⟨hnone, _⟩ | ⟨s', _, hcounter, hpos'⟩
    · exact hnone
    · omega
  have hwrite : (eventFdWrite r.counter s.value).getD r.counter = s.value := by
    rw [hzero, eventFdWrite, Nat.zero_add, if_pos hmax, Option.getD_some]
  refine ⟨?_, h.completions, .inr ⟨s, rfl, hwrite, hpos⟩⟩
  show r.signals ++ [s] = drained ++ [s]
  rw [h.signals, hnone, List.append_nil]

/-- A read with room in the array reports the signal that waits. -/
theorem Delivered.read {value counter : Nat} (hread : eventFdRead r.counter = some (value, counter)) :
    Delivered ({ r with counter }.report (completionEvent value)) (drained ++ undrained) [] := by
  rw [eventFdRead] at hread
  split at hread
  · cases hread
  · next hne =>
      obtain ⟨rfl, rfl⟩ := Prod.mk.inj (Option.some.inj hread)
      rcases h.counter with ⟨_, hzero⟩ | ⟨s, rfl, hcounter, _⟩
      · exact absurd hzero hne
      · refine ⟨?_, ?_, .inl ⟨rfl, rfl⟩⟩
        · show r.signals = (drained ++ [s]) ++ []
          rw [List.append_nil, h.signals]
        · rw [Runtime.completions_report, hcounter, completionEvent_value, if_pos s.event_fd,
            List.map_append]
          show r.completions ++ [s.event] = _
          rw [h.completions, List.map_singleton]

end

/-- One step of a wait. -/
theorem Delivered.waitStep {r r' : Runtime} {w : Wait} {choice : Bool} {ws : List Wait}
    (h : Delivered r drained undrained) (hguard : loneSignals.thread r w choice = true)
    (hstep : waitStep r w choice = some (r', ws)) :
    ∃ drained' undrained', Delivered r' drained' undrained' := by
  obtain ⟨maxEvents, eventCount, point⟩ := w
  cases point with
  | scan ready =>
    cases ready with
    | nil =>
      cases hstep
      exact ⟨_, _, h⟩
    | cons e ready =>
      simp only [Async.waitStep] at hstep
      split at hstep
      · split at hstep
        · cases hstep
          exact ⟨_, _, h⟩
        · split at hstep
          · cases hstep
            exact ⟨_, _, h⟩
          · cases hstep
            exact ⟨_, _, h.signals, (completions_report_ioEvent _ _ _).trans h.completions,
              h.counter⟩
      · cases hstep
        exact ⟨_, _, h⟩
  | drain ready =>
    simp only [Async.waitStep] at hstep
    split at hstep
    · cases hstep
      exact ⟨_, _, h⟩
    · next value counter hread =>
        split at hstep
        · cases hstep
          exact ⟨_, _, h.read hread⟩
        · next hfull =>
            -- the guard leaves only a counter at zero, and such a read fails
            have hzero : r.counter = 0 := by
              have hallowed : (decide (r.counter = 0) || decide (eventCount < maxEvents)) = true :=
                hguard
              simpa [hfull] using hallowed
            rw [eventFdRead, if_pos hzero] at hread
            cases hread

/-- One action from outside. -/
theorem Delivered.act {r r' : Runtime} {action : RuntimeAction} {ws : List Wait}
    (h : Delivered r drained undrained) (hguard : loneSignals.env r action = true)
    (hact : runtimeAct r action = some (r', ws)) :
    ∃ drained' undrained', Delivered r' drained' undrained' := by
  cases action with
  | signal s =>
    have hallowed : (decide (r.counter = 0) && decide (0 < s.value) &&
        decide (s.value ≤ eventFdMax)) = true := hguard
    simp only [Bool.and_eq_true, decide_eq_true_eq] at hallowed
    cases hact
    exact ⟨_, _, h.signal hallowed.1.1 hallowed.1.2 hallowed.2⟩
  | add fd registration =>
    cases hact
    exact ⟨_, _, h.add fd registration⟩
  | modify fd context =>
    cases hact
    rw [Runtime.modify]
    split
    · exact ⟨_, _, h⟩
    · exact ⟨_, _, h.add fd _⟩
  | remove fd =>
    cases hact
    exact ⟨_, _, h.add fd {}⟩
  | wait maxEvents ready =>
    simp only [runtimeAct] at hact
    split at hact
    · cases hact
      exact ⟨_, _, h⟩
    · cases hact

theorem delivered_of_run {eventFd : Nat} {c : epollRuntime.Config}
    (hrun : ThreadSystem.Run loneSignals (initialRuntime eventFd) c) :
    ∃ drained undrained, Delivered c.shared drained undrained := by
  refine ThreadSystem.invariant_of_run (S := epollRuntime)
    (fun r _ => ∃ drained undrained, Delivered r drained undrained) ?_ ?_ ?_ hrun
  · intro r w choice r' ws _ hinv hguard hstep
    obtain ⟨_, _, h⟩ := hinv
    exact h.waitStep hguard hstep
  · intro r action r' ws _ hinv hguard hact
    obtain ⟨_, _, h⟩ := hinv
    exact h.act hguard hact
  · exact ⟨[], [], rfl, rfl, .inl ⟨rfl, rfl⟩⟩

/-! ### What the waits report -/

/-- The pair that a signal posts. -/
def Signal.posted : Signal → Option (Nat × Nat)
  | .post key data => some (key.toNat, data.toNat)
  | .wakeup => none

/-- An error completion for this slot. -/
def IoEvent.isErrorFor (slot : UInt32) (e : IoEvent) : Bool :=
  e.completionKey = asyncIoErrorKey && e.eventType.error && e.context = slot.toNat

theorem isErrorFor_event (slot : UInt32) (s : Signal) :
    s.event.isErrorFor slot = decide (s = .post 0xC0000001 slot) := by
  cases s with
  | post key data =>
    have hkey : key.toNat = asyncIoErrorKey ↔ key = 0xC0000001 :=
      (UInt32.toNat_inj (a := key) (b := 0xC0000001))
    by_cases h : key = 0xC0000001
    · subst h
      simp [Signal.event, IoEvent.isErrorFor, pairEvent, asyncIoErrorKey, UInt32.toNat_inj]
    · have hne := mt hkey.mp h
      simp [Signal.event, IoEvent.isErrorFor, pairEvent, hne, h]
  | wakeup => simp [Signal.event, IoEvent.isErrorFor, pairEvent, asyncIoErrorKey]

theorem map_event_eq_posted {signals : List Signal} (h : ∀ s ∈ signals, s ≠ .wakeup) :
    (signals.map Signal.event).map (fun e => (e.completionKey, e.bytesTransferred))
      = signals.filterMap Signal.posted := by
  induction signals with
  | nil => rfl
  | cons s signals ih =>
    have hrest := ih fun s' hs' => h s' (List.mem_cons_of_mem s hs')
    cases s with
    | wakeup => exact absurd rfl (h .wakeup List.mem_cons_self)
    | post key data =>
      rw [List.map_cons, List.map_cons, hrest]
      rfl

/-- As long as every signal finds the counter at zero, and values are read only into an array with
room, the completions that waits report are the signals made, in order, each as it was made, except for
one that no wait has read yet. Where no wakeup is made these are exactly the posted pairs; and an error
completion is reported for a slot as often as one was posted for it. -/
theorem lone_signals_are_reported {eventFd : Nat} {c : epollRuntime.Config}
    (hrun : ThreadSystem.Run loneSignals (initialRuntime eventFd) c) :
    ∃ drained undrained : List Signal,
      c.shared.signals = drained ++ undrained ∧
      undrained.length = (if c.shared.counter = 0 then 0 else 1) ∧
      c.shared.completions = drained.map Signal.event ∧
      ((∀ s ∈ c.shared.signals, s ≠ .wakeup) →
        c.shared.completions.map (fun e => (e.completionKey, e.bytesTransferred))
          = drained.filterMap Signal.posted) ∧
      ∀ slot : UInt32, c.shared.completions.countP (·.isErrorFor slot)
        = drained.count (.post 0xC0000001 slot) := by
  obtain ⟨drained, undrained, h⟩ := delivered_of_run hrun
  refine ⟨drained, undrained, h.signals, ?_, h.completions, ?_, ?_⟩
  · rcases h.counter with ⟨rfl, hzero⟩ | ⟨s, rfl, hcounter, hpos⟩
    · rw [if_pos hzero, List.length_nil]
    · have hne : c.shared.counter ≠ 0 := by omega
      rw [if_neg hne, List.length_singleton]
  · intro hposts
    rw [h.completions]
    refine map_event_eq_posted fun s hs => hposts s ?_
    rw [h.signals]
    exact List.mem_append_left _ hs
  · intro slot
    rw [h.completions, List.countP_map, List.count]
    refine List.countP_congr fun s _ => ?_
    simp [Function.comp_apply, isErrorFor_event]

/-- An error completion for slot 9, posted to an idle runtime and then waited for. -/
def loneErrorMoves : List epollRuntime.Move :=
  [.env (.signal (.post 0xC0000001 9)), .env (.wait 64 [{ fd := 3, epollIn := true }]),
    .thread 0 true, .thread 0 true]

/-- An error completion that is alone is reported for its slot. -/
theorem lone_signals_are_reported_error :
    ∃ c, ThreadSystem.Run loneSignals (initialRuntime 3) c ∧
      c.shared.completions = [pairEvent 0xC0000001 9] ∧
      ∃ drained undrained : List Signal, c.shared.signals = drained ++ undrained ∧
        c.shared.completions = drained.map Signal.event := by
  obtain ⟨c, hrun, hc⟩ := ThreadSystem.exists_run_of_execAll loneSignals loneErrorMoves
    (initialRuntime 3) (fun c => decide (c.shared.completions = [pairEvent 0xC0000001 9]))
    (by decide +kernel)
  obtain ⟨drained, undrained, hsignals, _, hreported, _⟩ := lone_signals_are_reported hrun
  exact ⟨c, hrun, of_decide_eq_true hc, drained, undrained, hsignals, hreported⟩

/-! ### Signals that meet -/

/-- A wakeup behind an error completion for slot 9, before the wait reads the eventfd. -/
def wokenErrorMoves : List epollRuntime.Move :=
  [.env (.signal (.post 0xC0000001 9)), .env (.signal .wakeup),
    .env (.wait 64 [{ fd := 3, epollIn := true }]), .thread 0 true, .thread 0 true, .thread 0 true,
    .thread 0 true]

/-- Two error completions before the wait reads the eventfd: the sum is too large, and the second write
fails. -/
def twoErrorsMoves : List epollRuntime.Move :=
  [.env (.signal (.post 0xC0000001 9)), .env (.signal (.post 0xC0000001 12)),
    .env (.wait 64 [{ fd := 3, epollIn := true }]), .thread 0 true, .thread 0 true, .thread 0 true,
    .thread 0 true]

/-- With a wakeup behind it, the error completion of slot 9 is reported for slot 10, and with another
error completion behind it the other one is lost. In both runs all waits have ended and the counter is
at zero. -/
theorem error_completion_moves_to_next_slot :
    (∃ c, ThreadSystem.Run (ThreadSystem.Guard.trivial epollRuntime) (initialRuntime 3) c ∧
      (decide (c.shared.signals = [.post 0xC0000001 9, .wakeup]) &&
        decide (c.shared.completions = [pairEvent 0xC0000001 10]) &&
        decide (c.shared.counter = 0) && c.threads.isEmpty) = true) ∧
    ∃ c, ThreadSystem.Run (ThreadSystem.Guard.trivial epollRuntime) (initialRuntime 3) c ∧
      (decide (c.shared.signals = [.post 0xC0000001 9, .post 0xC0000001 12]) &&
        decide (c.shared.completions = [pairEvent 0xC0000001 9]) &&
        decide (c.shared.counter = 0) && c.threads.isEmpty) = true := by
  constructor
  · exact ThreadSystem.exists_run_of_execAll (ThreadSystem.Guard.trivial epollRuntime)
      wokenErrorMoves (initialRuntime 3) _ (by decide +kernel)
  · exact ThreadSystem.exists_run_of_execAll (ThreadSystem.Guard.trivial epollRuntime)
      twoErrorsMoves (initialRuntime 3) _ (by decide +kernel)

end Mudmux.Async
