import Mudmux.Async.PollRuntime
import Mudmux.Proofs.Completions

/-!
# `Mudmux.Proofs.PollCompletions`: completions through the notification pipe

Completions stand in the pipe as records of eight bytes and wakeups as single bytes. The reader takes
eight bytes at a time and throws away a shorter read, so single bytes do no harm exactly as long as they
are behind every record and fewer than eight. `alignedSignals` is that condition, step by step: a
completion is posted only where the pipe holds whole records, a wakeup only where it does not complete
another eight bytes, and a record is read only into an array with room.

`aligned_posts_are_decoded` says that then the completions decoded are the ones posted, in order, up to
those whose records are still in the pipe. A wakeup in front of a post is enough to break it:
`wakeup_shifts_completion`.
-/

set_option autoImplicit false

namespace Mudmux.Async

open Mudmux.Lib

/-! ### Numbers as bytes -/

@[simp] theorem length_leBytes (n value : Nat) : (leBytes n value).length = n := by
  induction n generalizing value with
  | zero => rfl
  | succ n ih => rw [leBytes, List.length_cons, ih]

theorem leValue_leBytes {n value : Nat} (h : value < 256 ^ n) : leValue (leBytes n value) = value := by
  induction n generalizing value with
  | zero =>
    have hzero : value = 0 := by simpa using h
    rw [hzero]
    rfl
  | succ n ih =>
    have hrest : value / 256 < 256 ^ n := by
      rw [Nat.pow_succ] at h
      exact Nat.div_lt_of_lt_mul (by omega)
    have hbyte : (UInt8.ofNat value).toNat = value % 256 := UInt8.toNat_ofNat'
    rw [leBytes, leValue, ih hrest, hbyte]
    omega

theorem completionValue_lt (key data : UInt32) : completionValue key data < 256 ^ 8 := by
  have hkey : key.toNat < 2 ^ 32 := key.toNat_lt
  have hdata : data.toNat < 2 ^ 32 := data.toNat_lt
  rw [completionValue_eq]
  omega

/-- The record of a completion is read back as that completion. -/
theorem completionEvent_leValue (key data : UInt32) :
    completionEvent (leValue (leBytes 8 (completionValue key data))) = pairEvent key data := by
  rw [leValue_leBytes (completionValue_lt key data), completionEvent_completionValue]

/-! ### Records with wakeups behind them -/

/-- A posted completion. -/
abbrev Post : Type := UInt32 × UInt32

/-- The completion that a signal posts. -/
def Signal.post? : Signal → Option Post
  | .post key data => some (key, data)
  | .wakeup => none

/-- The completions posted so far, in order. -/
def PollRuntime.posts (r : PollRuntime) : List Post := r.signals.filterMap Signal.post?

/-- The record of a completion. -/
def Post.record (p : Post) : List UInt8 := leBytes 8 (completionValue p.1 p.2)

/-- A completion is posted only behind whole records, a wakeup only where it does not make another eight
bytes, and a record is read only into an array with room. -/
def alignedSignals : pollRuntime.Guard where
  thread r w _ := !w.draining || decide (r.pipe.length < 8) || decide (w.eventCount < w.maxEvents)
  env r
    | .signal (.post _ _) => decide (r.pipe.length % 8 = 0)
    | .signal .wakeup => decide (r.pipe.length % 8 < 7)
    | _ => true

/-- The posts up to some point have been decoded, and behind that point their records are in the pipe,
with less than another record of wakeups behind them. -/
structure Aligned (r : PollRuntime) (drained undrained : List Post) (wakeups : List UInt8) :
    Prop where
  posts : r.posts = drained ++ undrained
  decoded : r.decoded = drained.map fun p => pairEvent p.1 p.2
  pipe : r.pipe = undrained.flatMap Post.record ++ wakeups
  short : wakeups.length < 8

theorem length_records (posts : List Post) : (posts.flatMap Post.record).length = 8 * posts.length := by
  induction posts with
  | nil => rfl
  | cons p posts ih =>
    rw [List.flatMap_cons, List.length_append, ih, Post.record, length_leBytes, List.length_cons]
    omega

namespace Aligned

variable {r r' : PollRuntime} {drained undrained : List Post} {wakeups : List UInt8}

variable (h : Aligned r drained undrained wakeups)

include h

theorem length_pipe : r.pipe.length = 8 * undrained.length + wakeups.length := by
  rw [h.pipe, List.length_append, length_records]

/-- A post behind whole records. -/
theorem post (haligned : r.pipe.length % 8 = 0) (key data : UInt32) :
    Aligned (r.signal (.post key data)) drained (undrained ++ [(key, data)]) [] := by
  have hnone : wakeups = [] := by
    have hlength := h.length_pipe
    have hshort := h.short
    exact List.length_eq_zero_iff.mp (by omega)
  refine ⟨?_, h.decoded, ?_, by decide⟩
  · show (r.signals ++ [Signal.post key data]).filterMap Signal.post? = _
    rw [List.filterMap_append, ← List.append_assoc, ← h.posts]
    rfl
  · show r.pipe ++ leBytes 8 (completionValue key data) = _
    rw [h.pipe, hnone, List.append_nil, List.append_nil, List.flatMap_append, List.flatMap_singleton]
    rfl

/-- A wakeup that does not fill up a record. -/
theorem wakeup (hroom : r.pipe.length % 8 < 7) :
    Aligned (r.signal .wakeup) drained undrained (wakeups ++ [1]) := by
  refine ⟨?_, h.decoded, ?_, ?_⟩
  · show (r.signals ++ [Signal.wakeup]).filterMap Signal.post? = _
    rw [List.filterMap_append, ← h.posts]
    exact List.append_nil _
  · show r.pipe ++ [1] = _
    rw [h.pipe, List.append_assoc]
  · have hlength := h.length_pipe
    have hshort := h.short
    rw [List.length_append, List.length_singleton]
    omega

/-- One read: the first record with room for it, or the wakeups. -/
theorem drainStep {w : PollWait} (hroom : r.pipe.length < 8 ∨ w.eventCount < w.maxEvents) :
    ∃ drained' undrained' wakeups',
      Aligned (Async.drainStep r w).1 drained' undrained' wakeups' := by
  have hshort := h.short
  have hlength := h.length_pipe
  cases undrained with
  | nil =>
    -- no record: the read is short, and what it throws away are wakeups
    have hread : ¬ (r.pipe.take 8).length = 8 := by
      rw [List.length_take]
      rw [List.length_nil] at hlength
      omega
    refine ⟨drained, [], wakeups.drop 8, ?_⟩
    rw [Async.drainStep]
    simp only [if_neg hread]
    refine ⟨h.posts, h.decoded, ?_, by rw [List.length_drop]; omega⟩
    show r.pipe.drop 8 = _
    rw [h.pipe]
    rfl
  | cons p undrained =>
    have hpipe : r.pipe = p.record ++ (undrained.flatMap Post.record ++ wakeups) := by
      rw [h.pipe, List.flatMap_cons, List.append_assoc]
    have hrecord : p.record.length = 8 := length_leBytes 8 _
    have htake : r.pipe.take 8 = p.record := by
      rw [hpipe, ← hrecord, List.take_left]
    have hdrop : r.pipe.drop 8 = undrained.flatMap Post.record ++ wakeups := by
      rw [hpipe, ← hrecord, List.drop_left]
    have hspace : w.eventCount < w.maxEvents := by
      rw [List.length_cons] at hlength
      exact hroom.resolve_left (by omega)
    refine ⟨drained ++ [p], undrained, wakeups, ?_⟩
    rw [Async.drainStep]
    simp only [htake, if_pos hrecord, if_pos hspace]
    refine ⟨?_, ?_, hdrop, hshort⟩
    · rw [List.append_assoc]
      exact h.posts
    · show r.decoded ++ [completionEvent (leValue p.record)] = _
      rw [h.decoded, List.map_append, Post.record, completionEvent_leValue]
      rfl

/-- Another table does not matter. -/
theorem withTable (table : PollTable) : Aligned { r with table } drained undrained wakeups :=
  ⟨h.posts, h.decoded, h.pipe, h.short⟩

/-- One step of a wait. -/
theorem waitStep {w : PollWait} {choice : Bool} {ws : List PollWait}
    (hguard : alignedSignals.thread r w choice = true)
    (hstep : pollWaitStep r w choice = some (r', ws)) :
    ∃ drained' undrained' wakeups', Aligned r' drained' undrained' wakeups' := by
  rw [pollWaitStep] at hstep
  split at hstep
  · next hdraining =>
      have hallowed : (!w.draining || decide (r.pipe.length < 8) ||
          decide (w.eventCount < w.maxEvents)) = true := hguard
      simp only [hdraining, Bool.not_true, Bool.false_or, Bool.or_eq_true, decide_eq_true_eq]
        at hallowed
      cases hstep
      exact h.drainStep hallowed
  · split at hstep
    · -- the entries of the table are reported in a log of their own
      simp only [Option.bind_eq_bind, Option.bind_eq_some_iff] at hstep
      obtain ⟨p, -, m, -, hstep⟩ := hstep
      refine ⟨drained, undrained, wakeups, ?_⟩
      split at hstep
      · cases hstep
        exact h
      · split at hstep
        · cases hstep
          exact h
        · split at hstep
          · cases hstep
            exact h
          · cases hstep
            exact ⟨h.posts, h.decoded, h.pipe, h.short⟩
    · cases hstep
      exact ⟨drained, undrained, wakeups, h⟩

/-- One action from outside. -/
theorem act {action : PollAction} {ws : List PollWait} (hguard : alignedSignals.env r action = true)
    (hact : pollAct r action = some (r', ws)) :
    ∃ drained' undrained' wakeups', Aligned r' drained' undrained' wakeups' := by
  cases action with
  | signal s =>
    cases hact
    cases s with
    | post key data => exact ⟨_, _, _, h.post (of_decide_eq_true hguard) key data⟩
    | wakeup => exact ⟨_, _, _, h.wakeup (of_decide_eq_true hguard)⟩
  | table call =>
    obtain ⟨result, -, hresult⟩ := Option.map_eq_some_iff.mp hact
    cases hresult
    exact ⟨_, _, _, h.withTable result.1⟩
  | wait maxEvents revents =>
    simp only [pollAct] at hact
    split at hact
    · cases hact
      exact ⟨_, _, _, h.withTable _⟩
    · cases hact

end Aligned

/-! ### What the waits decode -/

/-- As long as posts find whole records in the pipe, wakeups do not fill up a record and records are read
into an array with room, the completions decoded from the pipe are the posted pairs, in order, except for
those whose records are still in the pipe; and nothing else is in the pipe but fewer than eight bytes. -/
theorem aligned_posts_are_decoded {notifyFd : Int} {c : pollRuntime.Config}
    (hrun : ThreadSystem.Run alignedSignals (initialPollRuntime notifyFd) c) :
    ∃ drained undrained : List Post,
      c.shared.posts = drained ++ undrained ∧
      c.shared.decoded = drained.map (fun p => pairEvent p.1 p.2) ∧
      c.shared.decoded.map (fun e => (e.completionKey, e.bytesTransferred))
        = drained.map (fun p => (p.1.toNat, p.2.toNat)) ∧
      undrained.length = c.shared.pipe.length / 8 ∧
      undrained.flatMap Post.record <+: c.shared.pipe := by
  have hinv : ∃ drained undrained wakeups, Aligned c.shared drained undrained wakeups := by
    refine ThreadSystem.invariant_of_run (S := pollRuntime)
      (fun r _ => ∃ drained undrained wakeups, Aligned r drained undrained wakeups) ?_ ?_ ?_ hrun
    · intro r w choice r' ws _ hinv hguard hstep
      obtain ⟨_, _, _, h⟩ := hinv
      exact h.waitStep hguard hstep
    · intro r action r' ws _ hinv hguard hact
      obtain ⟨_, _, _, h⟩ := hinv
      exact h.act hguard hact
    · exact ⟨[], [], [], rfl, rfl, rfl, by decide⟩
  obtain ⟨drained, undrained, wakeups, h⟩ := hinv
  refine ⟨drained, undrained, h.posts, h.decoded, ?_, ?_, ?_⟩
  · rw [h.decoded, List.map_map]
    rfl
  · have hlength := h.length_pipe
    have hshort := h.short
    omega
  · rw [h.pipe]
    exact List.prefix_append _ _

/-- Two completions and a wakeup, then a wait that reads all of it. -/
def alignedMoves : List pollRuntime.Move :=
  [.env (.signal (.post 0xC0000001 9)), .env (.signal (.post 7 300)), .env (.signal .wakeup),
    .env (.wait 64 [{ pollIn := true }]), .thread 0 true, .thread 0 true, .thread 0 true,
    .thread 0 true, .thread 0 true]

theorem aligned_posts_are_decoded_two :
    ∃ c, ThreadSystem.Run alignedSignals (initialPollRuntime 3) c ∧
      c.shared.decoded = [pairEvent 0xC0000001 9, pairEvent 7 300] ∧
      ∃ drained undrained : List Post, c.shared.posts = drained ++ undrained ∧
        c.shared.decoded = drained.map (fun p => pairEvent p.1 p.2) := by
  obtain ⟨c, hrun, hc⟩ := ThreadSystem.exists_run_of_execAll alignedSignals alignedMoves
    (initialPollRuntime 3)
    (fun c => decide (c.shared.decoded = [pairEvent 0xC0000001 9, pairEvent 7 300]))
    (by decide +kernel)
  obtain ⟨drained, undrained, hposts, hdecoded, _⟩ := aligned_posts_are_decoded hrun
  exact ⟨c, hrun, of_decide_eq_true hc, drained, undrained, hposts, hdecoded⟩

/-! ### Wakeups in front of a post -/

/-- A wakeup, then an error completion for slot 9, then a wait that reads all of it. -/
def shiftedMoves : List pollRuntime.Move :=
  [.env (.signal .wakeup), .env (.signal (.post 0xC0000001 9)),
    .env (.wait 64 [{ pollIn := true }]), .thread 0 true, .thread 0 true, .thread 0 true,
    .thread 0 true]

/-- Eight wakeups, then a wait. -/
def eightWakeupsMoves : List pollRuntime.Move :=
  List.replicate 8 (.env (.signal .wakeup)) ++
    [.env (.wait 64 [{ pollIn := true }]), .thread 0 true, .thread 0 true, .thread 0 true,
      .thread 0 true]

/-- Two completions and a wait for one event. -/
def fullArrayMoves : List pollRuntime.Move :=
  [.env (.signal (.post 0xC0000001 9)), .env (.signal (.post 0xC0000001 12)),
    .env (.wait 1 [{ pollIn := true }]), .thread 0 true, .thread 0 true, .thread 0 true,
    .thread 0 true, .thread 0 true]

/-- Behind a wakeup the error completion of slot 9 is decoded with its bytes moved by one place: another
key and another number. Eight wakeups are decoded as a completion that nobody posted. With an array of
one event the second completion is read and thrown away. In all three runs the wait has ended and the pipe
is empty. -/
theorem wakeup_shifts_completion :
    (∃ c, ThreadSystem.Run (ThreadSystem.Guard.trivial pollRuntime) (initialPollRuntime 3) c ∧
      (decide (c.shared.posts = [(0xC0000001, 9)]) &&
        decide (c.shared.decoded = [pairEvent 0x100 0x901]) &&
        c.shared.pipe.isEmpty && c.threads.isEmpty) = true) ∧
    (∃ c, ThreadSystem.Run (ThreadSystem.Guard.trivial pollRuntime) (initialPollRuntime 3) c ∧
      (c.shared.posts.isEmpty && decide (c.shared.decoded = [pairEvent 0x01010101 0x01010101]) &&
        c.shared.pipe.isEmpty && c.threads.isEmpty) = true) ∧
    ∃ c, ThreadSystem.Run (ThreadSystem.Guard.trivial pollRuntime) (initialPollRuntime 3) c ∧
      (decide (c.shared.posts = [(0xC0000001, 9), (0xC0000001, 12)]) &&
        decide (c.shared.decoded = [pairEvent 0xC0000001 9]) &&
        c.shared.pipe.isEmpty && c.threads.isEmpty) = true := by
  refine ⟨?_, ?_, ?_⟩
  · exact ThreadSystem.exists_run_of_execAll (ThreadSystem.Guard.trivial pollRuntime)
      shiftedMoves (initialPollRuntime 3) _ (by decide +kernel)
  · exact ThreadSystem.exists_run_of_execAll (ThreadSystem.Guard.trivial pollRuntime)
      eightWakeupsMoves (initialPollRuntime 3) _ (by decide +kernel)
  · exact ThreadSystem.exists_run_of_execAll (ThreadSystem.Guard.trivial pollRuntime)
      fullArrayMoves (initialPollRuntime 3) _ (by decide +kernel)

end Mudmux.Async
