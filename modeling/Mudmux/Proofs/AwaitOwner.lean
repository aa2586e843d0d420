import Mudmux.Proofs.AwaitClosures

/-!
# `Mudmux.Proofs.AwaitOwner`: an await and its own work

A thread that carries the work of an await finds the await again by the generation of the slot.
`mudmux_execution_cancel_await` ends an await and leaves its work under way; when a hook of the same
connection awaits again, the old work takes the new await for its own. It resumes it before its work has
returned (`resume_before_its_work`), or discards it.

In runs in which no await is accepted while work of the same generation is under way, every thread that
touches an await carries its work (`Owned`). The condition looks at the other threads, so it is one of
`RunWhere`.
-/

set_option autoImplicit false

namespace Mudmux.Execution

open Mudmux.Lib
open ThreadSystem

variable {setup : AwaitSetup}

/-- The condition on the steps: a request is accepted only if no thread carries work of its
generation. -/
def awaitsAlone (setup : AwaitSetup) (c : (awaitSystem setup).Config) :
    (awaitSystem setup).Move → Bool
  | .thread index _ =>
    match c.threads[index]? with
    | none => true
    | some t =>
      match t.awaitCall with
      | none => true
      | some call =>
        c.shared.state.awaitRequested || c.shared.state.awaitPending ||
          c.threads.all fun t' => !t'.role.worksFor call.generation
  | .env _ => true

/-! ### Owners -/

/-- If the thread carries work of the generation, it is this work, and once the thread has a message it
is the one that the work returned with. -/
def Role.Owns (log : List Event) (generation : Nat) (work : Closure) : Role → Prop
  | working g closure => g = generation → closure = work
  | worked g message => g = generation → .worked work message ∈ log
  | leaving g => g = generation → ∃ message, .worked work message ∈ log
  | _ => True

/-- Every resume closure in the log comes behind its own work and has the message of that. -/
def ResumedInTurn (log : List Event) : Prop :=
  ∀ before closure message after, log = before ++ .resumed closure message :: after →
    ∃ work, .awaited work closure ∈ before ∧ .worked work message ∈ before

/-- Awaits belong to their work. -/
structure Owned (log : List Event) (a : AwaitState) (roles : Multiset Role) : Prop where
  requested : a.requested = true → .awaited a.work a.resume ∈ log ∧
    ∀ role ∈ roles, role.worksFor a.generation = false
  pending : a.pending = true → ∃ work, .awaited work a.resume ∈ log ∧
    ∀ role ∈ roles, role.Owns log a.generation work
  resuming : ∀ closure message, .resuming closure message ∈ roles →
    ∃ work, .awaited work closure ∈ log ∧ .worked work message ∈ log
  history : ResumedInTurn log

variable {log : List Event}

theorem Role.Owns.mono {generation : Nat} {work : Closure} {role : Role}
    (h : role.Owns log generation work) (events : List Event) :
    role.Owns (log ++ events) generation work := by
  cases role with
  | worked g message => exact fun hg => List.mem_append_left _ (h hg)
  | leaving g =>
    intro hg
    obtain ⟨message, hmem⟩ := h hg
    exact ⟨message, List.mem_append_left _ hmem⟩
  | working => exact h
  | _ => exact True.intro

/-- A thread that works for no await of the generation owns whatever there is. -/
theorem Role.owns_of_not_worksFor {generation : Nat} {work : Closure} {role : Role}
    (h : role.worksFor generation = false) : role.Owns log generation work := by
  cases role with
  | working g | worked g | leaving g => exact fun hg => absurd hg (by simpa [Role.worksFor] using h)
  | _ => exact True.intro

/-- Events that are not the invocation of a resume closure. -/
theorem ResumedInTurn.append {events : List Event} (h : ResumedInTurn log)
    (hevents : ∀ closure message, .resumed closure message ∉ events) :
    ResumedInTurn (log ++ events) := by
  intro before closure message after heq
  obtain ⟨rest, rfl, hrest⟩ | ⟨rest, rfl, hrest⟩ := List.append_eq_append_iff.mp heq
  · -- the event would be among the new ones
    refine absurd (?_ : .resumed closure message ∈ events) (hevents closure message)
    rw [hrest]
    exact List.mem_append_right _ List.mem_cons_self
  · cases rest with
    | nil =>
      refine absurd (?_ : .resumed closure message ∈ events) (hevents closure message)
      rw [List.nil_append] at hrest
      rw [← hrest]
      exact List.mem_cons_self
    | cons event rest =>
      cases hrest
      exact h before closure message rest rfl

variable {message : ClosureMessage}

theorem ResumedInTurn.resume {closure : Closure} (h : ResumedInTurn log)
    (hwork : ∃ work, .awaited work closure ∈ log ∧ .worked work message ∈ log) :
    ResumedInTurn (log ++ [.resumed closure message]) := by
  intro before closure' message' after heq
  cases List.eq_nil_or_concat after with
  | inl hnil =>
    subst hnil
    obtain ⟨rfl, hlast⟩ := List.append_inj' heq rfl
    cases hlast
    exact hwork
  | inr hconcat =>
    obtain ⟨rest, event, rfl⟩ := hconcat
    have heq' : log ++ [.resumed closure message]
        = (before ++ .resumed closure' message' :: rest) ++ [event] := by
      rw [heq]
      simp
    exact h before closure' message' rest (List.append_inj' heq' rfl).1

/-! ### Steps -/

section Step

variable {events : List Event} {a a' : AwaitState} {role : Role} {rest : Multiset Role}

/-- The others keep what they have. -/
theorem Owned.resuming_rest (h : Owned log a (role ::ₘ rest)) {closure : Closure}
    (hmem : .resuming closure message ∈ rest) :
    ∃ work, .awaited work closure ∈ log ++ events ∧ .worked work message ∈ log ++ events := by
  obtain ⟨work, hawaited, hworked⟩ := h.resuming closure message (Multiset.mem_cons_of_mem hmem)
  exact ⟨work, List.mem_append_left _ hawaited, List.mem_append_left _ hworked⟩

variable {roles : Multiset Role}

/-- A step that leaves the await alone. What the thread turns into works for the same await or for
none. -/
theorem Owned.keep (h : Owned log a (role ::ₘ rest)) (hhistory : ResumedInTurn (log ++ events))
    (hworks : ∀ next ∈ roles, ∀ g, next.worksFor g = true → role.worksFor g = true)
    (howns : ∀ next ∈ roles, ∀ g work, role.Owns log g work → next.Owns (log ++ events) g work)
    (hresuming : ∀ closure message, .resuming closure message ∈ roles →
      role = .resuming closure message) : Owned (log ++ events) a (roles + rest) := by
  refine ⟨fun hrequested => ?_, fun hpending => ?_, fun closure message hmem => ?_, hhistory⟩
  · obtain ⟨hawaited, halone⟩ := h.requested hrequested
    refine ⟨List.mem_append_left _ hawaited, fun next hmem => ?_⟩
    obtain hnew | hold := Multiset.mem_add.mp hmem
    · have hrole := halone role (Multiset.mem_cons_self role rest)
      cases hnext : next.worksFor a.generation with
      | false => rfl
      | true => exact absurd (hrole.symm.trans (hworks next hnew _ hnext)) nofun
    · exact halone next (Multiset.mem_cons_of_mem hold)
  · obtain ⟨work, hawaited, hown⟩ := h.pending hpending
    refine ⟨work, List.mem_append_left _ hawaited, fun next hmem => ?_⟩
    obtain hnew | hold := Multiset.mem_add.mp hmem
    · exact howns next hnew _ work (hown role (Multiset.mem_cons_self role rest))
    · exact (hown next (Multiset.mem_cons_of_mem hold)).mono events
  · obtain hnew | hold := Multiset.mem_add.mp hmem
    · obtain rfl := hresuming closure message hnew
      obtain ⟨work, hawaited, hworked⟩ := h.resuming closure message (Multiset.mem_cons_self _ rest)
      exact ⟨work, List.mem_append_left _ hawaited, List.mem_append_left _ hworked⟩
    · exact h.resuming_rest hold

/-- Threads without a part in an await come and go. -/
theorem Owned.idle (h : Owned log a (role ::ₘ rest)) (hhistory : ResumedInTurn (log ++ events))
    (hroles : ∀ next ∈ roles, next = .none ∨ next = .finalizer) :
    Owned (log ++ events) a (roles + rest) := by
  refine h.keep hhistory (fun next hnext g hg => ?_) (fun next hnext g work _ => ?_)
    fun closure message hmem => ?_
  · obtain rfl | rfl := hroles next hnext <;> cases hg
  · obtain rfl | rfl := hroles next hnext <;> exact True.intro
  · obtain hn | hn := hroles _ hmem <;> cases hn

theorem destroyClosures_not_resumed (closures : List Closure) (closure : Closure)
    (message : ClosureMessage) : .resumed closure message ∉ destroyClosures closures := by
  simp [destroyClosures]

/-- A step of a thread keeps the owners, if a request is accepted only without work of its
generation. -/
theorem AwaitStep.owned {throws : Prop} {call : Option AwaitCall} {roles : List Role}
    (hstep : AwaitStep throws call a role a' events roles) (htidy : a.Tidy)
    (h : Owned log a (role ::ₘ rest))
    (halone : ∀ accepted, call = some accepted → a.requested = false → a.pending = false →
      ∀ other ∈ rest, other.worksFor accepted.generation = false) :
    Owned (log ++ events) a' (roles + rest) := by
  have hquiet (hevents : ∀ closure message, .resumed closure message ∉ events) :
      ResumedInTurn (log ++ events) := h.history.append hevents
  cases hstep with
  | keep _ hevents =>
    refine h.keep (hquiet fun closure message hmem => ?_) (fun next hnext g hg => ?_)
      (fun next hnext g work hown => ?_) fun closure message hmem => ?_
    · exact absurd (hevents _ hmem) nofun
    · rwa [← List.mem_singleton.mp hnext]
    · rw [List.mem_singleton.mp hnext]
      exact hown.mono events
    · exact (List.mem_singleton.mp hmem).symm
  | begin hevents hroles =>
    exact h.idle (hquiet fun closure message hmem => absurd (hevents _ hmem) nofun) hroles
  | unasked _ hroles => exact h.idle (hquiet nofun) fun next hnext => .inl (hroles next hnext)
  | lose => exact h.idle (hquiet nofun) nofun
  | request hcall hrequested hpending =>
    refine ⟨fun _ => ⟨?_, fun next hmem => ?_⟩, fun hp => ?_, fun closure message hmem => ?_, ?_⟩
    · exact List.mem_append_right _ (List.mem_singleton_self _)
    · obtain hnew | hold := Multiset.mem_add.mp hmem
      · rw [Multiset.mem_singleton.mp hnew]
        rfl
      · exact halone _ hcall hrequested hpending next hold
    · exact absurd (hpending.symm.trans hp) nofun
    · obtain hnew | hold := Multiset.mem_add.mp hmem
      · cases Multiset.mem_singleton.mp hnew
      · exact h.resuming_rest hold
    · exact hquiet (by simp)
  | finalize hrequested =>
    obtain ⟨hawaited, hnone⟩ := h.requested hrequested
    refine ⟨nofun, fun _ => ⟨a.work, List.mem_append_left _ hawaited, fun next hmem => ?_⟩,
      fun closure message hmem => ?_, hquiet nofun⟩
    · obtain hnew | hold := Multiset.mem_add.mp hmem
      · rw [Multiset.mem_singleton.mp hnew]
        exact fun _ => rfl
      · exact Role.owns_of_not_worksFor (hnone next (Multiset.mem_cons_of_mem hold))
    · obtain hnew | hold := Multiset.mem_add.mp hmem
      · cases Multiset.mem_singleton.mp hnew
      · exact h.resuming_rest hold
  | work generation closure message =>
    refine h.keep (hquiet (by simp)) (fun next hnext g hg => ?_) (fun next hnext g work hown => ?_)
      fun closure message hmem => ?_
    · rw [Multiset.mem_singleton.mp hnext] at hg
      exact hg
    · rw [Multiset.mem_singleton.mp hnext]
      intro hg
      rw [← hown hg]
      exact List.mem_append_right _ (List.mem_singleton_self _)
    · cases Multiset.mem_singleton.mp hmem
  | take message hpending =>
    obtain ⟨work, hawaited, hown⟩ := h.pending hpending
    have hworked : .worked work message ∈ log := hown _ (Multiset.mem_cons_self _ rest) rfl
    refine ⟨fun hrequested => ?_, nofun, fun closure message hmem => ?_, hquiet nofun⟩
    · exact absurd (hpending.symm.trans (htidy.apart hrequested)) nofun
    · obtain hnew | hold := Multiset.mem_add.mp hmem
      · cases Multiset.mem_singleton.mp hnew
        exact ⟨work, List.mem_append_left _ hawaited, List.mem_append_left _ hworked⟩
      · exact h.resuming_rest hold
  | leave generation message =>
    refine h.keep (hquiet nofun) (fun next hnext g hg => ?_) (fun next hnext g work hown => ?_)
      fun closure message hmem => ?_
    · rw [Multiset.mem_singleton.mp hnext] at hg
      exact hg
    · rw [Multiset.mem_singleton.mp hnext]
      exact fun hg => ⟨message, List.mem_append_left _ (hown hg)⟩
    · cases Multiset.mem_singleton.mp hmem
  | discard =>
    refine ⟨nofun, nofun, fun closure message hmem => ?_, hquiet ?_⟩
    · obtain hnew | hold := Multiset.mem_add.mp hmem
      · cases Multiset.mem_singleton.mp hnew
      · exact h.resuming_rest hold
    · exact destroyClosures_not_resumed _
  | leaveAlone => exact h.idle (hquiet nofun) nofun
  | resume closure message =>
    refine h.idle (h.history.resume (h.resuming closure message (Multiset.mem_cons_self _ rest))) ?_
    exact fun next hnext => .inr (Multiset.mem_singleton.mp hnext)
  | drop closure message =>
    refine h.idle (hquiet (destroyClosures_not_resumed _)) ?_
    exact fun next hnext => .inr (Multiset.mem_singleton.mp hnext)

theorem AwaitActs.owned {roles : List Role} (hact : AwaitActs a a' events roles) (htidy : a.Tidy)
    (h : Owned log a rest) : Owned (log ++ events) a' (roles + rest) := by
  -- the environment is like a thread without a part in an await
  have hpadded : Owned log a (.none ::ₘ rest) := by
    refine ⟨fun hrequested => ?_, fun hpending => ?_, fun closure message hmem => ?_, h.history⟩
    · obtain ⟨hawaited, halone⟩ := h.requested hrequested
      refine ⟨hawaited, fun next hmem => ?_⟩
      obtain rfl | hold := Multiset.mem_cons.mp hmem
      · rfl
      · exact halone next hold
    · obtain ⟨work, hawaited, hown⟩ := h.pending hpending
      refine ⟨work, hawaited, fun next hmem => ?_⟩
      obtain rfl | hold := Multiset.mem_cons.mp hmem
      · exact True.intro
      · exact hown next hold
    · obtain hnone | hold := Multiset.mem_cons.mp hmem
      · cases hnone
      · exact h.resuming closure message hold
  cases hact with
  | aside hroles => exact hpadded.idle (h.history.append nofun) hroles
  | cancelRequested =>
    refine ⟨nofun, nofun, fun closure message hmem => ?_, h.history.append ?_⟩
    · obtain hnew | hold := Multiset.mem_add.mp hmem
      · exact absurd hnew (Multiset.notMem_zero _)
      · exact hpadded.resuming_rest hold
    · exact destroyClosures_not_resumed _
  | cancelPending hpending =>
    refine ⟨fun hrequested => ?_, nofun, fun closure message hmem => ?_, h.history.append ?_⟩
    · exact absurd (hpending.symm.trans (htidy.apart hrequested)) nofun
    · obtain hnew | hold := Multiset.mem_add.mp hmem
      · cases Multiset.mem_singleton.mp hnew
      · exact hpadded.resuming_rest hold
    · exact destroyClosures_not_resumed _

end Step

/-! ### Runs -/

/-- The invariant of a run. -/
structure Ownership (c : (awaitSystem setup).Config) : Prop where
  tidy : c.shared.state.await.Tidy
  owned : Owned c.shared.log c.shared.state.await (c.threads.map AwaitPoint.role)

theorem ownership_idle : Ownership (awaitIdle setup) := by
  refine ⟨⟨fun _ => rfl, fun _ _ => rfl, fun _ => rfl⟩, ⟨fun h => ?_, fun h => ?_, fun _ _ h => ?_, ?_⟩⟩
  · cases h
  · cases h
  · exact absurd h (Multiset.notMem_zero _)
  · intro before closure message after heq
    cases before <;> cases heq

theorem ownership_of_run {c : (awaitSystem setup).Config}
    (hrun : RunWhere (awaitsAlone setup) (awaitIdle setup) c) : Ownership c := by
  refine hrun.invariant Ownership (fun c move c' h hmeets hexec => ?_) ownership_idle
  · cases move with
    | thread index choice =>
      obtain ⟨t, ts, rest, hget, hstep, hthreads, hthreads'⟩ := exists_step_of_exec hexec
      obtain ⟨events, hlog, hawait⟩ := awaitStep_of_awaitStep (r := (c'.shared, ts)) hstep
      refine ⟨hawait.tidy h.tidy, ?_⟩
      have howned := h.owned
      rw [← Multiset.map_coe, hthreads, Multiset.map_cons] at howned
      rw [hlog, ← Multiset.map_coe, hthreads', Multiset.map_add, Multiset.map_coe]
      refine hawait.owned h.tidy howned fun call hcall hrequested hpending other hother => ?_
      -- the condition speaks about all threads, so also about the others
      obtain ⟨t', ht', rfl⟩ := Multiset.mem_map.mp hother
      have hmem : t' ∈ c.threads := by
        rw [← Multiset.mem_coe, hthreads]
        exact Multiset.mem_cons_of_mem ht'
      have hnone : c.shared.state.awaitRequested = false ∧ c.shared.state.awaitPending = false :=
        ⟨hrequested, hpending⟩
      simp only [awaitsAlone, hget, hcall, hnone.1, hnone.2, Bool.or_self, Bool.false_or,
        List.all_eq_true, Bool.not_eq_true'] at hmeets
      exact hmeets t' hmem
    | env action =>
      obtain ⟨⟨s', ts⟩, hact, rfl⟩ := Option.map_eq_some_iff.mp hexec
      obtain ⟨events, hlog, hawait⟩ := awaitActs_of_awaitAct (r := (s', ts)) hact
      refine ⟨hawait.tidy h.tidy, ?_⟩
      have hroles : ((c.threads ++ ts).map AwaitPoint.role : Multiset Role)
          = (ts.map AwaitPoint.role : List Role) + (c.threads.map AwaitPoint.role : List Role) := by
        rw [List.map_append, ← Multiset.coe_add, add_comm]
      show Owned s'.log s'.state.await ((c.threads ++ ts).map AwaitPoint.role : List Role)
      rw [hroles, hlog]
      exact hawait.owned h.tidy h.owned

/-- The next step of the thread takes or discards the await of the slot. -/
def touchesAwait (s : Slot) : AwaitPoint → Bool
  | .worker (.takeResume generation _ generationMatches) =>
    s.state.awaitPending && s.state.awaitGeneration = generation && generationMatches
  | .worker (.discardAwait generation) =>
    (s.state.awaitRequested || s.state.awaitPending) && s.state.awaitGeneration = generation
  | _ => false

/-- In every run in which no request is accepted while work of its generation is under way, a resume
closure is invoked behind the work of its own await and with the message of that, and a thread that takes
or discards the await of the slot finds one whose own work has returned. -/
theorem await_resumed_by_its_own_work (setup : AwaitSetup) (c : (awaitSystem setup).Config)
    (hrun : RunWhere (awaitsAlone setup) (awaitIdle setup) c) :
    (∀ before closure message after,
      c.shared.log = before ++ .resumed closure message :: after →
        ∃ work, .awaited work closure ∈ before ∧ .worked work message ∈ before) ∧
      ∀ t ∈ c.threads, touchesAwait c.shared t = true →
        c.shared.state.awaitRequested = false ∧
          ∃ work message, .awaited work c.shared.state.awaitResume ∈ c.shared.log ∧
            .worked work message ∈ c.shared.log := by
  obtain ⟨htidy, howned⟩ := ownership_of_run hrun
  refine ⟨howned.history, fun t ht htouches => ?_⟩
  have hrole : t.role ∈ ((c.threads.map AwaitPoint.role : List Role) : Multiset Role) :=
    List.mem_map_of_mem ht
  cases t with
  | inline | inlineReturned => cases htouches
  | worker t =>
    cases t with
    | takeResume generation message generationMatches =>
      simp only [touchesAwait, Bool.and_eq_true, decide_eq_true_eq] at htouches
      obtain ⟨⟨hpending, hgeneration⟩, -⟩ := htouches
      obtain ⟨work, hawaited, hown⟩ := howned.pending hpending
      refine ⟨?_, work, message, hawaited, hown _ hrole hgeneration.symm⟩
      cases hrequested : c.shared.state.awaitRequested with
      | false => rfl
      | true => exact absurd (hpending.symm.trans (htidy.apart hrequested)) nofun
    | discardAwait generation =>
      simp only [touchesAwait, Bool.and_eq_true, Bool.or_eq_true, decide_eq_true_eq] at htouches
      obtain ⟨hawait, hgeneration⟩ := htouches
      -- a request of this generation would have been refused
      have hrequested : c.shared.state.awaitRequested = false := by
        cases hrequested : c.shared.state.awaitRequested with
        | false => rfl
        | true =>
          have hnone := (howned.requested hrequested).2 _ hrole
          have hne : ¬ generation = c.shared.state.awaitGeneration := of_decide_eq_false hnone
          exact absurd hgeneration.symm hne
      have hpending : c.shared.state.await.pending = true :=
        hawait.resolve_left (by simp [hrequested])
      obtain ⟨work, hawaited, hown⟩ := howned.pending hpending
      obtain ⟨message, hworked⟩ := hown _ hrole hgeneration.symm
      exact ⟨hrequested, work, message, hawaited, hworked⟩
    | _ => cases htouches

/-! ### Work that outlives its await -/

def hall : AwaitSetup := ⟨⟨1, 8⟩, true⟩

/-- The moves of a thread that only proceeds. -/
def goesOn (index count : Nat) : List (awaitSystem hall).Move :=
  List.replicate count (.thread index .proceed)

def inputHook : (awaitSystem hall).Move := .env (.scheduler (.dispatch .messageInbound 1 1))

/-- A hook awaits, and its await is cancelled while the work runs. A second hook of the connection awaits
and returns; then the work of the first await returns. -/
def outlivedAwait : List (awaitSystem hall).Move :=
  .env (.scheduler (.setGeneration 1)) :: inputHook :: goesOn 0 5
    ++ .thread 0 (.await 0 1) :: goesOn 0 7
    ++ .env (.scheduler .cancelAwait) :: goesOn 1 1
    ++ inputHook :: goesOn 1 5
    ++ .thread 1 (.await 2 3) :: goesOn 1 5
    ++ goesOn 0 6

/-- The second await is resumed before its work has begun. -/
theorem resume_before_its_work :
    ∃ c, Run (closureGuard hall) (awaitIdle hall) c ∧
      decide (Event.awaited (some 2) (some 3) ∈ c.shared.log ∧
        Event.resumed (some 3) .ok ∈ c.shared.log ∧
        Event.worked (some 2) .ok ∉ c.shared.log ∧
        Event.worked (some 2) .failed ∉ c.shared.log) = true :=
  exists_run_of_execAll (closureGuard hall) outlivedAwait (awaitIdle hall) _ (by decide +kernel)

/-- A hook awaits and is resumed. -/
def undisturbedAwait : List (awaitSystem hall).Move :=
  .env (.scheduler (.setGeneration 1)) :: inputHook :: goesOn 0 5
    ++ .thread 0 (.await 0 1) :: goesOn 0 13

theorem await_resumed_by_its_own_work_undisturbed :
    ∃ c, RunWhere (awaitsAlone hall) (awaitIdle hall) c ∧
      decide (Event.resumed (some 1) .ok ∈ c.shared.log) = true ∧
      ∀ before closure message after,
        c.shared.log = before ++ .resumed closure message :: after →
          ∃ work, .awaited work closure ∈ before ∧ .worked work message ∈ before := by
  obtain ⟨c, hrun, hc⟩ := exists_runWhere_of_execWhere (awaitsAlone hall) undisturbedAwait
    (awaitIdle hall) (fun c => decide (Event.resumed (some 1) .ok ∈ c.shared.log)) (by decide +kernel)
  exact ⟨c, hrun, hc, (await_resumed_by_its_own_work hall c hrun).1⟩

end Mudmux.Execution
