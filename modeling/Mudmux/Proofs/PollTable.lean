import Mudmux.Async.PollRuntime

/-!
# `Mudmux.Proofs.PollTable`: the descriptor table of the poll backend

The abstract table is a partial function from descriptors to contexts (`Contexts`), which `add` and
`add_event` extend, `modify` changes and `remove` shrinks. `Listed` says that the first entries of two
arrays list such a function without repetition; it is kept by an entry that is appended, by one that is
changed in place, and by one that the last entry replaces. `Sound` adds what the arrays themselves need.

`expand_capacity` succeeds at `MAX_FD_COUNT` without making room, and the entry is then written behind the
arrays. So the table stays well formed along a sequence of calls exactly if a new descriptor is only added
while fewer than `MAX_FD_COUNT` are live: `table_well_formed_iff_within_limit`.
-/

set_option autoImplicit false

namespace Mudmux.Async

variable {fd : Int} {index : Nat} {p : PollFd} {m : FdMapping}

/-! ### What the table is for -/

/-- The registered descriptors with their contexts. -/
abbrev Contexts : Type := Int → Option Nat

/-- Register a descriptor that is not registered. -/
def Contexts.add (contexts : Contexts) (fd : Int) (context : Nat) : Contexts :=
  if 0 ≤ fd ∧ contexts fd = none then Function.update contexts fd (some context) else contexts

/-- The context given by the last `add` or non-null `modify` of each descriptor that is registered. -/
def Contexts.exec (contexts : Contexts) : TableCall → Contexts
  | .add fd _ context => contexts.add fd context
  | .modify fd _ context =>
    if contexts fd ≠ none ∧ context ≠ 0 then Function.update contexts fd (some context) else contexts
  | .remove fd => Function.update contexts fd none
  | .addEvent none _ => contexts
  | .addEvent (some event) context => contexts.add event.waitHandle context

/-- Only the read end of the pipe, without a context. -/
def initialContexts (notifyFd : Int) : Contexts := Function.update (fun _ => none) notifyFd (some 0)

/-! ### Arrays that list the contexts -/

/-- The first `n` entries list the contexts, each descriptor once and the same in both arrays. -/
structure Listed (n : Nat) (pollfd : Nat → PollFd) (mapping : Nat → FdMapping)
    (contexts : Contexts) : Prop where
  same : ∀ i < n, (pollfd i).fd = (mapping i).fd
  valid : ∀ i < n, 0 ≤ (pollfd i).fd
  context : ∀ i < n, contexts (pollfd i).fd = some (mapping i).context
  distinct : ∀ i < n, ∀ j < n, (pollfd i).fd = (pollfd j).fd → i = j
  listed : ∀ fd, contexts fd ≠ none → ∃ i < n, (pollfd i).fd = fd

namespace Listed

variable {n : Nat} {pollfd pollfd' : Nat → PollFd} {mapping mapping' : Nat → FdMapping}
  {contexts : Contexts}

section

variable (h : Listed n pollfd mapping contexts)

include h

/-- Only the live entries matter. -/
theorem congr (hp : ∀ i < n, pollfd' i = pollfd i) (hm : ∀ i < n, mapping' i = mapping i) :
    Listed n pollfd' mapping' contexts where
  same i hi := by rw [hp i hi, hm i hi, h.same i hi]
  valid i hi := by rw [hp i hi]; exact h.valid i hi
  context i hi := by rw [hp i hi, hm i hi, h.context i hi]
  distinct i hi j hj hfd := by
    rw [hp i hi, hp j hj] at hfd
    exact h.distinct i hi j hj hfd
  listed fd hfd := by
    obtain ⟨i, hi, rfl⟩ := h.listed fd hfd
    exact ⟨i, hi, by rw [hp i hi]⟩

/-- A new descriptor behind the others. -/
theorem append (hsame : p.fd = m.fd) (hvalid : 0 ≤ p.fd) (hnew : contexts p.fd = none) :
    Listed (n + 1) (Function.update pollfd n p) (Function.update mapping n m)
      (Function.update contexts p.fd (some m.context)) := by
  -- no entry that was there has the new descriptor
  have hne : ∀ i < n, (pollfd i).fd ≠ p.fd := by
    intro i hi heq
    have := h.context i hi
    rw [heq, hnew] at this
    cases this
  have hold : ∀ i < n + 1, i ≠ n → i < n := by omega
  refine ⟨fun i hi => ?_, fun i hi => ?_, fun i hi => ?_, fun i hi j hj hfd => ?_, fun fd hfd => ?_⟩
  · by_cases hin : i = n
    · subst hin
      simpa using hsame
    · simpa [hin] using h.same i (hold i hi hin)
  · by_cases hin : i = n
    · subst hin
      simpa using hvalid
    · simpa [hin] using h.valid i (hold i hi hin)
  · by_cases hin : i = n
    · subst hin
      simp
    · have hi' := hold i hi hin
      simpa [hin, Function.update_of_ne (hne i hi')] using h.context i hi'
  · by_cases hin : i = n <;> by_cases hjn : j = n
    · omega
    · subst hin
      have := hne j (hold j hj hjn)
      simp [hjn] at hfd
      exact absurd hfd.symm this
    · subst hjn
      have := hne i (hold i hi hin)
      simp [hin] at hfd
      exact absurd hfd this
    · simp only [Function.update_of_ne hin, Function.update_of_ne hjn] at hfd
      exact h.distinct i (hold i hi hin) j (hold j hj hjn) hfd
  · by_cases heq : fd = p.fd
    · exact ⟨n, by omega, by simp [heq]⟩
    · rw [Function.update_of_ne heq] at hfd
      obtain ⟨i, hi, rfl⟩ := h.listed fd hfd
      exact ⟨i, by omega, by rw [Function.update_of_ne (by omega)]⟩

/-- A live entry changed in place, with the same descriptor. -/
theorem change {k : Nat} (hk : k < n) (hp : p.fd = (pollfd k).fd) (hm : m.fd = (mapping k).fd) :
    Listed n (Function.update pollfd k p) (Function.update mapping k m)
      (Function.update contexts p.fd (some m.context)) := by
  have hfds : ∀ i, (Function.update pollfd k p i).fd = (pollfd i).fd := by
    intro i
    by_cases hik : i = k
    · subst hik
      simpa using hp
    · simp [hik]
  refine ⟨fun i hi => ?_, fun i hi => ?_, fun i hi => ?_, fun i hi j hj hfd => ?_, fun fd hfd => ?_⟩
  · rw [hfds]
    by_cases hik : i = k
    · subst hik
      simpa [hm] using h.same i hi
    · simpa [hik] using h.same i hi
  · rw [hfds]
    exact h.valid i hi
  · rw [hfds]
    by_cases hik : i = k
    · subst hik
      simp [hp]
    · have hne : (pollfd i).fd ≠ p.fd := by
        intro heq
        exact hik (h.distinct i hi k hk (heq.trans hp))
      simpa [hik, Function.update_of_ne hne] using h.context i hi
  · rw [hfds, hfds] at hfd
    exact h.distinct i hi j hj hfd
  · simp only [hfds]
    by_cases heq : fd = p.fd
    · exact ⟨k, hk, by rw [heq, hp]⟩
    · rw [Function.update_of_ne heq] at hfd
      exact h.listed fd hfd

end

/-- A live entry replaced by the last one, which is dropped. -/
theorem remove (h : Listed (n + 1) pollfd mapping contexts) {k : Nat} (hk : k < n + 1) :
    Listed n (Function.update pollfd k (pollfd n)) (Function.update mapping k (mapping n))
      (Function.update contexts (pollfd k).fd none) := by
  -- where the entry that now stands at an index was before
  have hfrom : ∀ i < n, ∃ j < n + 1, j ≠ k ∧ Function.update pollfd k (pollfd n) i = pollfd j ∧
      Function.update mapping k (mapping n) i = mapping j ∧ (j = n ↔ i = k) := by
    intro i hi
    by_cases hik : i = k
    · subst hik
      exact ⟨n, by omega, by omega, by simp, by simp, by simp⟩
    · exact ⟨i, by omega, hik, by simp [hik], by simp [hik], by omega⟩
  refine ⟨fun i hi => ?_, fun i hi => ?_, fun i hi => ?_, fun i hi i' hi' hfd => ?_,
    fun fd hfd => ?_⟩
  · obtain ⟨j, hj, -, hp, hm, -⟩ := hfrom i hi
    rw [hp, hm]
    exact h.same j hj
  · obtain ⟨j, hj, -, hp, -, -⟩ := hfrom i hi
    rw [hp]
    exact h.valid j hj
  · obtain ⟨j, hj, hjk, hp, hm, -⟩ := hfrom i hi
    have hne : (pollfd j).fd ≠ (pollfd k).fd := fun heq => hjk (h.distinct j hj k hk heq)
    rw [hp, hm, Function.update_of_ne hne]
    exact h.context j hj
  · obtain ⟨j, hj, -, hp, -, hjn⟩ := hfrom i hi
    obtain ⟨j', hj', -, hp', -, hjn'⟩ := hfrom i' hi'
    rw [hp, hp'] at hfd
    have hjj' := h.distinct j hj j' hj' hfd
    subst hjj'
    by_cases hik : i = k
    · exact hik.trans (hjn'.mp (hjn.mpr hik)).symm
    · have hik' : i' ≠ k := fun heq => hik (hjn.mp (hjn'.mpr heq))
      rw [Function.update_of_ne hik] at hp
      rw [Function.update_of_ne hik'] at hp'
      exact h.distinct i (by omega) i' (by omega) (by rw [hp, hp'])
  · by_cases heq : fd = (pollfd k).fd
    · rw [heq, Function.update_self] at hfd
      exact absurd rfl hfd
    · rw [Function.update_of_ne heq] at hfd
      obtain ⟨j, hj, rfl⟩ := h.listed fd hfd
      have hjk : j ≠ k := fun hjk => heq (by rw [hjk])
      by_cases hjn : j = n
      · exact ⟨k, by omega, by rw [Function.update_self, hjn]⟩
      · exact ⟨j, by omega, by rw [Function.update_of_ne hjk]⟩

end Listed

/-! ### Writes -/

section Cells

variable {α : Type}

variable {cells : List α}

theorem writeAt_of_lt (h : index < cells.length) (value : α) :
    writeAt cells index value = some (cells.set index value) := if_pos h

theorem writeAt_of_le (h : cells.length ≤ index) (value : α) :
    writeAt cells index value = none := if_neg (by omega)

/-- A second write: the first one does not change the length. -/
theorem writeAt_set (h : index < cells.length) (i : Nat) (a value : α) :
    writeAt (cells.set i a) index value = some ((cells.set i a).set index value) :=
  writeAt_of_lt (by rwa [List.length_set]) value

theorem getD_set (h : index < cells.length) (value default : α) :
    (fun i => (cells.set index value).getD i default)
      = Function.update (fun i => cells.getD i default) index value := by
  funext i
  by_cases hi : i = index
  · subst hi
    simp [List.getD, h]
  · simp [List.getD, hi, List.getElem?_set_ne (Ne.symm hi)]

end Cells

/-! ### The table -/

/-- The entry of `pollfds` at an index. -/
def PollTable.pollfd (t : PollTable) (i : Nat) : PollFd := t.pollfds.getD i {}

/-- The entry of `mappings` at an index. -/
def PollTable.mapping (t : PollTable) (i : Nat) : FdMapping := t.mappings.getD i {}

/-- The table is well formed and lists the contexts. -/
structure PollTable.Sound (t : PollTable) (contexts : Contexts) : Prop where
  pollfds_length : t.pollfds.length = t.capacity
  mappings_length : t.mappings.length = t.capacity
  capacity_pos : 0 < t.capacity
  capacity_le : t.capacity ≤ maxFdCount
  count_le : t.count ≤ t.capacity
  entries : Listed t.count t.pollfd t.mapping contexts

namespace PollTable

variable {t t' : PollTable} {contexts : Contexts}

theorem pollfd_eq (t : PollTable) : t.pollfd = fun i => t.pollfds.getD i {} := rfl

theorem mapping_eq (t : PollTable) : t.mapping = fun i => t.mappings.getD i {} := rfl

section

variable (h : t.Sound contexts)

include h

theorem getElem?_pollfds {i : Nat} (hi : i < t.count) : t.pollfds[i]? = some (t.pollfd i) := by
  have hlt : i < t.pollfds.length := by have := h.pollfds_length; have := h.count_le; omega
  rw [pollfd, List.getD, List.getElem?_eq_getElem hlt, Option.getD_some]

theorem getElem?_mappings {i : Nat} (hi : i < t.count) : t.mappings[i]? = some (t.mapping i) := by
  have hlt : i < t.mappings.length := by have := h.mappings_length; have := h.count_le; omega
  rw [mapping, List.getD, List.getElem?_eq_getElem hlt, Option.getD_some]

/-- An index that is found is live and has the descriptor. -/
theorem findFdIndex_some {idx : Nat} (hfind : t.findFdIndex fd = some idx) :
    idx < t.count ∧ (t.pollfd idx).fd = fd := by
  obtain ⟨hlt, hfd, -⟩ := List.findIdx?_eq_some_iff_getElem.mp hfind
  rw [List.length_take] at hlt
  have hidx : idx < t.count := by omega
  have hget := getElem?_pollfds h hidx
  refine ⟨hidx, ?_⟩
  rw [List.getElem_take, beq_iff_eq] at hfd
  rw [List.getElem?_eq_getElem (by omega), Option.some.injEq] at hget
  rw [← hget, hfd]

/-- An index is found exactly for the registered descriptors. -/
theorem findFdIndex_isSome (fd : Int) : (t.findFdIndex fd).isSome ↔ contexts fd ≠ none := by
  constructor
  · intro hfind
    obtain ⟨idx, hidx⟩ := Option.isSome_iff_exists.mp hfind
    obtain ⟨hlt, rfl⟩ := findFdIndex_some h hidx
    rw [h.entries.context idx hlt]
    exact Option.some_ne_none _
  · intro hfd
    obtain ⟨i, hi, rfl⟩ := h.entries.listed fd hfd
    have hget := getElem?_pollfds h hi
    by_contra hnone
    have hall := List.findIdx?_eq_none_iff.mp (Option.not_isSome_iff_eq_none.mp hnone)
    have hmem : t.pollfd i ∈ t.pollfds.take t.count := by
      refine List.mem_of_getElem? (i := i) ?_
      rw [List.getElem?_take_of_lt hi, hget]
    simpa using hall _ hmem

/-- The same contexts with longer arrays. -/
theorem Sound.expandCapacity : t.expandCapacity.Sound contexts := by
  have hcap := h.capacity_pos
  have hmax := h.capacity_le
  have hcount := h.count_le
  have hnew : t.capacity ≤ min (t.capacity * 2) maxFdCount := by omega
  -- nothing is cut off: the arrays never shrink
  have hp : t.pollfds.take (min (t.capacity * 2) maxFdCount) = t.pollfds :=
    List.take_of_length_le (by rw [h.pollfds_length]; exact hnew)
  have hm : t.mappings.take (min (t.capacity * 2) maxFdCount) = t.mappings :=
    List.take_of_length_le (by rw [h.mappings_length]; exact hnew)
  refine ⟨?_, ?_, ?_, ?_, ?_, h.entries.congr ?_ ?_⟩
  · show (t.pollfds.take _ ++ List.replicate _ _).length = _
    rw [hp, List.length_append, List.length_replicate, h.pollfds_length]
    exact Nat.add_sub_cancel' hnew
  · show (t.mappings.take _ ++ List.replicate _ _).length = _
    rw [hm, List.length_append, List.length_replicate, h.mappings_length]
    exact Nat.add_sub_cancel' hnew
  · show 0 < min (t.capacity * 2) maxFdCount
    omega
  · exact Nat.min_le_right _ _
  · exact hcount.trans hnew
  · intro i hi
    show (t.pollfds.take _ ++ List.replicate _ _).getD i {} = t.pollfds.getD i {}
    rw [hp, List.getD_append _ _ _ _ (by rw [h.pollfds_length]; omega)]
  · intro i hi
    show (t.mappings.take _ ++ List.replicate _ _).getD i {} = t.mappings.getD i {}
    rw [hm, List.getD_append _ _ _ _ (by rw [h.mappings_length]; omega)]

/-- Behind the live entries there is room. -/
theorem Sound.append (hroom : t.count < t.capacity) (hvalid : 0 ≤ fd) (hnew : contexts fd = none)
    (events : EventType) (context : Nat) :
    ∃ t', t.append fd events context = some t' ∧ t'.count = t.count + 1 ∧
      t'.Sound (Function.update contexts fd (some context)) := by
  have hp : t.count < t.pollfds.length := by rw [h.pollfds_length]; exact hroom
  have hm : t.count < t.mappings.length := by rw [h.mappings_length]; exact hroom
  rw [PollTable.append]
  simp only [writeAt_of_lt hp, writeAt_of_lt hm]
  refine ⟨_, rfl, rfl, ?_, ?_, h.capacity_pos, h.capacity_le, hroom, ?_⟩
  · simpa using h.pollfds_length
  · simpa using h.mappings_length
  · have hlisted := h.entries.append (p := { fd, events := eventsToPoll events, revents := {} })
      (m := { fd, context, events, event := none }) rfl hvalid hnew
    rwa [pollfd_eq t, mapping_eq t, ← getD_set hp, ← getD_set hm] at hlisted

/-- An entry changed in place. -/
theorem Sound.change {idx : Nat} (hidx : idx < t.count) (hp : p.fd = (t.pollfd idx).fd)
    (hm : m.fd = (t.mapping idx).fd) :
    ({ t with pollfds := t.pollfds.set idx p, mappings := t.mappings.set idx m } : PollTable).Sound
      (Function.update contexts p.fd (some m.context)) := by
  have hcount := h.count_le
  have hplt : idx < t.pollfds.length := by rw [h.pollfds_length]; omega
  have hmlt : idx < t.mappings.length := by rw [h.mappings_length]; omega
  refine ⟨?_, ?_, h.capacity_pos, h.capacity_le, hcount, ?_⟩
  · simpa using h.pollfds_length
  · simpa using h.mappings_length
  · have hlisted := h.entries.change hidx hp hm
    rwa [pollfd_eq t, mapping_eq t, ← getD_set hplt, ← getD_set hmlt] at hlisted

/-- A full table below the limit has room again once it has grown. -/
theorem Sound.grown (hlimit : t.count < maxFdCount) :
    ∃ t', (if t.count ≥ t.capacity then t.expandCapacity else t) = t' ∧ t'.count = t.count ∧
      t'.Sound contexts ∧ t'.count < t'.capacity := by
  split
  · have hcap := h.capacity_pos
    have hcount := h.count_le
    refine ⟨_, rfl, rfl, h.expandCapacity, ?_⟩
    show t.count < min (t.capacity * 2) maxFdCount
    omega
  · next hroom => exact ⟨_, rfl, rfl, h, by omega⟩

/-- A new descriptor below the limit. -/
theorem Sound.add_new (hvalid : 0 ≤ fd) (hnew : contexts fd = none) (hlimit : t.count < maxFdCount)
    (events : EventType) (context : Nat) :
    ∃ t', t.add fd events context = some (t', 0) ∧ t'.count = t.count + 1 ∧
      t'.Sound (Function.update contexts fd (some context)) := by
  have hfind : ¬ (t.findFdIndex fd).isSome := by
    rw [findFdIndex_isSome h, hnew]
    exact fun hne => hne rfl
  obtain ⟨t₁, ht₁, hcount, hsound, hroom⟩ := h.grown hlimit
  obtain ⟨t', hrun, hcount', hsound'⟩ := hsound.append hroom hvalid hnew events context
  refine ⟨t', ?_, by omega, hsound'⟩
  rw [PollTable.add, if_neg (by omega), if_neg hfind]
  simp only [ht₁, hrun, Option.map_some]

/-- A descriptor that is negative or registered is turned down. -/
theorem Sound.add_refused (hold : ¬ (0 ≤ fd ∧ contexts fd = none)) (events : EventType)
    (context : Nat) : t.add fd events context = some (t, -1) := by
  rw [PollTable.add]
  by_cases hvalid : fd < 0
  · rw [if_pos hvalid]
  · have hfind : (t.findFdIndex fd).isSome := by
      rw [findFdIndex_isSome h]
      exact fun hnone => hold ⟨by omega, hnone⟩
    rw [if_neg hvalid, if_pos hfind]

/-- At the limit the entry of a new descriptor is written behind the arrays. -/
theorem Sound.add_overrun (hvalid : 0 ≤ fd) (hnew : contexts fd = none)
    (hlimit : ¬ t.count < maxFdCount) (events : EventType) (context : Nat) :
    t.add fd events context = none := by
  have hcount := h.count_le
  have hmax := h.capacity_le
  have hfind : ¬ (t.findFdIndex fd).isSome := by
    rw [findFdIndex_isSome h, hnew]
    exact fun hne => hne rfl
  have hfull : t.count ≥ t.capacity := by omega
  have hgrown := h.expandCapacity
  have hlength : t.expandCapacity.pollfds.length ≤ t.expandCapacity.count := by
    have hle := hgrown.capacity_le
    rw [hgrown.pollfds_length]
    show t.expandCapacity.capacity ≤ t.count
    omega
  rw [PollTable.add, if_neg (by omega), if_neg hfind]
  simp only [if_pos hfull, PollTable.append, writeAt_of_le hlength]
  rfl

/-- A negative descriptor is not registered, nor is one that is not found. -/
theorem Sound.unregistered (hfd : fd < 0 ∨ t.findFdIndex fd = none) : contexts fd = none := by
  by_contra hne
  rcases hfd with hneg | hnone
  · obtain ⟨i, hi, rfl⟩ := h.entries.listed fd hne
    have := h.entries.valid i hi
    omega
  · have hsome := (findFdIndex_isSome h fd).mpr hne
    rw [hnone] at hsome
    cases hsome

/-- `async_runtime_modify`. -/
theorem Sound.modify (fd : Int) (events : EventType) (context : Nat) :
    ∃ t' result, t.modify fd events context = some (t', result) ∧
      t'.Sound (contexts.exec (.modify fd events context)) := by
  rw [PollTable.modify]
  by_cases hneg : fd < 0
  · have hnone := h.unregistered (.inl hneg)
    rw [if_pos hneg]
    exact ⟨t, -1, rfl, by simpa [Contexts.exec, hnone] using h⟩
  · rw [if_neg hneg]
    cases hfind : t.findFdIndex fd with
    | none =>
      have hnone := h.unregistered (.inr hfind)
      exact ⟨t, -1, rfl, by simpa [Contexts.exec, hnone] using h⟩
    | some idx =>
      obtain ⟨hidx, hfd⟩ := findFdIndex_some h hfind
      have hcount := h.count_le
      have hp : idx < t.pollfds.length := by rw [h.pollfds_length]; omega
      have hm : idx < t.mappings.length := by rw [h.mappings_length]; omega
      simp only [getElem?_pollfds h hidx, getElem?_mappings h hidx, Option.bind_eq_bind,
        Option.bind_some, writeAt_of_lt hp, writeAt_of_lt hm, Option.pure_def]
      refine ⟨_, _, rfl, ?_⟩
      have hchanged := h.change hidx
        (p := { t.pollfd idx with events := eventsToPoll events })
        (m := { t.mapping idx with
          events, context := if context ≠ 0 then context else (t.mapping idx).context }) rfl rfl
      have hcontext := h.entries.context idx hidx
      rw [hfd] at hcontext
      -- a null context writes back what is there
      have heq : contexts.exec (.modify fd events context) = Function.update contexts fd
          (some (if context ≠ 0 then context else (t.mapping idx).context)) := by
        by_cases hnull : context = 0
        · simp [Contexts.exec, hnull, ← hcontext]
        · simp [Contexts.exec, hnull, hcontext]
      rw [heq]
      simpa only [hfd] using hchanged

/-- `async_runtime_remove`. -/
theorem Sound.remove (fd : Int) :
    ∃ t' result, t.remove fd = some (t', result) ∧ t'.Sound (contexts.exec (.remove fd)) := by
  have hkept : contexts fd = none → contexts.exec (.remove fd) = contexts :=
    fun hnone => Function.update_eq_self_iff.mpr hnone.symm
  rw [PollTable.remove]
  by_cases hneg : fd < 0
  · rw [if_pos hneg, hkept (h.unregistered (.inl hneg))]
    exact ⟨t, -1, rfl, h⟩
  · rw [if_neg hneg]
    cases hfind : t.findFdIndex fd with
    | none =>
      rw [hkept (h.unregistered (.inr hfind))]
      exact ⟨t, -1, rfl, h⟩
    | some idx =>
      obtain ⟨hidx, rfl⟩ := findFdIndex_some h hfind
      obtain ⟨n, hn⟩ : ∃ n, t.count = n + 1 := ⟨t.count - 1, by omega⟩
      have hcount := h.count_le
      have hlast : n < t.count := by omega
      have hp : ∀ i ≤ n, i < t.pollfds.length := by
        intro i hi
        rw [h.pollfds_length]
        omega
      have hm : ∀ i ≤ n, i < t.mappings.length := by
        intro i hi
        rw [h.mappings_length]
        omega
      have hidx' : idx ≤ n := by omega
      simp only [hn, Nat.add_sub_cancel, getElem?_pollfds h hlast, getElem?_mappings h hlast,
        Option.bind_eq_bind, Option.bind_some, writeAt_of_lt (hp idx hidx'),
        writeAt_of_lt (hm idx hidx'),
        writeAt_set (hp n le_rfl), writeAt_set (hm n le_rfl), Option.pure_def]
      refine ⟨_, _, rfl, ?_, ?_, h.capacity_pos, h.capacity_le, ?_, ?_⟩
      · simpa using h.pollfds_length
      · simpa using h.mappings_length
      · show n ≤ t.capacity
        omega
      · have hentries : Listed (n + 1) t.pollfd t.mapping contexts := hn ▸ h.entries
        have hremoved := hentries.remove (k := idx) (by omega)
        rw [pollfd_eq t, mapping_eq t, ← getD_set (hp idx hidx'), ← getD_set (hm idx hidx')]
          at hremoved
        -- the cleared entry is behind the live ones
        refine hremoved.congr ?_ ?_
        · intro i hi
          show ((t.pollfds.set idx _).set n _).getD i {} = _
          rw [List.getD, List.getElem?_set_ne (by omega), ← List.getD]
          rfl
        · intro i hi
          show ((t.mappings.set idx _).set n _).getD i {} = _
          rw [List.getD, List.getElem?_set_ne (by omega), ← List.getD]
          rfl

/-- Recording the event in the mapping of its descriptor. -/
theorem Sound.setEvent (hfd : contexts fd ≠ none) (event : AsyncEvent) :
    ∃ index m, t.findFdIndex fd = some index ∧ t.mappings[index]? = some m ∧
      ∃ mappings, writeAt t.mappings index { m with event := some event } = some mappings ∧
        ({ t with mappings } : PollTable).Sound contexts := by
  obtain ⟨index, hfind⟩ := Option.isSome_iff_exists.mp ((findFdIndex_isSome h fd).mpr hfd)
  obtain ⟨hindex, -⟩ := findFdIndex_some h hfind
  have hcount := h.count_le
  have hm : index < t.mappings.length := by rw [h.mappings_length]; omega
  have hp : index < t.pollfds.length := by rw [h.pollfds_length]; omega
  refine ⟨index, _, hfind, getElem?_mappings h hindex, _, writeAt_of_lt hm _, ?_⟩
  have hchanged := h.change hindex (p := t.pollfd index)
    (m := { t.mapping index with event := some event }) rfl rfl
  -- neither the descriptor nor the context changes
  have hsame : t.pollfds.set index (t.pollfd index) = t.pollfds := by
    have hget := getElem?_pollfds h hindex
    rw [List.getElem?_eq_getElem hp, Option.some.injEq] at hget
    rw [← hget, List.set_getElem_self]
  rwa [hsame, Function.update_eq_self_iff.mpr (h.entries.context index hindex).symm] at hchanged

/-! ### Calls -/

omit h in
/-- A new descriptor is added only while fewer than `MAX_FD_COUNT` are live. -/
def roomForFd (t : PollTable) (fd : Int) : Bool :=
  decide (fd < 0) || (t.findFdIndex fd).isSome || decide (t.count < maxFdCount)

omit h in
/-- The same for a call. -/
def roomFor (t : PollTable) : TableCall → Bool
  | .add fd _ _ => t.roomForFd fd
  | .addEvent (some event) _ => t.roomForFd event.waitHandle
  | _ => true

theorem roomForFd_iff (fd : Int) :
    t.roomForFd fd = true ↔ ¬ (0 ≤ fd ∧ contexts fd = none) ∨ t.count < maxFdCount := by
  have hfind := findFdIndex_isSome h fd
  simp only [roomForFd, Bool.or_eq_true, decide_eq_true_eq]
  grind

/-- `async_runtime_add` with room. -/
theorem Sound.add (hroom : t.roomForFd fd = true) (events : EventType) (context : Nat) :
    ∃ t' result, t.add fd events context = some (t', result) ∧ t'.Sound (contexts.add fd context) ∧
      (¬ result < 0 → contexts.add fd context fd ≠ none) := by
  by_cases hnew : 0 ≤ fd ∧ contexts fd = none
  · have hlimit := ((roomForFd_iff h fd).mp hroom).resolve_left (fun hold => hold hnew)
    obtain ⟨t', hrun, -, hsound⟩ := h.add_new hnew.1 hnew.2 hlimit events context
    refine ⟨t', 0, hrun, ?_, fun _ => ?_⟩
    · rwa [Contexts.add, if_pos hnew]
    · rw [Contexts.add, if_pos hnew, Function.update_self]
      exact Option.some_ne_none _
  · refine ⟨t, -1, h.add_refused hnew events context, ?_, fun hresult => absurd (by decide) hresult⟩
    rwa [Contexts.add, if_neg hnew]

/-- `async_runtime_add_event` with room. -/
theorem Sound.addEvent {event : AsyncEvent} (hroom : t.roomForFd event.waitHandle = true)
    (context : Nat) :
    ∃ t' result, t.addEvent (some event) context = some (t', result) ∧
      t'.Sound (contexts.add event.waitHandle context) := by
  rw [PollTable.addEvent]
  by_cases hinvalid : event.waitHandle = -1
  · have hadd : contexts.add event.waitHandle context = contexts := by
      rw [Contexts.add, if_neg (by omega)]
    rw [if_pos hinvalid, hadd]
    exact ⟨t, -1, rfl, h⟩
  · obtain ⟨t₁, result, hrun, hsound, hfound⟩ := h.add hroom { read := true } context
    rw [if_neg hinvalid, hrun]
    simp only [Option.bind_eq_bind, Option.bind_some, Option.pure_def]
    by_cases hresult : result < 0
    · rw [if_pos hresult]
      exact ⟨t₁, -1, rfl, hsound⟩
    · obtain ⟨index, m, hfind, hm, mappings, hwrite, hsound'⟩ :=
        hsound.setEvent (hfound hresult) event
      rw [if_neg hresult]
      simp only [hfind, hm, hwrite, Option.bind_some]
      exact ⟨_, 0, rfl, hsound'⟩

/-- A call with room keeps the table sound. -/
theorem Sound.exec {call : TableCall} (hroom : t.roomFor call = true) :
    ∃ t' result, t.exec call = some (t', result) ∧ t'.Sound (contexts.exec call) := by
  cases call with
  | add fd events context =>
    obtain ⟨t', result, hrun, hsound, -⟩ := h.add hroom events context
    exact ⟨t', result, hrun, hsound⟩
  | modify fd events context => exact h.modify fd events context
  | remove fd => exact h.remove fd
  | addEvent event context =>
    cases event with
    | none => exact ⟨t, -1, rfl, h⟩
    | some event => exact h.addEvent hroom context

/-- A call without room writes outside of the arrays. -/
theorem Sound.exec_overrun {call : TableCall} (hroom : ¬ t.roomFor call = true) :
    t.exec call = none := by
  have hfull : ∀ fd, ¬ t.roomForFd fd = true → ∀ events context, t.add fd events context = none := by
    intro fd hfd events context
    rw [roomForFd_iff h, not_or, not_not] at hfd
    exact h.add_overrun hfd.1.1 hfd.1.2 hfd.2 events context
  cases call with
  | add fd events context => exact hfull fd hroom events context
  | modify fd events context => exact absurd rfl hroom
  | remove fd => exact absurd rfl hroom
  | addEvent event context =>
    cases event with
    | none => exact absurd rfl hroom
    | some event =>
      have hroom : ¬ t.roomForFd event.waitHandle = true := hroom
      have hvalid : event.waitHandle ≠ -1 := by
        intro heq
        rw [roomForFd_iff h, heq] at hroom
        omega
      show PollTable.addEvent t (some event) context = none
      rw [PollTable.addEvent, if_neg hvalid, hfull _ hroom]
      rfl

omit h in
/-- Every call of the sequence finds room. -/
def withinLimit : PollTable → List TableCall → Bool
  | _, [] => true
  | t, call :: calls => t.roomFor call && (t.exec call).any fun r => withinLimit r.1 calls

/-- From a sound table a sequence within the limit leads to a sound table, and any other one writes
outside of the arrays. -/
theorem Sound.run (calls : List TableCall) :
    (withinLimit t calls = true → ∃ t', t.run calls = some t' ∧
      t'.Sound (calls.foldl Contexts.exec contexts)) ∧
    (¬ withinLimit t calls = true → t.run calls = none) := by
  induction calls generalizing t contexts with
  | nil => exact ⟨fun _ => ⟨t, rfl, h⟩, fun hlimit => absurd rfl hlimit⟩
  | cons call calls ih =>
    by_cases hroom : t.roomFor call = true
    · obtain ⟨t₁, result, hexec, hsound⟩ := h.exec hroom
      rw [withinLimit, hroom, PollTable.run, hexec]
      exact ih hsound
    · rw [withinLimit, PollTable.run, h.exec_overrun hroom]
      simp

end

/-- The table behind `async_runtime_init`. -/
theorem sound_initialTable {notifyFd : Int} (hfd : 0 ≤ notifyFd) :
    (initialTable notifyFd).Sound (initialContexts notifyFd) := by
  have hpos : 0 < initialCapacity := by decide
  have hmax : initialCapacity ≤ maxFdCount := by decide
  refine ⟨rfl, rfl, hpos, hmax, hpos, ?_⟩
  have hzero : ∀ i < 1, i = 0 := by omega
  refine ⟨fun i hi => ?_, fun i hi => ?_, fun i hi => ?_, fun i hi j hj _ => ?_, fun fd hne => ?_⟩
  · rw [hzero i hi]
    rfl
  · rw [hzero i hi]
    exact hfd
  · rw [hzero i hi]
    show initialContexts notifyFd notifyFd = some 0
    rw [initialContexts, Function.update_self]
  · rw [hzero i hi, hzero j hj]
  · refine ⟨0, Nat.one_pos, ?_⟩
    show notifyFd = fd
    by_contra hother
    exact hne (Function.update_of_ne (Ne.symm hother) _ _)

end PollTable

/-! ### Sequences of calls -/

/-- What the table has to be after calls that leave these contexts: no more live entries than the arrays
have, each descriptor in one entry only, the same descriptor in both arrays, and the event for an entry
with the context that its descriptor was given last. -/
def PollTable.WellFormed (t : PollTable) (contexts : Contexts) : Prop :=
  t.count ≤ t.capacity ∧ t.pollfds.length = t.capacity ∧ t.mappings.length = t.capacity ∧
    (∀ i < t.count, ∀ j < t.count, (t.pollfd i).fd = (t.pollfd j).fd → i = j) ∧
    (∀ i < t.count, (t.pollfd i).fd = (t.mapping i).fd) ∧
    (∀ i < t.count,
      contexts (t.pollfd i).fd = some (pollIoEvent (t.pollfd i) (t.mapping i)).context) ∧
    ∀ fd, contexts fd ≠ none → ∃ i < t.count, (t.pollfd i).fd = fd

/-- A sequence of calls from `async_runtime_init` on writes inside of the arrays and leaves a well-formed
table exactly if each new descriptor is added while fewer than `MAX_FD_COUNT` are live. -/
theorem table_well_formed_iff_within_limit {notifyFd : Int} (hfd : 0 ≤ notifyFd)
    (calls : List TableCall) :
    (∃ t, (initialTable notifyFd).run calls = some t ∧
      t.WellFormed (calls.foldl Contexts.exec (initialContexts notifyFd))) ↔
    (initialTable notifyFd).withinLimit calls = true := by
  have hrun := (PollTable.sound_initialTable hfd).run calls
  constructor
  · rintro ⟨t, ht, -⟩
    by_contra hlimit
    rw [hrun.2 hlimit] at ht
    cases ht
  · intro hlimit
    obtain ⟨t, ht, h⟩ := hrun.1 hlimit
    exact ⟨t, ht, h.count_le, h.pollfds_length, h.mappings_length, h.entries.distinct,
      h.entries.same, h.entries.context, h.entries.listed⟩

/-- A descriptor in the middle is removed behind a change of the last one's context. -/
def swapCalls : List TableCall :=
  [.add 4 { read := true } 40, .add 5 { read := true } 50, .addEvent (some ⟨6, false⟩) 60,
    .modify 6 { read := true } 61, .modify 5 { write := true } 0, .remove 4, .add 5 {} 9]

theorem table_well_formed_swap :
    (∃ t, (initialTable 3).run swapCalls = some t ∧
      t.WellFormed (swapCalls.foldl Contexts.exec (initialContexts 3))) ∧
    ((initialTable 3).run swapCalls).map (fun t => (t.mappings.take t.count).map fun m =>
      (m.fd, m.context)) = some [(3, 0), (6, 61), (5, 50)] :=
  ⟨(table_well_formed_iff_within_limit (by decide) swapCalls).mpr (by decide +kernel),
    by decide +kernel⟩

/-! ### At the limit -/

/-- The descriptors from 4 on, one after the other. -/
def registrations (n : Nat) : List TableCall :=
  (List.range n).map fun i => .add (i + 4 : Nat) { read := true } 0

theorem PollTable.run_append (t : PollTable) (calls calls' : List TableCall) :
    t.run (calls ++ calls') = (t.run calls).bind fun t' => t'.run calls' := by
  induction calls generalizing t with
  | nil => rfl
  | cons call calls ih =>
    rw [List.cons_append, PollTable.run, PollTable.run]
    cases t.exec call with
    | none => rfl
    | some r => exact ih r.1

/-- As long as they fit, each of them takes one entry more. -/
theorem run_registrations {n : Nat} (hn : n < maxFdCount) :
    ∃ t contexts, (initialTable 3).run (registrations n) = some t ∧ t.count = n + 1 ∧
      t.Sound contexts ∧ ∀ i, n ≤ i → contexts (i + 4 : Nat) = none := by
  induction n with
  | zero =>
    refine ⟨_, _, rfl, rfl, PollTable.sound_initialTable (by decide), fun i _ => ?_⟩
    exact Function.update_of_ne (by omega) _ _
  | succ n ih =>
    obtain ⟨t, contexts, hrun, hcount, hsound, hfree⟩ := ih (by omega)
    obtain ⟨t', hadd, hcount', hsound'⟩ := hsound.add_new (by omega)
      (hfree n le_rfl) (by omega) { read := true } 0
    refine ⟨t', _, ?_, by omega, hsound', fun i hi => ?_⟩
    · rw [registrations, List.range_succ, List.map_append, PollTable.run_append]
      show ((initialTable 3).run (registrations n)).bind _ = some t'
      rw [hrun, Option.bind_some, List.map_singleton, PollTable.run, PollTable.exec, hadd]
      rfl
    · rw [Function.update_of_ne (by omega)]
      exact hfree i (by omega)

/-- With the pipe and 4095 other descriptors the table is full, and the 4096th is written behind it. -/
theorem add_at_limit_overruns :
    (∃ t, (initialTable 3).run (registrations 4095) = some t ∧ t.count = maxFdCount ∧
      t.capacity = maxFdCount) ∧
    (initialTable 3).run (registrations 4096) = none := by
  obtain ⟨t, contexts, hrun, hcount, hsound, hfree⟩ := run_registrations (n := 4095) (by decide)
  have hmax : maxFdCount = 4096 := rfl
  refine ⟨⟨t, hrun, by omega, ?_⟩, ?_⟩
  · have hle := hsound.capacity_le
    have hge := hsound.count_le
    omega
  · have hoverrun := hsound.add_overrun (by omega)
      (hfree 4095 le_rfl) (by omega) { read := true } 0
    rw [registrations, List.range_succ, List.map_append, PollTable.run_append]
    show ((initialTable 3).run (registrations 4095)).bind _ = none
    rw [hrun, Option.bind_some, List.map_singleton, PollTable.run, PollTable.exec, hoverrun]
    rfl

end Mudmux.Async
