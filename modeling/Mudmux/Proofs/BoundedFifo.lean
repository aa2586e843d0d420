import Mudmux.Async.Queue

/-!
# `Mudmux.Proofs.BoundedFifo`: the message queue is a bounded list

`Fifo` says what the queue is for: a list of at most `capacity` messages with three policies for a full
list, and counters. `Represents` reads the list off the circular buffer. Each operation keeps it
(`Represents.exec`), so a sequence of operations answers on the queue what it answers on the list
(`async_queue_refines_fifo`).

The counters of the queue are 64-bit ones and those of the list are not; they agree as long as fewer
than `2 ^ 64` operations are made.
-/

set_option autoImplicit false

namespace Mudmux.Async

open Mudmux.Lib

variable {shape : QueueShape}

/-! ### The list -/

/-- A list of messages with the numbers of messages that came, were taken, were dropped and were
cleared. -/
structure Fifo where
  messages : List Bytes := []
  enqueued : Nat := 0
  dequeued : Nat := 0
  dropped : Nat := 0
  cleared : Nat := 0
  deriving DecidableEq, Repr

/-- A message at the end of the list. -/
def Fifo.append (fifo : Fifo) (message : Bytes) : Fifo :=
  { fifo with messages := fifo.messages ++ [message], enqueued := fifo.enqueued + 1 }

/-- The list without its oldest message. -/
def Fifo.dropOne (fifo : Fifo) : Fifo :=
  { fifo with messages := fifo.messages.tail, dropped := fifo.dropped + 1 }

/-- One operation on the list. A writer that finds the list full waits under
`ASYNC_QUEUE_BLOCK_WRITER`, if that is its policy. -/
def Fifo.exec (shape : QueueShape) (fifo : Fifo) : QueueOp → Option (QueueAnswer × Fifo)
  | .enqueue none => some (.refused, fifo)
  | .enqueue (some message) =>
    if message.length = 0 || shape.maxMsgSize < message.length then some (.refused, fifo)
    else if fifo.messages.length < shape.capacity then some (.enqueued, fifo.append message)
    else if shape.flags.dropOldest then some (.enqueued, fifo.dropOne.append message)
    else if shape.flags.blockWriter then none
    else some (.refused, fifo)
  | .dequeue none => some (.refused, fifo)
  | .dequeue (some bufferSize) =>
    match fifo.messages with
    | [] => some (.refused, fifo)
    | oldest :: rest =>
      if bufferSize < oldest.length then some (.refused, fifo)
      else some (.message oldest, { fifo with messages := rest, dequeued := fifo.dequeued + 1 })
  | .clear =>
    some (.cleared,
      { fifo with messages := [], cleared := fifo.cleared + fifo.messages.length })

/-- One operation after the other. -/
def Fifo.execAll (shape : QueueShape) : List QueueOp → Fifo → Option (List QueueAnswer × Fifo)
  | [], fifo => some ([], fifo)
  | op :: ops, fifo =>
    (fifo.exec shape op).bind fun r =>
      (Fifo.execAll shape ops r.2).map fun q => (r.1 :: q.1, q.2)

/-! ### Representation -/

/-- The messages in the circular buffer, the oldest first. -/
def AsyncQueue.messages (queue : AsyncQueue shape) : List Bytes :=
  (queue.buffer.contents queue.tail queue.count).map QueueSlot.message

variable {queue : AsyncQueue shape} {fifo : Fifo}

/-- The circular buffer represents the list. -/
structure Represents (queue : AsyncQueue shape) (fifo : Fifo) : Prop where
  messages : queue.messages = fifo.messages
  head_eq : queue.head = (queue.tail + queue.count) % shape.capacity
  count_le : queue.count ≤ shape.capacity
  length_le : ∀ slot ∈ queue.buffer.contents queue.tail queue.count, slot.length ≤ shape.maxMsgSize
  enqueued : queue.enqueueCount = UInt64.ofNat fifo.enqueued
  dequeued : queue.dequeueCount = UInt64.ofNat fifo.dequeued
  dropped : queue.droppedCount = UInt64.ofNat fifo.dropped
  balance : fifo.enqueued = fifo.dequeued + fifo.dropped + fifo.messages.length + fifo.cleared

theorem AsyncQueue.length_messages (queue : AsyncQueue shape) : queue.messages.length = queue.count := by
  rw [AsyncQueue.messages, List.length_map, Ring.length_contents]

theorem Represents.count (h : Represents queue fifo) : fifo.messages.length = queue.count := by
  rw [← h.messages, AsyncQueue.length_messages]

theorem represents_create (shape : QueueShape) : Represents (asyncQueueCreate shape) {} where
  messages := rfl
  head_eq := (Nat.zero_mod _).symm
  count_le := Nat.zero_le _
  length_le := by simp [asyncQueueCreate, Ring.contents_zero]
  enqueued := rfl
  dequeued := rfl
  dropped := rfl
  balance := rfl

theorem counter_succ (n : Nat) : UInt64.ofNat n + 1 = UInt64.ofNat (n + 1) := by
  rw [UInt64.ofNat_add]
  rfl

/-! ### Operations -/

/-- A message that is copied into a slot is read back from it. -/
theorem message_store {maxMsgSize : Nat} (slot : QueueSlot maxMsgSize) {message : Bytes}
    (hsize : message.length ≤ maxMsgSize) : (slot.store message).message = message := by
  refine List.ext_getElem ?_ fun i hi hi' => ?_
  · simp [QueueSlot.message, QueueSlot.store, hsize]
  · simp [QueueSlot.message, QueueSlot.store, hi']

section

variable (h : Represents queue fifo)

include h

theorem Represents.append {message : Bytes} (hroom : queue.count < shape.capacity)
    (hsize : message.length ≤ shape.maxMsgSize) :
    Represents (queue.append message) (fifo.append message) := by
  have hcontents : (queue.append message).buffer.contents queue.tail (queue.count + 1)
      = queue.buffer.contents queue.tail queue.count
        ++ [(queue.buffer.cell queue.head).store message] := by
    show (queue.buffer.write queue.head _).contents queue.tail (queue.count + 1) = _
    rw [h.head_eq, Ring.write_mod]
    exact queue.buffer.contents_write hroom _
  refine ⟨?_, ?_, hroom, ?_, ?_, h.dequeued, h.dropped, ?_⟩
  · show ((queue.append message).buffer.contents queue.tail (queue.count + 1)).map _ = _
    rw [hcontents, List.map_append, List.map_singleton, message_store _ hsize]
    show queue.messages ++ [message] = fifo.messages ++ [message]
    rw [h.messages]
  · show (queue.head + 1) % shape.capacity = (queue.tail + (queue.count + 1)) % shape.capacity
    rw [h.head_eq, Nat.mod_add_mod, Nat.add_assoc]
  · intro slot hslot
    have hslot' : slot ∈ (queue.append message).buffer.contents queue.tail (queue.count + 1) := hslot
    rw [hcontents] at hslot'
    obtain hold | hnew := List.mem_append.mp hslot'
    · exact h.length_le slot hold
    · rw [List.mem_singleton.mp hnew]
      exact hsize
  · show queue.enqueueCount + 1 = UInt64.ofNat (fifo.enqueued + 1)
    rw [h.enqueued, counter_succ]
  · have hbalance := h.balance
    show fifo.enqueued + 1
      = fifo.dequeued + fifo.dropped + (fifo.messages ++ [message]).length + fifo.cleared
    rw [List.length_append, List.length_singleton]
    omega

/-- The oldest slot and the others, in a queue that is not empty. -/
theorem Represents.oldest (hcount : 0 < queue.count) :
    let slot := queue.buffer.cell queue.tail
    let rest := queue.buffer.contents ((queue.tail + 1) % shape.capacity) (queue.count - 1)
    fifo.messages = slot.message :: rest.map QueueSlot.message ∧
      (∀ other ∈ rest, other.length ≤ shape.maxMsgSize) ∧ slot.message.length = slot.length := by
  have hsplit : queue.buffer.contents queue.tail queue.count = queue.buffer.cell queue.tail ::
      queue.buffer.contents ((queue.tail + 1) % shape.capacity) (queue.count - 1) := by
    rw [Ring.contents_mod, ← Ring.contents_succ, Nat.sub_add_cancel hcount]
  have hlength := h.length_le
  rw [hsplit] at hlength
  refine ⟨?_, fun other hother => hlength other (List.mem_cons_of_mem _ hother), ?_⟩
  · rw [← h.messages, AsyncQueue.messages, hsplit, List.map_cons]
  · have hfits := hlength _ List.mem_cons_self
    rw [QueueSlot.message, List.length_take, Vector.length_toList]
    exact Nat.min_eq_left hfits

/-- The read position moves on by one. -/
theorem Represents.advance (hcount : 0 < queue.count) :
    queue.head = ((queue.tail + 1) % shape.capacity + (queue.count - 1)) % shape.capacity := by
  rw [h.head_eq, Nat.mod_add_mod]
  congr 1
  omega

theorem Represents.dropOne (hcount : 0 < queue.count) : Represents queue.dropOne fifo.dropOne := by
  obtain ⟨hmessages, hlength, -⟩ := h.oldest hcount
  have hle := h.count_le
  refine ⟨?_, h.advance hcount, ?_, hlength, h.enqueued, h.dequeued, ?_, ?_⟩
  · show _ = fifo.messages.tail
    rw [hmessages]
    rfl
  · show queue.count - 1 ≤ shape.capacity
    omega
  · show queue.droppedCount + 1 = UInt64.ofNat (fifo.dropped + 1)
    rw [h.dropped, counter_succ]
  · have hbalance := h.balance
    show fifo.enqueued
      = fifo.dequeued + (fifo.dropped + 1) + fifo.messages.tail.length + fifo.cleared
    rw [hmessages, List.length_cons] at hbalance
    rw [hmessages, List.tail_cons]
    omega

omit h in
/-- One message is enough: behind one round there is room. -/
theorem makeRoom_of_full (hfull : queue.count = shape.capacity) :
    AsyncQueue.makeRoom queue.count queue = queue.dropOne := by
  have hpos := shape.capacity_pos
  obtain ⟨rounds, hrounds⟩ : ∃ rounds, queue.count = rounds + 1 := ⟨queue.count - 1, by omega⟩
  rw [hrounds, AsyncQueue.makeRoom, if_pos (by omega)]
  cases rounds with
  | zero => rfl
  | succ rounds =>
    have hroom : queue.dropOne.count < shape.capacity := by
      show queue.count - 1 < shape.capacity
      omega
    rw [AsyncQueue.makeRoom, if_neg (by omega)]

/-- One operation on the queue is one on the list, with the same answer. -/
theorem Represents.exec (op : QueueOp) :
    (queue.exec op = none ∧ fifo.exec shape op = none) ∨
      ∃ answer queue' fifo', queue.exec op = some (answer, queue') ∧
        fifo.exec shape op = some (answer, fifo') ∧ Represents queue' fifo' := by
  cases op with
  | enqueue data =>
    cases data with
    | none => exact .inr ⟨_, _, _, rfl, rfl, h⟩
    | some message =>
      simp only [AsyncQueue.exec, asyncQueueEnqueue, Fifo.exec, h.count]
      split
      · exact .inr ⟨_, _, _, rfl, rfl, h⟩
      · next hsize =>
          simp only [Bool.or_eq_true, decide_eq_true_eq, not_or, Nat.not_lt] at hsize
          split
          · next hroom => exact .inr ⟨_, _, _, rfl, rfl, h.append hroom hsize.2⟩
          · next hfull =>
              have hpos := shape.capacity_pos
              have hle := h.count_le
              split
              · -- the oldest message makes room for the new one
                rw [makeRoom_of_full (by omega)]
                refine .inr ⟨_, _, _, rfl, rfl, (h.dropOne (by omega)).append ?_ hsize.2⟩
                show queue.count - 1 < shape.capacity
                omega
              · split
                · exact .inl ⟨rfl, rfl⟩
                · exact .inr ⟨_, _, _, rfl, rfl, h⟩
  | dequeue bufferSize =>
    refine .inr ?_
    cases bufferSize with
    | none => exact ⟨_, _, _, rfl, rfl, h⟩
    | some bufferSize =>
      simp only [AsyncQueue.exec, asyncQueueDequeue, Fifo.exec]
      by_cases hempty : queue.count = 0
      · have hnil : fifo.messages = [] := List.eq_nil_of_length_eq_zero (h.count.trans hempty)
        rw [if_pos hempty, hnil]
        exact ⟨_, _, _, rfl, rfl, h⟩
      · have hcount : 0 < queue.count := Nat.pos_of_ne_zero hempty
        obtain ⟨hmessages, hlength, hsize⟩ := h.oldest hcount
        rw [if_neg hempty, hmessages]
        dsimp only
        rw [hsize]
        split
        · exact ⟨_, _, _, rfl, rfl, h⟩
        · refine ⟨_, _, _, rfl, rfl, rfl, h.advance hcount, ?_, hlength, h.enqueued, ?_, h.dropped, ?_⟩
          · have hle := h.count_le
            show queue.count - 1 ≤ shape.capacity
            omega
          · show queue.dequeueCount + 1 = UInt64.ofNat (fifo.dequeued + 1)
            rw [h.dequeued, counter_succ]
          · have hbalance := h.balance
            rw [hmessages, List.length_cons] at hbalance
            simp only
            omega
  | clear =>
    refine .inr ⟨_, _, _, rfl, rfl, ?_⟩
    refine ⟨rfl, (Nat.zero_mod _).symm, Nat.zero_le _, ?_, h.enqueued, h.dequeued, h.dropped, ?_⟩
    · simp [asyncQueueClear, Ring.contents_zero]
    · have hbalance := h.balance
      simp only [List.length_nil]
      omega

end

/-- An operation that is refused changes nothing at all. -/
theorem eq_of_refused {queue queue' : AsyncQueue shape} {op : QueueOp}
    (h : queue.exec op = some (.refused, queue')) : queue' = queue := by
  cases op with
  | enqueue data =>
    simp only [AsyncQueue.exec, asyncQueueEnqueue] at h
    repeat' split at h
    all_goals cases h
    all_goals rfl
  | dequeue bufferSize =>
    simp only [AsyncQueue.exec, asyncQueueDequeue] at h
    repeat' split at h
    all_goals cases h
    all_goals rfl
  | clear => cases h

/-! ### Sequences -/

/-- An operation brings at most one message. -/
theorem Fifo.enqueued_exec {fifo fifo' : Fifo} {op : QueueOp} {answer : QueueAnswer}
    (h : fifo.exec shape op = some (answer, fifo')) : fifo'.enqueued ≤ fifo.enqueued + 1 := by
  unfold Fifo.exec at h
  repeat' split at h
  all_goals cases h
  all_goals first | exact Nat.le_refl _ | exact Nat.le_succ _

/-- A sequence of operations on the queue is one on the list. The induction is on the operations; the
bound on the messages that came is what keeps the 64-bit counters from wrapping. -/
theorem Represents.execAll (ops : List QueueOp) (h : Represents queue fifo) :
    (AsyncQueue.execAll ops queue = none ∧ Fifo.execAll shape ops fifo = none) ∨
      ∃ answers queue' fifo', AsyncQueue.execAll ops queue = some (answers, queue') ∧
        Fifo.execAll shape ops fifo = some (answers, fifo') ∧ Represents queue' fifo' ∧
        fifo'.enqueued ≤ fifo.enqueued + ops.length := by
  induction ops generalizing queue fifo with
  | nil => exact .inr ⟨[], queue, fifo, rfl, rfl, h, Nat.le_refl _⟩
  | cons op ops ih =>
    rw [AsyncQueue.execAll, Fifo.execAll]
    obtain ⟨hqueue, hfifo⟩ | ⟨answer, queue₁, fifo₁, hqueue, hfifo, h₁⟩ := h.exec op
    · rw [hqueue, hfifo]
      exact .inl ⟨rfl, rfl⟩
    · have hone := Fifo.enqueued_exec hfifo
      rw [hqueue, hfifo]
      obtain ⟨hnone, hnone'⟩ | ⟨answers, queue', fifo', hsome, hsome', h', hbound⟩ := ih h₁
      · exact .inl ⟨by simp [hnone], by simp [hnone']⟩
      · refine .inr ⟨answer :: answers, queue', fifo', by simp [hsome], by simp [hsome'], h', ?_⟩
        rw [List.length_cons]
        omega

/-- The counters of a queue that represents a list, before they wrap. -/
theorem Represents.stats (h : Represents queue fifo) (hbound : fifo.enqueued < 2 ^ 64) :
    (asyncQueueGetStats queue).enqueueCount.toNat
      = (asyncQueueGetStats queue).dequeueCount.toNat
        + (asyncQueueGetStats queue).droppedCount.toNat
        + (asyncQueueGetStats queue).currentSize + fifo.cleared := by
  have hbalance := h.balance
  have hcount := h.count
  show queue.enqueueCount.toNat = queue.dequeueCount.toNat + queue.droppedCount.toNat + queue.count
    + fifo.cleared
  have hsize : UInt64.size = 2 ^ 64 := rfl
  rw [h.enqueued, h.dequeued, h.dropped, UInt64.toNat_ofNat_of_lt' hbound,
    UInt64.toNat_ofNat_of_lt' (by omega), UInt64.toNat_ofNat_of_lt' (by omega)]
  omega

/-- A sequence of fewer than `2 ^ 64` operations on a new queue, if each of them returns, answers what it
answers on the list; the buffer then represents the list, and the counters account for every message. -/
theorem async_queue_refines_fifo (shape : QueueShape) (ops : List QueueOp)
    (hops : ops.length < 2 ^ 64) :
    (AsyncQueue.execAll ops (asyncQueueCreate shape) = none ∧ Fifo.execAll shape ops {} = none) ∨
      ∃ answers queue fifo,
        AsyncQueue.execAll ops (asyncQueueCreate shape) = some (answers, queue) ∧
        Fifo.execAll shape ops {} = some (answers, fifo) ∧
        queue.messages = fifo.messages ∧ queue.messages.length ≤ shape.capacity ∧
        queue.head = (queue.tail + queue.count) % shape.capacity ∧
        (asyncQueueGetStats queue).enqueueCount.toNat
          = (asyncQueueGetStats queue).dequeueCount.toNat
            + (asyncQueueGetStats queue).droppedCount.toNat
            + (asyncQueueGetStats queue).currentSize + fifo.cleared ∧
        ∀ op queue', queue.exec op = some (.refused, queue') → queue' = queue := by
  obtain hnone | ⟨answers, queue, fifo, hqueue, hfifo, h, hbound⟩ :=
    (represents_create shape).execAll ops
  · exact .inl hnone
  · refine .inr ⟨answers, queue, fifo, hqueue, hfifo, h.messages, ?_, h.head_eq, ?_, ?_⟩
    · rw [AsyncQueue.length_messages]
      exact h.count_le
    · refine h.stats (Nat.lt_of_le_of_lt hbound ?_)
      rwa [Nat.zero_add]
    · exact fun op queue' hrefused => eq_of_refused hrefused

/-- A queue of two messages of one byte that drops the oldest. -/
def dropTwo : QueueShape := ⟨2, 1, { dropOldest := true }, by decide, by decide⟩

/-- The third message drops the first; the buffer wraps, a buffer without room is refused. -/
theorem async_queue_refines_fifo_dropTwo :
    ∃ answers queue, ∃ fifo : Fifo,
      AsyncQueue.execAll [.enqueue (some [1]), .enqueue (some [2]), .enqueue (some [3]),
        .dequeue (some 0), .dequeue (some 1)] (asyncQueueCreate dropTwo) = some (answers, queue) ∧
      answers = [.enqueued, .enqueued, .enqueued, .refused, .message [2]] ∧
      queue.messages = fifo.messages ∧ fifo.messages = [[3]] := by
  obtain ⟨hnone, -⟩ | ⟨answers, queue, fifo, hqueue, hfifo, hmessages, -⟩ :=
    async_queue_refines_fifo dropTwo [.enqueue (some [1]), .enqueue (some [2]), .enqueue (some [3]),
      .dequeue (some 0), .dequeue (some 1)] (by decide)
  · cases hnone
  · have hlist : Fifo.execAll dropTwo [.enqueue (some [1]), .enqueue (some [2]), .enqueue (some [3]),
        .dequeue (some 0), .dequeue (some 1)] {}
        = some ([.enqueued, .enqueued, .enqueued, .refused, .message [2]],
          ⟨[[3]], 3, 1, 1, 0⟩) := by decide
    rw [hlist] at hfifo
    cases hfifo
    exact ⟨_, _, _, hqueue, rfl, hmessages, rfl⟩

end Mudmux.Async
