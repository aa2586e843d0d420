import Mudmux.Proofs.BoundedFifo

/-!
# `Mudmux.Proofs.QueueStorage`: messages stay inside of the block of their queue

`async_queue_create` adds the eight bytes of a length to `max_msg_size` before `calloc` checks anything.
`toNat_msgSlotSize` says when that sum is right. If it is, every message that is accepted is written
inside of the block; if it wraps, a slot is at most seven bytes wide, shorter than the length in front of
the message, and the message that fills the last slot is written beyond the block
(`messages_stay_inside_iff`).
-/

set_option autoImplicit false

namespace Mudmux.Async

variable {shape : QueueShape}

/-! ### Slots -/

/-- A slot has room for the length and the longest message, or the sum has wrapped to less than eight. -/
theorem toNat_msgSlotSize (maxMsgSize : UInt64) :
    ((msgSlotSize maxMsgSize).toNat = 8 + maxMsgSize.toNat ∧ maxMsgSize.toNat + 8 < 2 ^ 64) ∨
      ((msgSlotSize maxMsgSize).toNat < 8 ∧ 2 ^ 64 ≤ maxMsgSize.toNat + 8) := by
  have hlt := maxMsgSize.toNat_lt
  have hsum : (msgSlotSize maxMsgSize).toNat = (8 + maxMsgSize.toNat) % 2 ^ 64 := UInt64.toNat_add _ _
  omega

/-- What `async_queue_create` makes of its arguments. -/
theorem eq_of_asyncQueueAllocate {allocator : Allocator} {capacity maxMsgSize : UInt64}
    {flags : QueueFlags} (h : asyncQueueAllocate allocator capacity maxMsgSize flags = some shape) :
    shape.capacity = capacity.toNat ∧ shape.maxMsgSize = maxMsgSize.toNat := by
  rw [asyncQueueAllocate] at h
  split at h
  · split at h
    · cases h
      exact ⟨rfl, rfl⟩
    · cases h
  · cases h

/-! ### The write position -/

variable {queue : AsyncQueue shape}

/-- The write position of a queue that operations have led to is a slot of the buffer. -/
theorem head_lt_capacity {ops : List QueueOp} {answers : List QueueAnswer}
    (h : AsyncQueue.execAll ops (asyncQueueCreate shape) = some (answers, queue)) :
    queue.head < shape.capacity := by
  obtain ⟨hnone, -⟩ | ⟨answers', queue', fifo, hsome, -, hrep, -⟩ :=
    (represents_create shape).execAll ops
  · rw [hnone] at h
    cases h
  · rw [hsome] at h
    cases h
    rw [hrep.head_eq]
    exact Nat.mod_lt _ shape.capacity_pos

/-- A message of one byte is accepted while there is room. -/
theorem enqueue_byte (hroom : queue.count < shape.capacity) (b : UInt8) :
    asyncQueueEnqueue queue (some [b]) = some (.enqueued, queue.append [b]) := by
  have hpos := shape.maxMsgSize_pos
  have hsize : ([b].length = 0 || decide (shape.maxMsgSize < [b].length)) = false := by
    simp only [List.length_singleton, Bool.or_eq_false_iff, decide_eq_false_iff_not]
    omega
  rw [asyncQueueEnqueue, hsize, if_neg Bool.false_ne_true, if_pos hroom]

/-- Messages of one byte move the write position forward, up to the last slot. -/
theorem head_after_bytes (n : Nat) (hcount : queue.count = queue.head)
    (hlast : queue.head + n < shape.capacity) :
    ∃ answers queue', AsyncQueue.execAll (List.replicate n (.enqueue (some [0]))) queue
        = some (answers, queue') ∧ queue'.head = queue.head + n ∧ queue'.count = queue'.head := by
  induction n generalizing queue with
  | zero => exact ⟨[], queue, rfl, rfl, hcount⟩
  | succ n ih =>
    have hhead : (queue.append [0]).head = queue.head + 1 :=
      Nat.mod_eq_of_lt (Nat.lt_of_le_of_lt (by omega) hlast)
    have hcount' : (queue.append [0]).count = (queue.append [0]).head := by
      rw [hhead, ← hcount]
      rfl
    obtain ⟨answers, queue', hrun, hhead', hcount''⟩ := ih hcount' (by omega)
    refine ⟨.enqueued :: answers, queue', ?_, by omega, hcount''⟩
    rw [List.replicate_succ, AsyncQueue.execAll, AsyncQueue.exec, enqueue_byte (by omega),
      Option.bind_some, hrun, Option.map_some]

/-! ### The block -/

/-- For every queue that `async_queue_create` makes, whatever has been done to it, the write position is a
slot of the buffer; and all accepted messages are written inside of the block exactly if the size of a
slot is computed without wrapping. -/
theorem messages_stay_inside_iff {allocator : Allocator} {capacity maxMsgSize : UInt64}
    {flags : QueueFlags}
    (hcreate : asyncQueueAllocate allocator capacity maxMsgSize flags = some shape) :
    (∀ ops answers queue, AsyncQueue.execAll ops (asyncQueueCreate shape) = some (answers, queue) →
      queue.head < shape.capacity) ∧
    ((∀ ops answers queue message queue',
        AsyncQueue.execAll ops (asyncQueueCreate shape) = some (answers, queue) →
        asyncQueueEnqueue queue (some message) = some (.enqueued, queue') →
        queue.storeEnd (msgSlotSize maxMsgSize) message
          ≤ capacity.toNat * (msgSlotSize maxMsgSize).toNat) ↔
      maxMsgSize.toNat + 8 < 2 ^ 64) := by
  obtain ⟨hcapacity, hmax⟩ := eq_of_asyncQueueAllocate hcreate
  refine ⟨fun ops answers queue hrun => head_lt_capacity hrun, ?_⟩
  constructor
  · intro hinside
    -- the message for the last slot, behind one message for each slot in front of it
    have hpos := shape.capacity_pos
    have hempty : (asyncQueueCreate shape).count = (asyncQueueCreate shape).head := rfl
    have hroom : (asyncQueueCreate shape).head + (shape.capacity - 1) < shape.capacity := by
      show 0 + (shape.capacity - 1) < shape.capacity
      omega
    obtain ⟨answers, queue, hrun, hhead, hcount⟩ := head_after_bytes _ hempty hroom
    have hlast : queue.head = shape.capacity - 1 := by rw [hhead]; exact Nat.zero_add _
    have hend := hinside _ answers queue [0] _ hrun (enqueue_byte (by omega) 0)
    rw [AsyncQueue.storeEnd, hlast, ← hcapacity, List.length_singleton] at hend
    have hsplit : shape.capacity * (msgSlotSize maxMsgSize).toNat
        = (shape.capacity - 1) * (msgSlotSize maxMsgSize).toNat + (msgSlotSize maxMsgSize).toNat := by
      rw [← Nat.succ_mul, Nat.succ_eq_add_one, Nat.sub_add_cancel hpos]
    obtain ⟨-, hfits⟩ | ⟨hwrapped, -⟩ := toNat_msgSlotSize maxMsgSize
    · exact hfits
    · omega
  · intro hfits ops answers queue message queue' hrun henqueue
    have hsize : message.length ≤ maxMsgSize.toNat := by
      by_contra hlong
      rw [asyncQueueEnqueue, if_pos (by rw [hmax]; simp only [Bool.or_eq_true, decide_eq_true_eq]; omega)]
        at henqueue
      cases henqueue
    have hslot : (msgSlotSize maxMsgSize).toNat = 8 + maxMsgSize.toNat := by
      have := toNat_msgSlotSize maxMsgSize
      omega
    calc queue.storeEnd (msgSlotSize maxMsgSize) message
        = queue.head * (msgSlotSize maxMsgSize).toNat + (8 + message.length) := Nat.add_assoc _ _ _
      _ ≤ queue.head * (msgSlotSize maxMsgSize).toNat + (msgSlotSize maxMsgSize).toNat := by omega
      _ = (queue.head + 1) * (msgSlotSize maxMsgSize).toNat := (Nat.succ_mul _ _).symm
      _ ≤ capacity.toNat * (msgSlotSize maxMsgSize).toNat :=
        Nat.mul_le_mul_right _ (hcapacity ▸ head_lt_capacity hrun)

/-- An allocator that hands out every block whose size is a `size_t`. -/
def generousAllocator : Allocator where
  calloc count size := count.toNat * size.toNat < 2 ^ 64
  size_lt _ _ h := of_decide_eq_true h

/-- Three messages of up to 504 bytes. -/
theorem messages_stay_inside_three :
    ∃ shape, asyncQueueAllocate generousAllocator 3 504 {} = some shape ∧
      ∀ ops answers queue message queue',
        AsyncQueue.execAll ops (asyncQueueCreate shape) = some (answers, queue) →
        asyncQueueEnqueue queue (some message) = some (.enqueued, queue') →
        queue.storeEnd (msgSlotSize 504) message ≤ 1536 := by
  have hcreate : asyncQueueAllocate generousAllocator 3 504 {}
      = some ⟨3, 504, {}, by decide, by decide⟩ := rfl
  exact ⟨_, hcreate, (messages_stay_inside_iff hcreate).2.mpr (by decide)⟩

/-- With `max_msg_size` eight less than `2 ^ 64` a slot has no bytes. The block of such a queue is empty,
and the first message is written to it. -/
theorem wrapped_slot_is_overrun :
    ∃ shape queue', asyncQueueAllocate generousAllocator 1 18446744073709551608 {} = some shape ∧
      asyncQueueEnqueue (asyncQueueCreate shape) (some [104]) = some (.enqueued, queue') ∧
      (1 : UInt64).toNat * (msgSlotSize 18446744073709551608).toNat
        < (asyncQueueCreate shape).storeEnd (msgSlotSize 18446744073709551608) [104] :=
  ⟨_, _, rfl, enqueue_byte (by decide) 104, by decide⟩

end Mudmux.Async
