import Mudmux.Lib.Ring

/-!
# `Mudmux.Async.Queue`: the message queue between the workers and the event loop

`lib/async/async_queue.cpp`. Every operation runs under the mutex of the queue, so a sequence of
operations is the order in which they got it. A writer that waits for room has released the mutex and
takes no step; its operation comes when there is room.

The storage is `capacity` slots of one length and `max_msg_size` bytes each. A message overwrites the
length and its own bytes; the bytes behind it stay as they were. A null pointer is `none`, and the `size`
argument of `async_queue_enqueue` is the length of the data.
-/

set_option autoImplicit false

namespace Mudmux.Async

open Mudmux.Lib

abbrev Bytes := List UInt8

/-- `async_queue_flags_t`. -/
structure QueueFlags where
  dropOldest : Bool := false
  blockWriter : Bool := false
  deriving DecidableEq, Repr

/-- The arguments of `async_queue_create` for which it makes a queue. -/
structure QueueShape where
  capacity : Nat
  maxMsgSize : Nat
  flags : QueueFlags
  capacity_pos : 0 < capacity
  maxMsgSize_pos : 0 < maxMsgSize

instance (shape : QueueShape) : NeZero shape.capacity := ⟨Nat.pos_iff_ne_zero.mp shape.capacity_pos⟩

/-- `calloc`: which blocks of `count` elements of one size it hands out. A block whose size is no `size_t`
it never does; one of zero bytes it may. -/
structure Allocator where
  calloc : UInt64 → UInt64 → Bool
  size_lt : ∀ count size, calloc count size = true → count.toNat * size.toNat < 2 ^ 64

/-- `queue->msg_slot_size`: `sizeof(size_t) + max_msg_size`, in the arithmetic of `size_t`. -/
def msgSlotSize (maxMsgSize : UInt64) : UInt64 := 8 + maxMsgSize

/-- The checks of `async_queue_create`; `none` is its null pointer. -/
def asyncQueueAllocate (allocator : Allocator) (capacity maxMsgSize : UInt64) (flags : QueueFlags) :
    Option QueueShape :=
  if h : 0 < capacity.toNat ∧ 0 < maxMsgSize.toNat then
    if allocator.calloc capacity (msgSlotSize maxMsgSize) then
      some ⟨capacity.toNat, maxMsgSize.toNat, flags, h.1, h.2⟩
    else none
  else none

/-- A slot of the buffer: the length of its message, and the bytes. -/
structure QueueSlot (maxMsgSize : Nat) where
  length : Nat
  data : Vector UInt8 maxMsgSize

/-- The message of a slot. -/
def QueueSlot.message {maxMsgSize : Nat} (slot : QueueSlot maxMsgSize) : Bytes :=
  slot.data.toList.take slot.length

/-- The slot with a message copied into it. -/
def QueueSlot.store {maxMsgSize : Nat} (slot : QueueSlot maxMsgSize) (message : Bytes) :
    QueueSlot maxMsgSize where
  length := message.length
  data := Vector.ofFn fun i => message.getD i.val (slot.data.get i)

/-- `async_queue_s`. -/
structure AsyncQueue (shape : QueueShape) where
  buffer : Ring (QueueSlot shape.maxMsgSize) shape.capacity
  head : Nat
  tail : Nat
  count : Nat
  enqueueCount : UInt64
  dequeueCount : UInt64
  droppedCount : UInt64

/-- `async_queue_create`; the buffer is zeroed. -/
def asyncQueueCreate (shape : QueueShape) : AsyncQueue shape where
  buffer := fun _ => ⟨0, Vector.replicate shape.maxMsgSize 0⟩
  head := 0
  tail := 0
  count := 0
  enqueueCount := 0
  dequeueCount := 0
  droppedCount := 0

/-- What an operation answers. -/
inductive QueueAnswer where
  /-- `false`. -/
  | refused
  | enqueued
  /-- The bytes that were copied to the caller; their number is `out_size`. -/
  | message (bytes : Bytes)
  | cleared
  deriving DecidableEq, Repr

variable {shape : QueueShape}

/-- The oldest message is dropped. -/
def AsyncQueue.dropOne (queue : AsyncQueue shape) : AsyncQueue shape :=
  { queue with
      tail := (queue.tail + 1) % shape.capacity
      count := queue.count - 1
      droppedCount := queue.droppedCount + 1 }

/-- The loop that makes room under `ASYNC_QUEUE_DROP_OLDEST`. Every round makes the count smaller. -/
def AsyncQueue.makeRoom : Nat → AsyncQueue shape → AsyncQueue shape
  | 0, queue => queue
  | rounds + 1, queue =>
    if shape.capacity ≤ queue.count then AsyncQueue.makeRoom rounds queue.dropOne else queue

/-- The message is written behind the others. -/
def AsyncQueue.append (queue : AsyncQueue shape) (message : Bytes) : AsyncQueue shape :=
  { queue with
      buffer := queue.buffer.write queue.head ((queue.buffer.cell queue.head).store message)
      head := (queue.head + 1) % shape.capacity
      count := queue.count + 1
      enqueueCount := queue.enqueueCount + 1 }

/-- `async_queue_enqueue`; `none` is a writer that waits. -/
def asyncQueueEnqueue (queue : AsyncQueue shape) (data : Option Bytes) :
    Option (QueueAnswer × AsyncQueue shape) :=
  match data with
  | none => some (.refused, queue)
  | some message =>
    if message.length = 0 || shape.maxMsgSize < message.length then some (.refused, queue)
    else if queue.count < shape.capacity then some (.enqueued, queue.append message)
    else if shape.flags.dropOldest then
      some (.enqueued, (AsyncQueue.makeRoom queue.count queue).append message)
    else if shape.flags.blockWriter then none
    else some (.refused, queue)

/-- The offset in the block behind the last byte that storing a message at `head` writes, in unbounded
integers: the message stands behind its length in the slot that `get_slot` finds. -/
def AsyncQueue.storeEnd (queue : AsyncQueue shape) (slotSize : UInt64) (message : Bytes) : Nat :=
  queue.head * slotSize.toNat + 8 + message.length

/-- `async_queue_dequeue` into a buffer of the given size. -/
def asyncQueueDequeue (queue : AsyncQueue shape) (bufferSize : Option Nat) :
    QueueAnswer × AsyncQueue shape :=
  match bufferSize with
  | none => (.refused, queue)
  | some bufferSize =>
    if queue.count = 0 then (.refused, queue)
    else
      let slot := queue.buffer.cell queue.tail
      if bufferSize < slot.length then (.refused, queue)
      else
        (.message slot.message,
          { queue with
              tail := (queue.tail + 1) % shape.capacity
              count := queue.count - 1
              dequeueCount := queue.dequeueCount + 1 })

/-- `async_queue_clear`. -/
def asyncQueueClear (queue : AsyncQueue shape) : AsyncQueue shape :=
  { queue with head := 0, tail := 0, count := 0 }

/-- `async_queue_stats_t`. -/
structure QueueStats where
  capacity : Nat
  currentSize : Nat
  maxMsgSize : Nat
  enqueueCount : UInt64
  dequeueCount : UInt64
  droppedCount : UInt64
  deriving DecidableEq, Repr

/-- `async_queue_get_stats`. -/
def asyncQueueGetStats (queue : AsyncQueue shape) : QueueStats where
  capacity := shape.capacity
  currentSize := queue.count
  maxMsgSize := shape.maxMsgSize
  enqueueCount := queue.enqueueCount
  dequeueCount := queue.dequeueCount
  droppedCount := queue.droppedCount

/-! ### Sequences of operations -/

/-- The operations that change a queue. -/
inductive QueueOp where
  | enqueue (data : Option Bytes)
  | dequeue (bufferSize : Option Nat)
  | clear
  deriving DecidableEq, Repr

/-- One operation. -/
def AsyncQueue.exec (queue : AsyncQueue shape) : QueueOp → Option (QueueAnswer × AsyncQueue shape)
  | .enqueue data => asyncQueueEnqueue queue data
  | .dequeue bufferSize => some (asyncQueueDequeue queue bufferSize)
  | .clear => some (.cleared, asyncQueueClear queue)

/-- One operation after the other, with what they answer; `none` if one of them does not return. -/
def AsyncQueue.execAll : List QueueOp → AsyncQueue shape → Option (List QueueAnswer × AsyncQueue shape)
  | [], queue => some ([], queue)
  | op :: ops, queue =>
    (queue.exec op).bind fun r => (AsyncQueue.execAll ops r.2).map fun q => (r.1 :: q.1, q.2)

end Mudmux.Async
