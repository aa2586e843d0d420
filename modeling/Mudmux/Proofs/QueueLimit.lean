import Mudmux.Proofs.Outbound

/-!
# `Mudmux.Proofs.QueueLimit`: what a write at the limit of the queue leaves

`comm_buffered_write_raw_comm` and `append_websocket_upgrade_barrier` fill a chain of at most
`MAX_OUTBOUND_BUFFERS_PER_SLOT` buffers. The limit is tested while the tail is looked up and again whenever a
further buffer is due, and the second test comes when part of the data has been copied. So a chain
that is not full takes the first bytes of any write (`chainData_filledChain`), and a chain with all its
buffers takes nothing, also where its tail has room.

`outboundRoom` is the capacity that the limit suggests. A write is all-or-nothing with respect to it
exactly when one of the two tests does not get in the way (`writes_are_all_or_nothing_iff`).
-/

set_option autoImplicit false

namespace Mudmux.Comm

open Mudmux.Lib (LinearBuffer)

/-- A write of `buf` into a queue with room for `room` bytes appends all of it, or leaves the queued
bytes as they were. -/
def AllOrNothing (room : Nat) (buf before after : Bytes) : Prop :=
  if buf.length ≤ room then after = before ++ buf else after = before

variable {room : Nat} {buf before : Bytes}

/-- A queue that takes what fits is all-or-nothing for the writes that fit. -/
theorem allOrNothing_take_iff (hroom : 0 < room) :
    AllOrNothing room buf before (before ++ buf.take room) ↔ buf.length ≤ room := by
  unfold AllOrNothing
  split
  · rename_i hfit
    simp [List.take_of_length_le hfit, hfit]
  · rename_i hfit
    -- the bytes that were copied before the limit was met stay in the queue
    have hcopied : buf.take room ≠ [] := by
      rw [← List.length_pos_iff, List.length_take]
      omega
    simp [hcopied, hfit]

/-- A queue that takes nothing is all-or-nothing for the writes that do not fit. -/
theorem allOrNothing_self_iff (hbuf : buf ≠ []) :
    AllOrNothing room buf before before ↔ ¬ buf.length ≤ room := by
  unfold AllOrNothing
  split
  · rename_i hfit
    simp [hbuf, hfit]
  · rename_i hfit
    simp [hfit]

/-! ### The two queues -/

/-- The chain that both functions fill, from the tail of what is there. -/
def filledChain (chain : List OutboundBuffer) (buf : Bytes) : List OutboundBuffer :=
  let chain := if chain.isEmpty then [.empty] else chain
  onTail (fun obb => fillOutbound (maxOutboundBuffers - chain.length) obb buf) chain

variable (chain : List OutboundBuffer)

/-- A chain that is not full takes the first bytes of a write, as many as it has room for. -/
theorem chainData_filledChain (buf : Bytes) :
    chainData (filledChain chain buf) = chainData chain ++ buf.take (outboundRoom chain) := by
  obtain ⟨chain', tail, hif, hlast, hdata, hroom, -, -⟩ := exists_outbound_tail chain
  rw [filledChain, hif, ← hdata, hroom, Nat.add_comm]
  exact chainData_onTail _ _ chain' tail hlast (chainData_fillOutbound_take _ tail buf)

/-- A chain that is not full has room for at least one buffer. -/
theorem bufferSize_le_outboundRoom {chain : List OutboundBuffer}
    (h : chain.length < maxOutboundBuffers) : bufferSize ≤ outboundRoom chain :=
  Nat.le_of_not_lt fun hroom => Nat.not_lt.mpr (maxOutboundBuffers_le_of_outboundRoom_lt hroom) h

theorem outboundRoom_le : outboundRoom chain ≤ bufferSize * maxOutboundBuffers := by
  obtain ⟨chain', tail, -, -, -, hroom, hpos, -⟩ := exists_outbound_tail chain
  have htail : tail.room ≤ bufferSize := Nat.sub_le _ _
  simp only [bufferSize, maxOutboundBuffers] at hroom htail ⊢
  omega

/-- Whether the length of a chain, and of the one buffer that stands for an empty chain, is at the
limit. -/
theorem chain_full_iff :
    (if chain.isEmpty then [.empty] else chain).length ≥ maxOutboundBuffers
      ↔ maxOutboundBuffers ≤ chain.length := by
  cases chain <;> simp [maxOutboundBuffers]

variable {comm : CommAbstract}

/-- `comm_buffered_write_raw_comm` on a chain below the limit. -/
theorem commBufferedWriteRaw_filledChain (hwbio : comm.wbio = true) (hbuf : buf ≠ [])
    (hmax : buf.length ≤ bufferSize * maxOutboundBuffers)
    (hchain : comm.outbound.length < maxOutboundBuffers) :
    (commBufferedWriteRaw comm buf).outbound = filledChain comm.outbound buf := by
  have hfull := mt (chain_full_iff comm.outbound).mp (Nat.not_le.mpr hchain)
  simp only [commBufferedWriteRaw, hwbio, List.isEmpty_eq_false_iff.mpr hbuf, Bool.not_true,
    Bool.or_self, Bool.false_eq_true, if_false, if_neg (Nat.not_lt.mpr hmax), if_neg hfull]
  rfl

/-- `append_websocket_upgrade_barrier` on a chain below the limit. -/
theorem appendWebsocketUpgradeBarrier_filledChain (hbuf : buf ≠ [])
    (hchain : comm.websocketUpgradeBarrier.length < maxOutboundBuffers) :
    (appendWebsocketUpgradeBarrier comm buf).websocketUpgradeBarrier
      = filledChain comm.websocketUpgradeBarrier buf := by
  have hfull := mt (chain_full_iff comm.websocketUpgradeBarrier).mp (Nat.not_le.mpr hchain)
  simp only [appendWebsocketUpgradeBarrier, List.isEmpty_eq_false_iff.mpr hbuf, Bool.false_eq_true,
    if_false, if_neg hfull]
  rfl

/-- A raw write longer than all buffers together, or into a chain with all its buffers, is
refused. -/
theorem commBufferedWriteRaw_refused
    (h : bufferSize * maxOutboundBuffers < buf.length ∨ maxOutboundBuffers ≤ comm.outbound.length) :
    commBufferedWriteRaw comm buf = comm := by
  simp only [commBufferedWriteRaw]
  split
  · rfl
  · split
    · rfl
    · rename_i hlen
      rw [if_pos ((chain_full_iff _).mpr (h.resolve_left hlen))]

/-- A barrier with all its buffers takes nothing. -/
theorem chainData_barrier_refused (h : maxOutboundBuffers ≤ comm.websocketUpgradeBarrier.length) :
    chainData (appendWebsocketUpgradeBarrier comm buf).websocketUpgradeBarrier
      = chainData comm.websocketUpgradeBarrier := by
  simp only [appendWebsocketUpgradeBarrier]
  split
  · rfl
  · rw [if_pos ((chain_full_iff _).mpr h)]
    cases comm.websocketUpgradeBarrier <;> rfl

/-- A write of at least one byte is all-or-nothing, with the capacity that `MAX_OUTBOUND_BUFFERS_PER_SLOT`
buffers suggest, exactly if it fits where the chain may still grow and does not fit where the chain
has all its buffers. A raw write longer than all buffers together is refused in any case; on the
upgrade barrier there is no such test. -/
theorem writes_are_all_or_nothing_iff (comm : CommAbstract) (buf : Bytes) (hwbio : comm.wbio = true)
    (hbuf : buf ≠ []) :
    (AllOrNothing (outboundRoom comm.outbound) buf (chainData comm.outbound)
        (chainData (commBufferedWriteRaw comm buf).outbound) ↔
      bufferSize * maxOutboundBuffers < buf.length ∨
        (comm.outbound.length < maxOutboundBuffers ↔ buf.length ≤ outboundRoom comm.outbound)) ∧
    (AllOrNothing (outboundRoom comm.websocketUpgradeBarrier) buf
        (chainData comm.websocketUpgradeBarrier)
        (chainData (appendWebsocketUpgradeBarrier comm buf).websocketUpgradeBarrier) ↔
      (comm.websocketUpgradeBarrier.length < maxOutboundBuffers ↔
        buf.length ≤ outboundRoom comm.websocketUpgradeBarrier)) := by
  constructor
  · have hroom := outboundRoom_le comm.outbound
    rcases Nat.lt_or_ge (bufferSize * maxOutboundBuffers) buf.length with hlong | hmax
    · rw [commBufferedWriteRaw_refused (.inl hlong), allOrNothing_self_iff hbuf]
      simp only [hlong, true_or, iff_true]
      omega
    · rcases Nat.lt_or_ge comm.outbound.length maxOutboundBuffers with hchain | hfull
      · rw [commBufferedWriteRaw_filledChain hwbio hbuf hmax hchain, chainData_filledChain,
          allOrNothing_take_iff (Nat.lt_of_lt_of_le (by decide) (bufferSize_le_outboundRoom hchain))]
        simp [hchain, Nat.not_lt.mpr hmax]
      · rw [commBufferedWriteRaw_refused (.inr hfull), allOrNothing_self_iff hbuf]
        simp [Nat.not_lt.mpr hfull, Nat.not_lt.mpr hmax]
  · rcases Nat.lt_or_ge comm.websocketUpgradeBarrier.length maxOutboundBuffers with hchain | hfull
    · rw [appendWebsocketUpgradeBarrier_filledChain hbuf hchain, chainData_filledChain,
        allOrNothing_take_iff (Nat.lt_of_lt_of_le (by decide) (bufferSize_le_outboundRoom hchain))]
      simp [hchain]
    · rw [chainData_barrier_refused hfull, allOrNothing_self_iff hbuf]
      simp [Nat.not_lt.mpr hfull]

theorem writes_are_all_or_nothing_iff_oneByte :
    AllOrNothing (outboundRoom []) [65] [] (chainData (commBufferedWriteRaw { wbio := true } [65]).outbound) :=
  (writes_are_all_or_nothing_iff { wbio := true } [65] rfl (by decide)).1.mpr (.inr (by decide))

/-- A queue with one byte in its only buffer. -/
def oneByteQueued : CommAbstract where
  rbio := true
  wbio := true
  outbound := [LinearBuffer.empty.append [65] (by decide)]

/-- The queue has room for 65535 bytes. Of a write of 65536 bytes, which the first test lets pass, all
but the last byte are queued. -/
theorem write_is_cut_at_limit :
    outboundRoom oneByteQueued.outbound = 65535 ∧
      chainData (commBufferedWriteRaw oneByteQueued (List.replicate 65536 66)).outbound
        = 65 :: List.replicate 65535 66 ∧
      ¬ AllOrNothing (outboundRoom oneByteQueued.outbound) (List.replicate 65536 66)
        (chainData oneByteQueued.outbound)
        (chainData (commBufferedWriteRaw oneByteQueued (List.replicate 65536 66)).outbound) := by
  have hroom : outboundRoom oneByteQueued.outbound = 65535 := rfl
  have hlen : (List.replicate 65536 (66 : Byte)).length = 65536 := List.length_replicate
  have hqueued : chainData (commBufferedWriteRaw oneByteQueued (List.replicate 65536 66)).outbound
      = chainData oneByteQueued.outbound ++ (List.replicate 65536 66).take 65535 := by
    rw [commBufferedWriteRaw_filledChain rfl (List.length_pos_iff.mp (by rw [hlen]; decide))
      (by rw [hlen]; decide) (by decide), chainData_filledChain, hroom]
  refine ⟨hroom, ?_, ?_⟩
  · rw [hqueued, List.take_replicate]
    rfl
  · rw [hqueued, hroom, allOrNothing_take_iff (by decide), hlen]
    decide

end Mudmux.Comm
