import Mudmux.Comm.Semantics

/-!
# `Mudmux.Proofs.Outbound`: what the queue operations do

Two kinds of facts about the functions of `Mudmux.Comm.Outbound`. `QueueStep` is what all of them
leave alone: who the connection is and where its life stands. The other facts are about the queued
bytes: a write that fits is appended, and a flush moves bytes to the transport in order.
-/

set_option autoImplicit false

namespace Mudmux.Comm

open Mudmux.Lib (LinearBuffer)

/-! ### What the queue operations leave alone -/

/-- A WebSocket state from which no new Close frame is sent. -/
def WebSocketState.closed (s : WebSocketState) : Bool := s = .closeSent || s = .closeReceived

/-- What every operation on the outbound queue keeps. The WebSocket state moves only when a Close
frame is queued. -/
structure QueueStep (c c' : CommAbstract) : Prop where
  rbio : c'.rbio = c.rbio
  wbio : c'.wbio = c.wbio
  generation : c'.generation = c.generation
  closing : c'.flags.closing = c.flags.closing
  disconnectPending : c'.flags.disconnectPending = c.flags.disconnectPending
  enablePrompt : c'.flags.enablePrompt = c.flags.enablePrompt
  enableWebsocket : c'.flags.enableWebsocket = c.flags.enableWebsocket
  websocketState : c'.flags.websocketState = c.flags.websocketState ∨
    c'.flags.websocketState = .closeSent ∧ c.flags.websocketState.closed = false

theorem QueueStep.refl (c : CommAbstract) : QueueStep c c :=
  ⟨rfl, rfl, rfl, rfl, rfl, rfl, rfl, .inl rfl⟩

variable {c : CommAbstract}

theorem QueueStep.live {c' : CommAbstract} (h : QueueStep c c') : c'.live = c.live := by
  simp [CommAbstract.live, h.rbio, h.wbio]

theorem QueueStep.closed {c' : CommAbstract} (h : QueueStep c c')
    (hc : c.flags.websocketState.closed = true) : c'.flags.websocketState.closed = true := by
  rcases h.websocketState with hs | hs
  · rwa [hs]
  · rw [hc] at hs
    cases hs.2

/-- A function that keeps the slot on every record in use keeps it behind the guard. -/
theorem QueueStep.ifLive {f : CommAbstract → CommAbstract} (hf : ∀ c, QueueStep c (f c))
    (c : CommAbstract) : QueueStep c (ifLive c f) := by
  unfold Comm.ifLive
  split
  · exact hf c
  · exact QueueStep.refl c

/-- A raw write changes the queue and the flag that announces it. -/
theorem commBufferedWriteRaw_eq (c : CommAbstract) (buf : Bytes) :
    ∃ outbound bufferedWrite, commBufferedWriteRaw c buf
      = { c with outbound, flags := { c.flags with bufferedWrite } } := by
  simp only [commBufferedWriteRaw]
  generalize (if c.outbound.isEmpty then [.empty] else c.outbound) = chain
  split
  · exact ⟨c.outbound, c.flags.bufferedWrite, rfl⟩
  · split
    · exact ⟨c.outbound, c.flags.bufferedWrite, rfl⟩
    · split
      · exact ⟨c.outbound, c.flags.bufferedWrite, rfl⟩
      · exact ⟨_, true, rfl⟩

theorem commBufferedWriteRaw_queueStep (buf : Bytes) (c : CommAbstract) :
    QueueStep c (commBufferedWriteRaw c buf) := by
  obtain ⟨outbound, bufferedWrite, h⟩ := commBufferedWriteRaw_eq c buf
  rw [h]
  exact ⟨rfl, rfl, rfl, rfl, rfl, rfl, rfl, .inl rfl⟩

theorem appendWebsocketUpgradeBarrier_eq (c : CommAbstract) (data : Bytes) :
    ∃ websocketUpgradeBarrier,
      appendWebsocketUpgradeBarrier c data = { c with websocketUpgradeBarrier } := by
  simp only [appendWebsocketUpgradeBarrier]
  generalize (if c.websocketUpgradeBarrier.isEmpty then [.empty] else c.websocketUpgradeBarrier)
    = chain
  split
  · exact ⟨c.websocketUpgradeBarrier, rfl⟩
  · split
    · exact ⟨_, rfl⟩
    · exact ⟨_, rfl⟩

theorem appendWebsocketUpgradeBarrier_queueStep (data : Bytes) (c : CommAbstract) :
    QueueStep c (appendWebsocketUpgradeBarrier c data) := by
  obtain ⟨barrier, h⟩ := appendWebsocketUpgradeBarrier_eq c data
  rw [h]
  exact ⟨rfl, rfl, rfl, rfl, rfl, rfl, rfl, .inl rfl⟩

theorem commBufferedWriteImpl_queueStep (normalize : Bool) (buf : Bytes) (c : CommAbstract) :
    QueueStep c (commBufferedWriteImpl normalize c buf) := by
  simp only [commBufferedWriteImpl]
  generalize (if normalize && c.flags.enableTelnet then normalizeTelnetNewlines buf else buf) = out
  split
  · exact QueueStep.refl c
  · split
    · exact QueueStep.refl c
    · split
      · split
        · exact QueueStep.refl c
        · exact appendWebsocketUpgradeBarrier_queueStep _ c
      · split
        · split
          · exact QueueStep.refl c
          · exact commBufferedWriteRaw_queueStep _ c
        · exact commBufferedWriteRaw_queueStep _ c

theorem writeControlFrame_queueStep (opcode : Byte) (payload : Bytes) (c : CommAbstract) :
    QueueStep c (writeControlFrame c opcode payload) := by
  unfold writeControlFrame
  split
  · exact QueueStep.refl c
  · exact commBufferedWriteRaw_queueStep _ c

variable (payload : Bytes)

/-- On a WebSocket that already exchanges Close frames nothing happens. -/
theorem commWebsocketQueueClose_of_closed (h : c.flags.websocketState.closed = true) :
    commWebsocketQueueClose c payload = c := by
  unfold commWebsocketQueueClose
  cases hs : c.flags.websocketState <;> simp_all [WebSocketState.closed]

theorem commWebsocketQueueClose_of_open (h : c.flags.websocketState.closed = false) :
    commWebsocketQueueClose c payload
      = (writeControlFrame c opClose payload).mapFlags fun flags =>
          { flags with websocketState := .closeSent } := by
  unfold commWebsocketQueueClose
  cases hs : c.flags.websocketState <;> simp_all [WebSocketState.closed]

theorem commWebsocketQueueClose_queueStep (c : CommAbstract) :
    QueueStep c (commWebsocketQueueClose c payload) := by
  cases hclosed : c.flags.websocketState.closed with
  | true =>
    rw [commWebsocketQueueClose_of_closed payload hclosed]
    exact QueueStep.refl c
  | false =>
    rw [commWebsocketQueueClose_of_open payload hclosed]
    have h := writeControlFrame_queueStep opClose payload c
    exact ⟨h.rbio, h.wbio, h.generation, h.closing, h.disconnectPending, h.enablePrompt,
      h.enableWebsocket, .inr ⟨rfl, hclosed⟩⟩

theorem releaseUpgradeBarrier_queueStep (c : CommAbstract) :
    QueueStep c (releaseUpgradeBarrier c) :=
  ⟨rfl, rfl, rfl, rfl, rfl, rfl, rfl, .inl rfl⟩

theorem commFreeOutboundBuffers_queueStep (c : CommAbstract) :
    QueueStep c (commFreeOutboundBuffers c) :=
  ⟨rfl, rfl, rfl, rfl, rfl, rfl, rfl, .inl rfl⟩

variable (answers : List WriteAnswer)

theorem flushOutbound_queueStep (c : CommAbstract) : QueueStep c (flushOutbound c answers).1 := by
  simp only [flushOutbound]
  split
  · dsimp only
    split <;> exact ⟨rfl, rfl, rfl, rfl, rfl, rfl, rfl, .inl rfl⟩
  · exact ⟨rfl, rfl, rfl, rfl, rfl, rfl, rfl, .inl rfl⟩

/-! ### Queued bytes -/

/-- The bytes of a chain, in order. -/
def chainData (chain : List OutboundBuffer) : Bytes := chain.flatMap fun b => b.data

@[simp] theorem chainData_nil : chainData [] = [] := rfl

@[simp] theorem chainData_cons (obb : OutboundBuffer) (chain : List OutboundBuffer) :
    chainData (obb :: chain) = obb.data ++ chainData chain := by
  simp [chainData]

/-- A write fills the tail and the buffers it may allocate behind it, and loses what does not fit. -/
theorem chainData_fillOutbound_take (left : Nat) (obb : OutboundBuffer) (buf : Bytes) :
    chainData (fillOutbound left obb buf) = obb.data ++ buf.take (obb.room + left * bufferSize) := by
  induction left generalizing obb buf with
  | zero =>
    rw [fillOutbound]
    split
    · rename_i hfit
      simp [List.take_of_length_le hfit]
    · simp
  | succ left ih =>
    rw [fillOutbound]
    split
    · rename_i hfit
      simp [List.take_of_length_le (Nat.le_add_right_of_le hfit)]
    · have hroom : (LinearBuffer.empty : OutboundBuffer).room + left * bufferSize
          = (left + 1) * bufferSize := by
        rw [LinearBuffer.empty_room, Nat.succ_mul, Nat.add_comm]
      rw [chainData_cons, ih, hroom, LinearBuffer.append_data, LinearBuffer.empty_data,
        List.nil_append, List.append_assoc, ← List.take_add]

/-- A write fills the tail and new buffers behind it without losing a byte, if it may allocate
enough of them. -/
theorem chainData_fillOutbound (left : Nat) (obb : OutboundBuffer) (buf : Bytes)
    (h : buf.length ≤ obb.room + left * bufferSize) :
    chainData (fillOutbound left obb buf) = obb.data ++ buf := by
  rw [chainData_fillOutbound_take, List.take_of_length_le h]

theorem chainData_onTail (f : OutboundBuffer → List OutboundBuffer) (buf : Bytes) :
    ∀ (chain : List OutboundBuffer) (tail : OutboundBuffer), chain.getLast? = some tail →
      chainData (f tail) = tail.data ++ buf → chainData (onTail f chain) = chainData chain ++ buf
  | [], _, h, _ => by simp at h
  | [obb], tail, h, hf => by
      cases h
      simpa [onTail] using hf
  | obb :: next :: rest, tail, h, hf => by
      have hlast : (next :: rest).getLast? = some tail := by simpa using h
      simp only [onTail, chainData_cons, List.append_assoc]
      rw [chainData_onTail f buf (next :: rest) tail hlast hf, chainData_cons, List.append_assoc]

/-- The bytes a chain can still take within `MAX_OUTBOUND_BUFFERS_PER_SLOT`: the room of its tail
and the buffers that may be allocated. -/
def outboundRoom (chain : List OutboundBuffer) : Nat :=
  match chain.getLast? with
  | none => maxOutboundBuffers * bufferSize
  | some tail => (maxOutboundBuffers - chain.length) * bufferSize + tail.room

/-- The write finds a write BIO and stays within the buffer limit. -/
def withinOutboundLimit (c : CommAbstract) (buf : Bytes) : Bool :=
  c.wbio && buf.length ≤ outboundRoom c.outbound

variable (chain : List OutboundBuffer)

/-- An empty chain is as good as one with an empty buffer, which is what a write makes of it. -/
theorem exists_outbound_tail :
    ∃ chain' tail, (if chain.isEmpty then [.empty] else chain) = chain' ∧
      chain'.getLast? = some tail ∧ chainData chain' = chainData chain ∧
      outboundRoom chain = (maxOutboundBuffers - chain'.length) * bufferSize + tail.room ∧
      0 < chain'.length ∧ chain'.length ≤ max 1 chain.length := by
  cases chain with
  | nil => exact ⟨[.empty], .empty, rfl, rfl, rfl, rfl, by decide, by decide⟩
  | cons obb rest =>
    have hlast : (obb :: rest).getLast? = some ((obb :: rest).getLast (by simp)) :=
      List.getLast?_eq_getLast_of_ne_nil (by simp)
    refine ⟨obb :: rest, _, rfl, hlast, rfl, ?_, by simp, by simp⟩
    simp only [outboundRoom, hlast]

variable {buf : Bytes}

/-- A write within the limit that does not find a full chain fills the tail and new buffers behind
it. -/
theorem exists_commBufferedWriteRaw_chain (hfit : withinOutboundLimit c buf = true)
    (hchain : c.outbound.length < maxOutboundBuffers) (hne : buf.isEmpty = false) :
    ∃ chain tail, chain.getLast? = some tail ∧ chainData chain = chainData c.outbound ∧
      outboundRoom c.outbound = (maxOutboundBuffers - chain.length) * bufferSize + tail.room ∧
      0 < chain.length ∧ chain.length < maxOutboundBuffers ∧
      buf.length ≤ tail.room + (maxOutboundBuffers - chain.length) * bufferSize ∧
      (commBufferedWriteRaw c buf).outbound
        = onTail (fun obb => fillOutbound (maxOutboundBuffers - chain.length) obb buf) chain := by
  simp only [withinOutboundLimit, Bool.and_eq_true, decide_eq_true_eq] at hfit
  obtain ⟨chain, tail, hif, hlast, hdata, hspace, hpos, hlen⟩ := exists_outbound_tail c.outbound
  have hroom := hfit.2
  rw [hspace] at hroom
  have hfull : chain.length < maxOutboundBuffers := by
    simp only [maxOutboundBuffers] at hchain ⊢
    omega
  have htail : tail.room ≤ bufferSize := Nat.sub_le _ _
  have hmax : ¬ buf.length > bufferSize * maxOutboundBuffers := by
    simp only [bufferSize, maxOutboundBuffers] at hroom htail ⊢
    omega
  refine ⟨chain, tail, hlast, hdata, hspace, hpos, hfull, by omega, ?_⟩
  simp only [commBufferedWriteRaw, hfit.1, hne, hif, Bool.not_true, Bool.or_self,
    Bool.false_eq_true, if_false, if_neg hmax, if_neg (Nat.not_le.mpr hfull)]

/-- A write within the limit that does not find a full chain is queued behind what is there. -/
theorem chainData_commBufferedWriteRaw (hfit : withinOutboundLimit c buf = true)
    (hchain : c.outbound.length < maxOutboundBuffers) :
    chainData (commBufferedWriteRaw c buf).outbound = chainData c.outbound ++ buf := by
  cases hbuf : buf.isEmpty with
  | true =>
    rw [List.isEmpty_iff.mp hbuf, commBufferedWriteRaw, if_pos (by simp)]
    exact (List.append_nil _).symm
  | false =>
    obtain ⟨chain, tail, hlast, hdata, -, -, -, hlen, hwrite⟩ :=
      exists_commBufferedWriteRaw_chain hfit hchain hbuf
    rw [hwrite, ← hdata]
    exact chainData_onTail _ buf chain tail hlast (chainData_fillOutbound _ _ _ hlen)

/-- A chain with less room than a buffer has all its buffers. -/
theorem maxOutboundBuffers_le_of_outboundRoom_lt {chain : List OutboundBuffer}
    (h : outboundRoom chain < bufferSize) : maxOutboundBuffers ≤ chain.length := by
  unfold outboundRoom at h
  split at h
  · simp [maxOutboundBuffers, bufferSize] at h
  · by_contra hlt
    have hmul : bufferSize ≤ (maxOutboundBuffers - chain.length) * bufferSize :=
      Nat.le_mul_of_pos_left bufferSize (by omega)
    omega

/-- The room that a write leaves behind its last buffer. -/
theorem exists_fillOutbound_tail (left : Nat) (obb : OutboundBuffer) (buf : Bytes)
    (h : buf.length ≤ obb.room + left * bufferSize) :
    ∃ tail, (fillOutbound left obb buf).getLast? = some tail ∧
      (fillOutbound left obb buf).length ≤ left + 1 ∧
      (left + 1 - (fillOutbound left obb buf).length) * bufferSize + tail.room + buf.length
        = obb.room + left * bufferSize := by
  induction left generalizing obb buf with
  | zero =>
    have hfit : buf.length ≤ obb.room := by simpa using h
    rw [fillOutbound, dif_pos hfit]
    have hroom := LinearBuffer.append_room obb buf hfit
    exact ⟨obb.append buf hfit, rfl, Nat.le_refl 1, by simpa using hroom⟩
  | succ left ih =>
    rw [fillOutbound]
    split
    · rename_i hfit
      have hroom := LinearBuffer.append_room obb buf hfit
      refine ⟨obb.append buf hfit, rfl, by simp, ?_⟩
      simp only [List.length_singleton, Nat.add_sub_cancel]
      omega
    · have hlen : (buf.drop obb.room).length = buf.length - obb.room := List.length_drop
      obtain ⟨tail, hlast, hle, hroom⟩ := ih .empty (buf.drop obb.room) (by
        rw [hlen, LinearBuffer.empty_room]
        rw [Nat.succ_mul] at h
        omega)
      refine ⟨tail, ?_, by simpa using hle, ?_⟩
      · rw [List.getLast?_cons, hlast]
        rfl
      · simp only [List.length_cons, Nat.add_sub_add_right, Nat.succ_mul]
        rw [hlen, LinearBuffer.empty_room] at hroom
        omega

theorem length_onTail (f : OutboundBuffer → List OutboundBuffer) :
    ∀ (chain : List OutboundBuffer) (tail : OutboundBuffer), chain.getLast? = some tail →
      (onTail f chain).length + 1 = chain.length + (f tail).length
  | [], _, h => by simp at h
  | [obb], tail, h => by
      cases h
      simp [onTail, Nat.add_comm]
  | obb :: next :: rest, tail, h => by
      have hlast : (next :: rest).getLast? = some tail := by simpa using h
      have ih := length_onTail f (next :: rest) tail hlast
      simp only [onTail, List.length_cons] at ih ⊢
      omega

theorem getLast?_onTail (f : OutboundBuffer → List OutboundBuffer) :
    ∀ (chain : List OutboundBuffer) (tail tail' : OutboundBuffer), chain.getLast? = some tail →
      (f tail).getLast? = some tail' → (onTail f chain).getLast? = some tail'
  | [], _, _, h, _ => by simp at h
  | [obb], tail, tail', h, hf => by
      cases h
      exact hf
  | obb :: next :: rest, tail, tail', h, hf => by
      have hlast : (next :: rest).getLast? = some tail := by simpa using h
      simp only [onTail]
      rw [List.getLast?_cons, getLast?_onTail f (next :: rest) tail tail' hlast hf]
      rfl

/-- A write takes as much room as it has bytes. -/
theorem outboundRoom_commBufferedWriteRaw (hfit : withinOutboundLimit c buf = true)
    (hchain : c.outbound.length < maxOutboundBuffers) (hne : buf.isEmpty = false) :
    outboundRoom (commBufferedWriteRaw c buf).outbound + buf.length = outboundRoom c.outbound := by
  obtain ⟨chain, tail, hlast, -, hspace, hpos, hfull, hlen, hwrite⟩ :=
    exists_commBufferedWriteRaw_chain hfit hchain hne
  obtain ⟨tail', hlast', hle, hroom⟩ := exists_fillOutbound_tail _ tail buf hlen
  have hlength := length_onTail
    (fun obb => fillOutbound (maxOutboundBuffers - chain.length) obb buf) chain tail hlast
  have hcount : maxOutboundBuffers - (onTail
        (fun obb => fillOutbound (maxOutboundBuffers - chain.length) obb buf) chain).length
      = maxOutboundBuffers - chain.length + 1
        - (fillOutbound (maxOutboundBuffers - chain.length) tail buf).length := by
    omega
  rw [hwrite, hspace, outboundRoom, getLast?_onTail _ chain tail tail' hlast hlast']
  simp only [hcount]
  omega

/-- A raw write announces what it queues. -/
theorem bufferedWrite_commBufferedWriteRaw (h : c.outbound ≠ [] → c.flags.bufferedWrite = true)
    (hne : (commBufferedWriteRaw c buf).outbound ≠ []) :
    (commBufferedWriteRaw c buf).flags.bufferedWrite = true := by
  revert hne
  simp only [commBufferedWriteRaw]
  generalize (if c.outbound.isEmpty then [.empty] else c.outbound) = chain
  split
  · exact h
  · split
    · exact h
    · split
      · exact h
      · exact fun _ => rfl

/-- Freeing drained buffers loses no byte. -/
theorem chainData_dropDrained : chainData (dropDrained chain) = chainData chain := by
  induction chain with
  | nil => rfl
  | cons obb rest ih =>
    rw [dropDrained]
    split
    · rename_i hempty
      rw [ih, chainData_cons, List.isEmpty_iff.mp hempty, List.nil_append]
    · rfl

/-- The transport gets a first part of the queued bytes, and the rest stays queued, unless a write
failed for good. -/
theorem drainOutbound_conserves (h : (drainOutbound answers chain).result ≠ .failed) :
    (drainOutbound answers chain).taken ++ chainData (drainOutbound answers chain).chain
      = chainData chain := by
  induction answers generalizing chain with
  | nil =>
    rw [← chainData_dropDrained chain, drainOutbound]
    cases dropDrained chain <;> rfl
  | cons answer answers ih =>
    rw [← chainData_dropDrained chain]
    rw [drainOutbound] at h ⊢
    cases hd : dropDrained chain with
    | nil => rfl
    | cons obb rest =>
      simp only [hd] at h ⊢
      split
      · rename_i hzero
        rw [if_pos hzero] at h
        split
        · rfl
        · rename_i hretry
          simp [hretry] at h
      · rename_i hzero
        rw [if_neg hzero] at h
        have hih := ih (obb.consume answer.written :: rest) h
        simp only [List.append_assoc, hih, chainData_cons, LinearBuffer.consume_data]
        rw [← List.append_assoc, List.take_append_drop]

/-- A transport that takes bytes or asks to retry never fails a flush. -/
theorem drainOutbound_result_ne_failed {answers : List WriteAnswer}
    (h : answers.all (fun answer => answer.written ≠ 0 || answer.shouldRetry) = true)
    (chain : List OutboundBuffer) : (drainOutbound answers chain).result ≠ .failed := by
  induction answers generalizing chain with
  | nil =>
    rw [drainOutbound]
    cases dropDrained chain <;> nofun
  | cons answer answers ih =>
    simp only [List.all_cons, Bool.and_eq_true, Bool.or_eq_true, decide_eq_true_eq] at h
    rw [drainOutbound]
    cases dropDrained chain with
    | nil => nofun
    | cons obb rest =>
      dsimp only
      split
      · rename_i hzero
        rw [if_pos (h.1.resolve_left (absurd hzero))]
        nofun
      · exact ih h.2 _

/-- A flush queues nothing. -/
theorem drainOutbound_chain_nil : (drainOutbound answers []).chain = [] := by
  rw [drainOutbound]
  rfl

end Mudmux.Comm
