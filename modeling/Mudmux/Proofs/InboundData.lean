import Mudmux.Comm.Inbound

/-!
# `Mudmux.Proofs.InboundData`: peeking at an inbound chain and consuming from it

`comm_copy_inbound_data_prefix` walks over the chain and passes by what is not data;
`comm_consume_inbound_data` frees what it passes by and stops inside of a buffer. Both are the same walk
on the bytes of the data band: `copyInboundData` takes a prefix of them and `consumeInboundData` drops
one, for chains of any length and bands.
-/

set_option autoImplicit false

namespace Mudmux.Comm

/-- The unread bytes of the data band of a chain, in order. -/
def chainInboundData (chain : List InboundBuffer) : Bytes :=
  (chain.filter fun ibb => ibb.band = .data).flatMap fun ibb => ibb.buf.data

/-- A buffer of another band and an empty one add nothing. -/
theorem chainInboundData_skip {ibb : InboundBuffer} {rest : List InboundBuffer}
    (h : (ibb.band ≠ .data || ibb.buf.data.isEmpty) = true) :
    chainInboundData (ibb :: rest) = chainInboundData rest := by
  rw [chainInboundData, chainInboundData, List.filter_cons]
  split
  · next hband =>
      have hempty : ibb.buf.data = [] := by simpa [of_decide_eq_true hband] using h
      rw [List.flatMap_cons, hempty, List.nil_append]
  · rfl

theorem chainInboundData_cons {ibb : InboundBuffer} {rest : List InboundBuffer}
    (h : ¬(ibb.band ≠ .data || ibb.buf.data.isEmpty) = true) :
    chainInboundData (ibb :: rest) = ibb.buf.data ++ chainInboundData rest := by
  have hband : ibb.band = .data := by
    by_contra hband
    exact h (by simp [hband])
  rw [chainInboundData, List.filter_cons, if_pos (decide_eq_true hband), List.flatMap_cons,
    chainInboundData]

/-- The peek takes a prefix of the data. -/
theorem copyInboundData_eq (limit : Nat) (chain : List InboundBuffer) :
    copyInboundData limit chain = (chainInboundData chain).take limit := by
  induction chain generalizing limit with
  | nil => simp [copyInboundData, chainInboundData]
  | cons ibb rest ih =>
    rw [copyInboundData]
    split
    · next hzero => rw [hzero, List.take_zero]
    · split
      · next hskip => rw [ih, chainInboundData_skip hskip]
      · next hdata =>
          -- what the limit leaves behind this buffer is taken from the others
          have hrest : limit - min ibb.buf.data.length limit = limit - ibb.buf.data.length := by omega
          dsimp only
          rw [ih, chainInboundData_cons hdata, List.take_append, hrest, Nat.min_comm,
            ← List.take_eq_take_min]

/-- Consuming drops a prefix of the data. -/
theorem chainInboundData_consume (bytes : Nat) (chain : List InboundBuffer) :
    chainInboundData (consumeInboundData bytes chain) = (chainInboundData chain).drop bytes := by
  induction chain generalizing bytes with
  | nil => simp [consumeInboundData, chainInboundData]
  | cons head rest ih =>
    rw [consumeInboundData]
    split
    · next hzero => rw [hzero, List.drop_zero]
    · next hpos =>
        split
        · next hskip => rw [ih, chainInboundData_skip hskip]
        · next hdata =>
            rw [chainInboundData_cons hdata, List.drop_append]
            dsimp only
            split
            · next hall =>
                have hle : head.buf.data.length ≤ bytes := by omega
                rw [ih, hall, List.drop_eq_nil_of_le hle, List.nil_append]
            · next hpart =>
                -- the walk ends inside of the head, which stays in the chain
                have hlt : bytes < head.buf.data.length := by omega
                have hmin : min head.buf.data.length bytes = bytes := by omega
                have hnone : bytes - head.buf.data.length = 0 := by omega
                have hkept : ¬(head.band ≠ .data
                    || (head.buf.consume bytes).data.isEmpty) = true := by
                  simp only [Lib.LinearBuffer.consume_data, Bool.or_eq_true, List.isEmpty_iff,
                    List.drop_eq_nil_iff, not_or] at hdata ⊢
                  exact ⟨hdata.1, by omega⟩
                rw [hmin, hnone, List.drop_zero, chainInboundData_cons hkept,
                  Lib.LinearBuffer.consume_data]

/-- For every chain, the peek returns the first bytes of its data, as many as the limit and the chain
allow. Consuming leaves the data without its first bytes and nothing else of the slot changes; consuming
as many bytes as were copied removes just these. -/
theorem peek_and_consume_agree (comm : CommAbstract) (limit bytes : Nat) :
    commCopyInboundDataPrefix comm limit
        = comm.inboundData.take (min limit comm.inboundData.length) ∧
      (commConsumeInboundData comm bytes).inboundData
        = comm.inboundData.drop (min bytes comm.inboundData.length) ∧
      { commConsumeInboundData comm bytes with inbound := comm.inbound } = comm ∧
      commCopyInboundDataPrefix comm limit ++ (commConsumeInboundData comm
        (commCopyInboundDataPrefix comm limit).length).inboundData = comm.inboundData := by
  have hcopy (n : Nat) : commCopyInboundDataPrefix comm n = comm.inboundData.take n :=
    copyInboundData_eq n comm.inbound
  have hconsume (n : Nat) : (commConsumeInboundData comm n).inboundData = comm.inboundData.drop n :=
    chainInboundData_consume n comm.inbound
  refine ⟨?_, ?_, rfl, ?_⟩
  · rw [hcopy, ← List.take_eq_take_min]
  · rw [hconsume]
    by_cases hle : bytes ≤ comm.inboundData.length
    · rw [Nat.min_eq_left hle]
    · rw [Nat.min_eq_right (by omega), List.drop_length, List.drop_eq_nil_of_le (by omega)]
  · rw [hconsume, hcopy, List.length_take]
    by_cases hle : limit ≤ comm.inboundData.length
    · rw [Nat.min_eq_left hle, List.take_append_drop]
    · rw [Nat.min_eq_right (by omega), List.drop_length, List.append_nil,
        List.take_of_length_le (by omega)]

end Mudmux.Comm
