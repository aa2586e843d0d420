import Mudmux.Proofs.Refill
import Mudmux.Proofs.WebSocket
import Mudmux.Proofs.WireKept

/-!
# `Mudmux.Proofs.PingPong`: every Ping is answered once

`comm_websocket_process_inbound` queues a Pong as soon as it has passed a Ping, and reports how many bytes it
consumed when it returns. `comm_process_websocket_input` drops these bytes from the pending ones, unless the
decoder has met a Close or an invalid frame: then it returns at once and everything stays pending. The slot
may stay for a while, for its output to drain or for the other side's Close, and the next call decodes the
same bytes again and answers their Pings again (`ping_is_answered_twice`). A message that the inbound buffer
cannot take does not go away either: the next call takes the part that is there for wire bytes.

So the Pongs are right as long as the caller stops: no call behind one that returned `COMM_PROCESS_CLOSED` or
`COMM_PROCESS_ERROR` (`pings_are_answered_once`). `DecodedTo` is the invariant: what has been answered, in front of
what the reference decoder makes of the fragment in progress and the bytes still pending, is what it makes
of the whole stream.
-/

set_option autoImplicit false

namespace Mudmux.Comm

open Mudmux.Lib
open Mudmux.Lib.Program

/-! ### The Pings of a stream -/

/-- The Pings in front of the first Close or invalid frame. -/
def pingsBefore (stream : Bytes) : List Bytes := (referenceReader.decode none stream).out.pongs

/-- With `pongs` answered, decoding goes on with this fragment in progress and these bytes. -/
def DecodedTo (stream : Bytes) (pongs : List Bytes) (fragment : Fragment) (rest : Bytes) : Prop :=
  ∃ messages, referenceReader.decode none stream
    = (referenceReader.decode (openMessage fragment) rest).after ⟨messages, pongs⟩

variable {stream rest : Bytes} {pongs : List Bytes} {fragment : Fragment}

section

variable (h : DecodedTo stream pongs fragment rest)

include h

theorem DecodedTo.pings :
    pingsBefore stream = pongs ++ (referenceReader.decode (openMessage fragment) rest).out.pongs := by
  obtain ⟨messages, hdecode⟩ := h
  rw [pingsBefore, hdecode, Outcome.out_after]
  rfl

theorem DecodedTo.prefix_pings : pongs <+: pingsBefore stream := by
  rw [h.pings]
  exact List.prefix_append _ _

omit h in
/-- Nothing of the stream is decoded. -/
theorem decodedTo_start (stream : Bytes) : DecodedTo stream [] {} stream :=
  ⟨[], (Outcome.after_one _).symm⟩

/-- More bytes arrive. -/
theorem DecodedTo.append (src : Bytes) :
    DecodedTo (stream ++ src) pongs fragment (rest ++ src) := by
  obtain ⟨messages, hdecode⟩ := h
  refine ⟨messages, ?_⟩
  rw [referenceReader_lawful.decode_append, referenceReader_lawful.decode_append _ rest, hdecode]
  cases referenceReader.decode (openMessage fragment) rest with
  | waiting out state left => exact (Outcome.after_after _ _ _).symm
  | halted out reason => rfl

theorem DecodedTo.append_nil : DecodedTo stream pongs fragment (rest ++ []) := by
  rw [List.append_nil]
  exact h

omit h in
/-- What is answered of a beginning of the stream is answered of the stream. -/
theorem pingsBefore_append (stream src : Bytes) :
    pingsBefore stream <+: pingsBefore (stream ++ src) := by
  rw [pingsBefore, pingsBefore, referenceReader_lawful.decode_append]
  cases referenceReader.decode none stream with
  | waiting out state left =>
    rw [Outcome.out_after]
    exact List.prefix_append _ _
  | halted out reason => exact List.prefix_refl _

/-- A decoder call that consumes frames. -/
theorem DecodedTo.decode {consumed : Nat}
    (hverdict : (websocketDecode 1 fragment rest).verdict = .accepted consumed) :
    DecodedTo stream (pongs ++ (websocketDecode 1 fragment rest).pongs)
      (websocketDecode 1 fragment rest).fragment (rest.drop consumed) := by
  obtain ⟨messages, hdecode⟩ := h
  have hreads := loopReads_websocketDecode 1 fragment rest
  rw [LoopReads, hverdict] at hreads
  refine ⟨messages ++ (websocketDecode 1 fragment rest).messages, ?_⟩
  rw [hdecode, hreads.2.1, Outcome.after_after]
  rfl

/-- A decoder call that consumes nothing has nothing to answer, now or later in these bytes. -/
theorem DecodedTo.decode_waits (hverdict : (websocketDecode 1 fragment rest).verdict = .accepted 0) :
    pongs ++ (websocketDecode 1 fragment rest).pongs = pingsBefore stream := by
  have hreads := loopReads_websocketDecode 1 fragment rest
  rw [LoopReads, hverdict] at hreads
  rw [h.pings, hreads.2.2 rfl]
  rfl

/-- A decoder call that meets the end of the stream has answered all. -/
theorem DecodedTo.decode_ends
    (hverdict : ∀ consumed, (websocketDecode 1 fragment rest).verdict ≠ .accepted consumed) :
    pongs ++ (websocketDecode 1 fragment rest).pongs = pingsBefore stream := by
  have hreads := loopReads_websocketDecode 1 fragment rest
  rw [h.pings, ← Outcome.out_map id ReferenceEnd.verdict]
  cases hend : (websocketDecode 1 fragment rest).verdict with
  | accepted consumed => exact absurd hend (hverdict consumed)
  | rejected closeCode =>
    rw [LoopReads, hend] at hreads
    rw [hreads]
    rfl
  | closed payload =>
    rw [LoopReads, hend] at hreads
    rw [hreads]
    rfl

end

theorem DecodedTo.done (h : DecodedTo stream pongs fragment []) : pongs = pingsBefore stream := by
  rw [h.pings, referenceReader_lawful.decode_of_more (referenceReader_lawful.read_nil _)]
  exact (List.append_nil pongs).symm

/-! ### Pongs as they are queued -/

/-- A Pong that is handed to the queue: its payload, and whether the queue took the whole frame. -/
structure PongNote where
  payload : Bytes
  queued : Bool
  deriving DecidableEq, Repr

/-- Whether the queue takes a Pong with this payload. -/
def queuesPong (comm : CommAbstract) (payload : Bytes) : Bool :=
  comm.live && chainData (writeControlFrame comm opPong payload).outbound
    == chainData comm.outbound ++ (commWebsocketEncodeFrame payload opPong).getD []

variable {ρ : Type}

/-- What is noted of an effect. -/
def pongNote : {β : Type} → SlotEffect β → World ρ → List PongNote
  | _, .pong payload, w => [⟨payload, queuesPong w.comm payload⟩]
  | _, _, _ => []

/-- The handler of a slot's code, with the Pongs noted. -/
def pongHandler (setup : Setup) (env : Surroundings ρ) (depth : Nat) :
    Handler SlotEffect (World ρ × List PongNote) :=
  (slotHandler setup env depth).observed pongNote

/-- The Pongs tried, in their order. -/
def attempts (notes : List PongNote) : List Bytes := notes.map PongNote.payload

/-- What is kept between two decoder calls. -/
def KeepsPongs (chains : List InboundBuffer → Prop) (fragment : Fragment) (pending : Bytes)
    (pongs : List Bytes) (s : World ρ × List PongNote) : Prop :=
  (s.1.comm.live = true → HasWire chains fragment pending s.1.comm) ∧ attempts s.2 = pongs

variable {setup : Setup} {env : Surroundings ρ} {depth : Nat} {chains : List InboundBuffer → Prop}
  {pending : Bytes}

theorem wireHandler_pong (henv : env.KeepsWire) :
    WireHandler setup (pongHandler setup env depth) (fun s => s.1.comm)
      (KeepsPongs chains fragment pending pongs) chains fragment pending := by
  have hslot : WireHandler setup (slotHandler setup env depth) World.comm
      (fun w => Wired chains fragment pending w.comm) chains fragment pending :=
    wireHandler_slot henv depth
  refine ⟨fun hu hr hanswer => hslot.exec hu hr (observed_eq_some.mp hanswer).1, fun hi => hi.1, ?_, ?_⟩
  · intro s s' c hi hc hset
    obtain ⟨hbase, hnotes⟩ := observed_eq_some.mp hset
    refine ⟨hslot.set hi.1 hc hbase, ?_⟩
    have hquiet : pongNote (SlotEffect.setSlot c) s.1 = [] := rfl
    rw [hnotes, hquiet, List.append_nil]
    exact hi.2
  · intro β e s s' b he hi hanswer
    obtain ⟨hbase, hnotes⟩ := observed_eq_some.mp hanswer
    have hquiet : pongNote e s.1 = [] := by
      cases e with
      | pong payload => cases he
      | _ => rfl
    refine ⟨hslot.other he hi.1 hbase, ?_⟩
    rw [hnotes, hquiet, List.append_nil]
    exact hi.2

variable {α : Type}

section Kept

variable (henv : env.KeepsWire) {s : World ρ × List PongNote}
  (h : KeepsPongs chains fragment pending pongs s)

include henv h

theorem KeepsPongs.ensures {p : Code α}
    (hp : Meets setup (wireRequirement chains fragment pending) p) :
    Ensures (pongHandler setup env depth) p s fun _ => KeepsPongs chains fragment pending pongs :=
  (wireHandler_pong henv).preserves hp s h

theorem KeepsPongs.effect {β : Type} {e : SlotEffect β} (he : e.leavesWire = true) :
    Ensures (pongHandler setup env depth) (effect e) s
      fun _ => KeepsPongs chains fragment pending pongs :=
  ensures_perform.mpr fun _ _ hanswer =>
    ensures_done.mpr ((wireHandler_pong henv).other he h hanswer)

end Kept

variable {s : World ρ × List PongNote}

theorem KeepsPongs.mono {chains' : List InboundBuffer → Prop}
    (h : KeepsPongs chains fragment pending pongs s)
    (hchains : ∀ chain, chains chain → chains' chain) :
    KeepsPongs chains' fragment pending pongs s := by
  refine ⟨fun hlive => ?_, h.2⟩
  have hwire := h.1 hlive
  exact ⟨hwire.ready, hwire.fragment, hwire.pending, hchains _ hwire.chain⟩

/-! ### Exact rules -/

variable {Q : α → World ρ × List PongNote → Prop}

theorem ensures_pong_get {k : CommAbstract → Code α} :
    Ensures (pongHandler setup env depth) (.perform .getSlot k) s Q ↔
      Ensures (pongHandler setup env depth) (k s.1.comm) s Q := by
  refine ensures_answered (observed_eq_some.mpr ⟨?_, (List.append_nil _).symm⟩)
  exact slotHandler_of_unfold_none _ rfl

/-- The guard says whether the slot lives. -/
theorem ensures_pong_guard {f : Option CommAbstract → Code α}
    (hnone : s.1.comm.live = false → Ensures (pongHandler setup env depth) (f none) s Q)
    (hsome : s.1.comm.live = true → Ensures (pongHandler setup env depth) (f (some s.1.comm)) s Q) :
    Ensures (pongHandler setup env depth) (commGuard >>= f) s Q := by
  rw [commGuard, Program.bind_assoc', Program.effect_bind, ensures_pong_get, Program.pure_eq,
    Program.done_bind]
  split
  · next hlive => exact hsome hlive
  · next hdead => exact hnone (Bool.eq_false_iff.mpr hdead)

/-- Only of a live slot the record can be read. -/
theorem ensures_pong_deref {f : CommAbstract → Code α}
    (hsome : s.1.comm.live = true → Ensures (pongHandler setup env depth) (f s.1.comm) s Q) :
    Ensures (pongHandler setup env depth) (commDeref >>= f) s Q := by
  rw [commDeref, Program.bind_assoc', Program.effect_bind, ensures_pong_get]
  split
  · next hlive => exact hsome hlive
  · exact ensures_perform.mpr fun b => b.elim

/-- A record with other wire bytes is stored. -/
theorem ensures_pong_store {c : CommAbstract} (hpongs : attempts s.2 = pongs)
    (hc : c.live = true → HasWire chains fragment pending c) :
    Ensures (pongHandler setup env depth) (setComm c) s
      fun _ => KeepsPongs chains fragment pending pongs := by
  have hanswer : pongHandler setup env depth _ (.setSlot c) s
      = some ((), { s.1 with comm := c }, s.2) :=
    observed_eq_some.mpr ⟨slotHandler_of_unfold_none _ rfl, (List.append_nil _).symm⟩
  exact (ensures_answered hanswer).mpr (ensures_done.mpr ⟨hc, hpongs⟩)

variable {chains' : List InboundBuffer → Prop} {fragment' : Fragment} {pending' : Bytes}

/-- A change of the wire bytes. -/
theorem KeepsPongs.modify {f : CommAbstract → CommAbstract}
    (h : KeepsPongs chains fragment pending pongs s)
    (hf : ∀ c, HasWire chains fragment pending c → HasWire chains' fragment' pending' (f c)) :
    Ensures (pongHandler setup env depth) (modifyComm f) s
      fun _ => KeepsPongs chains' fragment' pending' pongs :=
  ensures_pong_deref fun hlive => ensures_pong_store h.2 fun _ => hf _ (h.1 hlive)

/-! ### The decoder on a slot -/

theorem sendPongs_pongs (henv : env.KeepsWire) (payloads : List Bytes)
    (h : KeepsPongs chains fragment pending pongs s) :
    Ensures (pongHandler setup env depth) (sendPongs payloads) s
      fun _ => KeepsPongs chains fragment pending (pongs ++ payloads) := by
  induction payloads generalizing s pongs with
  | nil =>
    rw [List.append_nil]
    exact ensures_done.mpr h
  | cons payload rest ih =>
    refine ensures_perform.mpr fun b s' hanswer => ?_
    obtain ⟨hbase, hnotes⟩ := observed_eq_some.mp hanswer
    have hsent : KeepsPongs chains fragment pending (pongs ++ [payload]) s' := by
      rw [slotHandler_of_unfold_none _ rfl] at hbase
      refine ⟨perform_keeps henv (sameWire_of_exec rfl) h.1 hbase, ?_⟩
      rw [hnotes, attempts, List.map_append]
      exact congrArg (· ++ [payload]) h.2
    rw [List.append_cons]
    exact ih hsent

/-- `comm_websocket_process_inbound`: the fragment moves on, the wire bytes stay, and the Pongs are tried. -/
theorem commWebsocketProcessInbound_pongs (henv : env.KeepsWire) (wire : Bytes)
    (h : KeepsPongs chains fragment pending pongs s) :
    Ensures (pongHandler setup env depth) (commWebsocketProcessInbound wire 1) s
      fun result s' => result = ((websocketDecode 1 fragment wire).messages,
          (websocketDecode 1 fragment wire).verdict) ∧
        KeepsPongs chains (websocketDecode 1 fragment wire).fragment pending
          (pongs ++ (websocketDecode 1 fragment wire).pongs) s' := by
  refine ensures_pong_deref fun hlive => ?_
  have hc := h.1 hlive
  dsimp only
  rw [hc.fragment]
  obtain ⟨r, hr⟩ : ∃ r, websocketDecode 1 fragment wire = r := ⟨_, rfl⟩
  rw [hr]
  have hstored : HasWire chains r.fragment pending
      { s.1.comm with
          websocket := some
            { s.1.comm.websocket.getD {} with
                fragmentedOpcode := r.fragment.opcode
                fragmentedPayload := r.fragment.payload } } :=
    ⟨hc.ready, rfl, hc.pending, hc.chain⟩
  refine (ensures_pong_store h.2 fun _ => hstored).bind fun _ s₁ h₁ => ?_
  refine (sendPongs_pongs henv r.pongs h₁).bind fun _ s₂ h₂ => ?_
  have hend (s₃ : World ρ × List PongNote)
      (h₃ : KeepsPongs chains r.fragment pending (pongs ++ r.pongs) s₃) :
      Ensures (pongHandler setup env depth) (pure (r.messages, r.verdict)) s₃
        fun result s' => result = (r.messages, r.verdict) ∧
          KeepsPongs chains r.fragment pending (pongs ++ r.pongs) s' :=
    ensures_done.mpr ⟨rfl, h₃⟩
  split
  · next payload _ =>
      have hclosed (c : CommAbstract) (hc : HasWire chains r.fragment pending c) :
          HasWire chains r.fragment pending
            (c.mapFlags fun flags => { flags with websocketState := .closeReceived }) :=
        ⟨rfl, hc.fragment, hc.pending, hc.chain⟩
      refine (h₂.effect henv rfl).bind fun _ s₃ h₃ => ?_
      exact Ensures.bind (h₃.modify hclosed) fun _ s₄ h₄ => hend s₄ h₄
  · exact hend s₂ h₂

/-! ### Decoded text -/

/-- The text parsers answer `COMM_PROCESS_CLOSED` only of a slot that is gone. -/
theorem processText_closed (budget : Option Nat) :
    Ensures (pongHandler setup env depth) (processText setup budget) s
      fun result s' => result = .closed → s'.1.comm.live = false := by
  have hend (failed : Bool) (s : World ρ × List PongNote) :
      Ensures (pongHandler setup env depth)
        (if failed then pure .error else textEnd) s
        fun result s' => result = .closed → s'.1.comm.live = false := by
    split
    · exact ensures_done.mpr (by simp)
    · refine ensures_pong_guard (fun hdead => ensures_done.mpr fun _ => hdead) fun _ => ?_
      dsimp only
      split
      · exact ensures_done.mpr (by simp)
      · exact ensures_done.mpr (by simp)
  refine ensures_bind.mpr ((ensures_true _ _ _).mono fun c s₁ _ => ?_)
  split
  · exact ensures_bind.mpr ((ensures_true _ _ _).mono fun _ s₂ _ => hend false s₂)
  · exact ensures_bind.mpr ((ensures_true _ _ _).mono fun failed s₂ _ => hend failed s₂)

theorem commProcessDecodedInput_closed (budget : Option Nat)
    (h : KeepsPongs chains fragment pending pongs s) :
    Ensures (pongHandler setup env depth) (commProcessDecodedInput setup budget) s
      fun result s' => result = .closed → s'.1.comm.live = false := by
  refine ensures_pong_guard (fun _ => ensures_done.mpr nofun) fun hlive => ?_
  dsimp only
  split
  · exact ensures_done.mpr nofun
  refine ensures_bind.mpr ((ensures_true _ _ _).mono fun busy s₁ _ => ?_)
  split
  · exact ensures_done.mpr nofun
  refine ensures_bind.mpr ((ensures_true _ _ _).mono fun _ s₂ _ => ?_)
  rw [(h.1 hlive).ready, Bool.not_true, Bool.and_false, if_neg Bool.false_ne_true, if_pos rfl]
  exact processText_closed budget

/-- The one inbound buffer holds `data`. -/
def HoldsData (data : Bytes) (chain : List InboundBuffer) : Prop :=
  ∃ buf : Cells,
    (chain = [⟨.data, buf⟩] ∨ chain = [] ∧ buf = .empty) ∧ buf.data = data

variable {data : Bytes} {chain : List InboundBuffer}

theorem HoldsData.oneChain (h : HoldsData data chain) : OneChain chain := by
  obtain ⟨buf, rfl | ⟨rfl, -⟩, -⟩ := h
  · exact Nat.le_refl 1
  · exact Nat.zero_le 1

/-- Everything is consumed. -/
theorem consumeInboundData_sizeMax (h : OneChain chain) :
    HoldsData [] (consumeInboundData sizeMax chain) := by
  refine ⟨.empty, .inr ⟨?_, rfl⟩, rfl⟩
  rcases chain with _ | ⟨ibb, _ | ⟨next, rest⟩⟩
  · rfl
  · have hlength : ibb.buf.data.length ≤ sizeMax :=
      Nat.le_trans ibb.buf.length_le (show bufferSize ≤ sizeMax by decide)
    have hpos : sizeMax ≠ 0 := by decide
    rw [consumeInboundData, if_neg hpos, Nat.min_eq_left hlength, if_pos rfl]
    split
    · rfl
    · rfl
  · exact absurd h (by simp [OneChain])

/-- `_process_websocket_decoded_input` answers no Ping. Unless it fails it leaves the inbound buffer
without data. -/
theorem processWebsocketDecodedInput_pongs (henv : env.KeepsWire) (budget : Option Nat)
    (h : KeepsPongs (HoldsData []) fragment pending pongs s) :
    Ensures (pongHandler setup env depth) (processWebsocketDecodedInput setup budget) s
      fun result s' => result ≠ .closed ∧ attempts s'.2 = pongs ∧
        (result ≠ .error → KeepsPongs (HoldsData []) fragment pending pongs s') := by
  refine ensures_pong_deref fun _ => ?_
  dsimp only
  split
  · exact ensures_done.mpr ⟨nofun, h.2, fun _ => h⟩
  have hstart := h.mono fun chain => HoldsData.oneChain
  refine (hstart.ensures henv (wireTextPermits.refillInboundBuffersFromSrc
    (fun _ => wireGrants rfl) _)).bind fun refilled s₁ h₁ => ?_
  split
  · exact ensures_done.mpr ⟨nofun, h₁.2, fun herror => absurd rfl herror⟩
  refine Ensures.bind (h₁.ensures henv (wireTextPermits.modifyDecoded ?_)) fun _ s₂ h₂ => ?_
  · exact fun _ => ⟨rfl, rfl⟩
  have hprocess : Ensures (pongHandler setup env depth) (commProcessDecodedInput setup budget) s₂
      fun _ => KeepsPongs OneChain fragment pending pongs :=
    h₂.ensures henv (wireTextPermits.commProcessDecodedInput
      (fun _ _ hstore => hstore.wired_text nofun) (wireGrants rfl) budget)
  refine (hprocess.and (commProcessDecodedInput_closed budget h₂)).bind fun result s₃ h₃ => ?_
  obtain ⟨h₃, hclosed⟩ := h₃
  rw [modifyComm, Program.bind_assoc']
  refine ensures_pong_deref fun hlive => ?_
  have hwire := h₃.1 hlive
  have hstored : HasWire (HoldsData []) fragment pending
      { s₃.1.comm with
          websocket := s₃.1.comm.websocket.map fun w =>
            { w with decodedInput := commCopyInboundDataPrefix s₃.1.comm sizeMax }
          inbound := consumeInboundData sizeMax s₃.1.comm.inbound } := by
    refine ⟨hwire.ready, ?_, ?_, consumeInboundData_sizeMax hwire.chain⟩
    · rw [← hwire.fragment]
      cases s₃.1.comm.websocket <;> rfl
    · rw [← hwire.pending]
      cases s₃.1.comm.websocket <;> rfl
  refine (ensures_pong_store h₃.2 fun _ => hstored).bind fun _ s₄ h₄ => ensures_done.mpr ?_
  refine ⟨fun hresult => ?_, h₄.2, fun _ => h₄⟩
  exact absurd hlive (Bool.eq_false_iff.mp (hclosed hresult))

/-! ### The loop -/

/-- What a slot has received of the stream and not decoded yet, with `pongs` answered. -/
def Received (stream : Bytes) (pongs : List Bytes) (comm : CommAbstract) : Prop :=
  ∃ fragment pending data,
    HasWire (HoldsData data) fragment pending comm ∧ DecodedTo stream pongs fragment (pending ++ data)

/-- What is known behind a call that returned `result`. -/
structure Answered (stream : Bytes) (result : ProcessResult) (s : World ρ × List PongNote) : Prop where
  soFar : attempts s.2 <+: pingsBefore stream
  complete : result = .ok ∨ (result = .closed ∧ s.1.comm.live = true) →
    attempts s.2 = pingsBefore stream
  received : result = .ok ∨ result = .deferred → s.1.comm.live = true →
    Received stream (attempts s.2) s.1.comm

section Answered

section

variable (h : KeepsPongs (HoldsData data) fragment pending pongs s)

include h

variable (hdecoded : DecodedTo stream pongs fragment (pending ++ data))

include hdecoded

theorem KeepsPongs.received (hlive : s.1.comm.live = true) :
    Received stream (attempts s.2) s.1.comm := by
  rw [h.2]
  exact ⟨fragment, pending, data, h.1 hlive, hdecoded⟩

theorem KeepsPongs.deferred : Answered stream .deferred s where
  soFar := by
    rw [h.2]
    exact hdecoded.prefix_pings
  complete hresult := by simp at hresult
  received _ hlive := h.received hdecoded hlive

theorem KeepsPongs.ok (hall : pongs = pingsBefore stream) : Answered stream .ok s where
  soFar := by
    rw [h.2]
    exact hdecoded.prefix_pings
  complete _ := by rw [h.2, hall]
  received _ hlive := h.received hdecoded hlive

end

theorem answered_error (hpongs : attempts s.2 <+: pingsBefore stream) : Answered stream .error s where
  soFar := hpongs
  complete hresult := by simp at hresult
  received hresult := by simp at hresult

theorem answered_closed (hpongs : attempts s.2 <+: pingsBefore stream)
    (hall : s.1.comm.live = true → attempts s.2 = pingsBefore stream) :
    Answered stream .closed s where
  soFar := hpongs
  complete hresult := hall (by simpa using hresult)
  received hresult := by simp at hresult

end Answered

section

variable (henv : env.KeepsWire)

include henv

/-- What follows a message keeps the Pongs. -/
theorem messageRules_pongs (hdecoded : DecodedTo stream pongs fragment pending) :
    MessageRules setup (fun p Q s => Ensures (pongHandler setup env depth) p s Q)
      (KeepsPongs (HoldsData []) fragment pending pongs)
      (fun _ => KeepsPongs (HoldsData []) fragment pending pongs) (Answered stream) where
  done h := ensures_done.mpr h
  bind h := h.bind fun _ _ => id
  mono h himp := h.mono himp
  deref h hf := ensures_pong_deref fun _ => hf _ _ h
  store _ h := h.ensures henv (wirePermits.modifyDecoded fun _ => ⟨rfl, rfl⟩)
  decode fuel payload h := h.ensures henv fun c =>
    meetsTo_mono (wirePermits.decodeWebsocketTelnetPayloadTo (fun _ => wireGrants rfl) fuel payload c)
      fun _ _ _ => True.intro
  kept h _ := h
  defer h := (h.ensures henv (wirePermits.deferInbound (wireGrants rfl))).mono fun _ _ h' =>
    h'.deferred hdecoded.append_nil
  error h := answered_error (h.2 ▸ hdecoded.prefix_pings)
  next h hagain := by
    refine ensures_pong_guard (fun hdead => ensures_done.mpr ?_) fun _ => ?_
    · exact answered_closed (h.2 ▸ hdecoded.prefix_pings) fun hlive =>
        absurd hlive (Bool.eq_false_iff.mp hdead)
    · refine (h.effect henv rfl).bind fun busy s₁ h₁ => ?_
      split
      · exact ensures_done.mpr (h₁.deferred hdecoded.append_nil)
      · exact hagain s₁ h₁

/-- The loop of `comm_process_websocket_input`. -/
theorem websocketInputLoop_pongs (budget : Option Nat) (fuel : Nat)
    (h : KeepsPongs (HoldsData []) fragment pending pongs s)
    (hdecoded : DecodedTo stream pongs fragment pending) (hfuel : pending.length < fuel) :
    Ensures (pongHandler setup env depth) (websocketInputLoop setup budget fuel) s
      (Answered stream) := by
  induction fuel generalizing s fragment pending pongs with
  | zero => exact absurd hfuel (Nat.not_lt_zero _)
  | succ fuel ih =>
    refine ensures_pong_deref fun hlive => ?_
    dsimp only
    rw [(h.1 hlive).pending]
    split
    · next hempty =>
        rw [List.isEmpty_iff] at hempty
        subst hempty
        exact ensures_done.mpr (h.ok hdecoded.append_nil hdecoded.done)
    next hbytes =>
    refine (commWebsocketProcessInbound_pongs henv pending h).bind fun result s₁ h₁ => ?_
    obtain ⟨rfl, h₁⟩ := h₁
    cases hverdict : (websocketDecode 1 fragment pending).verdict with
    | closed payload =>
      have hall := hdecoded.decode_ends (by simp [hverdict])
      have hsent : attempts s₁.2 = pingsBefore stream := h₁.2.trans hall
      exact ensures_done.mpr (answered_closed ⟨[], by rw [List.append_nil, hsent]⟩ fun _ => hsent)
    | rejected closeCode =>
      have hall := hdecoded.decode_ends (by simp [hverdict])
      refine (h₁.effect henv rfl).bind fun _ s₂ h₂ => (h₂.effect henv rfl).bind fun _ s₃ h₃ => ?_
      have hsent : attempts s₃.2 = pingsBefore stream := h₃.2.trans hall
      exact ensures_done.mpr (answered_closed ⟨[], by rw [List.append_nil, hsent]⟩ fun _ => hsent)
    | accepted consumed =>
      have hmoved := hdecoded.decode hverdict
      have hwaits := hdecoded.decode_waits
      obtain ⟨r, hr⟩ : ∃ r, websocketDecode 1 fragment pending = r := ⟨_, rfl⟩
      rw [hr] at h₁ hmoved hverdict hwaits ⊢
      dsimp only
      split
      · next hnone =>
          subst hnone
          exact ensures_done.mpr (h₁.ok hmoved.append_nil (hwaits hverdict))
      · next hsome =>
          have hshorter : (pending.drop consumed).length < fuel := by
            have hpos : 0 < pending.length :=
              List.length_pos_iff.mpr fun hempty => hbytes (List.isEmpty_iff.mpr hempty)
            rw [List.length_drop]
            omega
          have hdropped : ∀ c, HasWire (HoldsData []) r.fragment pending c →
              HasWire (HoldsData []) r.fragment (pending.drop consumed)
                { c with
                    websocket := c.websocket.map fun w =>
                      { w with pendingWire := w.pendingWire.drop consumed } } := by
            intro c hc
            refine ⟨hc.ready, ?_, ?_, hc.chain⟩
            · rw [← hc.fragment]
              cases c.websocket <;> rfl
            · rw [← hc.pending]
              cases c.websocket with
              | none => exact List.drop_nil.symm
              | some w => rfl
          refine Ensures.bind (h₁.modify hdropped) fun _ s₂ h₂ => ?_
          cases r.messages with
          | nil => exact ih h₂ hmoved hshorter
          | cons message rest =>
            refine (messageRules_pongs henv hmoved).message (fun s₃ h₃ => ?_)
              (fun s₃ h₃ => ih h₃ hmoved hshorter) h₂ message
            refine (processWebsocketDecodedInput_pongs henv budget h₃).mono ?_
            rintro result s₄ ⟨hopen, hpongs, hkept⟩
            refine ⟨fun hstop => ?_, fun hok => hkept (by rw [hok]; nofun)⟩
            cases result with
            | closed => exact absurd rfl hopen
            | error => exact answered_error (hpongs ▸ hmoved.prefix_pings)
            | deferred => exact (hkept nofun).deferred hmoved.append_nil
            | ok => exact absurd rfl hstop

/-! ### The public call -/

/-- `comm_process_websocket_input` first appends what the inbound buffer holds to the pending bytes. -/
theorem commProcessWebsocketInput_pongs (budget : Option Nat)
    (h : KeepsPongs (HoldsData data) fragment pending pongs s)
    (hdecoded : DecodedTo stream pongs fragment (pending ++ data)) :
    Ensures (pongHandler setup env depth) (commProcessWebsocketInput setup budget) s
      (Answered stream) := by
  have htaken : ∀ c, HasWire (HoldsData data) fragment pending c →
      HasWire (HoldsData []) fragment (pending ++ data)
        { c with
            websocket := some
              { c.websocket.getD {} with
                  pendingWire := (c.websocket.getD {}).pendingWire ++ commCopyInboundDataPrefix c sizeMax }
            inbound := consumeInboundData (commCopyInboundDataPrefix c sizeMax).length c.inbound } := by
    intro c hc
    obtain ⟨buf, hbuf, hdata⟩ := hc.chain
    have hcopied : commCopyInboundDataPrefix c sizeMax = data := by
      rw [OneBuffer.copyInboundData hbuf (show bufferSize ≤ sizeMax by decide), hdata]
    obtain ⟨left, hnone, hleft⟩ := OneBuffer.consumeInboundData hbuf
    rw [hcopied, ← hdata]
    exact ⟨hc.ready, hc.fragment, congrArg (· ++ buf.data) hc.pending, left, hleft, hnone⟩
  refine Ensures.bind (h.modify htaken) fun _ s₁ h₁ => ?_
  refine (processWebsocketDecodedInput_pongs henv budget h₁).bind fun result s₂ h₂ => ?_
  obtain ⟨hopen, hpongs, hkept⟩ := h₂
  cases result with
  | closed => exact absurd rfl hopen
  | error =>
    refine ensures_done.mpr (answered_error ?_)
    rw [hpongs]
    exact hdecoded.prefix_pings
  | deferred => exact ensures_done.mpr ((hkept nofun).deferred hdecoded.append_nil)
  | ok =>
    have h₂ := hkept nofun
    refine ensures_pong_deref fun hlive => ?_
    rw [(h₂.1 hlive).pending]
    exact websocketInputLoop_pongs henv budget _ h₂ hdecoded (Nat.lt_succ_self _)

/-- `comm_process_input` on an upgraded slot. -/
theorem commProcessInput_pongs (budget : Option Nat)
    (h : KeepsPongs (HoldsData data) fragment pending pongs s)
    (hdecoded : DecodedTo stream pongs fragment (pending ++ data)) :
    Ensures (pongHandler setup env depth) (commProcessInput setup budget) s (Answered stream) := by
  refine ensures_pong_guard (fun _ => ?_) fun hlive => ?_
  · refine ensures_done.mpr (answered_error ?_)
    rw [h.2]
    exact hdecoded.prefix_pings
  dsimp only
  split
  · exact ensures_done.mpr (h.deferred hdecoded)
  refine (h.effect henv rfl).bind fun busy s₁ h₁ => ?_
  split
  · exact ensures_done.mpr (h₁.deferred hdecoded)
  have hskipped : ∀ c, HasWire (HoldsData data) fragment pending c →
      HasWire (HoldsData data) fragment pending
        { c with
            flags := { c.flags with deferredInbound := false }
            inbound := skipNonDataHeadBuffers c.inbound } := by
    intro c hc
    obtain ⟨buf, hbuf, hdata⟩ := hc.chain
    refine ⟨hc.ready, hc.fragment, hc.pending, ?_⟩
    rw [OneBuffer.skipNonDataHeadBuffers hbuf]
    exact hc.chain
  refine Ensures.bind (h₁.modify hskipped) fun _ s₂ h₂ => ?_
  rw [(h.1 hlive).ready, Bool.not_true, Bool.and_false, if_neg Bool.false_ne_true, if_pos rfl]
  exact commProcessWebsocketInput_pongs henv budget h₂ hdecoded

end

/-! ### Runs -/

/-- A connection behind its upgrade: the slot, the Pongs tried so far, all the bytes the client has sent,
what the last call of `comm_process_input` made of them, and whether any call has reported the end. -/
structure PingRun (ρ : Type) where
  world : World ρ
  notes : List PongNote
  stream : Bytes
  answer : Option ProcessResult
  ended : Bool

/-- What happens to the connection: bytes arrive, input is processed, other code works on the slot. -/
inductive PingMove (ρ : Type) where
  | read (src : Bytes)
  | process (budget : Option Nat)
  | other (change : World ρ → World ρ) (same : ∀ w, SameWire w.comm (change w).comm)

/-- Nothing is answered yet. The upgrade request may have been followed by frames in the same read. -/
def PingRun.start (w : World ρ) (stream : Bytes) : PingRun ρ :=
  { world := w, notes := [], stream, answer := none, ended := false }

/-- One move. -/
def pingStep (setup : Setup) (env : Surroundings ρ) (depth : Nat) (s : PingRun ρ) :
    PingMove ρ → Option (PingRun ρ)
  | .read src =>
    ((refillInboundBuffersFromSrc setup src).eval (slotHandler setup env depth) s.world).map fun r =>
      { s with world := r.2, stream := s.stream ++ src, answer := none }
  | .process budget =>
    ((commProcessInput setup budget).eval (pongHandler setup env depth) (s.world, s.notes)).map
      fun r =>
        { s with
            world := r.2.1
            notes := r.2.2
            answer := some r.1
            ended := s.ended || r.1 = .closed || r.1 = .error }
  | .other change _ => some { s with world := change s.world }

/-- The moves one after the other. -/
def pingRun (setup : Setup) (env : Surroundings ρ) (depth : Nat) (s : PingRun ρ)
    (moves : List (PingMove ρ)) : Option (PingRun ρ) :=
  moves.foldlM (pingStep setup env depth) s

/-- What the inbound buffer has room for may be read, and input may be processed until the end is
reported. -/
def PingMove.careful (s : PingRun ρ) : PingMove ρ → Bool
  | .read src => inboundBytes s.world.comm.inbound + src.length ≤ bufferSize
  | .process _ => !s.ended
  | .other _ _ => true

/-- Every move of the run is careful. -/
def carefulRun (setup : Setup) (env : Surroundings ρ) (depth : Nat) (s : PingRun ρ) :
    List (PingMove ρ) → Bool
  | [] => true
  | move :: rest => move.careful s &&
    match pingStep setup env depth s move with
    | none => true
    | some s' => carefulRun setup env depth s' rest

/-- The Pongs that are queued. -/
def queuedPongs (notes : List PongNote) : List Bytes :=
  (notes.filter PongNote.queued).map PongNote.payload

/-- What holds in every state of a careful run. -/
structure PingRun.Sound (s : PingRun ρ) : Prop where
  soFar : attempts s.notes <+: pingsBefore s.stream
  complete : s.answer = some .ok ∨ (s.answer = some .closed ∧ s.world.comm.live = true) →
    attempts s.notes = pingsBefore s.stream
  received : s.ended = false → s.world.comm.live = true →
    Received s.stream (attempts s.notes) s.world.comm

/-- A read that fits goes to the end of what is held. -/
theorem refill_received {w w' : World ρ} {src : Bytes} {refilled : Bool}
    (hfits : inboundBytes w.comm.inbound + src.length ≤ bufferSize) (hlive : w.comm.live = true)
    (h : Received stream pongs w.comm)
    (heval : (refillInboundBuffersFromSrc setup src).eval (slotHandler setup env depth) w
      = some (refilled, w')) : Received (stream ++ src) pongs w'.comm := by
  obtain ⟨fragment, pending, data, hwire, hdecoded⟩ := h
  obtain ⟨buf, hbuf, hdata⟩ := hwire.chain
  have hlength : inboundBytes w.comm.inbound = buf.data.length := by
    rcases hbuf with hbuf | ⟨hbuf, rfl⟩
    · rw [hbuf, inboundBytes, List.map_singleton, List.sum_singleton]
    · rw [hbuf]
      rfl
  obtain ⟨_, _, heval', -, buf', rfl, hfilled⟩ := refill_copies w hlive
    (by simp [parsesTelnet, hwire.ready]) (by simp [hwire.ready]) buf hbuf src
  rw [heval] at heval'
  cases heval'
  rw [hlength] at hfits
  rw [List.take_of_length_le (by omega), hdata] at hfilled
  refine ⟨fragment, pending, data ++ src, ?_, ?_⟩
  · exact ⟨hwire.ready, hwire.fragment, hwire.pending, buf', .inl rfl, hfilled⟩
  · rw [← List.append_assoc]
    exact hdecoded.append src

/-- On a slot that is gone nothing is read. -/
theorem refill_dead {w w' : World ρ} {src : Bytes} {refilled : Bool} (hdead : w.comm.live = false)
    (heval : (refillInboundBuffersFromSrc setup src).eval (slotHandler setup env depth) w
      = some (refilled, w')) : w' = w := by
  have hrefused : Returns (slotHandler setup env depth) (refillInboundBuffersFromSrc setup src) w
      fun _ w' => w' = w := by
    simp [refillInboundBuffersFromSrc, commGuard, hdead, returns_done]
  obtain ⟨_, _, heval', rfl⟩ := hrefused
  rw [heval] at heval'
  cases heval'
  rfl

theorem PingRun.Sound.step (henv : env.KeepsWire) {s s' : PingRun ρ} (h : s.Sound)
    {move : PingMove ρ} (hcareful : move.careful s = true)
    (hstep : pingStep setup env depth s move = some s') : s'.Sound := by
  cases move with
  | read src =>
    obtain ⟨⟨refilled, w'⟩, heval, rfl⟩ := Option.map_eq_some_iff.mp hstep
    refine ⟨h.soFar.trans (pingsBefore_append _ _), nofun, fun hopen hlive' => ?_⟩
    cases hlive : s.world.comm.live with
    | true => exact refill_received (of_decide_eq_true hcareful) hlive (h.received hopen hlive) heval
    | false =>
      rw [refill_dead hlive heval, hlive] at hlive'
      cases hlive'
  | process budget =>
    obtain ⟨⟨result, s₁⟩, heval, rfl⟩ := Option.map_eq_some_iff.mp hstep
    have hopen : s.ended = false := by simpa [PingMove.careful] using hcareful
    have hanswered : Answered s.stream result s₁ := by
      cases hlive : s.world.comm.live with
      | true =>
        obtain ⟨fragment, pending, data, hwire, hdecoded⟩ := h.received hopen hlive
        exact commProcessInput_pongs henv budget ⟨fun _ => hwire, rfl⟩ hdecoded _ _ heval
      | false =>
        have hdead : Ensures (pongHandler setup env depth) (commProcessInput setup budget)
            (s.world, s.notes) (Answered s.stream) :=
          ensures_pong_guard (fun _ => ensures_done.mpr (answered_error h.soFar)) fun hlive' =>
            absurd hlive' (Bool.eq_false_iff.mp hlive)
        exact hdead _ _ heval
    refine ⟨hanswered.soFar, ?_, ?_⟩
    · simpa using hanswered.complete
    · intro hended hlive
      simp only [hopen, Bool.false_or, Bool.or_eq_false_iff, decide_eq_false_iff_not] at hended
      refine hanswered.received ?_ hlive
      cases result with
      | ok => exact .inl rfl
      | deferred => exact .inr rfl
      | closed => exact absurd rfl hended.1
      | error => exact absurd rfl hended.2
  | other change same =>
    cases hstep
    have hsame := same s.world
    refine ⟨h.soFar, ?_, fun hopen hlive => ?_⟩
    · exact fun hanswer => h.complete (hanswer.imp_right fun hclosed =>
        ⟨hclosed.1, hsame.live hclosed.2⟩)
    · obtain ⟨fragment, pending, data, hwire, hdecoded⟩ := h.received hopen (hsame.live hlive)
      exact ⟨fragment, pending, data, Wired.same (fun _ => hwire) hsame hlive, hdecoded⟩

theorem PingRun.Sound.run (henv : env.KeepsWire) {s s' : PingRun ρ} (h : s.Sound)
    {moves : List (PingMove ρ)} (hcareful : carefulRun setup env depth s moves = true)
    (hrun : pingRun setup env depth s moves = some s') : s'.Sound := by
  induction moves generalizing s with
  | nil =>
    cases hrun
    exact h
  | cons move rest ih =>
    obtain ⟨s₁, hstep, hrest⟩ := Option.bind_eq_some_iff.mp hrun
    simp only [carefulRun, hstep, Bool.and_eq_true] at hcareful
    exact ih (h.step henv hcareful.1 hstep) hcareful.2 hrest

theorem queuedPongs_eq_attempts {notes : List PongNote}
    (hroom : ∀ note ∈ notes, note.queued = true) : queuedPongs notes = attempts notes := by
  rw [queuedPongs, attempts, List.filter_eq_self.mpr hroom]

/-- Take a connection behind its upgrade, and a run in which every read fits the inbound buffer, no input
is processed after the end was reported, and the outbound queue has room for every Pong. In every state of
the run the Pongs queued are the Pings received, in their order, up to some Ping in front of the first Close or
invalid frame. None of them is missing when the last call answered `COMM_PROCESS_OK`, or
`COMM_PROCESS_CLOSED` with the slot still there. -/
theorem pings_are_answered_once (setup : Setup) (env : Surroundings ρ) (depth : Nat)
    (henv : env.KeepsWire) (w : World ρ) (early : Bytes)
    (hupgraded : HasWire (HoldsData early) {} [] w.comm) (moves : List (PingMove ρ)) (s : PingRun ρ)
    (hrun : pingRun setup env depth (.start w early) moves = some s)
    (hcareful : carefulRun setup env depth (.start w early) moves = true)
    (hroom : ∀ note ∈ s.notes, note.queued = true) :
    queuedPongs s.notes <+: pingsBefore s.stream ∧
      (s.answer = some .ok ∨ (s.answer = some .closed ∧ s.world.comm.live = true) →
        queuedPongs s.notes = pingsBefore s.stream) := by
  have hstart : (PingRun.start w early).Sound :=
    { soFar := List.nil_prefix
      complete := by simp [PingRun.start]
      received := fun _ _ => ⟨{}, [], early, hupgraded, decodedTo_start early⟩ }
  have hsound := hstart.run henv hcareful hrun
  rw [queuedPongs_eq_attempts hroom]
  exact ⟨hsound.soFar, hsound.complete⟩

theorem chatSurroundings_keepsWire : chatSurroundings.KeepsWire := by
  intro β e comm outside _
  cases e with
  | runHook call =>
    exact sameWire_of_exec (e := SlotEffect.write true [111, 107, 10]) (a := .unit) (b := ()) rfl rfl
  | _ => exact .refl comm

/-- A masked Ping with one byte. -/
def maskedPing : Bytes := [0x89, 0x81, 0, 0, 0, 0, 1]

/-- A masked Close without payload. -/
def maskedClose : Bytes := [0x88, 0x80, 0, 0, 0, 0]

/-- A slot behind its upgrade that has received nothing. -/
def upgradedWorld : World Unit where
  comm :=
    { rbio := true
      wbio := true
      flags := { enableWebsocket := true, lineInput := true, websocketState := .ready }
      websocket := some {} }
  entries := []
  reads := []
  outside := ()

/-- A Ping in two reads, with a call of `comm_process_input` behind each of them. -/
theorem pings_are_answered_once_two_reads :
    ∃ s, pingRun chatSetup chatSurroundings 4 (.start upgradedWorld [])
        [.read (maskedPing.take 3), .process none, .read (maskedPing.drop 3), .process none] = some s ∧
      pingsBefore s.stream = [[1]] ∧ queuedPongs s.notes = pingsBefore s.stream := by
  obtain ⟨s, hrun⟩ : ∃ s, pingRun chatSetup chatSurroundings 4 (.start upgradedWorld [])
      [.read (maskedPing.take 3), .process none, .read (maskedPing.drop 3), .process none] = some s :=
    Option.isSome_iff_exists.mp (by decide +kernel)
  have hfacts : ((pingRun chatSetup chatSurroundings 4 (.start upgradedWorld [])
      [.read (maskedPing.take 3), .process none, .read (maskedPing.drop 3), .process none]).map fun s =>
        (pingsBefore s.stream, s.answer, s.notes)) = some ([[1]], some .ok, [⟨[1], true⟩]) := by
    decide +kernel
  rw [hrun, Option.map_some, Option.some.injEq, Prod.mk.injEq, Prod.mk.injEq] at hfacts
  obtain ⟨hpings, hanswer, hnotes⟩ := hfacts
  have honce := pings_are_answered_once chatSetup chatSurroundings 4 chatSurroundings_keepsWire
    upgradedWorld [] ⟨rfl, rfl, rfl, .empty, .inr ⟨rfl, rfl⟩, rfl⟩ _ s hrun (by decide +kernel)
    (by simp [hnotes])
  exact ⟨s, hrun, hpings, honce.2 (.inl hanswer)⟩

/-- A Ping and a Close in one read. While the slot drains, `comm_process_input` is called once more and
queues the Pong again. -/
theorem ping_is_answered_twice :
    (pingRun chatSetup chatSurroundings 4 (.start upgradedWorld [])
      [.read (maskedPing ++ maskedClose), .process none, .process none]).map
        (fun s => (s.world.comm.live, pingsBefore s.stream, queuedPongs s.notes))
      = some (true, [[1]], [[1], [1]]) := by
  decide +kernel

end Mudmux.Comm
