import Mudmux.Proofs.StrictDispatch
import Mudmux.Proofs.Telnet

/-!
# `Mudmux.Proofs.Refill`: what a refill puts into the buffer of a text slot

A text slot has one inbound buffer. `refill_plain` says what `_refill_inbound_buffers_from_src` does
on a plain slot: it fills the buffer to its capacity and reports whether everything fitted.

On a Telnet slot the fill loop calls the parser once an iteration. `telnetRefill` is that loop
without the slot around it: it keeps the buffer, the parser state and the results of the calls, and
`refill_telnet` says that the code does the same and enters the subnegotiation hook for every call
that collected bytes.
-/

set_option autoImplicit false

namespace Mudmux.Comm

open Mudmux.Lib
open Mudmux.Lib.Program (Returns returns_done returns_bind effect)

variable {buf : Cells} {comm : CommAbstract} {r : TelnetResult} {src : Bytes}

/-! ### Preparing the buffer -/

variable (ibb : InboundBuffer)

@[simp] theorem prepareInbound_band :
    (prepareInbound ibb).band = ibb.band := rfl

/-- An empty buffer starts anew, one whose write cursor is at the end moves its contents to the
front, and any other stays as it is. -/
theorem prepareInbound_cases :
    (ibb.buf.data = [] ∧ (prepareInbound ibb).buf = .empty) ∨
      (ibb.buf.data ≠ [] ∧ ibb.buf.stop = bufferSize ∧ 0 < ibb.buf.start ∧
        (prepareInbound ibb).buf = ibb.buf.compact) ∨
      (ibb.buf.data ≠ [] ∧ ¬ (ibb.buf.stop = bufferSize ∧ 0 < ibb.buf.start) ∧
        (prepareInbound ibb).buf = ibb.buf) := by
  by_cases hempty : ibb.buf.data = []
  · refine .inl ⟨hempty, ?_⟩
    simp [prepareInbound, hempty]
  · by_cases hcompact : ibb.buf.stop = bufferSize ∧ 0 < ibb.buf.start
    · refine .inr (.inl ⟨hempty, hcompact.1, hcompact.2, ?_⟩)
      simp [prepareInbound, hempty, hcompact]
    · refine .inr (.inr ⟨hempty, hcompact, ?_⟩)
      simp only [prepareInbound, List.isEmpty_iff, hempty, if_false, Bool.and_eq_true,
        decide_eq_true_eq, gt_iff_lt, hcompact]

@[simp] theorem prepareInbound_data : (prepareInbound ibb).buf.data = ibb.buf.data := by
  rcases prepareInbound_cases ibb with ⟨hempty, hbuf⟩ | ⟨_, _, _, hbuf⟩ | ⟨_, _, hbuf⟩
  · rw [hbuf, hempty, LinearBuffer.empty_data]
  · rw [hbuf, LinearBuffer.compact_data]
  · rw [hbuf]

/-- After the preparation a buffer has no room only if it is full. -/
theorem prepareInbound_room_eq_zero :
    (prepareInbound ibb).buf.room = 0 ↔ ibb.buf.data.length = bufferSize := by
  have hfits := ibb.buf.fits
  have hpos : 0 < bufferSize := by decide
  rcases prepareInbound_cases ibb with ⟨hempty, hbuf⟩ | ⟨_, hstop, hstart, hbuf⟩ | ⟨_, hstay, hbuf⟩
  · rw [hbuf, hempty, LinearBuffer.empty_room, List.length_nil]
    omega
  · rw [hbuf, LinearBuffer.compact_room, LinearBuffer.free]
    rw [LinearBuffer.stop] at hstop
    omega
  · rw [hbuf, LinearBuffer.room]
    rw [LinearBuffer.stop] at hstay ⊢
    omega

/-- The room never exceeds the capacity that the held bytes leave. -/
theorem prepareInbound_room_le :
    (prepareInbound ibb).buf.room ≤ bufferSize - ibb.buf.data.length := by
  have hle := (prepareInbound ibb).buf.room_le_free
  rwa [LinearBuffer.free, prepareInbound_data] at hle

/-- A chain of one data buffer, prepared. -/
theorem seekData_single (buf : Cells) :
    seekData 0 [⟨.data, buf⟩] = (0, [prepareInbound ⟨.data, buf⟩]) := rfl

/-- The slot has at most one inbound buffer, and a refill fills `buf`. -/
def OneBuffer (comm : CommAbstract) (buf : Cells) : Prop :=
  comm.inbound = [⟨.data, buf⟩] ∨ comm.inbound = [] ∧ buf = .empty

section

variable (h : OneBuffer comm buf)

include h

theorem OneBuffer.chain :
    (if comm.inbound.isEmpty then [InboundBuffer.fresh] else comm.inbound) = [⟨.data, buf⟩] := by
  rcases h with h | ⟨h, rfl⟩
  · rw [h]
    rfl
  · rw [h]
    rfl

/-- A copy of the inbound data with room for a buffer is the buffer's data. -/
theorem OneBuffer.copyInboundData {limit : Nat} (hlimit : bufferSize ≤ limit) :
    commCopyInboundDataPrefix comm limit = buf.data := by
  have hfits : buf.data.length ≤ limit := Nat.le_trans buf.length_le hlimit
  have hpos : limit ≠ 0 := by simp only [bufferSize] at hlimit; omega
  rcases h with h | ⟨h, rfl⟩
  · rw [commCopyInboundDataPrefix, h, Comm.copyInboundData, if_neg hpos]
    by_cases hnone : buf.data = []
    · simp [hnone, Comm.copyInboundData]
    · simp [hnone, Comm.copyInboundData, Nat.min_eq_left hfits]
  · rw [commCopyInboundDataPrefix, h]
    rfl

/-- Consuming all of the data leaves a chain without data. -/
theorem OneBuffer.consumeInboundData :
    ∃ buf' : Cells, buf'.data = [] ∧
      OneBuffer { comm with inbound := Comm.consumeInboundData buf.data.length comm.inbound } buf' := by
  rcases h with h | ⟨h, rfl⟩
  · by_cases hnone : buf.data = []
    · exact ⟨buf, hnone, .inl (by simp [h, hnone, Comm.consumeInboundData])⟩
    · exact ⟨.empty, rfl, .inr ⟨by simp [h, hnone, Comm.consumeInboundData], rfl⟩⟩
  · exact ⟨.empty, rfl, .inr ⟨by rw [h, Comm.consumeInboundData], rfl⟩⟩

theorem OneBuffer.skipNonDataHeadBuffers :
    Comm.skipNonDataHeadBuffers comm.inbound = comm.inbound := by
  rcases h with h | ⟨h, -⟩ <;> rw [h] <;> rfl

end

/-! ### A plain slot -/

variable {ρ : Type} {setup : Setup} {env : Surroundings ρ} {depth : Nat}

/-- The world with another buffer in place of the slot's. -/
def World.withBuffer (w : World ρ) (buf : Cells) : World ρ :=
  { w with comm := { w.comm with inbound := [⟨.data, buf⟩] } }

/-- Filling `room` bytes and then up to the capacity is filling up to the capacity. -/
theorem take_fill {room capacity : Nat} (src : Bytes) (hroom : room ≤ capacity) :
    src.take room ++ (src.drop room).take (capacity - (src.take room).length)
      = src.take capacity := by
  rcases Nat.le_total src.length room with hshort | hlong
  · rw [List.take_of_length_le hshort, List.drop_of_length_le hshort, List.take_nil,
      List.append_nil, List.take_of_length_le (Nat.le_trans hshort hroom)]
  · rw [List.length_take, Nat.min_eq_left hlong, ← List.take_add, Nat.add_sub_cancel' hroom]

theorem drop_fill {room capacity : Nat} (src : Bytes) (hroom : room ≤ capacity) :
    (src.drop room).drop (capacity - (src.take room).length) = src.drop capacity := by
  rcases Nat.le_total src.length room with hshort | hlong
  · rw [List.drop_of_length_le hshort, List.drop_nil, List.drop_of_length_le (Nat.le_trans hshort hroom)]
  · rw [List.length_take, Nat.min_eq_left hlong, List.drop_drop, Nat.add_sub_cancel' hroom]

variable {w : World ρ}

theorem World.withBuffer_self (hbuf : w.comm.inbound = [⟨.data, buf⟩]) : w.withBuffer buf = w := by
  rw [World.withBuffer, ← hbuf]

/-- Without the Telnet parser the fill loop fills the buffer to its capacity. -/
theorem refillLoop_copies (fuel : Nat) (w : World ρ) (hlive : w.comm.live = true) {paused : Bool}
    (hcopies : parsesTelnet w.comm.flags paused = false) (buf : Cells)
    (hbuf : w.comm.inbound = [⟨.data, buf⟩]) (src : Bytes) (hfuel : src.length ≤ fuel) :
    Returns (slotHandler setup env depth) (refillLoop setup fuel 0 src paused) w
      fun left w' => left = src.drop (bufferSize - buf.data.length) ∧ ∃ buf',
        w' = w.withBuffer buf' ∧
          buf'.data = buf.data ++ src.take (bufferSize - buf.data.length) := by
  induction fuel generalizing w buf src with
  | zero =>
    rw [List.length_eq_zero_iff.mp (Nat.le_zero.mp hfuel)]
    exact returns_done.mpr ⟨by simp, buf, (World.withBuffer_self hbuf).symm, by simp⟩
  | succ fuel ih =>
    cases src with
    | nil => exact returns_done.mpr ⟨by simp, buf, (World.withBuffer_self hbuf).symm, by simp⟩
    | cons b src =>
      obtain ⟨buf₁, hbuf₁⟩ : ∃ buf₁, prepareInbound ⟨.data, buf⟩ = ⟨.data, buf₁⟩ := ⟨_, rfl⟩
      have hdata₁ : buf₁.data = buf.data := by
        rw [← prepareInbound_data ⟨.data, buf⟩, hbuf₁]
      have hroom := prepareInbound_room_eq_zero ⟨.data, buf⟩
      have hle := prepareInbound_room_le ⟨.data, buf⟩
      rw [hbuf₁] at hroom hle
      dsimp only at hroom hle
      rw [refillLoop, List.isEmpty_cons, if_neg Bool.false_ne_true, refillStep,
        returns_commDeref hlive]
      simp only [hbuf, seekData_single, hbuf₁, List.getElem?_cons_zero, hcopies]
      split
      case isTrue hfull =>
        have hcapacity : bufferSize - buf.data.length = 0 := by
          rw [hroom.mp hfull, Nat.sub_self]
        rw [returns_setComm, Program.pure_eq, returns_done, hcapacity]
        exact ⟨rfl, buf₁, rfl, by simp [hdata₁]⟩
      case isFalse hfree =>
        rw [if_neg Bool.false_ne_true, returns_setComm]
        obtain ⟨buf₂, hbuf₂⟩ : ∃ buf₂, buf₁.append ((b :: src).take buf₁.room)
            (List.length_take_le _ _) = buf₂ := ⟨_, rfl⟩
        have hdata₂ : buf₂.data = buf.data ++ (b :: src).take buf₁.room := by
          rw [← hbuf₂, LinearBuffer.append_data, hdata₁]
        have hleft : bufferSize - buf₂.data.length
            = bufferSize - buf.data.length - ((b :: src).take buf₁.room).length := by
          rw [hdata₂, List.length_append, Nat.sub_sub]
        have hshort : ((b :: src).drop buf₁.room).length ≤ fuel := by
          rw [List.length_drop]
          omega
        have hrest := ih (w.withBuffer buf₂) hlive hcopies buf₂ rfl ((b :: src).drop buf₁.room)
          hshort
        rw [hleft, drop_fill _ hle, hdata₂, List.append_assoc, take_fill _ hle] at hrest
        rw [hbuf₂]
        exact hrest

/-- `_refill_inbound_buffers_from_src` without the Telnet parser: the buffer is filled to its capacity,
and then a pending upgrade is tried. -/
theorem refill_fills (w : World ρ) (hlive : w.comm.live = true)
    (hcopies : parsesTelnet w.comm.flags false = false) (buf : Cells) (hbuf : OneBuffer w.comm buf)
    (src : Bytes) {Q : Bool → World ρ → Prop} (hupgrade : ∀ buf' : Cells,
      buf'.data = buf.data ++ src.take (bufferSize - buf.data.length) →
      Returns (slotHandler setup env depth)
        (if w.comm.flags.enableWebsocket && !w.comm.flags.websocketState.isReady then
          commTryUpgradeWebsocket setup
        else pure ()) (w.withBuffer buf')
        fun _ w' => Q (decide (buf.data.length + src.length ≤ bufferSize)) w') :
    Returns (slotHandler setup env depth) (refillInboundBuffersFromSrc setup src) w Q := by
  have hlength := buf.length_le
  rw [refillInboundBuffersFromSrc, returns_commGuard hlive]
  simp only [hbuf.chain, returns_setComm, refillPosition]
  refine (refillLoop_copies src.length (w.withBuffer buf) hlive hcopies buf rfl src
    (Nat.le_refl _)).bind fun left w' h => ?_
  obtain ⟨hleft, buf', rfl, hdata⟩ := h
  have haccepted : left.isEmpty = decide (buf.data.length + src.length ≤ bufferSize) := by
    rw [hleft, Bool.eq_iff_iff, List.isEmpty_iff, List.drop_eq_nil_iff, decide_eq_true_eq]
    omega
  rw [returns_commDeref (by exact hlive)]
  have htried := hupgrade buf' hdata
  rw [← haccepted] at htried
  by_cases hpending : (w.comm.flags.enableWebsocket && !w.comm.flags.websocketState.isReady) = true
  · rw [if_pos hpending] at htried
    rw [if_pos (by exact hpending)]
    exact htried.bind fun _ _ h => returns_done.mpr h
  · rw [if_neg hpending, Program.pure_eq, returns_done] at htried
    rw [if_neg (by exact hpending)]
    exact returns_done.mpr htried

/-- Without a pending upgrade that is all. -/
theorem refill_copies (w : World ρ) (hlive : w.comm.live = true)
    (hcopies : parsesTelnet w.comm.flags false = false)
    (hpending : (w.comm.flags.enableWebsocket && !w.comm.flags.websocketState.isReady) = false)
    (buf : Cells) (hbuf : OneBuffer w.comm buf) (src : Bytes) :
    Returns (slotHandler setup env depth) (refillInboundBuffersFromSrc setup src) w
      fun accepted w' => accepted = decide (buf.data.length + src.length ≤ bufferSize) ∧ ∃ buf',
        w' = w.withBuffer buf' ∧
          buf'.data = buf.data ++ src.take (bufferSize - buf.data.length) := by
  apply refill_fills w hlive hcopies buf hbuf src
  intro buf' hdata
  rw [hpending, if_neg Bool.false_ne_true]
  exact returns_done.mpr ⟨rfl, buf', rfl, hdata⟩

/-- `_refill_inbound_buffers_from_src` on a plain slot. -/
theorem refill_plain (w : World ρ) (hslot : TextSlot w.comm)
    (hplain : w.comm.flags.enableTelnet = false) (buf : Cells)
    (hbuf : OneBuffer w.comm buf) (src : Bytes) :
    Returns (slotHandler setup env depth) (refillInboundBuffersFromSrc setup src) w
      fun accepted w' => accepted = decide (buf.data.length + src.length ≤ bufferSize) ∧ ∃ buf',
        w' = w.withBuffer buf' ∧
          buf'.data = buf.data ++ src.take (bufferSize - buf.data.length) :=
  refill_copies w hslot.live (by simp [parsesTelnet, hplain]) (by simp [hslot.noWebsocket]) buf hbuf
    src

/-! ### What the Telnet branch does besides filling -/

/-- The code keeps the input, enters no hook and does not turn to the outside. -/
def ReturnsQuietly (setup : Setup) (env : Surroundings ρ) (depth : Nat) (sameMode : Prop)
    {α : Type} (code : Code α) (w : World ρ) : Prop :=
  Returns (slotHandler setup env depth) code w fun _ w' =>
    InputKept sameMode w.comm w'.comm ∧ w' = { w with comm := w'.comm }

variable {α : Type}

section Options

variable {sameMode : Prop} (hslot : TextSlot w.comm)

include hslot

theorem ReturnsQuietly.pure (a : α) : ReturnsQuietly setup env depth sameMode (.done a) w :=
  returns_done.mpr ⟨InputKept.refl hslot, rfl⟩

omit hslot in
theorem ReturnsQuietly.seq {β : Type} {p : Code α} {f : α → Code β}
    (hp : ReturnsQuietly setup env depth sameMode p w)
    (hf : ∀ a w', TextSlot w'.comm → ReturnsQuietly setup env depth sameMode (f a) w') :
    ReturnsQuietly setup env depth sameMode (p >>= f) w := by
  apply Returns.bind hp
  intro a w₁ h₁
  apply (hf a w₁ h₁.1.textSlot).mono
  intro _ w₂ h₂
  refine ⟨h₁.1.trans h₂.1, ?_⟩
  rw [h₂.2, h₁.2]

theorem write_quiet (normalize : Bool) (buf : Bytes) :
    ReturnsQuietly setup env depth sameMode (effect (.write normalize buf)) w := by
  rw [ReturnsQuietly, effect, returns_write, returns_done]
  exact ⟨InputKept.of_write hslot normalize buf, rfl⟩

theorem modifyCaps_quiet (f : ClientCapabilities → ClientCapabilities) :
    ReturnsQuietly setup env depth sameMode (modifyCaps f) w := by
  rw [ReturnsQuietly, modifyCaps, modifyComm, returns_commDeref hslot.live, setComm, effect,
    returns_setSlot, returns_done]
  exact ⟨⟨{ hslot with }, rfl, rfl, rfl, rfl, rfl, fun _ => rfl⟩, rfl⟩

theorem commTelnetSendSubnegotiation_quiet (option : Byte) (data : Bytes) :
    ReturnsQuietly setup env depth sameMode (commTelnetSendSubnegotiation option data) w := by
  rw [ReturnsQuietly, commTelnetSendSubnegotiation, returns_commGuard hslot.live]
  dsimp only
  split
  · exact ReturnsQuietly.pure hslot ()
  · refine (write_quiet hslot false _).seq fun _ w₁ hslot₁ => ?_
    refine (write_quiet hslot₁ false _).seq fun _ w₂ hslot₂ => ?_
    exact write_quiet hslot₂ false _

/-- `comm_process_telnet_options` changes the capabilities and may send a subnegotiation. -/
theorem commProcessTelnetOptions_quiet (neg : TelnetNegotiation) :
    ReturnsQuietly setup env depth sameMode (commProcessTelnetOptions neg) w := by
  rw [ReturnsQuietly, commProcessTelnetOptions, returns_commGuard hslot.live]
  have hecho : ∀ w₁ : World ρ, TextSlot w₁.comm →
      ReturnsQuietly setup env depth sameMode
        (if TelnetNegotiation.hasOption neg.doo TELOPT_ECHO then
          modifyCaps fun caps => { caps with telnetEcho := true }
        else if TelnetNegotiation.hasOption neg.dont TELOPT_ECHO then
          modifyCaps fun caps => { caps with telnetEcho := false }
        else pure ()) w₁ := by
    intro w₁ hslot₁
    split
    · exact modifyCaps_quiet hslot₁ _
    · split
      · exact modifyCaps_quiet hslot₁ _
      · exact ReturnsQuietly.pure hslot₁ ()
  dsimp only
  split
  · refine (modifyCaps_quiet hslot _).seq fun _ w₁ hslot₁ => ?_
    split
    · exact (commTelnetSendSubnegotiation_quiet hslot₁ _ _).seq fun _ w₂ => hecho w₂
    · exact hecho w₁ hslot₁
  · split
    · exact (modifyCaps_quiet hslot _).seq fun _ w₁ => hecho w₁
    · exact hecho w hslot

/-- Quiet code that is skipped or not, and code behind it. -/
theorem returns_optional_quiet {Q : α → World ρ → Prop} {b : Prop} [Decidable b] {p : Code Unit}
    {f : Unit → Code α} (hp : ReturnsQuietly setup env depth sameMode p w)
    (hf : ∀ comm, InputKept sameMode w.comm comm →
      Returns (slotHandler setup env depth) (f ()) { w with comm } Q) :
    Returns (slotHandler setup env depth) (if b then p >>= f else f ()) w Q := by
  split
  · apply Returns.bind hp
    rintro _ w' ⟨hkept, hw'⟩
    rw [hw']
    exact hf w'.comm hkept
  · exact hf w.comm (InputKept.refl hslot)

/-- The hook entered for the bytes a parser call collected: the first of them is the option. -/
def subnegEntered (setup : Setup) (block : Bytes) (comm : CommAbstract) :
    List (HookCall × CommAbstract) :=
  match block with
  | [] => []
  | option :: payload => enteredBy setup (.telnetSubneg option payload) comm

theorem commDispatchTelnetSubnegotiation_returns (henv : env.KeepsInput sameMode)
    (hstrict : setup.relaxed = false) (neg : TelnetNegotiation) :
    Returns (slotHandler setup env (depth + 1)) (commDispatchTelnetSubnegotiation setup neg) w
      fun result w' => result ≠ .queueFull ∧
        w.Keeps sameMode (subnegEntered setup neg.suboptBuf w.comm) w' := by
  rw [commDispatchTelnetSubnegotiation]
  cases neg.suboptBuf with
  | nil => exact returns_done.mpr ⟨by simp, World.Keeps.refl hslot⟩
  | cons option payload =>
    dsimp only
    cases hreg : setup.registered .telnetSubneg with
    | false =>
      have hnone : subnegEntered setup (option :: payload) w.comm = [] := by
        simp [subnegEntered, enteredBy, HookCall.hookType, hreg]
      rw [hnone]
      exact returns_done.mpr ⟨by simp, World.Keeps.refl hslot⟩
    | true =>
      rw [Bool.not_true, if_neg Bool.false_ne_true]
      refine (mudmuxExecutionDispatch_returns henv hslot hstrict _).bind fun result w₁ h₁ => ?_
      simp only [h₁.1, if_false]
      exact returns_done.mpr h₁

end Options

/-! ### A Telnet slot -/

/-- What the fill loop of a Telnet slot leaves: the buffer, the parser state, the results of the
parser calls, and the bytes that found no room. -/
structure TelnetRefill where
  buf : Cells
  state : TelnetState
  calls : List TelnetResult
  left : Bytes

/-- The parser call of an iteration: it is offered as many bytes as the prepared buffer has room
for. -/
def refillCall (buf : Cells) (state : TelnetState) (src : Bytes) :
    TelnetResult :=
  commTelnetProcessInbound (src.take (min src.length (prepareInbound ⟨.data, buf⟩).buf.room))
    state .zero

theorem refillCall_fits (buf : Cells) (state : TelnetState) (src : Bytes) :
    (refillCall buf state src).dest.length ≤ (prepareInbound ⟨.data, buf⟩).buf.room :=
  commTelnetProcessInbound_fits src _ state

/-- The buffer after that call. -/
def refillBuffer (buf : Cells) (state : TelnetState) (src : Bytes) :
    Cells :=
  (prepareInbound ⟨.data, buf⟩).buf.append (refillCall buf state src).dest
    (refillCall_fits buf state src)

/-- The fill loop of a Telnet slot without the slot. -/
def telnetRefill : Nat → Cells → TelnetState → Bytes → TelnetRefill
  | 0, buf, state, src => ⟨buf, state, [], src⟩
  | fuel + 1, buf, state, src =>
    if src.isEmpty then ⟨buf, state, [], []⟩
    else if (prepareInbound ⟨.data, buf⟩).buf.room = 0 then
      ⟨(prepareInbound ⟨.data, buf⟩).buf, state, [], src⟩
    else
      let r := refillCall buf state src
      let t := telnetRefill fuel (refillBuffer buf state src) r.state (src.drop r.consumed)
      { t with calls := r :: t.calls }

variable {state : TelnetState}

theorem telnetRefill_step (fuel : Nat) (hsrc : src ≠ [])
    (hroom : (prepareInbound ⟨.data, buf⟩).buf.room ≠ 0) (hr : refillCall buf state src = r)
    {t : TelnetRefill}
    (ht : telnetRefill fuel (refillBuffer buf state src) r.state (src.drop r.consumed) = t) :
    telnetRefill (fuel + 1) buf state src = { t with calls := r :: t.calls } := by
  subst hr ht
  rw [telnetRefill, if_neg (by simpa using hsrc), if_neg hroom]

/-- The record after a refill, as far as the parsers read it: another buffer and another parser
state. -/
def CommAbstract.refilled (comm : CommAbstract) (buf : Cells)
    (state : TelnetState) : CommAbstract :=
  { comm with
      inbound := [⟨.data, buf⟩]
      flags := { comm.flags with telnetState := state } }

/-- A refill goes on where another one left off. -/
theorem InputKept.of_refilled {sameMode : Prop} {comm comm' comm'' : CommAbstract}
    {buf buf' : Cells} {state' : TelnetState}
    (h : InputKept sameMode (comm'.refilled buf' state') comm'')
    (hkept : InputKept sameMode (comm.refilled buf state) comm') :
    InputKept sameMode (comm.refilled buf' state') comm'' where
  textSlot := h.textSlot
  inbound := h.inbound
  ssl := h.ssl.trans hkept.ssl
  enableTelnet := h.enableTelnet.trans hkept.enableTelnet
  telnetState := h.telnetState
  awaitingHook := h.awaitingHook.trans hkept.awaitingHook
  lineInput hmode := (h.lineInput hmode).trans (hkept.lineInput hmode)

/-- The hooks entered for the calls of a refill, each seen with the parser state at its entry. -/
def subnegCalls (setup : Setup) (calls : List TelnetResult) : List (HookCall × TelnetState) :=
  if setup.registered .telnetSubneg then
    calls.filterMap fun r =>
      match r.neg.suboptBuf with
      | [] => none
      | option :: payload => some (.telnetSubneg option payload, r.state)
  else []

/-- A refill of a Telnet slot kept everything but the buffer and the parser state, and entered the
subnegotiation hook for its parser calls. -/
structure World.Refilled (setup : Setup) (sameMode : Prop) (r : TelnetRefill) (w w' : World ρ) :
    Prop where
  input : InputKept sameMode (w.comm.refilled r.buf r.state) w'.comm
  entries : ∃ entered, w'.entries = w.entries ++ entered ∧
    entered.map (fun e => (e.1, e.2.flags.telnetState)) = subnegCalls setup r.calls
  reads : w'.reads = w.reads

theorem subnegCalls_cons (setup : Setup) (r : TelnetResult) (calls : List TelnetResult)
    (comm : CommAbstract) (hstate : comm.flags.telnetState = r.state) :
    (subnegEntered setup r.neg.suboptBuf comm).map (fun e => (e.1, e.2.flags.telnetState))
        ++ subnegCalls setup calls
      = subnegCalls setup (r :: calls) := by
  cases hreg : setup.registered .telnetSubneg <;> cases hblock : r.neg.suboptBuf <;>
    simp [subnegCalls, subnegEntered, enteredBy, HookCall.hookType, hreg, hblock, hstate]

/-- The option commands and the subnegotiation of a parser call. -/
def afterCall (setup : Setup) (r : TelnetResult) : Code DispatchResult := do
  if r.consumed > r.dest.length then commProcessTelnetOptions r.neg else pure ()
  commDispatchTelnetSubnegotiation setup r.neg

theorem afterCall_bind (r : TelnetResult) (k : DispatchResult → Code α) :
    (if r.consumed > r.dest.length then
      commProcessTelnetOptions r.neg >>= fun _ => commDispatchTelnetSubnegotiation setup r.neg >>= k
    else commDispatchTelnetSubnegotiation setup r.neg >>= k) = afterCall setup r >>= k := by
  rw [afterCall]
  split
  · exact (Program.bind_assoc' _ _ _).symm
  · rfl

variable {again : Nat → Bytes → Bool → Code Bytes} {Q : Bytes → World ρ → Prop}

/-- One iteration of the fill loop that passes bytes to the Telnet parser. The parser state is stored before
the hook runs, and the write cursor moves behind it. -/
theorem refillStep_calls (hlive : w.comm.live = true)
    (hparses : parsesTelnet w.comm.flags false = true) (hbuf : w.comm.inbound = [⟨.data, buf⟩])
    (hroom : (prepareInbound ⟨.data, buf⟩).buf.room ≠ 0)
    (hr : refillCall buf w.comm.flags.telnetState src = r)
    (hcall : Returns (slotHandler setup env depth) (afterCall setup r)
      { w with comm := w.comm.refilled (prepareInbound ⟨.data, buf⟩).buf r.state }
      fun result w₁ => w₁.comm.live = true ∧ w₁.comm.inbound = [prepareInbound ⟨.data, buf⟩] ∧
        Returns (slotHandler setup env depth)
          (again 0 (src.drop r.consumed) (decide (result = .queueFull)))
          { w₁ with
              comm := { w₁.comm with
                inbound := [⟨.data, refillBuffer buf w.comm.flags.telnetState src⟩]
                flags := { w₁.comm.flags with
                  deferredInbound := w₁.comm.flags.deferredInbound || result = .queueFull } } } Q) :
    Returns (slotHandler setup env depth) (refillStep setup again 0 src false) w Q := by
  have hfilled : InboundBuffer.mk .data (refillBuffer buf w.comm.flags.telnetState src)
      = { prepareInbound ⟨.data, buf⟩ with
          buf := (prepareInbound ⟨.data, buf⟩).buf.append
            (commTelnetProcessInbound
              (src.take (min src.length (prepareInbound ⟨.data, buf⟩).buf.room))
              w.comm.flags.telnetState .zero).dest (commTelnetProcessInbound_fits src _ _) } := rfl
  have hoffered : commTelnetProcessInbound
      (src.take (min src.length (prepareInbound ⟨.data, buf⟩).buf.room))
      w.comm.flags.telnetState .zero = r := hr
  rw [refillStep, returns_commDeref hlive]
  simp only [hbuf, seekData_single, List.getElem?_cons_zero, hparses, if_neg hroom, if_true]
  rw [← hfilled]
  simp only [hoffered, returns_setComm]
  rw [afterCall_bind]
  apply hcall.bind
  rintro result w₁ ⟨hlive₁, hinbound, hagain⟩
  rw [Bool.false_or]
  split
  case isTrue hfull =>
    rw [returns_deferInbound hlive₁, returns_modifyComm (by exact hlive₁)]
    simpa [hinbound, hfull, CommAbstract.mapFlags] using hagain
  case isFalse hqueued =>
    rw [returns_modifyComm hlive₁]
    simpa [hinbound, hqueued] using hagain

/-- The same for a text slot. `D` says what the dispatch does. -/
theorem refillStep_parses {sameMode : Prop} (hslot : TextSlot w.comm)
    (htelnet : w.comm.flags.enableTelnet = true) (hbuf : w.comm.inbound = [⟨.data, buf⟩])
    (hroom : (prepareInbound ⟨.data, buf⟩).buf.room ≠ 0)
    (hr : refillCall buf w.comm.flags.telnetState src = r)
    {D : DispatchResult → World ρ → World ρ → Prop} (hdispatch : ∀ w₁ : World ρ, TextSlot w₁.comm →
      Returns (slotHandler setup env depth) (commDispatchTelnetSubnegotiation setup r.neg) w₁
        fun result w₂ => InputKept sameMode w₁.comm w₂.comm ∧ D result w₁ w₂)
    (hnext : ∀ (result : DispatchResult) (comm comm' : CommAbstract) (w₂ : World ρ),
      comm.flags.telnetState = r.state → D result { w with comm } w₂ →
      InputKept sameMode
        (w.comm.refilled (refillBuffer buf w.comm.flags.telnetState src) r.state) comm' →
      Returns (slotHandler setup env depth)
        (again 0 (src.drop r.consumed) (decide (result = .queueFull))) { w₂ with comm := comm' }
        Q) : Returns (slotHandler setup env depth) (refillStep setup again 0 src false) w Q := by
  have hparses : parsesTelnet w.comm.flags false = true := by
    simp [parsesTelnet, htelnet, hslot.noWebsocket, hslot.noFrames, WebSocketState.isReady]
  apply refillStep_calls hslot.live hparses hbuf hroom hr
  have hslot₁ : TextSlot
      (World.comm { w with comm := w.comm.refilled (prepareInbound ⟨.data, buf⟩).buf r.state }) :=
    { hslot with }
  rw [afterCall]
  refine returns_optional_quiet hslot₁ (commProcessTelnetOptions_quiet hslot₁ r.neg)
    fun comm (hcomm : InputKept sameMode _ comm) => ?_
  apply (hdispatch _ hcomm.textSlot).mono
  rintro result w₂ ⟨hkept, hD⟩
  have hin := hcomm.trans hkept
  have ht := hin.textSlot
  refine ⟨ht.live, hin.inbound, hnext result comm _ w₂ hcomm.telnetState hD ?_⟩
  exact { hin with textSlot := { ht with }, inbound := rfl }

section Telnet

variable {sameMode : Prop} (henv : env.KeepsInput sameMode) (hstrict : setup.relaxed = false)

include henv hstrict

/-- One iteration of the fill loop of a strict-mode Telnet slot: no dispatch is refused. -/
theorem refillStep_telnet (hslot : TextSlot w.comm) (htelnet : w.comm.flags.enableTelnet = true)
    (hbuf : w.comm.inbound = [⟨.data, buf⟩]) (hroom : (prepareInbound ⟨.data, buf⟩).buf.room ≠ 0)
    (hr : refillCall buf w.comm.flags.telnetState src = r)
    (hnext : ∀ (comm : CommAbstract) (w' : World ρ), comm.flags.telnetState = r.state →
      InputKept sameMode
        (w.comm.refilled (refillBuffer buf w.comm.flags.telnetState src) r.state) w'.comm →
      w'.entries = w.entries ++ subnegEntered setup r.neg.suboptBuf comm →
      w'.reads = w.reads →
      Returns (slotHandler setup env (depth + 1)) (again 0 (src.drop r.consumed) false) w' Q) :
    Returns (slotHandler setup env (depth + 1)) (refillStep setup again 0 src false) w Q := by
  have hdispatch : ∀ w₁ : World ρ, TextSlot w₁.comm →
      Returns (slotHandler setup env (depth + 1)) (commDispatchTelnetSubnegotiation setup r.neg) w₁
        fun result w₂ => InputKept sameMode w₁.comm w₂.comm ∧ result ≠ .queueFull ∧
          w₁.Keeps sameMode (subnegEntered setup r.neg.suboptBuf w₁.comm) w₂ := by
    intro w₁ hslot₁
    apply (commDispatchTelnetSubnegotiation_returns hslot₁ henv hstrict r.neg).mono
    intro result w₂ h
    exact ⟨h.2.input, h⟩
  apply refillStep_parses hslot htelnet hbuf hroom hr hdispatch
  rintro result comm comm' w₂ hstate ⟨hresult, hkeeps⟩ hkept
  rw [decide_eq_false hresult]
  exact hnext comm _ hstate hkept hkeeps.entries hkeeps.reads

omit henv hstrict in
/-- No parser call was made. -/
theorem World.Refilled.of_buffer (hslot : TextSlot w.comm) (buf : Cells) (left : Bytes) :
    w.Refilled setup sameMode ⟨buf, w.comm.flags.telnetState, [], left⟩ (w.withBuffer buf) := by
  refine ⟨⟨{ hslot with },
    rfl, rfl, rfl, rfl, rfl, fun _ => rfl⟩, ⟨[], (List.append_nil _).symm, ?_⟩, rfl⟩
  simp [subnegCalls]

omit henv hstrict in
theorem World.Refilled.refl (hslot : TextSlot w.comm) (hbuf : w.comm.inbound = [⟨.data, buf⟩])
    (left : Bytes) : w.Refilled setup sameMode ⟨buf, w.comm.flags.telnetState, [], left⟩ w := by
  have hstay : w.Refilled setup sameMode ⟨buf, w.comm.flags.telnetState, [], left⟩
      (w.withBuffer buf) := .of_buffer hslot buf left
  rwa [World.withBuffer_self hbuf] at hstay

omit henv hstrict in
/-- A parser call and its hook came before. -/
theorem World.Refilled.after_call {w' w'' : World ρ} {t : TelnetRefill}
    (h : w'.Refilled setup sameMode t w'') (hstate : comm.flags.telnetState = r.state)
    (hkept : InputKept sameMode (w.comm.refilled buf state) w'.comm)
    (hentries : w'.entries = w.entries ++ subnegEntered setup r.neg.suboptBuf comm)
    (hreads : w'.reads = w.reads) :
    w.Refilled setup sameMode { t with calls := r :: t.calls } w'' where
  input := h.input.of_refilled hkept
  entries := by
    obtain ⟨entered, hentered, hcalls⟩ := h.entries
    refine ⟨subnegEntered setup r.neg.suboptBuf comm ++ entered, ?_, ?_⟩
    · rw [hentered, hentries, List.append_assoc]
    · rw [List.map_append, hcalls, subnegCalls_cons setup r t.calls comm hstate]
  reads := h.reads.trans hreads

/-- The fill loop of a Telnet slot is `telnetRefill`. -/
theorem refillLoop_telnet (fuel : Nat) (w : World ρ) (hslot : TextSlot w.comm)
    (htelnet : w.comm.flags.enableTelnet = true) (buf : Cells)
    (hbuf : w.comm.inbound = [⟨.data, buf⟩]) (src : Bytes) :
    Returns (slotHandler setup env (depth + 1)) (refillLoop setup fuel 0 src false) w
      fun left w' =>
        left = (telnetRefill fuel buf w.comm.flags.telnetState src).left ∧
          w.Refilled setup sameMode (telnetRefill fuel buf w.comm.flags.telnetState src) w' := by
  induction fuel generalizing w buf src with
  | zero => exact returns_done.mpr ⟨rfl, .refl hslot hbuf src⟩
  | succ fuel ih =>
    rw [refillLoop, telnetRefill]
    split
    · exact returns_done.mpr ⟨rfl, .refl hslot hbuf []⟩
    · split
      case isTrue hfull =>
        rw [refillStep, returns_commDeref hslot.live]
        simp only [hbuf, seekData_single, List.getElem?_cons_zero, if_pos hfull, returns_setComm]
        exact returns_done.mpr ⟨rfl, .of_buffer hslot _ src⟩
      case isFalse hroom =>
        apply refillStep_telnet henv hstrict hslot htelnet hbuf hroom rfl
        intro comm w' hstate hkept hentries hreads
        have hloop := ih w' hkept.textSlot (hkept.enableTelnet.trans htelnet) _ hkept.inbound
          (src.drop (refillCall buf w.comm.flags.telnetState src).consumed)
        refine hloop.mono fun left w'' h => ?_
        have hstate' : w'.comm.flags.telnetState
            = (refillCall buf w.comm.flags.telnetState src).state := hkept.telnetState
        rw [hstate'] at h
        exact ⟨h.1, h.2.after_call hstate hkept hentries hreads⟩

/-- `_refill_inbound_buffers_from_src` on a Telnet slot. -/
theorem refill_telnet (w : World ρ) (hslot : TextSlot w.comm)
    (htelnet : w.comm.flags.enableTelnet = true) (buf : Cells)
    (hbuf : OneBuffer w.comm buf) (src : Bytes) :
    Returns (slotHandler setup env (depth + 1)) (refillInboundBuffersFromSrc setup src) w
      fun accepted w' =>
        accepted = (telnetRefill src.length buf w.comm.flags.telnetState src).left.isEmpty ∧
          w.Refilled setup sameMode (telnetRefill src.length buf w.comm.flags.telnetState src) w' := by
  rw [refillInboundBuffersFromSrc, returns_commGuard hslot.live]
  simp only [hbuf.chain, returns_setComm, refillPosition]
  have hslot' : TextSlot (w.withBuffer buf).comm :=
    { hslot with }
  refine (refillLoop_telnet henv hstrict src.length (w.withBuffer buf) hslot' htelnet buf rfl
    src).bind fun left w' h => ?_
  have ht := h.2.input.textSlot
  rw [returns_commDeref ht.live]
  simp only [ht.noWebsocket, Bool.false_and, Bool.false_eq_true, if_false]
  refine returns_done.mpr ⟨by rw [h.1]; rfl, ?_⟩
  have hin := h.2.input
  exact ⟨{ hin with textSlot := ht }, h.2.entries, h.2.reads⟩

end Telnet

end Mudmux.Comm
