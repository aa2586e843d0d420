import Mudmux.Comm.Machine
import Mudmux.Proofs.StrictDispatch

/-!
# `Mudmux.Proofs.SlotReuse`: what a new connection inherits from the last one

A slot number is used again and again. `comm_abstract_remove` clears the record piece by piece and
`comm_abstract_add_bio` sets the rest, but neither touches the capabilities that the last client
negotiated: they are the only thing a new connection inherits (`addBio_after_remove`). Without them
the records agree up to the generation, and code that does not look at the generation cannot tell
them apart (`IgnoresGeneration`).
-/

set_option autoImplicit false

namespace Mudmux.Comm

open Mudmux.Lib
open Mudmux.Lib.Program (effect)

/-! ### The record of a slot that is used again -/

/-- The record with another generation. -/
def CommAbstract.withGeneration (comm : CommAbstract) (generation : Nat) : CommAbstract :=
  { comm with generation }

variable (comm : CommAbstract)

/-- Up to the generation, the record of a new connection is that on a slot number used for the first
time, with the old capabilities. -/
theorem addBio_after_remove (rbio wbio wbioFd : Bool) (flags : Flags) (generation : Nat) :
    (commAbstractAddBio (commAbstractRemove comm) rbio wbio wbioFd flags).withGeneration generation
      = { (commAbstractAddBio {} rbio wbio wbioFd flags).withGeneration generation with
          caps := comm.caps } := rfl

/-- The records agree exactly if the last client left no capability. -/
theorem addBio_after_remove_eq_iff (rbio wbio wbioFd : Bool) (flags : Flags) (generation : Nat) :
    (commAbstractAddBio (commAbstractRemove comm) rbio wbio wbioFd flags).withGeneration generation
        = (commAbstractAddBio {} rbio wbio wbioFd flags).withGeneration generation
      ↔ comm.caps = {} := by
  rw [addBio_after_remove]
  constructor
  · intro h
    exact congrArg CommAbstract.caps h
  · intro h
    rw [h]
    rfl

/-! ### Code that does not look at the generation -/

variable {ρ : Type} {setup : Setup} {env : Surroundings ρ} {depth : Nat}

/-- The world with another generation of the slot. -/
def World.withGeneration (w : World ρ) (generation : Nat) : World ρ :=
  { w with comm := w.comm.withGeneration generation }

/-- The code does the same on a record of another generation. -/
def IgnoresGeneration (setup : Setup) (env : Surroundings ρ) (depth : Nat) {α : Type}
    (p : Code α) : Prop :=
  ∀ (w : World ρ) (generation : Nat),
    p.eval (slotHandler setup env depth) (w.withGeneration generation)
      = (p.eval (slotHandler setup env depth) w).map fun r => (r.1, r.2.withGeneration generation)

theorem ignoresGeneration_pure {α : Type} (a : α) :
    IgnoresGeneration setup env depth (pure a : Code α) := fun _ _ => rfl

theorem IgnoresGeneration.bind {α β : Type} {p : Code α} {f : α → Code β}
    (hp : IgnoresGeneration setup env depth p) (hf : ∀ a, IgnoresGeneration setup env depth (f a)) :
    IgnoresGeneration setup env depth (p >>= f) := by
  intro w generation
  rw [Program.eval_bind, Program.eval_bind, hp w generation]
  cases p.eval (slotHandler setup env depth) w with
  | none => rfl
  | some r => exact hf r.1 r.2 generation

/-- An optional step in front of the rest of the code. -/
theorem ignoresGeneration_optional {α : Type} {b : Prop} [Decidable b] {p : Code Unit}
    {f : Unit → Code α} (hp : IgnoresGeneration setup env depth p)
    (hf : ∀ u, IgnoresGeneration setup env depth (f u)) :
    IgnoresGeneration setup env depth (if b then p >>= f else f ()) := by
  split
  · exact hp.bind hf
  · exact hf ()

/-- Code behind the guard that reads anything of the record but its generation. -/
theorem ignoresGeneration_guard {α : Type} {f : Option CommAbstract → Code α}
    (hsame : ∀ comm generation, f (some (comm.withGeneration generation)) = f (some comm))
    (hf : ∀ comm, IgnoresGeneration setup env depth (f comm)) :
    IgnoresGeneration setup env depth (commGuard >>= f) := by
  have hguard : ∀ w : World ρ, (commGuard >>= f).eval (slotHandler setup env depth) w
      = (f (if w.comm.live then some w.comm else none)).eval (slotHandler setup env depth) w := by
    intro w
    rw [commGuard, Program.bind_assoc', Program.effect_bind, Program.eval_perform,
      slotHandler_of_unfold_none _ rfl]
    rfl
  intro w generation
  rw [hguard, hguard]
  have hlive : (w.withGeneration generation).comm.live = w.comm.live := rfl
  rw [hlive]
  cases w.comm.live with
  | false => exact hf none w generation
  | true =>
    rw [if_pos rfl, if_pos rfl, ← hf (some w.comm) w generation]
    exact congrArg (Program.eval _ · _) (hsame w.comm generation)

/-- A change of the flags. -/
theorem ignoresGeneration_modifyFlags (f : Flags → Flags) :
    IgnoresGeneration setup env depth (modifyFlags f) := by
  have hmodify : ∀ w : World ρ, (modifyFlags f).eval (slotHandler setup env depth) w
      = if w.comm.live then some ((), { w with comm := w.comm.mapFlags f }) else none := by
    intro w
    rw [modifyFlags, modifyComm, commDeref, Program.bind_assoc', Program.effect_bind,
      Program.eval_perform, slotHandler_of_unfold_none _ rfl]
    show Program.eval _ ((if w.comm.live then pure w.comm
      else _) >>= fun comm => setComm (comm.mapFlags f)) w = _
    split
    · show (setComm _).eval _ w = _
      rw [setComm, effect, Program.eval_perform, slotHandler_of_unfold_none _ rfl]
      rfl
    · rw [Program.perform_bind, Program.eval_perform, slotHandler_of_unfold_none _ rfl]
      rfl
  intro w generation
  rw [hmodify, hmodify]
  have hlive : (w.withGeneration generation).comm.live = w.comm.live := rfl
  rw [hlive]
  cases w.comm.live <;> rfl

theorem commBufferedWriteRaw_withGeneration (buf : Bytes) (generation : Nat) :
    commBufferedWriteRaw (comm.withGeneration generation) buf
      = (commBufferedWriteRaw comm buf).withGeneration generation := by
  simp only [commBufferedWriteRaw, apply_ite (CommAbstract.withGeneration · generation)]
  rfl

theorem appendWebsocketUpgradeBarrier_withGeneration (data : Bytes) (generation : Nat) :
    appendWebsocketUpgradeBarrier (comm.withGeneration generation) data
      = (appendWebsocketUpgradeBarrier comm data).withGeneration generation := by
  simp only [appendWebsocketUpgradeBarrier, apply_ite (CommAbstract.withGeneration · generation)]
  rfl

/-- A queued write looks at the flags and the queues. -/
theorem commBufferedWriteImpl_withGeneration (normalize : Bool) (comm : CommAbstract) (buf : Bytes)
    (generation : Nat) :
    commBufferedWriteImpl normalize (comm.withGeneration generation) buf
      = (commBufferedWriteImpl normalize comm buf).withGeneration generation := by
  have hflags : (comm.withGeneration generation).flags = comm.flags := rfl
  simp only [commBufferedWriteImpl, hflags]
  generalize (if normalize && comm.flags.enableTelnet then normalizeTelnetNewlines buf else buf)
    = out
  cases commWebsocketEncodeFrame out opBinary <;>
    simp only [commBufferedWriteRaw_withGeneration, appendWebsocketUpgradeBarrier_withGeneration] <;>
    split_ifs <;> rfl

theorem ignoresGeneration_write (normalize : Bool) (buf : Bytes) :
    IgnoresGeneration setup env depth (effect (.write normalize buf)) := by
  have hwrite : ∀ w : World ρ, (effect (.write normalize buf)).eval (slotHandler setup env depth) w
      = some ((), { w with comm := ifLive w.comm (commBufferedWriteImpl normalize · buf) }) := by
    intro w
    rw [effect, Program.eval_perform, slotHandler_of_unfold_none _ rfl]
    rfl
  intro w generation
  rw [hwrite, hwrite]
  have hqueue : ifLive (w.withGeneration generation).comm (commBufferedWriteImpl normalize · buf)
      = (ifLive w.comm (commBufferedWriteImpl normalize · buf)).withGeneration generation := by
    show (if w.comm.live then _ else _) = _
    rw [ifLive]
    split
    · exact commBufferedWriteImpl_withGeneration normalize w.comm buf generation
    · rfl
  rw [hqueue]
  rfl

/-! ### The calls that set the input mode -/

theorem ignoresGeneration_commTelnetSend (command option : Byte) :
    IgnoresGeneration setup env depth (commTelnetSend command option) := by
  refine ignoresGeneration_guard (fun _ _ => rfl) fun comm => ?_
  cases comm with
  | none => exact ignoresGeneration_pure ()
  | some comm =>
    show IgnoresGeneration setup env depth (if !comm.wbio then pure () else _)
    split
    · exact ignoresGeneration_pure ()
    · exact ignoresGeneration_write false _

theorem ignoresGeneration_commTelnetSendSubnegotiation (option : Byte) (data : Bytes) :
    IgnoresGeneration setup env depth (commTelnetSendSubnegotiation option data) := by
  refine ignoresGeneration_guard (fun _ _ => rfl) fun comm => ?_
  cases comm with
  | none => exact ignoresGeneration_pure ()
  | some comm =>
    show IgnoresGeneration setup env depth (if !comm.wbio || data.isEmpty then pure () else _)
    split
    · exact ignoresGeneration_pure ()
    · exact (ignoresGeneration_write false _).bind fun _ =>
        (ignoresGeneration_write false _).bind fun _ => ignoresGeneration_write false _

theorem ignoresGeneration_negotiateTelnetLineInput (enable : Bool) :
    IgnoresGeneration setup env depth (negotiateTelnetLineInput comm enable) := by
  have hnothing : IgnoresGeneration setup env depth (pure () : Code Unit) :=
    ignoresGeneration_pure ()
  rw [negotiateTelnetLineInput]
  split
  · split
    · exact ignoresGeneration_commTelnetSendSubnegotiation _ _
    · exact hnothing
  · refine ignoresGeneration_optional (ignoresGeneration_commTelnetSendSubnegotiation _ _)
      fun _ => ?_
    split
    · exact ignoresGeneration_commTelnetSend _ _
    · exact hnothing

theorem ignoresGeneration_commSetEcho (echo : Bool) :
    IgnoresGeneration setup env depth (commSetEcho setup echo) := by
  refine ignoresGeneration_guard (fun _ _ => rfl) fun comm => ?_
  have hend : ∀ u : Unit, IgnoresGeneration setup env depth (do
      modifyFlags fun flags => { flags with clientEcho := echo }
      pure true) :=
    fun _ => (ignoresGeneration_modifyFlags _).bind fun _ => ignoresGeneration_pure true
  cases comm with
  | none => exact ignoresGeneration_pure false
  | some comm =>
    show IgnoresGeneration setup env depth
      (if setup.console && !setup.consoleTty then pure false else _)
    split
    · exact ignoresGeneration_pure false
    · dsimp only
      split
      · split
        · exact (ignoresGeneration_commTelnetSend _ _).bind hend
        · split
          · exact (ignoresGeneration_commTelnetSend _ _).bind hend
          · exact hend ()
      · exact hend ()

theorem ignoresGeneration_commSetLineInput (echo : Bool) :
    IgnoresGeneration setup env depth (commSetLineInput setup echo) := by
  refine ignoresGeneration_guard (fun _ _ => rfl) fun comm => ?_
  cases comm with
  | none => exact ignoresGeneration_pure false
  | some comm =>
    dsimp only
    split
    · exact ignoresGeneration_commSetEcho echo
    · split
      · exact ignoresGeneration_pure false
      · refine ignoresGeneration_optional (ignoresGeneration_negotiateTelnetLineInput comm true)
          fun _ => ?_
        exact (ignoresGeneration_modifyFlags _).bind fun _ => ignoresGeneration_commSetEcho echo

theorem ignoresGeneration_commSetCharInput :
    IgnoresGeneration setup env depth (commSetCharInput setup) := by
  refine ignoresGeneration_guard (fun _ _ => rfl) fun comm => ?_
  cases comm with
  | none => exact ignoresGeneration_pure false
  | some comm =>
    dsimp only
    split
    · exact ignoresGeneration_commSetEcho false
    · split
      · exact ignoresGeneration_pure false
      · split
        · refine (ignoresGeneration_negotiateTelnetLineInput comm false).bind fun _ => ?_
          exact (ignoresGeneration_modifyFlags _).bind fun _ => ignoresGeneration_pure true
        · exact (ignoresGeneration_modifyFlags _).bind fun _ =>
            ignoresGeneration_commSetEcho false

/-- The calls that set the input mode and the echo. -/
inductive ModeCall where
  | setEcho (echo : Bool)
  | setLineInput (echo : Bool)
  | setCharInput
  deriving DecidableEq, Repr

def ModeCall.code (setup : Setup) : ModeCall → Code Bool
  | .setEcho echo => commSetEcho setup echo
  | .setLineInput echo => commSetLineInput setup echo
  | .setCharInput => commSetCharInput setup

/-- Such calls one after the other. -/
def modeCalls (setup : Setup) : List ModeCall → Code Unit
  | [] => pure ()
  | call :: calls => do
    let _ ← call.code setup
    modeCalls setup calls

theorem ignoresGeneration_modeCalls (calls : List ModeCall) :
    IgnoresGeneration setup env depth (modeCalls setup calls) := by
  induction calls with
  | nil => exact ignoresGeneration_pure ()
  | cons call calls ih =>
    have hcall : IgnoresGeneration setup env depth (call.code setup) := by
      cases call with
      | setEcho echo => exact ignoresGeneration_commSetEcho echo
      | setLineInput echo => exact ignoresGeneration_commSetLineInput echo
      | setCharInput => exact ignoresGeneration_commSetCharInput
    exact hcall.bind fun _ => ih

/-- What the calls queue for the transport, from a record in given surroundings. -/
def modeBytes (setup : Setup) (env : Surroundings ρ) (depth : Nat) (calls : List ModeCall)
    (w : World ρ) (comm : CommAbstract) : Option Bytes :=
  ((modeCalls setup calls).eval (slotHandler setup env depth) { w with comm }).map fun r =>
    r.2.comm.outboundData

theorem modeBytes_withGeneration (calls : List ModeCall) (w : World ρ) (comm : CommAbstract)
    (generation : Nat) :
    modeBytes setup env depth calls w (comm.withGeneration generation)
      = modeBytes setup env depth calls w comm := by
  have hignores : IgnoresGeneration setup env depth (modeCalls setup calls) :=
    ignoresGeneration_modeCalls calls
  have heval := hignores { w with comm } generation
  rw [modeBytes, modeBytes]
  show Option.map _ (Program.eval _ _ (World.withGeneration { w with comm } generation)) = _
  rw [heval, Option.map_map]
  rfl

/-- A server that registers no hook. -/
def silentSetup : Setup where
  relaxed := false
  registered _ := false
  console := false
  fileInputs := false
  consoleTty := false
  acceptKey := id
  mbrlen _ := .complete 1

/-- No notes are taken. -/
def noNotes : Observer Unit
  | _, _, _, _, _, _ => ()

/-- The client answers `IAC DO ECHO` whenever it is read from, and takes all output. -/
def echoClient {β : Type} (_ : SlotState Unit) :
    SlotEffect β → (slotSystem silentSetup noNotes).Move
  | .runHook _ => .answer (.bool true)
  | .slotBusy => .answer (.bool false)
  | .drain => .answer (.writes [])
  | .transportRead => .answer (.read (.data ⟨[telnetIAC, telnetDO, TELOPT_ECHO], by decide⟩))
  | _ => .answer .unit

/-- A Telnet connection on which the application asks for echo. -/
def echoConnection : List Entry :=
  [.accept { enableTelnet := true, lineInput := true }, .api ⟨none, false⟩ (.setEcho true)]

/-- A Telnet connection that agrees to the echo option and is closed. -/
def negotiatingConnection : List Entry :=
  [.accept { enableTelnet := true, lineInput := true }, .event ⟨true, false, false⟩,
    .api ⟨none, false⟩ .close]

end Mudmux.Comm
