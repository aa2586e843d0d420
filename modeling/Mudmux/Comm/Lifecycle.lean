import Mudmux.Comm.Input

/-!
# `Mudmux.Comm.Lifecycle`: connecting, flushing, closing, and the event loop's work on a slot

The code that runs the life of a slot: `comm_invoke_connect`, `comm_invoke_transport_ready`,
`comm_invoke_prompt`, `comm_flush`, `comm_close_impl`, the slot's part of `mudmux_run`, and the
public calls a hook or another thread may make on the slot. `unfold` gives the three recursive
functions their bodies.

The event interest of the descriptor, the log and the shutdown request of a console that reads a
file are left out: nothing here depends on them.
-/

set_option autoImplicit false

namespace Mudmux.Comm

open Mudmux.Lib
open Program (effect)

/-! ### Connecting -/

/-- `comm_invoke_transport_ready`. -/
def commInvokeTransportReady (setup : Setup) : Code Unit := do
  match ← commGuard with
  | none => pure ()
  | some comm =>
    if comm.flags.closing || comm.flags.transportReady then pure ()
    else if comm.ssl && !comm.flags.tlsEstablished then pure ()
    else if comm.flags.enableWebsocket && !comm.flags.websocketState.isReady then pure ()
    else do
      setComm (comm.mapFlags fun flags =>
        { flags with
            transportReady := true
            awaitingHook := flags.awaitingHook || setup.relaxed })
      let result ← mudmuxExecutionDispatch setup .transportReady
        (if setup.relaxed then .transportReady else .none)
      if !result.accepted then
        modifyFlags fun flags => { flags with transportReady := false, awaitingHook := false }
      else pure ()

/-- `comm_invoke_connect`. -/
def commInvokeConnect (setup : Setup) : Code Unit := do
  if setup.relaxed then do
    match ← commGuard with
    | none => pure ()
    | some comm => setComm (comm.mapFlags fun flags => { flags with awaitingHook := true })
  else pure ()
  let result ← mudmuxExecutionDispatch setup .connect (if setup.relaxed then .connect else .none)
  if setup.relaxed then
    if !result.accepted then do
      match ← commGuard with
      | none => pure ()
      | some comm => setComm (comm.mapFlags fun flags => { flags with awaitingHook := false })
    else pure ()
  else effect .callTransportReady

/-- This slot's part of `comm_invoke_prompt`: a prompt is shown when the slot is idle. -/
def commInvokePrompt (setup : Setup) : Code Unit := do
  match ← commGuard with
  | none => pure ()
  | some comm =>
    if !comm.flags.enablePrompt || comm.flags.invokedPrompt then pure ()
    else if comm.flags.bufferedWrite || comm.flags.awaitingHook || !comm.outbound.isEmpty
        || !comm.websocketUpgradeBarrier.isEmpty || commHasPendingInbound comm then pure ()
    else if ← effect .slotBusy then pure ()
    else do
      let result ← mudmuxExecutionDispatch setup .prompt .none
      if result.accepted then modifyFlags fun flags => { flags with invokedPrompt := true }
      else pure ()

/-! ### Flushing -/

/-- `comm_tls_handshake_step`: established, waiting, or failed. -/
def commTlsHandshakeStep : Code HandshakeStep := do
  match ← commGuard with
  | none => pure .failed
  | some comm =>
    if !comm.ssl || comm.flags.tlsEstablished then pure .established
    else
      match ← effect .sslHandshake with
      | .established => do
        modifyFlags fun flags => { flags with tlsEstablished := true }
        effect .callTransportReady
        pure .established
      | step => pure step

/-- The end of `comm_flush`: without a descriptor behind the write BIO nothing is updated. -/
def finishFlush : Code Unit := do
  let comm ← commDeref
  if comm.wbioFd && comm.outbound.isEmpty then
    setComm (comm.mapFlags fun flags => { flags with bufferedWrite := false })
  else pure ()

/-- `comm_flush` from its write loop on. -/
def flushQueue : Code Unit := do
  effect .drain
  let comm ← commDeref
  let pending := comm.outbound.isEmpty && comm.flags.websocketState = .telnetPending
  if pending then modifyFlags fun flags => { flags with websocketState := .ready } else pure ()
  if pending && !comm.flags.closing then do
    -- the Telnet negotiation that waited for the 101 response to drain
    commStartTelnetNegotiation
    effect .callFlush
  else if comm.outbound.isEmpty && comm.flags.websocketState.isReady
      && !comm.websocketUpgradeBarrier.isEmpty then do
    effect .releaseBarrier
    effect .callTransportReady
    match ← commGuard with
    | none => pure ()
    | some _ => effect .callFlush
  else do
    if comm.outbound.isEmpty && comm.flags.websocketState.isReady then effect .callTransportReady
    else pure ()
    finishFlush

/-- `comm_flush`. A TLS slot first has to finish its handshake. -/
def commFlush : Code Unit := do
  match ← commGuard with
  | none => pure ()
  | some comm =>
    if !comm.wbio then pure ()
    else if comm.ssl && !comm.flags.tlsEstablished && !comm.flags.closing then do
      match ← commTlsHandshakeStep with
      | .established => flushQueue
      | _ => pure ()
    else flushQueue

/-! ### Closing -/

/-- What `comm_close_impl` does once the disconnect hook is behind it: drain, exchange WebSocket
Close frames, remove. The answer says whether the slot was removed. -/
def finishClose (setup : Setup) : Code Bool := do
  let comm ← commDeref
  if comm.flags.awaitingHook then pure false
  else if setup.console then do
    effect .freeOutbound
    modifyFlags fun flags => { flags with bufferedWrite := false }
    if setup.fileInputs then effect .remove else pure ()
    pure setup.fileInputs
  else if comm.flags.bufferedWrite && !(comm.ssl && !comm.flags.tlsEstablished) then pure false
  else do
    if comm.flags.bufferedWrite then do
      effect .freeOutbound
      modifyFlags fun flags => { flags with bufferedWrite := false }
    else pure ()
    match comm.flags.websocketState with
    | .ready | .telnetPending => do
      effect (.queueClose (closePayload 1000))
      pure false
    | .closeSent => pure false
    | .handshake | .closeReceived => do
      effect .remove
      pure true

/-- `comm_close_impl`, the same for `comm_close` and `comm_close_after_console_eof` up to the
signal to the console worker. -/
def commClose (setup : Setup) : Code Bool := do
  match ← commGuard with
  | none => pure true
  | some comm =>
    if !comm.flags.closing || comm.flags.disconnectPending then do
      setComm (comm.mapFlags fun flags =>
        { flags with closing := true, disconnectPending := false })
      effect .cancelAwait
      modifyFlags fun flags => { flags with awaitingHook := true }
      let result ← mudmuxExecutionDispatch setup .disconnect .disconnect
      if result = .queueFull then do
        modifyFlags fun flags => { flags with disconnectPending := true, awaitingHook := false }
        pure false
      else do
        if !result.accepted then modifyFlags fun flags => { flags with awaitingHook := false }
        else pure ()
        modifyFlags fun flags => { flags with enablePrompt := false }
        if result = .queued then pure false else finishClose setup
    else finishClose setup

/-- The bodies of the functions the code of a slot calls recursively. -/
def unfold (setup : Setup) : {β : Type} → SlotEffect β → Option (Code β)
  | _, .callFlush => some commFlush
  | _, .callClose => some (commClose setup)
  | _, .callTransportReady => some (commInvokeTransportReady setup)
  | _, _ => none

end Mudmux.Comm
