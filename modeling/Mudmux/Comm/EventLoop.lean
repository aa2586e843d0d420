import Mudmux.Comm.Lifecycle

/-!
# `Mudmux.Comm.EventLoop`: what happens to a slot

Everything that starts code on a slot: the slot's part of one iteration of `mudmux_run`, the
console and file input, and the public calls of `mudmux_comm_api_v1_t` that a hook or another
thread may make. Each runs with `comm_slots_mtx` held from its beginning to its end.

A public call carries what it knows about its caller: the hook the calling thread is in, and
whether that hook's current slot is this slot.
-/

set_option autoImplicit false

namespace Mudmux.Comm

open Mudmux.Lib
open Program (effect)

/-! ### Reading the transport -/

/-- The read loop of a TLS slot. -/
def refillTls (setup : Setup) : List Chunk → Bool → Code Bool
  | [], opened => pure opened
  | piece :: pieces, opened => do
    if piece.data.isEmpty then pure true
    else if ← refillInboundBuffersFromSrc setup piece.data then refillTls setup pieces opened
    else pure false

/-- `comm_refill_inbound_buffers` without a source: one read of the transport, or through TLS
whatever is decrypted. A socket BIO reports no pending ciphertext, so an unfinished handshake is
stepped once. -/
def commRefillInboundBuffers (setup : Setup) : Code Bool := do
  match ← commGuard with
  | none => pure false
  | some comm =>
    if comm.ssl then do
      match ← commTlsHandshakeStep with
      | .failed => pure false
      | .wantIo => pure true
      | .established => do
        let _ ← commDeref -- the handshake may have run a hook
        let read ← effect .sslRead
        refillTls setup read.pieces read.open_
    else
      match ← effect .transportRead with
      | .data chunk =>
        if chunk.data.isEmpty then pure true else refillInboundBuffersFromSrc setup chunk.data
      | .retry => pure true
      | .closed => pure false

/-! ### The event loop -/

/-- The event bits that the loop tests; close and error are treated alike. -/
structure IoEvent where
  read : Bool
  write : Bool
  close : Bool
  deriving DecidableEq, Repr

/-- Close a slot whose peer is gone: no Close reply can come, so a WebSocket that waits for one is
closed for good. -/
def closeAfterEof : Code Unit := do
  let closed ← effect .callClose
  if closed then pure ()
  else do
    let comm ← commDeref
    if comm.flags.closing && comm.flags.websocketState.isReady then do
      setComm (comm.mapFlags fun flags => { flags with websocketState := .closeReceived })
      let _ ← effect .callClose
      pure ()
    else pure ()

/-- The read branch of the event loop; the answer says whether the event is done with. -/
def readEvent (setup : Setup) (comm : CommAbstract) : Code Bool := do
  let busy ← if comm.flags.awaitingHook then pure true else effect .slotBusy
  if busy then pure true
  else do
    let refilled ← commRefillInboundBuffers setup
    let result ← commProcessInput setup none
    match ← commGuard with
    | none => pure true
    | some _ =>
      if !refilled then do
        closeAfterEof
        pure true
      else if result = .error || result = .closed then do
        let _ ← effect .callClose
        pure true
      else pure false

/-- One I/O event of a slot in `mudmux_run`. A listener accepts into another slot. -/
def processEvent (setup : Setup) (event : IoEvent) : Code Unit := do
  match ← commGuard with
  | none => pure ()
  | some comm =>
    if comm.flags.socketListening then effect .otherSlots
    else do
      let finished ← if event.read then readEvent setup comm else pure false
      if finished then pure ()
      else do
        if event.write then effect .callFlush else pure ()
        if event.close then closeAfterEof
        else do
          let comm ← commDeref
          if comm.flags.closing then do
            let _ ← effect .callClose
            pure ()
          else pure ()

/-- This slot's part of `comm_resume_deferred_input`. -/
def commResumeDeferredInput (setup : Setup) : Code Unit := do
  match ← commGuard with
  | none => pure ()
  | some comm =>
    if !comm.flags.deferredInbound then pure ()
    else if ← effect .slotBusy then pure ()
    else do
      modifyFlags fun flags => { flags with deferredInbound := false }
      let result ← commProcessInput setup none
      if result = .closed || result = .error then do
        let _ ← effect .callClose
        pure ()
      else pure ()

/-- The refill loop over the chunks waiting in the console or file queue; it stops at a chunk that
does not fit. -/
def refillQueued (setup : Setup) : List Chunk → Code Unit
  | [] => pure ()
  | chunk :: chunks => do
    if ← refillInboundBuffersFromSrc setup chunk.data then refillQueued setup chunks else pure ()

/-- `comm_process_file_input`, and `comm_process_console_input` while no end of input is
pending. -/
def processQueuedInput (setup : Setup) (chunks : List Chunk) : Code Unit := do
  refillQueued setup chunks
  let _ ← commProcessInput setup none
  pure ()

/-- The end of console input in `comm_process_console_input`. -/
def processConsoleEof (allowReconnect : Bool) : Code Unit := do
  match ← commGuard with
  | none => pure ()
  | some comm =>
    let busy ← effect .slotBusy
    let promptPending := comm.flags.enablePrompt && !comm.flags.invokedPrompt
    if !allowReconnect && (busy || comm.flags.deferredInbound || promptPending) then pure ()
    else do
      if !comm.flags.closing || comm.flags.disconnectPending then do
        let _ ← effect .callClose
        pure ()
      else pure ()
      let comm ← commDeref
      let busy ← effect .slotBusy
      if comm.flags.awaitingHook || comm.flags.disconnectPending || busy then pure ()
      else effect .remove

/-! ### Public calls -/

/-- What a public call knows about its caller. -/
structure Caller where
  hook : Option HookType
  onThisSlot : Bool
  deriving DecidableEq, Repr

/-- A hook that owns its final output: it may write to its own slot only. -/
def Caller.ownsOutput (caller : Caller) : Bool :=
  caller.hook = some .messageOutbound || caller.hook = some .prompt

/-- The public calls that act on a slot. -/
inductive ApiCall where
  | enablePrompt (enable : Bool)
  | enableVirtualTerminal
  | setLineInput (echo : Bool)
  | setCharInput
  | setEcho (echo : Bool)
  | bufferedWrite (buf : Bytes)
  | addMessage (buf : Bytes)
  | close
  | enableTelnet
  | enableWebsocket (preferredProtocols : Bytes)
  | enableTls
  | workersAwait
  deriving DecidableEq, Repr

/-- Apply `f` to the record if the slot is in use. -/
def onLiveSlot (f : CommAbstract → CommAbstract) : Code Unit := do
  match ← commGuard with
  | none => pure ()
  | some comm => setComm (f comm)

/-- `comm_buffered_write`. -/
def commBufferedWrite (setup : Setup) (caller : Caller) (buf : Bytes) : Code Unit :=
  if caller.ownsOutput && !caller.onThisSlot then pure ()
  else if setup.registered .messageOutbound && !caller.ownsOutput then pure ()
  else
    do
      match ← commGuard with
      | none => pure ()
      | some comm =>
        if comm.flags.enablePrompt && !comm.flags.lineInput && caller.hook ≠ some .prompt then
          modifyFlags fun flags => { flags with invokedPrompt := false }
        else pure ()
        commBufferedWriteComm buf

/-- `comm_add_message`. -/
def commAddMessage (setup : Setup) (caller : Caller) (buf : Bytes) : Code Unit :=
  if buf.isEmpty || caller.ownsOutput then pure ()
  else if !setup.registered .messageOutbound then commBufferedWrite setup caller buf
  else do
    let _ ← mudmuxExecutionDispatch setup (.messageOutbound buf) .none
    pure ()

/-- `comm_enable_websocket_for_slot`. -/
def commEnableWebsocketForSlot (comm : CommAbstract) (preferredProtocols : Bytes) :
    CommAbstract :=
  if !comm.rbio || !comm.wbio || comm.flags.enableTelnet then comm
  else
    { comm with
        websocket := some { comm.websocket.getD {} with preferredProtocols }
        flags := { comm.flags with enableWebsocket := true } }

/-- `comm_enable_tls_for_slot`, with OpenSSL set up. -/
def commEnableTlsForSlot (comm : CommAbstract) : CommAbstract :=
  if !comm.rbio || !comm.wbio || comm.ssl then comm
  else { comm with ssl := true, flags := { comm.flags with tlsEstablished := false } }

/-- The code of a public call. The three calls that configure a transport are for the slot's own
connect hook only. -/
def apiCode (setup : Setup) (caller : Caller) : ApiCall → Code Unit
  | .enablePrompt enable =>
    onLiveSlot fun comm => comm.mapFlags fun flags => { flags with enablePrompt := enable }
  | .enableVirtualTerminal =>
    onLiveSlot fun comm => comm.mapFlags fun flags => { flags with enableAnsi := true }
  | .setLineInput echo => do
    let _ ← commSetLineInput setup echo
    pure ()
  | .setCharInput => do
    let _ ← commSetCharInput setup
    pure ()
  | .setEcho echo => do
    let _ ← commSetEcho setup echo
    pure ()
  | .bufferedWrite buf => commBufferedWrite setup caller buf
  | .addMessage buf => commAddMessage setup caller buf
  | .close => do
    let _ ← effect .callClose
    pure ()
  | .enableTelnet =>
    if caller.hook = some .connect && caller.onThisSlot then commEnableTelnetForSlot
    else pure ()
  | .enableWebsocket preferredProtocols =>
    if caller.hook = some .connect && caller.onThisSlot then
      onLiveSlot fun comm => commEnableWebsocketForSlot comm preferredProtocols
    else pure ()
  | .enableTls =>
    if caller.hook = some .connect && caller.onThisSlot then onLiveSlot commEnableTlsForSlot
    else pure ()
  | .workersAwait => commDeferInput

end Mudmux.Comm
