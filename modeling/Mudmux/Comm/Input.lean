import Mudmux.Comm.WebSocket

/-!
# `Mudmux.Comm.Input`: from received bytes to inbound messages

The input path of a slot: `_refill_inbound_buffers_from_src` with its Telnet branch, the WebSocket
upgrade, and `_comm_process_input` with its three branches for lines, characters and WebSocket
frames.

The loops run on fuel that is fixed at their entry and is never used up: an iteration of the refill
consumes a byte; one of the line loop consumes a byte, moves bytes to the head buffer or frees a
buffer; one of the WebSocket loop consumes a frame.
-/

set_option autoImplicit false

namespace Mudmux.Comm

open Mudmux.Lib
open Program (effect)

/-! ### Dispatching input -/

/-- `comm_invoke_inbound_message`. -/
def commInvokeInboundMessage (setup : Setup) (data : Bytes) : Code DispatchResult := do
  match ← commGuard with
  | none => pure .error
  | some _ =>
    modifyFlags fun flags => { flags with invokedPrompt := false }
    if setup.relaxed then deferInbound else pure ()
    mudmuxExecutionDispatch setup (.messageInbound data)
      (if setup.relaxed then .inbound else .none)

/-- `_invoke_char_input_message`. -/
def invokeCharInputMessage (setup : Setup) (data : Bytes) : Code DispatchResult := do
  match ← commGuard with
  | none => pure .error
  | some _ =>
    modifyFlags fun flags => { flags with invokedPrompt := false }
    let result ← commInvokeInboundMessage setup data
    if !setup.relaxed then commDeferInput else pure ()
    pure result

/-- `comm_dispatch_telnet_subnegotiation`. The first byte collected is the option. -/
def commDispatchTelnetSubnegotiation (setup : Setup) (neg : TelnetNegotiation) :
    Code DispatchResult :=
  match neg.suboptBuf with
  | [] => pure .ok
  | option :: payload =>
    if !setup.registered .telnetSubneg then pure .ok
    else do
      let result ← mudmuxExecutionDispatch setup (.telnetSubneg option payload) .none
      if result = .queueFull then deferInbound else pure ()
      pure result

/-! ### The WebSocket upgrade -/

/-- `WEBSOCKET_MAX_HANDSHAKE_BYTES`. -/
def websocketMaxHandshakeBytes : Nat := 8192

/-- `_send_websocket_rejection`. -/
def sendWebsocketRejection (status : Nat) : Code Unit := do
  effect .freeOutbound
  modifyComm fun comm =>
    (commFreeInboundBuffers comm).mapFlags fun flags => { flags with enableWebsocket := false }
  effect (.writeRaw (websocketRejectionResponse status))
  let _ ← effect .callClose
  pure ()

/-- The switch to WebSocket framing: the 101 response is queued raw, the request is consumed, and
a Telnet subprotocol waits for the response to drain. -/
def acceptUpgrade (upgrade : UpgradeResponse) (headerLen : Nat) : Code Unit := do
  effect (.writeRaw upgrade.response)
  modifyComm fun comm =>
    (commConsumeInboundData comm headerLen).mapFlags fun flags =>
      { flags with websocketState := .ready }
  if upgrade.negotiatedTelnet then do
    modifyFlags fun flags => { flags with websocketState := .telnetPending }
    commEnableTelnetForSlot
  else pure ()

/-- `comm_try_upgrade_websocket`. -/
def commTryUpgradeWebsocket (setup : Setup) : Code Unit := do
  match ← commGuard with
  | none => pure ()
  | some comm =>
    if !comm.flags.enableWebsocket || comm.flags.websocketState.isReady then pure ()
    else
      let request := commCopyInboundDataPrefix comm websocketMaxHandshakeBytes
      if request.isEmpty then pure ()
      else
        match findHttpHeaderEnd request with
        | none =>
          if request.length ≥ websocketMaxHandshakeBytes then sendWebsocketRejection 431
          else pure ()
        | some headerLen =>
          match commWebsocketBuildUpgradeResponse setup.acceptKey (request.take headerLen)
              ((comm.websocket.map (·.preferredProtocols)).getD []) with
          | .error status => sendWebsocketRejection status
          | .ok upgrade => acceptUpgrade upgrade headerLen

/-! ### Refilling the inbound buffers -/

/-- A Telnet call's bytes fit behind the write cursor when the call was offered no more bytes than
there is room. -/
theorem commTelnetProcessInbound_fits (src : Bytes) (room : Nat) (state : TelnetState) :
    (commTelnetProcessInbound (src.take (min src.length room)) state .zero).dest.length ≤ room := by
  have hdest := commTelnetProcessInbound_dest_length (src.take (min src.length room)) state .zero
  have hcons := commTelnetProcessInbound_consumed_le (src.take (min src.length room)) state .zero
  simp only [List.length_take] at hcons
  omega

/-- Whether the fill loop passes the bytes through the Telnet parser. -/
def parsesTelnet (flags : Flags) (paused : Bool) : Bool :=
  flags.enableTelnet && !(flags.enableWebsocket && !flags.websocketState.isReady)
    && !flags.websocketState.isReady && !paused

/-- One iteration of the fill loop of `_refill_inbound_buffers_from_src` with bytes left, and
`again` for the iterations after it. The answer is the bytes that found no room. -/
def refillStep (setup : Setup) (again : Nat → Bytes → Bool → Code Bytes) (pos : Nat) (src : Bytes)
    (paused : Bool) : Code Bytes := do
  let comm ← commDeref
  let (pos, chain) := seekData pos comm.inbound
  let comm := { comm with inbound := chain }
  match chain[pos]? with
  | none => do
    setComm comm
    pure src
  | some ibb =>
    if ibb.buf.room = 0 then do
      setComm comm
      pure src
    else if parsesTelnet comm.flags paused then do
      let r := commTelnetProcessInbound (src.take (min src.length ibb.buf.room))
        comm.flags.telnetState .zero
      let filled :=
        { ibb with buf := ibb.buf.append r.dest (commTelnetProcessInbound_fits src _ _) }
      setComm (comm.mapFlags fun flags => { flags with telnetState := r.state })
      if r.consumed > r.dest.length then commProcessTelnetOptions r.neg else pure ()
      let result ← commDispatchTelnetSubnegotiation setup r.neg
      if result = .queueFull then deferInbound else pure ()
      -- the write cursor moves only now, behind the hook
      modifyComm fun comm => { comm with inbound := comm.inbound.set pos filled }
      again pos (src.drop r.consumed) (paused || result = .queueFull)
    else do
      let filled :=
        { ibb with
            buf := ibb.buf.append (src.take ibb.buf.room) (List.length_take_le _ _) }
      setComm { comm with inbound := comm.inbound.set pos filled }
      again pos (src.drop ibb.buf.room) paused

/-- The fill loop of `_refill_inbound_buffers_from_src`. -/
def refillLoop (setup : Setup) : Nat → Nat → Bytes → Bool → Code Bytes
  | 0, _, src, _ => pure src
  | fuel + 1, pos, src, paused =>
    if src.isEmpty then pure [] else refillStep setup (refillLoop setup fuel) pos src paused

/-- `_refill_inbound_buffers_from_src`. -/
def refillInboundBuffersFromSrc (setup : Setup) (src : Bytes) : Code Bool := do
  match ← commGuard with
  | none => pure false
  | some comm =>
    let chain := if comm.inbound.isEmpty then [.fresh] else comm.inbound
    setComm { comm with inbound := chain }
    let remaining ← refillLoop setup src.length (refillPosition chain) src false
    let comm ← commDeref
    if comm.flags.enableWebsocket && !comm.flags.websocketState.isReady then
      commTryUpgradeWebsocket setup
    else pure ()
    pure remaining.isEmpty

/-! ### Lines and characters -/

/-- Move bytes of the second buffer into the free space of the first, which is compacted; a
second buffer that is emptied goes to the tail. A second buffer of another band is freed. The
answer is `none` when there is no second buffer with data. -/
def refillFromNext (chain : List InboundBuffer) : Option (List InboundBuffer) :=
  match chain with
  | ibb :: next :: rest =>
    if next.buf.data.isEmpty then none
    else
      match next.band with
      | .subneg => some (ibb :: rest)
      | .data =>
        let moved := next.buf.data.take ibb.buf.free
        let ibb :=
          { ibb with
              buf := ibb.buf.compact.append moved
                (by rw [LinearBuffer.compact_room]; exact List.length_take_le _ _) }
        if moved.length = next.buf.data.length then some (ibb :: rest ++ [.fresh])
        else some (ibb :: { next with buf := next.buf.consume moved.length } :: rest)
  | _ => none

/-- The line branch of `_comm_process_input`. `budget` is how many messages may still be
processed, `none` for any number. -/
def lineLoop (setup : Setup) : Nat → Option Nat → Code Unit
  | 0, _ => pure ()
  | fuel + 1, budget =>
    if budget = some 0 then pure ()
    else do
      let comm ← commDeref
      match comm.inbound with
      | [] => pure ()
      | ibb :: rest =>
        if ibb.buf.data.isEmpty then pure ()
        else
          match findNewlineAndStrip ibb.buf with
          | none =>
            if ibb.buf.free = 0 then pure () -- a partial line fills the buffer
            else
              match refillFromNext comm.inbound with
              | none => pure ()
              | some chain => do
                setComm { comm with inbound := chain }
                lineLoop setup fuel budget
          | some found => do
            setComm { comm with inbound := { ibb with buf := found.buf } :: rest }
            if comm.flags.enableTelnet && !comm.flags.closing then
              commBufferedWriteComm [13, 10] -- echo the newline
            else pure ()
            let result ← commInvokeInboundMessage setup found.line
            if result = .queueFull then deferInbound
            else do
              match ← commGuard with
              | none => pure () -- closed by the hook
              | some comm =>
                let ibb := { ibb with buf := found.buf.consume found.next }
                let comm := { comm with inbound := ibb :: comm.inbound.tail }
                setComm comm
                if ← effect .slotBusy then pure ()
                else if ibb.buf.data.isEmpty then do
                  setComm { comm with inbound := recycleCurrentInboundBuffer comm.inbound }
                  lineLoop setup fuel (budget.map (· - 1))
                else do
                  setComm { comm with inbound := (refillFromNext comm.inbound).getD comm.inbound }
                  lineLoop setup fuel (budget.map (· - 1))

/-- The character branch of `_comm_process_input`. It dispatches at most one message: character
input is one-shot, the slot is back in line input before its hook runs. The answer is `true` when
the input mode could not be set. -/
def charInput (setup : Setup) (budget : Option Nat) : Code Bool :=
  if budget = some 0 then pure false
  else do
    let comm ← commDeref
    match comm.inbound with
    | [] => pure false
    | ibb :: _ =>
      match findCharInputSequence setup comm.flags.enableAnsi ibb.buf.data with
      | none => pure false
      | some charLen => do
        if !(← commSetLineInput setup true) then pure true
        else do
          let comm ← commDeref
          let data := ibb.buf.data.take charLen
          let result ←
            if comm.flags.enableTelnet && setup.relaxed then commInvokeInboundMessage setup data
            else invokeCharInputMessage setup data
          if result = .queueFull then do
            deferInbound
            pure false
          else do
            match ← commGuard with
            | none => pure false
            | some comm => do
              setComm
                { comm with
                    inbound := { ibb with buf := ibb.buf.consume charLen } :: comm.inbound.tail }
              pure false

/-- The number of unread bytes of a chain. -/
def inboundBytes (chain : List InboundBuffer) : Nat :=
  (chain.map fun ibb => ibb.buf.data.length).sum

/-- The line and character branches of `_comm_process_input` with their common end. -/
def processText (setup : Setup) (budget : Option Nat) : Code ProcessResult := do
  let comm ← commDeref
  let failed ←
    if comm.flags.lineInput then do
      lineLoop setup (2 * inboundBytes comm.inbound + comm.inbound.length + 1) budget
      pure false
    else charInput setup budget
  if failed then pure .error
  else
    match ← commGuard with
    | none => pure .closed
    | some comm => pure (if comm.flags.deferredInbound then .deferred else .ok)

/-- The common beginning of `_comm_process_input`. `ready` is what is done with the input of an
upgraded WebSocket. -/
def processInputWith (setup : Setup) (ready : Code ProcessResult) (budget : Option Nat) :
    Code ProcessResult := do
  match ← commGuard with
  | none => pure .error
  | some comm =>
    if comm.flags.awaitingHook then pure .deferred
    else if ← effect .slotBusy then pure .deferred
    else do
      modifyComm fun comm =>
        { comm with
            flags := { comm.flags with deferredInbound := false }
            inbound := skipNonDataHeadBuffers comm.inbound }
      if comm.flags.enableWebsocket && !comm.flags.websocketState.isReady then do
        commTryUpgradeWebsocket setup
        match ← commGuard with
        | none => pure .closed
        | some comm => if comm.flags.websocketState.isReady then ready else pure .ok
      else if comm.flags.websocketState.isReady then ready
      else processText setup budget

/-- `comm_process_decoded_input`: `_comm_process_input` without decoding of the transport. -/
def commProcessDecodedInput (setup : Setup) (budget : Option Nat) : Code ProcessResult :=
  processInputWith setup (processText setup budget) budget

/-! ### WebSocket input -/

/-- Change the decoder state. -/
def modifyWebsocket (f : WebSocketDecoder → WebSocketDecoder) : Code Unit :=
  modifyComm fun comm => { comm with websocket := comm.websocket.map f }

/-- `_decode_websocket_telnet_payload`. The application bytes go to `decoded_input` as they
come. -/
def decodeWebsocketTelnetPayload (setup : Setup) : Nat → Bytes → Code DispatchResult
  | 0, _ => pure .ok
  | fuel + 1, payload =>
    if payload.isEmpty then pure .ok
    else do
      let comm ← commDeref
      let r := commTelnetProcessInbound payload comm.flags.telnetState .zero
      if r.consumed = 0 then pure .error
      else do
        setComm (comm.mapFlags fun flags => { flags with telnetState := r.state })
        if r.consumed > r.dest.length then commProcessTelnetOptions r.neg else pure ()
        let result ← commDispatchTelnetSubnegotiation setup r.neg
        if !result.accepted then pure result
        else do
          modifyWebsocket fun w => { w with decodedInput := w.decodedInput ++ r.dest }
          decodeWebsocketTelnetPayload setup fuel (payload.drop r.consumed)

/-- `_process_websocket_decoded_input`: the decoded bytes pass through the inbound buffers, and
what the parser leaves goes back to `decoded_input`. -/
def processWebsocketDecodedInput (setup : Setup) (budget : Option Nat) : Code ProcessResult := do
  let comm ← commDeref
  let decoded := (comm.websocket.getD {}).decodedInput
  if decoded.isEmpty then pure .ok
  else if !(← refillInboundBuffersFromSrc setup decoded) then pure .error
  else do
    modifyWebsocket fun w => { w with decodedInput := [] }
    let result ← commProcessDecodedInput setup budget
    modifyComm fun comm =>
      { comm with
          websocket := comm.websocket.map fun w =>
            { w with decodedInput := commCopyInboundDataPrefix comm sizeMax }
          inbound := consumeInboundData sizeMax comm.inbound }
    pure result

/-- The payload of a Close frame with a status code. -/
def closePayload (code : Nat) : Bytes := bigEndian 2 code

/-- The loop of `comm_process_websocket_input`, one decoder call an iteration. The decoder is
asked for one message at a time. -/
def websocketInputLoop (setup : Setup) (budget : Option Nat) : Nat → Code ProcessResult
  | 0 => pure .ok
  | fuel + 1 => do
    let comm ← commDeref
    let wire := (comm.websocket.getD {}).pendingWire
    if wire.isEmpty then pure .ok
    else
      match ← commWebsocketProcessInbound wire 1 with
      | (_, .closed _) => pure .closed
      | (_, .rejected closeCode) => do
        effect (.queueClose (closePayload closeCode))
        let _ ← effect .callClose
        pure .closed
      | (messages, .accepted consumed) =>
        if consumed = 0 then pure .ok -- a partial frame
        else do
          modifyWebsocket fun w => { w with pendingWire := w.pendingWire.drop consumed }
          match messages with
          | [] => websocketInputLoop setup budget fuel
          | message :: _ => do
            let comm ← commDeref
            let result ←
              if comm.flags.enableTelnet then
                decodeWebsocketTelnetPayload setup (message.length + 1) message
              else do
                modifyWebsocket fun w => { w with decodedInput := w.decodedInput ++ message }
                pure .ok
            if result = .queueFull then do
              deferInbound
              pure .deferred
            else if !result.accepted then pure .error
            else do
              let result ← processWebsocketDecodedInput setup budget
              if result ≠ .ok then pure result
              else
                match ← commGuard with
                | none => pure .closed
                | some _ =>
                  if ← effect .slotBusy then pure .deferred
                  else websocketInputLoop setup budget fuel

/-- `comm_process_websocket_input`. -/
def commProcessWebsocketInput (setup : Setup) (budget : Option Nat) : Code ProcessResult := do
  modifyComm fun comm =>
    let websocket := comm.websocket.getD {}
    let wire := commCopyInboundDataPrefix comm sizeMax
    { comm with
        websocket := some { websocket with pendingWire := websocket.pendingWire ++ wire }
        inbound := consumeInboundData wire.length comm.inbound }
  let result ← processWebsocketDecodedInput setup budget
  if result ≠ .ok then pure result
  else do
    let comm ← commDeref
    websocketInputLoop setup budget ((comm.websocket.getD {}).pendingWire.length + 1)

/-- `comm_process_input`. -/
def commProcessInput (setup : Setup) (budget : Option Nat) : Code ProcessResult :=
  processInputWith setup (commProcessWebsocketInput setup budget) budget

end Mudmux.Comm
