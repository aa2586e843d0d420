import Mudmux.Comm.Slot

/-!
# `Mudmux.Comm.InputMode`: Telnet commands, input mode and echo

The commands the server sends on a Telnet slot (`lib/comm/telnet.cpp`) and the POSIX half of
`lib/comm/input_mode.cpp`, which sends some of them. On the console the latter set the terminal and
fail when `tcgetattr` does.
-/

set_option autoImplicit false

namespace Mudmux.Comm

/-! ### Telnet commands to the peer -/

/-- `comm_telnet_send_will`, `_wont`, `_do` and `_dont`: three bytes, the command in the
middle. -/
def commTelnetSend (command option : Byte) : Code Unit := do
  match ← commGuard with
  | none => pure ()
  | some comm =>
    if !comm.wbio then pure () else commBufferedWriteNoNormalize [telnetIAC, command, option]

def commTelnetSendWill : Byte → Code Unit := commTelnetSend telnetWILL
def commTelnetSendWont : Byte → Code Unit := commTelnetSend telnetWONT
def commTelnetSendDo : Byte → Code Unit := commTelnetSend telnetDO

/-- `comm_telnet_send_subnegotiation`: three separate writes. -/
def commTelnetSendSubnegotiation (option : Byte) (data : Bytes) : Code Unit := do
  match ← commGuard with
  | none => pure ()
  | some comm =>
    if !comm.wbio || data.isEmpty then pure ()
    else do
      commBufferedWriteNoNormalize [telnetIAC, telnetSB, option]
      commBufferedWriteNoNormalize data
      commBufferedWriteNoNormalize [telnetIAC, telnetSE]

/-- `_start_telnet_negotiation`. A TLS slot waits for the client. -/
def startTelnetNegotiation : Code Unit := do
  let comm ← commDeref
  if comm.ssl then pure ()
  else do
    commTelnetSendWill TELOPT_SGA
    commTelnetSendDo TELOPT_SGA
    commTelnetSendWont TELOPT_ECHO
    commTelnetSendDo TELOPT_LINEMODE

/-- `comm_start_telnet_negotiation`. -/
def commStartTelnetNegotiation : Code Unit := do
  match ← commGuard with
  | none => pure ()
  | some comm => if comm.flags.enableTelnet then startTelnetNegotiation else pure ()

/-- Change the capabilities of the client. -/
def modifyCaps (f : ClientCapabilities → ClientCapabilities) : Code Unit :=
  modifyComm fun comm => { comm with caps := f comm.caps }

/-- `comm_process_telnet_options`: the capabilities follow the noted commands, and a client that
will do LINEMODE is asked for local editing while the slot is in line input. -/
def commProcessTelnetOptions (neg : TelnetNegotiation) : Code Unit := do
  match ← commGuard with
  | none => pure ()
  | some comm =>
    if TelnetNegotiation.hasOption neg.will TELOPT_LINEMODE then do
      modifyCaps fun caps => { caps with telnetLinemode := true }
      if comm.flags.lineInput then commTelnetSendSubnegotiation TELOPT_LINEMODE [1, 1]
      else pure ()
    else if TelnetNegotiation.hasOption neg.wont TELOPT_LINEMODE then
      modifyCaps fun caps => { caps with telnetLinemode := false }
    else pure ()
    if TelnetNegotiation.hasOption neg.doo TELOPT_ECHO then
      modifyCaps fun caps => { caps with telnetEcho := true }
    else if TelnetNegotiation.hasOption neg.dont TELOPT_ECHO then
      modifyCaps fun caps => { caps with telnetEcho := false }
    else pure ()

/-- `comm_enable_telnet_for_slot`. -/
def commEnableTelnetForSlot : Code Unit := do
  match ← commGuard with
  | none => pure ()
  | some comm =>
    if comm.flags.enableWebsocket && !comm.flags.websocketState.isReady then pure ()
    else if comm.flags.enableTelnet then pure ()
    else do
      setComm (comm.mapFlags fun flags => { flags with enableTelnet := true })
      if comm.flags.websocketState ≠ .telnetPending then startTelnetNegotiation else pure ()

/-! ### Input mode and echo -/

/-- `_negotiate_telnet_line_input`. -/
def negotiateTelnetLineInput (comm : CommAbstract) (enable : Bool) : Code Unit :=
  if enable then
    if comm.caps.telnetLinemode then commTelnetSendSubnegotiation TELOPT_LINEMODE [1, 1]
    else pure ()
  else do
    if comm.caps.telnetLinemode then commTelnetSendSubnegotiation TELOPT_LINEMODE [1, 0]
    else pure ()
    if !comm.caps.telnetEcho then commTelnetSendWill TELOPT_ECHO else pure ()

/-- `comm_set_echo`. Over TLS no echo option is negotiated. -/
def commSetEcho (setup : Setup) (echo : Bool) : Code Bool := do
  match ← commGuard with
  | none => pure false
  | some comm =>
    if setup.console && !setup.consoleTty then pure false
    else do
      if !setup.console && comm.flags.enableTelnet && !comm.ssl then
        if echo && comm.caps.telnetEcho then commTelnetSendWont TELOPT_ECHO
        else if !echo && !comm.caps.telnetEcho then commTelnetSendWill TELOPT_ECHO
        else pure ()
      else pure ()
      modifyFlags fun flags => { flags with clientEcho := echo }
      pure true

/-- `comm_set_line_input`. -/
def commSetLineInput (setup : Setup) (echo : Bool) : Code Bool := do
  match ← commGuard with
  | none => pure false
  | some comm =>
    if comm.flags.lineInput then commSetEcho setup echo
    else if setup.console && !setup.consoleTty then pure false
    else do
      if !setup.console && comm.flags.enableTelnet then negotiateTelnetLineInput comm true
      else pure ()
      modifyFlags fun flags => { flags with lineInput := true }
      commSetEcho setup echo

/-- `comm_set_char_input`. -/
def commSetCharInput (setup : Setup) : Code Bool := do
  match ← commGuard with
  | none => pure false
  | some comm =>
    if !comm.flags.lineInput then commSetEcho setup false
    else if setup.console && !setup.consoleTty then pure false
    else if !setup.console && comm.flags.enableTelnet then do
      negotiateTelnetLineInput comm false
      modifyFlags fun flags => { flags with lineInput := false, clientEcho := false }
      pure true
    else do
      modifyFlags fun flags => { flags with lineInput := false }
      commSetEcho setup false

end Mudmux.Comm
