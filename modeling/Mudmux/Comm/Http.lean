import Mudmux.Comm.Abstract

/-!
# `Mudmux.Comm.Http`: the WebSocket upgrade request and its response

The HTTP side of `lib/comm/websocket.cpp`: finding the end of the request header, reading the five
headers the upgrade depends on, and building the 101 response. The digest behind
`Sec-WebSocket-Accept` is OpenSSL's and stays a parameter, a total function of the client key.
-/

set_option autoImplicit false

namespace Mudmux.Comm

/-- The bytes of an ASCII text. -/
def ascii (text : String) : Bytes := text.toList.map fun c => UInt8.ofNat c.toNat

/-- `isspace` in the C locale. -/
def isSpace (b : Byte) : Bool := b = 32 || (9 ≤ b && b ≤ 13)

/-- `std::tolower` in the C locale. -/
def toLower (b : Byte) : Byte := if 65 ≤ b && b ≤ 90 then b + 32 else b

/-- `to_lower_ascii`. -/
def toLowerAscii (text : Bytes) : Bytes := text.map toLower

/-- `trim_ascii`. -/
def trimAscii (text : Bytes) : Bytes :=
  ((text.dropWhile isSpace).reverse.dropWhile isSpace).reverse

/-- `std::string::find`: the position of the first occurrence. -/
def findBytes (needle : Bytes) : Bytes → Option Nat
  | [] => if needle.isEmpty then some 0 else none
  | b :: rest =>
    if needle.isPrefixOf (b :: rest) then some 0 else (findBytes needle rest).map (· + 1)

/-- `token_list_contains`: the comma-separated tokens, trimmed, without the empty ones. -/
def tokenListContains (csv needleLower : Bytes) : Bool :=
  (csv.splitOn 44).any fun token =>
    let token := trimAscii token
    !token.isEmpty && toLowerAscii token == needleLower

/-- `select_protocol`: the first preferred protocol the client offers. -/
def selectProtocol (preferred client : Bytes) : Bytes :=
  (((preferred.splitOn 44).map trimAscii).find? fun candidate =>
    !candidate.isEmpty && tokenListContains client (toLowerAscii candidate)).getD []

/-- The request line and the five header values `parse_http_headers` collects. -/
structure HttpHeaders where
  requestLine : Bytes := []
  upgrade : Bytes := []
  connection : Bytes := []
  secWebsocketKey : Bytes := []
  secWebsocketVersion : Bytes := []
  secWebsocketProtocol : Bytes := []
  deriving DecidableEq, Repr

/-- One header line: a name before a colon that is not the first character, and its value. A
later line overwrites an earlier one of the same name. -/
def HttpHeaders.addLine (h : HttpHeaders) (line : Bytes) : HttpHeaders :=
  match line.span (· ≠ 58) with
  | (_, []) => h
  | ([], _) => h
  | (name, _ :: value) =>
    let name := toLowerAscii (trimAscii name)
    let value := trimAscii value
    if name = ascii "upgrade" then { h with upgrade := value }
    else if name = ascii "connection" then { h with connection := value }
    else if name = ascii "sec-websocket-key" then { h with secWebsocketKey := value }
    else if name = ascii "sec-websocket-version" then { h with secWebsocketVersion := value }
    else if name = ascii "sec-websocket-protocol" then { h with secWebsocketProtocol := value }
    else h

/-- A line without its trailing CR. -/
def stripCR (line : Bytes) : Bytes := if line.getLast? = some 13 then line.dropLast else line

/-- The line loop of `parse_http_headers`. An empty line ends the header; running out of lines
is a failure. What follows the last line feed is a line only when it is not empty. -/
def parseHttpLines : List Bytes → Bool → HttpHeaders → Option HttpHeaders
  | [], _, _ => none
  | line :: rest, isFirst, h =>
    if rest.isEmpty && line.isEmpty then none
    else
      let line := stripCR line
      if line.isEmpty then (if h.requestLine.isEmpty then none else some h)
      else if isFirst then parseHttpLines rest false { h with requestLine := line }
      else parseHttpLines rest false (h.addLine line)

/-- `parse_http_headers`. -/
def parseHttpHeaders (request : Bytes) : Option HttpHeaders :=
  parseHttpLines (request.splitOn 10) true {}

/-- `_find_http_header_end`: behind the first CR LF CR LF, else behind the first LF LF. -/
def findHttpHeaderEnd (data : Bytes) : Option Nat :=
  match findBytes [13, 10, 13, 10] data with
  | some i => some (i + 4)
  | none => (findBytes [10, 10] data).map (· + 2)

/-- A successful upgrade: the 101 response and whether a Telnet subprotocol was selected. -/
structure UpgradeResponse where
  response : Bytes
  negotiatedTelnet : Bool
  deriving DecidableEq, Repr

/-- `comm_websocket_build_upgrade_response`; a refusal carries the HTTP status. -/
def commWebsocketBuildUpgradeResponse (acceptKey : Bytes → Bytes) (request preferred : Bytes) :
    Except Nat UpgradeResponse :=
  match parseHttpHeaders request with
  | none => .error 400
  | some h =>
    if !(ascii "GET ").isPrefixOf h.requestLine
        || (findBytes (ascii "HTTP/1.1") h.requestLine).isNone then .error 400
    else if toLowerAscii h.upgrade != ascii "websocket" then .error 400
    else if !tokenListContains h.connection (ascii "upgrade") then .error 400
    else if h.secWebsocketKey.isEmpty then .error 400
    else if !h.secWebsocketVersion.isEmpty && trimAscii h.secWebsocketVersion != ascii "13" then
      .error 426
    else
      let selected := selectProtocol preferred h.secWebsocketProtocol
      let head :=
        ascii "HTTP/1.1 101 Switching Protocols\r\nUpgrade: websocket\r\nConnection: Upgrade\r\n"
          ++ ascii "Sec-WebSocket-Accept: " ++ acceptKey h.secWebsocketKey ++ ascii "\r\n"
      let protocol :=
        if selected.isEmpty then [] else ascii "Sec-WebSocket-Protocol: " ++ selected ++ ascii "\r\n"
      .ok {
        response := head ++ protocol ++ ascii "\r\n"
        negotiatedTelnet :=
          selected = ascii "telnet.ietf.org" || selected = ascii "telnet.mudstandards.org" }

/-- The error response of `_send_websocket_rejection`. -/
def websocketRejectionResponse (status : Nat) : Bytes :=
  let reason :=
    if status = 426 then "Upgrade Required"
    else if status = 431 then "Request Header Fields Too Large"
    else "Bad Request"
  ascii "HTTP/1.1 " ++ ascii (toString status) ++ ascii " " ++ ascii reason ++ ascii "\r\n"
    ++ ascii "Connection: close\r\nContent-Length: 0\r\n"
    ++ (if status = 426 then ascii "Sec-WebSocket-Version: 13\r\n" else [])
    ++ ascii "\r\n"

end Mudmux.Comm
