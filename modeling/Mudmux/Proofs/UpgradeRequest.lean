import Mudmux.Proofs.FrameText
import Mudmux.Proofs.HttpHeaders
import Mudmux.Proofs.QueueLimit
import Mudmux.Proofs.TlsRecords

/-!
# `Mudmux.Proofs.UpgradeRequest`: upgrade requests and the inbound buffer

`comm_try_upgrade_websocket` looks for the end of a header in the first 8192 bytes
(`WEBSOCKET_MAX_HANDSHAKE_BYTES`) of the inbound chain and answers 431 when there are that many bytes and no
end. The chain of a slot with a pending upgrade is one buffer of 4096 bytes. A longer header never gets
into it: the refill that would pass the 4096th byte fails, and the event loop closes the slot. So the
limit of an upgrade request is 4096 bytes, and a client that exceeds it gets no answer at all
(`upgrade_requests_answered_iff`).

`AwaitsUpgrade held` is a slot with a pending upgrade that has received the bytes `held`, and
`AnsweredUpgrade response` one that has answered. `exchange_request` follows a slot through its reads, up to
the end of the header or to the first read that does not fit.
-/

set_option autoImplicit false

namespace Mudmux.Comm

open Mudmux.Lib
open Mudmux.Lib.Program (Returns returns_done returns_bind effect)

variable {upgrade : UpgradeResponse} {data header needle stream : Bytes}

/-! ### The end of a header -/

/-- A beginning of a text without a header end has none. -/
theorem findHttpHeaderEnd_of_prefix (hstarts : data <+: stream)
    (h : findHttpHeaderEnd stream = none) : findHttpHeaderEnd data = none := by
  obtain ⟨more, rfl⟩ := hstarts
  rw [findHttpHeaderEnd] at h ⊢
  cases hcr : findBytes [13, 10, 13, 10] data with
  | some i =>
    rw [findBytes_append more hcr] at h
    cases h
  | none =>
    cases hlf : findBytes [10, 10] data with
    | some i =>
      rw [findBytes_append more hlf] at h
      split at h <;> cases h
    | none => rfl

/-- The header of a request: its end is the end of the text, and of no beginning of the text. -/
structure RequestHeader (header : Bytes) : Prop where
  complete : findHttpHeaderEnd header = some header.length
  unfinished : ∀ data, data <+: header → data ≠ header → findHttpHeaderEnd data = none

/-- A text that ends with its first empty line, all lines ending in CR LF. -/
theorem requestHeader_of_crlf (hend : findBytes [13, 10, 13, 10] header = some (header.length - 4))
    (hlines : findBytes [10, 10] header = none) : RequestHeader header where
  complete := by
    have hlength := findBytes_length hend
    rw [findHttpHeaderEnd, hend]
    simp only [List.length_cons, List.length_nil] at hlength
    exact congrArg some (by omega)
  unfinished data hstarts hproper := by
    obtain ⟨more, rfl⟩ := hstarts
    have hlonger : data.length < (data ++ more).length := by
      rw [List.length_append, Nat.lt_add_right_iff_pos, List.length_pos_iff]
      rintro rfl
      exact hproper (List.append_nil data).symm
    rw [findHttpHeaderEnd]
    cases hcr : findBytes [13, 10, 13, 10] data with
    | some i =>
      have hlength := findBytes_length hcr
      rw [findBytes_append more hcr] at hend
      simp only [List.length_cons, List.length_nil] at hlength
      cases hend
      omega
    | none =>
      cases hlf : findBytes [10, 10] data with
      | some i =>
        rw [findBytes_append more hlf] at hlines
        cases hlines
      | none => rfl

/-! ### The length of a 101 response -/

theorem length_trimAscii_le (text : Bytes) : (trimAscii text).length ≤ text.length := by
  rw [trimAscii, List.length_reverse]
  apply Nat.le_trans (List.dropWhile_sublist _).length_le
  rw [List.length_reverse]
  exact (List.dropWhile_sublist _).length_le

variable {text : Bytes}

theorem length_le_of_mem_splitOn {part : Bytes} {separator : Byte}
    (h : part ∈ text.splitOn separator) : part.length ≤ text.length := by
  rw [List.splitOn] at h
  induction text generalizing part with
  | nil =>
    rw [List.splitOnP_nil, List.mem_singleton] at h
    rw [h]
  | cons b text ih =>
    rw [List.splitOnP_cons_eq_if_modifyHead] at h
    split at h
    · rcases List.mem_cons.mp h with rfl | h
      · exact Nat.zero_le _
      · exact Nat.le_succ_of_le (ih h)
    · cases hparts : List.splitOnP (fun x => x == separator) text with
      | nil =>
        rw [hparts] at h
        cases h
      | cons first others =>
        rw [hparts, List.modifyHead_cons] at h
        rw [hparts] at ih
        rcases List.mem_cons.mp h with rfl | h
        · exact Nat.succ_le_succ (ih List.mem_cons_self)
        · exact Nat.le_succ_of_le (ih (List.mem_cons_of_mem _ h))

theorem length_stripCR_le (line : Bytes) : (stripCR line).length ≤ line.length := by
  rw [stripCR]
  split
  · exact (List.dropLast_sublist line).length_le
  · exact Nat.le_refl _

/-- A header value is not longer than its line. -/
theorem HttpHeaders.length_protocol_addLine {h : HttpHeaders} {line : Bytes} {n : Nat}
    (hline : line.length ≤ n) (hh : h.secWebsocketProtocol.length ≤ n) :
    (h.addLine line).secWebsocketProtocol.length ≤ n := by
  rw [HttpHeaders.addLine]
  split
  · exact hh
  · exact hh
  · next value _ hspan =>
      have hvalue : (trimAscii value).length ≤ n := by
        have hdrop := congrArg (fun parts => parts.2.length) hspan
        have hle : (line.dropWhile fun b => decide (b ≠ 58)).length ≤ line.length :=
          (List.dropWhile_sublist _).length_le
        have htrim := length_trimAscii_le value
        simp only [List.span_eq_takeWhile_dropWhile, List.length_cons] at hdrop
        omega
      dsimp only
      split_ifs <;> first | exact hvalue | exact hh

theorem length_protocol_parseHttpLines {lines : List Bytes} {first : Bool} {h parsed : HttpHeaders}
    {n : Nat} (hlines : ∀ line ∈ lines, line.length ≤ n) (hh : h.secWebsocketProtocol.length ≤ n)
    (hparsed : parseHttpLines lines first h = some parsed) :
    parsed.secWebsocketProtocol.length ≤ n := by
  induction lines generalizing first h with
  | nil => cases hparsed
  | cons line lines ih =>
    have hline : (stripCR line).length ≤ n :=
      Nat.le_trans (length_stripCR_le line) (hlines line List.mem_cons_self)
    have hrest : ∀ other ∈ lines, other.length ≤ n := fun other hother =>
      hlines other (List.mem_cons_of_mem _ hother)
    rw [parseHttpLines] at hparsed
    dsimp only at hparsed
    split_ifs at hparsed
    · cases hparsed
      exact hh
    · exact ih hrest (by exact hh) hparsed
    · exact ih hrest (HttpHeaders.length_protocol_addLine hline hh) hparsed

/-- A selected protocol is one of the client's. -/
theorem length_selectProtocol_le (preferred client : Bytes) :
    (selectProtocol preferred client).length ≤ client.length := by
  rw [selectProtocol]
  cases hfind : ((preferred.splitOn 44).map trimAscii).find? fun candidate =>
      !candidate.isEmpty && tokenListContains client (toLowerAscii candidate) with
  | none => exact Nat.zero_le _
  | some candidate =>
    have hfound := List.find?_some hfind
    have hcontains := (Bool.and_eq_true_iff.mp hfound).2
    rw [tokenListContains, List.any_eq_true] at hcontains
    obtain ⟨token, htoken, hequal⟩ := hcontains
    have hlower := congrArg List.length (eq_of_beq (Bool.and_eq_true_iff.mp hequal).2)
    rw [toLowerAscii, toLowerAscii, List.length_map, List.length_map] at hlower
    rw [Option.getD_some, ← hlower]
    exact Nat.le_trans (length_trimAscii_le token) (length_le_of_mem_splitOn htoken)

/-- The response to a header of at most a buffer's size fits into the outbound queue. -/
theorem length_response {acceptKey : Bytes → Bytes} {header preferred : Bytes}
    (hkey : ∀ key, (acceptKey key).length = 28) (hheader : header.length ≤ bufferSize)
    (h : commWebsocketBuildUpgradeResponse acceptKey header preferred = .ok upgrade) :
    upgrade.response ≠ [] ∧ upgrade.response.length ≤ bufferSize * maxOutboundBuffers := by
  rw [commWebsocketBuildUpgradeResponse] at h
  split at h
  · cases h
  · next parsed hparsed =>
      split_ifs at h
      cases h
      have hprotocol : parsed.secWebsocketProtocol.length ≤ header.length :=
        length_protocol_parseHttpLines (fun line => length_le_of_mem_splitOn) (Nat.zero_le _) hparsed
      have hselected := length_selectProtocol_le preferred parsed.secWebsocketProtocol
      have hupgrade : (ascii
          "HTTP/1.1 101 Switching Protocols\r\nUpgrade: websocket\r\nConnection: Upgrade\r\n").length
          = 75 := by decide +kernel
      have haccept : (ascii "Sec-WebSocket-Accept: ").length = 22 := by decide +kernel
      have hname : (ascii "Sec-WebSocket-Protocol: ").length = 24 := by decide +kernel
      have hcrlf : (ascii "\r\n").length = 2 := by decide +kernel
      rw [← List.length_pos_iff]
      simp only [List.length_append, hkey, hupgrade, haccept, hcrlf]
      simp only [bufferSize, maxOutboundBuffers] at hheader ⊢
      split
      · simp only [List.length_nil]
        omega
      · simp only [List.length_append, hname, hcrlf]
        omega

/-! ### A slot with a pending upgrade -/

/-- A slot whose upgrade is pending and that has received `held` and answered nothing yet. -/
structure AwaitsUpgrade (ssl : Bool) (preferred held : Bytes) (comm : CommAbstract) : Prop where
  live : comm.live = true
  transport : comm.ssl = ssl
  wbio : comm.wbio = true
  notClosing : comm.flags.closing = false
  notAwaiting : comm.flags.awaitingHook = false
  established : comm.ssl = true → comm.flags.tlsEstablished = true
  enableWebsocket : comm.flags.enableWebsocket = true
  handshake : comm.flags.websocketState = .handshake
  protocols : (comm.websocket.map (·.preferredProtocols)).getD [] = preferred
  noFrames : (comm.websocket.getD {}).pendingWire = [] ∧ (comm.websocket.getD {}).decodedInput = []
  buffer : ∃ buf, OneBuffer comm buf ∧ buf.data = held
  noOutput : comm.outbound = []

/-- A slot that is open and has switched to frames, with `response` as the only output and nothing
received behind the request. -/
structure AnsweredUpgrade (response : Bytes) (comm : CommAbstract) : Prop where
  live : comm.live = true
  notClosing : comm.flags.closing = false
  notAwaiting : comm.flags.awaitingHook = false
  ready : comm.flags.websocketState.isReady = true
  answered : chainData comm.outbound = response
  noFrames : (comm.websocket.getD {}).pendingWire = [] ∧ (comm.websocket.getD {}).decodedInput = []
  buffer : ∃ buf : Cells, OneBuffer comm buf ∧ buf.data = []

variable {ρ : Type} {setup : Setup} {env : Surroundings ρ} {depth : Nat} {w : World ρ}
  {ssl : Bool} {preferred held response : Bytes} {comm : CommAbstract}

section

variable (h : AwaitsUpgrade ssl preferred held comm)

include h

theorem AwaitsUpgrade.pending :
    (comm.flags.enableWebsocket && !comm.flags.websocketState.isReady) = true := by
  rw [h.enableWebsocket, h.handshake]
  rfl

/-- What the upgrade looks at is the buffer. -/
theorem AwaitsUpgrade.request :
    commCopyInboundDataPrefix comm websocketMaxHandshakeBytes = held := by
  obtain ⟨buf, hbuf, hdata⟩ := h.buffer
  rw [hbuf.copyInboundData (by decide), hdata]

theorem AwaitsUpgrade.length_le : held.length ≤ bufferSize := by
  obtain ⟨buf, -, rfl⟩ := h.buffer
  exact buf.length_le

theorem AwaitsUpgrade.with_buffer (buf : Cells) :
    AwaitsUpgrade ssl preferred buf.data { comm with inbound := [⟨.data, buf⟩] } :=
  { h with buffer := ⟨buf, .inl rfl, rfl⟩ }

omit h in
/-- Without a header end nothing happens, and the limit is out of reach. -/
theorem commTryUpgradeWebsocket_unfinished (h : AwaitsUpgrade ssl preferred held w.comm)
    (hopen : findHttpHeaderEnd held = none) :
    Returns (slotHandler setup env depth) (commTryUpgradeWebsocket setup) w fun _ w' => w' = w := by
  have hshort : ¬ held.length ≥ websocketMaxHandshakeBytes := by
    have hlength := h.length_le
    simp only [bufferSize, websocketMaxHandshakeBytes] at hlength ⊢
    omega
  rw [commTryUpgradeWebsocket, returns_commGuard h.live]
  simp only [h.enableWebsocket, h.handshake, h.request, hopen, if_neg hshort]
  split_ifs <;> exact returns_done.mpr rfl

/-- The response is queued as a whole. -/
theorem AwaitsUpgrade.answered (hkey : ∀ key, (setup.acceptKey key).length = 28)
    (hok : commWebsocketBuildUpgradeResponse setup.acceptKey held preferred = .ok upgrade) :
    chainData (commBufferedWriteRaw comm upgrade.response).outbound = upgrade.response := by
  obtain ⟨hsome, hfits⟩ := length_response hkey h.length_le hok
  rw [commBufferedWriteRaw_filledChain h.wbio hsome hfits (by rw [h.noOutput]; decide),
    chainData_filledChain, h.noOutput, List.take_of_length_le (by exact hfits)]
  rfl

end

/-- The switch to frames, with or without a Telnet subprotocol. -/
theorem acceptUpgrade_returns (h : AwaitsUpgrade ssl preferred held w.comm)
    (hkey : ∀ key, (setup.acceptKey key).length = 28)
    (hok : commWebsocketBuildUpgradeResponse setup.acceptKey held preferred = .ok upgrade) :
    Returns (slotHandler setup env depth) (acceptUpgrade upgrade held.length) w fun _ w' =>
      AnsweredUpgrade upgrade.response w'.comm := by
  have hanswered := h.answered hkey hok
  obtain ⟨outbound, bufferedWrite, hqueued⟩ := commBufferedWriteRaw_eq w.comm upgrade.response
  rw [hqueued] at hanswered
  obtain ⟨buf, hbuf, rfl⟩ := h.buffer
  obtain ⟨buf', hempty, hbuf'⟩ := hbuf.consumeInboundData
  rw [acceptUpgrade, Program.effect_bind, returns_writeRaw, ifLive, if_pos h.live, hqueued,
    returns_modifyComm (by exact h.live)]
  have hupgraded (state : WebSocketState) (enableTelnet : Bool) (hstate : state.isReady = true) :
      AnsweredUpgrade upgrade.response
        { w.comm with
            inbound := consumeInboundData buf.data.length w.comm.inbound
            outbound
            flags := { w.comm.flags with bufferedWrite, websocketState := state, enableTelnet } } :=
    ⟨h.live, h.notClosing, h.notAwaiting, hstate, hanswered, h.noFrames, buf', hbuf', hempty⟩
  split
  · rw [returns_modifyFlags (by exact h.live), commEnableTelnetForSlot,
      returns_commGuard (by exact h.live)]
    have hready : WebSocketState.telnetPending.isReady = true := rfl
    simp only [CommAbstract.mapFlags, commConsumeInboundData, hready, Bool.not_true, Bool.and_false,
      Bool.false_eq_true, if_false, ne_eq, not_true_eq_false]
    split
    · exact returns_done.mpr (hupgraded .telnetPending _ rfl)
    · rw [returns_setComm]
      exact returns_done.mpr (hupgraded .telnetPending true rfl)
  · exact returns_done.mpr (hupgraded .ready _ rfl)

/-- With a whole header the response is queued and the slot switches to frames. -/
theorem commTryUpgradeWebsocket_finished (h : AwaitsUpgrade ssl preferred held w.comm)
    (hdone : findHttpHeaderEnd held = some held.length)
    (hkey : ∀ key, (setup.acceptKey key).length = 28)
    (hok : commWebsocketBuildUpgradeResponse setup.acceptKey held preferred = .ok upgrade) :
    Returns (slotHandler setup env depth) (commTryUpgradeWebsocket setup) w fun _ w' =>
      AnsweredUpgrade upgrade.response w'.comm := by
  have hsome : held.isEmpty = false := by
    rw [List.isEmpty_eq_false_iff]
    rintro rfl
    cases hdone
  have hpending : (!w.comm.flags.enableWebsocket || w.comm.flags.websocketState.isReady) = false := by
    rw [h.enableWebsocket, h.handshake]
    rfl
  rw [commTryUpgradeWebsocket, returns_commGuard h.live]
  simp only [hpending, h.request, hsome, hdone, List.take_length, h.protocols, hok,
    Bool.false_eq_true, if_false]
  exact acceptUpgrade_returns h hkey hok

/-! ### Reading -/

/-- The first bytes of a text that goes on behind the buffer's capacity are those in front of it. -/
theorem take_append_take_fill (held src : Bytes) (hheld : held.length ≤ bufferSize) :
    held ++ src.take (bufferSize - held.length) = (held ++ src).take bufferSize := by
  rw [List.take_append, List.take_of_length_le hheld]

/-- A text without a header end in what fits, or a request header that fits. -/
def Receivable (setup : Setup) (preferred text : Bytes) : Prop :=
  findHttpHeaderEnd (text.take bufferSize) = none ∨
    text.length ≤ bufferSize ∧ findHttpHeaderEnd text = some text.length ∧
      ∃ upgrade, commWebsocketBuildUpgradeResponse setup.acceptKey text preferred = .ok upgrade

/-- What a slot has done with a text: without a header end it waits, and a whole header is answered. -/
structure RequestRead (setup : Setup) (ssl : Bool) (preferred text : Bytes) (comm : CommAbstract) :
    Prop where
  waits : findHttpHeaderEnd (text.take bufferSize) = none →
    AwaitsUpgrade ssl preferred (text.take bufferSize) comm
  answers : ∀ upgrade, text.length ≤ bufferSize → findHttpHeaderEnd text = some text.length →
    commWebsocketBuildUpgradeResponse setup.acceptKey text preferred = .ok upgrade →
    AnsweredUpgrade upgrade.response comm

/-- Behind the first piece that does not fit nothing more is received. -/
theorem RequestRead.of_full {more : Bytes} (h : RequestRead setup ssl preferred text comm)
    (hfull : ¬ text.length ≤ bufferSize) :
    false = decide ((text ++ more).length ≤ bufferSize) ∧
      RequestRead setup ssl preferred (text ++ more) comm := by
  have hlong : ¬ (text ++ more).length ≤ bufferSize := by
    rw [List.length_append]
    omega
  refine ⟨(decide_eq_false hlong).symm, ?_, fun _ hfits => absurd hfits hlong⟩
  rw [List.take_append_of_le_length (by omega)]
  exact h.waits

/-- The beginnings of a text have no header end. -/
def OpenUpTo (text : Bytes) : Prop :=
  ∀ data, data <+: text → data ≠ text → data.length ≤ bufferSize → findHttpHeaderEnd data = none

theorem OpenUpTo.of_prefix {total : Bytes} (h : OpenUpTo total) (hstarts : text <+: total) :
    OpenUpTo text := by
  intro data hdata hne hlength
  refine h data (hdata.trans hstarts) ?_ hlength
  rintro rfl
  exact hne (hdata.eq_of_length_le hstarts.length_le)

theorem OpenUpTo.receivable {total : Bytes} (h : OpenUpTo total) (hstarts : text <+: total)
    (hproper : text ≠ total) : Receivable setup preferred text := by
  refine .inl (h _ ((List.take_prefix _ _).trans hstarts) ?_ (List.length_take_le _ _))
  intro htotal
  rw [← htotal] at hstarts
  exact hproper (htotal ▸ hstarts.eq_of_length_le (List.take_prefix _ _).length_le)

/-- A slot that has received nothing more waits as before. -/
theorem AwaitsUpgrade.received (h : AwaitsUpgrade ssl preferred held comm)
    (hopen : findHttpHeaderEnd held = none) : RequestRead setup ssl preferred held comm where
  waits _ := by rwa [List.take_of_length_le h.length_le]
  answers _ _ hdone _ := by
    rw [hopen] at hdone
    cases hdone

/-- The read loop of a TLS slot is an exchange of pieces. -/
theorem refillTls_eval (pieces : List Chunk) (hpieces : ∀ piece ∈ pieces, piece.data ≠ [])
    (w : World ρ) : (refillTls setup pieces true).eval (slotHandler setup env depth) w
      = exchange (fun piece : Chunk => (refillInboundBuffersFromSrc setup piece.data).eval
          (slotHandler setup env depth)) pieces w := by
  induction pieces generalizing w with
  | nil => rfl
  | cons piece pieces ih =>
    have hsome : piece.data.isEmpty = false :=
      List.isEmpty_eq_false_iff.mpr (hpieces piece List.mem_cons_self)
    rw [refillTls, hsome, if_neg Bool.false_ne_true, Program.eval_bind, exchange]
    congr 1
    funext r
    obtain ⟨accepted, w₁⟩ := r
    cases accepted with
    | false => rfl
    | true => exact ih (fun p hp => hpieces p (List.mem_cons_of_mem _ hp)) w₁

/-- Sources one after the other, up to the first that does not fit: the slot is kept exactly if all of it
fits. -/
theorem exchange_received {S : Type} {round : S → World ρ → Option (Bool × World ρ)}
    {data : S → Bytes} {good : S → Prop} (hdata : ∀ src, good src → data src ≠ [])
    (hround : ∀ src, good src → ∀ held (w : World ρ), AwaitsUpgrade ssl preferred held w.comm →
      findHttpHeaderEnd held = none → OpenUpTo (held ++ data src) →
      Receivable setup preferred (held ++ data src) →
      ∃ w', round src w = some (decide ((held ++ data src).length ≤ bufferSize), w') ∧
        RequestRead setup ssl preferred (held ++ data src) w'.comm) (srcs : List S)
    (hsrcs : ∀ src ∈ srcs, good src) (w : World ρ) (h : AwaitsUpgrade ssl preferred held w.comm)
    (hheld : findHttpHeaderEnd held = none) (hopen : OpenUpTo (held ++ srcs.flatMap data))
    (htotal : Receivable setup preferred (held ++ srcs.flatMap data)) :
    ∃ w', exchange round srcs w
        = some (decide ((held ++ srcs.flatMap data).length ≤ bufferSize), w') ∧
      RequestRead setup ssl preferred (held ++ srcs.flatMap data) w'.comm := by
  induction srcs generalizing held w with
  | nil =>
    rw [List.flatMap_nil, List.append_nil, decide_eq_true h.length_le]
    exact ⟨w, rfl, h.received hheld⟩
  | cons src srcs ih =>
    rw [List.flatMap_cons, ← List.append_assoc] at hopen htotal ⊢
    have hrest : ∀ other ∈ srcs, good other := fun other hother =>
      hsrcs other (List.mem_cons_of_mem _ hother)
    have hstarts : held ++ data src <+: held ++ data src ++ srcs.flatMap data :=
      List.prefix_append _ _
    have hfirst := hround src (hsrcs src List.mem_cons_self) held w h hheld (hopen.of_prefix hstarts)
    by_cases hlast : srcs.flatMap data = []
    · -- every source brings something, so this is the last one
      obtain rfl : srcs = [] := by
        rw [List.flatMap_eq_nil_iff] at hlast
        exact List.eq_nil_iff_forall_not_mem.mpr fun other hother =>
          hdata other (hrest other hother) (hlast other hother)
      rw [hlast, List.append_nil] at htotal ⊢
      obtain ⟨w₁, hround, hreceived⟩ := hfirst htotal
      rw [exchange, hround, Option.bind_some]
      refine ⟨w₁, ?_, hreceived⟩
      cases decide ((held ++ data src).length ≤ bufferSize) <;> rfl
    · have hproper : held ++ data src ≠ held ++ data src ++ srcs.flatMap data :=
        fun heq => hlast (List.append_right_eq_self.mp heq.symm)
      obtain ⟨w₁, hround, hreceived⟩ := hfirst (hopen.receivable hstarts hproper)
      rw [exchange, hround, Option.bind_some]
      by_cases hfits : (held ++ data src).length ≤ bufferSize
      · have hnone := hopen _ hstarts hproper hfits
        have hawaits := hreceived.waits (by rwa [List.take_of_length_le hfits])
        rw [List.take_of_length_le hfits] at hawaits
        rw [decide_eq_true hfits, if_pos rfl]
        exact ih hrest w₁ hawaits hnone hopen htotal
      · rw [decide_eq_false hfits, if_neg Bool.false_ne_true]
        obtain ⟨hlong, hreceived⟩ := hreceived.of_full hfits
        exact ⟨w₁, by rw [← hlong], hreceived⟩

section Reading

variable (hkey : ∀ key, (setup.acceptKey key).length = 28)

include hkey

theorem refill_request (h : AwaitsUpgrade ssl preferred held w.comm) (src : Bytes)
    (hsrc : Receivable setup preferred (held ++ src)) :
    Returns (slotHandler setup env depth) (refillInboundBuffersFromSrc setup src) w
      fun accepted w' => accepted = decide ((held ++ src).length ≤ bufferSize) ∧
        RequestRead setup ssl preferred (held ++ src) w'.comm := by
  obtain ⟨buf, hbuf, rfl⟩ := h.buffer
  rw [List.length_append]
  apply refill_fills w h.live (by simp [parsesTelnet, h.pending]) buf hbuf src
  intro buf' hdata
  rw [take_append_take_fill _ _ buf.length_le] at hdata
  have hawaits := h.with_buffer buf'
  rw [hdata] at hawaits
  rw [if_pos h.pending]
  rcases hsrc with hopen | ⟨hfits, hdone, upgrade, hok⟩
  · apply (commTryUpgradeWebsocket_unfinished hawaits hopen).mono
    rintro _ _ rfl
    refine ⟨rfl, fun _ => hawaits, fun _ hfits hdone => ?_⟩
    rw [List.take_of_length_le hfits, hdone] at hopen
    cases hopen
  · rw [List.take_of_length_le hfits] at hawaits
    apply (commTryUpgradeWebsocket_finished hawaits hdone hkey hok).mono
    intro _ w' hupgraded
    refine ⟨rfl, fun hopen => ?_, fun upgrade' _ _ hok' => ?_⟩
    · rw [List.take_of_length_le hfits, hdone] at hopen
      cases hopen
    · cases hok.symm.trans hok'
      exact hupgraded

/-- The pieces of a record, up to the first that does not fit. -/
theorem refillTls_request (pieces : List Chunk) (hpieces : ∀ piece ∈ pieces, piece.data ≠ [])
    (w : World ρ) (h : AwaitsUpgrade ssl preferred held w.comm)
    (hheld : findHttpHeaderEnd held = none) (hopen : OpenUpTo (held ++ wireBytes pieces))
    (htotal : Receivable setup preferred (held ++ wireBytes pieces)) :
    Returns (slotHandler setup env depth) (refillTls setup pieces true) w fun accepted w' =>
      accepted = decide ((held ++ wireBytes pieces).length ≤ bufferSize) ∧
        RequestRead setup ssl preferred (held ++ wireBytes pieces) w'.comm := by
  have hpiece (piece : Chunk) (_ : piece.data ≠ []) (held : Bytes) (w : World ρ)
      (h : AwaitsUpgrade ssl preferred held w.comm) (_ : findHttpHeaderEnd held = none)
      (_ : OpenUpTo (held ++ piece.data)) (hsrc : Receivable setup preferred (held ++ piece.data)) :
      ∃ w', (refillInboundBuffersFromSrc setup piece.data).eval (slotHandler setup env depth) w
          = some (decide ((held ++ piece.data).length ≤ bufferSize), w') ∧
        RequestRead setup ssl preferred (held ++ piece.data) w'.comm := by
    obtain ⟨_, w', heval, rfl, hreceived⟩ := refill_request hkey h piece.data hsrc
    exact ⟨w', heval, hreceived⟩
  obtain ⟨w', hexchange, hreceived⟩ :=
    exchange_received (fun _ => id) hpiece pieces hpieces w h hheld hopen htotal
  exact ⟨_, w', (refillTls_eval pieces hpieces w).trans hexchange, rfl, hreceived⟩

end Reading

/-- A read brings something, and a plain transport hands out one piece at a time. -/
def Deliverable (ssl : Bool) (record : TlsRecord) : Prop :=
  record.pieces ≠ [] ∧ (ssl = false → record.pieces.length = 1)

theorem Deliverable.data_ne_nil {ssl : Bool} {record : TlsRecord} (h : Deliverable ssl record) :
    record.data ≠ [] := by
  obtain ⟨piece, pieces, hpieces⟩ := List.exists_cons_of_ne_nil h.1
  intro hnone
  rw [TlsRecord.data, wireBytes, List.flatMap_eq_nil_iff] at hnone
  have hmem : piece ∈ record.pieces := by rw [hpieces]; exact List.mem_cons_self
  exact record.nonempty piece hmem (hnone piece hmem)

/-- `comm_refill_inbound_buffers` passes the pieces on, whatever the transport. -/
theorem commRefillInboundBuffers_pieces (record : TlsRecord)
    (hdeliverable : Deliverable w.comm.ssl record) (hlive : w.comm.live = true)
    (hestablished : w.comm.ssl = true → w.comm.flags.tlsEstablished = true)
    {Q : Bool → World ρ → Prop} (hpieces : ∀ w₁ : World ρ, w₁.comm = w.comm →
      Returns (slotHandler setup (env.decrypting record) depth)
        (refillTls setup record.pieces true) w₁ Q) :
    Returns (slotHandler setup (env.decrypting record) depth) (commRefillInboundBuffers setup)
      { w with reads := record.pieces.map .data } Q := by
  rw [commRefillInboundBuffers, returns_commGuard (by exact hlive)]
  dsimp only
  cases hssl : w.comm.ssl with
  | true =>
    rw [if_pos rfl, commTlsHandshakeStep, Program.bind_assoc', returns_commGuard (by exact hlive)]
    dsimp only
    rw [hestablished hssl, Bool.or_true, if_pos rfl, Program.pure_eq, Program.done_bind]
    dsimp only
    rw [returns_commDeref (by exact hlive), Program.effect_bind,
      returns_answered (slotHandler_of_unfold_none _ rfl)]
    exact hpieces _ rfl
  | false =>
    obtain ⟨piece, hpiece⟩ := List.length_eq_one_iff.mp (hdeliverable.2 hssl)
    rw [hpiece] at hpieces ⊢
    rw [if_neg Bool.false_ne_true, Program.effect_bind, returns_transportRead]
    have hone := hpieces { w with reads := [] } rfl
    rw [refillTls] at hone
    show Returns _ (if piece.data.isEmpty then pure true
      else refillInboundBuffersFromSrc setup piece.data) { w with reads := [] } Q
    split at hone
    · next hempty =>
        rw [if_pos hempty]
        exact hone
    · next hsome =>
        rw [if_neg hsome]
        apply (returns_bind.mp hone).mono
        intro accepted w' hdone
        cases accepted with
        | true => exact returns_done.mp hdone
        | false => exact returns_done.mp hdone

/-! ### Processing and the rounds of the event loop -/

/-- The parser does nothing while the header is unfinished. -/
theorem commProcessInput_unfinished (h : AwaitsUpgrade ssl preferred held w.comm)
    (hidle : ∀ outside, env.slotBusy outside = false) (hopen : findHttpHeaderEnd held = none) :
    Returns (slotHandler setup env depth) (commProcessInput setup none) w fun result w' =>
      result = .ok ∧ AwaitsUpgrade ssl preferred held w'.comm := by
  obtain ⟨buf, hbuf, hdata⟩ := h.buffer
  rw [commProcessInput, processInputWith, returns_commGuard h.live]
  simp only [h.notAwaiting, Bool.false_eq_true, if_false, Program.effect_bind]
  rw [returns_asksBusy, hidle, if_neg Bool.false_ne_true, returns_modifyComm (by exact h.live),
    if_pos h.pending]
  simp only [hbuf.skipNonDataHeadBuffers]
  have hawaits : AwaitsUpgrade ssl preferred held
      { w.comm with flags := { w.comm.flags with deferredInbound := false } } := { h with }
  apply (commTryUpgradeWebsocket_unfinished (by exact hawaits) hopen).bind
  rintro _ _ rfl
  rw [returns_commGuard (by exact h.live)]
  have hwaits : w.comm.flags.websocketState.isReady = false := by rw [h.handshake]; rfl
  simp only [hwaits, Bool.false_eq_true, if_false]
  exact returns_done.mpr ⟨rfl, hawaits⟩

/-- Nor behind the upgrade, as long as nothing else has arrived. -/
theorem commProcessInput_upgraded (h : AnsweredUpgrade response w.comm)
    (hidle : ∀ outside, env.slotBusy outside = false) :
    Returns (slotHandler setup env depth) (commProcessInput setup none) w fun result w' =>
      result = .ok ∧ AnsweredUpgrade response w'.comm := by
  obtain ⟨buf, hbuf, hdata⟩ := h.buffer
  rw [commProcessInput, processInputWith, returns_commGuard h.live]
  simp only [h.notAwaiting, h.ready, Bool.not_true, Bool.and_false, Bool.false_eq_true, if_false,
    if_true, Program.effect_bind]
  rw [returns_asksBusy, hidle, if_neg Bool.false_ne_true, returns_modifyComm (by exact h.live),
    commProcessWebsocketInput, returns_modifyComm (by exact h.live)]
  -- no byte is moved, so nothing is decoded
  have hbuf₁ : OneBuffer { w.comm with flags := { w.comm.flags with deferredInbound := false } } buf :=
    hbuf
  have hkept : consumeInboundData 0 w.comm.inbound = w.comm.inbound := by
    cases w.comm.inbound <;> rfl
  obtain ⟨decoder, hdecoder⟩ : ∃ decoder, w.comm.websocket.getD {} = decoder := ⟨_, rfl⟩
  have hnone := h.noFrames
  rw [hdecoder] at hnone
  simp only [hbuf.skipNonDataHeadBuffers, hbuf₁.copyInboundData (show bufferSize ≤ sizeMax by decide),
    hdata, hdecoder, List.append_nil, List.length_nil, hkept]
  apply (processWebsocketDecodedInput_nothing (by exact h.live) rfl hnone.2).bind
  rintro _ _ ⟨rfl, rfl⟩
  simp only [ne_eq, not_true_eq_false, if_false]
  rw [returns_commDeref (by exact h.live)]
  apply (websocketInputLoop_idle _ (by exact h.live) rfl hnone.1).mono
  rintro _ _ ⟨rfl, rfl⟩
  exact ⟨rfl, h.live, h.notClosing, h.notAwaiting, h.ready, h.answered, hnone, buf, hbuf, hdata⟩

/-- The two calls of the event loop's read branch. -/
def readAndProcess (setup : Setup) : Code (Bool × ProcessResult) := do
  let refilled ← commRefillInboundBuffers setup
  let result ← commProcessInput setup none
  pure (refilled, result)

/-- Whether the event loop keeps the slot behind these two answers. -/
def keepsSlot (answers : Bool × ProcessResult) : Bool :=
  answers.1 && !(answers.2 = .error || answers.2 = .closed)

/-- The read branch of the event loop closes the slot exactly behind answers that do not keep it. -/
theorem readEvent_eq (hawaiting : comm.flags.awaitingHook = false) :
    readEvent setup comm = (do
      if ← effect .slotBusy then pure true
      else do
        let answers ← readAndProcess setup
        match ← commGuard with
        | none => pure true
        | some _ =>
          if keepsSlot answers then pure false
          else do
            if answers.1 then do
              let _ ← effect .callClose
              pure ()
            else closeAfterEof
            pure true) := by
  rw [readEvent, hawaiting, if_neg Bool.false_ne_true]
  simp only [readAndProcess, keepsSlot, Program.bind_assoc', Program.pure_eq, Program.done_bind]
  congr 1
  funext busy
  congr 2
  funext refilled
  congr 1
  funext result
  congr 1
  funext guarded
  cases guarded with
  | none => rfl
  | some _ => cases refilled <;> cases result <;> rfl

/-- One read event, with a record or a single read to come; the answer says whether the slot is kept. -/
def readRound (setup : Setup) (env : Surroundings ρ) (depth : Nat) (record : TlsRecord) (w : World ρ) :
    Option (Bool × World ρ) :=
  ((readAndProcess setup).eval (slotHandler setup (env.decrypting record) depth)
    { w with reads := record.pieces.map .data }).map fun r => (keepsSlot r.1, r.2)

/-- The bytes of records, one behind the other. -/
def recordBytes (records : List TlsRecord) : Bytes := records.flatMap TlsRecord.data

variable {reads : List TlsRecord}

section Rounds

variable (hidle : ∀ outside, env.slotBusy outside = false)

include hidle

variable (hkey : ∀ key, (setup.acceptKey key).length = 28)

include hkey

/-- A read; the slot is kept exactly if the bytes fit. -/
theorem readRound_request (record : TlsRecord) (hdeliverable : Deliverable ssl record)
    (h : AwaitsUpgrade ssl preferred held w.comm) (hheld : findHttpHeaderEnd held = none)
    (hopen : OpenUpTo (held ++ record.data))
    (hrecord : Receivable setup preferred (held ++ record.data)) :
    ∃ w', readRound setup env depth record w
        = some (decide ((held ++ record.data).length ≤ bufferSize), w') ∧
      RequestRead setup ssl preferred (held ++ record.data) w'.comm := by
  have hround : Returns (slotHandler setup (env.decrypting record) depth) (readAndProcess setup)
      { w with reads := record.pieces.map .data } fun answers w' =>
        keepsSlot answers = decide ((held ++ record.data).length ≤ bufferSize) ∧
          RequestRead setup ssl preferred (held ++ record.data) w'.comm := by
    have hidle' : ∀ outside, (env.decrypting record).slotBusy outside = false := hidle
    rw [readAndProcess]
    refine Returns.bind (commRefillInboundBuffers_pieces record (by rwa [h.transport]) h.live
      h.established fun w₁ hw₁ =>
        refillTls_request hkey record.pieces record.nonempty w₁ (by rwa [hw₁]) hheld hopen hrecord) ?_
    rintro accepted w₁ ⟨rfl, hreceived⟩
    rcases hrecord with hnone | ⟨hfits, hdone, upgrade, hok⟩
    · apply (commProcessInput_unfinished (hreceived.waits hnone) hidle' hnone).bind
      rintro _ w₂ ⟨rfl, hawaits⟩
      refine returns_done.mpr ⟨Bool.and_true _, fun _ => hawaits, fun _ hfits hdone => ?_⟩
      rw [List.take_of_length_le hfits] at hnone
      exact absurd (hnone.symm.trans hdone) nofun
    · apply (commProcessInput_upgraded (hreceived.answers upgrade hfits hdone hok) hidle').bind
      rintro _ w₂ ⟨rfl, hupgraded⟩
      refine returns_done.mpr ⟨Bool.and_true _, fun hnone => ?_, fun upgrade' _ _ hok' => ?_⟩
      · rw [List.take_of_length_le hfits] at hnone
        exact absurd (hnone.symm.trans hdone) nofun
      · cases hok.symm.trans hok'
        exact hupgraded
  obtain ⟨answers, w', heval, hkept, hreceived⟩ := hround
  refine ⟨w', ?_, hreceived⟩
  rw [readRound, heval, Option.map_some, hkept]

/-- A segmented stream: the slot is kept exactly if all of it fits. -/
theorem exchange_request (hdeliverable : ∀ record ∈ reads, Deliverable ssl record)
    (hbytes : recordBytes reads = stream) (h : AwaitsUpgrade ssl preferred [] w.comm)
    (hopen : OpenUpTo stream) (htotal : Receivable setup preferred stream) :
    ∃ w', exchange (readRound setup env depth) reads w
        = some (decide (stream.length ≤ bufferSize), w') ∧
      RequestRead setup ssl preferred stream w'.comm := by
  subst hbytes
  exact exchange_received (fun _ => Deliverable.data_ne_nil)
    (fun record hrecord held w => readRound_request hidle hkey record hrecord) reads hdeliverable w h
    rfl hopen htotal

end Rounds

/-! ### Which requests are answered -/

/-- The reads are a segmentation of the stream. -/
structure Segments (ssl : Bool) (stream : Bytes) (reads : List TlsRecord) : Prop where
  deliverable : ∀ record ∈ reads, Deliverable ssl record
  bytes : recordBytes reads = stream

/-- The slot answers the request and keeps the connection. -/
def AnswersUpgrade (setup : Setup) (env : Surroundings ρ) (depth : Nat) (response : Bytes)
    (w : World ρ) (reads : List TlsRecord) : Prop :=
  ∃ w', exchange (readRound setup env depth) reads w = some (true, w') ∧ AnsweredUpgrade response w'.comm

/-- The event loop gives the connection up, and nothing has been answered. -/
def GivesUpSilently (setup : Setup) (env : Surroundings ρ) (depth : Nat) (w : World ρ)
    (reads : List TlsRecord) : Prop :=
  ∃ w', exchange (readRound setup env depth) reads w = some (false, w') ∧
    w'.comm.outbound = [] ∧ w'.comm.flags.websocketState = .handshake

theorem GivesUpSilently.not_answersUpgrade (h : GivesUpSilently setup env depth w reads)
    (response : Bytes) : ¬ AnswersUpgrade setup env depth response w reads := by
  rintro ⟨w', hkept, -⟩
  obtain ⟨w'', hgivesUp, -⟩ := h
  rw [hkept] at hgivesUp
  cases hgivesUp

/-- A read of one piece. -/
def TlsRecord.single (chunk : Chunk) (hsome : chunk.data ≠ []) : TlsRecord := .ofChunk chunk hsome

theorem TlsRecord.deliverable_single (ssl : Bool) (chunk : Chunk) (hsome : chunk.data ≠ []) :
    Deliverable ssl (.single chunk hsome) :=
  ⟨nofun, fun _ => rfl⟩

theorem TlsRecord.data_single (chunk : Chunk) (hsome : chunk.data ≠ []) :
    (TlsRecord.single chunk hsome).data = chunk.data :=
  List.append_nil _

/-- The reads of one byte each. -/
def singleBytes (stream : Bytes) : List TlsRecord :=
  stream.map fun b => .single ⟨[b], by simp [bufferSize]⟩ nofun

theorem segments_singleBytes (ssl : Bool) (stream : Bytes) :
    Segments ssl stream (singleBytes stream) where
  deliverable record hrecord := by
    obtain ⟨b, -, rfl⟩ := List.mem_map.mp hrecord
    exact TlsRecord.deliverable_single ssl _ _
  bytes := by
    rw [recordBytes, singleBytes, List.flatMap_map]
    exact List.flatMap_singleton' stream

/-- A stream whose first 4096 bytes have no header end, and that goes on. -/
theorem givesUpSilently_of_long (hidle : ∀ outside, env.slotBusy outside = false)
    (hkey : ∀ key, (setup.acceptKey key).length = 28) (h : AwaitsUpgrade ssl preferred [] w.comm)
    (hlong : bufferSize < stream.length)
    (hopen : ∀ data, data <+: stream → data.length ≤ bufferSize → findHttpHeaderEnd data = none)
    (hreads : Segments ssl stream reads) : GivesUpSilently setup env depth w reads := by
  have hfull : findHttpHeaderEnd (stream.take bufferSize) = none :=
    hopen _ (List.take_prefix _ _) (List.length_take_le _ _)
  obtain ⟨w', hexchange, hreceived⟩ := exchange_request hidle hkey hreads.deliverable hreads.bytes h
    (fun data hstarts _ => hopen data hstarts) (.inl hfull)
  rw [decide_eq_false (Nat.not_le.mpr hlong)] at hexchange
  have hawaits := hreceived.waits hfull
  exact ⟨w', hexchange, hawaits.noOutput, hawaits.handshake⟩

/-- A well-formed upgrade request is answered with the 101 response in every segmentation exactly if its
header is not longer than one inbound buffer. A longer stream is never answered with 431: the event loop
gives the connection up before the test for the limit can succeed. -/
theorem upgrade_requests_answered_iff {ρ : Type} (setup : Setup) (env : Surroundings ρ) (depth : Nat)
    (hidle : ∀ outside, env.slotBusy outside = false)
    (hkey : ∀ key, (setup.acceptKey key).length = 28) (ssl : Bool) (preferred : Bytes) (w : World ρ)
    (h : AwaitsUpgrade ssl preferred [] w.comm) :
    (∀ header upgrade, RequestHeader header →
      commWebsocketBuildUpgradeResponse setup.acceptKey header preferred = .ok upgrade →
      ((∀ reads, Segments ssl header reads →
          AnswersUpgrade setup env depth upgrade.response w reads)
        ↔ header.length ≤ bufferSize)) ∧
    ∀ stream reads, websocketMaxHandshakeBytes < stream.length → findHttpHeaderEnd stream = none →
      Segments ssl stream reads → GivesUpSilently setup env depth w reads := by
  constructor
  · intro header upgrade hheader hok
    constructor
    · intro hanswers
      by_contra hlong
      have hopen (data : Bytes) (hstarts : data <+: header) (hlength : data.length ≤ bufferSize) :
          findHttpHeaderEnd data = none := by
        apply hheader.unfinished data hstarts
        rintro rfl
        exact hlong hlength
      have hreads := segments_singleBytes ssl header
      have hgivesUp : GivesUpSilently setup env depth w (singleBytes header) :=
        givesUpSilently_of_long hidle hkey h (Nat.not_le.mp hlong) hopen hreads
      exact hgivesUp.not_answersUpgrade _ (hanswers _ hreads)
    · intro hfits reads hreads
      obtain ⟨w', hexchange, hreceived⟩ := exchange_request hidle hkey hreads.deliverable
        hreads.bytes h (fun data hstarts hne _ => hheader.unfinished data hstarts hne)
        (.inr ⟨hfits, hheader.complete, upgrade, hok⟩)
      rw [decide_eq_true hfits] at hexchange
      exact ⟨w', hexchange, hreceived.answers upgrade hfits hheader.complete hok⟩
  · intro stream reads hlong hopen hreads
    have hlimit : bufferSize ≤ websocketMaxHandshakeBytes := by decide
    exact givesUpSilently_of_long hidle hkey h (Nat.lt_of_le_of_lt hlimit hlong)
      (fun data hstarts _ => findHttpHeaderEnd_of_prefix hstarts hopen) hreads

/-! ### A short and a long request -/

/-- An upgrade request up to the value of its last header field. -/
def requestStart : Bytes :=
  ascii "GET / HTTP/1.1\r\nUpgrade: websocket\r\nConnection: Upgrade\r\n"
    ++ ascii "Sec-WebSocket-Key: k\r\nCookie: "

/-- The request with a value of `size` bytes. -/
def paddedRequest (size : Nat) : Bytes :=
  requestStart ++ (List.replicate size 97 ++ [13, 10, 13, 10])

/-- A setup whose accept keys have the length of encoded digests. -/
def digestSetup : Setup := { chatSetup with acceptKey := fun _ => List.replicate 28 65 }

/-- A plain connection with a pending upgrade. -/
def pendingWorld : World Unit where
  comm := { rbio := true, wbio := true, flags := { enableWebsocket := true, lineInput := true } }
  entries := []
  reads := []
  outside := ()

theorem pendingWorld_awaits : AwaitsUpgrade false [] [] pendingWorld.comm :=
  ⟨rfl, rfl, rfl, rfl, rfl, nofun, rfl, rfl, rfl, ⟨rfl, rfl⟩, ⟨.empty, .inr ⟨rfl, rfl⟩, rfl⟩, rfl⟩

/-- The search passes a text in which no occurrence begins, whatever follows. -/
theorem findBytes_skip {needle ahead stream : Bytes} (hahead : ahead <+: stream)
    (hneedle : needle.length ≤ ahead.length + 1) (text : Bytes)
    (hnone : findBytes needle (text ++ ahead) = none) :
    findBytes needle (text ++ stream) = (findBytes needle stream).map (· + text.length) := by
  induction text with
  | nil => exact Option.map_id'.symm
  | cons b text ih =>
    rw [List.cons_append, findBytes] at hnone ⊢
    split at hnone
    · cases hnone
    · next hnot =>
        have hnot' : ¬ needle.isPrefixOf (b :: (text ++ stream)) = true := by
          intro hstarts
          apply hnot
          apply List.isPrefixOf_iff_prefix.mpr
          have hlonger : b :: (text ++ ahead) <+: b :: (text ++ stream) :=
            (List.prefix_append_right_inj (b :: text)).mpr hahead
          apply List.prefix_of_prefix_length_le (List.isPrefixOf_iff_prefix.mp hstarts) hlonger
          rw [List.length_cons, List.length_append]
          omega
        rw [if_neg hnot', ih (Option.map_eq_none_iff.mp hnone), Option.map_map, List.length_cons]
        rfl

theorem findBytes_replicate {first b : Byte} (hne : first ≠ b) (needle stream : Bytes) (n : Nat) :
    findBytes (first :: needle) (List.replicate n b ++ stream)
      = (findBytes (first :: needle) stream).map (· + n) := by
  induction n with
  | zero => exact Option.map_id'.symm
  | succ n ih =>
    have hnot : (first :: needle).isPrefixOf (b :: (List.replicate n b ++ stream)) = false := by
      rw [List.isPrefixOf, beq_false_of_ne hne, Bool.false_and]
    rw [List.replicate_succ, List.cons_append, findBytes, hnot, if_neg Bool.false_ne_true, ih,
      Option.map_map]
    rfl

theorem findBytes_paddedRequest {first : Byte} (hne : first ≠ 97) {size : Nat} (hsize : 4 ≤ size)
    (hneedle : needle.length ≤ 4)
    (hnone : findBytes (first :: needle) (requestStart ++ List.replicate 4 97) = none) :
    findBytes (first :: needle) (paddedRequest size)
      = (findBytes (first :: needle) [13, 10, 13, 10]).map (· + (requestStart.length + size)) := by
  have hahead : List.replicate 4 97 <+: List.replicate size (97 : Byte) ++ [13, 10, 13, 10] := by
    obtain ⟨more, rfl⟩ := Nat.exists_eq_add_of_le hsize
    rw [← List.replicate_append_replicate, List.append_assoc]
    exact List.prefix_append _ _
  have hlength : (first :: needle).length ≤ (List.replicate 4 (97 : Byte)).length + 1 := by
    rw [List.length_replicate, List.length_cons]
    omega
  rw [paddedRequest, findBytes_skip hahead hlength requestStart hnone,
    findBytes_replicate hne, Option.map_map]
  congr 1
  funext i
  simp only [Function.comp_apply]
  omega

theorem length_paddedRequest (size : Nat) :
    (paddedRequest size).length = requestStart.length + size + 4 := by
  rw [paddedRequest, List.length_append, List.length_append, List.length_replicate,
    ← Nat.add_assoc]
  rfl

theorem paddedRequest_header {size : Nat} (hsize : 4 ≤ size) : RequestHeader (paddedRequest size) := by
  have hfound : findBytes [13, 10, 13, 10] [13, 10, 13, 10] = some 0 := rfl
  apply requestHeader_of_crlf
  · rw [findBytes_paddedRequest (by decide) hsize (by decide) (by decide +kernel), hfound,
      length_paddedRequest, Option.map_some, Nat.zero_add, Nat.add_sub_cancel]
  · rw [findBytes_paddedRequest (by decide) hsize (by decide) (by decide +kernel)]
    rfl

theorem exists_upgrade
    (hok : (commWebsocketBuildUpgradeResponse digestSetup.acceptKey header []).isOk = true) :
    ∃ upgrade, commWebsocketBuildUpgradeResponse digestSetup.acceptKey header [] = .ok upgrade := by
  cases hbuild : commWebsocketBuildUpgradeResponse digestSetup.acceptKey header [] with
  | ok upgrade => exact ⟨upgrade, rfl⟩
  | error status =>
    rw [hbuild] at hok
    cases hok

/-- A short request, read byte by byte. -/
theorem upgrade_requests_answered_iff_short : ∃ upgrade : UpgradeResponse,
    AnswersUpgrade digestSetup chatSurroundings 0 upgrade.response pendingWorld
      (singleBytes (paddedRequest 4)) := by
  obtain ⟨upgrade, hok⟩ : ∃ upgrade, commWebsocketBuildUpgradeResponse digestSetup.acceptKey
      (paddedRequest 4) [] = .ok upgrade := exists_upgrade (by decide +kernel)
  have hanswered := upgrade_requests_answered_iff digestSetup chatSurroundings 0 (fun _ => rfl)
    (fun _ => rfl) false [] pendingWorld pendingWorld_awaits
  exact ⟨upgrade, (hanswered.1 _ upgrade (paddedRequest_header (by decide)) hok).mpr (by decide +kernel)
    _ (segments_singleBytes false _)⟩

/-- A stream read in two pieces. -/
theorem segments_two {first second : Chunk} (hfirst : first.data ≠ []) (hsecond : second.data ≠ [])
    (hstream : first.data ++ second.data = stream) :
    Segments false stream [.single first hfirst, .single second hsecond] where
  deliverable record hrecord := by
    rcases List.mem_pair.mp hrecord with rfl | rfl <;> exact TlsRecord.deliverable_single _ _ _
  bytes := by
    rw [recordBytes, List.flatMap_cons, List.flatMap_singleton, TlsRecord.data_single,
      TlsRecord.data_single, hstream]

/-- A request with a header field of 4096 bytes. -/
def longRequest : Bytes := paddedRequest 4096

theorem length_longRequest : longRequest.length = bufferSize + 91 := by
  have hstart : requestStart.length = 87 := by decide +kernel
  rw [longRequest, length_paddedRequest, hstart]
  rfl

theorem longRequest_header : RequestHeader longRequest := paddedRequest_header (by decide)

/-- What a first read of 4096 bytes leaves of the request. -/
def longRequestRest : Chunk := ⟨longRequest.drop bufferSize, by
  rw [List.length_drop, length_longRequest, Nat.add_sub_cancel_left]
  decide⟩

/-- The first 4096 bytes of the request. -/
def longRequestStart : Chunk := ⟨longRequest.take bufferSize, List.length_take_le _ _⟩

theorem longRequestStart_ne_nil : longRequestStart.data ≠ [] := by
  rw [← List.length_pos_iff, longRequestStart, List.length_take, length_longRequest]
  decide

theorem longRequestRest_ne_nil : longRequestRest.data ≠ [] := by
  rw [← List.length_pos_iff, longRequestRest, List.length_drop, length_longRequest]
  decide

/-- A well-formed request of 4187 bytes. Its first read fills the buffer, and with the second the event loop
gives the slot up. -/
theorem long_request_is_not_answered : ∃ upgrade : UpgradeResponse,
    commWebsocketBuildUpgradeResponse digestSetup.acceptKey longRequest [] = .ok upgrade ∧
      ¬ AnswersUpgrade digestSetup chatSurroundings 0 upgrade.response pendingWorld
        [.single longRequestStart longRequestStart_ne_nil,
          .single longRequestRest longRequestRest_ne_nil] := by
  obtain ⟨upgrade, hok⟩ : ∃ upgrade, commWebsocketBuildUpgradeResponse digestSetup.acceptKey
      longRequest [] = .ok upgrade := exists_upgrade (by decide +kernel)
  have hlong : bufferSize < longRequest.length := by
    rw [length_longRequest]
    omega
  have hopen (data : Bytes) (hstarts : data <+: longRequest) (hlength : data.length ≤ bufferSize) :
      findHttpHeaderEnd data = none := by
    apply longRequest_header.unfinished data hstarts
    rintro rfl
    omega
  refine ⟨upgrade, hok, GivesUpSilently.not_answersUpgrade ?_ _⟩
  have hreads : Segments false longRequest
      [.single longRequestStart longRequestStart_ne_nil,
        .single longRequestRest longRequestRest_ne_nil] :=
    segments_two _ _ (by rw [longRequestStart, longRequestRest, List.take_append_drop])
  exact givesUpSilently_of_long (fun _ => rfl) (fun _ => rfl) pendingWorld_awaits hlong hopen hreads

end Mudmux.Comm
