import Mudmux.Comm.Http

/-!
# `Mudmux.Proofs.HttpHeaders`: the lines of an upgrade request

Two functions of `lib/comm/websocket.cpp` look for the end of a request header.
`_find_http_header_end` searches the text for CR LF CR LF and then for LF LF; `parse_http_headers` goes
through the lines, takes one CR from the end of each, and stops at the first empty one. `emptyLineEnd`
is the position behind that line.

The two agree, whatever bytes follow, when the first empty line is a CR LF behind a line that ends in
CR LF (`http_scanners_agree_iff`). They do not agree on a header with bare line feeds: LF CR LF is an
empty line that the search does not find, and a CR LF CR LF anywhere behind an LF LF is found instead
of it.

What `parse_http_headers` reads off the lines does not depend on their layout
(`upgrade_verdict_ignores_layout`). A header line is an assignment to one of five variables
(`headerField`), and assignments to different variables commute.
-/

set_option autoImplicit false

namespace Mudmux.Comm

variable {needle data : Bytes} {i : Nat}

/-! ### Searching a text -/

/-- An occurrence lies within the text. -/
theorem findBytes_length (h : findBytes needle data = some i) :
    i + needle.length ≤ data.length := by
  induction data generalizing i with
  | nil =>
    rw [findBytes] at h
    split at h
    · next hempty =>
        cases h
        simp [List.isEmpty_iff.mp hempty]
    · cases h
  | cons b rest ih =>
    rw [findBytes] at h
    split at h
    · next hstarts =>
        cases h
        have hle := (List.isPrefixOf_iff_prefix.mp hstarts).length_le
        omega
    · obtain ⟨j, hj, rfl⟩ := Option.map_eq_some_iff.mp h
      have hle := ih hj
      rw [List.length_cons]
      omega

/-- The text has the needle where it is found. -/
theorem findBytes_occurs (h : findBytes needle data = some i) : needle <+: data.drop i := by
  induction data generalizing i with
  | nil =>
    rw [findBytes] at h
    split at h
    · next hempty =>
        rw [List.isEmpty_iff.mp hempty]
        exact List.nil_prefix
    · cases h
  | cons b rest ih =>
    rw [findBytes] at h
    split at h
    · next hstarts =>
        cases h
        exact List.isPrefixOf_iff_prefix.mp hstarts
    · obtain ⟨j, hj, rfl⟩ := Option.map_eq_some_iff.mp h
      exact ih hj

/-- What occurs in a text is found, there or before. -/
theorem findBytes_of_occurs (h : needle <+: data.drop i) :
    ∃ j, j ≤ i ∧ findBytes needle data = some j := by
  induction data generalizing i with
  | nil =>
    rw [List.drop_nil, List.prefix_nil] at h
    exact ⟨0, Nat.zero_le i, by rw [h]; rfl⟩
  | cons b rest ih =>
    rw [findBytes]
    split
    · exact ⟨0, Nat.zero_le i, rfl⟩
    · next hstarts =>
        cases i with
        | zero => exact absurd (List.isPrefixOf_iff_prefix.mpr h) hstarts
        | succ i =>
          obtain ⟨j, hj, hfound⟩ := ih h
          exact ⟨j + 1, Nat.succ_le_succ hj, by rw [hfound]; rfl⟩

/-- The first occurrence is the same with more text behind it. -/
theorem findBytes_append (more : Bytes) (h : findBytes needle data = some i) :
    findBytes needle (data ++ more) = some i := by
  have hlength := findBytes_length h
  have hoccurs : needle <+: (data ++ more).drop i := by
    rw [List.drop_append_of_le_length (by omega)]
    exact (findBytes_occurs h).trans (List.prefix_append _ _)
  obtain ⟨j, hj, hfound⟩ := findBytes_of_occurs hoccurs
  -- an occurrence in front of the first one would lie in `data` as well
  have hearly : needle <+: data.drop j := by
    have hlong := findBytes_occurs hfound
    rw [List.drop_append_of_le_length (by omega)] at hlong
    refine List.prefix_of_prefix_length_le hlong (List.prefix_append _ _) ?_
    rw [List.length_drop]
    omega
  obtain ⟨k, hk, hfirst⟩ := findBytes_of_occurs hearly
  rw [h] at hfirst
  cases hfirst
  rw [hfound, Nat.le_antisymm hj hk]

/-! ### The first empty line -/

/-- The bytes up to the end of the first line that is empty without its CR. As in `parse_http_headers`
the last of the lines has no line feed, and is none if there is nothing in it. -/
def endOfEmptyLine : List Bytes → Option Nat
  | [] => none
  | line :: rest =>
    if rest.isEmpty && line.isEmpty then none
    else if (stripCR line).isEmpty then some (line.length + if rest.isEmpty then 0 else 1)
    else (endOfEmptyLine rest).map (· + (line.length + 1))

/-- The position behind the first empty line. -/
def emptyLineEnd (request : Bytes) : Option Nat := endOfEmptyLine (request.splitOn 10)

/-- The first line of a text without its CR. -/
def firstLine (request : Bytes) : Bytes := stripCR ((request.splitOn 10).headD [])

theorem HttpHeaders.requestLine_addLine (h : HttpHeaders) (line : Bytes) :
    (h.addLine line).requestLine = h.requestLine := by
  rw [HttpHeaders.addLine]
  split
  · rfl
  · rfl
  · dsimp only
    split_ifs <;> rfl

theorem isSome_parseHttpLines (lines : List Bytes) {h : HttpHeaders} (hh : h.requestLine ≠ []) :
    (parseHttpLines lines false h).isSome = (endOfEmptyLine lines).isSome := by
  induction lines generalizing h with
  | nil => rfl
  | cons line rest ih =>
    rw [parseHttpLines, endOfEmptyLine]
    split
    · rfl
    · dsimp only
      split
      · rw [if_neg (by simpa using hh)]
        rfl
      · rw [if_neg Bool.false_ne_true, Option.isSome_map]
        exact ih (by rwa [HttpHeaders.requestLine_addLine])

variable {request : Bytes}

/-- With a first line the parser succeeds exactly when it meets an empty line. -/
theorem isSome_parseHttpHeaders (hfirst : firstLine request ≠ []) :
    (parseHttpHeaders request).isSome = (emptyLineEnd request).isSome := by
  rw [parseHttpHeaders, emptyLineEnd]
  rw [firstLine] at hfirst
  cases hlines : request.splitOn 10 with
  | nil => rfl
  | cons line rest =>
    rw [hlines, List.headD_cons] at hfirst
    have hline : (stripCR line).isEmpty = false := by simpa using hfirst
    rw [parseHttpLines, endOfEmptyLine]
    split
    · rfl
    · dsimp only
      rw [hline, if_neg Bool.false_ne_true, if_neg Bool.false_ne_true, if_pos rfl, Option.isSome_map]
      exact isSome_parseHttpLines rest hfirst

theorem splitOn_append_cons (text rest : Bytes) (separator : Byte) :
    (text ++ separator :: rest).splitOn separator = text.splitOn separator ++ rest.splitOn separator :=
  List.splitOnP_append_cons text rest (beq_self_eq_true separator)

/-- Each line of a text but the last has a line feed. -/
theorem sum_length_splitOn (text : Bytes) :
    ((text.splitOn 10).map fun line => line.length + 1).sum = text.length + 1 := by
  induction text with
  | nil => rfl
  | cons b text ih =>
    rw [List.splitOn, List.splitOnP_cons_eq_if_modifyHead]
    rw [List.splitOn] at ih
    split
    · rw [List.map_cons, List.sum_cons, ih, List.length_cons, List.length_nil]
      omega
    · cases hlines : List.splitOnP (· == 10) text with
      | nil => exact absurd hlines (List.splitOnP_ne_nil _ _)
      | cons line lines =>
        rw [hlines, List.map_cons, List.sum_cons] at ih
        rw [List.modifyHead_cons, List.map_cons, List.sum_cons, List.length_cons, List.length_cons]
        omega

variable {later : List Bytes} {headerLen : Nat}

/-- An empty line among the later ones: the first empty line is that one or an earlier one. -/
theorem endOfEmptyLine_append (lines : List Bytes) (h : endOfEmptyLine later = some headerLen) :
    ∃ e, e ≤ (lines.map fun line => line.length + 1).sum + headerLen ∧
      endOfEmptyLine (lines ++ later) = some e := by
  have hlater : later ≠ [] := by
    rintro rfl
    cases h
  induction lines with
  | nil => exact ⟨headerLen, Nat.le_add_left _ _, h⟩
  | cons line lines ih =>
    obtain ⟨e, he, hend⟩ := ih
    have hmore : (lines ++ later).isEmpty = false := by simp [hlater]
    rw [List.cons_append, endOfEmptyLine, hmore, Bool.false_and, if_neg Bool.false_ne_true, hend,
      List.map_cons, List.sum_cons]
    split
    · exact ⟨_, by simp only [Bool.false_eq_true, if_false]; omega, rfl⟩
    · exact ⟨e + (line.length + 1), by omega, rfl⟩

/-- A line feed with an empty line behind it. -/
theorem emptyLineEnd_of_occurs {empty : Bytes} (hempty : empty = [10] ∨ empty = [13, 10])
    (h : 10 :: empty <+: request.drop i) :
    ∃ e, e ≤ i + 1 + empty.length ∧ emptyLineEnd request = some e := by
  obtain ⟨more, hmore⟩ := h
  have hin : i ≤ request.length := by
    by_contra hout
    rw [List.drop_eq_nil_of_le (by omega)] at hmore
    cases hmore
  have hsplit : request = request.take i ++ 10 :: (empty ++ more) := by
    rw [← List.cons_append, hmore, List.take_append_drop]
  have hend : endOfEmptyLine ((empty ++ more).splitOn 10) = some empty.length := by
    have hlast : (more.splitOn 10).isEmpty = false := by
      rw [List.isEmpty_eq_false_iff]
      exact List.splitOnP_ne_nil _ _
    rcases hempty with rfl | rfl
    · rw [show [10] ++ more = [] ++ 10 :: more from rfl, splitOn_append_cons]
      show endOfEmptyLine ([] :: more.splitOn 10) = some 1
      rw [endOfEmptyLine, hlast]
      rfl
    · rw [show [13, 10] ++ more = [13] ++ 10 :: more from rfl, splitOn_append_cons]
      show endOfEmptyLine ([13] :: more.splitOn 10) = some 2
      rw [endOfEmptyLine, hlast]
      rfl
  obtain ⟨e, he, hfirst⟩ := endOfEmptyLine_append ((request.take i).splitOn 10) hend
  rw [sum_length_splitOn, List.length_take, Nat.min_eq_left hin] at he
  refine ⟨e, he, ?_⟩
  rw [hsplit, emptyLineEnd, splitOn_append_cons]
  exact hfirst

/-! ### The two scanners -/

/-- `_find_http_header_end` finds the end of the first empty line, if there is one, and finds it
whatever bytes follow. -/
structure ScannersAgree (request : Bytes) : Prop where
  position : findHttpHeaderEnd request = emptyLineEnd request
  stable : ∀ headerLen, emptyLineEnd request = some headerLen → ∀ more,
    findHttpHeaderEnd (request.take headerLen ++ more) = some headerLen

/-- A CR LF CR LF that is found ends in an empty line. -/
theorem emptyLineEnd_of_crlf (h : findBytes [13, 10, 13, 10] request = some i) :
    ∃ e, e ≤ i + 4 ∧ emptyLineEnd request = some e := by
  have hoccurs : 10 :: [13, 10] <+: request.drop (i + 1) := by
    obtain ⟨more, hmore⟩ := findBytes_occurs h
    rw [← List.drop_drop, ← hmore]
    exact ⟨more, rfl⟩
  exact emptyLineEnd_of_occurs (.inr rfl) hoccurs

/-- The first empty line is a CR LF behind a CR LF. -/
theorem findBytes_crlf (hend : emptyLineEnd request = some headerLen)
    (hcrlf : [13, 10, 13, 10] <:+ request.take headerLen) :
    4 ≤ headerLen ∧ findBytes [13, 10, 13, 10] request = some (headerLen - 4) ∧
      findBytes [13, 10, 13, 10] (request.take headerLen) = some (headerLen - 4) := by
  have hlength : (request.take headerLen).length ≤ headerLen := List.length_take_le _ _
  obtain ⟨before, hbefore⟩ := hcrlf
  have hbytes : before.length + 4 ≤ headerLen := by
    rw [← hbefore] at hlength
    simpa using hlength
  have hoccurs : [13, 10, 13, 10] <+: (request.take headerLen).drop before.length := by
    rw [← hbefore, List.drop_left]
  obtain ⟨j, hj, hfound⟩ := findBytes_of_occurs hoccurs
  have hall : findBytes [13, 10, 13, 10] request = some j := by
    conv_lhs => rw [← List.take_append_drop headerLen request]
    exact findBytes_append _ hfound
  -- an earlier occurrence would be an earlier empty line
  obtain ⟨e, he, hfirst⟩ := emptyLineEnd_of_crlf hall
  rw [hend] at hfirst
  cases hfirst
  have hposition : j = headerLen - 4 := by omega
  subst hposition
  exact ⟨by omega, hall, hfound⟩

theorem findHttpHeaderEnd_eq_none (h : emptyLineEnd request = none) :
    findHttpHeaderEnd request = none := by
  rw [findHttpHeaderEnd]
  cases hcr : findBytes [13, 10, 13, 10] request with
  | some i =>
    obtain ⟨e, -, he⟩ := emptyLineEnd_of_crlf hcr
    rw [h] at he
    cases he
  | none =>
    cases hlf : findBytes [10, 10] request with
    | some i =>
      obtain ⟨e, -, he⟩ := emptyLineEnd_of_occurs (.inl rfl) (findBytes_occurs hlf)
      rw [h] at he
      cases he
    | none => rfl

/-- Where the search ends at one position with any bytes behind it, there is a CR LF CR LF: the bytes may
hold another one, and that is not found. -/
theorem crlf_of_stable (hlen : headerLen ≤ request.length)
    (h : ∀ more, findHttpHeaderEnd (request.take headerLen ++ more) = some headerLen) :
    [13, 10, 13, 10] <:+ request.take headerLen := by
  have htake : (request.take headerLen).length = headerLen := by
    rw [List.length_take]
    omega
  have hoccurs : [13, 10, 13, 10] <+:
      (request.take headerLen ++ [13, 10, 13, 10]).drop headerLen := by
    conv_rhs => rw [← htake]
    rw [htake, List.drop_append_of_le_length (by omega), List.drop_eq_nil_of_le (by omega)]
    exact List.prefix_refl _
  obtain ⟨j, -, hfound⟩ := findBytes_of_occurs hoccurs
  have hend := h [13, 10, 13, 10]
  rw [findHttpHeaderEnd, hfound] at hend
  obtain rfl : j + 4 = headerLen := Option.some.inj hend
  obtain ⟨more, hmore⟩ := findBytes_occurs hfound
  rw [List.drop_append_of_le_length (by omega)] at hmore
  -- the occurrence takes all that is left of the header
  have hlast : [13, 10, 13, 10] = (request.take (j + 4)).drop j :=
    List.append_inj_left hmore (by rw [List.length_drop, htake]; simp)
  rw [hlast]
  exact List.drop_suffix _ _

/-- With a first line, `parse_http_headers` succeeds exactly when it meets an empty line. The search for
the end of the header agrees with it on every text, and whatever follows, exactly when the first empty
line is a CR LF behind a line that ends in CR LF. -/
theorem http_scanners_agree_iff (request : Bytes) :
    (firstLine request ≠ [] → (parseHttpHeaders request).isSome = (emptyLineEnd request).isSome) ∧
      (ScannersAgree request ↔ ∀ headerLen, emptyLineEnd request = some headerLen →
        [13, 10, 13, 10] <:+ request.take headerLen) := by
  refine ⟨isSome_parseHttpHeaders, fun hagree headerLen hend => ?_, fun hcrlf => ⟨?_, ?_⟩⟩
  · have hlen : headerLen ≤ request.length := by
      have hfound := hagree.position.trans hend
      rw [findHttpHeaderEnd] at hfound
      split at hfound
      · next i hi =>
          cases hfound
          exact findBytes_length hi
      · obtain ⟨i, hi, rfl⟩ := Option.map_eq_some_iff.mp hfound
        exact findBytes_length hi
    exact crlf_of_stable hlen (hagree.stable headerLen hend)
  · cases hend : emptyLineEnd request with
    | none => exact findHttpHeaderEnd_eq_none hend
    | some headerLen =>
      obtain ⟨hlen, hfound, -⟩ := findBytes_crlf hend (hcrlf headerLen hend)
      rw [findHttpHeaderEnd, hfound]
      exact congrArg some (Nat.sub_add_cancel hlen)
  · intro headerLen hend more
    obtain ⟨hlen, -, hfound⟩ := findBytes_crlf hend (hcrlf headerLen hend)
    rw [findHttpHeaderEnd, findBytes_append more hfound]
    exact congrArg some (Nat.sub_add_cancel hlen)

/-- A bare line feed in front of the empty line; an LF LF header with a frame behind it that holds
CR LF CR LF; and a CR LF header without its last line feed. -/
theorem scanners_disagree :
    (emptyLineEnd (ascii "GET / HTTP/1.1\n\r\n") = some 17 ∧
      findHttpHeaderEnd (ascii "GET / HTTP/1.1\n\r\n") = none) ∧
    (emptyLineEnd (ascii "GET / HTTP/1.1\n\n" ++ [0x82, 4, 13, 10, 13, 10]) = some 16 ∧
      findHttpHeaderEnd (ascii "GET / HTTP/1.1\n\n" ++ [0x82, 4, 13, 10, 13, 10]) = some 22) ∧
    (emptyLineEnd (ascii "GET / HTTP/1.1\r\n\r") = some 17 ∧
      findHttpHeaderEnd (ascii "GET / HTTP/1.1\r\n\r") = none) := by
  decide +kernel

/-! ### White space and case -/

theorem dropWhile_of_forall {pad : Bytes} (h : ∀ b ∈ pad, isSpace b) : pad.dropWhile isSpace = [] :=
  List.dropWhile_eq_nil_iff.mpr h

/-- White space around a text is trimmed away. -/
theorem trimAscii_pad {left right : Bytes} (text : Bytes) (hleft : ∀ b ∈ left, isSpace b)
    (hright : ∀ b ∈ right, isSpace b) : trimAscii (left ++ text ++ right) = trimAscii text := by
  rw [trimAscii, trimAscii, List.append_assoc, List.dropWhile_append_of_pos hleft, List.dropWhile_append]
  split
  · next hempty =>
      rw [dropWhile_of_forall hright, List.isEmpty_iff.mp hempty]
  · rw [List.reverse_append, List.dropWhile_append_of_pos fun b hb => hright b (List.mem_reverse.mp hb)]

theorem isSpace_toLower (b : Byte) : isSpace (toLower b) = isSpace b := by
  have hall : ∀ n : Fin 256, isSpace (toLower (UInt8.ofNat n)) = isSpace (UInt8.ofNat n) := by
    decide +kernel
  simpa using hall ⟨b.toNat, b.toNat_lt⟩

theorem trimAscii_toLowerAscii (text : Bytes) :
    trimAscii (toLowerAscii text) = toLowerAscii (trimAscii text) := by
  have hspace : isSpace ∘ toLower = isSpace := funext isSpace_toLower
  rw [trimAscii, trimAscii, toLowerAscii, toLowerAscii, List.dropWhile_map, hspace, ← List.map_reverse,
    List.dropWhile_map, hspace, List.map_reverse]

/-! ### Header lines -/

/-- The five headers `parse_http_headers` keeps. -/
def upgradeHeaders : List Bytes :=
  [ascii "upgrade", ascii "connection", ascii "sec-websocket-key", ascii "sec-websocket-version",
    ascii "sec-websocket-protocol"]

/-- Which of the five a name is. -/
def headerIndex (name : Bytes) : Option (Fin 5) :=
  if name = ascii "upgrade" then some 0
  else if name = ascii "connection" then some 1
  else if name = ascii "sec-websocket-key" then some 2
  else if name = ascii "sec-websocket-version" then some 3
  else if name = ascii "sec-websocket-protocol" then some 4
  else none

variable {name : Bytes}

theorem headerIndex_spec {k : Fin 5} (h : headerIndex name = some k) :
    upgradeHeaders[k]? = some name := by
  unfold headerIndex at h
  split_ifs at h with h₁ h₂ h₃ h₄ h₅ <;> cases h <;> subst name <;> rfl

theorem headerIndex_nil : headerIndex [] = none := by decide +kernel

/-- The variable of one of the five. -/
def HttpHeaders.set (h : HttpHeaders) (value : Bytes) : Fin 5 → HttpHeaders
  | 0 => { h with upgrade := value }
  | 1 => { h with connection := value }
  | 2 => { h with secWebsocketKey := value }
  | 3 => { h with secWebsocketVersion := value }
  | 4 => { h with secWebsocketProtocol := value }

theorem HttpHeaders.set_comm (h : HttpHeaders) (value other : Bytes) {k l : Fin 5} (hne : k ≠ l) :
    (h.set value k).set other l = (h.set other l).set value k := by
  fin_cases k <;> fin_cases l <;> first | rfl | exact absurd rfl hne

/-- The name of a header line in lower case, and its value. A line without a colon has no name. -/
def headerField (line : Bytes) : Bytes × Bytes :=
  match line.span (· ≠ 58) with
  | (_, []) => ([], [])
  | (name, _ :: value) => (toLowerAscii (trimAscii name), trimAscii value)

/-- A header line is an assignment to one of the variables, or none. -/
def HttpHeaders.assign (h : HttpHeaders) (field : Bytes × Bytes) : HttpHeaders :=
  ((headerIndex field.1).map (h.set field.2)).getD h

/-- Assignments commute, unless they are of one header. -/
theorem HttpHeaders.assign_comm (h : HttpHeaders) {field other : Bytes × Bytes}
    (hsame : field.1 ∈ upgradeHeaders → field.1 = other.1 → field = other) :
    (h.assign field).assign other = (h.assign other).assign field := by
  unfold HttpHeaders.assign
  cases hfield : headerIndex field.1 with
  | none => rfl
  | some k =>
    cases hother : headerIndex other.1 with
    | none => rfl
    | some l =>
      have hget := headerIndex_spec hfield
      by_cases hne : k = l
      · subst hne
        have hname := Option.some.inj (hget.symm.trans (headerIndex_spec hother))
        rw [hsame (List.mem_of_getElem? hget) hname]
      · exact h.set_comm field.2 other.2 hne

variable (value : Bytes)

theorem span_colon (hname : 58 ∉ name) :
    (name ++ 58 :: value).span (· ≠ 58) = (name, 58 :: value) := by
  have hall : ∀ b ∈ name, decide (b ≠ 58) = true := by
    intro b hb
    rw [decide_eq_true_iff]
    rintro rfl
    exact hname hb
  rw [List.span_eq_takeWhile_dropWhile, List.takeWhile_append_of_pos hall,
    List.dropWhile_append_of_pos hall]
  simp

theorem headerField_colon (hname : 58 ∉ name) :
    headerField (name ++ 58 :: value) = (toLowerAscii (trimAscii name), trimAscii value) := by
  rw [headerField, span_colon value hname]

theorem span_of_not_mem {line : Bytes} (h : 58 ∉ line) : line.span (· ≠ 58) = (line, []) := by
  have hall : ∀ b ∈ line, decide (b ≠ 58) = true := by
    intro b hb
    rw [decide_eq_true_iff]
    rintro rfl
    exact h hb
  rw [List.span_eq_takeWhile_dropWhile, List.takeWhile_eq_self_iff.mpr hall,
    List.dropWhile_eq_nil_iff.mpr hall]

theorem HttpHeaders.addLine_colon (h : HttpHeaders) (value : Bytes) (hname : 58 ∉ name) :
    h.addLine (name ++ 58 :: value) = h.assign (headerField (name ++ 58 :: value)) := by
  rw [headerField_colon value hname, HttpHeaders.addLine, span_colon value hname]
  cases name with
  | nil =>
    show h = h.assign ([], trimAscii value)
    rw [HttpHeaders.assign, headerIndex_nil]
    rfl
  | cons b name =>
    dsimp only
    rw [HttpHeaders.assign, headerIndex]
    split_ifs <;> rfl

theorem stripCR_append_cons (ahead : Bytes) (b : Byte) (hb : b ≠ 13) (line : Bytes) :
    stripCR (ahead ++ b :: line) = ahead ++ b :: stripCR line := by
  cases line using List.reverseRecOn with
  | nil => simp [stripCR, hb]
  | append_singleton line last =>
    rw [← List.cons_append, ← List.append_assoc]
    unfold stripCR
    rw [List.getLast?_concat, List.getLast?_concat, List.dropLast_concat, List.dropLast_concat]
    split <;> simp

theorem trimAscii_stripCR : trimAscii (stripCR value) = trimAscii value := by
  cases value using List.reverseRecOn with
  | nil => rfl
  | append_singleton value last =>
    rw [stripCR, List.getLast?_concat, List.dropLast_concat]
    split
    · next hlast =>
        cases hlast
        have hspace : ∀ b ∈ [13], isSpace b := by simp [isSpace]
        exact (trimAscii_pad value (List.forall_mem_nil _) hspace).symm
    · rfl

/-- What the parser does with a line. -/
theorem HttpHeaders.addLine_stripCR (h : HttpHeaders) (line : Bytes) :
    h.addLine (stripCR line) = h.assign (headerField line) := by
  by_cases hcolon : 58 ∈ line
  · obtain ⟨name, value, rfl, hname⟩ := List.eq_append_cons_of_mem hcolon
    rw [stripCR_append_cons name 58 (by decide), h.addLine_colon _ hname, headerField_colon _ hname,
      headerField_colon _ hname, trimAscii_stripCR]
  · have hstripped : 58 ∉ stripCR line := by
      unfold stripCR
      split
      · exact fun hmem => hcolon (List.dropLast_subset _ hmem)
      · exact hcolon
    rw [HttpHeaders.addLine, span_of_not_mem hstripped, headerField, span_of_not_mem hcolon]
    show h = h.assign ([], [])
    rw [HttpHeaders.assign, headerIndex_nil]
    rfl

/-- A header line: without a line feed, and not empty. -/
def IsHeaderLine (line : Bytes) : Prop := 10 ∉ line ∧ stripCR line ≠ []

instance (line : Bytes) : Decidable (IsHeaderLine line) := inferInstanceAs (Decidable (_ ∧ _))

/-- The same header in another layout: the case of its name, and white space around name and value. -/
inductive HeaderLayout : Bytes → Bytes → Prop
  | same (line : Bytes) : HeaderLayout line line
  | relaid {name name' value left right before behind : Bytes}
      (hname : 58 ∉ name) (hname' : 58 ∉ name') (hcase : toLowerAscii name' = toLowerAscii name)
      (hleft : ∀ b ∈ left, isSpace b) (hright : ∀ b ∈ right, isSpace b)
      (hbefore : ∀ b ∈ before, isSpace b) (hbehind : ∀ b ∈ behind, isSpace b) :
      HeaderLayout (name ++ 58 :: value)
        (left ++ name' ++ right ++ 58 :: (before ++ value ++ behind))

theorem not_colon_of_isSpace {pad : Bytes} (h : ∀ b ∈ pad, isSpace b) : 58 ∉ pad :=
  fun hmem => absurd (h 58 hmem) (by decide)

theorem HeaderLayout.headerField_eq {line line' : Bytes} (h : HeaderLayout line line') :
    headerField line' = headerField line := by
  cases h with
  | same => rfl
  | relaid hname hname' hcase hleft hright hbefore hbehind =>
    have hpadded := not_or.mpr ⟨not_or.mpr ⟨not_colon_of_isSpace hleft, hname'⟩,
      not_colon_of_isSpace hright⟩
    rw [← List.mem_append, ← List.mem_append] at hpadded
    rw [headerField_colon _ hname, headerField_colon _ hpadded, trimAscii_pad _ hleft hright,
      trimAscii_pad _ hbefore hbehind, ← trimAscii_toLowerAscii, hcase, trimAscii_toLowerAscii]

variable {headers : List Bytes}

theorem map_headerField_eq {relaid : List Bytes} (h : List.Forall₂ HeaderLayout headers relaid) :
    relaid.map headerField = headers.map headerField := by
  induction h with
  | nil => rfl
  | cons hline _ ih => rw [List.map_cons, List.map_cons, hline.headerField_eq, ih]

/-! ### Requests -/

/-- A request with the given header lines behind its first line, and anything behind them. -/
def requestText (first : Bytes) (headers : List Bytes) (rest : Bytes) : Bytes :=
  first ++ 10 :: (headers.flatMap (· ++ [10]) ++ rest)

theorem splitOn_headers (h : ∀ line ∈ headers, 10 ∉ line) (rest : Bytes) :
    (headers.flatMap (· ++ [10]) ++ rest).splitOn 10 = headers ++ rest.splitOn 10 := by
  induction headers with
  | nil => rfl
  | cons line headers ih =>
    have hline : line.splitOn 10 = [line] := by
      refine List.splitOnP_eq_singleton fun b hb => beq_eq_false_iff_ne.mpr ?_
      rintro rfl
      exact h line List.mem_cons_self hb
    rw [List.flatMap_cons, List.append_assoc, List.append_assoc, List.singleton_append,
      splitOn_append_cons, hline, ih fun line' hmem => h line' (List.mem_cons_of_mem _ hmem)]
    rfl

/-- The parser assigns header after header. -/
theorem parseHttpLines_headers (hlater : later ≠ []) (h : ∀ line ∈ headers, stripCR line ≠ [])
    (state : HttpHeaders) :
    parseHttpLines (headers ++ later) false state
      = parseHttpLines later false ((headers.map headerField).foldl HttpHeaders.assign state) := by
  induction headers generalizing state with
  | nil => rfl
  | cons line headers ih =>
    have hmore : (headers ++ later).isEmpty = false := by simp [hlater]
    have hline : (stripCR line).isEmpty = false := by simpa using h line List.mem_cons_self
    rw [List.cons_append, parseHttpLines, hmore, Bool.false_and, if_neg Bool.false_ne_true]
    dsimp only
    rw [hline, if_neg Bool.false_ne_true, if_neg Bool.false_ne_true, state.addLine_stripCR,
      ih fun line' hmem => h line' (List.mem_cons_of_mem _ hmem)]
    rfl

/-- Behind at least one line only what the parser makes of the later lines matters. -/
theorem parseHttpLines_congr {later' : List Bytes} (hlater : later ≠ []) (hlater' : later' ≠ [])
    (h : ∀ state, parseHttpLines later false state = parseHttpLines later' false state)
    (line : Bytes) (lines : List Bytes) (isFirst : Bool) (state : HttpHeaders) :
    parseHttpLines (line :: lines ++ later) isFirst state
      = parseHttpLines (line :: lines ++ later') isFirst state := by
  induction lines generalizing line isFirst state with
  | nil =>
    have hmore : ([] ++ later).isEmpty = false := by simp [hlater]
    have hmore' : ([] ++ later').isEmpty = false := by simp [hlater']
    rw [List.cons_append, List.cons_append, parseHttpLines, parseHttpLines, hmore, hmore']
    simp only [List.nil_append, h]
  | cons next lines ih =>
    have hnext := ih next
    simp only [List.cons_append] at hnext ⊢
    rw [parseHttpLines, parseHttpLines]
    simp only [hnext, List.isEmpty_cons]

/-- Headers that occur once may be assigned in any order. -/
theorem foldl_assign_perm {fields fields' : List (Bytes × Bytes)} (hperm : fields.Perm fields')
    (honce : ∀ name ∈ upgradeHeaders, fields.countP (·.1 = name) ≤ 1) (state : HttpHeaders) :
    fields.foldl HttpHeaders.assign state = fields'.foldl HttpHeaders.assign state := by
  refine hperm.foldl_eq' (fun field hfield other hother h => h.assign_comm fun hmem hname => ?_) state
  have hlength := honce field.1 hmem
  rw [List.countP_eq_length_filter] at hlength
  have h₁ : field ∈ fields.filter (·.1 = field.1) := by simp [hfield]
  have h₂ : other ∈ fields.filter (·.1 = field.1) := by simp [hother, hname]
  obtain ⟨only, honly⟩ := List.length_eq_one_iff.mp
    (Nat.le_antisymm hlength (List.length_pos_of_mem h₁))
  rw [honly, List.mem_singleton] at h₁ h₂
  rw [h₁, h₂]

theorem parseHttpHeaders_requestText {headers' : List Bytes}
    (hlines : ∀ line ∈ headers, IsHeaderLine line) (hlines' : ∀ line ∈ headers', IsHeaderLine line)
    (hfold : ∀ state : HttpHeaders, (headers'.map headerField).foldl HttpHeaders.assign state
      = (headers.map headerField).foldl HttpHeaders.assign state) (first rest : Bytes) :
    parseHttpHeaders (requestText first headers' rest)
      = parseHttpHeaders (requestText first headers rest) := by
  have hrest : rest.splitOn 10 ≠ [] := List.splitOnP_ne_nil _ _
  rw [parseHttpHeaders, parseHttpHeaders, requestText, requestText, splitOn_append_cons,
    splitOn_append_cons, splitOn_headers fun line hmem => (hlines line hmem).1,
    splitOn_headers fun line hmem => (hlines' line hmem).1]
  cases hfirst : first.splitOn 10 with
  | nil => exact absurd hfirst (List.splitOnP_ne_nil _ _)
  | cons line lines =>
    refine parseHttpLines_congr (by simp [hrest]) (by simp [hrest]) (fun state => ?_) line lines true {}
    rw [parseHttpLines_headers hrest fun line hmem => (hlines' line hmem).2,
      parseHttpLines_headers hrest fun line hmem => (hlines line hmem).2, hfold]

/-! ### The subprotocol -/

/-- The entries of a comma-separated list. -/
def listEntries (csv : Bytes) : List Bytes := ((csv.splitOn 44).map trimAscii).filter (!·.isEmpty)

/-- The client's list has the protocol, in any case. -/
def Offered (client protocol : Bytes) : Prop :=
  ∃ entry ∈ listEntries client, toLowerAscii entry = toLowerAscii protocol

/-- The subprotocol line of a response: the first entry of the preference list that the client offers, or
no line. -/
def NamesFirstOffered (preferred client line : Bytes) : Prop :=
  (∃ before protocol after, listEntries preferred = before ++ protocol :: after ∧
      Offered client protocol ∧ (∀ entry ∈ before, ¬Offered client entry) ∧
      line = ascii "Sec-WebSocket-Protocol: " ++ protocol ++ ascii "\r\n") ∨
    (∀ entry ∈ listEntries preferred, ¬Offered client entry) ∧ line = []

theorem tokenListContains_iff (client protocol : Bytes) :
    tokenListContains client (toLowerAscii protocol) = true ↔ Offered client protocol := by
  simp only [tokenListContains, Offered, listEntries, List.any_eq_true, List.mem_filter, List.mem_map,
    Bool.and_eq_true, beq_iff_eq]
  constructor
  · rintro ⟨token, hmem, hsome, heq⟩
    exact ⟨trimAscii token, ⟨⟨token, hmem, rfl⟩, hsome⟩, heq⟩
  · rintro ⟨_, ⟨⟨token, hmem, rfl⟩, hsome⟩, heq⟩
    exact ⟨token, hmem, hsome, heq⟩

theorem namesFirstOffered_selectProtocol (preferred client : Bytes) :
    NamesFirstOffered preferred client
      (if (selectProtocol preferred client).isEmpty then []
        else ascii "Sec-WebSocket-Protocol: " ++ selectProtocol preferred client ++ ascii "\r\n") := by
  rw [selectProtocol]
  cases hfind : ((preferred.splitOn 44).map trimAscii).find? fun candidate =>
      !candidate.isEmpty && tokenListContains client (toLowerAscii candidate) with
  | none =>
    refine .inr ⟨fun entry hentry hoffered => ?_, rfl⟩
    obtain ⟨hmem, hsome⟩ := List.mem_filter.mp hentry
    refine List.find?_eq_none.mp hfind entry hmem ?_
    rw [hsome, (tokenListContains_iff client entry).mpr hoffered]
    rfl
  | some protocol =>
    obtain ⟨hprotocol, before, after, hsplit, hbefore⟩ := List.find?_eq_some_iff_append.mp hfind
    rw [Bool.and_eq_true, tokenListContains_iff] at hprotocol
    obtain ⟨hsome, hoffered⟩ := hprotocol
    refine .inl ⟨before.filter (!·.isEmpty), protocol, after.filter (!·.isEmpty), ?_, hoffered,
      fun entry hentry hother => ?_, ?_⟩
    · rw [listEntries, hsplit, List.filter_append]
      exact congrArg _ (List.filter_cons_of_pos hsome)
    · obtain ⟨hmem, hentry⟩ := List.mem_filter.mp hentry
      have hnot := hbefore entry hmem
      rw [hentry, (tokenListContains_iff client entry).mpr hother] at hnot
      cases hnot
    · rw [Option.getD_some, if_neg (by simpa using hsome)]

/-- A response is the status line and its headers, the subprotocol line, and the empty line. -/
def NamesSubprotocol (acceptKey : Bytes → Bytes) (preferred request response : Bytes) : Prop :=
  ∃ headers line, parseHttpHeaders request = some headers ∧
    NamesFirstOffered preferred headers.secWebsocketProtocol line ∧
    response =
      ascii "HTTP/1.1 101 Switching Protocols\r\nUpgrade: websocket\r\nConnection: Upgrade\r\n"
        ++ ascii "Sec-WebSocket-Accept: " ++ acceptKey headers.secWebsocketKey ++ ascii "\r\n" ++ line
        ++ ascii "\r\n"

theorem namesSubprotocol_of_ok {acceptKey : Bytes → Bytes} {preferred : Bytes}
    {upgrade : UpgradeResponse}
    (h : commWebsocketBuildUpgradeResponse acceptKey request preferred = .ok upgrade) :
    NamesSubprotocol acceptKey preferred request upgrade.response := by
  rw [commWebsocketBuildUpgradeResponse] at h
  split at h
  · cases h
  · next headers hheaders =>
      refine ⟨headers, _, hheaders, namesFirstOffered_selectProtocol preferred _, ?_⟩
      split_ifs at h
      cases h
      rfl

end Mudmux.Comm
