import Mudmux.Proofs.StrictDispatch

/-!
# `Mudmux.Proofs.LineInput`: the line parser as a reader of bytes

`lineReader` is the line parser without buffers: it looks at one byte after the other, collects a
line, and hands it out, stripped of white space, at its terminator. A CR may be followed by an LF
or a NUL that belongs to it, so the reader remembers that the byte before was a CR.

`findNewlineAndStrip_eq_some` says what the scanner finds in a buffer.
`commProcessInput_returns` lifts it to `comm_process_input` on a slot with one buffer: the hook is
entered for the lines that the reader hands out on the buffered bytes, and the bytes of the last,
partial line stay in the buffer.
-/

set_option autoImplicit false

namespace Mudmux.Comm

open Mudmux.Lib
open Mudmux.Lib.Program (Returns returns_done returns_bind effect)

variable {buf : Cells} {budget : Option Nat} {comm : CommAbstract}
  {lines : List Bytes}

/-! ### Overwriting cells -/

/-- Cells in the middle. -/
theorem zeroCells_middle (xs ys zs : Bytes) :
    zeroCells xs.length (xs.length + ys.length) (xs ++ ys ++ zs)
      = xs ++ List.replicate ys.length 0 ++ zs := by
  apply List.ext_getElem
  · simp
  · intro k h₁ h₂
    simp only [zeroCells, List.getElem_mapIdx, List.getElem_append, List.length_append,
      List.length_replicate, List.getElem_replicate]
    by_cases hx : k < xs.length
    · have hfirst : ¬ xs.length ≤ k := by omega
      simp [hx, hfirst]
    · by_cases hy : k < xs.length + ys.length
      · have hfirst : xs.length ≤ k := by omega
        simp [hx, hy, hfirst]
      · simp [hy]

/-! ### The reader -/

/-- A line without the white space at its ends. -/
def stripSpace (line : Bytes) : Bytes := (line.dropWhile isSpace).rdropWhile isSpace

/-- The bytes of the line so far, and whether the byte before was a CR. -/
structure LineState where
  held : Bytes
  afterCr : Bool
  deriving DecidableEq, Repr

/-- One byte of line input. The LF or NUL behind a CR is part of the terminator. -/
def lineStep (s : LineState) (b : Byte) : LineState × List Bytes :=
  if s.afterCr && (b = 10 || b = 0) then (⟨s.held, false⟩, [])
  else if isTerminator b then (⟨[], b = 13⟩, [stripSpace s.held])
  else (⟨s.held ++ [b], false⟩, [])

/-- Line input as a transducer from bytes to lines. -/
def lineReader : Transducer LineState Byte Bytes := ⟨lineStep⟩

/-- The lines handed out on `data`, with `held` read before it. -/
def linesOf (held data : Bytes) : List Bytes := (lineReader.run ⟨held, false⟩ data).2

/-- The partial line left after `data`, with `held` read before it. -/
def partialLine (held data : Bytes) : Bytes := (lineReader.run ⟨held, false⟩ data).1.held

/-- What follows a terminator: behind a CR, an LF or a NUL is skipped. -/
def skipTerminator (t : Byte) (rest : Bytes) : Bytes :=
  if t = 13 && (rest.head? = some 10 || rest.head? = some 0) then rest.tail else rest

theorem length_skipTerminator_le (t : Byte) (rest : Bytes) :
    (skipTerminator t rest).length ≤ rest.length := by
  rw [skipTerminator]
  split <;> simp

theorem lineReader_run_text (held line : Bytes) (hline : ∀ b ∈ line, isTerminator b = false) :
    lineReader.run ⟨held, false⟩ line = (⟨held ++ line, false⟩, []) := by
  induction line generalizing held with
  | nil => simp
  | cons b line ih =>
    have hb := hline b (by simp)
    have hstep : lineReader.step ⟨held, false⟩ b = (⟨held ++ [b], false⟩, []) := by
      simp [lineReader, lineStep, hb]
    have hrest := ih (held ++ [b]) fun b hb => hline b (by simp [hb])
    simp only [Transducer.run_cons, hstep, hrest, List.append_assoc, List.cons_append,
      List.nil_append]

variable (rest : Bytes)

/-- After a CR the reader goes on as if it stood behind the whole terminator. -/
theorem lineReader_run_afterCr :
    (lineReader.run ⟨[], true⟩ rest).1.held
        = (lineReader.run ⟨[], false⟩ (skipTerminator 13 rest)).1.held ∧
      (lineReader.run ⟨[], true⟩ rest).2
        = (lineReader.run ⟨[], false⟩ (skipTerminator 13 rest)).2 := by
  cases rest with
  | nil => simp [skipTerminator]
  | cons b rest =>
    by_cases hb : b = 10 ∨ b = 0
    · have hskip : skipTerminator 13 (b :: rest) = rest := by
        rcases hb with rfl | rfl <;> rfl
      have hstep : lineReader.step ⟨[], true⟩ b = (⟨[], false⟩, []) := by
        rcases hb with rfl | rfl <;> rfl
      rw [hskip, Transducer.run_cons, hstep]
      exact ⟨rfl, rfl⟩
    · have hskip : skipTerminator 13 (b :: rest) = b :: rest := by
        simp_all [skipTerminator]
      have hstep : lineReader.step ⟨[], true⟩ b = lineReader.step ⟨[], false⟩ b := by
        simp_all [lineReader, lineStep]
      rw [hskip, Transducer.run_cons, Transducer.run_cons, hstep]
      exact ⟨rfl, rfl⟩

theorem lineReader_run_line (held line : Bytes) (t : Byte) (rest : Bytes)
    (hline : ∀ b ∈ line, isTerminator b = false) (ht : isTerminator t = true) :
    partialLine held (line ++ t :: rest) = partialLine [] (skipTerminator t rest) ∧
      linesOf held (line ++ t :: rest)
        = stripSpace (held ++ line) :: linesOf [] (skipTerminator t rest) := by
  have hstep : lineReader.step ⟨held ++ line, false⟩ t
      = (⟨[], t = 13⟩, [stripSpace (held ++ line)]) := by
    simp [lineReader, lineStep, ht]
  simp only [partialLine, linesOf, Transducer.run_append, lineReader_run_text held line hline,
    Transducer.run_cons, hstep]
  by_cases hcr : t = 13
  · have hafter := lineReader_run_afterCr rest
    subst hcr
    simp [hafter.1, hafter.2]
  · simp [hcr, skipTerminator]

/-- A partial line has no terminator in it. -/
theorem lineReader_run_held (s : LineState) (data : Bytes)
    (hs : ∀ b ∈ s.held, isTerminator b = false) :
    ∀ b ∈ (lineReader.run s data).1.held, isTerminator b = false := by
  induction data generalizing s with
  | nil => exact hs
  | cons c data ih =>
    apply ih
    simp only [lineReader, lineStep]
    split
    · exact hs
    · split
      · simp
      · intro b hb
        rcases List.mem_append.mp hb with hb | hb
        · exact hs b hb
        · rw [List.mem_singleton.mp hb]
          simpa using ‹¬ isTerminator c = true›

/-- A partial line is made of the bytes that were read. -/
theorem lineReader_run_held_length (s : LineState) (data : Bytes) :
    (lineReader.run s data).1.held.length ≤ s.held.length + data.length := by
  induction data generalizing s with
  | nil => simp
  | cons c data ih =>
    have hstep : (lineReader.step s c).1.held.length ≤ s.held.length + 1 := by
      simp only [lineReader, lineStep]
      split
      · simp
      · split <;> simp
    have hrest := ih (lineReader.step s c).1
    rw [Transducer.run_cons, List.length_cons]
    show (lineReader.run (lineReader.step s c).1 data).1.held.length ≤ _
    omega

/-- A byte string is a partial line, or has a first terminator. -/
theorem exists_terminator (data : Bytes) :
    (∀ b ∈ data, isTerminator b = false) ∨
      ∃ line t rest, data = line ++ t :: rest ∧ (∀ b ∈ line, isTerminator b = false) ∧
        isTerminator t = true := by
  induction data with
  | nil => exact .inl (by simp)
  | cons b data ih =>
    cases hb : isTerminator b with
    | true => exact .inr ⟨[], b, data, rfl, by simp, hb⟩
    | false =>
      rcases ih with hall | ⟨line, t, rest, hdata, hline, ht⟩
      · exact .inl (by simpa [hb] using hall)
      · exact .inr ⟨b :: line, t, rest, by simp [hdata], by simpa [hb] using hline, ht⟩

/-! ### The next line -/

/-- The first line of the bytes and what is behind its terminator. -/
def nextLine (data : Bytes) : Option (Bytes × Bytes) :=
  match data.dropWhile fun b => !isTerminator b with
  | [] => none
  | t :: rest => some (stripSpace (data.takeWhile fun b => !isTerminator b), skipTerminator t rest)

theorem nextLine_eq_none {data : Bytes} (htext : ∀ b ∈ data, isTerminator b = false) :
    nextLine data = none := by
  have hall : data.dropWhile (fun b => !isTerminator b) = [] := by
    rw [List.dropWhile_eq_nil_iff]
    intro b hb
    rw [htext b hb]
    rfl
  rw [nextLine, hall]

variable {line : Bytes}

section

variable (hline : ∀ b ∈ line, isTerminator b = false)

include hline

theorem takeWhile_line {t : Byte} (ht : isTerminator t = true) :
    (line ++ t :: rest).takeWhile (fun b => !isTerminator b) = line := by
  have htext : ∀ b ∈ line, (!isTerminator b) = true := by
    intro b hb
    rw [hline b hb]
    rfl
  rw [List.takeWhile_append_of_pos htext, List.takeWhile_cons_of_neg (by simp [ht]),
    List.append_nil]

theorem dropWhile_line {t : Byte} (ht : isTerminator t = true) :
    (line ++ t :: rest).dropWhile (fun b => !isTerminator b) = t :: rest := by
  have htext : ∀ b ∈ line, (!isTerminator b) = true := by
    intro b hb
    rw [hline b hb]
    rfl
  rw [List.dropWhile_append_of_pos htext, List.dropWhile_cons_of_neg (by simp [ht])]

theorem nextLine_eq_some {t : Byte} (ht : isTerminator t = true) :
    nextLine (line ++ t :: rest) = some (stripSpace line, skipTerminator t rest) := by
  rw [nextLine, dropWhile_line rest hline ht, takeWhile_line rest hline ht]

end

/-- Lines are taken one after the other, and what is behind the last one stays. -/
theorem lineReader_nextLine (data : Bytes) :
    linesOf [] data
        = (match nextLine data with
          | none => []
          | some (line, rest) => line :: linesOf [] rest) ∧
      partialLine [] data
        = match nextLine data with
          | none => data
          | some (_, rest) => partialLine [] rest := by
  rcases exists_terminator data with htext | ⟨line, t, rest, rfl, hline, ht⟩
  · rw [nextLine_eq_none htext, linesOf, partialLine, lineReader_run_text [] data htext]
    exact ⟨rfl, rfl⟩
  · rw [nextLine_eq_some rest hline ht]
    exact (lineReader_run_line [] line t rest hline ht).symm

theorem linesOf_nextLine (data : Bytes) :
    linesOf [] data
      = match nextLine data with
        | none => []
        | some (line, rest) => line :: linesOf [] rest :=
  (lineReader_nextLine data).1

variable {rest}

theorem length_rest_lt_of_nextLine {data : Bytes} (h : nextLine data = some (line, rest)) :
    rest.length < data.length := by
  rcases exists_terminator data with htext | ⟨line', t, rest', rfl, hline, ht⟩
  · rw [nextLine_eq_none htext] at h
    cases h
  · rw [nextLine_eq_some rest' hline ht] at h
    obtain ⟨_, rfl⟩ := Prod.ext_iff.mp (Option.some.inj h)
    have hskip := length_skipTerminator_le t rest'
    rw [List.length_append, List.length_cons]
    dsimp only
    omega

/-! ### The scanner -/

theorem findIdx?_terminator (line : Bytes) (t : Byte) (rest : Bytes)
    (hline : ∀ b ∈ line, isTerminator b = false) (ht : isTerminator t = true) :
    (line ++ t :: rest).findIdx? isTerminator = some line.length := by
  rw [List.findIdx?_append, List.findIdx?_eq_none_iff.mpr hline]
  simp [List.findIdx?_cons, ht]

theorem findNewlineAndStrip_eq_none (buf : Cells)
    (htext : ∀ b ∈ buf.data, isTerminator b = false) : findNewlineAndStrip buf = none := by
  rw [findNewlineAndStrip, List.findIdx?_eq_none_iff.mpr htext]

/-- What the scanner makes of a line and its terminator: the cells of the white space behind the line
and of the terminator, now NUL. -/
def strippedCells (line : Bytes) (terminator : Nat) : Bytes :=
  List.replicate ((line.dropWhile isSpace).length - (stripSpace line).length + terminator) 0

theorem stripSpace_append_rtakeWhile (line : Bytes) :
    stripSpace line ++ (line.dropWhile isSpace).rtakeWhile isSpace = line.dropWhile isSpace :=
  List.rdropWhile_append_rtakeWhile

theorem length_stripSpace_le (line : Bytes) :
    (stripSpace line).length ≤ (line.dropWhile isSpace).length :=
  (List.rdropWhile_prefix isSpace _).length_le

/-- Stripping a line whose terminator is overwritten already. -/
theorem stripLine_spec (buf : Cells) (line behind : Bytes) (terminator : Nat)
    (hdata : buf.data = line ++ List.replicate terminator 0 ++ behind) :
    (stripLine buf line.length (line.length + terminator)).buf.data
        = stripSpace line ++ strippedCells line terminator ++ behind ∧
      (stripLine buf line.length (line.length + terminator)).lineLen = (stripSpace line).length ∧
      (stripLine buf line.length (line.length + terminator)).next
        = (line.dropWhile isSpace).length + terminator := by
  have hsplit := List.takeWhile_append_dropWhile (p := isSpace) (l := line)
  have hlength : (line.takeWhile isSpace).length + (line.dropWhile isSpace).length = line.length := by
    rw [← List.length_append, hsplit]
  have hline : buf.data.take line.length = line := by
    rw [hdata, List.append_assoc, List.take_left]
  -- the cells behind the leading white space
  have hstart : buf.data.drop (line.takeWhile isSpace).length
      = line.dropWhile isSpace ++ List.replicate terminator 0 ++ behind := by
    have hfront : buf.data = line.takeWhile isSpace
        ++ (line.dropWhile isSpace ++ List.replicate terminator 0 ++ behind) := by
      rw [hdata, ← List.append_assoc, ← List.append_assoc, hsplit]
    rw [hfront, List.drop_left]
  have hrest : line.length - (line.takeWhile isSpace).length = (line.dropWhile isSpace).length := by
    omega
  have hcut : (buf.data.drop (line.takeWhile isSpace).length).take (line.dropWhile isSpace).length
      = line.dropWhile isSpace := by
    rw [hstart, List.append_assoc, List.take_left]
  have hkept : ((line.dropWhile isSpace).reverse.dropWhile isSpace).length
      = (stripSpace line).length := by
    rw [stripSpace, List.rdropWhile, List.length_reverse]
  simp only [stripLine, LinearBuffer.overwrite_data, LinearBuffer.consume_data, hline, hrest, hcut,
    hkept]
  refine ⟨?_, trivial, by omega⟩
  -- of these cells the ones of the trailing white space are overwritten
  have htrail := stripSpace_append_rtakeWhile line
  have hcount : ((line.dropWhile isSpace).rtakeWhile isSpace).length
      = (line.dropWhile isSpace).length - (stripSpace line).length := by
    have := congrArg List.length htrail
    rw [List.length_append] at this
    omega
  have hzero := zeroCells_middle (stripSpace line) ((line.dropWhile isSpace).rtakeWhile isSpace)
    (List.replicate terminator 0 ++ behind)
  rw [htrail, ← List.length_append, htrail, ← List.append_assoc, ← hstart] at hzero
  rw [hzero, hcount, strippedCells, List.replicate_add]
  simp only [List.append_assoc]

/-- No CR stands before the first terminator: the scanner would have stopped at it. -/
theorem no_cr_before (line : Bytes) (t : Byte) (rest : Bytes)
    (hline : ∀ b ∈ line, isTerminator b = false) :
    (decide (line.length > 0) && decide ((line ++ t :: rest).getD (line.length - 1) 1 = 13))
      = false := by
  rw [Bool.and_eq_false_iff, decide_eq_false_iff_not, decide_eq_false_iff_not]
  by_contra hcon
  push Not at hcon
  have hlt : line.length - 1 < line.length := by omega
  have hget : (line ++ t :: rest).getD (line.length - 1) 1 = line.get ⟨line.length - 1, hlt⟩ := by
    rw [List.getD_eq_getElem?_getD, List.getElem?_append_left hlt, List.getElem?_eq_getElem hlt,
      Option.getD_some]
    rfl
  have hmem := hline _ (List.get_mem line ⟨line.length - 1, hlt⟩)
  rw [← hget, hcon.2] at hmem
  simp [isTerminator] at hmem

/-- The look-ahead behind a terminator: whether it is a CR with its LF or NUL. -/
theorem isPair_eq (line : Bytes) (t : Byte) (rest : Bytes) :
    (decide ((line ++ t :: rest).getD line.length 1 = 13)
        && decide (line.length + 1 < (line ++ t :: rest).length)
        && (decide ((line ++ t :: rest).getD (line.length + 1) 1 = 10)
          || decide ((line ++ t :: rest).getD (line.length + 1) 1 = 0)))
      = (t = 13 && (rest.head? = some 10 || rest.head? = some 0)) := by
  cases rest with
  | nil => simp
  | cons b rest => simp

/-- The number of bytes of a terminator. -/
def terminatorLength (t : Byte) (rest : Bytes) : Nat :=
  if t = 13 && (rest.head? = some 10 || rest.head? = some 0) then 2 else 1

/-- What the scanner leaves of the first line of a buffer: the stripped line in front, NUL for the white
space behind it and for its terminator, and the bytes behind the whole terminator. -/
theorem findNewlineAndStrip_spec (buf : Cells) (line : Bytes) (t : Byte)
    (rest : Bytes) (hdata : buf.data = line ++ t :: rest)
    (hline : ∀ b ∈ line, isTerminator b = false) (ht : isTerminator t = true) :
    ∃ found, findNewlineAndStrip buf = some found ∧
      found.buf.data = stripSpace line ++ strippedCells line (terminatorLength t rest)
        ++ skipTerminator t rest ∧
      found.lineLen = (stripSpace line).length ∧
      found.next = (line.dropWhile isSpace).length + terminatorLength t rest := by
  have hfind : buf.data.findIdx? isTerminator = some line.length := by
    rw [hdata]
    exact findIdx?_terminator line t rest hline ht
  have hpair := isPair_eq line t rest
  have hbefore := no_cr_before line t rest hline
  rw [← hdata] at hpair hbefore
  have hstrip : ∀ (zeroed : Bytes) (hz : zeroed.length = buf.data.length) (lineEnd next : Nat),
      lineEnd = line.length → next = line.length + terminatorLength t rest →
      zeroed = line ++ List.replicate (terminatorLength t rest) 0 ++ skipTerminator t rest →
      ∃ found, some (stripLine (buf.overwrite zeroed hz) lineEnd next) = some found ∧
        found.buf.data = stripSpace line ++ strippedCells line (terminatorLength t rest)
          ++ skipTerminator t rest ∧
        found.lineLen = (stripSpace line).length ∧
        found.next = (line.dropWhile isSpace).length + terminatorLength t rest := by
    rintro zeroed hz _ _ rfl rfl hzeroed
    exact ⟨_, rfl, stripLine_spec (buf.overwrite zeroed hz) line _ _ hzeroed⟩
  rw [findNewlineAndStrip, hfind]
  dsimp only
  apply hstrip
  · rw [Bool.and_assoc, hbefore, Bool.and_false, if_neg Bool.false_ne_true]
  · rw [hpair, terminatorLength]
    split <;> rfl
  · rw [Bool.and_assoc _ _ (decide (buf.data.getD (line.length - 1) 1 = 13)), hbefore,
      Bool.and_false, if_neg Bool.false_ne_true, hpair, skipTerminator, terminatorLength, hdata]
    split
    · next hpair =>
        cases rest with
        | nil => simp at hpair
        | cons b rest =>
          have hsecond : zeroCells (line.length + 1) (line.length + 2) (line ++ t :: b :: rest)
              = line ++ t :: 0 :: rest := by
            simpa using zeroCells_middle (line ++ [t]) [b] rest
          have hfirst : zeroCells line.length (line.length + 1) (line ++ t :: 0 :: rest)
              = line ++ 0 :: 0 :: rest := by
            simpa using zeroCells_middle line [t] (0 :: rest)
          rw [hsecond, hfirst]
          simp [List.replicate_succ]
    · have hfirst := zeroCells_middle line [t] rest
      simpa using hfirst

/-- What the scanner finds at the first terminator: the stripped line, and behind it the bytes that
follow the whole terminator. -/
theorem findNewlineAndStrip_eq_some (buf : Cells) (line : Bytes) (t : Byte)
    (rest : Bytes) (hdata : buf.data = line ++ t :: rest)
    (hline : ∀ b ∈ line, isTerminator b = false) (ht : isTerminator t = true) :
    ∃ found, findNewlineAndStrip buf = some found ∧ found.line = stripSpace line ∧
      (found.buf.consume found.next).data = skipTerminator t rest := by
  obtain ⟨found, hfound, hcells, hlen, hnext⟩ := findNewlineAndStrip_spec buf line t rest hdata hline ht
  refine ⟨found, hfound, ?_, ?_⟩
  · rw [LineFound.line, hcells, hlen, List.append_assoc, List.take_left]
  · have hle := length_stripSpace_le line
    have hfront : (stripSpace line ++ strippedCells line (terminatorLength t rest)).length
        = found.next := by
      rw [List.length_append, strippedCells, List.length_replicate, hnext]
      omega
    rw [LinearBuffer.consume_data, hcells, ← hfront, List.drop_left]

/-- The scanner finds the next line, if there is one. -/
theorem findNewlineAndStrip_cases (buf : Cells) :
    (nextLine buf.data = none ∧ ∀ b ∈ buf.data, isTerminator b = false) ∨
      ∃ found, findNewlineAndStrip buf = some found ∧
        nextLine buf.data = some (found.line, (found.buf.consume found.next).data) ∧
        (found.buf.consume found.next).data.length < buf.data.length := by
  rcases exists_terminator buf.data with htext | ⟨line, t, rest, hdata, hline, ht⟩
  · exact .inl ⟨nextLine_eq_none htext, htext⟩
  · obtain ⟨found, hfound, hfline, hfrest⟩ :=
      findNewlineAndStrip_eq_some buf line t rest hdata hline ht
    have hnext : nextLine buf.data = some (found.line, (found.buf.consume found.next).data) := by
      rw [hdata, nextLine_eq_some rest hline ht, hfline, hfrest]
    exact .inr ⟨found, hfound, hnext, length_rest_lt_of_nextLine hnext⟩

/-! ### Dispatching a line -/

variable {ρ : Type} {setup : Setup} {env : Surroundings ρ} {depth : Nat} {w : World ρ}

section Dispatch

variable {sameMode : Prop} (henv : env.KeepsInput sameMode) (hslot : TextSlot w.comm)

include henv hslot

/-- `comm_invoke_inbound_message` in strict mode. -/
theorem commInvokeInboundMessage_returns (hstrict : setup.relaxed = false) (data : Bytes) :
    Returns (slotHandler setup env (depth + 1)) (commInvokeInboundMessage setup data) w
      fun result w' => result ≠ .queueFull ∧ ∃ comm,
        w.Keeps sameMode (enteredBy setup (.messageInbound data) comm) w' := by
  rw [returns_invokeStrict hslot.live hstrict]
  have hflags : w.Keeps sameMode []
      { w with comm := w.comm.mapFlags fun flags => { flags with invokedPrompt := false } } :=
    .of_comm ⟨{ hslot with }, rfl, rfl, rfl, rfl, rfl, fun _ => rfl⟩
  refine (mudmuxExecutionDispatch_returns henv hflags.input.textSlot hstrict _).mono
    fun result w' h => ⟨h.1, _, hflags.trans h.2⟩

end Dispatch

/-! ### The line loop -/

/-- A text slot in line input that waits for no hook. -/
structure LineSlot (comm : CommAbstract) : Prop extends TextSlot comm where
  lineInput : comm.flags.lineInput = true
  notAwaiting : comm.flags.awaitingHook = false

theorem LineSlot.of_kept {comm comm' : CommAbstract} (h : LineSlot comm)
    (hkept : InputKept True comm comm') : LineSlot comm' :=
  ⟨hkept.textSlot, (hkept.lineInput trivial).trans h.lineInput,
    hkept.awaitingHook.trans h.notAwaiting⟩

theorem LineSlot.with_inbound (h : LineSlot comm) (inbound : List InboundBuffer) :
    LineSlot { comm with inbound } :=
  { h with }

theorem chatWorld_lineSlot (enableTelnet : Bool) (reads : List ReadAnswer) :
    LineSlot (chatWorld enableTelnet reads).comm :=
  ⟨⟨rfl, rfl, rfl, rfl, nofun⟩, rfl, rfl⟩

/-- The hook calls for lines that are handed out. -/
def lineCalls (setup : Setup) (lines : List Bytes) : List HookCall :=
  if setup.registered .messageInbound then lines.map .messageInbound else []

theorem hookType_of_mem_lineCalls {call : HookCall} (h : call ∈ lineCalls setup lines) :
    call.hookType = .messageInbound := by
  rw [lineCalls] at h
  split at h
  · obtain ⟨line, _, rfl⟩ := List.mem_map.mp h
    rfl
  · cases h

/-- What the parser does to a slot: the hook was entered for `lines`, the one buffer holds `rest`,
and everything else the parsers read is unchanged. -/
structure World.Parsed (setup : Setup) (lines : List Bytes) (rest : Bytes) (w w' : World ρ) :
    Prop where
  input : InputKept True { w.comm with inbound := w'.comm.inbound } w'.comm
  buffer : ∃ buf, w'.comm.inbound = [⟨.data, buf⟩] ∧ buf.data = rest
  entries : ∃ entered, w'.entries = w.entries ++ entered ∧
    entered.map Prod.fst = lineCalls setup lines
  reads : w'.reads = w.reads

theorem lineCalls_cons (line : Bytes) (lines : List Bytes) (comm : CommAbstract) :
    (enteredBy setup (.messageInbound line) comm).map Prod.fst ++ lineCalls setup lines
      = lineCalls setup (line :: lines) := by
  cases hreg : setup.registered .messageInbound <;>
    simp [enteredBy, lineCalls, HookCall.hookType, hreg]

/-- Nothing is parsed. -/
theorem World.Parsed.refl (hslot : LineSlot w.comm) (hbuf : w.comm.inbound = [⟨.data, buf⟩]) :
    w.Parsed setup [] buf.data w where
  input := InputKept.refl hslot.toTextSlot
  buffer := ⟨buf, hbuf, rfl⟩
  entries := ⟨[], (List.append_nil _).symm, by simp [lineCalls]⟩
  reads := rfl

theorem World.Parsed.of_keeps {w' w'' : World ρ} (h : w'.Parsed setup lines rest w'')
    (hkeeps : w.Keeps True [] w') : w.Parsed setup lines rest w'' where
  input :=
    have hin := h.input
    have hk := hkeeps.input
    ⟨hin.textSlot, rfl, hin.ssl.trans hk.ssl, hin.enableTelnet.trans hk.enableTelnet,
      hin.telnetState.trans hk.telnetState, hin.awaitingHook.trans hk.awaitingHook,
      fun h => (hin.lineInput h).trans (hk.lineInput h)⟩
  buffer := h.buffer
  entries := by
    obtain ⟨entered, hentered, hcalls⟩ := h.entries
    exact ⟨entered, by rw [hentered, hkeeps.entries, List.append_nil], hcalls⟩
  reads := h.reads.trans hkeeps.reads

/-- A line was dispatched before. -/
theorem World.Parsed.after_line {w' w'' : World ρ} {inbound : List InboundBuffer}
    (h : w'.Parsed setup lines rest w'') (hkept : InputKept True { w.comm with inbound } w'.comm)
    (hentries : w'.entries = w.entries ++ enteredBy setup (.messageInbound line) comm)
    (hreads : w'.reads = w.reads) : w.Parsed setup (line :: lines) rest w'' where
  input :=
    have hin := h.input
    ⟨hin.textSlot, rfl, hin.ssl.trans hkept.ssl, hin.enableTelnet.trans hkept.enableTelnet,
      hin.telnetState.trans hkept.telnetState, hin.awaitingHook.trans hkept.awaitingHook,
      fun h => (hin.lineInput h).trans (hkept.lineInput h)⟩
  buffer := h.buffer
  entries := by
    obtain ⟨entered, hentered, hcalls⟩ := h.entries
    refine ⟨enteredBy setup (.messageInbound line) comm ++ entered, ?_, ?_⟩
    · rw [hentered, hentries, List.append_assoc]
    · rw [List.map_append, hcalls, lineCalls_cons]
  reads := h.reads.trans hreads

/-- The record behind the echo of a newline: only a Telnet slot that is not closing echoes. -/
def echoedNewline (comm : CommAbstract) : CommAbstract :=
  if comm.flags.enableTelnet && !comm.flags.closing then
    ifLive comm fun comm => commBufferedWriteImpl true comm [13, 10]
  else comm

theorem InputKept.of_echo (h : TextSlot comm) : InputKept True comm (echoedNewline comm) := by
  rw [echoedNewline]
  split
  · exact InputKept.of_write h true [13, 10]
  · exact InputKept.refl h

theorem returns_echo {α : Type} {f : Unit → Code α} {Q : α → World ρ → Prop} (comm : CommAbstract)
    (h : Returns (slotHandler setup env depth) (f ()) { w with comm := echoedNewline comm } Q) :
    Returns (slotHandler setup env depth)
      (if (comm.flags.enableTelnet && !comm.flags.closing) = true then
        commBufferedWriteComm [13, 10] >>= f
      else f ()) { w with comm } Q := by
  rw [echoedNewline] at h
  split
  · next hecho =>
      rw [if_pos hecho] at h
      rw [commBufferedWriteComm, Program.effect_bind, returns_write]
      exact h
  · next hecho =>
      rw [if_neg hecho] at h
      exact h

variable {Q : Unit → World ρ → Prop}

/-- The line loop at a line, whatever its dispatch does: a refusal ends the loop, and behind an accepted
line the loop ends if the slot is busy and goes on behind the terminator otherwise. -/
theorem lineLoop_found (fuel : Nat) (hbudget : budget ≠ some 0) (hlive : w.comm.live = true)
    (hbuf : w.comm.inbound = [⟨.data, buf⟩]) {found : LineFound}
    (hfound : findNewlineAndStrip buf = some found)
    (hdispatch : Returns (slotHandler setup env depth) (commInvokeInboundMessage setup found.line)
      { w with comm := echoedNewline { w.comm with inbound := [⟨.data, found.buf⟩] } }
      fun result w₁ =>
        if result = .queueFull then Returns (slotHandler setup env depth) deferInbound w₁ Q
        else w₁.comm.live = true ∧ w₁.comm.inbound.tail = [] ∧
          let comm := { w₁.comm with inbound := [⟨.data, found.buf.consume found.next⟩] }
          let outside := (env.foreign .slotBusy comm w₁.outside).2
          if env.slotBusy outside then Q () { w₁ with comm, outside }
          else ∀ buf', buf'.data = (found.buf.consume found.next).data →
            Returns (slotHandler setup env depth) (lineLoop setup fuel (budget.map (· - 1)))
              { w₁ with comm := { w₁.comm with inbound := [⟨.data, buf'⟩] }, outside } Q) :
    Returns (slotHandler setup env depth) (lineLoop setup (fuel + 1) budget) w Q := by
  have hne : buf.data.isEmpty = false := by
    cases hdata : buf.data with
    | cons b data => rfl
    | nil => simp [findNewlineAndStrip, hdata] at hfound
  rw [lineLoop, if_neg hbudget, returns_commDeref hlive]
  simp only [hbuf, hne, hfound, Bool.false_eq_true, if_false, returns_setComm]
  refine returns_echo { w.comm with inbound := [⟨.data, found.buf⟩] } ?_
  refine hdispatch.bind fun result w₁ h => ?_
  split at h
  · next hfull =>
      rw [if_pos hfull]
      exact h
  · next hresult =>
      obtain ⟨hlive₁, hchain, h⟩ := h
      rw [if_neg hresult, returns_commGuard hlive₁]
      simp only [returns_setComm, hchain, Program.effect_bind]
      rw [returns_asksBusy]
      cases hbusy : env.slotBusy (env.foreign .slotBusy
          { w₁.comm with inbound := [⟨.data, found.buf.consume found.next⟩] } w₁.outside).2 with
      | true =>
        dsimp only at h
        rw [hbusy, if_pos rfl] at h
        exact returns_done.mpr h
      | false =>
        dsimp only at h
        rw [hbusy, if_neg Bool.false_ne_true] at h
        rw [if_neg Bool.false_ne_true]
        split
        case isTrue hempty =>
          -- the emptied buffer is recycled to the tail, which is its own place
          rw [returns_setComm]
          exact h .empty (List.isEmpty_iff.mp hempty).symm
        case isFalse =>
          rw [returns_setComm]
          exact h _ rfl

/-- `_comm_process_input` on a text slot that waits for no hook: it asks whether the slot is busy, and
takes the flag back before it parses. -/
theorem commProcessInput_asks (hslot : TextSlot w.comm)
    (hnotAwaiting : w.comm.flags.awaitingHook = false) {Q : ProcessResult → World ρ → Prop} (hpass :
      let outside := (env.foreign .slotBusy w.comm w.outside).2
      if env.slotBusy outside then Q .deferred { w with outside }
      else Returns (slotHandler setup env depth) (processText setup budget)
        { w with
            outside
            comm := { w.comm with
              flags := { w.comm.flags with deferredInbound := false }
              inbound := skipNonDataHeadBuffers w.comm.inbound } } Q) :
    Returns (slotHandler setup env depth) (commProcessInput setup budget) w Q := by
  rw [commProcessInput, processInputWith, returns_commGuard hslot.live]
  simp only [hnotAwaiting, hslot.noWebsocket, hslot.noFrames, WebSocketState.isReady,
    bne_self_eq_false, Bool.false_and, Bool.false_eq_true, if_false, Program.effect_bind]
  rw [returns_asksBusy]
  dsimp only at hpass
  split at hpass
  · next hbusy =>
      rw [hbusy, if_pos rfl]
      exact returns_done.mpr hpass
  · next hidle =>
      rw [if_neg hidle, returns_modifyComm (by exact hslot.live)]
      exact hpass

/-- The common end of the line and the character branch, on a slot that stays. -/
theorem processText_end {Q : World ρ → Prop} (hlive : w.comm.live = true) (hQ : Q w) :
    Returns (slotHandler setup env depth)
      (do
        match ← commGuard with
        | none => pure ProcessResult.closed
        | some comm => pure (if comm.flags.deferredInbound then .deferred else .ok)) w
      fun result w' => (result = .ok ∨ result = .deferred) ∧ Q w' := by
  rw [returns_commGuard hlive]
  refine returns_done.mpr ⟨?_, hQ⟩
  split
  · exact .inr rfl
  · exact .inl rfl

/-- The line branch of `_comm_process_input` with its end, on one buffer of a slot that stays. -/
theorem processText_line (hlive : w.comm.live = true) (hline : w.comm.flags.lineInput = true)
    (hbuf : w.comm.inbound = [⟨.data, buf⟩]) {Q : World ρ → Prop}
    (hloop : ∀ fuel, buf.data.length < fuel →
      Returns (slotHandler setup env depth) (lineLoop setup fuel budget) w
        fun _ w' => w'.comm.live = true ∧ Q w') :
    Returns (slotHandler setup env depth) (processText setup budget) w
      fun result w' => (result = .ok ∨ result = .deferred) ∧ Q w' := by
  have hfuel : buf.data.length < 2 * inboundBytes w.comm.inbound + w.comm.inbound.length + 1 := by
    simp only [hbuf, inboundBytes, List.map_cons, List.map_nil, List.sum_cons, List.sum_nil,
      List.length_cons, List.length_nil]
    omega
  rw [processText, returns_commDeref hlive]
  simp only [hline, if_true]
  apply (hloop _ hfuel).bind
  rintro _ w₁ ⟨hlive₁, hQ⟩
  exact processText_end hlive₁ hQ

theorem processText_lines (hlive : w.comm.live = true) (hline : w.comm.flags.lineInput = true)
    (hbuf : w.comm.inbound = [⟨.data, buf⟩]) {Q : World ρ → Prop}
    (hloop : ∀ fuel, buf.data.length < fuel →
      Returns (slotHandler setup env depth) (lineLoop setup fuel budget) w
        fun _ w' => w'.comm.live = true ∧ Q w') :
    Returns (slotHandler setup env depth) (processText setup budget) w fun _ w' => Q w' :=
  (processText_line hlive hline hbuf hloop).mono fun _ _ h => h.2

section LineLoop

variable (henv : env.KeepsInput True) (hstrict : setup.relaxed = false)

include henv hstrict

/-- One line of the line loop: the loop dispatches it and goes on behind its terminator, with the
input otherwise unchanged. -/
theorem lineLoop_line (fuel : Nat) (hslot : LineSlot w.comm)
    (hbuf : w.comm.inbound = [⟨.data, buf⟩]) {found : LineFound}
    (hfound : findNewlineAndStrip buf = some found)
    (hnext : ∀ (buf' : Cells) (comm : CommAbstract) (w' : World ρ),
      buf'.data = (found.buf.consume found.next).data →
      InputKept True { w.comm with inbound := [⟨.data, buf'⟩] } w'.comm →
      w'.entries = w.entries ++ enteredBy setup (.messageInbound found.line) comm →
      w'.reads = w.reads →
      Returns (slotHandler setup env (depth + 1)) (lineLoop setup fuel none) w' Q) :
    Returns (slotHandler setup env (depth + 1)) (lineLoop setup (fuel + 1) none) w Q := by
  have hslot₀ := (hslot.with_inbound [⟨.data, found.buf⟩]).toTextSlot
  have hecho := InputKept.of_echo hslot₀
  apply lineLoop_found fuel (by simp) hslot.live hbuf hfound
  apply (commInvokeInboundMessage_returns henv hecho.textSlot hstrict _).mono
  rintro result w₁ ⟨hresult, comm, h₁⟩
  have hin := hecho.trans h₁.input
  have ht := hin.textSlot
  rw [if_neg hresult]
  refine ⟨ht.live, by rw [hin.inbound, List.tail_cons], ?_⟩
  dsimp only
  rw [henv.notBusy, if_neg Bool.false_ne_true]
  intro buf' hbuf'
  refine hnext buf' comm _ hbuf' ?_ h₁.entries h₁.reads
  exact { hin with textSlot := { ht with }, inbound := rfl }

omit henv hstrict in
/-- Without a terminator the line loop waits for more bytes. -/
theorem lineLoop_waits (fuel : Nat) (hlive : w.comm.live = true)
    (hbuf : w.comm.inbound = [⟨.data, buf⟩]) (htext : ∀ b ∈ buf.data, isTerminator b = false)
    (hq : Q () w) :
    Returns (slotHandler setup env depth) (lineLoop setup (fuel + 1) budget) w Q := by
  rw [lineLoop]
  by_cases hbudget : budget = some 0
  · rw [if_pos hbudget]
    exact returns_done.mpr hq
  rw [if_neg hbudget, returns_commDeref hlive]
  simp only [hbuf, findNewlineAndStrip_eq_none buf htext, refillFromNext]
  split
  · exact returns_done.mpr hq
  · split <;> exact returns_done.mpr hq

/-- The line loop on one buffer: a byte of fuel for every byte, and one to see the end. -/
theorem lineLoop_returns (fuel : Nat) (w : World ρ) (hslot : LineSlot w.comm) (buf : Cells)
    (hbuf : w.comm.inbound = [⟨.data, buf⟩]) (hfuel : buf.data.length < fuel) :
    Returns (slotHandler setup env (depth + 1)) (lineLoop setup fuel none) w
      fun _ w' => w.Parsed setup (linesOf [] buf.data) (partialLine [] buf.data) w' := by
  induction fuel generalizing w buf with
  | zero => omega
  | succ fuel ih =>
    obtain ⟨hlines, hpartial⟩ := lineReader_nextLine buf.data
    rw [hlines, hpartial]
    rcases findNewlineAndStrip_cases buf with ⟨hnone, htext⟩ | ⟨found, hfound, hnext, hshort⟩
    · apply lineLoop_waits fuel hslot.live hbuf htext
      rw [hnone]
      exact World.Parsed.refl hslot hbuf
    · apply lineLoop_line henv hstrict fuel hslot hbuf hfound
      intro buf' comm w' hbuf' hkept hentries hreads
      refine (ih w' ((hslot.with_inbound _).of_kept hkept) buf' hkept.inbound (by rw [hbuf']; omega)).mono
        fun _ w'' h => ?_
      rw [hnext, ← hbuf']
      exact h.after_line hkept hentries hreads

variable (hslot : LineSlot w.comm)

include hslot

theorem processText_returns (buf : Cells) (hbuf : w.comm.inbound = [⟨.data, buf⟩]) :
    Returns (slotHandler setup env (depth + 1)) (processText setup none) w
      fun _ w' => w.Parsed setup (linesOf [] buf.data) (partialLine [] buf.data) w' := by
  apply processText_lines hslot.live hslot.lineInput hbuf
  intro fuel hfuel
  exact (lineLoop_returns henv hstrict fuel w hslot buf hbuf hfuel).mono fun _ w₁ h₁ =>
    ⟨h₁.input.textSlot.live, h₁⟩

omit henv hstrict in
/-- A slot that has not received anything yet has no buffer. -/
theorem processText_of_nil (hnil : w.comm.inbound = []) :
    Returns (slotHandler setup env depth) (processText setup none) w fun _ w' => w' = w := by
  rw [processText, returns_commDeref hslot.live]
  simp only [hslot.lineInput, if_true, lineLoop, reduceCtorEq, if_false]
  rw [Program.bind_assoc', returns_commDeref hslot.live]
  simp only [hnil, Program.pure_eq, Program.done_bind, Bool.false_eq_true, if_false]
  rw [returns_commGuard hslot.live]
  exact returns_done.mpr rfl

omit hstrict in
/-- The beginning of `comm_process_input` on a line slot without buffers of other bands. -/
theorem commProcessInput_text (hskip : skipNonDataHeadBuffers w.comm.inbound = w.comm.inbound)
    {Q : ProcessResult → World ρ → Prop} (htext : ∀ w', w.Keeps True [] w' →
      Returns (slotHandler setup env depth) (processText setup none) w' Q) :
    Returns (slotHandler setup env depth) (commProcessInput setup none) w Q := by
  apply commProcessInput_asks hslot.toTextSlot hslot.notAwaiting
  dsimp only
  rw [henv.notBusy, if_neg Bool.false_ne_true]
  apply htext
  have ht := hslot.toTextSlot
  exact ⟨⟨{ ht with }, hskip, rfl, rfl, rfl,
    rfl, fun _ => rfl⟩, (List.append_nil _).symm, rfl⟩

/-- `comm_process_input` on a line slot with one buffer. -/
theorem commProcessInput_returns (buf : Cells) (hbuf : w.comm.inbound = [⟨.data, buf⟩]) :
    Returns (slotHandler setup env (depth + 1)) (commProcessInput setup none) w
      fun _ w' => w.Parsed setup (linesOf [] buf.data) (partialLine [] buf.data) w' := by
  have hskip : skipNonDataHeadBuffers w.comm.inbound = w.comm.inbound := by
    rw [hbuf]
    rfl
  apply commProcessInput_text henv hslot hskip
  intro w₁ h₁
  exact (processText_returns henv hstrict (hslot.of_kept h₁.input) buf
    (h₁.input.inbound.trans hbuf)).mono fun _ w' h => h.of_keeps h₁

end LineLoop

end Mudmux.Comm
