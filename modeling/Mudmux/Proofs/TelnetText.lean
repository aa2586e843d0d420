import Mudmux.Proofs.Telnet
import Mudmux.Proofs.QueueLimit

/-!
# `Mudmux.Proofs.TelnetText`: text on its way to a Telnet peer

On a direct Telnet slot `comm_buffered_write_comm` normalizes the newlines of the text and queues the
result as it is.

The scan of `normalize_telnet_newlines` looks behind a CR for an LF and then, past that LF, for a NUL. So
CR LF NUL becomes CR LF LF. A NUL behind an LF or behind a CR NUL stays where it is, and a second
normalization meets it behind a CR LF. These are the only texts that do not come out canonical
(`normalized_text_canonical_iff`).

Nothing escapes the byte 255, which a Telnet peer takes for the beginning of a command
(`telnet_text_read_back_iff`).
-/

set_option autoImplicit false

namespace Mudmux.Comm

open Mudmux.Lib

/-! ### Newline normalization -/

theorem normalizeTelnetNewlines_crlf {rest : Bytes} (h : rest.head? ≠ some 0) :
    normalizeTelnetNewlines (13 :: 10 :: rest) = 13 :: 10 :: normalizeTelnetNewlines rest :=
  normalizeTelnetNewlines.eq_3 rest fun tail htail => h (by rw [htail]; rfl)

theorem normalizeTelnetNewlines_plain {ch : Byte} {rest : Bytes} (hlf : ch ≠ 10)
    (hcr : ch = 13 → rest.head? ≠ some 10 ∧ rest.head? ≠ some 0) :
    normalizeTelnetNewlines (ch :: rest) = ch :: normalizeTelnetNewlines rest :=
  normalizeTelnetNewlines.eq_6 ch rest
    (fun _ h htail => (hcr h).1 (by rw [htail]; rfl))
    (fun _ h htail => (hcr h).1 (by rw [htail]; rfl))
    (fun _ h htail => (hcr h).2 (by rw [htail]; rfl)) hlf

variable (text : Bytes)

/-- An LF at the front gets its CR. -/
theorem head?_normalizeTelnetNewlines_ne_lf : (normalizeTelnetNewlines text).head? ≠ some 10 := by
  fun_cases normalizeTelnetNewlines text <;> simp_all

/-- A NUL at the front stays there. -/
theorem head?_normalizeTelnetNewlines_eq_nul :
    (normalizeTelnetNewlines text).head? = some 0 ↔ text.head? = some 0 := by
  fun_cases normalizeTelnetNewlines text <;> simp_all

/-- The text has no NUL that the scan leaves behind a newline, and none that it takes for the end of
a second one. -/
def NewlinesClean (text : Bytes) : Prop := ¬ [10, 0] <:+: text ∧ ¬ [13, 0, 0] <:+: text

theorem singleton_prefix_iff (b : Byte) (text : Bytes) : [b] <+: text ↔ text.head? = some b := by
  cases text <;> simp [List.cons_prefix_cons, eq_comm]

theorem newlinesClean_cons (ch : Byte) (rest : Bytes) :
    NewlinesClean (ch :: rest) ↔
      ¬ (ch = 10 ∧ rest.head? = some 0) ∧ ¬ (ch = 13 ∧ [0, 0] <+: rest) ∧ NewlinesClean rest := by
  have hlf : [10, 0] <+: ch :: rest ↔ ch = 10 ∧ rest.head? = some 0 := by
    rw [List.cons_prefix_cons, singleton_prefix_iff, eq_comm]
  have hcr : [13, 0, 0] <+: ch :: rest ↔ ch = 13 ∧ [0, 0] <+: rest := by
    rw [List.cons_prefix_cons, eq_comm]
  simp only [NewlinesClean, List.infix_cons_iff, hlf, hcr]
  tauto

/-- A CR LF in front of normalized text is kept by the next normalization unless a NUL follows. -/
theorem normalizeTelnetNewlines_crlf_stable (rest : Bytes) :
    normalizeTelnetNewlines (13 :: 10 :: normalizeTelnetNewlines rest)
        = 13 :: 10 :: normalizeTelnetNewlines rest ↔
      rest.head? ≠ some 0 ∧
        normalizeTelnetNewlines (normalizeTelnetNewlines rest) = normalizeTelnetNewlines rest := by
  by_cases hnul : rest.head? = some 0
  · obtain ⟨tail, htail⟩ : ∃ tail, normalizeTelnetNewlines rest = 0 :: tail :=
      List.head?_eq_some_iff.mp ((head?_normalizeTelnetNewlines_eq_nul rest).mpr hnul)
    simp [htail, hnul, normalizeTelnetNewlines]
  · rw [normalizeTelnetNewlines_crlf (mt (head?_normalizeTelnetNewlines_eq_nul rest).mp hnul)]
    simp [hnul]

/-- A second normalization changes nothing exactly on the clean texts. -/
theorem normalizeTelnetNewlines_stable_iff :
    normalizeTelnetNewlines (normalizeTelnetNewlines text) = normalizeTelnetNewlines text ↔
      NewlinesClean text := by
  induction text using normalizeTelnetNewlines.induct with
  | case1 => simp [normalizeTelnetNewlines, NewlinesClean]
  | case2 rest _ =>
    -- the LF that replaces the NUL stands behind an LF and gets a CR of its own
    rw [normalizeTelnetNewlines, normalizeTelnetNewlines_crlf (by simp)]
    simp [normalizeTelnetNewlines, newlinesClean_cons]
  | case3 rest hnul ih =>
    have hhead : rest.head? ≠ some 0 := fun h =>
      (List.head?_eq_some_iff.mp h).elim fun tail htail => hnul tail htail
    rw [normalizeTelnetNewlines_crlf hhead, normalizeTelnetNewlines_crlf_stable, ih,
      newlinesClean_cons, newlinesClean_cons]
    simp [hhead, List.cons_prefix_cons]
  | case4 rest ih =>
    rw [normalizeTelnetNewlines, normalizeTelnetNewlines_crlf_stable, ih, newlinesClean_cons,
      newlinesClean_cons]
    simp [List.cons_prefix_cons, singleton_prefix_iff]
  | case5 rest ih =>
    rw [normalizeTelnetNewlines, normalizeTelnetNewlines_crlf_stable, ih, newlinesClean_cons]
    simp
  | case6 ch rest _ hcrlf hcrnul hlf ih =>
    have hcr : ch = 13 → rest.head? ≠ some 10 ∧ rest.head? ≠ some 0 := fun h =>
      ⟨fun hhead => (List.head?_eq_some_iff.mp hhead).elim fun tail => hcrlf tail h,
        fun hhead => (List.head?_eq_some_iff.mp hhead).elim fun tail => hcrnul tail h⟩
    have hcr' : ch = 13 → (normalizeTelnetNewlines rest).head? ≠ some 10 ∧
        (normalizeTelnetNewlines rest).head? ≠ some 0 := fun h =>
      ⟨head?_normalizeTelnetNewlines_ne_lf rest,
        mt (head?_normalizeTelnetNewlines_eq_nul rest).mp (hcr h).2⟩
    rw [normalizeTelnetNewlines_plain hlf hcr, normalizeTelnetNewlines_plain hlf hcr',
      newlinesClean_cons, ← ih]
    have hnul : ¬ (ch = 13 ∧ [0, 0] <+: rest) := by
      rintro ⟨h, tail, htail⟩
      exact (hcr h).2 (by rw [← htail]; rfl)
    simp [hnul, show ch ≠ 10 from hlf]

/-- Text as a Telnet client expects it: every LF stands behind a CR, and no NUL does. -/
structure CanonicalNewlines (text : Bytes) : Prop where
  notAtFront : text.head? ≠ some 10
  behindCr : text.IsChain fun before byte => byte = 10 → before = 13
  noCrNul : text.IsChain fun before byte => ¬ (before = 13 ∧ byte = 0)

theorem CanonicalNewlines.cons {ch : Byte} {text : Bytes} (h : CanonicalNewlines text) (hlf : ch ≠ 10)
    (hnul : ch = 13 → text.head? ≠ some 0) : CanonicalNewlines (ch :: text) where
  notAtFront hhead := hlf (by simpa using hhead)
  behindCr := h.behindCr.cons fun next hnext hten => absurd (hten ▸ hnext) h.notAtFront
  noCrNul := h.noCrNul.cons fun next hnext hpair => hnul hpair.1 (hpair.2 ▸ hnext)

theorem CanonicalNewlines.crlf {text : Bytes} (h : CanonicalNewlines text) :
    CanonicalNewlines (13 :: 10 :: text) where
  notAtFront := by simp
  behindCr := (h.behindCr.cons fun next hnext hten => absurd (hten ▸ hnext) h.notAtFront).cons
    fun _ _ _ => rfl
  noCrNul := (h.noCrNul.cons (by simp)).cons (by simp)

/-- Text that normalization leaves alone is canonical. -/
theorem canonicalNewlines_of_stable (h : normalizeTelnetNewlines text = text) :
    CanonicalNewlines text := by
  induction text using normalizeTelnetNewlines.induct with
  | case1 => exact ⟨nofun, .nil, .nil⟩
  | case3 rest hnul ih =>
    rw [normalizeTelnetNewlines.eq_3 rest hnul] at h
    exact (ih (by simpa using h)).crlf
  | case6 ch rest hcrlfnul hcrlf hcrnul hlf ih =>
    rw [normalizeTelnetNewlines.eq_6 ch rest hcrlfnul hcrlf hcrnul hlf] at h
    refine (ih (by simpa using h)).cons hlf fun hcr hhead => ?_
    obtain ⟨tail, htail⟩ := List.head?_eq_some_iff.mp hhead
    exact hcrnul tail hcr htail
  | case2 rest _ | case4 rest _ | case5 rest _ =>
    -- the scan changes these at once
    simp [normalizeTelnetNewlines] at h

/-- Normalization touches newlines and NULs only. -/
theorem visible_normalizeTelnetNewlines :
    (normalizeTelnetNewlines text).filter (fun b => !isTerminator b)
      = text.filter fun b => !isTerminator b := by
  have hcr : isTerminator 13 = true := rfl
  have hlf : isTerminator 10 = true := rfl
  have hnul : isTerminator 0 = true := rfl
  fun_induction normalizeTelnetNewlines text with
  | case1 => rfl
  | case2 rest ih | case3 rest _ ih | case4 rest ih | case5 rest ih =>
    simp [hcr, hlf, hnul, ih]
  | case6 ch rest _ _ _ _ ih => simp [List.filter_cons, ih]

/-- What newline normalization is for: canonical text with the visible bytes of the input, and
nothing left for a second normalization. -/
structure NormalizedText (input result : Bytes) : Prop extends CanonicalNewlines result where
  visible : result.filter (fun b => !isTerminator b) = input.filter fun b => !isTerminator b
  stable : normalizeTelnetNewlines result = result

/-- Newline normalization gives normalized text exactly if no NUL of the input follows an LF or a CR
NUL. -/
theorem normalized_text_canonical_iff (input : Bytes) :
    NormalizedText input (normalizeTelnetNewlines input) ↔
      ¬ [10, 0] <:+: input ∧ ¬ [13, 0, 0] <:+: input := by
  rw [← NewlinesClean, ← normalizeTelnetNewlines_stable_iff]
  constructor
  · exact fun h => h.stable
  · exact fun h =>
      ⟨canonicalNewlines_of_stable _ h, visible_normalizeTelnetNewlines input, h⟩

/-- CR LF NUL becomes CR LF LF, whose second LF has no CR in front. An LF NUL becomes CR LF NUL, and
that becomes CR LF LF at the second normalization. -/
theorem nul_behind_newline_not_canonical :
    normalizeTelnetNewlines [13, 10, 0] = [13, 10, 10] ∧
      ¬ CanonicalNewlines (normalizeTelnetNewlines [13, 10, 0]) ∧
      normalizeTelnetNewlines (normalizeTelnetNewlines [10, 0]) ≠ normalizeTelnetNewlines [10, 0] := by
  refine ⟨rfl, fun h => ?_, by decide⟩
  have hpair : List.IsChain (fun before byte : Byte => byte = 10 → before = 13) [13, 10, 10] := h.behindCr
  simp at hpair

/-! ### What the peer reads -/

/-- Text without the byte 255 is data to a Telnet parser. -/
theorem telnetTransducer_run_text (h : telnetIAC ∉ text) :
    telnetTransducer.run .data text = (.data, text) := by
  induction text with
  | nil => rfl
  | cons byte rest ih =>
    have hstep : telnetTransducer.step .data byte = (.data, [byte]) := by
      have hbyte : byte ≠ telnetIAC := fun hiac => h (by simp [hiac])
      simp [telnetTransducer, telnetStep, hbyte]
    rw [Transducer.run_cons, hstep, ih fun hrest => h (by simp [hrest])]
    rfl

/-- The parser gives text back exactly if the byte 255 does not occur in it. -/
theorem driveTelnet_eq_self_iff :
    driveTelnet .data text = some (.data, text) ↔ telnetIAC ∉ text := by
  rw [driveTelnet_eq_run, Option.some.injEq]
  constructor
  · intro hrun hiac
    -- the first 255 yields no application byte, and no later byte makes up for it
    obtain ⟨text₁, text₂, rfl, hfirst⟩ := List.eq_append_cons_of_mem hiac
    have hstep : telnetTransducer.step .data telnetIAC = (.iac, []) := rfl
    rw [Transducer.run_append, telnetTransducer_run_text text₁ hfirst, Transducer.run_cons, hstep,
      Prod.mk.injEq] at hrun
    have hlen := congrArg List.length hrun.2
    have hshort := telnetTransducer_run_length .iac text₂
    simp only [List.length_append, List.length_cons, List.nil_append] at hlen
    omega
  · exact telnetTransducer_run_text text

theorem iac_mem_normalizeTelnetNewlines :
    telnetIAC ∈ normalizeTelnetNewlines text ↔ telnetIAC ∈ text := by
  have hvisible (bytes : Bytes) :
      telnetIAC ∈ bytes ↔ telnetIAC ∈ bytes.filter fun b => !isTerminator b := by
    rw [List.mem_filter]
    exact (and_iff_left rfl).symm
  rw [hvisible, visible_normalizeTelnetNewlines, ← hvisible]

/-- A slot whose peer speaks Telnet on the connection itself. -/
structure DirectTelnet (comm : CommAbstract) : Prop where
  wbio : comm.wbio = true
  enableTelnet : comm.flags.enableTelnet = true
  enableWebsocket : comm.flags.enableWebsocket = false
  websocketState : comm.flags.websocketState = .handshake

theorem DirectTelnet.write_eq {comm : CommAbstract} (h : DirectTelnet comm) {buf : Bytes} (hbuf : buf ≠ []) :
    commBufferedWriteImpl true comm buf = commBufferedWriteRaw comm (normalizeTelnetNewlines buf) := by
  simp [commBufferedWriteImpl, hbuf, h.enableTelnet, h.enableWebsocket, h.websocketState,
    WebSocketState.isReady]

/-- `comm_buffered_write_comm` on a direct Telnet slot, with room in the queue: the peer's parser
reads the queued bytes back as the normalized text, and is left in its data state, exactly if the text
has no byte 255. -/
theorem telnet_text_read_back_iff (comm : CommAbstract) (buf : Bytes) (hslot : DirectTelnet comm)
    (hroom : (normalizeTelnetNewlines buf).length ≤ outboundRoom comm.outbound)
    (hchain : comm.outbound.length < maxOutboundBuffers) :
    ∃ queued, chainData (commBufferedWriteImpl true comm buf).outbound
        = chainData comm.outbound ++ queued ∧
      (driveTelnet .data queued = some (.data, normalizeTelnetNewlines buf) ↔ telnetIAC ∉ buf) := by
  refine ⟨normalizeTelnetNewlines buf, ?_, ?_⟩
  · by_cases hbuf : buf = []
    · simp [hbuf, commBufferedWriteImpl, normalizeTelnetNewlines]
    · rw [hslot.write_eq hbuf]
      exact chainData_commBufferedWriteRaw (by simp [withinOutboundLimit, hslot.wbio, hroom]) hchain
  · rw [driveTelnet_eq_self_iff, iac_mem_normalizeTelnetNewlines]

/-- A Telnet slot with nothing queued. -/
def telnetSlot : CommAbstract where
  rbio := true
  wbio := true
  flags := { enableTelnet := true }

theorem telnetSlot_direct : DirectTelnet telnetSlot := ⟨rfl, rfl, rfl, rfl⟩

theorem telnet_text_read_back_iff_greeting :
    ∃ queued, chainData (commBufferedWriteImpl true telnetSlot [104, 105, 10]).outbound
        = chainData telnetSlot.outbound ++ queued ∧
      (driveTelnet .data queued = some (.data, [104, 105, 13, 10]) ↔
        telnetIAC ∉ ([104, 105, 10] : Bytes)) :=
  telnet_text_read_back_iff telnetSlot [104, 105, 10] telnetSlot_direct (by decide) (by decide)

/-- The byte 255 and the byte behind it are read as a command the parser ignores. -/
theorem iac_in_text_is_lost :
    chainData (commBufferedWriteImpl true telnetSlot [104, 255, 105]).outbound = [104, 255, 105] ∧
      driveTelnet .data [104, 255, 105] = some (.data, [104]) := by
  decide

end Mudmux.Comm
