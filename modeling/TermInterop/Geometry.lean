/-
The geometry of a terminal window, as the terminal reports it.

A terminal answers two inquiries, one for the pixels and one for the cells of its text area.  Both
reports have one form: `ESC [`, a digit that tells them apart, and two numbers behind semicolons, up
to the letter `t`.  The parser of a report looks for this letter in the rest of the stream, wherever
it is; a report is what stands between, when it is two positive numbers.

Main definitions:

* `TermInterop.parseReportAt` — one report at an exact offset;
* `TermInterop.parseWindowPixels`, `TermInterop.parseWindowCells` — all reports of a stream;
* `TermInterop.Report`, `TermInterop.reportLexicon` — reports as tokens of a stream;
* `TermInterop.geometryStopReason` — both reports have arrived.

Main results:

* `TermInterop.parseReportAt_eq_some_iff` — the parser finds the reports;
* `TermInterop.separate_reportLexicon` — no report lies inside another one;
* `TermInterop.csi_scanners_stable` — **what was scanned stays when more bytes arrive**.
-/

import TermInterop.Fit
import TermInterop.TtyExchange

set_option relaxedAutoImplicit false
set_option autoImplicit false

namespace TermInterop

/-! ### The parsers -/

/-- One report with exact wire offsets; its numbers in the order in which they stand. -/
structure WindowReport where
  offset : ℕ
  endOffset : ℕ
  first : ℕ
  second : ℕ
  rawBase64 : String

/-- One exact response to the `CSI 14 t` window-area pixel inquiry. -/
structure WindowPixels where
  offset : ℕ
  endOffset : ℕ
  width : UInt32
  height : UInt32
  rawBase64 : String

/-- One exact response to the `CSI 18 t` text-area cell inquiry. -/
structure WindowCells where
  offset : ℕ
  endOffset : ℕ
  columns : UInt16
  rows : UInt16
  rawBase64 : String

/-- Build paired pixel and cell inquiries for one coordinate-surface check. -/
def buildGeometryQuery : Bytes := Text.asBytes "\x1b[14t\x1b[18t"

/-- The bytes in front of the numbers of a report. -/
def reportIntro (selector : UInt8) : Bytes := [ESC, ascii '[', selector]

/-- The two numbers of a report: positive and up to a bound. -/
def parseNumbers (bound : ℕ) (bytes : Bytes) : Option (ℕ × ℕ) := do
  let body ← Utf8Lossy.decodeStrict bytes
  let (first, second) ← Text.splitOnce ';' body
  if first = [] ∨ second = [] ∨ ';' ∈ second then none else
  let first ← Text.parseUnsigned bound first
  let second ← Text.parseUnsigned bound second
  if first = 0 ∨ second = 0 then none else
  some (first, second)

/-- Parse one complete report at an exact offset. -/
def parseReportAt (b64 : Base64.Codec) (selector : UInt8) (bound : ℕ) (input : Bytes)
    (offset : ℕ) : Option WindowReport := do
  let prefixEnd := offset + 3
  let head ← Slices.slice? input offset prefixEnd
  if head ≠ reportIntro selector then none else
  let bodyStart := prefixEnd + 1
  if input[prefixEnd]? ≠ some (ascii ';') then none else
  let rest ← Slices.sliceFrom? input bodyStart
  let relativeEnd ← rest.findIdx? (· = ascii 't')
  let end_ := bodyStart + relativeEnd
  let bytes ← Slices.slice? input bodyStart end_
  let (first, second) ← parseNumbers bound bytes
  let endOffset := end_ + 1
  let raw ← Slices.slice? input offset endOffset
  some ⟨offset, endOffset, first, second, b64.encode raw⟩

/-- The digit of a pixel report. -/
def pixelSelector : UInt8 := ascii '4'

/-- The digit of a cell report. -/
def cellSelector : UInt8 := ascii '8'

/-- A pixel report: its height, and then its width. -/
def WindowPixels.ofReport (report : WindowReport) : WindowPixels :=
  ⟨report.offset, report.endOffset, UInt32.ofNat report.second, UInt32.ofNat report.first,
    report.rawBase64⟩

/-- A cell report: its rows, and then its columns. -/
def WindowCells.ofReport (report : WindowReport) : WindowCells :=
  ⟨report.offset, report.endOffset, UInt16.ofNat report.second, UInt16.ofNat report.first,
    report.rawBase64⟩

/-- Parse one complete `CSI 4 ; height ; width t` response at an exact offset. -/
def parseWindowPixelsAt (b64 : Base64.Codec) (input : Bytes) (offset : ℕ) : Option WindowPixels :=
  (parseReportAt b64 pixelSelector (2 ^ 32 - 1) input offset).map WindowPixels.ofReport

/-- Parse one complete `CSI 8 ; rows ; columns t` response at an exact offset. -/
def parseWindowCellsAt (b64 : Base64.Codec) (input : Bytes) (offset : ℕ) : Option WindowCells :=
  (parseReportAt b64 cellSelector (2 ^ 16 - 1) input offset).map WindowCells.ofReport

/-! ### Reports as tokens -/

/-- A report: two positive numbers up to a bound, in bytes that do not contain the final letter. -/
structure Report (bound : ℕ) where
  body : Bytes
  unfinished : ascii 't' ∉ body
  first : ℕ
  second : ℕ
  parsed : parseNumbers bound body = some (first, second)

namespace Report

variable {bound : ℕ} (report : Report bound)

/-- The bytes of a report. -/
def bytes (selector : UInt8) : Bytes :=
  reportIntro selector ++ ascii ';' :: report.body ++ [ascii 't']

/-- What the parser makes of a report at an offset. -/
def parsedAt (b64 : Base64.Codec) (selector : UInt8) (offset : ℕ) : WindowReport :=
  ⟨offset, offset + (report.bytes selector).length, report.first, report.second,
    b64.encode (report.bytes selector)⟩

theorem length_bytes (selector : UInt8) :
    (report.bytes selector).length = 3 + 1 + report.body.length + 1 := by
  simp only [bytes, reportIntro, List.length_append, List.length_cons, List.length_nil]
  omega

end Report

/-- The reports with a given digit. -/
def reportLexicon (selector : UInt8) (bound : ℕ) : Lexing.Lexicon UInt8 (Report bound) where
  bytes report := report.bytes selector
  nonempty report := by simp [Report.bytes, reportIntro]

section Parse

variable {b64 : Base64.Codec} {selector : UInt8} {bound : ℕ} {input : Bytes} {offset : ℕ}

/-- The parser, where a report begins and its final letter follows. -/
theorem parseReportAt_of_framed {body rest : Bytes}
    (h : input.drop offset = reportIntro selector ++ ascii ';' :: body ++ ascii 't' :: rest)
    (hunfinished : ascii 't' ∉ body) :
    parseReportAt b64 selector bound input offset =
      (parseNumbers bound body).map fun numbers =>
        ⟨offset, offset + 3 + 1 + body.length + 1, numbers.1, numbers.2,
          b64.encode (reportIntro selector ++ ascii ';' :: body ++ [ascii 't'])⟩ := by
  have hlt : offset < input.length :=
    Slices.lt_length_of_drop_ne_nil (by rw [h]; simp [reportIntro])
  have hhead : Slices.slice? input offset (offset + 3) = some (reportIntro selector) :=
    Slices.slice?_of_drop (h.trans (List.append_assoc ..)) hlt.le rfl
  have hdrop3 : input.drop (offset + 3) = ascii ';' :: (body ++ ascii 't' :: rest) :=
    Slices.drop_add_of_append (m := reportIntro selector) (h.trans (by simp))
  have hlt3 : offset + 3 < input.length :=
    Slices.lt_length_of_drop_ne_nil (by rw [hdrop3]; simp)
  have hsemi : input[offset + 3]? = some (ascii ';') := by
    rw [← List.head?_drop, hdrop3]
    rfl
  have hdrop4 : input.drop (offset + 3 + 1) = body ++ ascii 't' :: rest :=
    Slices.drop_add_of_append (m := [ascii ';']) hdrop3
  have hrest : Slices.sliceFrom? input (offset + 3 + 1) = some (body ++ ascii 't' :: rest) :=
    Slices.sliceFrom?_eq_some_iff.2 ⟨hlt3, hdrop4.symm⟩
  have hfinal : (body ++ ascii 't' :: rest).findIdx? (· = ascii 't') = some body.length :=
    Slices.findIdx?_eq_some_iff_append.2 ⟨body, rest, rfl, hunfinished, rfl⟩
  have hbody : Slices.slice? input (offset + 3 + 1) (offset + 3 + 1 + body.length) = some body :=
    Slices.slice?_of_drop hdrop4 hlt3 rfl
  have hraw : Slices.slice? input offset (offset + 3 + 1 + body.length + 1) =
      some (reportIntro selector ++ ascii ';' :: body ++ [ascii 't']) := by
    have hdrop : input.drop offset =
        (reportIntro selector ++ ascii ';' :: body ++ [ascii 't']) ++ rest := h.trans (by simp)
    refine Slices.slice?_of_drop hdrop hlt.le ?_
    simp only [reportIntro, List.length_append, List.length_cons, List.length_nil]
    omega
  unfold parseReportAt
  simp only [hhead, Option.bind_eq_bind, Option.bind_some]
  rw [if_neg (not_not.2 rfl), if_neg (not_not.2 hsemi), hrest, Option.bind_some, hfinal,
    Option.bind_some, hbody, Option.bind_some, hraw]
  cases parseNumbers bound body <;> rfl

/-- What the parser reads is framed. -/
theorem framed_of_parseReportAt {parsed : WindowReport}
    (h : parseReportAt b64 selector bound input offset = some parsed) :
    ∃ body rest, input.drop offset =
      reportIntro selector ++ ascii ';' :: body ++ ascii 't' :: rest ∧ ascii 't' ∉ body := by
  unfold parseReportAt at h
  obtain ⟨head, hhead, h⟩ := Option.bind_eq_some_iff.1 h
  split at h
  · cases h
  · rename_i hintro
    obtain rfl : head = reportIntro selector := not_not.1 hintro
    split at h
    · cases h
    · rename_i hsemi
      obtain ⟨tail, htail, h⟩ := Option.bind_eq_some_iff.1 h
      obtain ⟨k, hk, -⟩ := Option.bind_eq_some_iff.1 h
      obtain ⟨body, rest, rfl, hunfinished, -⟩ := Slices.findIdx?_eq_some_iff_append.1 hk
      obtain ⟨-, -, rest₀, hdrop⟩ := Slices.slice?_eq_some_iff.1 hhead
      have hdrop3 : input.drop (offset + 3) = rest₀ :=
        Slices.drop_add_of_append (m := reportIntro selector) hdrop.symm
      rw [not_not, ← List.head?_drop, hdrop3] at hsemi
      obtain ⟨rest₁, rfl⟩ := List.head?_eq_some_iff.1 hsemi
      have hdrop4 : input.drop (offset + 3 + 1) = rest₁ :=
        Slices.drop_add_of_append (m := [ascii ';']) hdrop3
      obtain rfl := (Slices.sliceFrom?_eq_some_iff.1 htail).2.trans hdrop4
      exact ⟨body, rest, hdrop.symm.trans (by simp), hunfinished⟩

/-- **The parser finds the reports.** -/
theorem parseReportAt_eq_some_iff {parsed : WindowReport} :
    parseReportAt b64 selector bound input offset = some parsed ↔
      ∃ report, (reportLexicon selector bound).StandsAt input offset report ∧
        parsed = report.parsedAt b64 selector offset := by
  have hlength : ∀ report : Report bound, offset + (report.bytes selector).length =
      offset + 3 + 1 + report.body.length + 1 := by
    intro report
    rw [report.length_bytes]
    omega
  constructor
  · intro h
    obtain ⟨body, rest, hdrop, hunfinished⟩ := framed_of_parseReportAt h
    rw [parseReportAt_of_framed hdrop hunfinished, Option.map_eq_some_iff] at h
    obtain ⟨⟨first, second⟩, hparsed, rfl⟩ := h
    refine ⟨⟨body, hunfinished, first, second, hparsed⟩, ⟨rest, ?_⟩, ?_⟩
    · rw [hdrop]
      simp [reportLexicon, Report.bytes]
    · rw [Report.parsedAt, hlength]
      rfl
  · rintro ⟨report, ⟨rest, hrest⟩, rfl⟩
    have hdrop : input.drop offset =
        reportIntro selector ++ ascii ';' :: report.body ++ ascii 't' :: rest := by
      rw [← hrest]
      simp [reportLexicon, Report.bytes]
    rw [parseReportAt_of_framed hdrop report.unfinished, report.parsed, Report.parsedAt, hlength]
    rfl

end Parse

/-- The numbers of a report are written in digits, signs and the semicolon between them. -/
theorem mem_of_parseNumbers {bound : ℕ} {bytes : Bytes} {numbers : ℕ × ℕ}
    (h : parseNumbers bound bytes = some numbers) {b : UInt8} (hb : b ∈ bytes) :
    ∃ c : Char, (c.isDigit ∨ c = '+' ∨ c = ';') ∧ b = ascii c := by
  unfold parseNumbers at h
  obtain ⟨text, htext, h⟩ := Option.bind_eq_some_iff.1 h
  obtain ⟨⟨first, second⟩, hsplit, h⟩ := Option.bind_eq_some_iff.1 h
  dsimp only at h
  split at h
  · cases h
  · obtain ⟨n, hn, h⟩ := Option.bind_eq_some_iff.1 h
    obtain ⟨m, hm, -⟩ := Option.bind_eq_some_iff.1 h
    obtain ⟨rfl, -⟩ := Text.splitOnce_eq_some_iff.1 hsplit
    have hmem : ∀ c ∈ first ++ ';' :: second, c.isDigit ∨ c = '+' ∨ c = ';' := by
      intro c hc
      rw [List.mem_append, List.mem_cons] at hc
      rcases hc with hc | rfl | hc
      · exact (Text.mem_of_parseUnsigned hn hc).imp_right Or.inl
      · exact Or.inr (Or.inr rfl)
      · exact (Text.mem_of_parseUnsigned hm hc).imp_right Or.inl
    have hascii : ∀ c ∈ first ++ ';' :: second, c.toNat < 0x80 := by
      intro c hc
      rcases hmem c hc with hdigit | rfl | rfl
      · have hle := (Text.isDigit_iff.1 hdigit).2
        omega
      · decide
      · decide
    rw [Utf8Lossy.decodeStrict] at htext
    split at htext
    · have hbytes := (Utf8Lossy.decode_eq_iff hascii).1 (Option.some_inj.1 htext)
      rw [hbytes] at hb
      obtain ⟨c, hc, rfl⟩ := List.mem_map.1 hb
      exact ⟨c, hmem c hc, rfl⟩
    · cases htext

/-- The escape byte of a report is its first byte. -/
theorem marked_reportLexicon {selector : UInt8} {bound : ℕ} (hselector : selector ≠ ESC) :
    (reportLexicon selector bound).Marked ESC := by
  intro report
  refine ⟨[ascii '[', selector] ++ ascii ';' :: report.body ++ [ascii 't'], rfl, ?_⟩
  have hbody : ESC ∉ report.body := by
    intro hmem
    obtain ⟨c, hc, heq⟩ := mem_of_parseNumbers report.parsed hmem
    rcases hc with hdigit | rfl | rfl
    · obtain ⟨hlow, hhigh⟩ := Text.isDigit_iff.1 hdigit
      have hval := congrArg UInt8.toNat heq
      rw [ascii, Text.asciiByte, UInt8.toNat_ofNat', Nat.mod_eq_of_lt (by omega)] at hval
      have hesc : ESC.toNat = 27 := rfl
      omega
    · exact absurd heq (by decide)
    · exact absurd heq (by decide)
  simp only [List.cons_append, List.nil_append, List.mem_cons, List.mem_append, not_or]
  exact ⟨by decide, hselector.symm, by decide, hbody, by decide, List.not_mem_nil⟩

/-- **No report lies inside another one.** -/
theorem separate_reportLexicon {selector : UInt8} {bound : ℕ} (hselector : selector ≠ ESC) :
    (reportLexicon selector bound).Separate := (marked_reportLexicon hselector).separate

/-! ### All reports of a stream -/

section Scan

variable (b64 : Base64.Codec)

/-- The recognizer of the scan for pixel reports. -/
def pixelRecognizer (input : Bytes) : ScanLoop.Recognizer Unit WindowPixels where
  find _ offset := (parseWindowPixelsAt b64 input offset).map fun response =>
    (response, response.endOffset)
  progress _ offset item next h := by
    simp only [parseWindowPixelsAt, Option.map_map, Option.map_eq_some_iff,
      parseReportAt_eq_some_iff] at h
    obtain ⟨_, ⟨report, -, rfl⟩, heq⟩ := h
    obtain ⟨rfl, rfl⟩ := Prod.mk.inj heq
    exact Nat.lt_add_of_pos_right (Lexing.Lexicon.length_pos (L := reportLexicon _ _) report)

/-- The recognizer of the scan for cell reports. -/
def cellRecognizer (input : Bytes) : ScanLoop.Recognizer Unit WindowCells where
  find _ offset := (parseWindowCellsAt b64 input offset).map fun response =>
    (response, response.endOffset)
  progress _ offset item next h := by
    simp only [parseWindowCellsAt, Option.map_map, Option.map_eq_some_iff,
      parseReportAt_eq_some_iff] at h
    obtain ⟨_, ⟨report, -, rfl⟩, heq⟩ := h
    obtain ⟨rfl, rfl⟩ := Prod.mk.inj heq
    exact Nat.lt_add_of_pos_right (Lexing.Lexicon.length_pos (L := reportLexicon _ _) report)

/-- **Parse all complete window-area pixel responses from an arbitrary byte stream.** -/
def parseWindowPixels (input : Bytes) : List WindowPixels :=
  ScanLoop.scan (pixelRecognizer b64 input) id input.length ()

/-- **Parse all complete window-area cell responses from an arbitrary byte stream.** -/
def parseWindowCells (input : Bytes) : List WindowCells :=
  ScanLoop.scan (cellRecognizer b64 input) id input.length ()

/-- The predicate of the geometry exchange: both reports have arrived. -/
def geometryStopReason (response : Bytes) : Option StopReason :=
  if !(parseWindowPixels b64 response).isEmpty && !(parseWindowCells b64 response).isEmpty then
    some .capabilityAndBarrierObserved
  else none

/-- The viewport of a terminal with some columns and rows, from the response of the geometry
exchange: the pixels count when the reported cells are those of the terminal. -/
def viewportOfResponse (columns rows : UInt16) (response : Bytes) : Viewport :=
  let pixels := (parseWindowPixels b64 response).head?
  let cells := (parseWindowCells b64 response).head?
  let sameCoordinateSurface : Bool :=
    cells.any fun observed => observed.columns = columns ∧ observed.rows = rows
  { columns := columns
    rows := rows
    pixelWidth := if sameCoordinateSurface then pixels.map WindowPixels.width else none
    pixelHeight := if sameCoordinateSurface then pixels.map WindowPixels.height else none }

end Scan

section Stable

variable {b64 : Base64.Codec}

theorem recognizes_pixels (input : Bytes) :
    Lexing.Recognizes (pixelRecognizer b64 input) (reportLexicon pixelSelector (2 ^ 32 - 1)) input
      fun _ offset report => .ofReport (report.parsedAt b64 pixelSelector offset) := by
  intro _ offset hit
  simp only [pixelRecognizer, parseWindowPixelsAt, Option.map_map, Option.map_eq_some_iff,
    parseReportAt_eq_some_iff]
  constructor
  · rintro ⟨_, ⟨report, hstands, rfl⟩, rfl⟩
    exact ⟨report, hstands, rfl⟩
  · rintro ⟨report, hstands, rfl⟩
    exact ⟨_, ⟨report, hstands, rfl⟩, rfl⟩

theorem recognizes_cells (input : Bytes) :
    Lexing.Recognizes (cellRecognizer b64 input) (reportLexicon cellSelector (2 ^ 16 - 1)) input
      fun _ offset report => .ofReport (report.parsedAt b64 cellSelector offset) := by
  intro _ offset hit
  simp only [cellRecognizer, parseWindowCellsAt, Option.map_map, Option.map_eq_some_iff,
    parseReportAt_eq_some_iff]
  constructor
  · rintro ⟨_, ⟨report, hstands, rfl⟩, rfl⟩
    exact ⟨report, hstands, rfl⟩
  · rintro ⟨report, hstands, rfl⟩
    exact ⟨_, ⟨report, hstands, rfl⟩, rfl⟩

theorem parseWindowPixels_append (p q : Bytes) :
    parseWindowPixels b64 p <+: parseWindowPixels b64 (p ++ q) :=
  Lexing.scan_append (separate_reportLexicon (by decide)) (recognizes_pixels p)
    (recognizes_pixels (p ++ q)) ()

theorem parseWindowCells_append (p q : Bytes) :
    parseWindowCells b64 p <+: parseWindowCells b64 (p ++ q) :=
  Lexing.scan_append (separate_reportLexicon (by decide)) (recognizes_cells p)
    (recognizes_cells (p ++ q)) ()

theorem parseResponses_append (p q : Bytes) :
    Da1.parseResponses b64 p <+: Da1.parseResponses b64 (p ++ q) :=
  Lexing.scan_append Da1.separate (Da1.recognizes b64 p) (Da1.recognizes b64 (p ++ q)) ()

theorem responseSeen_iff {input : Bytes} :
    (Sixel.parseExchange b64 input).responseSeen = true ↔ Da1.parseResponses b64 input ≠ [] := by
  simp [Sixel.parseExchange]

theorem sixelAdvertised_iff {input : Bytes} :
    (Sixel.parseExchange b64 input).sixelAdvertised = true ↔
      ∃ response ∈ Da1.parseResponses b64 input,
        response.advertises Sixel.SIXEL_DA1_EXTENSION = true := by
  simp only [Sixel.parseExchange, List.any_eq_true]

theorem geometryStopReason_eq_some_iff {response : Bytes} {reason : StopReason} :
    geometryStopReason b64 response = some reason ↔
      parseWindowPixels b64 response ≠ [] ∧ parseWindowCells b64 response ≠ [] ∧
        reason = .capabilityAndBarrierObserved := by
  unfold geometryStopReason
  simp only [Option.ite_none_right_eq_some, Bool.and_eq_true, Bool.not_eq_true',
    List.isEmpty_eq_false_iff, Option.some_inj, and_assoc, eq_comm (a := reason)]

/-- A list that is not empty has the first element of every list that it is the beginning of. -/
theorem head?_eq_of_prefix {α : Type} {xs ys : List α} (h : xs <+: ys) (hne : xs ≠ []) :
    xs.head? = ys.head? := by
  obtain ⟨rest, rfl⟩ := h
  exact (List.head?_append_of_ne_nil xs hne).symm

end Stable

/-- **The scanners are stable under extension.**  What they find in a beginning are the first things
they find in the whole.  A device-attributes reply that was seen stays seen, and so does what it
advertises; and where the geometry exchange stops because both reports have arrived, its reports and
the viewport made of them are those of the whole stream. -/
theorem csi_scanners_stable (b64 : Base64.Codec) :
    (∀ p q, Da1.parseResponses b64 p <+: Da1.parseResponses b64 (p ++ q) ∧
      parseWindowPixels b64 p <+: parseWindowPixels b64 (p ++ q) ∧
      parseWindowCells b64 p <+: parseWindowCells b64 (p ++ q) ∧
      ((Sixel.parseExchange b64 p).responseSeen = true →
        (Sixel.parseExchange b64 (p ++ q)).responseSeen = true) ∧
      ((Sixel.parseExchange b64 p).sixelAdvertised = true →
        (Sixel.parseExchange b64 (p ++ q)).sixelAdvertised = true)) ∧
    ∀ session request timeout maxResponseBytes ops live stream,
      (executeTtyExchange session request timeout maxResponseBytes
        (geometryStopReason b64)).Returns ops live →
      live.stopReason = .capabilityAndBarrierObserved →
      received session.ticks <+: stream →
        (∃ pixels cells, (parseWindowPixels b64 live.response).head? = some pixels ∧
          (parseWindowPixels b64 stream).head? = some pixels ∧
          (parseWindowCells b64 live.response).head? = some cells ∧
          (parseWindowCells b64 stream).head? = some cells) ∧
        ∀ columns rows, viewportOfResponse b64 columns rows live.response =
          viewportOfResponse b64 columns rows stream := by
  constructor
  · intro p q
    refine ⟨parseResponses_append p q, parseWindowPixels_append p q, parseWindowCells_append p q,
      ?_, ?_⟩
    · rw [responseSeen_iff, responseSeen_iff]
      intro hne hnil
      exact hne (List.prefix_nil.1 (hnil ▸ parseResponses_append p q))
    · rw [sixelAdvertised_iff, sixelAdvertised_iff]
      rintro ⟨response, hmem, hadvertises⟩
      exact ⟨response, (parseResponses_append p q).subset hmem, hadvertises⟩
  · intro session request timeout maxResponseBytes ops live stream h hreason hstream
    obtain ⟨deadline, reads, -, -, -, hloop⟩ := executeTtyExchange_returns h
    have hstopped := exchangeLoop_returns hloop
    -- only the predicate stops the loop for this reason
    have hfired : geometryStopReason b64 live.response = some live.stopReason := by
      rcases hstopped.why with hfired | ⟨-, hother⟩
      · exact hfired
      · rw [hreason] at hother
        simp at hother
    obtain ⟨hpixels, hcells, -⟩ := geometryStopReason_eq_some_iff.1 hfired
    have hprefix : live.response <+: stream := by
      obtain ⟨taken, left, hticks, hresponse⟩ := hstopped.arrived
      rw [hresponse, List.nil_append]
      refine List.IsPrefix.trans ?_ hstream
      rw [hticks, received_append]
      exact List.prefix_append _ _
    obtain ⟨more, rfl⟩ := hprefix
    have hpixelsEq := head?_eq_of_prefix (parseWindowPixels_append live.response more) hpixels
    have hcellsEq := head?_eq_of_prefix (parseWindowCells_append live.response more) hcells
    constructor
    · refine ⟨_, _, List.head?_eq_some_head hpixels, ?_, List.head?_eq_some_head hcells, ?_⟩
      · rw [← hpixelsEq, List.head?_eq_some_head hpixels]
      · rw [← hcellsEq, List.head?_eq_some_head hcells]
    · intro columns rows
      simp only [viewportOfResponse, hpixelsEq, hcellsEq]

/-- Two reports in three chunks, cut inside both of them, and another report behind them. -/
def geometryTicks : List Tick :=
  [arrives 0 (Text.asBytes "\x1b[4;10"), arrives 1 (Text.asBytes "80;1920t\x1b[8;4"),
    arrives 2 (Text.asBytes "0;120t"), arrives 3 (Text.asBytes "\x1b[8;50;100t")]

theorem csi_scanners_stable_sample :
    ∃ ops live, (executeTtyExchange (sessionFrom 0 geometryTicks) buildGeometryQuery 750 64
        (geometryStopReason Base64.standard)).Returns ops live ∧
      viewportOfResponse Base64.standard 120 40 live.response =
        viewportOfResponse Base64.standard 120 40 (received geometryTicks) := by
  obtain ⟨ops, live, hreturns, htest⟩ := Traced.exists_returns
    (executeTtyExchange (sessionFrom 0 geometryTicks) buildGeometryQuery 750 64
      (geometryStopReason Base64.standard))
    (fun live => live.stopReason = .capabilityAndBarrierObserved) (by rfl)
  exact ⟨ops, live, hreturns, ((csi_scanners_stable Base64.standard).2 _ _ _ _ _ _ _ hreturns
    (of_decide_eq_true htest) List.prefix_rfl).2 120 40⟩

end TermInterop
