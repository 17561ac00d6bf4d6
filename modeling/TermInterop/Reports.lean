/-
Which reports the geometry scanners accept.

The grammar of a report is `ESC [`, a digit, and two decimal numbers behind semicolons, up to the
letter `t`.  The scanners look for the letter, cut the bytes in between at the semicolon, and hand
both pieces to the integer parser of the standard library.  This parser also accepts a plus sign in
front of the digits, which is no parameter of a control sequence; otherwise what it accepts is the
grammar, with leading zeros and all.

Main definitions:

* `TermInterop.Numeral` — positive decimal numbers up to a bound, in digits;
* `TermInterop.grammarReport`, `TermInterop.signedReport` — reports of the grammar, and reports
  whose numbers may carry a sign;
* `TermInterop.ExactPixels`, `TermInterop.ExactCells` — a scanner finds exactly the reports of the
  grammar.

Main results:

* `TermInterop.parseNumbers_eq_some_iff` — what the integer parser accepts;
* `TermInterop.geometry_scanners_exact_iff` — **the scanners accept their grammar**, if and only if
  no number carries a sign.
-/

import TermInterop.Geometry

set_option relaxedAutoImplicit false
set_option autoImplicit false

namespace TermInterop

/-! ### The grammar -/

/-- A positive decimal number up to a bound, written in digits. -/
structure Numeral (bound : ℕ) where
  digits : List Char
  nonempty : digits ≠ []
  decimal : ∀ c ∈ digits, c.isDigit
  positive : 0 < Nat.ofDigitChars 10 digits 0
  bounded : Nat.ofDigitChars 10 digits 0 ≤ bound

namespace Numeral

variable {bound : ℕ} (numeral : Numeral bound)

def value : ℕ := Nat.ofDigitChars 10 numeral.digits 0

def bytes : Bytes := numeral.digits.map ascii

end Numeral

/-- A plus sign, or nothing. -/
def sign (plus : Bool) : List Char := if plus then ['+'] else []

/-- **The bytes of a report**: its digit, and two numbers. -/
def grammarReport (selector : UInt8) {bound : ℕ} (first second : Numeral bound) : Bytes :=
  reportIntro selector ++ ascii ';' :: first.bytes ++ ascii ';' :: second.bytes ++ [ascii 't']

/-- Two numbers, each of which may carry a sign. -/
def signedText {bound : ℕ} (plus : Bool) (first : Numeral bound) (plus' : Bool)
    (second : Numeral bound) : List Char :=
  (sign plus ++ first.digits) ++ ';' :: (sign plus' ++ second.digits)

/-- The bytes of a report whose numbers may carry a sign. -/
def signedReport (selector : UInt8) {bound : ℕ} (plus : Bool) (first : Numeral bound)
    (plus' : Bool) (second : Numeral bound) : Bytes :=
  reportIntro selector ++ ascii ';' :: (signedText plus first plus' second).map ascii ++ [ascii 't']

theorem signedReport_false (selector : UInt8) {bound : ℕ} (first second : Numeral bound) :
    signedReport selector false first false second = grammarReport selector first second := by
  simp [signedReport, signedText, grammarReport, sign, Numeral.bytes]

/-! ### The integer parser -/

/-- A positive number is parsed when it is a numeral, with or without a sign. -/
theorem parseUnsigned_eq_some_iff {bound n : ℕ} {s : List Char} :
    (Text.parseUnsigned bound s = some n ∧ n ≠ 0) ↔
      ∃ plus, ∃ numeral : Numeral bound, s = sign plus ++ numeral.digits ∧ n = numeral.value := by
  constructor
  · rintro ⟨h, hn⟩
    have hsplit : ∃ plus, s = sign plus ++ Text.dropPlus s := by
      unfold Text.dropPlus
      split
      · exact ⟨true, rfl⟩
      · exact ⟨false, rfl⟩
    obtain ⟨plus, hplus⟩ := hsplit
    simp only [Text.parseUnsigned] at h
    split at h
    · rename_i hdigits
      obtain ⟨hne, hall, hle⟩ := hdigits
      obtain rfl := Option.some.inj h
      exact ⟨plus, ⟨_, hne, List.all_eq_true.1 hall, Nat.pos_of_ne_zero hn, hle⟩, hplus, rfl⟩
    · cases h
  · rintro ⟨plus, numeral, rfl, rfl⟩
    have hdrop : Text.dropPlus (sign plus ++ numeral.digits) = numeral.digits := by
      cases plus with
      | false => exact Text.dropPlus_of_isDigit numeral.decimal
      | true => rfl
    refine ⟨?_, Nat.ne_of_gt numeral.positive⟩
    simp only [Text.parseUnsigned, hdrop]
    rw [if_pos ⟨numeral.nonempty, List.all_eq_true.2 numeral.decimal, numeral.bounded⟩]
    rfl

/-- The characters of a number with its sign. -/
theorem mem_signed {bound : ℕ} {plus : Bool} {numeral : Numeral bound} {c : Char}
    (h : c ∈ sign plus ++ numeral.digits) : c ≠ ';' ∧ c.toNat < 0x80 := by
  rcases List.mem_append.1 h with hsign | hdigit
  · cases plus with
    | false => cases hsign
    | true =>
        obtain rfl := List.mem_singleton.1 hsign
        decide
  · obtain ⟨-, hhigh⟩ := Text.isDigit_iff.1 (numeral.decimal c hdigit)
    refine ⟨?_, by omega⟩
    rintro rfl
    exact absurd hhigh (by decide)

theorem ascii_of_mem_signedText {bound : ℕ} {plus plus' : Bool} {first second : Numeral bound}
    {c : Char} (h : c ∈ signedText plus first plus' second) : c.toNat < 0x80 := by
  rcases List.mem_append.1 h with h | h
  · exact (mem_signed h).2
  · rcases List.mem_cons.1 h with rfl | h
    · decide
    · exact (mem_signed h).2

/-- **What the integer parser accepts** between the introducer and the final letter. -/
theorem parseNumbers_eq_some_iff {bound : ℕ} {body : Bytes} {numbers : ℕ × ℕ} :
    parseNumbers bound body = some numbers ↔
      ∃ plus plus', ∃ first second : Numeral bound,
        body = (signedText plus first plus' second).map ascii ∧
          numbers = (first.value, second.value) := by
  constructor
  · intro h
    have hascii : ∀ b ∈ body, b.toNat < 0x80 := by
      intro b hb
      obtain ⟨c, hc, rfl⟩ := mem_of_parseNumbers h hb
      rcases hc with hdigit | rfl | rfl
      · obtain ⟨-, hhigh⟩ := Text.isDigit_iff.1 hdigit
        rw [ascii, Text.asciiByte, UInt8.toNat_ofNat']
        omega
      · decide
      · decide
    unfold parseNumbers at h
    rw [Utf8Lossy.decodeStrict_of_ascii hascii] at h
    obtain ⟨text, htext, h⟩ := Option.bind_eq_some_iff.1 h
    obtain rfl := Option.some.inj htext
    obtain ⟨⟨s, t⟩, hsplit, h⟩ := Option.bind_eq_some_iff.1 h
    dsimp only at h
    split at h
    · cases h
    · obtain ⟨n, hn, h⟩ := Option.bind_eq_some_iff.1 h
      obtain ⟨m, hm, h⟩ := Option.bind_eq_some_iff.1 h
      split at h
      · cases h
      · rename_i hzero
        rw [not_or] at hzero
        obtain rfl := Option.some.inj h
        obtain ⟨plus, first, rfl, rfl⟩ := parseUnsigned_eq_some_iff.1 ⟨hn, hzero.1⟩
        obtain ⟨plus', second, rfl, rfl⟩ := parseUnsigned_eq_some_iff.1 ⟨hm, hzero.2⟩
        refine ⟨plus, plus', first, second, ?_, rfl⟩
        exact (Utf8Lossy.decode_eq_iff fun c => ascii_of_mem_signedText).1
          (Text.splitOnce_eq_some_iff.1 hsplit).1
  · rintro ⟨plus, plus', first, second, rfl, rfl⟩
    have hascii : ∀ b ∈ (signedText plus first plus' second).map ascii, b.toNat < 0x80 := by
      intro b hb
      obtain ⟨c, hc, rfl⟩ := List.mem_map.1 hb
      have hlt := ascii_of_mem_signedText hc
      rw [ascii, Text.asciiByte, UInt8.toNat_ofNat']
      omega
    have hsemicolon : ∀ {plus} {numeral : Numeral bound}, ';' ∉ sign plus ++ numeral.digits :=
      fun hmem => (mem_signed hmem).1 rfl
    have hne : ∀ {plus} {numeral : Numeral bound}, sign plus ++ numeral.digits ≠ [] :=
      fun {plus numeral} => List.append_ne_nil_of_right_ne_nil _ numeral.nonempty
    have hparsed : ∀ {plus} {numeral : Numeral bound},
        Text.parseUnsigned bound (sign plus ++ numeral.digits) = some numeral.value :=
      (parseUnsigned_eq_some_iff.2 ⟨_, _, rfl, rfl⟩).1
    unfold parseNumbers
    rw [Utf8Lossy.decodeStrict_of_ascii hascii,
      (Utf8Lossy.decode_eq_iff fun c => ascii_of_mem_signedText).2 rfl]
    simp only [Option.bind_eq_bind, Option.bind_some]
    have hsplit : Text.splitOnce ';' (signedText plus first plus' second) =
        some (sign plus ++ first.digits, sign plus' ++ second.digits) :=
      Text.splitOnce_eq_some_iff.2 ⟨rfl, hsemicolon⟩
    rw [hsplit, Option.bind_some]
    dsimp only
    rw [if_neg (by simp only [not_or]; exact ⟨hne, hne, hsemicolon⟩), hparsed, Option.bind_some,
      hparsed, Option.bind_some, if_neg]
    rw [not_or]
    exact ⟨Nat.ne_of_gt first.positive, Nat.ne_of_gt second.positive⟩

/-! ### Where reports stand -/

section Scan

variable {b64 : Base64.Codec} {selector : UInt8} {bound : ℕ} {input : Bytes} {offset : ℕ}

/-- What a report with a given text is parsed to. -/
def reportOf (b64 : Base64.Codec) (selector : UInt8) (offset : ℕ) (plus : Bool)
    (first : Numeral bound) (plus' : Bool) (second : Numeral bound) : WindowReport :=
  ⟨offset, offset + (signedReport selector plus first plus' second).length, first.value,
    second.value, b64.encode (signedReport selector plus first plus' second)⟩

/-- The tokens of a scanner are the reports whose numbers may carry a sign. -/
theorem standsAt_report_iff {parsed : WindowReport} :
    (∃ report, (reportLexicon selector bound).StandsAt input offset report ∧
        parsed = report.parsedAt b64 selector offset) ↔
      ∃ plus plus', ∃ first second : Numeral bound,
        signedReport selector plus first plus' second <+: input.drop offset ∧
          parsed = reportOf b64 selector offset plus first plus' second := by
  constructor
  · rintro ⟨⟨body, unfinished, first, second, parsed⟩, hstands, rfl⟩
    obtain ⟨plus, plus', first, second, rfl, hnumbers⟩ := parseNumbers_eq_some_iff.1 parsed
    obtain ⟨rfl, rfl⟩ := Prod.mk.inj hnumbers
    exact ⟨plus, plus', first, second, hstands, rfl⟩
  · rintro ⟨plus, plus', first, second, hstands, rfl⟩
    have hparsed := parseNumbers_eq_some_iff.2 ⟨plus, plus', first, second, rfl, rfl⟩
    refine ⟨⟨_, ?_, _, _, hparsed⟩, hstands, rfl⟩
    intro hmem
    obtain ⟨c, hc, heq⟩ := mem_of_parseNumbers hparsed hmem
    rcases hc with hdigit | rfl | rfl
    · obtain ⟨hlow, hhigh⟩ := Text.isDigit_iff.1 hdigit
      have hval := congrArg UInt8.toNat heq
      rw [ascii, ascii, Text.asciiByte, Text.asciiByte, UInt8.toNat_ofNat', UInt8.toNat_ofNat',
        Nat.mod_eq_of_lt (by omega : c.toNat < 2 ^ 8)] at hval
      have ht : 't'.toNat % 2 ^ 8 = 116 := rfl
      omega
    · exact absurd heq (by decide)
    · exact absurd heq (by decide)

theorem exists_report_iff {α : Type} {f : WindowReport → α} {entry : α} :
    (∃ offset report, (reportLexicon selector bound).StandsAt input offset report ∧
        entry = f (report.parsedAt b64 selector offset)) ↔
      ∃ offset plus plus', ∃ first second : Numeral bound,
        signedReport selector plus first plus' second <+: input.drop offset ∧
          entry = f (reportOf b64 selector offset plus first plus' second) := by
  constructor
  · rintro ⟨offset, report, hstands, rfl⟩
    have hparsed : ∃ other, (reportLexicon selector bound).StandsAt input offset other ∧
        report.parsedAt b64 selector offset = other.parsedAt b64 selector offset :=
      ⟨report, hstands, rfl⟩
    obtain ⟨plus, plus', first, second, hform, heq⟩ := standsAt_report_iff.1 hparsed
    exact ⟨offset, plus, plus', first, second, hform, congrArg f heq⟩
  · rintro ⟨offset, plus, plus', first, second, hform, rfl⟩
    have hparsed : ∃ plus₁ plus₂, ∃ first₁ second₁ : Numeral bound,
        signedReport selector plus₁ first₁ plus₂ second₁ <+: input.drop offset ∧
          reportOf b64 selector offset plus first plus' second =
            reportOf b64 selector offset plus₁ first₁ plus₂ second₁ :=
      ⟨plus, plus', first, second, hform, rfl⟩
    obtain ⟨report, hstands, heq⟩ := standsAt_report_iff.2 hparsed
    exact ⟨offset, report, hstands, congrArg f heq⟩

/-- A sign in a report of the input. -/
def CarriesSign (selector : UInt8) (bound : ℕ) (input : Bytes) : Prop :=
  ∃ offset plus plus', ∃ first second : Numeral bound, (plus || plus') = true ∧
    signedReport selector plus first plus' second <+: input.drop offset

/-- A report of the grammar is not spelled with a sign. -/
theorem grammarReport_ne_signedReport {plus plus' : Bool} (hsign : (plus || plus') = true)
    {first second first' second' : Numeral bound} :
    signedReport selector plus first plus' second ≠ grammarReport selector first' second' := by
  rw [← signedReport_false]
  intro h
  have htext : (signedText plus first plus' second).map ascii =
      (signedText false first' false second').map ascii := by
    simpa [signedReport] using h
  have hplus : ascii '+' ∈ (signedText plus first plus' second).map ascii := by
    refine List.mem_map_of_mem ?_
    cases plus with
    | true => simp [signedText, sign]
    | false =>
        obtain rfl : plus' = true := by simpa using hsign
        simp [signedText, sign]
  rw [htext, List.mem_map] at hplus
  obtain ⟨c, hc, heq⟩ := hplus
  have hlow : c.toNat < 0x80 := ascii_of_mem_signedText hc
  have hval := congrArg UInt8.toNat heq
  rw [ascii, ascii, Text.asciiByte, Text.asciiByte, UInt8.toNat_ofNat', UInt8.toNat_ofNat',
    Nat.mod_eq_of_lt (by omega : c.toNat < 2 ^ 8)] at hval
  have hcode : c.toNat = 43 := hval
  have hdigits : c.isDigit ∨ c = ';' := by
    simp only [signedText, sign, List.mem_append, List.mem_cons] at hc
    simp only [Bool.false_eq_true, if_false, List.not_mem_nil, false_or] at hc
    rcases hc with hc | rfl | hc
    · exact Or.inl (first'.decimal c hc)
    · exact Or.inr rfl
    · exact Or.inl (second'.decimal c hc)
  rcases hdigits with hdigit | rfl
  · have hle := (Text.isDigit_iff.1 hdigit).1
    omega
  · exact absurd hcode (by decide)

/-! ### The scanners and their grammar -/

/-- **The pixel scanner finds exactly the reports of the grammar**, in order. -/
structure ExactPixels (b64 : Base64.Codec) (input : Bytes) : Prop where
  ordered : (parseWindowPixels b64 input).Pairwise fun a b => a.offset < b.offset
  exactly : ∀ entry, entry ∈ parseWindowPixels b64 input ↔
    ∃ height width : Numeral (2 ^ 32 - 1),
      grammarReport pixelSelector height width <+: input.drop entry.offset ∧
        entry.endOffset = entry.offset + (grammarReport pixelSelector height width).length ∧
        entry.height.toNat = height.value ∧ entry.width.toNat = width.value ∧
        entry.rawBase64 = b64.encode (grammarReport pixelSelector height width)

/-- **The cell scanner finds exactly the reports of the grammar**, in order. -/
structure ExactCells (b64 : Base64.Codec) (input : Bytes) : Prop where
  ordered : (parseWindowCells b64 input).Pairwise fun a b => a.offset < b.offset
  exactly : ∀ entry, entry ∈ parseWindowCells b64 input ↔
    ∃ rows columns : Numeral (2 ^ 16 - 1),
      grammarReport cellSelector rows columns <+: input.drop entry.offset ∧
        entry.endOffset = entry.offset + (grammarReport cellSelector rows columns).length ∧
        entry.rows.toNat = rows.value ∧ entry.columns.toNat = columns.value ∧
        entry.rawBase64 = b64.encode (grammarReport cellSelector rows columns)

theorem Numeral.toUInt32 (numeral : Numeral (2 ^ 32 - 1)) :
    (UInt32.ofNat numeral.value).toNat = numeral.value := by
  have hle := numeral.bounded
  rw [UInt32.toNat_ofNat', Nat.mod_eq_of_lt]
  exact Nat.lt_of_le_pred (by decide) hle

theorem Numeral.toUInt16 (numeral : Numeral (2 ^ 16 - 1)) :
    (UInt16.ofNat numeral.value).toNat = numeral.value := by
  have hle := numeral.bounded
  rw [UInt16.toNat_ofNat', Nat.mod_eq_of_lt]
  exact Nat.lt_of_le_pred (by decide) hle

/-- The entries of the pixel scanner are the reports whose numbers may carry a sign. -/
theorem mem_parseWindowPixels_iff {entry : WindowPixels} :
    entry ∈ parseWindowPixels b64 input ↔
      ∃ plus plus', ∃ height width : Numeral (2 ^ 32 - 1),
        signedReport pixelSelector plus height plus' width <+: input.drop entry.offset ∧
          entry = .ofReport (reportOf b64 pixelSelector entry.offset plus height plus' width) := by
  have hscan : entry ∈ parseWindowPixels b64 input ↔ ∃ offset report,
      (reportLexicon pixelSelector (2 ^ 32 - 1)).StandsAt input offset report ∧
        entry = .ofReport (report.parsedAt b64 pixelSelector offset) :=
    Lexing.mem_scan_iff (marked_reportLexicon (by decide)) (recognizes_pixels input)
  rw [hscan, exists_report_iff]
  constructor
  · rintro ⟨offset, plus, plus', height, width, hform, rfl⟩
    exact ⟨plus, plus', height, width, hform, rfl⟩
  · rintro ⟨plus, plus', height, width, hform, heq⟩
    exact ⟨entry.offset, plus, plus', height, width, hform, heq⟩

/-- The entries of the cell scanner are the reports whose numbers may carry a sign. -/
theorem mem_parseWindowCells_iff {entry : WindowCells} :
    entry ∈ parseWindowCells b64 input ↔
      ∃ plus plus', ∃ rows columns : Numeral (2 ^ 16 - 1),
        signedReport cellSelector plus rows plus' columns <+: input.drop entry.offset ∧
          entry = .ofReport (reportOf b64 cellSelector entry.offset plus rows plus' columns) := by
  have hscan : entry ∈ parseWindowCells b64 input ↔ ∃ offset report,
      (reportLexicon cellSelector (2 ^ 16 - 1)).StandsAt input offset report ∧
        entry = .ofReport (report.parsedAt b64 cellSelector offset) :=
    Lexing.mem_scan_iff (marked_reportLexicon (by decide)) (recognizes_cells input)
  rw [hscan, exists_report_iff]
  constructor
  · rintro ⟨offset, plus, plus', rows, columns, hform, rfl⟩
    exact ⟨plus, plus', rows, columns, hform, rfl⟩
  · rintro ⟨plus, plus', rows, columns, hform, heq⟩
    exact ⟨entry.offset, plus, plus', rows, columns, hform, heq⟩

theorem exactPixels_iff :
    ExactPixels b64 input ↔ ¬ CarriesSign pixelSelector (2 ^ 32 - 1) input := by
  constructor
  · rintro ⟨-, hexactly⟩ ⟨offset, plus, plus', height, width, hsign, hform⟩
    have hmem : .ofReport (reportOf b64 pixelSelector offset plus height plus' width) ∈
        parseWindowPixels b64 input :=
      mem_parseWindowPixels_iff.2 ⟨plus, plus', height, width, hform, rfl⟩
    obtain ⟨height', width', -, -, -, -, hraw⟩ := (hexactly _).1 hmem
    exact grammarReport_ne_signedReport hsign (b64.encode_injective hraw)
  · intro hnone
    refine ⟨Lexing.pairwise_scan (recognizes_pixels input) WindowPixels.offset
      fun offset report => rfl, ?_⟩
    intro entry
    rw [mem_parseWindowPixels_iff]
    constructor
    · rintro ⟨plus, plus', height, width, hform, heq⟩
      obtain ⟨rfl, rfl⟩ : plus = false ∧ plus' = false := by
        by_contra hsign
        refine hnone ⟨_, plus, plus', height, width, ?_, hform⟩
        revert hsign
        cases plus <;> cases plus' <;> simp
      rw [signedReport_false] at hform
      refine ⟨height, width, hform, ?_⟩
      rw [heq, ← signedReport_false]
      exact ⟨rfl, height.toUInt32, width.toUInt32, rfl⟩
    · rintro ⟨height, width, hform, hend, hheight, hwidth, hraw⟩
      refine ⟨false, false, height, width, ?_, ?_⟩
      · rw [signedReport_false]
        exact hform
      · obtain ⟨offset, endOffset, w, h, raw⟩ := entry
        simp only at hend hheight hwidth hraw
        rw [reportOf, signedReport_false, WindowPixels.ofReport, hend, hraw, ← hheight, ← hwidth,
          UInt32.ofNat_toNat, UInt32.ofNat_toNat]

theorem exactCells_iff :
    ExactCells b64 input ↔ ¬ CarriesSign cellSelector (2 ^ 16 - 1) input := by
  constructor
  · rintro ⟨-, hexactly⟩ ⟨offset, plus, plus', rows, columns, hsign, hform⟩
    have hmem : .ofReport (reportOf b64 cellSelector offset plus rows plus' columns) ∈
        parseWindowCells b64 input :=
      mem_parseWindowCells_iff.2 ⟨plus, plus', rows, columns, hform, rfl⟩
    obtain ⟨rows', columns', -, -, -, -, hraw⟩ := (hexactly _).1 hmem
    exact grammarReport_ne_signedReport hsign (b64.encode_injective hraw)
  · intro hnone
    refine ⟨Lexing.pairwise_scan (recognizes_cells input) WindowCells.offset
      fun offset report => rfl, ?_⟩
    intro entry
    rw [mem_parseWindowCells_iff]
    constructor
    · rintro ⟨plus, plus', rows, columns, hform, heq⟩
      obtain ⟨rfl, rfl⟩ : plus = false ∧ plus' = false := by
        by_contra hsign
        refine hnone ⟨_, plus, plus', rows, columns, ?_, hform⟩
        revert hsign
        cases plus <;> cases plus' <;> simp
      rw [signedReport_false] at hform
      refine ⟨rows, columns, hform, ?_⟩
      rw [heq, ← signedReport_false]
      exact ⟨rfl, rows.toUInt16, columns.toUInt16, rfl⟩
    · rintro ⟨rows, columns, hform, hend, hrows, hcolumns, hraw⟩
      refine ⟨false, false, rows, columns, ?_, ?_⟩
      · rw [signedReport_false]
        exact hform
      · obtain ⟨offset, endOffset, c, r, raw⟩ := entry
        simp only at hend hrows hcolumns hraw
        rw [reportOf, signedReport_false, WindowCells.ofReport, hend, hraw, ← hrows, ← hcolumns,
          UInt16.ofNat_toNat, UInt16.ofNat_toNat]

end Scan

/-- **The scanners accept exactly their grammar** when no number of a report in the input carries a
plus sign, and only then. -/
theorem geometry_scanners_exact_iff (b64 : Base64.Codec) (input : Bytes) :
    (ExactPixels b64 input ∧ ExactCells b64 input) ↔
      ¬ CarriesSign pixelSelector (2 ^ 32 - 1) input ∧
        ¬ CarriesSign cellSelector (2 ^ 16 - 1) input :=
  and_congr exactPixels_iff exactCells_iff

/-- The number 5. -/
def numeralFive (bound : ℕ) (h : 5 ≤ bound) : Numeral bound :=
  ⟨['5'], List.cons_ne_nil _ _, by simp, by decide, h⟩

/-- A pixel report with two signs is accepted. -/
theorem signed_report_accepted :
    ¬ ∀ input : Bytes, ExactPixels Base64.standard input ∧ ExactCells Base64.standard input := by
  intro h
  have hform : signedReport pixelSelector true (numeralFive (2 ^ 32 - 1) (by norm_num)) true
      (numeralFive (2 ^ 32 - 1) (by norm_num)) <+: (Text.asBytes "\x1b[4;+5;+5t").drop 0 :=
    ⟨[], by rfl⟩
  have hsigned : CarriesSign pixelSelector (2 ^ 32 - 1) (Text.asBytes "\x1b[4;+5;+5t") :=
    ⟨0, true, true, _, _, rfl, hform⟩
  exact exactPixels_iff.1 (h (Text.asBytes "\x1b[4;+5;+5t")).1 hsigned

end TermInterop
