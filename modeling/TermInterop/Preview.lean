/-
Artifact text on its way to the terminal.

The bytes of a text artifact are decoded lossily and sanitized once, by `sanitizeText`, which
replaces every control character except the line endings and the tabulator.  The pager then cuts the
text into lines and the lines into rows no wider than the terminal, by `wrappedTextLines`, and
writes some of these rows to the terminal, by `renderTextPage`.

The line feeds disappear where the lines are cut, and so does a carriage return that precedes a
line feed.  Any other carriage return stays in its row.

Main definitions:

* `TermInterop.sanitizeText`, `TermInterop.wrappedTextLines`, `TermInterop.renderTextPage` — the
  three stages;
* `TermInterop.CarriageReturnsPaired` — every carriage return read precedes a line feed.

Main results:

* `TermInterop.isControl_of_mem_sanitizeText` — what the sanitizer lets through;
* `TermInterop.followedBy_sanitizeText_iff` — its carriage returns are those of the input;
* `TermInterop.rows_without_controls_iff` — **when no row carries a control character**.
-/

import TermInterop.Receipt
import TermInterop.Utf8Lossy

set_option relaxedAutoImplicit false
set_option autoImplicit false

namespace TermInterop

open Text (FollowedBy)

/-! ### The three stages -/

/-- Artifact preparation failure before any terminal side effect. -/
inductive ArtifactError
  | inputLimit (actual limit : ℕ)
  | image (reason : String)
  | emptyViewport
  | emptyRasterTarget
  | invalidRasterState
  | unsupportedArtifact
  deriving DecidableEq

/-- What one character of an artifact becomes. -/
def sanitizeCharacter (character : Char) : Char :=
  if character = '\n' ∨ character = '\r' ∨ character = '\t' then character
  else if character = '\x1b' then '␛'
  else if Text.isControl character then '\uFFFD'
  else character

/-- The mark of a text that was cut. -/
def truncationNotice : List Char := "\n… [preview truncated]\n".toList

/-- Convert text bytes into terminal-safe UTF-8 without interpreting control sequences. -/
def sanitizeText (input : Bytes) (maxBytes : ℕ) : Except ArtifactError String :=
  let bounded := input.take (min input.length maxBytes)
  if bounded.contains 0 then .error .unsupportedArtifact
  else
    let output := (Utf8Lossy.decode bounded).map sanitizeCharacter
    .ok (String.ofList (if input.length > maxBytes then output ++ truncationNotice else output))

/-- The rows of a text on a terminal of some columns. -/
def wrappedTextLines (text : String) (columns : UInt16) : List String :=
  let width := max columns.toNat 1
  let output := (Text.lines text.toList).flatMap fun line =>
    if line.isEmpty then [""] else (Text.chunks width line).map String.ofList
  if output.isEmpty then [""] else output

/-- The rows that a page shows, from an offset on. -/
def contentLines (lines : List String) (offset : ℕ) (rows : UInt16) : List String :=
  let contentRows := max (rows.toNat - 2) 1
  let lastLine := min (offset + contentRows) lines.length
  (lines.take lastLine).drop offset

/-- What a page writes to the terminal. -/
def renderTextPage (label : String) (lines : List String) (offset : ℕ) (rows : UInt16) : Bytes :=
  Text.asBytes "\x1b[2J\x1b[H\x1b[7m" ++ Text.asBytes (" " ++ label) ++
    Text.asBytes "\x1b[0m\r\n" ++
    (contentLines lines offset rows).flatMap (fun line =>
      Text.asBytes line ++ Text.asBytes "\x1b[K\r\n") ++
    Text.asBytes ("\x1b[" ++ Nat.repr rows.toNat ++
      ";1H\x1b[2K\x1b[2m q/Esc: close  Space/j: next  k: previous  " ++
      Nat.repr (min (offset + 1) lines.length) ++ "/" ++ Nat.repr lines.length ++ "\x1b[0m")

/-- A page shows rows of the text and no others. -/
theorem mem_of_mem_contentLines {lines : List String} {offset : ℕ} {rows : UInt16} {row : String}
    (h : row ∈ contentLines lines offset rows) : row ∈ lines :=
  List.take_subset _ _ (List.drop_subset _ _ h)

/-! ### What the sanitizer lets through -/

/-- The control characters that the sanitizer lets through. -/
theorem isControl_sanitizeCharacter {c : Char}
    (h : Text.isControl (sanitizeCharacter c) = true) :
    sanitizeCharacter c = '\n' ∨ sanitizeCharacter c = '\r' ∨ sanitizeCharacter c = '\t' := by
  have hescape : Text.isControl '␛' = false := by decide
  have hreplacement : Text.isControl '\uFFFD' = false := by decide
  rw [sanitizeCharacter] at h ⊢
  split_ifs at h ⊢ with hkept hesc hcontrol
  · exact hkept
  · rw [hescape] at h
    cases h
  · rw [hreplacement] at h
    cases h
  · exact absurd h hcontrol

/-- No other character becomes a kept one. -/
theorem sanitizeCharacter_eq_iff {c d : Char} (hd : d = '\n' ∨ d = '\r') :
    sanitizeCharacter c = d ↔ c = d := by
  have hescape : '␛' ≠ d := by rcases hd with rfl | rfl <;> decide
  have hreplacement : '\uFFFD' ≠ d := by rcases hd with rfl | rfl <;> decide
  rw [sanitizeCharacter]
  split_ifs with hkept hesc hcontrol
  · rfl
  · -- the escape character itself is not kept
    refine iff_of_false hescape ?_
    rintro rfl
    exact hkept (hd.elim Or.inl fun h => Or.inr (Or.inl h))
  · refine iff_of_false hreplacement ?_
    rintro rfl
    exact hkept (hd.elim Or.inl fun h => Or.inr (Or.inl h))
  · rfl

/-- **What the sanitizer lets through**: of the control characters only line endings and the
tabulator. -/
theorem isControl_of_mem_sanitizeText {input : Bytes} {maxBytes : ℕ} {text : String}
    (h : sanitizeText input maxBytes = .ok text) {c : Char} (hc : c ∈ text.toList)
    (hcontrol : Text.isControl c = true) : c = '\n' ∨ c = '\r' ∨ c = '\t' := by
  have hall : truncationNotice.all (fun d => !Text.isControl d || d == '\n') = true := rfl
  have hnotice : ∀ d ∈ truncationNotice, Text.isControl d = true → d = '\n' := by
    intro d hd hdcontrol
    simpa [hdcontrol] using List.all_eq_true.1 hall d hd
  rw [sanitizeText] at h
  split at h
  · cases h
  · obtain rfl := Except.ok.inj h
    rw [String.toList_ofList] at hc
    have hmem : c ∈ (Utf8Lossy.decode (input.take (min input.length maxBytes))).map
        sanitizeCharacter ∨ c ∈ truncationNotice := by
      split at hc
      · exact List.mem_append.1 hc
      · exact Or.inl hc
    rcases hmem with hmem | hmem
    · obtain ⟨d, -, rfl⟩ := List.mem_map.1 hmem
      exact isControl_sanitizeCharacter hcontrol
    · exact Or.inl (hnotice c hmem hcontrol)

/-- Every carriage return that is read precedes a line feed: one that is read, or the one of the
mark that the text was cut. -/
def CarriageReturnsPaired (input : Bytes) (maxBytes : ℕ) : Prop :=
  ∀ i, (input.take maxBytes)[i]? = some 0x0D →
    (input.take maxBytes)[i + 1]? = some 0x0A ∨ (i + 1 = maxBytes ∧ maxBytes < input.length)

theorem followedBy_map_sanitizeCharacter {cs : List Char} :
    FollowedBy '\r' '\n' (cs.map sanitizeCharacter) ↔ FollowedBy '\r' '\n' cs := by
  induction cs with
  | nil => simp
  | cons c cs ih =>
      rw [List.map_cons, FollowedBy, FollowedBy, ih, sanitizeCharacter_eq_iff (Or.inr rfl)]
      refine and_congr_left fun _ => forall_congr' fun _ => ?_
      cases cs with
      | nil => simp
      | cons d ds => simp [sanitizeCharacter_eq_iff (Or.inl rfl)]

/-- The same before a line feed. -/
theorem followedBy_append_mapped {cs : List Char} :
    FollowedBy '\r' '\n' (cs.map sanitizeCharacter ++ ['\n']) ↔
      FollowedBy '\r' '\n' (cs ++ ['\n']) := by
  have hmap : cs.map sanitizeCharacter ++ ['\n'] = (cs ++ ['\n']).map sanitizeCharacter := by
    rw [List.map_append]
    rfl
  rw [hmap, followedBy_map_sanitizeCharacter]

/-- The bytes that the sanitizer reads, and the line feed of its mark. -/
theorem carriageReturnsPaired_iff {input : Bytes} {maxBytes : ℕ} :
    CarriageReturnsPaired input maxBytes ↔
      FollowedBy 0x0D 0x0A (input.take (min input.length maxBytes) ++
        if input.length > maxBytes then [0x0A] else []) := by
  have hread : input.take (min input.length maxBytes) = input.take maxBytes := by
    rcases Nat.le_total input.length maxBytes with hle | hle
    · rw [Nat.min_eq_left hle, List.take_length, List.take_of_length_le hle]
    · rw [Nat.min_eq_right hle]
  rw [hread, Text.followedBy_iff_getElem?, CarriageReturnsPaired]
  by_cases htruncated : input.length > maxBytes
  · -- what follows the last byte read is the line feed of the mark
    have hlength : (input.take maxBytes).length = maxBytes := by
      rw [List.length_take]
      omega
    rw [if_pos htruncated]
    refine forall_congr' fun i => ?_
    rcases Nat.lt_trichotomy (i + 1) maxBytes with hlt | heq | hgt
    · rw [List.getElem?_append_left (by omega), List.getElem?_append_left (by omega)]
      have hne : i + 1 ≠ maxBytes := by omega
      simp [hne]
    · rw [List.getElem?_append_left (by omega), List.getElem?_append_right (by omega)]
      simp [heq, htruncated, hlength]
    · -- no byte was read here, and the mark begins with no carriage return
      have hnone : (input.take maxBytes)[i]? = none := List.getElem?_eq_none (by omega)
      have hmark : (input.take maxBytes ++ [0x0A])[i]? ≠ some 0x0D := by
        rw [List.getElem?_append_right (by omega)]
        intro h
        have hmem := List.mem_of_getElem? h
        simp at hmem
      simp [hnone, hmark]
  · rw [if_neg htruncated, List.append_nil]
    refine forall_congr' fun i => imp_congr_right fun _ => ?_
    simp [htruncated]

/-- **The carriage returns of the text are those of the input.** -/
theorem followedBy_sanitizeText_iff {input : Bytes} {maxBytes : ℕ} {text : String}
    (h : sanitizeText input maxBytes = .ok text) :
    FollowedBy '\r' '\n' text.toList ↔ CarriageReturnsPaired input maxBytes := by
  have hread : ∀ bs, FollowedBy '\r' '\n' (Utf8Lossy.decode bs) ↔ FollowedBy 0x0D 0x0A bs :=
    fun bs => Utf8Lossy.followedBy_run (by decide) (by decide) Utf8Lossy.State.start bs
  rw [carriageReturnsPaired_iff]
  rw [sanitizeText] at h
  split at h
  · cases h
  · obtain rfl := Except.ok.inj h
    rw [String.toList_ofList]
    split
    · -- the mark begins with the line feed that the last carriage return may need
      have hmark : truncationNotice.contains '\r' = false := rfl
      have hnotice : '\r' ∉ truncationNotice := by simpa using hmark
      have hone : Utf8Lossy.decode (input.take (min input.length maxBytes) ++ [0x0A]) =
          Utf8Lossy.decode (input.take (min input.length maxBytes)) ++ ['\n'] :=
        Utf8Lossy.run_append_ascii Utf8Lossy.State.start _ (by decide) []
      rw [← hread, hone]
      exact (Text.followedBy_append_cons_iff hnotice).trans followedBy_append_mapped
    · rw [List.append_nil, followedBy_map_sanitizeCharacter, hread]

/-! ### When no row carries a control character -/

/-- A property holds of the rows exactly when it holds of the lines. -/
theorem forall_mem_wrappedTextLines {text : String} {columns : UInt16} {P : Char → Prop} :
    (∀ row ∈ wrappedTextLines text columns, ∀ c ∈ row.toList, P c) ↔
      ∀ line ∈ Text.lines text.toList, ∀ c ∈ line, P c := by
  have hwidth : 0 < max columns.toNat 1 := by omega
  -- one line is the text of its rows
  have hline : ∀ line : List Char,
      (∀ row ∈ (if line.isEmpty then [""] else
        (Text.chunks (max columns.toNat 1) line).map String.ofList), ∀ c ∈ row.toList, P c) ↔
        ∀ c ∈ line, P c := by
    intro line
    split
    · rename_i hempty
      rw [List.isEmpty_iff.1 hempty]
      simp
    · rw [List.forall_mem_map]
      simp only [String.toList_ofList]
      exact Text.forall_mem_chunks hwidth
  rw [wrappedTextLines]
  have hrows : (∀ row ∈ (Text.lines text.toList).flatMap fun line =>
        if line.isEmpty then [""] else (Text.chunks (max columns.toNat 1) line).map String.ofList,
      ∀ c ∈ row.toList, P c) ↔ ∀ line ∈ Text.lines text.toList, ∀ c ∈ line, P c := by
    simp only [List.forall_mem_flatMap]
    exact forall₂_congr fun line _ => hline line
  rw [← hrows]
  split
  · rename_i hempty
    rw [List.isEmpty_iff.1 hempty]
    simp
  · rfl

/-- **When no row carries a control character** other than the tabulator: exactly when every
carriage return among the bytes read precedes a line feed. -/
theorem rows_without_controls_iff (input : Bytes) (maxBytes : ℕ) (columns : UInt16) (text : String)
    (h : sanitizeText input maxBytes = .ok text) :
    (∀ row ∈ wrappedTextLines text columns, ∀ c ∈ row.toList,
      Text.isControl c = true → c = '\t') ↔ CarriageReturnsPaired input maxBytes := by
  rw [forall_mem_wrappedTextLines, ← followedBy_sanitizeText_iff h,
    ← Text.lines_noCarriageReturn_iff]
  constructor
  · intro hclean line hline hreturn
    exact absurd (hclean line hline '\r' hreturn rfl) (by decide)
  · intro hreturns line hline c hc hcontrol
    obtain ⟨hmem, hnewline⟩ := Text.mem_of_mem_lines hline hc
    rcases isControl_of_mem_sanitizeText h hmem hcontrol with rfl | rfl | rfl
    · exact absurd rfl hnewline
    · exact absurd hc (hreturns line hline)
    · rfl

/-- Two lines in the style of another system, cut after the first: no row carries a control. -/
theorem rows_without_controls_iff_two :
    sanitizeText (Text.asBytes "a\r\nb") 2 = .ok "a\r\n… [preview truncated]\n" ∧
      ∀ row ∈ wrappedTextLines "a\r\n… [preview truncated]\n" 80, ∀ c ∈ row.toList,
        Text.isControl c = true → c = '\t' := by
  have hread : sanitizeText (Text.asBytes "a\r\nb") 2 = .ok "a\r\n… [preview truncated]\n" := rfl
  have hpaired : CarriageReturnsPaired (Text.asBytes "a\r\nb") 2 := by
    have htaken : (Text.asBytes "a\r\nb").take 2 = [0x61, 0x0D] := by decide
    intro i hi
    rw [htaken] at hi
    match i, hi with
    | 1, _ => exact Or.inr (by decide)
  exact ⟨hread, (rows_without_controls_iff (Text.asBytes "a\r\nb") 2 80 _ hread).2 hpaired⟩

/-- A carriage return between two letters reaches its row. -/
theorem carriage_return_reaches_row :
    ¬ ∀ (input : Bytes) (maxBytes : ℕ) (columns : UInt16) (text : String),
      sanitizeText input maxBytes = .ok text →
        ∀ row ∈ wrappedTextLines text columns, ∀ c ∈ row.toList,
          Text.isControl c = true → c = '\t' := by
  intro h
  have hrow : "a\rb" ∈ wrappedTextLines "a\rb" 80 := by decide
  have hok : sanitizeText (Text.asBytes "a\rb") 100 = .ok "a\rb" := by rfl
  exact absurd (h _ 100 80 _ hok _ hrow '\r' (by decide) rfl) (by decide)

end TermInterop
