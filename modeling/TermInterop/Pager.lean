/-
The pager: which rows it shows.

The text is cut into lines, and every line into rows that fit the terminal; a text without any line
has one empty row.  The pager stands at an offset in the rows and shows one page of them.  A key
takes it to another offset or closes it.  Cutting and paging know nothing of each other, but they
agree on the length of a page, and every offset that a key leads to is the offset of a row: so no
page is empty, and whoever only presses the key for the next page misses no row.

Main definitions:

* `TermInterop.pressKeys` — where keys take the pager;
* `TermInterop.pageLength`, `TermInterop.pageEnd` — the rows of a page.

Main results:

* `TermInterop.exists_groups_wrappedTextLines` — the rows are the lines of the text;
* `TermInterop.pressKeys_lt` — **every offset is the offset of a row**;
* `TermInterop.next_pages_cover`, `TermInterop.next_pages_show` — the pages that the key for the
  next page shows have no gap;
* `TermInterop.pager_hides_no_text` — **the pager hides no text**.
-/

import TermInterop.Screen

set_option relaxedAutoImplicit false
set_option autoImplicit false

namespace TermInterop

/-! ### Rows -/

section Rows

variable (text : String) (columns : UInt16)

/-- The rows of one line of a text. -/
def rowsOfLine (line : List Char) : List String :=
  if line.isEmpty then [""] else (Text.chunks (max columns.toNat 1) line).map String.ofList

theorem wrappedTextLines_eq : wrappedTextLines text columns =
    if ((Text.lines text.toList).flatMap (rowsOfLine columns)).isEmpty then [""]
    else (Text.lines text.toList).flatMap (rowsOfLine columns) := rfl

variable {text columns}

/-- The rows of a line are the line. -/
theorem flatMap_rowsOfLine (columns : UInt16) (line : List Char) :
    (rowsOfLine columns line).flatMap String.toList = line := by
  unfold rowsOfLine
  split
  · rename_i hempty
    rw [List.isEmpty_iff.1 hempty]
    rfl
  · have hmap : ((Text.chunks (max columns.toNat 1) line).map String.ofList).flatMap String.toList =
        (Text.chunks (max columns.toNat 1) line).flatten := by
      rw [List.flatMap_map]
      simp [List.flatMap_def]
    rw [hmap, Text.flatten_chunks (by omega)]

/-- Every line has a row, and an empty line has one empty row. -/
theorem rowsOfLine_ne_nil (line : List Char) : rowsOfLine columns line ≠ [] := by
  intro hnil
  have hline := flatMap_rowsOfLine columns line
  rw [hnil, List.flatMap_nil] at hline
  subst hline
  cases hnil

theorem rowsOfLine_nil : rowsOfLine columns [] = [""] := rfl

/-- A row fits the terminal. -/
theorem length_of_mem_rowsOfLine {line : List Char} {row : String}
    (h : row ∈ rowsOfLine columns line) : row.toList.length ≤ max columns.toNat 1 := by
  unfold rowsOfLine at h
  split at h
  · obtain rfl := List.mem_singleton.1 h
    exact Nat.zero_le _
  · obtain ⟨chunk, hchunk, rfl⟩ := List.mem_map.1 h
    obtain ⟨k, hk⟩ := List.mem_iff_getElem?.1 hchunk
    have hlength := (Text.length_of_getElem?_chunks (by omega) hk).2
    rw [String.toList_ofList]
    omega

/-- **The rows are the lines of the text**, one group of rows for each line; a text without any line
has one empty row. -/
theorem exists_groups_wrappedTextLines :
    ∃ groups : List (List String),
      groups.map (fun rows => rows.flatMap String.toList) = Text.lines text.toList ∧
        (∀ rows ∈ groups, rows ≠ [] ∧ (rows.flatMap String.toList = [] → rows = [""])) ∧
        wrappedTextLines text columns = if groups = [] then [""] else groups.flatten := by
  refine ⟨(Text.lines text.toList).map (rowsOfLine columns), ?_, ?_, ?_⟩
  · rw [List.map_map]
    conv_rhs => rw [← List.map_id (Text.lines text.toList)]
    exact List.map_congr_left fun line _ => flatMap_rowsOfLine columns line
  · intro rows hrows
    obtain ⟨line, -, rfl⟩ := List.mem_map.1 hrows
    refine ⟨rowsOfLine_ne_nil line, fun hempty => ?_⟩
    rw [flatMap_rowsOfLine] at hempty
    rw [hempty, rowsOfLine_nil]
  · rw [wrappedTextLines_eq]
    cases Text.lines text.toList with
    | nil => rfl
    | cons line lines =>
        have hne : (line :: lines).flatMap (rowsOfLine columns) ≠ [] :=
          List.append_ne_nil_of_left_ne_nil (rowsOfLine_ne_nil line) _
        have hmap : (line :: lines).map (rowsOfLine columns) ≠ [] := List.cons_ne_nil _ _
        rw [if_neg (fun h => hne (List.isEmpty_iff.1 h)), if_neg hmap, List.flatMap_def]

theorem wrappedTextLines_ne_nil : wrappedTextLines text columns ≠ [] := by
  rw [wrappedTextLines_eq]
  split
  · exact List.cons_ne_nil _ _
  · rename_i hne
    exact fun hnil => hne (List.isEmpty_iff.2 hnil)

theorem length_of_mem_wrappedTextLines {row : String} (h : row ∈ wrappedTextLines text columns) :
    row.toList.length ≤ max columns.toNat 1 := by
  rw [wrappedTextLines_eq] at h
  split at h
  · obtain rfl := List.mem_singleton.1 h
    exact Nat.zero_le _
  · obtain ⟨line, -, hrow⟩ := List.mem_flatMap.1 h
    exact length_of_mem_rowsOfLine hrow

end Rows

/-! ### Keys -/

/-- Where keys take the pager, one at a time; nothing once it is closed. -/
def pressKeys (pageRows lineCount : ℕ) (state : Option ℕ) (keys : Bytes) : Option ℕ :=
  keys.foldl (fun state key => state.bind fun offset => nextOffset pageRows lineCount offset key)
    state

section Keys

variable {pageRows lineCount offset offset' : ℕ} {key : UInt8} {keys : Bytes}

theorem pressKeys_append (state : Option ℕ) (first second : Bytes) :
    pressKeys pageRows lineCount state (first ++ second) =
      pressKeys pageRows lineCount (pressKeys pageRows lineCount state first) second :=
  List.foldl_append

theorem pressKeys_cons (offset : ℕ) (key : UInt8) (keys : Bytes) :
    pressKeys pageRows lineCount (some offset) (key :: keys) =
      pressKeys pageRows lineCount (nextOffset pageRows lineCount offset key) keys := rfl

/-- A closed pager stays closed. -/
theorem pressKeys_none (keys : Bytes) : pressKeys pageRows lineCount none keys = none := by
  induction keys with
  | nil => rfl
  | cons key keys ih => exact ih

theorem nextOffset_lt (h : nextOffset pageRows lineCount offset key = some offset')
    (hrows : 0 < pageRows) (hoffset : offset < lineCount) : offset' < lineCount := by
  unfold nextOffset at h
  split_ifs at h <;> obtain rfl := Option.some.inj h <;> omega

/-- **Every offset is the offset of a row**, whatever keys are pressed. -/
theorem pressKeys_lt (h : pressKeys pageRows lineCount (some offset) keys = some offset')
    (hrows : 0 < pageRows) (hoffset : offset < lineCount) : offset' < lineCount := by
  induction keys generalizing offset with
  | nil =>
      obtain rfl := Option.some.inj h
      exact hoffset
  | cons key keys ih =>
      rw [pressKeys_cons] at h
      cases hnext : nextOffset pageRows lineCount offset key with
      | none =>
          rw [hnext, pressKeys_none] at h
          cases h
      | some next =>
          rw [hnext] at h
          exact ih h (nextOffset_lt hnext hrows hoffset)

/-- A key for the next page. -/
def IsNext (key : UInt8) : Prop := key = ascii ' ' ∨ key = ascii 'j'

theorem nextOffset_of_isNext (h : IsNext key) :
    nextOffset pageRows lineCount offset key = some (min (offset + pageRows) (lineCount - 1)) := by
  unfold nextOffset
  rcases h with rfl | rfl <;> rfl

theorem nextOffset_last (offset : ℕ) : nextOffset pageRows lineCount offset (ascii 'G') =
    some (lineCount - pageRows) := rfl

/-- Where the keys for the next page take the pager. -/
theorem pressKeys_of_isNext (hkeys : ∀ key ∈ keys, IsNext key) :
    pressKeys pageRows lineCount (some (min offset (lineCount - 1))) keys =
      some (min (offset + keys.length * pageRows) (lineCount - 1)) := by
  induction keys generalizing offset with
  | nil => simp [pressKeys]
  | cons key keys ih =>
      obtain ⟨hkey, hrest⟩ := List.forall_mem_cons.1 hkeys
      have hnext : min (min offset (lineCount - 1) + pageRows) (lineCount - 1) =
          min (offset + pageRows) (lineCount - 1) := by omega
      rw [pressKeys_cons, nextOffset_of_isNext hkey, hnext, ih hrest, List.length_cons, Nat.add_mul,
        Nat.one_mul, Nat.add_assoc, Nat.add_comm pageRows]

end Keys

/-! ### Pages -/

/-- The rows of the terminal that a page has. -/
def pageLength (rows : UInt16) : ℕ := max (rows.toNat - 2) 1

/-- The end of the page at an offset. -/
def pageEnd (lineCount offset : ℕ) (rows : UInt16) : ℕ := min (offset + pageLength rows) lineCount

theorem pageLength_pos (rows : UInt16) : 0 < pageLength rows := by
  unfold pageLength
  omega

/-- A page shows the rows from its offset to its end. -/
theorem contentLines_eq (lines : List String) (offset : ℕ) (rows : UInt16) :
    contentLines lines offset rows = (lines.take (pageEnd lines.length offset rows)).drop offset :=
  rfl

/-- The pager and the page agree on the length of a page. -/
theorem pageRows_eq (rows : UInt16) : max (saturatingSub rows 2).toNat 1 = pageLength rows := by
  rw [saturatingSub_toNat]
  rfl

theorem contentLines_ne_nil {lines : List String} {offset : ℕ} {rows : UInt16}
    (h : offset < lines.length) : contentLines lines offset rows ≠ [] := by
  have hpos := pageLength_pos rows
  rw [contentLines_eq, ← List.length_pos_iff, List.length_drop, List.length_take, pageEnd]
  omega

/-- **The pages that the keys for the next page show have no gap.** -/
theorem next_pages_cover {lineCount : ℕ} {rows : UInt16} {keys : Bytes}
    (hkeys : ∀ key ∈ keys, IsNext key) (hcount : 0 < lineCount) (i : ℕ) :
    (∃ k offset, k ≤ keys.length ∧
        pressKeys (pageLength rows) lineCount (some 0) (keys.take k) = some offset ∧
        offset ≤ i ∧ i < pageEnd lineCount offset rows) ↔
      i < min lineCount ((keys.length + 1) * pageLength rows) := by
  have hpos := pageLength_pos rows
  have hpressed : ∀ k ≤ keys.length,
      pressKeys (pageLength rows) lineCount (some 0) (keys.take k) =
        some (min (k * pageLength rows) (lineCount - 1)) := by
    intro k hk
    have htaken : pressKeys (pageLength rows) lineCount (some (min 0 (lineCount - 1)))
        (keys.take k) =
          some (min (0 + (keys.take k).length * pageLength rows) (lineCount - 1)) :=
      pressKeys_of_isNext fun key hkey => hkeys key (List.take_subset k keys hkey)
    rwa [Nat.zero_min, Nat.zero_add, List.length_take_of_le hk] at htaken
  constructor
  · rintro ⟨k, offset, hk, hoffset, -, hend⟩
    rw [hpressed k hk] at hoffset
    obtain rfl := Option.some.inj hoffset
    have hmul : (k + 1) * pageLength rows ≤ (keys.length + 1) * pageLength rows :=
      Nat.mul_le_mul_right _ (by omega)
    rw [Nat.add_mul, Nat.one_mul] at hmul
    unfold pageEnd at hend
    omega
  · intro hi
    -- the page that begins at or before the row, and ends behind it
    have hdiv := Nat.div_add_mod i (pageLength rows)
    have hmod := Nat.mod_lt i hpos
    have hle : i / pageLength rows ≤ keys.length := by
      have hlt := Nat.div_lt_of_lt_mul (Nat.mul_comm _ _ ▸ (lt_min_iff.1 hi).2)
      omega
    refine ⟨i / pageLength rows, _, hle, hpressed _ hle, ?_, ?_⟩
    · rw [Nat.mul_comm]
      omega
    · unfold pageEnd
      rw [Nat.mul_comm]
      omega

/-- The row at a place on a page is the row of the text that many rows after the offset. -/
theorem getElem?_contentLines {lines : List String} {offset i : ℕ} {rows : UInt16}
    (h : offset ≤ i) :
    (contentLines lines offset rows)[i - offset]? =
      if i < pageEnd lines.length offset rows then lines[i]? else none := by
  rw [contentLines_eq, List.getElem?_drop, Nat.add_sub_cancel' h, List.getElem?_take]

/-- A page up to the end of the text shows the last row of the text last. -/
theorem getLast?_contentLines {lines : List String} {offset : ℕ} {rows : UInt16}
    (hlt : offset < lines.length) (hend : pageEnd lines.length offset rows = lines.length) :
    (contentLines lines offset rows).getLast? = lines.getLast? := by
  rw [contentLines_eq, hend, List.take_length, List.getLast?_drop, if_neg (by omega)]

/-- The keys for the next page show exactly the first rows of the text, each where it belongs on
its page. -/
theorem next_pages_show {lines : List String} {rows : UInt16} {keys : Bytes}
    (hkeys : ∀ key ∈ keys, IsNext key) (hlines : lines ≠ []) (i : ℕ) (row : String) :
    (∃ k offset, k ≤ keys.length ∧
        pressKeys (pageLength rows) lines.length (some 0) (keys.take k) = some offset ∧
        offset ≤ i ∧ (contentLines lines offset rows)[i - offset]? = some row) ↔
      i < (keys.length + 1) * pageLength rows ∧ lines[i]? = some row := by
  have hcover := @next_pages_cover lines.length rows keys hkeys (List.length_pos_of_ne_nil hlines) i
  constructor
  · rintro ⟨k, offset, hk, hpressed, hle, hshown⟩
    rw [getElem?_contentLines hle] at hshown
    split at hshown
    · -- a row that a page shows is before the end of this page
      rename_i hend
      exact ⟨(Nat.lt_min.1 (hcover.1 ⟨k, offset, hk, hpressed, hle, hend⟩)).2, hshown⟩
    · cases hshown
  · rintro ⟨hbound, hrow⟩
    have hlt := (List.getElem?_eq_some_iff.1 hrow).1
    obtain ⟨k, offset, hk, hpressed, hle, hend⟩ := hcover.2 (Nat.lt_min.2 ⟨hlt, hbound⟩)
    refine ⟨k, offset, hk, hpressed, hle, ?_⟩
    rw [getElem?_contentLines hle, if_pos hend, hrow]

/-- **The pager hides no text.**  The rows fit the terminal and are the lines of the text, in order,
one group of rows for each line, and an empty line has one empty row; a text without any line has
one empty row as well.  Whatever keys are pressed, the offset is that of a row, and the page at it
is not empty; the key for the end shows the last row, at the foot of its page; and the pages from
the beginning on, with one more for each key for the next page, reach exactly the first rows of the
text and show these rows, each at its place, and nothing else. -/
theorem pager_hides_no_text (text : String) (columns rows : UInt16) :
    wrappedTextLines text columns ≠ [] ∧
    (∀ row ∈ wrappedTextLines text columns, row.toList.length ≤ max columns.toNat 1) ∧
    (∃ groups : List (List String),
      groups.map (fun group => group.flatMap String.toList) = Text.lines text.toList ∧
        (∀ group ∈ groups, group ≠ [] ∧ (group.flatMap String.toList = [] → group = [""])) ∧
        wrappedTextLines text columns = if groups = [] then [""] else groups.flatten) ∧
    (∀ (keys : Bytes) (offset : ℕ),
      pressKeys (pageLength rows) (wrappedTextLines text columns).length (some 0) keys =
        some offset →
      offset < (wrappedTextLines text columns).length ∧
        contentLines (wrappedTextLines text columns) offset rows ≠ [] ∧
        ∃ last, pressKeys (pageLength rows) (wrappedTextLines text columns).length (some 0)
            (keys ++ [ascii 'G']) = some last ∧
          pageEnd (wrappedTextLines text columns).length last rows =
            (wrappedTextLines text columns).length ∧
          (contentLines (wrappedTextLines text columns) last rows).getLast? =
            (wrappedTextLines text columns).getLast?) ∧
    ∀ keys : Bytes, (∀ key ∈ keys, IsNext key) →
      (∀ i, (∃ k offset, k ≤ keys.length ∧
          pressKeys (pageLength rows) (wrappedTextLines text columns).length (some 0)
            (keys.take k) = some offset ∧
          offset ≤ i ∧ i < pageEnd (wrappedTextLines text columns).length offset rows) ↔
        i < min (wrappedTextLines text columns).length ((keys.length + 1) * pageLength rows)) ∧
      ∀ i row, (∃ k offset, k ≤ keys.length ∧
          pressKeys (pageLength rows) (wrappedTextLines text columns).length (some 0)
            (keys.take k) = some offset ∧
          offset ≤ i ∧
          (contentLines (wrappedTextLines text columns) offset rows)[i - offset]? = some row) ↔
        i < (keys.length + 1) * pageLength rows ∧
          (wrappedTextLines text columns)[i]? = some row := by
  have hcount : 0 < (wrappedTextLines text columns).length :=
    List.length_pos_of_ne_nil wrappedTextLines_ne_nil
  have hrows := pageLength_pos rows
  refine ⟨wrappedTextLines_ne_nil, fun row => length_of_mem_wrappedTextLines,
    exists_groups_wrappedTextLines, ?_, fun keys hkeys =>
      ⟨next_pages_cover hkeys hcount, next_pages_show hkeys wrappedTextLines_ne_nil⟩⟩
  intro keys offset hoffset
  have hlt := pressKeys_lt hoffset hrows hcount
  -- the key for the end goes a page back from the end, or to the beginning of a short text
  have hend : pageEnd (wrappedTextLines text columns).length
      ((wrappedTextLines text columns).length - pageLength rows) rows =
        (wrappedTextLines text columns).length := by
    unfold pageEnd
    omega
  refine ⟨hlt, contentLines_ne_nil hlt, (wrappedTextLines text columns).length - pageLength rows,
    ?_, hend, getLast?_contentLines (by omega) hend⟩
  rw [pressKeys_append, hoffset]
  exact nextOffset_last offset

end TermInterop
