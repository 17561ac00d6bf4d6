/-
What a preview draws asks the terminal nothing.

A terminal answers a query wherever it stands in what is written.  The text of an artifact is
sanitized, and an image is carried inside of commands that are no queries; so neither contains one,
whatever the artifact is.  Under tmux passthrough every escape byte of an image is doubled, which
makes no query of what was none.

Main definitions:

* `TermInterop.queryHeads`, `TermInterop.Asks` — the queries that a terminal answers;
* `TermInterop.SixelStrings` — what is assumed of the library that encodes Sixel images.

Main results:

* `TermInterop.asks_of_isQuery` — the requests of the exchanges are queries;
* `TermInterop.free_renderTextPage`, `TermInterop.free_logicalImage` — **what is drawn contains
  none**.
-/

import TermInterop.Lexing
import TermInterop.PreviewSetup

set_option relaxedAutoImplicit false
set_option autoImplicit false

namespace TermInterop

open Heads (Free)

/-! ### Queries -/

/-- How the queries begin: primary device attributes, the two inquiries for the geometry, and a KGP
command with an identifier. -/
def queryHeads : List Bytes :=
  [Text.asBytes "\x1b[c", Text.asBytes "\x1b[14t", Text.asBytes "\x1b[18t", Text.asBytes "\x1b_Gi="]

/-- A query stands somewhere in what is written. -/
def Asks (written : Bytes) : Prop := ∃ head ∈ queryHeads, head <:+: written

theorem head?_of_mem_queryHeads : ∀ head ∈ queryHeads, head.head? = some ESC := by decide

theorem not_asks_of_free {written : Bytes} (h : Free queryHeads written) : ¬ Asks written := by
  rintro ⟨head, hmem, hinfix⟩
  refine Heads.not_infix_of_free h hmem ?_ hinfix
  rintro rfl
  cases head?_of_mem_queryHeads [] hmem

/-- The requests that an exchange writes. -/
def IsQuery (request : Bytes) : Prop :=
  request = buildGeometryQuery ∨ request = Da1.buildQuery ∨
    ∃ correlationId, Kgp.buildQuery correlationId = .ok request

/-- **The requests of the exchanges are queries**, under either transport. -/
theorem asks_of_isQuery {request : Bytes} (h : IsQuery request) (transport : TransportKind) :
    Asks (transportPayload transport request) := by
  have hda1 : Text.asBytes "\x1b[c" ∈ queryHeads := by decide
  rcases h with rfl | rfl | ⟨correlationId, hbuild⟩
  · cases transport with
    | direct => exact ⟨Text.asBytes "\x1b[14t", by decide, by decide⟩
    | tmuxPassthrough => exact ⟨Text.asBytes "\x1b[14t", by decide, by decide⟩
  · cases transport with
    | direct => exact ⟨_, hda1, by decide⟩
    | tmuxPassthrough => exact ⟨_, hda1, by decide⟩
  · -- the command ends with a query for the attributes
    rw [Kgp.buildQuery] at hbuild
    split at hbuild
    · cases hbuild
    · obtain rfl := Except.ok.inj hbuild
      refine ⟨_, hda1, ?_⟩
      cases transport with
      | direct => exact List.suffix_append _ _ |>.isInfix
      | tmuxPassthrough =>
          have hescaped : Text.asBytes "\x1b[c" <:+: Tmux.escape (Text.asBytes "\x1b[c") := by
            decide
          rw [transportPayload, Tmux.wrapPassthrough, Tmux.escape, List.flatMap_append]
          refine hescaped.trans (List.IsInfix.trans ?_ (List.prefix_append _ _).isInfix)
          rw [← List.append_assoc]
          exact (List.suffix_append _ _).isInfix

/-! ### Text -/

/-- A character that a text does not contain is not among its bytes. -/
theorem ascii_notMem_asBytes {c : Char} {s : String} (hc : c.toNat < 128) (h : c ∉ s.toList) :
    ascii c ∉ Text.asBytes s := by
  have hval : (ascii c).toNat = c.toNat := by
    rw [ascii, Text.asciiByte, UInt8.toNat_ofNat', Nat.mod_eq_of_lt (by omega)]
  intro hmem
  obtain ⟨d, hd, hdval⟩ := Text.exists_of_mem_utf8 (by omega) hmem
  obtain rfl : d = c := Char.toNat_inj.1 (by omega)
  exact h hd

theorem free_of_notMem {bytes : Bytes} (h : ESC ∉ bytes) : Free queryHeads bytes :=
  Heads.free_of_notMem head?_of_mem_queryHeads h

/-- A text without an escape character. -/
theorem free_asBytes {s : String} (h : '\x1b' ∉ s.toList) : Free queryHeads (Text.asBytes s) :=
  free_of_notMem (ascii_notMem_asBytes (by decide) h)

/-- Texts without a query can be put together. -/
theorem free_asBytes_append {s t : String} (hs : Free queryHeads (Text.asBytes s))
    (ht : Free queryHeads (Text.asBytes t)) : Free queryHeads (Text.asBytes (s ++ t)) := by
  rw [Text.asBytes_append]
  exact Heads.free_append hs ht

theorem notMem_repr {c : Char} (h : c.isDigit = false) (n : ℕ) : c ∉ (Nat.repr n).toList := by
  intro hmem
  rw [Text.isDigit_of_mem_repr hmem] at h
  cases h

theorem free_repr (n : ℕ) : Free queryHeads (Text.asBytes (Nat.repr n)) :=
  free_asBytes (notMem_repr (by decide) n)

/-- The row of a position does not become an inquiry, whatever number it is. -/
theorem free_row (n : ℕ) : Free queryHeads (Text.asBytes ("\x1b[" ++ Nat.repr n ++ ";")) := by
  have hsplit : Text.asBytes ("\x1b[" ++ Nat.repr n ++ ";") =
      ESC :: Text.asBytes ("[" ++ Nat.repr n ++ ";") := by
    simp only [Text.asBytes_append]
    rfl
  have hletter : ∀ c : Char, c.toNat < 128 → c.isDigit = false → c ∉ ['\x1b', '[', ';'] →
      ascii c ∉ Text.asBytes ("\x1b[" ++ Nat.repr n ++ ";") := by
    intro c hascii hdigit hc
    refine ascii_notMem_asBytes hascii ?_
    have hrepr := notMem_repr hdigit n
    simp only [List.mem_cons, List.not_mem_nil, or_false, not_or] at hc
    simpa [hc] using hrepr
  have hsemi : ascii ';' ∈ Text.asBytes ("\x1b[" ++ Nat.repr n ++ ";") := by
    rw [Text.asBytes_append]
    exact List.mem_append_right _ (by decide)
  have hrest : Free queryHeads (Text.asBytes ("[" ++ Nat.repr n ++ ";")) := by
    refine free_asBytes ?_
    have hrepr := notMem_repr (c := '\x1b') (by decide) n
    simpa using hrepr
  rw [hsplit, Heads.free_cons_iff, ← hsplit]
  refine ⟨?_, hrest⟩
  have hheads : ∀ head ∈ queryHeads, ascii ';' ∉ head ∧
      (ascii 'c' ∈ head ∨ ascii 't' ∈ head ∨ ascii 'G' ∈ head) := by decide
  intro head hmem
  obtain ⟨hnosemi, hc | ht | hg⟩ := hheads head hmem
  · exact Heads.not_agree_of_mem hc (hletter 'c' (by decide) (by decide) (by decide)) hsemi hnosemi
  · exact Heads.not_agree_of_mem ht (hletter 't' (by decide) (by decide) (by decide)) hsemi hnosemi
  · exact Heads.not_agree_of_mem hg (hletter 'G' (by decide) (by decide) (by decide)) hsemi hnosemi

/-! ### What a preview writes -/

/-- The label contains no control character. -/
theorem escape_notMem_safeLabel (path : PathBuf) (columns : UInt16) :
    '\x1b' ∉ (safeLabel path columns).toList := by
  intro hmem
  rw [safeLabel, String.toList_ofList] at hmem
  obtain ⟨c, -, hc⟩ := List.mem_map.1 (List.mem_of_mem_take hmem)
  split at hc
  · cases hc
  · rename_i hcontrol
    rw [hc] at hcontrol
    exact hcontrol (by decide)

/-- The rows of a sanitized text contain no escape character. -/
theorem escape_notMem_row {input : Bytes} {maxBytes : ℕ} {text row : String} {columns : UInt16}
    (h : sanitizeText input maxBytes = .ok text) (hrow : row ∈ wrappedTextLines text columns) :
    '\x1b' ∉ row.toList := by
  have hrows : ∀ row ∈ wrappedTextLines text columns, ∀ c ∈ row.toList, c ≠ '\x1b' := by
    rw [forall_mem_wrappedTextLines]
    rintro line hline c hc rfl
    have hmem := (Text.mem_of_mem_lines hline hc).1
    rcases isControl_of_mem_sanitizeText h hmem (by decide) with hc | hc | hc
    · exact absurd hc (by decide)
    · exact absurd hc (by decide)
    · exact absurd hc (by decide)
  exact fun hmem => hrows row hrow _ hmem rfl

/-- The text after the number of a row contains no query when it does not do so alone. -/
theorem free_atRow (n : ℕ) {text : String} (hsemi : (Text.asBytes text).head? = some (ascii ';'))
    (h : Free queryHeads (Text.asBytes text)) :
    Free queryHeads (Text.asBytes ("\x1b[" ++ Nat.repr n ++ text)) := by
  obtain ⟨rest, hrest⟩ := List.head?_eq_some_iff.1 hsemi
  have hrow := free_row n
  have hbytes : Text.asBytes ("\x1b[" ++ Nat.repr n ++ text) =
      Text.asBytes ("\x1b[" ++ Nat.repr n ++ ";") ++ rest := by
    rw [Text.asBytes_append, Text.asBytes_append _ ";", hrest, List.append_assoc]
    rfl
  rw [hrest, Heads.free_cons_iff] at h
  rw [hbytes]
  exact Heads.free_append hrow h.2

/-- **A page contains no query.** -/
theorem free_renderTextPage {label : String} {lines : List String} (offset : ℕ) (rows : UInt16)
    (hlabel : '\x1b' ∉ label.toList) (hlines : ∀ line ∈ lines, '\x1b' ∉ line.toList) :
    Free queryHeads (renderTextPage label lines offset rows) := by
  have htitle : Free queryHeads (Text.asBytes (" " ++ label)) := by
    refine free_asBytes ?_
    simpa using hlabel
  have hstatus : Free queryHeads (Text.asBytes ("\x1b[" ++ Nat.repr rows.toNat ++
      ";1H\x1b[2K\x1b[2m q/Esc: close  Space/j: next  k: previous  " ++
      Nat.repr (min (offset + 1) lines.length) ++ "/" ++ Nat.repr lines.length ++ "\x1b[0m")) := by
    have hfirst : Free queryHeads (Text.asBytes ("\x1b[" ++ Nat.repr rows.toNat ++
        ";1H\x1b[2K\x1b[2m q/Esc: close  Space/j: next  k: previous  ")) :=
      free_atRow rows.toNat (by decide +kernel) (by decide +kernel)
    have hnumber := free_asBytes_append hfirst (free_repr (min (offset + 1) lines.length))
    have hslash := free_asBytes_append hnumber (by decide : Free queryHeads (Text.asBytes "/"))
    have hcount := free_asBytes_append hslash (free_repr lines.length)
    exact free_asBytes_append hcount (by decide)
  have hrows : Free queryHeads ((contentLines lines offset rows).flatMap fun line =>
      Text.asBytes line ++ Text.asBytes "\x1b[K\r\n") := by
    refine Heads.free_flatMap fun line hline => ?_
    exact Heads.free_append (free_asBytes (hlines line (mem_of_mem_contentLines hline)))
      (by decide)
  rw [renderTextPage]
  refine Heads.free_append (Heads.free_append (Heads.free_append (Heads.free_append ?_ htitle) ?_)
    hrows) hstatus
  · decide
  · decide

/-- What is drawn around an image contains no query. -/
theorem free_rasterPosition (viewport : Viewport) (placement : RasterPlacement) :
    Free queryHeads (rasterPosition viewport placement) :=
  free_asBytes_append (free_asBytes_append (by decide) (free_repr _)) (by decide)

theorem free_rasterStatus (path : PathBuf) (viewport : Viewport) (renderer : Renderer) :
    Free queryHeads (rasterStatus path viewport renderer) := by
  have hbackend : '\x1b' ∉ renderer.backend.toList := by
    cases renderer <;> decide
  have hfirst : Free queryHeads (Text.asBytes ("\x1b[" ++ Nat.repr viewport.rows.toNat ++
      ";1H\x1b[2K\x1b[2m ")) :=
    free_atRow viewport.rows.toNat (by decide) (by decide)
  have hlabel := free_asBytes_append hfirst (free_asBytes
    (escape_notMem_safeLabel path (saturatingSub viewport.columns 20)))
  have hgap := free_asBytes_append hlabel (by decide : Free queryHeads (Text.asBytes "  "))
  exact free_asBytes_append (free_asBytes_append hgap (free_asBytes hbackend)) (by decide)

/-! ### Images -/

/-- What a command of a PNG sequence begins with. -/
theorem free_displayHeader (options : Kgp.PngDisplayOptions) (index more : ℕ) :
    Free queryHeads (Text.asBytes (Kgp.displayHeader options index more)) := by
  rw [Kgp.displayHeader]
  split
  · have himage := free_asBytes_append (s := "\x1b_Ga=T,f=100,I=") (by decide)
      (free_repr options.imageNumber.toNat)
    have hcolumns := free_asBytes_append (free_asBytes_append himage (t := ",c=") (by decide))
      (free_repr options.columns.toNat)
    have hrows := free_asBytes_append (free_asBytes_append hcolumns (t := ",r=") (by decide))
      (free_repr options.rows.toNat)
    have hmore := free_asBytes_append
      (free_asBytes_append hrows (t := ",C=1,N=1,q=2,m=") (by decide)) (free_repr more)
    exact free_asBytes_append hmore (by decide)
  · have hmore := free_asBytes_append (s := "\x1b_Gm=") (by decide) (free_repr more)
    exact free_asBytes_append hmore (by decide)

/-- The commands that display a PNG image contain no query. -/
theorem free_encodePngDisplay {png bytes : Bytes} {options : Kgp.PngDisplayOptions}
    (h : Kgp.encodePngDisplay png options = .ok bytes) : Free queryHeads bytes := by
  rw [Kgp.encodePngDisplay] at h
  split_ifs at h
  obtain rfl := Except.ok.inj h
  refine Heads.free_flatten fun command hcommand => ?_
  obtain ⟨index, hindex, rfl⟩ := List.mem_mapIdx.1 hcommand
  have hchunk := Kgp.clean_of_mem_chunks (fun b hb => (Kgp.clean_encode png b hb).2)
    (List.getElem_mem hindex)
  exact Heads.free_append (Heads.free_append (free_displayHeader _ _ _) (free_of_notMem hchunk))
    (by decide)

/-- The command that removes an image contains no query. -/
theorem free_deleteImageNumber (imageNumber : UInt32) :
    Free queryHeads (Kgp.deleteImageNumber imageNumber) :=
  free_asBytes_append (free_asBytes_append (by decide) (free_repr _)) (by decide)

/-- The library encodes an image as one device control string, as its test asserts. -/
def SixelStrings (library : ImageLibrary) : Prop :=
  ∀ rgba width height bytes, library.encodeSixel rgba width height = .ok bytes →
    ∃ body, bytes = Text.asBytes "\x1bP" ++ body ++ Text.asBytes "\x1b\\" ∧ ESC ∉ body

/-- A head is an escape byte, and something without one. -/
theorem tail_of_mem_queryHeads :
    ∀ head ∈ queryHeads, head.head? = some ESC ∧ head.tail ≠ [] ∧ ESC ∉ head.tail := by decide

/-- Doubling the escape bytes does not matter to a sequence without one. -/
theorem agree_of_agree_escape {head xs : Bytes} (hhead : ESC ∉ head)
    (h : Heads.Agree head (Tmux.escape xs)) : Heads.Agree head xs := by
  induction xs generalizing head with
  | nil => exact h
  | cons x xs ih =>
      cases head with
      | nil => exact Or.inl (List.nil_prefix)
      | cons y head =>
          rw [List.mem_cons, not_or] at hhead
          rw [Tmux.escape, List.flatMap_cons] at h
          split at h
          · rw [List.cons_append, Heads.agree_cons_iff] at h
            exact absurd h.1.symm hhead.1
          · rw [List.cons_append, List.nil_append, Heads.agree_cons_iff] at h
            exact Heads.agree_cons_iff.2 ⟨h.1, ih hhead.2 h.2⟩

/-- **Doubling the escape bytes makes no query.** -/
theorem free_escape {xs : Bytes} (h : Free queryHeads xs) : Free queryHeads (Tmux.escape xs) := by
  induction h with
  | nil => exact Heads.Free.nil
  | @cons x xs hheads _ ih =>
      -- a head that begins at a byte of the escaped text
      have hbegins : ∀ rest, (∀ tail, ESC ∉ tail → tail ≠ [] → Heads.Agree tail rest →
          Heads.Agree tail xs) → ∀ head ∈ queryHeads, ¬ Heads.Agree head (x :: rest) := by
        intro rest hrest head hmem hagree
        obtain ⟨hhead, hne, hclean⟩ := tail_of_mem_queryHeads head hmem
        cases head with
        | nil => cases hhead
        | cons y tail =>
            obtain ⟨rfl, htail⟩ := Heads.agree_cons_iff.1 hagree
            exact hheads _ hmem (Heads.agree_cons_iff.2 ⟨rfl, hrest tail hclean hne htail⟩)
      have hescaped := hbegins (Tmux.escape xs) fun tail hclean _ => agree_of_agree_escape hclean
      rw [Tmux.escape, List.flatMap_cons]
      split
      · rename_i hx
        subst hx
        refine Heads.Free.cons (hbegins _ ?_) (Heads.Free.cons hescaped ih)
        intro tail hclean hne hagree
        cases tail with
        | nil => exact absurd rfl hne
        | cons y tail =>
            -- no escape byte follows the one a head begins with
            obtain ⟨rfl, -⟩ := Heads.agree_cons_iff.1 hagree
            exact absurd List.mem_cons_self hclean
      · exact Heads.Free.cons hescaped ih

/-- What contains no query contains none under either transport. -/
theorem free_transportPayload {payload : Bytes} (h : Free queryHeads payload)
    (transport : TransportKind) : Free queryHeads (transportPayload transport payload) := by
  cases transport with
  | direct => exact h
  | tmuxPassthrough =>
      exact Heads.free_append (Heads.free_append (by decide) (free_escape h)) (by decide)

/-- A Sixel image contains no query. -/
theorem free_encodeSixel {library : ImageLibrary} (hlibrary : SixelStrings library)
    {rgba bytes : Bytes} {width height : ℕ}
    (h : library.encodeSixel rgba width height = .ok bytes) : Free queryHeads bytes := by
  obtain ⟨body, rfl, hbody⟩ := hlibrary rgba width height bytes h
  exact Heads.free_append (Heads.free_append (by decide) (free_of_notMem hbody)) (by decide)

/-- **An image contains no query.** -/
theorem free_logicalImage {library : ImageLibrary} (hlibrary : SixelStrings library)
    {imageNumber : UInt32} {artifact : RasterArtifact} {placement : RasterPlacement}
    {renderer : Renderer} {image : Bytes}
    (h : logicalImage library imageNumber artifact placement renderer = .ok image) :
    Free queryHeads image := by
  cases renderer with
  | kgp =>
      rw [logicalImage] at h
      cases hpng : Kgp.encodePngDisplay artifact.png
          ⟨imageNumber, placement.columns, placement.rows⟩ with
      | error error =>
          rw [hpng] at h
          cases h
      | ok bytes =>
          rw [hpng] at h
          obtain rfl := Except.ok.inj h
          exact free_encodePngDisplay hpng
  | sixel =>
      simp only [logicalImage] at h
      cases hresized : resizeRgba library artifact placement.pixelWidth placement.pixelHeight with
      | error error =>
          rw [hresized] at h
          cases h
      | ok resized =>
          rw [hresized] at h
          cases hencoded : library.encodeSixel resized placement.pixelWidth.toNat
              placement.pixelHeight.toNat with
          | error message =>
              simp [hencoded, Except.mapError, bind, Except.bind] at h
          | ok bytes =>
              obtain rfl : bytes = image := by
                simpa [hencoded, Except.mapError, bind, Except.bind] using h
              exact free_encodeSixel hlibrary hencoded

theorem free_imageDelete (imageNumber : UInt32) (renderer : Renderer) (transport : TransportKind) :
    Free queryHeads (imageDelete imageNumber renderer transport) := by
  rw [imageDelete]
  split
  · exact free_transportPayload (free_deleteImageNumber imageNumber) transport
  · exact Heads.Free.nil

end TermInterop
