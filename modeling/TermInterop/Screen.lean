/-
The preview on its screen, call by call.

A preview opens the terminal and builds a screen guard: it enters raw mode, switches to the
alternate screen and hides the cursor.  It then draws and waits for keys.  When it is closed the
guard restores the screen, and another guard inside restores the attributes; both also do so when
the preview fails, but a guard that was never built restores nothing.

Every call may fail.  The theorem says exactly which failures leave the terminal changed, as long as
the calls that restore it succeed: those between a change of the terminal and the guard for it.

Main definitions:

* `TermInterop.Calls.withScreen` — the screen guard;
* `TermInterop.Calls.readKey`, `TermInterop.Calls.showText`, `TermInterop.Calls.showRaster` — the
  preview of a text and of an image;
* `TermInterop.Restored` — the terminal is as it was;
* `TermInterop.Unguarded` — a call that fails after a change and before its guard.

Main results:

* `TermInterop.Calls.withScreen_ends` — how a program on its screen ends;
* `TermInterop.terminal_restored_iff` — **the terminal is restored unless an unguarded call fails**.
-/

import TermInterop.Calls
import TermInterop.Fit
import TermInterop.PngDisplay
import TermInterop.Probe

set_option relaxedAutoImplicit false
set_option autoImplicit false

namespace TermInterop

/-! ### What a preview is given -/

/-- Validated raster data shared by independent rendering backends. -/
structure RasterArtifact where
  width : UInt32
  height : UInt32
  rgba : Bytes
  png : Bytes

/-- The two ways to draw an image. -/
inductive Renderer
  | kgp
  | sixel
  deriving DecidableEq

/-- The name of a renderer in the status line. -/
def Renderer.backend : Renderer → String
  | kgp => "KGP"
  | sixel => "Sixel"

/-- What other libraries do with images: decoding a file, scaling pixels, and encoding them for
Sixel. -/
structure ImageLibrary where
  decode : Bytes → Except ArtifactError RasterArtifact
  resize : RasterArtifact → UInt32 → UInt32 → Bytes
  encodeSixel : Bytes → ℕ → ℕ → Except String Bytes

/-- Resize validated RGBA pixels for a pixel-addressed renderer. -/
def resizeRgba (library : ImageLibrary) (artifact : RasterArtifact) (width height : UInt32) :
    Except ArtifactError Bytes :=
  if width = 0 ∨ height = 0 then .error .emptyRasterTarget
  else if artifact.rgba.length < 4 * artifact.width.toNat * artifact.height.toNat then
    .error .invalidRasterState
  else .ok (library.resize artifact width height)

/-- The arguments of a preview that its screen depends on, and the identity of its process. -/
structure ScreenArgs where
  tty : PathBuf
  exitAfterMs : Option UInt64
  processId : UInt32

/-- How long a preview waits for a key before it looks at the clock, in milliseconds. -/
def INPUT_POLL_MS : ℕ := 200

/-- The name of an artifact in the status line. -/
def safeLabel (path : PathBuf) (columns : UInt16) : String :=
  let source := Utf8Lossy.decode ((fileName path).getD path)
  String.ofList ((source.map fun character =>
    if Text.isControl character then '\uFFFD' else character).take columns.toNat)

/-- The bytes for a payload. -/
def transportPayload (transport : TransportKind) (payload : Bytes) : Bytes :=
  match transport with
  | .direct => payload
  | .tmuxPassthrough => Tmux.wrapPassthrough payload

/-- The command that removes an image. -/
def Kgp.deleteImageNumber (imageNumber : UInt32) : Bytes :=
  Text.asBytes ("\x1b_Ga=d,d=N,I=" ++ Nat.repr imageNumber.toNat ++ ",q=2\x1b\\")

/-- The number of the image of a process. -/
def imageNumberOf (processId : UInt32) : UInt32 := max processId 1

/-- The bytes that draw an image. -/
def logicalImage (library : ImageLibrary) (imageNumber : UInt32) (artifact : RasterArtifact)
    (placement : RasterPlacement) (renderer : Renderer) : Except AppError Bytes :=
  match renderer with
  | .kgp =>
      (Kgp.encodePngDisplay artifact.png ⟨imageNumber, placement.columns, placement.rows⟩).mapError
        AppError.displayBuild
  | .sixel => do
      let resized ← (resizeRgba library artifact placement.pixelWidth
        placement.pixelHeight).mapError AppError.artifact
      (library.encodeSixel resized placement.pixelWidth.toNat placement.pixelHeight.toNat).mapError
        AppError.sixelEncoding

/-- The bytes that remove the image again. -/
def imageDelete (imageNumber : UInt32) (renderer : Renderer) (transport : TransportKind) : Bytes :=
  if renderer = .kgp then transportPayload transport (Kgp.deleteImageNumber imageNumber) else []

/-- What is drawn around an image: its position before it, and the status line after it. -/
def rasterPosition (viewport : Viewport) (placement : RasterPlacement) : Bytes :=
  Text.asBytes ("\x1b[1;" ++ Nat.repr (placementLeft viewport placement) ++ "H")

def rasterStatus (path : PathBuf) (viewport : Viewport) (renderer : Renderer) : Bytes :=
  let label := safeLabel path (saturatingSub viewport.columns 20)
  Text.asBytes ("\x1b[" ++ Nat.repr viewport.rows.toNat ++ ";1H\x1b[2K\x1b[2m " ++ label ++ "  " ++
    renderer.backend ++ "  q/Esc: close\x1b[0m")

/-- Where a key takes the pager; nothing where it closes it. -/
def nextOffset (pageRows lineCount offset : ℕ) (key : UInt8) : Option ℕ :=
  if key = ascii 'q' ∨ key = ESC then none
  else if key = ascii ' ' ∨ key = ascii 'j' then some (min (offset + pageRows) (lineCount - 1))
  else if key = ascii 'k' then some (offset - pageRows)
  else if key = ascii 'g' then some 0
  else if key = ascii 'G' then some (lineCount - pageRows)
  else some offset

namespace Calls

variable {τ : Type}

/-! ### The screen -/

/-- `ScreenGuard::restore`. -/
def restoreScreen (imageDelete : Bytes) : TtyProg τ Unit := do
  writeAll .restore imageDelete
  writeAll .restore leaveSequence
  flush .restore

/-- The alternate screen: what `ScreenGuard::enter` writes, the program on the screen, and its
explicit restoration. -/
def onScreen (imageDelete : Bytes) (body : TtyProg τ Unit) : TtyProg τ Unit := do
  writeAll .enter enterSequence
  flush .enter
  -- `Drop for ScreenGuard` restores what has not been restored
  Prog.onFailure (do body; restoreScreen imageDelete) (restoreScreen imageDelete).ignored

/-- **The screen guard**: the alternate screen in raw mode. -/
def withScreen (makeRaw : τ → τ) (imageDelete : Bytes) (body : TtyProg τ Unit) : TtyProg τ Unit :=
  withRawMode makeRaw (onScreen imageDelete body)

/-- The instant at which a preview closes by itself. -/
def closeDeadline (exitAfterMs : Option UInt64) : TtyProg τ (Option ℕ) :=
  match exitAfterMs with
  | none => pure none
  | some milliseconds => do
      let now ← sys .instantNow
      pure (checkedAdd now (fromMillis milliseconds.toNat))

/-- Whether that instant has come. -/
def expired (deadline : Option ℕ) : TtyProg τ Bool :=
  match deadline with
  | none => pure false
  | some deadline => do
      let now ← sys .instantNow
      pure (decide (deadline ≤ now))

/-- **Wait for a key**, for some turns. -/
def readKey (deadline : Option ℕ) : ℕ → TtyProg τ (Option UInt8)
  | 0 => Prog.unfinished
  | turns + 1 => do
      if ← expired deadline then pure none
      else
        match ← sys (.poll INPUT_POLL_MS) with
        | .ok 0 => readKey deadline turns
        | .error .EINTR => readKey deadline turns
        | .error error => Prog.fail (.terminal error)
        | .ok _ => do
            let bytes ← read 32
            pure bytes.head?

/-- The pager: draw a page, and wait for a key. -/
def pagerLoop (turns : ℕ) (deadline : Option ℕ) (label : String) (lines : List String)
    (rows : UInt16) (pageRows : ℕ) : ℕ → ℕ → TtyProg τ Unit
  | 0, _ => Prog.unfinished
  | pages + 1, offset => do
      writeAll .body (renderTextPage label lines offset rows)
      flush .body
      match ← readKey deadline turns with
      | none => pure ()
      | some key =>
          match nextOffset pageRows lines.length offset key with
          | none => pure ()
          | some offset => pagerLoop turns deadline label lines rows pageRows pages offset

/-- What the preview of a text does on the screen. -/
def pageText (turns : ℕ) (args : ScreenArgs) (path : PathBuf) (text : String)
    (viewport : Viewport) : TtyProg τ Unit := do
  let label := safeLabel path (saturatingSub viewport.columns 2)
  let lines := wrappedTextLines text viewport.columns
  let pageRows := max (saturatingSub viewport.rows 2).toNat 1
  let deadline ← closeDeadline args.exitAfterMs
  pagerLoop turns deadline label lines viewport.rows pageRows turns 0

/-- **The preview of a text.** -/
def showText (makeRaw : τ → τ) (turns : ℕ) (args : ScreenArgs) (path : PathBuf) (text : String)
    (viewport : Viewport) : TtyProg τ Unit := do
  openTty args.tty
  withScreen makeRaw [] (pageText turns args path text viewport)

/-- The keys that do not close the preview of an image are ignored. -/
def rasterLoop (turns : ℕ) (deadline : Option ℕ) : ℕ → TtyProg τ Unit
  | 0 => Prog.unfinished
  | keys + 1 => do
      match ← readKey deadline turns with
      | none => pure ()
      | some key =>
          if key = ascii 'q' ∨ key = ESC then pure () else rasterLoop turns deadline keys

/-- What the preview of an image does on the screen. -/
def drawRaster (turns : ℕ) (args : ScreenArgs) (path : PathBuf) (viewport : Viewport)
    (placement : RasterPlacement) (renderer : Renderer) (wireImage : Bytes) : TtyProg τ Unit := do
  writeAll .body (rasterPosition viewport placement)
  writeAll .body wireImage
  writeAll .body (rasterStatus path viewport renderer)
  flush .body
  let deadline ← closeDeadline args.exitAfterMs
  rasterLoop turns deadline turns

/-- **The preview of an image.** -/
def showRaster (makeRaw : τ → τ) (turns : ℕ) (library : ImageLibrary) (args : ScreenArgs)
    (path : PathBuf) (artifact : RasterArtifact) (viewport : Viewport) (renderer : Renderer)
    (transport : TransportKind) : TtyProg τ Unit := do
  let placement ← Prog.ofExcept ((fitRaster artifact.width artifact.height viewport
    rasterReservedRows).mapError AppError.artifact)
  let imageNumber := imageNumberOf args.processId
  let image ← Prog.ofExcept (logicalImage library imageNumber artifact placement renderer)
  openTty args.tty
  withScreen makeRaw (imageDelete imageNumber renderer transport)
    (drawRaster turns args path viewport placement renderer (transportPayload transport image))

/-! ### Drawing and waiting change nothing -/

section Quiet

variable {allowed : Bytes → Prop}

theorem quiet_closeDeadline {exitAfterMs : Option UInt64} :
    Every (Quiet allowed) (closeDeadline exitAfterMs : TtyProg τ (Option ℕ)) := by
  cases exitAfterMs with
  | none => exact Every.pure
  | some milliseconds => exact Every.bind (Every.sys fun _ => trivial) fun _ => Every.pure

theorem quiet_expired {deadline : Option ℕ} :
    Every (Quiet allowed) (expired deadline : TtyProg τ Bool) := by
  cases deadline with
  | none => exact Every.pure
  | some deadline => exact Every.bind (Every.sys fun _ => trivial) fun _ => Every.pure

theorem quiet_readKey {deadline : Option ℕ} {turns : ℕ} :
    Every (Quiet allowed) (readKey deadline turns : TtyProg τ (Option UInt8)) := by
  induction turns with
  | zero => exact Every.unfinished
  | succ turns ih =>
      rw [readKey]
      refine Every.bind quiet_expired fun isExpired => ?_
      split
      · exact Every.pure
      refine Every.bind (Every.sys fun _ => trivial) fun polled => ?_
      split
      · exact ih
      · exact ih
      · exact Every.fail
      · exact Every.bind quiet_read fun _ => Every.pure

theorem quiet_pagerLoop {turns pages pageRows offset : ℕ} {deadline : Option ℕ} {label : String}
    {lines : List String} {rows : UInt16}
    (h : ∀ offset, allowed (renderTextPage label lines offset rows)) :
    Every (Quiet allowed) (pagerLoop turns deadline label lines rows pageRows pages offset :
      TtyProg τ Unit) := by
  induction pages generalizing offset with
  | zero => exact Every.unfinished
  | succ pages ih =>
      rw [pagerLoop]
      refine Every.bind (quiet_writeAll (h offset)) fun _ => ?_
      refine Every.bind quiet_flush fun _ => ?_
      refine Every.bind quiet_readKey fun key => ?_
      split
      · exact Every.pure
      · split
        · exact Every.pure
        · exact ih

theorem quiet_rasterLoop {turns keys : ℕ} {deadline : Option ℕ} :
    Every (Quiet allowed) (rasterLoop turns deadline keys : TtyProg τ Unit) := by
  induction keys with
  | zero => exact Every.unfinished
  | succ keys ih =>
      rw [rasterLoop]
      refine Every.bind quiet_readKey fun key => ?_
      split
      · exact Every.pure
      · split
        · exact Every.pure
        · exact ih

/-- The preview of a text writes its pages. -/
theorem quiet_pageText {turns : ℕ} {args : ScreenArgs} {path : PathBuf} {text : String}
    {viewport : Viewport}
    (h : ∀ offset, allowed (renderTextPage (safeLabel path (saturatingSub viewport.columns 2))
      (wrappedTextLines text viewport.columns) offset viewport.rows)) :
    Every (Quiet allowed) (pageText turns args path text viewport : TtyProg τ Unit) :=
  Every.bind quiet_closeDeadline fun _ => quiet_pagerLoop h

/-- The preview of an image writes its image, and what stands around it. -/
theorem quiet_drawRaster {turns : ℕ} {args : ScreenArgs} {path : PathBuf} {viewport : Viewport}
    {placement : RasterPlacement} {renderer : Renderer} {wireImage : Bytes}
    (hposition : allowed (rasterPosition viewport placement)) (himage : allowed wireImage)
    (hstatus : allowed (rasterStatus path viewport renderer)) :
    Every (Quiet allowed)
      (drawRaster turns args path viewport placement renderer wireImage : TtyProg τ Unit) := by
  refine Every.bind (quiet_writeAll hposition) fun _ => ?_
  refine Every.bind (quiet_writeAll himage) fun _ => ?_
  refine Every.bind (quiet_writeAll hstatus) fun _ => ?_
  refine Every.bind quiet_flush fun _ => ?_
  exact Every.bind quiet_closeDeadline fun _ => quiet_rasterLoop

end Quiet

end Calls

/-! ### When the terminal is restored -/

/-- A restoring call that fails. -/
inductive RestoreFailed {τ : Type} : TtyEvent τ → Prop
  | tcsetattr (termios : τ) (error : Errno) :
      RestoreFailed ⟨.tcsetattr .restore termios, .error error⟩
  | writeAll (bytes : Bytes) (failure : WriteFailure bytes) :
      RestoreFailed ⟨.writeAll .restore bytes, .error failure⟩
  | flush (error : String) : RestoreFailed ⟨.flush .restore, .error error⟩

/-- The enter sequence is written at least as far as the switch to the alternate screen; it hides
the cursor only after that. -/
def Switches {τ : Type} : TtyEvent τ → Prop
  | ⟨.writeAll .enter _, answer⟩ => switchSequence <+: acceptedBytes answer
  | _ => False

/-- The screen has been left if it was entered. -/
def ScreenLeft {τ : Type} (events : List (TtyEvent τ)) (t : TtyState τ) : Prop :=
  (∃ e ∈ events, Switches e) → t.alternate = false ∧ t.cursorHidden = false

/-- **The terminal is as it was**: its attributes are, and its screen has been left. -/
structure Restored {τ : Type} (s : TtyState τ) (events : List (TtyEvent τ)) (t : TtyState τ) :
    Prop where
  termios : t.termios = s.termios
  screen : ScreenLeft events t

/-- A call that fails after a change of the terminal and before its guard. -/
inductive Unguarded {τ : Type} (makeRaw : τ → τ) (original : τ) : TtyEvent τ → Prop
  /-- The attributes have been changed, and the guard has no handle. -/
  | tryClone (error : String) : makeRaw original ≠ original →
      Unguarded makeRaw original ⟨.tryClone, .error error⟩
  /-- The screen has been switched by a part of the sequence. -/
  | writeAll (bytes : Bytes) (failure : WriteFailure bytes) :
      switchSequence <+: bytes.take failure.accepted →
        Unguarded makeRaw original ⟨.writeAll .enter bytes, .error failure⟩
  /-- The screen has been switched. -/
  | flush (error : String) : Unguarded makeRaw original ⟨.flush .enter, .error error⟩

section Restored

variable {τ : Type} {makeRaw : τ → τ} {s t : TtyState τ} {events : List (TtyEvent τ)}

theorem not_switches_of_quiet {e : TtyEvent τ} {allowed : Bytes → Prop} (h : Quiet allowed e) :
    ¬ Switches e := by
  obtain ⟨op, answer⟩ := e
  cases op with
  | writeAll site bytes =>
      obtain rfl := h.1
      exact not_false
  | _ => exact not_false

theorem not_unguarded_of_quiet {e : TtyEvent τ} {original : τ} {allowed : Bytes → Prop}
    (h : Quiet allowed e) : ¬ Unguarded makeRaw original e := by
  intro hun
  cases hun with
  | tryClone error hraw => exact h
  | writeAll bytes failure hswitch => cases h.1
  | flush error => cases h

/-- Quiet calls restore nothing, and there is nothing to restore. -/
theorem restored_iff_of_quiet (hrun : (ttyDevice τ).Run s events t)
    {allowed : Bytes → Prop} (hquiet : ∀ e ∈ events, Quiet allowed e) :
    Restored s events t ↔ ∀ e ∈ events, ¬ Unguarded makeRaw s.termios e := by
  obtain rfl := eq_of_quiet hrun hquiet
  refine iff_of_true ⟨rfl, ?_⟩ fun e hmem => not_unguarded_of_quiet (hquiet e hmem)
  rintro ⟨e, hmem, hswitches⟩
  exact absurd hswitches (not_switches_of_quiet (hquiet e hmem))

theorem restored_iff_of_nil (hrun : (ttyDevice τ).Run s [] t) :
    Restored s [] t ↔ ∀ e ∈ [], ¬ Unguarded makeRaw s.termios e := by
  have hquiet : ∀ e ∈ ([] : List (TtyEvent τ)), Quiet (fun _ => True) e := by simp
  exact restored_iff_of_quiet hrun hquiet

/-- A quiet call before the others does not matter. -/
theorem restored_cons_iff {e : TtyEvent τ} {allowed : Bytes → Prop} (h : Quiet allowed e)
    (hrest : Restored s events t ↔ ∀ d ∈ events, ¬ Unguarded makeRaw s.termios d) :
    Restored s (e :: events) t ↔ ∀ d ∈ e :: events, ¬ Unguarded makeRaw s.termios d := by
  rw [List.forall_mem_cons, ← hrest]
  have hscreen : ScreenLeft (e :: events) t ↔ ScreenLeft events t := by
    simp only [ScreenLeft, List.exists_mem_cons_iff, not_switches_of_quiet h, false_or]
  constructor
  · intro hrestored
    exact ⟨not_unguarded_of_quiet h, hrestored.termios, hscreen.1 hrestored.screen⟩
  · rintro ⟨-, hrestored⟩
    exact ⟨hrestored.termios, hscreen.2 hrestored.screen⟩

/-- The device after raw mode was entered. -/
theorem run_rawModeCalls {original : τ} {rest : List (TtyEvent τ)}
    (h : (ttyDevice τ).Run s (Calls.rawModeCalls makeRaw original ++ rest) t) :
    original = s.termios ∧ (ttyDevice τ).Run { s with termios := makeRaw s.termios } rest t := by
  obtain ⟨hread, h⟩ := ttyDevice_run_cons_iff.1 h
  obtain rfl := hread original rfl
  obtain ⟨-, h⟩ := ttyDevice_run_cons_iff.1 h
  obtain ⟨-, h⟩ := ttyDevice_run_cons_iff.1 h
  exact ⟨rfl, h⟩

/-- No call that enters raw mode is unguarded or switches the screen. -/
theorem rawModeCalls_guarded (original' : τ) {original : τ} {e : TtyEvent τ}
    (h : e ∈ Calls.rawModeCalls makeRaw original) :
    ¬ Unguarded makeRaw original' e ∧ ¬ Switches e := by
  simp only [Calls.rawModeCalls, List.mem_cons, List.not_mem_nil, or_false] at h
  rcases h with rfl | rfl | rfl
  · exact ⟨fun hun => (by cases hun), not_false⟩
  · exact ⟨fun hun => (by cases hun), not_false⟩
  · exact ⟨fun hun => (by cases hun), not_false⟩

/-- **Raw mode is restored** as the screen is, unless the handle for the guard is refused. -/
theorem restored_iff_of_rawMode {α : Type} {body : TtyProg τ α} {r : Except AppError α}
    (h : (Calls.withRawMode makeRaw body).Ends events r) (hrun : (ttyDevice τ).Run s events t)
    (hrestored : ∀ e ∈ events, ¬ RestoreFailed e)
    (hbody : ∀ {u v : TtyState τ} {inner : List (TtyEvent τ)}, body.Ends inner r →
      (ttyDevice τ).Run u inner v → (∀ e ∈ inner, ¬ RestoreFailed e) →
      (ScreenLeft inner v ↔ ∀ e ∈ inner, ¬ Unguarded makeRaw s.termios e)) :
    Restored s events t ↔ ∀ e ∈ events, ¬ Unguarded makeRaw s.termios e := by
  rcases Calls.withRawMode_ends h with
    ⟨hquiet, -⟩ | ⟨original, ⟨error, rfl, -⟩ | ⟨inner, answer, hinner, rfl⟩⟩
  · exact restored_iff_of_quiet hrun hquiet
  · -- the guard has no handle
    obtain ⟨rfl, hclone⟩ := run_rawModeCalls hrun
    obtain ⟨-, hnil⟩ := ttyDevice_run_cons_iff.1 hclone
    obtain rfl := ttyDevice_run_nil_iff.1 hnil
    have hscreen : ¬ ∃ e ∈ Calls.rawModeCalls makeRaw s.termios ++ [⟨.tryClone, .error error⟩],
        Switches e := by
      rintro ⟨e, hmem, hswitches⟩
      rcases List.mem_append.1 hmem with hmem | hmem
      · exact (rawModeCalls_guarded s.termios hmem).2 hswitches
      · obtain rfl := List.mem_singleton.1 hmem
        exact hswitches
    constructor
    · intro hleft e hmem hun
      rcases List.mem_append.1 hmem with hmem | hmem
      · exact (rawModeCalls_guarded _ hmem).1 hun
      · obtain rfl := List.mem_singleton.1 hmem
        cases hun with
        | tryClone error hraw => exact hraw hleft.termios
    · intro hguarded
      refine ⟨?_, fun h => absurd h hscreen⟩
      by_contra hraw
      exact hguarded _ (List.mem_append_right _ (List.mem_singleton_self _))
        (Unguarded.tryClone error hraw)
  · obtain ⟨rfl, hclone⟩ := run_rawModeCalls hrun
    obtain ⟨-, hrest⟩ := ttyDevice_run_cons_iff.1 hclone
    obtain ⟨v, hinnerRun, hlast⟩ := Lts.run_append_iff.1 hrest
    obtain ⟨-, hnil⟩ := ttyDevice_run_cons_iff.1 hlast
    obtain rfl := ttyDevice_run_nil_iff.1 hnil
    cases answer with
    | error error =>
        exact absurd (RestoreFailed.tcsetattr s.termios error) (hrestored _ (by simp))
    | ok u =>
        have hscreen := hbody hinner hinnerRun fun e hmem => hrestored e (by simp [hmem])
        -- the calls around it enter and leave raw mode
        have hothers : ∀ e ∈ Calls.rawModeCalls makeRaw s.termios ++ ⟨.tryClone, .ok ()⟩ ::
            (inner ++ [⟨.tcsetattr .restore s.termios, .ok u⟩]),
            e ∈ inner ∨ ¬ Unguarded makeRaw s.termios e ∧ ¬ Switches e := by
          intro e hmem
          simp only [List.mem_append, List.mem_cons, List.not_mem_nil, or_false] at hmem
          rcases hmem with hmem | rfl | hmem | rfl
          · exact Or.inr (rawModeCalls_guarded _ hmem)
          · exact Or.inr ⟨fun hun => (by cases hun), not_false⟩
          · exact Or.inl hmem
          · exact Or.inr ⟨fun hun => (by cases hun), not_false⟩
        constructor
        · intro hleft e hmem
          rcases hothers e hmem with hmem | hother
          · refine hscreen.1 ?_ e hmem
            rintro ⟨e', hmem', hswitches⟩
            exact hleft.screen ⟨e', by simp [hmem'], hswitches⟩
          · exact hother.1
        · intro hguarded
          refine ⟨rfl, ?_⟩
          rintro ⟨e, hmem, hswitches⟩
          rcases hothers e hmem with hmem | hother
          · exact hscreen.2 (fun e' hmem' => hguarded e' (by simp [hmem'])) ⟨e, hmem, hswitches⟩
          · exact absurd hswitches hother.2

/-- The calls of `restoreScreen` when they all succeed. -/
def restoreCalls (imageDelete : Bytes) : List (TtyEvent τ) :=
  [⟨.writeAll .restore imageDelete, .ok ()⟩, ⟨.writeAll .restore leaveSequence, .ok ()⟩,
    ⟨.flush .restore, .ok ()⟩]

theorem restoreScreen_ends {imageDelete : Bytes} {r : Except AppError Unit}
    (h : (Calls.restoreScreen imageDelete).Ends events r)
    (hrestored : ∀ e ∈ events, ¬ RestoreFailed e) :
    events = restoreCalls imageDelete ∧ r = .ok () := by
  rcases Calls.sys_mapError_bind_ends h with ⟨_, failure, rfl, rfl, -⟩ | ⟨_, u, e₁, rfl, rfl, h₁⟩
  · exact absurd (RestoreFailed.writeAll _ failure) (hrestored _ (by simp))
  rcases Calls.sys_mapError_bind_ends h₁ with ⟨_, failure, rfl, rfl, -⟩ | ⟨_, u, e₂, rfl, rfl, h₂⟩
  · exact absurd (RestoreFailed.writeAll _ failure) (hrestored _ (by simp))
  obtain ⟨answer, rfl, rfl⟩ := Calls.sys_mapError_ends_iff.1 h₂
  cases answer with
  | error error => exact absurd (RestoreFailed.flush error) (hrestored _ (by simp))
  | ok u => exact ⟨rfl, rfl⟩

/-- What follows once the screen was entered: drawing, and the restoration. -/
theorem drawing_ends {imageDelete : Bytes} {body : TtyProg τ Unit} {r : Except AppError Unit}
    (h : (Prog.onFailure (do body; Calls.restoreScreen imageDelete)
      (Calls.restoreScreen imageDelete).ignored).Ends events r)
    (hrestored : ∀ e ∈ events, ¬ RestoreFailed e) :
    ∃ drawn r', body.Ends drawn r' ∧ events = drawn ++ restoreCalls imageDelete := by
  rcases Prog.onFailure_ends_iff.1 h with
    ⟨u, hbody, -⟩ | ⟨e₁, error, e₂, r₂, hbody, hdrop, rfl, -⟩
  · rcases Prog.bind_ends_iff.1 hbody with ⟨error, -, hr⟩ | ⟨drawn, u, e₂, hdrawn, hrestore, rfl⟩
    · cases hr
    · obtain ⟨rfl, -⟩ := restoreScreen_ends hrestore fun e hmem => hrestored e (by simp [hmem])
      exact ⟨drawn, _, hdrawn, rfl⟩
  · obtain ⟨r₃, hdropped, -⟩ := Prog.ignored_ends_iff.1 hdrop
    obtain ⟨rfl, -⟩ := restoreScreen_ends hdropped fun e hmem => hrestored e (by simp [hmem])
    rcases Prog.bind_ends_iff.1 hbody with ⟨error', hdrawn, -⟩ | ⟨drawn, u, e₂, -, hrestore, rfl⟩
    · exact ⟨e₁, _, hdrawn, rfl⟩
    · -- the explicit restoration does not fail
      obtain ⟨-, hr⟩ := restoreScreen_ends hrestore fun e hmem => hrestored e (by simp [hmem])
      cases hr

/-- The restoration leaves the screen. -/
theorem screen_of_restoreCalls {imageDelete : Bytes}
    (h : (ttyDevice τ).Run s (restoreCalls imageDelete) t) :
    t.alternate = false ∧ t.cursorHidden = false := by
  obtain ⟨-, h₁⟩ := ttyDevice_run_cons_iff.1 h
  obtain ⟨-, h₂⟩ := ttyDevice_run_cons_iff.1 h₁
  obtain ⟨-, h₃⟩ := ttyDevice_run_cons_iff.1 h₂
  obtain rfl := ttyDevice_run_nil_iff.1 h₃
  have hleave : leaveSequence <+: leaveSequence := List.prefix_rfl
  have hshow : showSequence <+: leaveSequence := by decide
  constructor
  · change (_ && !decide (leaveSequence <+: leaveSequence)) = false
    rw [decide_eq_true hleave, Bool.not_true, Bool.and_false]
  · change (_ && !decide (showSequence <+: leaveSequence)) = false
    rw [decide_eq_true hshow, Bool.not_true, Bool.and_false]

/-- **The screen is left** where it was entered, unless entering it fails after the switch. -/
theorem screenLeft_iff {imageDelete : Bytes} {body : TtyProg τ Unit} {r : Except AppError Unit}
    {original : τ} (hquiet : Calls.Every (Quiet fun _ => True) body)
    (h : (Calls.onScreen imageDelete body).Ends events r) (hrun : (ttyDevice τ).Run s events t)
    (hrestored : ∀ e ∈ events, ¬ RestoreFailed e) :
    ScreenLeft events t ↔ ∀ e ∈ events, ¬ Unguarded makeRaw original e := by
  have hwhole : switchSequence <+: enterSequence := by decide
  rcases Calls.sys_mapError_bind_ends h with ⟨_, failure, rfl, rfl, -⟩ | ⟨_, u, e₁, rfl, rfl, h₁⟩
  · -- the sequence was accepted in part
    obtain ⟨-, hnil⟩ := ttyDevice_run_cons_iff.1 hrun
    obtain rfl := ttyDevice_run_nil_iff.1 hnil
    by_cases hswitch : switchSequence <+: enterSequence.take failure.accepted
    · refine iff_of_false (fun hleft => ?_) fun hguarded => ?_
      · have hstate := (hleft ⟨_, List.mem_singleton_self _, hswitch⟩).1
        simp [TtyState.after, TtyState.accept, acceptedBytes, hswitch] at hstate
      · exact hguarded _ (List.mem_singleton_self _) (Unguarded.writeAll _ failure hswitch)
    · refine iff_of_true ?_ fun e hmem hun => ?_
      · rintro ⟨e, hmem, hswitches⟩
        obtain rfl := List.mem_singleton.1 hmem
        exact absurd hswitches hswitch
      · obtain rfl := List.mem_singleton.1 hmem
        cases hun with
        | writeAll bytes failure hswitched => exact hswitch hswitched
  rcases Calls.sys_mapError_bind_ends h₁ with ⟨_, error, rfl, rfl, -⟩ | ⟨_, u', e₂, rfl, rfl, h₂⟩
  · obtain ⟨-, hflush⟩ := ttyDevice_run_cons_iff.1 hrun
    obtain ⟨-, hnil⟩ := ttyDevice_run_cons_iff.1 hflush
    obtain rfl := ttyDevice_run_nil_iff.1 hnil
    refine iff_of_false (fun hleft => ?_) fun hguarded => ?_
    · have hstate := (hleft ⟨_, List.mem_cons_self, hwhole⟩).1
      simp [TtyState.after, TtyState.accept, acceptedBytes, hwhole] at hstate
    · exact hguarded _ (by simp) (Unguarded.flush error)
  obtain ⟨-, hflush⟩ := ttyDevice_run_cons_iff.1 hrun
  obtain ⟨-, hdraw⟩ := ttyDevice_run_cons_iff.1 hflush
  obtain ⟨drawn, r', hdrawn, rfl⟩ := drawing_ends h₂ fun e hmem => hrestored e (by simp [hmem])
  obtain ⟨v, -, hrestore⟩ := Lts.run_append_iff.1 hdraw
  have hdrawnQuiet := hquiet.of_reaches hdrawn
  refine iff_of_true (fun _ => screen_of_restoreCalls hrestore) fun e hmem => ?_
  simp only [List.mem_cons, List.mem_append, restoreCalls, List.not_mem_nil, or_false] at hmem
  rcases hmem with rfl | rfl | hmem | rfl | rfl | rfl
  · intro hun
    cases hun
  · intro hun
    cases hun
  · exact not_unguarded_of_quiet (hdrawnQuiet e hmem)
  · intro hun
    cases hun
  · intro hun
    cases hun
  · intro hun
    cases hun

/-- The terminal is opened first. -/
theorem restored_iff_of_openTty {α : Type} {path : Bytes} {x : TtyProg τ α} {r : Except AppError α}
    (h : (do Calls.openTty path; x).Ends events r) (hrun : (ttyDevice τ).Run s events t)
    (hrestored : ∀ e ∈ events, ¬ RestoreFailed e)
    (hx : ∀ {rest : List (TtyEvent τ)}, x.Ends rest r → (ttyDevice τ).Run s rest t →
      (∀ e ∈ rest, ¬ RestoreFailed e) →
      (Restored s rest t ↔ ∀ e ∈ rest, ¬ Unguarded makeRaw s.termios e)) :
    Restored s events t ↔ ∀ e ∈ events, ¬ Unguarded makeRaw s.termios e := by
  rcases Calls.sys_mapError_bind_ends h with
    ⟨answer, error, -, rfl, -⟩ | ⟨answer, u, rest, -, rfl, hrest⟩
  · have hquiet : ∀ e ∈ [(⟨.openTty path, answer⟩ : TtyEvent τ)], Quiet (fun _ => True) e := by
      intro e hmem
      obtain rfl := List.mem_singleton.1 hmem
      trivial
    exact restored_iff_of_quiet hrun hquiet
  · obtain ⟨-, hrestRun⟩ := ttyDevice_run_cons_iff.1 hrun
    have hopen : Quiet (fun _ => True) (⟨.openTty path, answer⟩ : TtyEvent τ) := trivial
    exact restored_cons_iff hopen
      (hx hrest hrestRun fun e hmem => hrestored e (List.mem_cons_of_mem _ hmem))

end Restored

/-! ### The commands -/

/-- The calls that take over the terminal: an exchange, and the preview of a text or an image. -/
inductive TerminalCommand
  | exchange (ttyPath request : Bytes) (timeout maxResponseBytes : ℕ)
      (stopWhen : Bytes → Option StopReason)
  | text (args : ScreenArgs) (path : PathBuf) (content : String) (viewport : Viewport)
  | raster (library : ImageLibrary) (args : ScreenArgs) (path : PathBuf)
      (artifact : RasterArtifact) (viewport : Viewport) (renderer : Renderer)
      (transport : TransportKind)

/-- The program of a command; what an exchange returns is left out. -/
def TerminalCommand.program {τ : Type} (makeRaw : τ → τ) (turns : ℕ) :
    TerminalCommand → TtyProg τ Unit
  | exchange ttyPath request timeout maxResponseBytes stopWhen => do
      let _ ← Calls.executeTtyExchange makeRaw turns ttyPath request timeout maxResponseBytes
        stopWhen
  | text args path content viewport => Calls.showText makeRaw turns args path content viewport
  | raster library args path artifact viewport renderer transport =>
      Calls.showRaster makeRaw turns library args path artifact viewport renderer transport

/-- **When the terminal is restored**: a command that has returned or failed leaves the terminal as
it was, provided that the restoring calls succeed, exactly when no call failed between a change of
the terminal and the guard for it. -/
theorem terminal_restored_iff {τ : Type} (makeRaw : τ → τ) (turns : ℕ) (command : TerminalCommand)
    (events : List (TtyEvent τ)) (r : Except AppError Unit) (s t : TtyState τ)
    (h : (command.program makeRaw turns).Ends events r) (hrun : (ttyDevice τ).Run s events t)
    (hrestored : ∀ e ∈ events, ¬ RestoreFailed e) :
    Restored s events t ↔ ∀ e ∈ events, ¬ Unguarded makeRaw s.termios e := by
  cases command with
  | exchange ttyPath request timeout maxResponseBytes stopWhen =>
      obtain ⟨r', hexchange⟩ : ∃ r', (Calls.executeTtyExchange makeRaw turns ttyPath request timeout
          maxResponseBytes stopWhen).Ends events r' := by
        rcases Prog.bind_ends_iff.1 h with ⟨error, hx, -⟩ | ⟨e₁, a, e₂, hx, hret, rfl⟩
        · exact ⟨_, hx⟩
        · obtain ⟨rfl, -⟩ := Prog.ret_ends_iff.1 hret
          exact ⟨_, by rwa [List.append_nil]⟩
      rw [Calls.executeTtyExchange] at hexchange
      have hnothing : ∀ error : AppError,
          (Prog.fail error : TtyProg τ LiveExchange).Ends events r' →
          (Restored s events t ↔ ∀ e ∈ events, ¬ Unguarded makeRaw s.termios e) := by
        intro error hfail
        obtain ⟨rfl, -⟩ := Prog.fail_ends_iff.1 hfail
        exact restored_iff_of_nil hrun
      split_ifs at hexchange with htimeout hmax
      · exact hnothing _ hexchange
      · exact hnothing _ hexchange
      refine restored_iff_of_openTty hexchange hrun hrestored fun hraw hrawRun hrawRestored => ?_
      refine restored_iff_of_rawMode hraw hrawRun hrawRestored fun hinner hinnerRun _ => ?_
      have hquiet : ∀ e ∈ _, Quiet (fun _ => True) e :=
        (Calls.quiet_exchangeInRawMode trivial).of_reaches hinner
      refine iff_of_true ?_ fun e hmem => not_unguarded_of_quiet (hquiet e hmem)
      rintro ⟨e, hmem, hswitches⟩
      exact absurd hswitches (not_switches_of_quiet (hquiet e hmem))
  | text args path content viewport =>
      refine restored_iff_of_openTty h hrun hrestored fun hraw hrawRun hrawRestored => ?_
      refine restored_iff_of_rawMode hraw hrawRun hrawRestored fun hinner hinnerRun hkept => ?_
      refine screenLeft_iff ?_ hinner hinnerRun hkept
      exact Calls.quiet_pageText fun _ => trivial
  | raster library args path artifact viewport renderer transport =>
      rcases Prog.ofExcept_bind_ends h with rfl | ⟨placement, -, hplaced⟩
      · exact restored_iff_of_nil hrun
      rcases Prog.ofExcept_bind_ends hplaced with rfl | ⟨image, -, himage⟩
      · exact restored_iff_of_nil hrun
      refine restored_iff_of_openTty himage hrun hrestored fun hraw hrawRun hrawRestored => ?_
      refine restored_iff_of_rawMode hraw hrawRun hrawRestored fun hinner hinnerRun hkept => ?_
      refine screenLeft_iff ?_ hinner hinnerRun hkept
      exact Calls.quiet_drawRaster trivial trivial trivial

/-! ### Runs of a concrete terminal -/

/-- A terminal whose attributes are whether it is raw, before a command. -/
def cookedTty : TtyState Bool := ⟨false, false, false⟩

/-- A short exchange. -/
def sampleExchange : TerminalCommand := .exchange [] [] 1 1 fun _ => none

/-- The exchange times out. -/
def timedOutCalls : List (TtyEvent Bool) :=
  ⟨.openTty [], .ok ()⟩ :: Calls.rawModeCalls (fun _ => true) false ++
    [⟨.tryClone, .ok ()⟩, ⟨.writeAll .body [], .ok ()⟩, ⟨.flush .body, .ok ()⟩, ⟨.instantNow, 0⟩,
      ⟨.instantNow, 2⟩, ⟨.instantNow, 2⟩, ⟨.tcsetattr .restore false, .ok ()⟩]

/-- The raw mode of an exchange that times out is restored. -/
theorem terminal_restored_iff_timeout : Restored cookedTty timedOutCalls cookedTty := by
  have hends : (sampleExchange.program (fun _ => true) 1).Ends timedOutCalls (.ok ()) :=
    .perform (.perform (.perform (.perform (.perform (.perform (.perform (.perform (.perform
      (.perform (.perform (.here _)))))))))))
  have hrun : (ttyDevice Bool).Run cookedTty timedOutCalls cookedTty := by
    simp only [timedOutCalls, Calls.rawModeCalls, List.cons_append, List.nil_append,
      ttyDevice_run_cons_iff, ttyDevice_run_nil_iff]
    simp [TtyState.after, TtyState.accept, cookedTty]
  refine (terminal_restored_iff (fun _ => true) 1 sampleExchange timedOutCalls (.ok ()) cookedTty
    cookedTty hends hrun ?_).2 ?_
  · intro e hmem hfailed
    cases hfailed <;> simp [timedOutCalls, Calls.rawModeCalls] at hmem
  · intro e hmem hun
    cases hun <;> simp [timedOutCalls, Calls.rawModeCalls] at hmem

/-- The handle for the guard of the exchange is refused. -/
def refusedCalls : List (TtyEvent Bool) :=
  ⟨.openTty [], .ok ()⟩ :: Calls.rawModeCalls (fun _ => true) false ++
    [⟨.tryClone, .error "too many open files"⟩]

/-- The preview of a text. -/
def sampleText : TerminalCommand := .text ⟨[], none, 1⟩ [] "" ⟨80, 24, none, none⟩

/-- The preview fails after the switch to the alternate screen was accepted. -/
def cutOffCalls : List (TtyEvent Bool) :=
  ⟨.openTty [], .ok ()⟩ :: Calls.rawModeCalls (fun _ => true) false ++
    [⟨.tryClone, .ok ()⟩,
      ⟨.writeAll .enter enterSequence, .error ⟨"input/output error", ⟨8, by decide⟩⟩⟩,
      ⟨.tcsetattr .restore false, .ok ()⟩]

/-- **The terminal stays changed**: an exchange returns with the terminal in raw mode, and a preview
returns with the terminal on the alternate screen, although every restoring call succeeds. -/
theorem terminal_not_restored :
    ((sampleExchange.program (fun _ => true) 1).Ends refusedCalls
        (.error (.io "too many open files")) ∧
      (ttyDevice Bool).Run cookedTty refusedCalls ⟨true, false, false⟩ ∧
      (∀ e ∈ refusedCalls, ¬ RestoreFailed e) ∧
      ¬ Restored cookedTty refusedCalls ⟨true, false, false⟩) ∧
    ((sampleText.program (fun _ => true) 1).Ends cutOffCalls
        (.error (.io "input/output error")) ∧
      (ttyDevice Bool).Run cookedTty cutOffCalls ⟨false, true, false⟩ ∧
      (∀ e ∈ cutOffCalls, ¬ RestoreFailed e) ∧
      ¬ Restored cookedTty cutOffCalls ⟨false, true, false⟩) := by
  refine ⟨⟨?_, ?_, ?_, ?_⟩, ?_, ?_, ?_, ?_⟩
  · exact .perform (.perform (.perform (.perform (.perform (.here _)))))
  · simp only [refusedCalls, Calls.rawModeCalls, List.cons_append, List.nil_append,
      ttyDevice_run_cons_iff, ttyDevice_run_nil_iff]
    simp [TtyState.after, cookedTty]
  · intro e hmem hfailed
    cases hfailed <;> simp [refusedCalls, Calls.rawModeCalls] at hmem
  · intro hrestored
    cases hrestored.termios
  · exact .perform (.perform (.perform (.perform (.perform (.perform (.perform (.here _)))))))
  · have hswitch : switchSequence <+: enterSequence.take 8 := by decide
    have hcut : ¬ enterSequence <+: enterSequence.take 8 := by decide
    simp only [cutOffCalls, Calls.rawModeCalls, List.cons_append, List.nil_append,
      ttyDevice_run_cons_iff, ttyDevice_run_nil_iff]
    simp [TtyState.after, TtyState.accept, acceptedBytes, cookedTty, hswitch, hcut]
  · intro e hmem hfailed
    cases hfailed <;> simp [cutOffCalls, Calls.rawModeCalls] at hmem
  · intro hrestored
    have hswitches : ∃ e ∈ cutOffCalls, Switches e :=
      ⟨⟨.writeAll .enter enterSequence, .error ⟨"input/output error", ⟨8, by decide⟩⟩⟩,
        by simp [cutOffCalls], show switchSequence <+: enterSequence.take 8 by decide⟩
    cases (hrestored.screen hswitches).1

end TermInterop
