/-
What a preview does before it takes over the screen.

The bytes of an artifact are an image or else a text.  The preview observes the viewport, with an
exchange where the terminal does not tell its pixels, and for an image it probes which renderer the
terminal offers.  Every exchange here may stop before the terminal has answered all that it was
asked.

Main definitions:

* `TermInterop.prepareArtifact` — an image or a text, from its bytes;
* `TermInterop.observeViewport`, `TermInterop.selectRenderer` — the exchanges;
* `TermInterop.setup` — all of it, up to the command that takes over the screen.

Main results:

* `TermInterop.setup_returns` — which command follows.
-/

import TermInterop.ArtifactRef
import TermInterop.Geometry
import TermInterop.Screen

set_option relaxedAutoImplicit false
set_option autoImplicit false

namespace TermInterop

/-! ### Arguments and environment -/

/-- Renderer selection for an interactive preview. -/
inductive PreviewBackend
  | auto
  | kgp
  | sixel
  deriving DecidableEq

/-- Transport selection for an interactive preview. -/
inductive PreviewTransport
  | auto
  | direct
  | tmuxPassthrough
  deriving DecidableEq

/-- The arguments of a preview, and the identity of its process. -/
structure PreviewArgs where
  path : PathBuf
  backend : PreviewBackend
  transport : PreviewTransport
  timeoutMs : UInt64
  transportTimeoutMs : UInt64
  geometryTimeoutMs : UInt64
  screen : ScreenArgs

/-- The size of a terminal as the system reports it. -/
structure WindowSize where
  columns : UInt16
  rows : UInt16
  pixelWidth : UInt16
  pixelHeight : UInt16

/-- Everything a preview is told by its environment before it takes over the screen. -/
structure PreviewEnvironment where
  opened : Except AppError Unit
  terminalSize : Option (UInt16 × UInt16)
  windowSize : Option WindowSize
  geometry : TtySession
  kgp : ProbeEnvironment
  sixel : ProbeEnvironment
  tmux : Bool

/-- The greatest size of an artifact. -/
def DEFAULT_MAX_INPUT_BYTES : ℕ := MAX_ARTIFACT_INPUT_BYTES_V1

/-- The greatest size of a text. -/
def DEFAULT_MAX_TEXT_BYTES : ℕ := 8 * 1024 * 1024

/-- The greatest size of a response. -/
def DEFAULT_MAX_RESPONSE_BYTES : ℕ := 64 * 1024

/-! ### The artifact -/

/-- What is shown. -/
inductive PreparedArtifact
  | raster (artifact : RasterArtifact)
  | text (content : String)

/-- Decode untrusted raster bytes under explicit resource limits. -/
def decodeRaster (library : ImageLibrary) (input : Bytes) : Except ArtifactError RasterArtifact :=
  if DEFAULT_MAX_INPUT_BYTES < input.length then
    .error (.inputLimit input.length DEFAULT_MAX_INPUT_BYTES)
  else library.decode input

/-- **An image, or else a text**, as `load_artifact` tells them apart. -/
def prepareArtifact (library : ImageLibrary) (bytes : Bytes) : Except AppError PreparedArtifact :=
  match decodeRaster library bytes with
  | .ok artifact => .ok (.raster artifact)
  | .error imageError =>
      match sanitizeText bytes DEFAULT_MAX_TEXT_BYTES with
      | .ok content => .ok (.text content)
      | .error _ => .error (.artifact imageError)

/-- A text is shown as it was sanitized. -/
theorem prepareArtifact_text {library : ImageLibrary} {bytes : Bytes} {content : String}
    (h : prepareArtifact library bytes = .ok (.text content)) :
    sanitizeText bytes DEFAULT_MAX_TEXT_BYTES = .ok content := by
  rw [prepareArtifact] at h
  split at h
  · cases h
  · split at h
    · rename_i content' hsanitized
      obtain rfl : content' = content := by simpa using h
      exact hsanitized
    · cases h

/-! ### The viewport -/

/-- The transport of a preview. -/
def resolvedTransport (requested : PreviewTransport) (tmux : Bool) : TransportKind :=
  match requested with
  | .auto => if tmux then .tmuxPassthrough else .direct
  | .direct => .direct
  | .tmuxPassthrough => .tmuxPassthrough

/-- The pixels that the system reports, when they belong to the size that was observed. -/
def validatedTtyPixels (columns rows : UInt16) (observed : WindowSize) :
    Option UInt32 × Option UInt32 :=
  if columns ≠ observed.columns ∨ rows ≠ observed.rows ∨ observed.pixelWidth = 0 ∨
      observed.pixelHeight = 0 then (none, none)
  else (some observed.pixelWidth.toUInt32, some observed.pixelHeight.toUInt32)

/-- **Observe the viewport.** -/
def observeViewport (b64 : Base64.Codec) (environment : PreviewEnvironment) (args : PreviewArgs)
    (transport : TransportKind) : Tty Viewport := do
  Traced.ofExcept environment.opened
  match environment.terminalSize with
  | none => Traced.fail (.terminalGeometryUnavailable args.screen.tty)
  | some (columns, rows) =>
      let pixels := (environment.windowSize.map (validatedTtyPixels columns rows)).getD (none, none)
      if pixels.1.isSome ∧ pixels.2.isSome then pure ⟨columns, rows, pixels.1, pixels.2⟩
      else do
        let wireRequest := transportPayload transport buildGeometryQuery
        let live ← executeTtyExchange environment.geometry wireRequest
          (fromMillis args.geometryTimeoutMs.toNat) DEFAULT_MAX_RESPONSE_BYTES
          (geometryStopReason b64)
        pure (viewportOfResponse b64 columns rows live.response)

/-! ### The renderer -/

/-- The arguments that the probes of a preview share. -/
def commonProbeArgs (args : PreviewArgs) (transport : TransportKind) : TtyProbeArgs :=
  { timeoutMs := args.timeoutMs
    maxResponseBytes := DEFAULT_MAX_RESPONSE_BYTES
    tty := args.screen.tty
    transport := transport
    transportTimeoutMs := args.transportTimeoutMs }

def probeKgp (b64 : Base64.Codec) (environment : PreviewEnvironment) (args : PreviewArgs)
    (transport : TransportKind) : Tty ProbeReceiptV1 :=
  kgpReceipt b64 environment.kgp
    ⟨imageNumberOf args.screen.processId, commonProbeArgs args transport⟩

def probeSixel (b64 : Base64.Codec) (environment : PreviewEnvironment) (args : PreviewArgs)
    (transport : TransportKind) : Tty ProbeReceiptV1 :=
  sixelReceipt b64 environment.sixel (commonProbeArgs args transport)

/-- The names of the variants of an assessment, as the source writes them. -/
def Availability.debug : Availability → String
  | available => "Available"
  | unavailable => "Unavailable"
  | unknown => "Unknown"

def Conformance.debug : Conformance → String
  | conformant => "Conformant"
  | nonconformant => "Nonconformant"
  | notApplicable => "NotApplicable"
  | inconclusive => "Inconclusive"

def TransportReadiness.debug : TransportReadiness → String
  | notRequired => "NotRequired"
  | ready => "Ready"
  | unknown => "Unknown"

/-- What an error says about a receipt. -/
def receiptSummary (receipt : ProbeReceiptV1) : String :=
  "availability=" ++ receipt.assessment.availability.debug ++ ", conformance=" ++
    receipt.assessment.conformance.debug ++ ", transport=" ++
    receipt.context.transport.readiness.debug

/-- **Select the renderer** by the evidence of the probes. -/
def selectRenderer (b64 : Base64.Codec) (environment : PreviewEnvironment) (args : PreviewArgs)
    (transport : TransportKind) : Tty Renderer :=
  match args.backend with
  | .kgp => do
      let kgp ← probeKgp b64 environment args transport
      if receiptIsEligible kgp then pure .kgp
      else Traced.fail (.noPixelRenderer (receiptSummary kgp) "not_probed")
  | .sixel => do
      let sixel ← probeSixel b64 environment args transport
      if receiptIsEligible sixel then pure .sixel
      else Traced.fail (.noPixelRenderer "not_probed" (receiptSummary sixel))
  | .auto => do
      let kgp ← probeKgp b64 environment args transport
      if receiptIsEligible kgp then pure .kgp
      else do
        let sixel ← probeSixel b64 environment args transport
        if receiptIsEligible sixel then pure .sixel
        else Traced.fail (.noPixelRenderer (receiptSummary kgp) (receiptSummary sixel))

/-! ### The whole setup -/

/-- **What a preview does first**: it returns the command that takes over the screen.  The artifact
has been read from its canonical path. -/
def setup (b64 : Base64.Codec) (library : ImageLibrary) (environment : PreviewEnvironment)
    (args : PreviewArgs) (path : PathBuf) (bytes : Bytes) : Tty TerminalCommand := do
  let artifact ← Traced.ofExcept (prepareArtifact library bytes)
  let transport := resolvedTransport args.transport environment.tmux
  let viewport ← observeViewport b64 environment args transport
  match artifact with
  | .text content => pure (.text args.screen path content viewport)
  | .raster raster => do
      let renderer ← selectRenderer b64 environment args transport
      pure (.raster library args.screen path raster viewport renderer transport)

/-- **Which command follows**: the preview of a sanitized text, or of an image. -/
theorem setup_returns {b64 : Base64.Codec} {library : ImageLibrary}
    {environment : PreviewEnvironment} {args : PreviewArgs} {path : PathBuf} {bytes : Bytes}
    {ops : List TtyOp} {command : TerminalCommand}
    (h : (setup b64 library environment args path bytes).Returns ops command) :
    (∃ content viewport, sanitizeText bytes DEFAULT_MAX_TEXT_BYTES = .ok content ∧
      command = .text args.screen path content viewport) ∨
    ∃ artifact viewport renderer transport,
      command = .raster library args.screen path artifact viewport renderer transport := by
  obtain ⟨_, artifact, _, hartifact, hrest, -⟩ := Traced.bind_returns_iff.1 h
  obtain ⟨-, hprepared⟩ := Traced.ofExcept_returns_iff.1 hartifact
  obtain ⟨_, viewport, _, -, hshow, -⟩ := Traced.bind_returns_iff.1 hrest
  cases artifact with
  | text content =>
      obtain ⟨-, rfl⟩ := Traced.pure_returns_iff.1 hshow
      exact Or.inl ⟨content, viewport, prepareArtifact_text hprepared, rfl⟩
  | raster artifact =>
      obtain ⟨_, renderer, _, -, hcommand, -⟩ := Traced.bind_returns_iff.1 hshow
      obtain ⟨-, rfl⟩ := Traced.pure_returns_iff.1 hcommand
      exact Or.inr ⟨artifact, viewport, renderer, _, rfl⟩

end TermInterop
