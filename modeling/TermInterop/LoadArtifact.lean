/-
Loading the artifact of a preview.

`load_artifact` is given a path, a short reference or a URI.  A reference is resolved by the
registry that the environment names; after that the path is made canonical, opened once more and
read within the input limit, and the bytes become an image or a text.  The check of the recorded
identity and the read that feeds the renderer are separate opens of a path.

Main definitions:

* `TermInterop.Registry.discover` — the registry that the environment names;
* `TermInterop.loadArtifact` — the program.

Main results:

* `TermInterop.reading_loadArtifact` — a load only reads;
* `TermInterop.loadArtifact_returns`, `TermInterop.loadPath_returns` — **what a load has done when
  it returns**;
* `TermInterop.loadPath_ensures` — when a load returns.
-/

import TermInterop.PreviewSetup
import TermInterop.Registry

set_option relaxedAutoImplicit false
set_option autoImplicit false

namespace TermInterop

open FileSystem (Event File Fs Metadata attempt attempt_bind_returns_iff readUntilEnd)
open Registry (Reading reading_call reading_ensure reading_ofExcept reading_readUntilEnd)

/-! ### The registry of the environment -/

/-- The variables that may name a state directory. -/
structure StateVariables where
  termInteropStateDir : Option PathBuf
  xdgStateHome : Option PathBuf
  home : Option PathBuf

/-- Discover the state root from explicit or standard environment owners. -/
def Registry.discover (environment : StateVariables) : Option Registry :=
  match environment.termInteropStateDir with
  | some root => some ⟨root⟩
  | none =>
      match environment.xdgStateHome with
      | some root => some ⟨join root (Text.asBytes "terminal-interop")⟩
      | none => environment.home.map fun home =>
          ⟨join home (Text.asBytes ".local/state/terminal-interop")⟩

/-! ### Programs -/

/-- Why an artifact was not loaded: the failures of `AppError` that a load can end with. -/
inductive LoadError
  | registry (error : RegistryError)
  /-- The environment names no registry. -/
  | stateDirectoryUnavailable
  | io (kind : IoErrorKind)
  | notRegularFile (path : PathBuf)
  | previewInputLimit (actual : UInt64) (limit : ℕ)
  /-- The bytes are neither an image nor a text. -/
  | app (error : AppError)

/-- The reference that an argument is, unless it is a path. -/
def referenceOf (path : PathBuf) : Option String :=
  ((Utf8Lossy.decodeStrict path).map String.ofList).filter fun reference =>
    "@".toList <+: reference.toList ∨ ARTIFACT_REF_URI_PREFIX.toList <+: reference.toList

/-- The path that is asked for. -/
def requestedPath (lib : Libraries) (discovered : Option Registry) (fuel : ℕ) (path : PathBuf) :
    Fs LoadError PathBuf :=
  match referenceOf path with
  | some reference => do
      let registry ← Prog.ofExcept (Checks.okOr discovered .stateDirectoryUnavailable)
      if reference = "@latest" then (registry.resolveLatest lib fuel).mapError .registry
      else (registry.resolve lib fuel reference).mapError .registry
  | none => .ret path

/-- The bytes of a path within the input limit, and its canonical form. -/
def loadPath (requested : PathBuf) : Fs LoadError (PathBuf × Bytes) := do
  let canonical ← attempt (← Prog.call (.canonicalize requested)) .io
  let file ← attempt (← Prog.call (.openFile canonical)) .io
  let metadata ← attempt (← Prog.call (.metadata file)) .io
  Prog.ensure metadata.isFile (.notRegularFile canonical)
  Prog.ensure (metadata.len.toNat ≤ DEFAULT_MAX_INPUT_BYTES)
    (.previewInputLimit metadata.len DEFAULT_MAX_INPUT_BYTES)
  let bytes ← readUntilEnd file (fun read => DEFAULT_MAX_INPUT_BYTES + 1 - read) .io
    (DEFAULT_MAX_INPUT_BYTES + 2) []
  Prog.ensure (bytes.length ≤ DEFAULT_MAX_INPUT_BYTES)
    (.previewInputLimit (UInt64.ofNat bytes.length) DEFAULT_MAX_INPUT_BYTES)
  .ret (canonical, bytes)

/-- **Load an artifact** from a path, a short reference or a URI. -/
def loadArtifact (library : ImageLibrary) (lib : Libraries) (discovered : Option Registry)
    (fuel : ℕ) (path : PathBuf) : Fs LoadError (PathBuf × PreparedArtifact) := do
  let requested ← requestedPath lib discovered fuel path
  let (canonical, bytes) ← loadPath requested
  let artifact ← Prog.ofExcept (Checks.mapErr .app (prepareArtifact library bytes))
  .ret (canonical, artifact)

/-! ### What a load does -/

-- a program is looked at operation by operation, and its checks are not computed
attribute [local irreducible] parseToken Registry.resolve Registry.resolveLatest

section Load

variable {library : ImageLibrary} {lib : Libraries} {discovered : Option Registry} {fuel : ℕ}
  {path requested canonical : PathBuf} {bytes : Bytes} {events : List Event}
  {artifact : PreparedArtifact}

theorem Reading.mapError {ε δ α : Type} {x : Fs ε α} {g : ε → δ} (h : Reading x) :
    Reading (x.mapError g) := fun past => (h past).mapError

theorem reading_requestedPath : Reading (requestedPath lib discovered fuel path) := by
  rw [requestedPath]
  split
  · refine Reading.bind reading_ofExcept fun registry => ?_
    split
    · exact Reading.mapError Registry.reading_resolveLatest
    · exact Reading.mapError Registry.reading_resolve
  · exact fun _ => trivial

theorem reading_loadPath : Reading (loadPath requested) := by
  refine Reading.bind (reading_call fun _ => trivial) fun _ =>
    .bind reading_ofExcept fun canonical => ?_
  refine Reading.bind (reading_call fun _ => trivial) fun _ => .bind reading_ofExcept fun file => ?_
  refine Reading.bind (reading_call fun _ => trivial) fun _ =>
    .bind reading_ofExcept fun metadata => ?_
  refine Reading.bind reading_ensure fun _ => .bind reading_ensure fun _ => ?_
  exact .bind reading_readUntilEnd fun bytes => .bind reading_ensure fun _ _ => trivial

/-- **A load only reads.** -/
theorem reading_loadArtifact : Reading (loadArtifact library lib discovered fuel path) :=
  .bind reading_requestedPath fun _ => .bind reading_loadPath fun _ =>
    .bind reading_ofExcept fun _ _ => trivial

/-- **What a load has done when it returns**: it has found a path, and read what is prepared. -/
theorem loadArtifact_returns
    (h : (loadArtifact library lib discovered fuel path).Returns events (canonical, artifact)) :
    ∃ requested bytes e₁ e₂, events = e₁ ++ e₂ ∧
      (requestedPath lib discovered fuel path).Returns e₁ requested ∧
      (loadPath requested).Returns e₂ (canonical, bytes) ∧
      prepareArtifact library bytes = .ok artifact := by
  obtain ⟨e₁, requested, e₂, hrequested, hrest, rfl⟩ := Prog.bind_returns_iff.1 h
  obtain ⟨e₃, ⟨canonical', bytes⟩, e₄, hload, hprepare, rfl⟩ := Prog.bind_returns_iff.1 hrest
  obtain ⟨artifact', hprepared, hret⟩ := Prog.ofExcept_bind_returns_iff.1 hprepare
  obtain ⟨rfl, hresult⟩ := Prog.ret_returns_iff.1 hret
  obtain ⟨rfl, rfl⟩ := Prod.mk.inj hresult
  rw [List.append_nil]
  exact ⟨requested, bytes, e₁, e₃, rfl, hrequested, hload, Checks.mapErr_eq_ok_iff.1 hprepared⟩

/-- What has been read of a path. -/
theorem loadPath_returns (h : (loadPath requested).Returns events (canonical, bytes)) :
    ∃ file metadata reads, events = ⟨.canonicalize requested, .ok canonical⟩ ::
        ⟨.openFile canonical, .ok file⟩ :: ⟨.metadata file, .ok metadata⟩ :: reads ∧
      (readUntilEnd file (fun read => DEFAULT_MAX_INPUT_BYTES + 1 - read) LoadError.io
        (DEFAULT_MAX_INPUT_BYTES + 2) []).Returns reads bytes ∧
      metadata.isFile = true ∧ bytes.length ≤ DEFAULT_MAX_INPUT_BYTES := by
  obtain ⟨_, e₁, rfl, hcanonical⟩ := Prog.call_bind_returns_iff.1 h
  obtain ⟨canonical', rfl, hopen⟩ := attempt_bind_returns_iff.1 hcanonical
  obtain ⟨_, e₂, rfl, hopened⟩ := Prog.call_bind_returns_iff.1 hopen
  obtain ⟨file, rfl, hask⟩ := attempt_bind_returns_iff.1 hopened
  obtain ⟨_, e₃, rfl, hasked⟩ := Prog.call_bind_returns_iff.1 hask
  obtain ⟨metadata, rfl, hchecks⟩ := attempt_bind_returns_iff.1 hasked
  obtain ⟨hfile, hlimits⟩ := Prog.ensure_bind_returns_iff.1 hchecks
  obtain ⟨-, hread⟩ := Prog.ensure_bind_returns_iff.1 hlimits
  obtain ⟨reads, bytes', e₄, hreads, hlast, rfl⟩ := Prog.bind_returns_iff.1 hread
  obtain ⟨hlength, hret⟩ := Prog.ensure_bind_returns_iff.1 hlast
  obtain ⟨rfl, hresult⟩ := Prog.ret_returns_iff.1 hret
  obtain ⟨rfl, rfl⟩ := Prod.mk.inj hresult
  exact ⟨file, metadata, reads, by rw [List.append_nil], hreads, hfile, of_decide_eq_true hlength⟩

/-- **When a path is loaded**: it is its own canonical form, and names a regular file within the
limit. -/
theorem loadPath_ensures {Q : Event → Prop} {file : File} {node : FileSystem.Node}
    (hcanonical : ∀ answer, Q ⟨.canonicalize path, answer⟩ → answer = .ok path)
    (hpath : ∀ e, Q e → FileSystem.Sees path file node e) (hfile : node.metadata.isFile = true)
    (hlen : node.metadata.len.toNat ≤ DEFAULT_MAX_INPUT_BYTES)
    (hcontent : node.content.length ≤ DEFAULT_MAX_INPUT_BYTES) :
    Prog.Ensures Q (fun loaded => loaded = (path, node.content)) (loadPath path) := by
  intro answer hanswer
  obtain rfl := hcanonical answer hanswer
  refine FileSystem.ensures_openFile hpath (FileSystem.ensures_metadata hpath ?_)
  refine .bind (.ensure hfile trivial) fun _ (_ : True) => ?_
  refine .bind (.ensure (decide_eq_true hlen) trivial) fun _ (_ : True) => ?_
  refine .bind (FileSystem.readUntilEnd_ensures hpath List.nil_prefix (by simp; omega)) ?_
  rintro bytes ⟨hread, hwhole⟩
  have hlength := hread.length_le
  have hbytes : bytes = node.content := by
    refine hwhole.resolve_left fun hnone => ?_
    have hshort : DEFAULT_MAX_INPUT_BYTES + 1 - bytes.length = 0 := hnone
    omega
  rw [hbytes]
  exact .bind (.ensure (decide_eq_true hcontent) trivial) fun _ (_ : True) => rfl

/-- A reference is resolved, and the latest artifact by its pointer. -/
theorem requestedPath_returns {registry : Registry} {reference : String}
    (hreference : referenceOf path = some reference)
    (h : (requestedPath lib (some registry) fuel path).Returns events requested) :
    if reference = "@latest" then (registry.resolveLatest lib fuel).Returns events requested
    else (registry.resolve lib fuel reference).Returns events requested := by
  rw [requestedPath, hreference] at h
  obtain ⟨registry', hregistry, hrest⟩ := Prog.ofExcept_bind_returns_iff.1 h
  obtain rfl := Except.ok.inj hregistry
  split at hrest
  · rename_i hlatest
    rw [if_pos hlatest]
    exact Prog.mapError_returns_iff.1 hrest
  · rename_i hother
    rw [if_neg hother]
    exact Prog.mapError_returns_iff.1 hrest

end Load

end TermInterop
