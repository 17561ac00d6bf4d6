/-
The artifact registry: registering and resolving as programs over the file system.

`Registry.register` opens a file, captures its identity, writes an entry under a fresh token, and
points `latest` at it.  `Registry.resolve` reads the entry of a token back, opens the recorded path
again and returns it when the file has the recorded identity.  Both are transcribed as programs over
`FileSystem.FsOp`, operation by operation, so that other calls and outside writers may act between
any two of them.

What lies outside of the repository is a parameter: SHA-256 is some function with values of
thirty-two bytes, and the JSON library reads back what it writes.

Main definitions:

* `TermInterop.Sha256`, `TermInterop.SerdeJson`, `TermInterop.Libraries` — the parameters;
* `TermInterop.Registry` — the registry and its paths;
* `TermInterop.Registry.register`, `TermInterop.Registry.resolve`,
  `TermInterop.Registry.resolveLatest` — the programs.

Main results:

* `TermInterop.Registry.entryPath_injective` — tokens have different entries;
* `TermInterop.Registry.decodeEntry_eq_ok_iff` — what a stored entry must satisfy;
* `TermInterop.Registry.register_returns`, `TermInterop.Registry.resolve_returns` — **what a call
  has done when it returns**;
* `TermInterop.Registry.register_always` — what a registration writes;
* `TermInterop.Registry.resolve_ensures` — when a resolution returns.
-/

import TermInterop.ArtifactRef
import TermInterop.FileSystem

set_option relaxedAutoImplicit false
set_option autoImplicit false

namespace TermInterop

open FileSystem (Event File Fs FsOp Metadata attempt attempt_bind_returns_iff readUntilEnd)

/-! ### Parameters -/

/-- SHA-256: some function with values of thirty-two bytes. -/
structure Sha256 where
  digest : Bytes → Bytes
  length_digest : ∀ bytes, (digest bytes).length = 32

/-- The bytes of all strings of an entry. -/
def ArtifactRefV1.textLength (entry : ArtifactRefV1) : ℕ :=
  (Text.asBytes entry.schema).length + (Text.asBytes entry.token).length +
    (Text.asBytes entry.pathEncoding).length + (Text.asBytes entry.pathBase64).length +
    (Text.asBytes entry.identity.contentSha256Base64).length

/-- The JSON library on entries: what it writes it reads back, and a byte of a string takes at most
six bytes. -/
structure SerdeJson where
  toVec : ArtifactRefV1 → Bytes
  fromSlice : Bytes → Option ArtifactRefV1
  fromSlice_toVec : ∀ entry, fromSlice (toVec entry) = some entry
  length_toVec_le : ∀ entry, (toVec entry).length ≤ 6 * entry.textLength + 1024

/-- The libraries that the registry uses. -/
structure Libraries where
  b64 : Base64.Codec
  sha256 : Sha256
  serdeJson : SerdeJson

/-! ### The registry and its paths -/

/-- Local artifact registry rooted in an explicit state directory. -/
structure Registry where
  root : PathBuf

namespace Registry

variable (registry : Registry)

def refsDir : PathBuf := join registry.root (Text.asBytes "refs")

def entryPath (token : String) : PathBuf := join registry.refsDir (Text.asBytes (token ++ ".json"))

def latestPath : PathBuf := join registry.root (Text.asBytes "latest")

/-! ### Programs -/

/-- The failure of an open, told apart when the file does not exist. -/
def notFoundOr (error : RegistryError) : IoErrorKind → RegistryError
  | .notFound => error
  | kind => .io kind

def ensureDirs : Fs RegistryError Unit := do
  attempt (← Prog.call (.createDirAll registry.refsDir)) .io
  attempt (← Prog.call (.setPermissions registry.root 0o700)) .io
  attempt (← Prog.call (.setPermissions registry.refsDir 0o700)) .io

def enforceArtifactLimit (actual : UInt64) : Fs RegistryError Unit :=
  Prog.ensure (actual.toNat ≤ MAX_ARTIFACT_INPUT_BYTES_V1)
    (.artifactLimit actual MAX_ARTIFACT_INPUT_BYTES_V1)

/-- `u64::try_from(elapsed.as_millis()).unwrap_or(u64::MAX)`. -/
def unixTimeMs : Fs RegistryError UInt64 := do
  let elapsed ← Prog.call .now
  let ms ← Prog.ofExcept (Checks.okOr elapsed .clockBeforeEpoch)
  .ret (UInt64.ofNat (min ms (2 ^ 64 - 1)))

/-- The modification time since the Unix epoch, when it is known and not before it. -/
def modifiedUnixNanos (metadata : Metadata) : Option (BitVec 128) := do
  let nanos ← metadata.modified
  if 0 ≤ nanos then some (BitVec.ofInt 128 nanos) else none

def fileIdentity (metadata : Metadata) (contentSha256Base64 : String) : FileIdentity where
  size := metadata.len
  modifiedUnixNanos := modifiedUnixNanos metadata
  device := some metadata.dev
  inode := some metadata.ino
  contentSha256Base64 := contentSha256Base64

/-- The encoding profile of this platform, and the bytes of a path. -/
def encodePath (path : PathBuf) : String × Bytes := ("unix-bytes-v1", path)

def decodePath (encoding : String) (bytes : Bytes) : Except RegistryError PathBuf :=
  if encoding ≠ "unix-bytes-v1" then .error (.unsupportedPathEncoding encoding) else .ok bytes

/-- The text of the latest pointer. -/
def latestText (token : String) : String := "@" ++ token ++ "\n"

def writeLatest (token : String) : Fs RegistryError Unit := do
  let bytes := Text.asBytes (latestText token)
  attempt (← Prog.call (.writeTemporary registry.root bytes)) .io
  attempt (← Prog.call (.persist bytes registry.latestPath)) .io

def freshToken : Fs RegistryError String := do
  let random ← Prog.call (.random TOKEN_BYTES)
  let bytes ← Prog.ofExcept (Checks.okOr random .random)
  Prog.ofExcept (randomToken bytes)

variable (lib : Libraries)

/-- The digest of a file read in pieces of 64 KiB; `fuel` bounds the number of pieces. -/
def hashFile (fuel : ℕ) (file : File) : Fs RegistryError String := do
  let bytes ← readUntilEnd file (fun _ => 64 * 1024) .io fuel []
  .ret (lib.b64.encode (lib.sha256.digest bytes))

/-- The entry for a path under a token. -/
def newEntry (canonical : PathBuf) (identity : FileIdentity) (registeredAtUnixMs : UInt64)
    (token : String) : ArtifactRefV1 where
  schema := ARTIFACT_REF_SCHEMA_V1
  token := token
  pathEncoding := (encodePath canonical).1
  pathBase64 := lib.b64.encode (encodePath canonical).2
  identity := identity
  registeredAtUnixMs := registeredAtUnixMs

/-- Persist an entry under a fresh token, with some attempts left. -/
def allocate (entry : String → ArtifactRefV1) : ℕ → Fs RegistryError ArtifactRefV1
  | 0 => .fail .tokenExhausted
  | attempts + 1 => do
      let token ← freshToken
      let bytes := lib.serdeJson.toVec (entry token)
      attempt (← Prog.call (.writeTemporary registry.refsDir bytes)) .io
      let persisted ← Prog.call (.persistNoclobber bytes (registry.entryPath token))
      match (persisted : Except IoErrorKind Unit) with
      | .ok () => do
          writeLatest registry token
          .ret (entry token)
      | .error .alreadyExists => allocate entry attempts
      | .error kind => .fail (.io kind)

/-- **Register one exact regular file** and update the session-neutral latest pointer. -/
def register (fuel : ℕ) (path : PathBuf) : Fs RegistryError ArtifactRefV1 := do
  ensureDirs registry
  let canonical ← attempt (← Prog.call (.canonicalize path)) .io
  let source ← attempt (← Prog.call (.openFile canonical)) .io
  let metadata ← attempt (← Prog.call (.metadata source)) .io
  Prog.ensure metadata.isFile (.notRegularFile canonical)
  enforceArtifactLimit metadata.len
  let digest ← hashFile lib fuel source
  let registeredAtUnixMs ← unixTimeMs
  allocate registry lib
    (newEntry lib canonical (fileIdentity metadata digest) registeredAtUnixMs) 16

/-- The bytes of a stored entry, of which no more than its bound and one byte are read. -/
def readEntry (token : String) : Fs RegistryError Bytes := do
  let file ← attempt (← Prog.call (.openFile (registry.entryPath token)))
    (notFoundOr (.notFound token))
  let metadata ← attempt (← Prog.call (.metadata file)) .io
  Prog.ensure (metadata.len.toNat ≤ MAX_ENTRY_BYTES) .entryLimit
  let bytes ← readUntilEnd file (fun read => MAX_ENTRY_BYTES + 1 - read) .io
    (MAX_ENTRY_BYTES + 2) []
  Prog.ensure (bytes.length ≤ MAX_ENTRY_BYTES) .entryLimit
  .ret bytes

/-- The entry in these bytes, valid and for this token, and its path. -/
def decodeEntry (token : String) (bytes : Bytes) :
    Except RegistryError (ArtifactRefV1 × PathBuf) := do
  let entry ← Checks.okOr (lib.serdeJson.fromSlice bytes) .json
  Checks.mapErr (fun
    | ArtifactRefValidationError.unsupportedPathEncoding encoding =>
        .unsupportedPathEncoding encoding
    | _ => .invalidReference) (entry.validate lib.b64)
  Checks.ensure (entry.token == token) .invalidReference
  let pathBytes ← Checks.okOr (lib.b64.decode entry.pathBase64) .invalidReference
  let decoded ← decodePath entry.pathEncoding pathBytes
  .ok (entry, decoded)

/-- The recorded path of an entry, when its file still has the recorded identity. -/
def revalidate (fuel : ℕ) (token : String) (entry : ArtifactRefV1) (decoded : PathBuf) :
    Fs RegistryError PathBuf := do
  let source ← attempt (← Prog.call (.openFile decoded)) (notFoundOr (.identityChanged token))
  let metadata ← attempt (← Prog.call (.metadata source)) .io
  enforceArtifactLimit metadata.len
  let digest ← hashFile lib fuel source
  let identity := fileIdentity metadata digest
  Prog.ensure (metadata.isFile && identity == entry.identity) (.identityChanged token)
  .ret decoded

/-- **Resolve and revalidate** one short reference, URI, or bare token. -/
def resolve (fuel : ℕ) (reference : String) : Fs RegistryError PathBuf := do
  let token ← Prog.ofExcept (parseToken reference)
  let bytes ← readEntry registry token
  let (entry, decoded) ← Prog.ofExcept (decodeEntry lib token bytes)
  revalidate lib fuel token entry decoded

/-- The largest request of a read without a bound. -/
def READ_LIMIT : ℕ := 2 ^ 63 - 1

/-- A whole file as text. -/
def readToString (fuel : ℕ) (path : PathBuf) : Fs RegistryError (List Char) := do
  let file ← attempt (← Prog.call (.openFile path)) .io
  let bytes ← readUntilEnd file (fun _ => READ_LIMIT) .io fuel []
  Prog.ofExcept (Checks.okOr (Utf8Lossy.decodeStrict bytes) (.io .invalidData))

/-- **Resolve the most recently registered artifact.** -/
def resolveLatest (fuel : ℕ) : Fs RegistryError PathBuf := do
  let latest ← readToString fuel registry.latestPath
  resolve registry lib fuel (String.ofList (Text.trim latest))

/-! ### Paths -/

/-- A name that starts with a canonical token is relative. -/
theorem isAbsolute_of_canonical {token rest : String} (h : IsCanonicalToken token) :
    isAbsolute (Text.asBytes (token ++ rest)) = false := by
  obtain ⟨hlength, hbytes⟩ := isCanonicalToken_iff.1 h
  have hslash : slash ∉ tokenBytes := by decide
  rw [Text.asBytes_append]
  cases htoken : Text.asBytes token with
  | nil =>
      rw [htoken] at hlength
      cases hlength
  | cons b bs =>
      have hb : b ∈ tokenBytes := hbytes b (by rw [htoken]; exact List.mem_cons_self)
      have hne : b ≠ slash := by
        rintro rfl
        exact hslash hb
      simpa [isAbsolute] using hne

/-- **Tokens have different entries.** -/
theorem entryPath_injective {s t : String} (hs : IsCanonicalToken s) (ht : IsCanonicalToken t)
    (h : registry.entryPath s = registry.entryPath t) : s = t := by
  have hname := join_injective (isAbsolute_of_canonical hs) (isAbsolute_of_canonical ht) h
  rw [Text.asBytes_append, Text.asBytes_append] at hname
  exact Text.asBytes_injective_of_ascii (fun c hc => ascii_of_tokenPattern (hs.2 c hc))
    (fun c hc => ascii_of_tokenPattern (ht.2 c hc)) (List.append_cancel_right hname)

/-- No entry is the latest pointer: their names end differently. -/
theorem entryPath_ne_latestPath (token : String) :
    registry.entryPath token ≠ registry.latestPath := by
  have hjson : Text.asBytes ".json" = [0x2E, 0x6A, 0x73, 0x6F, 0x6E] := by decide
  have hlatest : Text.asBytes "latest" = [0x6C, 0x61, 0x74, 0x65, 0x73, 0x74] := by decide
  intro h
  have hlast := congrArg List.getLast? h
  rw [entryPath, latestPath, getLast?_join (by simp [hjson]), getLast?_join (by simp [hlatest]),
    Text.asBytes_append, hjson, hlatest, List.getLast?_append_of_ne_nil _ (by simp)] at hlast
  exact absurd hlast (by decide)

/-! ### Programs that only read -/

-- a program is looked at operation by operation, and its checks are not computed
attribute [local irreducible] parseToken decodeEntry

/-- An operation that only reads, or makes a directory. -/
def ReadsOrMakes : Event → Prop
  | ⟨.writeTemporary _ _, _⟩ => False
  | ⟨.persistNoclobber _ _, _⟩ => False
  | ⟨.persist _ _, _⟩ => False
  | _ => True

/-- A program that only reads, or makes directories. -/
abbrev Reading {ε α : Type} (x : Fs ε α) : Prop :=
  ∀ past, Prog.Always (fun _ e => ReadsOrMakes e) past x

section Reading

variable {registry} {lib} {ε α β : Type}

theorem Reading.bind {x : Fs ε α} {f : α → Fs ε β} (hx : Reading x)
    (hf : ∀ a, Reading (f a)) : Reading (x >>= f) :=
  fun past => (hx past).bind fun _ a _ => hf a _

theorem reading_call {op : FsOp} (h : ∀ answer, ReadsOrMakes ⟨op, answer⟩) :
    Reading (Prog.call op : Fs ε op.Answer) := fun _ => Prog.Always.call h

theorem reading_ofExcept {r : Except ε α} :
    Reading (Prog.ofExcept r : Fs ε α) := fun _ => Prog.Always.ofExcept

theorem reading_ensureDirs : Reading (ensureDirs registry) := by
  refine .bind (reading_call fun _ => trivial) fun _ => .bind reading_ofExcept fun _ => ?_
  refine .bind (reading_call fun _ => trivial) fun _ => .bind reading_ofExcept fun _ => ?_
  exact .bind (reading_call fun _ => trivial) fun _ => reading_ofExcept

theorem reading_readUntilEnd {file : FileSystem.File} {request : ℕ → ℕ} {onError : IoErrorKind → ε}
    {fuel : ℕ} {bytes : Bytes} : Reading (readUntilEnd file request onError fuel bytes) := by
  induction fuel generalizing bytes with
  | zero => exact fun _ => trivial
  | succ fuel ih =>
      rw [readUntilEnd]
      split
      · exact fun _ => trivial
      · refine .bind (reading_call fun _ => trivial) fun _ => .bind reading_ofExcept fun chunk => ?_
        split
        · exact fun _ => trivial
        · exact ih

theorem reading_hashFile {fuel : ℕ} {file : FileSystem.File} : Reading (hashFile lib fuel file) :=
  .bind reading_readUntilEnd fun _ _ => trivial

theorem reading_unixTimeMs : Reading unixTimeMs :=
  .bind (reading_call fun _ => trivial) fun _ => .bind reading_ofExcept fun _ _ => trivial

theorem reading_freshToken : Reading freshToken :=
  .bind (reading_call fun _ => trivial) fun _ => .bind reading_ofExcept fun _ => reading_ofExcept

theorem reading_ensure {holds : Bool} {error : ε} :
    Reading (Prog.ensure holds error : Fs ε Unit) := fun _ => Prog.Always.ensure

theorem reading_readEntry {token : String} : Reading (readEntry registry token) := by
  refine .bind (reading_call fun _ => trivial) fun _ => .bind reading_ofExcept fun file => ?_
  refine .bind (reading_call fun _ => trivial) fun _ => .bind reading_ofExcept fun metadata => ?_
  refine .bind reading_ensure fun _ => .bind reading_readUntilEnd fun bytes => ?_
  exact .bind reading_ensure fun _ _ => trivial

theorem reading_revalidate {fuel : ℕ} {token : String} {entry : ArtifactRefV1} {decoded : PathBuf} :
    Reading (revalidate lib fuel token entry decoded) := by
  refine .bind (reading_call fun _ => trivial) fun _ => .bind reading_ofExcept fun source => ?_
  refine .bind (reading_call fun _ => trivial) fun _ => .bind reading_ofExcept fun metadata => ?_
  refine .bind reading_ensure fun _ => .bind reading_hashFile fun digest => ?_
  exact .bind reading_ensure fun _ _ => trivial

/-- **A resolution only reads.** -/
theorem reading_resolve {fuel : ℕ} {reference : String} :
    Reading (resolve registry lib fuel reference) :=
  .bind reading_ofExcept fun _ => .bind reading_readEntry fun _ => .bind reading_ofExcept fun _ =>
    reading_revalidate

theorem reading_resolveLatest {fuel : ℕ} : Reading (resolveLatest registry lib fuel) := by
  refine .bind ?_ fun latest => reading_resolve
  refine .bind (reading_call fun _ => trivial) fun _ => .bind reading_ofExcept fun file => ?_
  exact .bind reading_readUntilEnd fun bytes => reading_ofExcept

end Reading

/-! ### What a call writes -/

section Always

variable {past : List Event} {requested : PathBuf}

/-- The entry that a registration of a requested path writes: under its own canonical token, for the
canonical path that it was told. -/
structure WritesEntry (requested : PathBuf) (past : List Event) (entry : ArtifactRefV1)
    (canonical : PathBuf) : Prop where
  token : IsCanonicalToken entry.token
  path : entry.pathBase64 = lib.b64.encode canonical
  told : ⟨.canonicalize requested, .ok canonical⟩ ∈ past

/-- **What a registration does** to named files: it creates the entry of a canonical token, and then
it makes the latest pointer name that token. -/
def RegisterDoes (requested : PathBuf) (past : List Event) : Event → Prop
  | ⟨.persistNoclobber bytes p, _⟩ =>
      ∃ entry canonical, bytes = lib.serdeJson.toVec entry ∧ p = registry.entryPath entry.token ∧
        WritesEntry lib requested past entry canonical
  | ⟨.persist bytes p, _⟩ => p = registry.latestPath ∧
      ∃ entry, IsCanonicalToken entry.token ∧ bytes = Text.asBytes (latestText entry.token) ∧
        ⟨.persistNoclobber (lib.serdeJson.toVec entry) (registry.entryPath entry.token), .ok ()⟩ ∈
          past
  | _ => True

variable {registry} {lib}

theorem ReadsOrMakes.registerDoes {e : Event} (h : ReadsOrMakes e) :
    RegisterDoes registry lib requested past e := by
  obtain ⟨op, answer⟩ := e
  cases op with
  | writeTemporary directory bytes => cases h
  | persistNoclobber bytes path => cases h
  | persist bytes path => cases h
  | _ => trivial

theorem Reading.registerDoes {α : Type} {x : Fs RegistryError α} (h : Reading x) :
    Prog.Always (RegisterDoes registry lib requested) past x :=
  (h past).mono fun _ _ he => he.registerDoes

theorem writeLatest_always {entry : ArtifactRefV1} {token : String}
    (hentry : entry.token = token) (htoken : IsCanonicalToken token)
    (hcreated : ⟨.persistNoclobber (lib.serdeJson.toVec entry) (registry.entryPath token), .ok ()⟩ ∈
      past) :
    Prog.Always (RegisterDoes registry lib requested) past (writeLatest registry token) := by
  subst hentry
  refine .bind (.call fun _ => trivial) fun e₁ _ _ => .bind .ofExcept fun e₂ _ _ => ?_
  refine .bind (.call fun _ => ⟨rfl, entry, htoken, rfl, ?_⟩) fun _ _ _ => .ofExcept
  simp [hcreated]

/-- **What the attempts to persist an entry write.** -/
theorem allocate_always {entry : String → ArtifactRefV1} (canonical : PathBuf) {attempts : ℕ}
    (htoken : ∀ token, (entry token).token = token)
    (hpath : ∀ token, (entry token).pathBase64 = lib.b64.encode canonical)
    (htold : ⟨.canonicalize requested, .ok canonical⟩ ∈ past) :
    Prog.Always (RegisterDoes registry lib requested) past
      (allocate registry lib entry attempts) := by
  induction attempts generalizing past with
  | zero => trivial
  | succ attempts ih =>
      refine reading_freshToken.registerDoes.bind fun e₁ token hfresh => ?_
      have hcanonical : IsCanonicalToken token := by
        obtain ⟨answer, rest, rfl, hdrawn⟩ := Prog.call_bind_returns_iff.1 hfresh
        obtain ⟨bytes, -, htoken⟩ := Prog.ofExcept_bind_returns_iff.1 hdrawn
        exact canonical_of_randomToken (Prog.ofExcept_returns_iff.1 htoken).2
      refine .bind (.call fun _ => trivial) fun e₂ _ _ => .bind .ofExcept fun e₃ _ _ => ?_
      refine .bind (.call fun _ => ?_) fun e₄ persisted hpersisted => ?_
      · exact ⟨entry token, canonical, rfl, by rw [htoken], by rwa [htoken], hpath token,
          by simp [htold]⟩
      · have hagain : ⟨.canonicalize requested, .ok canonical⟩ ∈ past ++ e₁ ++ e₂ ++ e₃ ++ e₄ := by
          simp [htold]
        obtain rfl := Prog.call_returns_iff.1 hpersisted
        cases persisted with
        | ok u =>
            exact (writeLatest_always (htoken token) hcanonical (by simp)).bind fun _ _ _ => trivial
        | error kind =>
            cases kind with
            | alreadyExists => exact ih hagain
            | _ => trivial

/-- **What a registration writes.** -/
theorem register_always {fuel : ℕ} :
    Prog.Always (RegisterDoes registry lib requested) []
      (register registry lib fuel requested) := by
  refine reading_ensureDirs.registerDoes.bind fun e₁ _ _ => ?_
  refine .bind (.call fun _ => trivial) fun e₂ answer hcall =>
    .bind .ofExcept fun e₃ canonical hok => ?_
  obtain ⟨rfl, rfl⟩ := FileSystem.attempt_returns_iff.1 hok
  obtain rfl := Prog.call_returns_iff.1 hcall
  refine .bind (.call fun _ => trivial) fun e₄ _ _ => .bind .ofExcept fun e₅ source _ => ?_
  refine .bind (.call fun _ => trivial) fun e₆ _ _ => .bind .ofExcept fun e₇ metadata _ => ?_
  refine .bind .ensure fun e₈ _ _ => .bind .ensure fun e₉ _ _ => ?_
  refine reading_hashFile.registerDoes.bind fun e₁₀ digest _ => ?_
  refine reading_unixTimeMs.registerDoes.bind fun e₁₁ registeredAtUnixMs _ => ?_
  exact allocate_always canonical (fun _ => rfl) (fun _ => rfl) (by simp)

end Always

/-! ### What a call has done when it returns -/

section Returns

variable {registry} {lib} {events : List Event} {fuel : ℕ}

theorem freshToken_returns {token : String} (h : freshToken.Returns events token) :
    IsCanonicalToken token := by
  obtain ⟨random, rest, rfl, hrest⟩ := Prog.call_bind_returns_iff.1 h
  obtain ⟨bytes, -, htoken⟩ := Prog.ofExcept_bind_returns_iff.1 hrest
  exact canonical_of_randomToken (Prog.ofExcept_returns_iff.1 htoken).2

/-- The last operations of a registration that returns: the entry takes its name, and the latest
pointer is replaced. -/
def publishCalls (registry : Registry) (lib : Libraries) (entry : ArtifactRefV1) : List Event :=
  [⟨.persistNoclobber (lib.serdeJson.toVec entry) (registry.entryPath entry.token), .ok ()⟩,
    ⟨.writeTemporary registry.root (Text.asBytes (latestText entry.token)), .ok ()⟩,
    ⟨.persist (Text.asBytes (latestText entry.token)) registry.latestPath, .ok ()⟩]

theorem allocate_returns {entry : String → ArtifactRefV1} {attempts : ℕ} {result : ArtifactRefV1}
    (htoken : ∀ token, (entry token).token = token)
    (h : (allocate registry lib entry attempts).Returns events result) :
    ∃ token, IsCanonicalToken token ∧ result = entry token ∧
      publishCalls registry lib result <:+ events := by
  induction attempts generalizing events with
  | zero => exact absurd h Prog.not_fail_returns
  | succ attempts ih =>
      obtain ⟨e₁, token, e₂, hfresh, hrest, rfl⟩ := Prog.bind_returns_iff.1 h
      obtain ⟨written, e₃, rfl, hwritten⟩ := Prog.call_bind_returns_iff.1 hrest
      obtain ⟨u, rfl, hpersist⟩ := attempt_bind_returns_iff.1 hwritten
      obtain ⟨persisted, e₄, rfl, hpersisted⟩ := Prog.call_bind_returns_iff.1 hpersist
      cases persisted with
      | ok u =>
          -- this attempt created the entry, and only the latest pointer is left
          obtain ⟨e₅, u', e₆, hlatest, hret, rfl⟩ := Prog.bind_returns_iff.1 hpersisted
          obtain ⟨rfl, rfl⟩ := Prog.ret_returns_iff.1 hret
          obtain ⟨temporary, e₇, rfl, htemporary⟩ := Prog.call_bind_returns_iff.1 hlatest
          obtain ⟨u₁, rfl, hreplace⟩ := attempt_bind_returns_iff.1 htemporary
          obtain ⟨replaced, e₈, rfl, hreplaced⟩ := Prog.call_bind_returns_iff.1 hreplace
          obtain ⟨rfl, rfl⟩ := FileSystem.attempt_returns_iff.1 hreplaced
          refine ⟨token, freshToken_returns hfresh, rfl, ?_⟩
          rw [publishCalls, htoken]
          exact (List.suffix_cons _ _).trans (List.suffix_append _ _)
      | error kind =>
          cases kind with
          | alreadyExists =>
              obtain ⟨token', hcanonical, hresult, hlast⟩ := ih hpersisted
              refine ⟨token', hcanonical, hresult, ?_⟩
              exact ((hlast.trans (List.suffix_cons _ _)).trans (List.suffix_cons _ _)).trans
                (List.suffix_append _ _)
          | _ => exact absurd hpersisted Prog.not_fail_returns

/-- **What a registration has done when it returns.** -/
structure Registered (registry : Registry) (lib : Libraries) (fuel : ℕ)
    (requested canonical : PathBuf) (metadata : Metadata) (digest : String) (entry : ArtifactRefV1)
    (events : List Event) : Prop where
  /-- The file was opened under its canonical path, and captured. -/
  captured : ∃ before source reads after,
    events = before ++ ⟨.canonicalize requested, .ok canonical⟩ ::
      ⟨.openFile canonical, .ok source⟩ :: ⟨.metadata source, .ok metadata⟩ :: (reads ++ after) ∧
    (hashFile lib fuel source).Returns reads digest
  isFile : metadata.isFile = true
  limit : metadata.len.toNat ≤ MAX_ARTIFACT_INPUT_BYTES_V1
  token : IsCanonicalToken entry.token
  recorded : ∃ ms, entry = newEntry lib canonical (fileIdentity metadata digest) ms entry.token
  /-- The entry was created under its own name, and at last the latest pointer was replaced. -/
  published : publishCalls registry lib entry <:+ events

theorem register_returns {requested : PathBuf} {entry : ArtifactRefV1}
    (h : (register registry lib fuel requested).Returns events entry) :
    ∃ canonical metadata digest,
      Registered registry lib fuel requested canonical metadata digest entry events := by
  obtain ⟨e₁, u, e₂, -, hrest, rfl⟩ := Prog.bind_returns_iff.1 h
  obtain ⟨_, e₃, rfl, hcanonical⟩ := Prog.call_bind_returns_iff.1 hrest
  obtain ⟨canonical, rfl, hopen⟩ := attempt_bind_returns_iff.1 hcanonical
  obtain ⟨_, e₄, rfl, hopened⟩ := Prog.call_bind_returns_iff.1 hopen
  obtain ⟨source, rfl, hask⟩ := attempt_bind_returns_iff.1 hopened
  obtain ⟨_, e₅, rfl, hasked⟩ := Prog.call_bind_returns_iff.1 hask
  obtain ⟨metadata, rfl, hchecks⟩ := attempt_bind_returns_iff.1 hasked
  obtain ⟨hfile, hlimits⟩ := Prog.ensure_bind_returns_iff.1 hchecks
  obtain ⟨hlimit, hhash⟩ := Prog.ensure_bind_returns_iff.1 hlimits
  obtain ⟨reads, digest, e₆, hdigest, htime, rfl⟩ := Prog.bind_returns_iff.1 hhash
  obtain ⟨e₇, ms, e₈, hms, hallocate, rfl⟩ := Prog.bind_returns_iff.1 htime
  obtain ⟨token, htoken, rfl, hlast⟩ := allocate_returns (fun _ => rfl) hallocate
  have hpublished := (hlast.trans (List.suffix_append e₇ e₈)).trans (List.suffix_append reads _)
  refine ⟨canonical, metadata, digest, ⟨⟨e₁, source, reads, _, rfl, hdigest⟩, hfile,
    of_decide_eq_true hlimit, htoken, ⟨ms, rfl⟩, ?_⟩⟩
  exact (((hpublished.trans (List.suffix_cons _ _)).trans (List.suffix_cons _ _)).trans
    (List.suffix_cons _ _)).trans (List.suffix_append e₁ _)

/-- **What a stored entry must satisfy.** -/
theorem decodeEntry_eq_ok_iff {token : String} {bytes : Bytes} {entry : ArtifactRefV1}
    {decoded : PathBuf} :
    decodeEntry lib token bytes = .ok (entry, decoded) ↔
      lib.serdeJson.fromSlice bytes = some entry ∧ entry.validate lib.b64 = .ok () ∧
        entry.token = token ∧ lib.b64.decode entry.pathBase64 = some decoded ∧
        entry.pathEncoding = "unix-bytes-v1" := by
  simp only [decodeEntry, Checks.bind_eq_ok_iff, Checks.okOr_eq_ok_iff, Checks.mapErr_eq_ok_iff,
    Checks.ensure_eq_ok_iff, Unique.exists_iff, PUnit.default_eq_unit, beq_iff_eq]
  constructor
  · rintro ⟨entry', hjson, hvalid, htoken, path, hpath, decoded', hdecoded, hpair⟩
    obtain ⟨rfl, rfl⟩ := Prod.mk.inj (Except.ok.inj hpair)
    rw [decodePath] at hdecoded
    split at hdecoded
    · cases hdecoded
    · rename_i hencoding
      obtain rfl := Except.ok.inj hdecoded
      exact ⟨hjson, hvalid, htoken, hpath, not_not.1 hencoding⟩
  · rintro ⟨hjson, hvalid, htoken, hpath, hencoding⟩
    refine ⟨entry, hjson, hvalid, htoken, decoded, hpath, decoded, ?_, rfl⟩
    rw [decodePath, if_neg (not_not.2 hencoding)]

theorem readEntry_returns {token : String} {bytes : Bytes}
    (h : (readEntry registry token).Returns events bytes) :
    ∃ file metadata reads, events = ⟨.openFile (registry.entryPath token), .ok file⟩ ::
        ⟨.metadata file, .ok metadata⟩ :: reads ∧
      (readUntilEnd file (fun read => MAX_ENTRY_BYTES + 1 - read) RegistryError.io
        (MAX_ENTRY_BYTES + 2) []).Returns reads bytes ∧ bytes.length ≤ MAX_ENTRY_BYTES := by
  obtain ⟨_, e₁, rfl, hopened⟩ := Prog.call_bind_returns_iff.1 h
  obtain ⟨file, rfl, hask⟩ := attempt_bind_returns_iff.1 hopened
  obtain ⟨_, e₂, rfl, hasked⟩ := Prog.call_bind_returns_iff.1 hask
  obtain ⟨metadata, rfl, hchecks⟩ := attempt_bind_returns_iff.1 hasked
  obtain ⟨-, hread⟩ := Prog.ensure_bind_returns_iff.1 hchecks
  obtain ⟨reads, result, e₃, hreads, hlast, rfl⟩ := Prog.bind_returns_iff.1 hread
  obtain ⟨hlength, hret⟩ := Prog.ensure_bind_returns_iff.1 hlast
  obtain ⟨rfl, rfl⟩ := Prog.ret_returns_iff.1 hret
  exact ⟨file, metadata, reads, by rw [List.append_nil], hreads, of_decide_eq_true hlength⟩

/-- The operations that check the identity of a file under a path. -/
structure Revalidated (lib : Libraries) (fuel : ℕ) (path : PathBuf) (identity : FileIdentity)
    (events : List Event) : Prop where
  checked : ∃ source metadata reads digest, events = ⟨.openFile path, .ok source⟩ ::
      ⟨.metadata source, .ok metadata⟩ :: reads ∧
    (hashFile lib fuel source).Returns reads digest ∧ metadata.isFile = true ∧
    fileIdentity metadata digest = identity

theorem revalidate_returns {token : String} {entry : ArtifactRefV1} {decoded path : PathBuf}
    (h : (revalidate lib fuel token entry decoded).Returns events path) :
    path = decoded ∧ Revalidated lib fuel decoded entry.identity events := by
  obtain ⟨_, e₁, rfl, hopened⟩ := Prog.call_bind_returns_iff.1 h
  obtain ⟨source, rfl, hask⟩ := attempt_bind_returns_iff.1 hopened
  obtain ⟨_, e₂, rfl, hasked⟩ := Prog.call_bind_returns_iff.1 hask
  obtain ⟨metadata, rfl, hchecks⟩ := attempt_bind_returns_iff.1 hasked
  obtain ⟨-, hhash⟩ := Prog.ensure_bind_returns_iff.1 hchecks
  obtain ⟨reads, digest, e₃, hdigest, hsame, rfl⟩ := Prog.bind_returns_iff.1 hhash
  obtain ⟨hidentity, hret⟩ := Prog.ensure_bind_returns_iff.1 hsame
  obtain ⟨rfl, rfl⟩ := Prog.ret_returns_iff.1 hret
  rw [Bool.and_eq_true, beq_iff_eq] at hidentity
  exact ⟨rfl, ⟨source, metadata, reads, digest, by rw [List.append_nil], hdigest, hidentity.1,
    hidentity.2⟩⟩

/-- **What a resolution has done when it returns**: it has read an entry for its token, and checked
the identity of the file under the path that it returns. -/
theorem resolve_returns {reference : String} {path : PathBuf}
    (h : (resolve registry lib fuel reference).Returns events path) :
    ∃ token bytes entry e₁ e₂, parseToken reference = .ok token ∧ events = e₁ ++ e₂ ∧
      (readEntry registry token).Returns e₁ bytes ∧
      decodeEntry lib token bytes = .ok (entry, path) ∧
      Revalidated lib fuel path entry.identity e₂ := by
  obtain ⟨token, htoken, hrest⟩ := Prog.ofExcept_bind_returns_iff.1 h
  obtain ⟨e₁, bytes, e₂, hread, hdecode, rfl⟩ := Prog.bind_returns_iff.1 hrest
  obtain ⟨⟨entry, decoded⟩, hdecoded, hcheck⟩ := Prog.ofExcept_bind_returns_iff.1 hdecode
  obtain ⟨rfl, hrevalidated⟩ := revalidate_returns hcheck
  exact ⟨token, bytes, entry, e₁, e₂, htoken, rfl, hread, hdecoded, hrevalidated⟩

/-- The latest artifact is resolved as the reference that the pointer held. -/
theorem resolveLatest_returns {path : PathBuf}
    (h : (resolveLatest registry lib fuel).Returns events path) :
    ∃ e₁ latest e₂, (readToString fuel registry.latestPath).Returns e₁ latest ∧
      (resolve registry lib fuel (String.ofList (Text.trim latest))).Returns e₂ path ∧
      events = e₁ ++ e₂ :=
  Prog.bind_returns_iff.1 h

end Returns

/-! ### Entries that were registered -/

section Recorded

variable {registry} {lib} {fuel : ℕ} {canonical : PathBuf} {metadata : Metadata} {content : Bytes}
  {ms : UInt64} {token : String}

theorem hashFile_returns {source : File} {events : List Event} {digest : String}
    (h : (hashFile lib fuel source).Returns events digest) :
    ∃ bytes, (readUntilEnd source (fun _ => 64 * 1024) RegistryError.io fuel []).Returns events
      bytes ∧ digest = lib.b64.encode (lib.sha256.digest bytes) := by
  obtain ⟨e₁, bytes, e₂, hread, hret, rfl⟩ := Prog.bind_returns_iff.1 h
  obtain ⟨rfl, rfl⟩ := Prog.ret_returns_iff.1 hret
  exact ⟨bytes, by rwa [List.append_nil], rfl⟩

/-- **A registered entry is valid**, and names its path. -/
theorem decodeEntry_newEntry (hpath : FileSystem.IsCanonicalPath canonical)
    (htoken : IsCanonicalToken token) (hlimit : metadata.len.toNat ≤ MAX_ARTIFACT_INPUT_BYTES_V1) :
    decodeEntry lib token (lib.serdeJson.toVec (newEntry lib canonical
        (fileIdentity metadata (lib.b64.encode (lib.sha256.digest content))) ms token)) =
      .ok (newEntry lib canonical
        (fileIdentity metadata (lib.b64.encode (lib.sha256.digest content))) ms token,
          canonical) := by
  obtain ⟨habsolute, hnul, -⟩ := hpath
  have hne : canonical ≠ [] := by
    rintro rfl
    cases habsolute
  refine decodeEntry_eq_ok_iff.2 ⟨lib.serdeJson.fromSlice_toVec _, ?_, rfl, lib.b64.decode_encode _,
    rfl⟩
  refine (ArtifactRefV1.validate_eq_ok_iff _).2 ⟨rfl, ⟨token, ?_⟩, ?_, ?_, hlimit⟩
  · exact parseToken_eq_ok_iff.2 ⟨htoken, Or.inr (Or.inr rfl)⟩
  · exact ⟨canonical, lib.b64.decode_encode _, hne, hnul, validatePath_unix habsolute⟩
  · exact ⟨lib.sha256.digest content, lib.b64.decode_encode _, lib.sha256.length_digest content⟩

/-- **A registered entry is within its bound.** -/
theorem length_newEntry_le (hpath : FileSystem.IsCanonicalPath canonical)
    (htoken : IsCanonicalToken token) :
    (lib.serdeJson.toVec (newEntry lib canonical
      (fileIdentity metadata (lib.b64.encode (lib.sha256.digest content))) ms token)).length ≤
        MAX_ENTRY_BYTES := by
  obtain ⟨-, -, hlength⟩ := hpath
  have hentry := lib.serdeJson.length_toVec_le (newEntry lib canonical
    (fileIdentity metadata (lib.b64.encode (lib.sha256.digest content))) ms token)
  have hschema : (Text.asBytes ARTIFACT_REF_SCHEMA_V1).length = 36 := by rfl
  have hencoding : (Text.asBytes "unix-bytes-v1").length = 13 := by rfl
  have htokenLength : (Text.asBytes token).length = 13 := (isCanonicalToken_iff.1 htoken).1
  have hpathLength := lib.b64.length_encode_le canonical
  have hdigestLength := lib.b64.length_encode_le (lib.sha256.digest content)
  rw [lib.sha256.length_digest] at hdigestLength
  simp only [ArtifactRefV1.textLength, newEntry, encodePath, fileIdentity, hschema, hencoding,
    htokenLength] at hentry
  simp only [FileSystem.PATH_MAX] at hlength
  simp only [newEntry, encodePath, fileIdentity, MAX_ENTRY_BYTES] at hentry ⊢
  omega

end Recorded

/-! ### When a resolution returns -/

section Ensures

variable {registry} {lib} {fuel : ℕ} {Q : Event → Prop} {entryFile file : File}
  {entryNode node : FileSystem.Node} {token : String}

/-- An entry is read when it is within its bound. -/
theorem readEntry_ensures
    (hQ : ∀ e, Q e → FileSystem.Sees (registry.entryPath token) entryFile entryNode e)
    (hlen : entryNode.metadata.len.toNat ≤ MAX_ENTRY_BYTES)
    (hcontent : entryNode.content.length ≤ MAX_ENTRY_BYTES) :
    Prog.Ensures Q (fun bytes => bytes = entryNode.content) (readEntry registry token) := by
  refine FileSystem.ensures_openFile hQ (FileSystem.ensures_metadata hQ ?_)
  refine .bind (.ensure (decide_eq_true hlen) trivial) fun _ (_ : True) => ?_
  refine .bind (FileSystem.readUntilEnd_ensures hQ List.nil_prefix (by simp; omega)) ?_
  rintro bytes ⟨hread, hwhole⟩
  have hlength := hread.length_le
  have hbytes : bytes = entryNode.content := by
    refine hwhole.resolve_left fun hnone => ?_
    have hshort : MAX_ENTRY_BYTES + 1 - bytes.length = 0 := hnone
    omega
  exact .bind (.ensure (decide_eq_true (by omega)) trivial) fun _ (_ : True) => hbytes

/-- The identity of a file is checked against the one that it has. -/
theorem revalidate_ensures {entry : ArtifactRefV1} {path : PathBuf}
    (hQ : ∀ e, Q e → FileSystem.Sees path file node e)
    (hlimit : node.metadata.len.toNat ≤ MAX_ARTIFACT_INPUT_BYTES_V1)
    (hfile : node.metadata.isFile = true)
    (hidentity : entry.identity = fileIdentity node.metadata
      (lib.b64.encode (lib.sha256.digest node.content))) (hfuel : node.content.length < fuel) :
    Prog.Ensures Q (fun p => p = path) (revalidate lib fuel token entry path) := by
  refine FileSystem.ensures_openFile hQ (FileSystem.ensures_metadata hQ ?_)
  refine .bind (.ensure (decide_eq_true hlimit) trivial) fun _ (_ : True) => ?_
  have hhash : Prog.Ensures Q
      (fun digest => digest = lib.b64.encode (lib.sha256.digest node.content))
      (hashFile lib fuel file) := by
    refine .bind (FileSystem.readUntilEnd_ensures hQ List.nil_prefix (by simpa using hfuel)) ?_
    rintro bytes ⟨-, hwhole⟩
    rw [hwhole.resolve_left (by decide)]
    rfl
  refine hhash.bind ?_
  rintro _ rfl
  refine .bind (.ensure ?_ trivial) fun _ (_ : True) => rfl
  rw [hfile, hidentity, Bool.true_and, beq_self_eq_true]

/-- **When a reference is resolved**: its entry names a path, and the file there has the identity of
the entry. -/
theorem resolve_ensures {reference : String} {entry : ArtifactRefV1} {path : PathBuf}
    (hreference : parseToken reference = .ok token)
    (hentry : ∀ e, Q e → FileSystem.Sees (registry.entryPath token) entryFile entryNode e)
    (hlen : entryNode.metadata.len.toNat ≤ MAX_ENTRY_BYTES)
    (hcontent : entryNode.content.length ≤ MAX_ENTRY_BYTES)
    (hdecode : decodeEntry lib token entryNode.content = .ok (entry, path))
    (hpath : ∀ e, Q e → FileSystem.Sees path file node e)
    (hlimit : node.metadata.len.toNat ≤ MAX_ARTIFACT_INPUT_BYTES_V1)
    (hfile : node.metadata.isFile = true)
    (hidentity : entry.identity = fileIdentity node.metadata
      (lib.b64.encode (lib.sha256.digest node.content))) (hfuel : node.content.length < fuel) :
    Prog.Ensures Q (fun p => p = path) (resolve registry lib fuel reference) := by
  rw [resolve, hreference]
  refine (readEntry_ensures hentry hlen hcontent).bind ?_
  rintro _ rfl
  rw [hdecode]
  exact revalidate_ensures hpath hlimit hfile hidentity hfuel

theorem latestText_toList (token : String) :
    (latestText token).toList = '@' :: token.toList ++ ['\n'] := by
  rw [latestText, String.toList_append, String.toList_append]
  rfl

theorem length_latestText (htoken : IsCanonicalToken token) :
    (Text.asBytes (latestText token)).length = 15 := by
  have hat : (Text.asBytes "@").length = 1 := by decide
  have hnewline : (Text.asBytes "\n").length = 1 := by decide
  rw [latestText, Text.asBytes_append, Text.asBytes_append, List.length_append, List.length_append,
    (isCanonicalToken_iff.1 htoken).1, hat, hnewline]
  rfl

/-- **The latest pointer is read back** as the short reference that was written to it. -/
theorem trim_latestText (htoken : IsCanonicalToken token) :
    Utf8Lossy.decodeStrict (Text.asBytes (latestText token)) = some (latestText token).toList ∧
      String.ofList (Text.trim (latestText token).toList) = "@" ++ token := by
  have hascii : ∀ c ∈ (latestText token).toList, c.toNat < 128 := by
    rw [latestText_toList]
    intro c hc
    simp only [List.cons_append, List.mem_cons, List.mem_append, List.not_mem_nil, or_false] at hc
    rcases hc with rfl | hc | rfl
    · decide
    · exact ascii_of_tokenPattern (htoken.2 c hc)
    · decide
  have hvisible : ∀ c ∈ '@' :: token.toList, Text.isWhitespace c = false := by
    have hall : ∀ n < 128, tokenPattern (Char.ofNat n) = true →
        Text.isWhitespace (Char.ofNat n) = false := by decide
    intro c hc
    rcases List.mem_cons.1 hc with rfl | hc
    · decide
    · have hpattern := htoken.2 c hc
      have hspace := hall c.toNat (ascii_of_tokenPattern hpattern)
      rw [Char.ofNat_toNat] at hspace
      exact hspace hpattern
  constructor
  · rw [Utf8Lossy.decodeStrict, Utf8Lossy.decode_asBytes hascii, if_pos]
    rfl
  · rw [latestText_toList, Text.trim_append_newline hvisible]
    exact String.toList_injective (by rw [String.toList_ofList, String.toList_append]; rfl)

/-- **When the latest artifact is resolved**: the pointer names a token whose entry can be
resolved. -/
theorem resolveLatest_ensures {latestFile : File} {latestNode : FileSystem.Node} {path : PathBuf}
    (hlatest : ∀ e, Q e → FileSystem.Sees registry.latestPath latestFile latestNode e)
    (htoken : IsCanonicalToken token)
    (hpointer : latestNode.content = Text.asBytes (latestText token))
    (hfuel : latestNode.content.length < fuel)
    (hresolve : Prog.Ensures Q (fun p => p = path) (resolve registry lib fuel ("@" ++ token))) :
    Prog.Ensures Q (fun p => p = path) (resolveLatest registry lib fuel) := by
  obtain ⟨hdecode, htrim⟩ := trim_latestText htoken
  have htext : Prog.Ensures Q (fun text => text = (latestText token).toList)
      (readToString fuel registry.latestPath) := by
    refine FileSystem.ensures_openFile hlatest ?_
    refine .bind (FileSystem.readUntilEnd_ensures hlatest List.nil_prefix (by simpa using hfuel)) ?_
    rintro bytes ⟨-, hwhole⟩
    rw [hwhole.resolve_left (by decide), hpointer, hdecode]
    rfl
  refine htext.bind ?_
  rintro _ rfl
  rwa [htrim]

end Ensures

end Registry

end TermInterop

