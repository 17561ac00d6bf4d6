/-
Callback intents: an absolute path behind a URI.

An `OpenIntentV1` asks the consumer bound to one endpoint to open one file.  It travels as the URI
`terminal-interop-intent://v1/open/ENDPOINT/PATH`, where the endpoint is thirty-two lowercase
hexadecimal digits and the path is the URL-safe Base64 of its bytes.

An endpoint carries the proof that its text is canonical, as the private field of the source
guarantees.  The functions are transcribed for Unix.  All that is needed of Base64 is the interface
of a canonical codec.

Main definitions:

* `TermInterop.EndpointId` — an endpoint, canonical by construction;
* `TermInterop.OpenIntentV1.fromPath`, `TermInterop.OpenIntentV1.path`,
  `TermInterop.OpenIntentV1.uri`, `TermInterop.OpenIntentV1.parseUri` — the four conversions;
* `TermInterop.IntentReadyV1.new` — the prefix announced by a listener.

Main results:

* `TermInterop.OpenIntentV1.fromPath_eq_ok_iff`, `TermInterop.OpenIntentV1.path_eq_ok_iff`,
  `TermInterop.OpenIntentV1.parseUri_eq_ok_iff` — what each conversion accepts;
* `TermInterop.callback_uri_bijection` — **URIs and paths determine each other**.
-/

import TermInterop.FileSystem
import TermInterop.Utf8Lossy

set_option relaxedAutoImplicit false
set_option autoImplicit false

namespace TermInterop

def OPEN_INTENT_SCHEMA_V1 : String := "urn:terminal-interop:open-intent:v1"

def INTENT_READY_SCHEMA_V1 : String := "urn:terminal-interop:intent-ready:v1"

def INTENT_URI_PREFIX_V1 : String := "terminal-interop-intent://v1/open/"

def ENDPOINT_HEX_BYTES : ℕ := 16

def ENDPOINT_HEX_LEN : ℕ := ENDPOINT_HEX_BYTES * 2

def MAX_TARGET_BYTES : ℕ := 16 * 1024

/-- The failures of the conversions between intents, URIs and paths, and of their transport. -/
inductive IntentError
  | invalidEndpoint
  | invalidUri
  | unsupportedUriComponent
  | invalidTargetEncoding
  | invalidTargetBytes
  | targetNotAbsolute
  | unsupportedPathEncoding
  | unsupportedSchema (schema : String)
  | invalidReceiptDetail
  | invalidReadyPrefix
  | runtimeDirectoryUnavailable
  | runtimeDirectoryNotPrivate (root : PathBuf)
  | socketPathTooLong (path : PathBuf)
  | endpointInUse (path : PathBuf)
  | frameTooLarge
  | truncatedFrame
  | endpointMismatch
  | io (message : String)
  | json
  deriving DecidableEq

/-! ### Endpoints -/

/-- A lowercase hexadecimal digit. -/
def isLowerHex (byte : UInt8) : Bool :=
  (0x30 ≤ byte && byte ≤ 0x39) || (0x61 ≤ byte && byte ≤ 0x66)

/-- The canonical texts of an endpoint. -/
def IsEndpoint (value : String) : Prop :=
  (Text.asBytes value).length = ENDPOINT_HEX_LEN ∧
    (Text.asBytes value).all isLowerHex = true

instance (value : String) : Decidable (IsEndpoint value) := inferInstanceAs (Decidable (_ ∧ _))

/-- **An endpoint**: its text is private to the source, so that it is always canonical. -/
structure EndpointId where
  asStr : String
  canonical : IsEndpoint asStr

/-- Validate one canonical lowercase endpoint representation. -/
def EndpointId.parse (value : String) : Except IntentError EndpointId :=
  if h : IsEndpoint value then .ok ⟨value, h⟩ else .error .invalidEndpoint

theorem EndpointId.parse_eq_ok_iff {value : String} {endpoint : EndpointId} :
    EndpointId.parse value = .ok endpoint ↔ endpoint.asStr = value := by
  obtain ⟨text, htext⟩ := endpoint
  rw [EndpointId.parse]
  constructor
  · intro h
    split at h
    · exact (congrArg EndpointId.asStr (Except.ok.inj h)).symm
    · cases h
  · rintro rfl
    rw [dif_pos htext]

/-- The characters of an endpoint are lowercase hexadecimal digits. -/
theorem EndpointId.forall_mem (endpoint : EndpointId) :
    ∀ c ∈ endpoint.asStr.toList, c.toNat < 128 ∧ isLowerHex (Text.asciiByte c) = true := by
  have hascii : ∀ b : UInt8, isLowerHex b = true → b.toNat < 128 := by
    intro b hb
    simp only [isLowerHex, Bool.or_eq_true, Bool.and_eq_true, decide_eq_true_eq,
      UInt8.le_iff_toNat_le] at hb
    have h39 : (0x39 : UInt8).toNat = 57 := rfl
    have h66 : (0x66 : UInt8).toNat = 102 := rfl
    omega
  exact (Text.forall_mem_asBytes_iff hascii _).1 (List.all_eq_true.1 endpoint.canonical.2)

/-- No separator of a URI is a lowercase hexadecimal digit. -/
theorem EndpointId.notMem (endpoint : EndpointId) {c : Char}
    (hc : isLowerHex (Text.asciiByte c) = false) : c ∉ endpoint.asStr.toList := by
  intro hmem
  rw [(endpoint.forall_mem c hmem).2] at hc
  cases hc

/-! ### Intents -/

inductive IntentAction
  | openArtifact
  deriving DecidableEq

inductive PathEncoding
  | unixBytesBase64urlV1
  | utf8Base64urlV1
  deriving DecidableEq

/-- A path under an encoding profile. -/
structure EncodedPathV1 where
  encoding : PathEncoding
  value : String
  deriving DecidableEq

/-- A request to open one file. -/
structure OpenIntentV1 where
  schema : String
  endpoint : EndpointId
  action : IntentAction
  target : EncodedPathV1

/-- The record by which a listener announces its endpoint. -/
structure IntentReadyV1 where
  schema : String
  endpoint : EndpointId
  uriPrefix : String

def IntentReadyV1.new (endpoint : EndpointId) : IntentReadyV1 where
  schema := INTENT_READY_SCHEMA_V1
  endpoint := endpoint
  uriPrefix := INTENT_URI_PREFIX_V1 ++ endpoint.asStr ++ "/"

/-- A target is not empty, not too long, and free of NUL. -/
def validateTargetBytes (bytes : Bytes) : Except IntentError Unit :=
  if bytes.isEmpty || bytes.length > MAX_TARGET_BYTES || bytes.contains 0 then
    .error .invalidTargetBytes
  else .ok ()

/-- The encoding profile of this platform, and the bytes of a path. -/
def pathBytes (path : PathBuf) : PathEncoding × Bytes := (.unixBytesBase64urlV1, path)

/-- A path of this platform from its bytes under a profile. -/
def pathFromBytes (encoding : PathEncoding) (bytes : Bytes) : Except IntentError PathBuf :=
  if encoding ≠ .unixBytesBase64urlV1 then .error .unsupportedPathEncoding else .ok bytes

/-- Validate that a ready record is bound to its exact endpoint URI prefix. -/
def IntentReadyV1.validate (ready : IntentReadyV1) : Except IntentError Unit := do
  Checks.ensure (ready.schema == INTENT_READY_SCHEMA_V1) (.unsupportedSchema ready.schema)
  Checks.ensure (ready.uriPrefix == INTENT_URI_PREFIX_V1 ++ ready.endpoint.asStr ++ "/")
    .invalidReadyPrefix

/-- What a listener announces passes its own check. -/
theorem IntentReadyV1.validate_new (endpoint : EndpointId) :
    (IntentReadyV1.new endpoint).validate = .ok () := by
  simp [IntentReadyV1.validate, IntentReadyV1.new, Checks.bind_eq_ok_iff, Checks.ensure]

namespace OpenIntentV1

section Conversions

variable (b64 : Base64.CanonicalCodec)

/-- Construct an open intent from an exact absolute path. -/
def fromPath (endpoint : EndpointId) (path : PathBuf) : Except IntentError OpenIntentV1 := do
  Checks.ensure (isAbsolute path) .targetNotAbsolute
  let (encoding, bytes) := pathBytes path
  validateTargetBytes bytes
  .ok
    { schema := OPEN_INTENT_SCHEMA_V1
      endpoint := endpoint
      action := .openArtifact
      target := { encoding := encoding, value := b64.encode bytes } }

/-- The bytes of the target, valid under its own profile. -/
def portablePathBytes (intent : OpenIntentV1) : Except IntentError Bytes := do
  Checks.ensure (intent.schema == OPEN_INTENT_SCHEMA_V1) (.unsupportedSchema intent.schema)
  let bytes ← Checks.okOr (b64.decode intent.target.value) .invalidTargetEncoding
  validateTargetBytes bytes
  match intent.target.encoding with
  | .unixBytesBase64urlV1 => Checks.ensure (bytes.head? == some slash) .targetNotAbsolute
  | .utf8Base64urlV1 => do
      Checks.ensure (Utf8Lossy.decodeStrict bytes).isSome .invalidTargetEncoding
      Checks.ensure (isWindowsAbsolute bytes) .targetNotAbsolute
  .ok bytes

/-- Validate the contract without requiring support for its path encoding on this host. -/
def validatePortable (intent : OpenIntentV1) : Except IntentError Unit := do
  let _ ← intent.portablePathBytes b64
  .ok ()

/-- Decode and validate the exact path carried by this intent. -/
def path (intent : OpenIntentV1) : Except IntentError PathBuf := do
  let bytes ← intent.portablePathBytes b64
  let path ← pathFromBytes intent.target.encoding bytes
  Checks.ensure (isAbsolute path) .targetNotAbsolute
  .ok path

/-- Encode this intent as its canonical callback URI. -/
def uri (intent : OpenIntentV1) : Except IntentError String := do
  let path ← intent.path b64
  let (_, bytes) := pathBytes path
  .ok (INTENT_URI_PREFIX_V1 ++ intent.endpoint.asStr ++ "/" ++ b64.encode bytes)

/-- Parse and validate one canonical callback URI. -/
def parseUri (uri : String) : Except IntentError OpenIntentV1 := do
  Checks.ensure (!(uri.toList.contains '?' || uri.toList.contains '#')) .unsupportedUriComponent
  let suffix ← Checks.okOr (Text.stripPrefix INTENT_URI_PREFIX_V1 uri) .invalidUri
  let segments := suffix.toList.splitOn '/'
  let first ← Checks.okOr segments[0]? .invalidUri
  let endpoint ← EndpointId.parse (String.ofList first)
  let encoded ← Checks.okOr segments[1]? .invalidUri
  Checks.ensure (!(encoded.isEmpty || segments[2]?.isSome)) .invalidUri
  let intent : OpenIntentV1 :=
    { schema := OPEN_INTENT_SCHEMA_V1
      endpoint := endpoint
      action := .openArtifact
      target := { encoding := .unixBytesBase64urlV1, value := String.ofList encoded } }
  let _ ← intent.path b64
  .ok intent

/-! ### What each conversion accepts -/

/-- The paths that an intent can carry. -/
def IsTarget (path : PathBuf) : Prop :=
  isAbsolute path = true ∧ path ≠ [] ∧ path.length ≤ MAX_TARGET_BYTES ∧ 0 ∉ path

/-- The intent for a path and an endpoint. -/
def ofTarget (endpoint : EndpointId) (path : PathBuf) : OpenIntentV1 where
  schema := OPEN_INTENT_SCHEMA_V1
  endpoint := endpoint
  action := .openArtifact
  target := { encoding := .unixBytesBase64urlV1, value := b64.encode path }

/-- The URI for a path and an endpoint. -/
def targetUri (endpoint : EndpointId) (path : PathBuf) : String :=
  INTENT_URI_PREFIX_V1 ++ endpoint.asStr ++ "/" ++ b64.encode path

theorem validateTargetBytes_eq_ok_iff {bytes : Bytes} :
    validateTargetBytes bytes = .ok () ↔
      bytes ≠ [] ∧ bytes.length ≤ MAX_TARGET_BYTES ∧ 0 ∉ bytes := by
  simp [validateTargetBytes, and_assoc]

theorem fromPath_eq_ok_iff {endpoint : EndpointId} {path : PathBuf} {intent : OpenIntentV1} :
    fromPath b64 endpoint path = .ok intent ↔
      IsTarget path ∧ intent = ofTarget b64 endpoint path := by
  simp only [fromPath, pathBytes, Checks.bind_eq_ok_iff, Unique.exists_iff, PUnit.default_eq_unit,
    Checks.ensure_eq_ok_iff, validateTargetBytes_eq_ok_iff, Except.ok.injEq, IsTarget, and_assoc]
  refine and_congr_right fun _ => and_congr_right fun _ => and_congr_right fun _ =>
    and_congr_right fun _ => eq_comm

theorem path_eq_ok_iff {intent : OpenIntentV1} {p : PathBuf} :
    intent.path b64 = .ok p ↔
      intent.schema = OPEN_INTENT_SCHEMA_V1 ∧
      intent.target.encoding = .unixBytesBase64urlV1 ∧
      b64.decode intent.target.value = some p ∧ IsTarget p := by
  obtain ⟨schema, endpoint, action, encoding, value⟩ := intent
  cases encoding with
  | unixBytesBase64urlV1 =>
      simp only [path, portablePathBytes, pathFromBytes, Checks.bind_eq_ok_iff, Unique.exists_iff,
        PUnit.default_eq_unit, Checks.ensure_eq_ok_iff, Checks.okOr_eq_ok_iff,
        validateTargetBytes_eq_ok_iff, Except.ok.injEq, beq_iff_eq, ne_eq, not_true_eq_false,
        if_false, true_and, IsTarget, isAbsolute]
      constructor
      · rintro ⟨_, ⟨hschema, bytes, hdecode, ⟨hne, hlen, hnul⟩, hslash, rfl⟩, _, rfl, -, rfl⟩
        exact ⟨hschema, hdecode, hslash, hne, hlen, hnul⟩
      · rintro ⟨hschema, hdecode, hslash, hne, hlen, hnul⟩
        exact ⟨p, ⟨hschema, p, hdecode, ⟨hne, hlen, hnul⟩, hslash, rfl⟩, p, rfl, hslash, rfl⟩
  | utf8Base64urlV1 =>
      -- the other profile has no path on this platform
      simp [path, pathFromBytes, Checks.bind_eq_ok_iff]

/-- What has a path here is valid everywhere. -/
theorem validatePortable_of_path {intent : OpenIntentV1} {p : PathBuf}
    (h : intent.path b64 = .ok p) : intent.validatePortable b64 = .ok () := by
  obtain ⟨bytes, hbytes, -⟩ := Checks.bind_eq_ok_iff.1 h
  exact Checks.bind_eq_ok_iff.2 ⟨bytes, hbytes, rfl⟩

theorem uri_eq_ok_iff {intent : OpenIntentV1} {s : String} :
    intent.uri b64 = .ok s ↔
      ∃ p, intent.path b64 = .ok p ∧ s = targetUri b64 intent.endpoint p := by
  simp only [uri, pathBytes, Checks.bind_eq_ok_iff, Except.ok.injEq, targetUri]
  exact exists_congr fun p => and_congr_right fun _ => eq_comm

/-- The intent for a path carries that path. -/
theorem path_ofTarget {endpoint : EndpointId} {p : PathBuf} (h : IsTarget p) :
    (ofTarget b64 endpoint p).path b64 = .ok p :=
  (path_eq_ok_iff b64).2 ⟨rfl, rfl, b64.decode_encode p, h⟩

/-- The intent for a path has the URI for that path. -/
theorem uri_ofTarget {endpoint : EndpointId} {p : PathBuf} (h : IsTarget p) :
    (ofTarget b64 endpoint p).uri b64 = .ok (targetUri b64 endpoint p) :=
  (uri_eq_ok_iff b64).2 ⟨p, path_ofTarget b64 h, rfl⟩

/-- Only the empty path has an empty encoding. -/
theorem encode_ne_empty {p : PathBuf} (h : p ≠ []) : b64.encode p ≠ "" := by
  intro hp
  have hnil : (Text.asBytes (b64.encode [])).length ≤ 0 := b64.length_encode_le []
  have hempty : b64.encode [] = "" := by
    have htoList : (b64.encode []).toList = [] := by
      cases hc : (b64.encode []).toList with
      | nil => rfl
      | cons c cs =>
          have hpos := String.utf8EncodeChar_ne_nil (c := c)
          rw [Text.asBytes, hc, Text.utf8_cons, List.length_append] at hnil
          have hzero : (String.utf8EncodeChar c).length = 0 := by omega
          exact absurd (List.length_eq_zero_iff.1 hzero) hpos
    rw [← String.toList_inj, htoList]
    rfl
  exact h (b64.encode_injective (hp.trans hempty.symm))

/-- A separator occurs in no encoding. -/
theorem notMem_encode {p : PathBuf} {c : Char} (hc : c.isAlphanum = false) (hdash : c ≠ '-')
    (hlow : c ≠ '_') : c ∉ (b64.encode p).toList := by
  intro hmem
  rcases b64.url_safe p c hmem with h | h | h
  · rw [hc] at h
    cases h
  · exact hdash h
  · exact hlow h

/-- A separator outside the fixed part of a URI occurs in none. -/
theorem notMem_targetUri {endpoint : EndpointId} {p : PathBuf} {c : Char}
    (hfixed : c ∉ (INTENT_URI_PREFIX_V1 ++ "/").toList)
    (hhex : isLowerHex (Text.asciiByte c) = false) (hc : c.isAlphanum = false)
    (hsafe : c ≠ '-' ∧ c ≠ '_') : c ∉ (targetUri b64 endpoint p).toList := by
  intro hmem
  simp only [targetUri, String.toList_append, List.mem_append] at hmem hfixed
  rcases hmem with ((hmem | hmem) | hmem) | hmem
  · exact hfixed (Or.inl hmem)
  · exact endpoint.notMem hhex hmem
  · exact hfixed (Or.inr hmem)
  · exact notMem_encode b64 hc hsafe.1 hsafe.2 hmem

/-- **What the parser of URIs accepts**: the URI for a path and an endpoint, and nothing else. -/
theorem parseUri_eq_ok_iff {s : String} {intent : OpenIntentV1} :
    parseUri b64 s = .ok intent ↔
      ∃ endpoint p, IsTarget p ∧ s = targetUri b64 endpoint p ∧
        intent = ofTarget b64 endpoint p := by
  simp only [parseUri, Checks.bind_eq_ok_iff, Unique.exists_iff, Checks.ensure_eq_ok_iff,
    Checks.okOr_eq_ok_iff, EndpointId.parse_eq_ok_iff, path_eq_ok_iff,
    Text.stripPrefix_eq_some_iff, Except.ok.injEq]
  constructor
  · rintro ⟨-, suffix, rfl, first, hfirst, endpoint, hendpoint, encoded, hencoded, hend, p,
      ⟨-, -, hdecode, htarget⟩, rfl⟩
    -- the first two segments are all there are
    have hpair : suffix.toList.splitOn '/' = [first, encoded] := by
      match hsegments : suffix.toList.splitOn '/' with
      | [] => simp [hsegments] at hfirst
      | [a] => simp [hsegments] at hencoded
      | [a, b] => simp_all
      | a :: b :: c :: rest => simp [hsegments] at hend
    obtain ⟨hsuffix, -, -⟩ := Text.splitOn_eq_pair_iff.1 hpair
    have hvalue := b64.encode_of_decode _ _ hdecode
    refine ⟨endpoint, p, htarget, ?_, ?_⟩
    · rw [targetUri, hvalue, hendpoint, ← String.toList_inj]
      simp [hsuffix]
    · rw [ofTarget, hvalue]
  · rintro ⟨endpoint, p, htarget, rfl, rfl⟩
    have hsegments : (endpoint.asStr ++ "/" ++ b64.encode p).toList.splitOn '/' =
        [endpoint.asStr.toList, (b64.encode p).toList] := by
      refine Text.splitOn_eq_pair_iff.2 ⟨by simp, endpoint.notMem (by decide), ?_⟩
      exact notMem_encode b64 (by decide) (by decide) (by decide)
    refine ⟨?_, endpoint.asStr ++ "/" ++ b64.encode p, ?_, endpoint.asStr.toList, ?_, endpoint, ?_,
      (b64.encode p).toList, ?_, ?_, p, ⟨trivial, trivial, ?_, htarget⟩, ?_⟩
    · have hquery := @notMem_targetUri b64 endpoint p '?'
      have hfragment := @notMem_targetUri b64 endpoint p '#'
      simp [hquery (by decide) (by decide) (by decide) (by decide),
        hfragment (by decide) (by decide) (by decide) (by decide)]
    · simp [targetUri, String.append_assoc]
    · rw [hsegments]
      rfl
    · simp
    · rw [hsegments]
      rfl
    · rw [hsegments]
      have hne : (b64.encode p).toList ≠ [] := by
        intro h
        exact encode_ne_empty b64 htarget.2.1 (by rw [← String.toList_inj, h]; rfl)
      simp [hne]
    · simp
    · rw [ofTarget, String.ofList_toList]

end Conversions

end OpenIntentV1

/-! ### The bijection -/

open OpenIntentV1 in
/-- **URIs and paths determine each other.**  The intent for an absolute path has a URI, from which
that intent and that path are read back; a URI that parses at all is the one that its intent
writes, for an absolute path within the bounds from which the intent can be made again; and what a
listener announces, followed by the encoding of such a path, is the URI for that path. -/
theorem callback_uri_bijection (b64 : Base64.CanonicalCodec) :
    (∀ (endpoint : EndpointId) (p : PathBuf) (intent : OpenIntentV1),
      fromPath b64 endpoint p = .ok intent →
        ∃ s, intent.uri b64 = .ok s ∧ parseUri b64 s = .ok intent ∧ intent.path b64 = .ok p) ∧
    (∀ (s : String) (intent : OpenIntentV1), parseUri b64 s = .ok intent →
      intent.uri b64 = .ok s ∧ ∃ p, intent.path b64 = .ok p ∧ isAbsolute p = true ∧ 0 ∉ p ∧
        p ≠ [] ∧ p.length ≤ 16384 ∧ fromPath b64 intent.endpoint p = .ok intent) ∧
    ∀ (endpoint : EndpointId) (p : PathBuf), isAbsolute p = true → 0 ∉ p → p ≠ [] →
      p.length ≤ 16384 →
        ∃ intent, parseUri b64 ((IntentReadyV1.new endpoint).uriPrefix ++ b64.encode p) =
            .ok intent ∧
          intent.endpoint = endpoint ∧ intent.path b64 = .ok p := by
  refine ⟨?_, ?_, ?_⟩
  · intro endpoint p intent h
    obtain ⟨htarget, rfl⟩ := (fromPath_eq_ok_iff b64).1 h
    exact ⟨targetUri b64 endpoint p, uri_ofTarget b64 htarget,
      (parseUri_eq_ok_iff b64).2 ⟨endpoint, p, htarget, rfl, rfl⟩, path_ofTarget b64 htarget⟩
  · intro s intent h
    obtain ⟨endpoint, p, htarget, rfl, rfl⟩ := (parseUri_eq_ok_iff b64).1 h
    obtain ⟨habsolute, hne, hlength, hnul⟩ := id htarget
    exact ⟨uri_ofTarget b64 htarget, p, path_ofTarget b64 htarget, habsolute, hnul, hne, hlength,
      (fromPath_eq_ok_iff b64).2 ⟨htarget, rfl⟩⟩
  · intro endpoint p habsolute hnul hne hlength
    have htarget : IsTarget p := ⟨habsolute, hne, hlength, hnul⟩
    refine ⟨ofTarget b64 endpoint p, (parseUri_eq_ok_iff b64).2 ⟨endpoint, p, htarget, rfl, rfl⟩,
      rfl, path_ofTarget b64 htarget⟩

/-- The endpoint of the sample. -/
def sampleEndpoint : EndpointId := ⟨"0123456789abcdef0123456789abcdef", by decide⟩

/-- The path `/tmp/agent artifact#1.png` travels through its URI, and `/tmp/a` is read from what
the listener announces. -/
theorem callback_uri_bijection_sample :
    (∃ intent s, OpenIntentV1.fromPath Base64.urlSafeNoPad sampleEndpoint
        (Text.asBytes "/tmp/agent artifact#1.png") = .ok intent ∧
      intent.uri Base64.urlSafeNoPad = .ok s ∧
      OpenIntentV1.parseUri Base64.urlSafeNoPad s = .ok intent ∧
      ∃ p, intent.path Base64.urlSafeNoPad = .ok p ∧
        OpenIntentV1.fromPath Base64.urlSafeNoPad intent.endpoint p = .ok intent) ∧
    ∃ intent, OpenIntentV1.parseUri Base64.urlSafeNoPad
        ((IntentReadyV1.new sampleEndpoint).uriPrefix ++
          Base64.urlSafeNoPad.encode (Text.asBytes "/tmp/a")) = .ok intent ∧
      intent.endpoint = sampleEndpoint ∧
      intent.path Base64.urlSafeNoPad = .ok (Text.asBytes "/tmp/a") := by
  obtain ⟨hpath, huri, hready⟩ := callback_uri_bijection Base64.urlSafeNoPad
  refine ⟨?_, hready sampleEndpoint _ (by decide) (by decide) (by decide) (by decide)⟩
  have hfrom : OpenIntentV1.fromPath Base64.urlSafeNoPad sampleEndpoint
      (Text.asBytes "/tmp/agent artifact#1.png") = .ok (OpenIntentV1.ofTarget Base64.urlSafeNoPad
        sampleEndpoint (Text.asBytes "/tmp/agent artifact#1.png")) := rfl
  obtain ⟨s, hs, hparse, -⟩ := hpath sampleEndpoint _ _ hfrom
  obtain ⟨-, p, hp, -, -, -, -, hback⟩ := huri s _ hparse
  exact ⟨_, s, hfrom, hs, hparse, p, hp, hback⟩

end TermInterop
