/-
Artifact references: short handles for local files.

A registry entry `ArtifactRefV1` binds an opaque token to the path of a file and to the identity
the file had when it was offered.  The token is named in three ways: bare, as `@TOKEN`, and as a
URI.  `parseToken` reads all three, and `ArtifactRefV1.validate` hands it the token of a record to
find out whether that token is canonical.

The published schema fixes the canonical tokens by a pattern, `IsCanonicalToken`.  A token drawn by
`randomToken` follows it, and the two prefixed forms of a canonical token name that token.  But
since `parseToken` strips a prefix before it looks at the characters, `validate` also accepts a
record whose token carries one of the prefixes itself.

Main definitions:

* `TermInterop.FileIdentity`, `TermInterop.ArtifactRefV1` — the record;
* `TermInterop.parseToken`, `TermInterop.ArtifactRefV1.validate` — the reader of references and the
  structural check of a record;
* `TermInterop.randomToken` — a fresh token.

Main results:

* `TermInterop.parseToken_eq_ok_iff` — what the reader of references accepts;
* `TermInterop.ArtifactRefV1.validate_eq_ok_iff` — what an accepted record satisfies;
* `TermInterop.canonical_randomToken` — fresh tokens are canonical;
* `TermInterop.handles_name_token_iff` — **when the handles of an accepted record name it**.
-/

import TermInterop.FileSystem
import TermInterop.Utf8Lossy

set_option relaxedAutoImplicit false
set_option autoImplicit false

namespace TermInterop

/-! ### Records -/

/-- Stable schema identity for local artifact references. -/
def ARTIFACT_REF_SCHEMA_V1 : String := "urn:terminal-interop:artifact-ref:v1"

/-- URI prefix suitable for hyperlinks and desktop dispatch adapters. -/
def ARTIFACT_REF_URI_PREFIX : String := "terminal-interop://artifact/"

def TOKEN_BYTES : ℕ := 8

def TOKEN_LENGTH : ℕ := 13

def TOKEN_ALPHABET : List Char := "0123456789ABCDEFGHJKMNPQRSTVWXYZ".toList

def MAX_ENTRY_BYTES : ℕ := 64 * 1024

/-- Largest artifact of the shared preview profile. -/
def MAX_ARTIFACT_INPUT_BYTES_V1 : ℕ := 32 * 1024 * 1024

/-- File identity captured when an agent offers an artifact. -/
structure FileIdentity where
  size : UInt64
  modifiedUnixNanos : Option (BitVec 128)
  device : Option UInt64
  inode : Option UInt64
  contentSha256Base64 : String
  deriving DecidableEq

/-- Portable local registry entry. -/
structure ArtifactRefV1 where
  schema : String
  token : String
  pathEncoding : String
  pathBase64 : String
  identity : FileIdentity
  registeredAtUnixMs : UInt64
  deriving DecidableEq

/-- Portable structural failure in an artifact reference record. -/
inductive ArtifactRefValidationError
  | unsupportedSchema (schema : String)
  | invalidToken
  | unsupportedPathEncoding (encoding : String)
  | invalidPath
  | invalidDigest
  | artifactLimit (actual : UInt64) (limit : ℕ)
  deriving DecidableEq

/-- Artifact reference or registry failure. -/
inductive RegistryError
  | io (kind : IoErrorKind)
  | json
  | random
  | invalidReference
  | notFound (token : String)
  | notRegularFile (path : PathBuf)
  | identityChanged (token : String)
  | unsupportedPathEncoding (encoding : String)
  | clockBeforeEpoch
  | tokenExhausted
  | entryLimit
  | artifactLimit (actual : UInt64) (limit : ℕ)
  deriving DecidableEq

namespace ArtifactRefV1

/-- Shell-friendly short reference. -/
def shortRef (entry : ArtifactRefV1) : String := "@" ++ entry.token

/-- URI that does not expose or duplicate the original path. -/
def uri (entry : ArtifactRefV1) : String := ARTIFACT_REF_URI_PREFIX ++ entry.token

end ArtifactRefV1

/-! ### References -/

/-- The bytes of the token alphabet. -/
def tokenBytes : Bytes := TOKEN_ALPHABET.map Text.asciiByte

/-- The token part of `@TOKEN`, of the typed URI, or of a bare token. -/
def referenceToken (reference : String) : String :=
  ((Text.stripPrefix ARTIFACT_REF_URI_PREFIX reference).or
    (Text.stripPrefix "@" reference)).getD reference

/-- Extract and validate a token from `@TOKEN`, a bare token, or the typed URI. -/
def parseToken (reference : String) : Except RegistryError String :=
  let token := referenceToken reference
  let bytes := Text.asBytes token
  if bytes.length ≠ TOKEN_LENGTH ∨ ¬ bytes.all (tokenBytes.contains ·) then
    .error .invalidReference
  else .ok token

/-- The characters of the pattern `[0-9A-HJKMNP-TV-Z]` of the published schema. -/
def tokenPattern (c : Char) : Bool :=
  ('0' ≤ c && c ≤ '9') || ('A' ≤ c && c ≤ 'H') || c == 'J' || c == 'K' || c == 'M' || c == 'N' ||
    ('P' ≤ c && c ≤ 'T') || ('V' ≤ c && c ≤ 'Z')

/-- **The canonical tokens**: the pattern `^[0-9A-HJKMNP-TV-Z]{13}$` of the published schema. -/
def IsCanonicalToken (token : String) : Prop :=
  token.toList.length = 13 ∧ ∀ c ∈ token.toList, tokenPattern c = true

instance (token : String) : Decidable (IsCanonicalToken token) :=
  inferInstanceAs (Decidable (_ ∧ _))

/-! ### Validation -/

section Validate

variable (b64 : Base64.Codec)

/-- The path of a record under its encoding profile. -/
def validatePath (pathEncoding : String) (path : Bytes) :
    Except ArtifactRefValidationError Unit :=
  if pathEncoding = "unix-bytes-v1" then
    Checks.ensure (path.head? == some slash) .invalidPath
  else if pathEncoding = "utf8-v1" then
    Checks.ensure ((Utf8Lossy.decodeStrict path).isSome && isWindowsAbsolute path) .invalidPath
  else .error (.unsupportedPathEncoding pathEncoding)

/-- **Validate the portable record** without resolving or opening its local file. -/
def ArtifactRefV1.validate (entry : ArtifactRefV1) : Except ArtifactRefValidationError Unit := do
  Checks.ensure (entry.schema == ARTIFACT_REF_SCHEMA_V1) (.unsupportedSchema entry.schema)
  let _ ← Checks.mapErr (fun _ => .invalidToken) (parseToken entry.token)
  let path ← Checks.okOr (b64.decode entry.pathBase64) .invalidPath
  Checks.ensure (!(path.isEmpty || path.contains 0)) .invalidPath
  validatePath entry.pathEncoding path
  let digest ← Checks.okOr (b64.decode entry.identity.contentSha256Base64) .invalidDigest
  Checks.ensure (digest.length == 32) .invalidDigest
  Checks.ensure (entry.identity.size.toNat ≤ MAX_ARTIFACT_INPUT_BYTES_V1)
    (.artifactLimit entry.identity.size MAX_ARTIFACT_INPUT_BYTES_V1)

/-- **What an accepted record satisfies**, and all it has to. -/
theorem ArtifactRefV1.validate_eq_ok_iff {entry : ArtifactRefV1} :
    entry.validate b64 = .ok () ↔
      entry.schema = ARTIFACT_REF_SCHEMA_V1 ∧ (∃ token, parseToken entry.token = .ok token) ∧
      (∃ path, b64.decode entry.pathBase64 = some path ∧ path ≠ [] ∧ 0 ∉ path ∧
        validatePath entry.pathEncoding path = .ok ()) ∧
      (∃ digest, b64.decode entry.identity.contentSha256Base64 = some digest ∧
        digest.length = 32) ∧
      entry.identity.size.toNat ≤ MAX_ARTIFACT_INPUT_BYTES_V1 := by
  simp only [ArtifactRefV1.validate, Checks.bind_eq_ok_iff, Unique.exists_iff,
    PUnit.default_eq_unit, Checks.ensure_eq_ok_iff, Checks.okOr_eq_ok_iff, Checks.mapErr_eq_ok_iff,
    beq_iff_eq, Bool.not_eq_true', Bool.or_eq_false_iff, List.isEmpty_eq_false_iff,
    List.contains_eq_mem, decide_eq_false_iff_not, decide_eq_true_eq]
  constructor
  · rintro ⟨hschema, token, htoken, path, hpath, ⟨hne, hnul⟩, hvalid, digest, hdigest, hlength,
      hsize⟩
    exact ⟨hschema, ⟨token, htoken⟩, ⟨path, hpath, hne, hnul, hvalid⟩, ⟨digest, hdigest, hlength⟩,
      hsize⟩
  · rintro ⟨hschema, ⟨token, htoken⟩, ⟨path, hpath, hne, hnul, hvalid⟩, ⟨digest, hdigest, hlength⟩,
      hsize⟩
    exact ⟨hschema, token, htoken, path, hpath, ⟨hne, hnul⟩, hvalid, digest, hdigest, hlength,
      hsize⟩

/-- A path under the Unix profile is accepted when it is absolute. -/
theorem validatePath_unix {path : Bytes} (h : isAbsolute path = true) :
    validatePath "unix-bytes-v1" path = .ok () := by
  rw [validatePath, if_pos rfl, Checks.ensure_eq_ok_iff]
  exact h

end Validate

/-! ### What the reader of references accepts -/

/-- The alphabet and the pattern contain the same characters. -/
theorem mem_tokenBytes_iff {c : Char} (h : c.toNat < 128) :
    Text.asciiByte c ∈ tokenBytes ↔ tokenPattern c = true := by
  have hall : ∀ n < 128, UInt8.ofNat n ∈ tokenBytes ↔ tokenPattern (Char.ofNat n) = true := by
    decide +kernel
  have hc := hall c.toNat h
  rwa [Char.ofNat_toNat] at hc

/-- Every character of the pattern is ASCII. -/
theorem ascii_of_tokenPattern {c : Char} (h : tokenPattern c = true) : c.toNat < 128 := by
  by_contra hc
  have hle : ∀ d : Char, d.toNat < 128 → ¬ c ≤ d := by
    intro d hd hcd
    have hnat : c.toNat ≤ d.toNat := hcd
    omega
  have hne : ∀ d : Char, d.toNat < 128 → c ≠ d := by
    rintro d hd rfl
    exact hc hd
  simp [tokenPattern, hle '9' (by decide), hle 'H' (by decide), hle 'T' (by decide),
    hle 'Z' (by decide), hne 'J' (by decide), hne 'K' (by decide), hne 'M' (by decide),
    hne 'N' (by decide)] at h

/-- A canonical token on its bytes. -/
theorem isCanonicalToken_iff {token : String} :
    IsCanonicalToken token ↔
      (Text.asBytes token).length = TOKEN_LENGTH ∧ ∀ b ∈ Text.asBytes token, b ∈ tokenBytes := by
  have hascii : ∀ b ∈ tokenBytes, b.toNat < 128 := by decide +kernel
  have hchars : (∀ b ∈ Text.asBytes token, b ∈ tokenBytes) ↔
      ∀ c ∈ token.toList, tokenPattern c = true := by
    rw [Text.forall_mem_asBytes_iff hascii]
    constructor
    · intro h c hc
      exact (mem_tokenBytes_iff (h c hc).1).1 (h c hc).2
    · intro h c hc
      exact ⟨ascii_of_tokenPattern (h c hc), (mem_tokenBytes_iff (ascii_of_tokenPattern (h c hc))).2
        (h c hc)⟩
  rw [hchars]
  refine and_congr_left fun hall => ?_
  -- a text of ASCII characters has as many bytes as characters
  rw [Text.length_asBytes_of_ascii fun c hc => ascii_of_tokenPattern (hall c hc)]
  rfl

/-- No canonical token starts with a character outside the pattern. -/
theorem IsCanonicalToken.notStarting {token : String} (h : IsCanonicalToken token) {c : Char}
    {cs : List Char} (hc : tokenPattern c = false) : ¬ (c :: cs) <+: token.toList := by
  intro hpre
  have hmem : c ∈ token.toList := hpre.subset List.mem_cons_self
  rw [h.2 c hmem] at hc
  cases hc

/-- The two prefixes of a reference. -/
theorem IsCanonicalToken.notStarting_reference {token : String} (h : IsCanonicalToken token) :
    ¬ "@".toList <+: token.toList ∧ ¬ ARTIFACT_REF_URI_PREFIX.toList <+: token.toList :=
  ⟨h.notStarting (by decide), h.notStarting (by decide)⟩

/-- The three spellings of a canonical token. -/
theorem referenceToken_eq_iff {reference token : String} (h : IsCanonicalToken token) :
    referenceToken reference = token ↔
      reference = ARTIFACT_REF_URI_PREFIX ++ token ∨ reference = "@" ++ token ∨
        reference = token := by
  rw [referenceToken]
  constructor
  · intro heq
    cases huri : Text.stripPrefix ARTIFACT_REF_URI_PREFIX reference with
    | some rest =>
        rw [huri] at heq
        obtain rfl : rest = token := heq
        exact Or.inl (Text.stripPrefix_eq_some_iff.1 huri)
    | none =>
        cases hat : Text.stripPrefix "@" reference with
        | some rest =>
            rw [huri, hat] at heq
            obtain rfl : rest = token := heq
            exact Or.inr (Or.inl (Text.stripPrefix_eq_some_iff.1 hat))
        | none =>
            rw [huri, hat] at heq
            exact Or.inr (Or.inr heq)
  · intro hforms
    obtain ⟨hat, huri⟩ := h.notStarting_reference
    rcases hforms with rfl | rfl | rfl
    · rw [Text.stripPrefix_eq_some_iff.2 rfl]
      rfl
    · -- the short form does not start like a URI
      have hnone : Text.stripPrefix ARTIFACT_REF_URI_PREFIX ("@" ++ token) = none := by
        rw [Text.stripPrefix_eq_none_iff]
        simp [ARTIFACT_REF_URI_PREFIX]
      rw [hnone, Text.stripPrefix_eq_some_iff.2 rfl]
      rfl
    · rw [Text.stripPrefix_eq_none_iff.2 hat, Text.stripPrefix_eq_none_iff.2 huri]
      rfl

/-- **What the reader of references accepts**: a canonical token, bare or under one of the two
prefixes. -/
theorem parseToken_eq_ok_iff {reference token : String} :
    parseToken reference = .ok token ↔
      IsCanonicalToken token ∧ (reference = ARTIFACT_REF_URI_PREFIX ++ token ∨
        reference = "@" ++ token ∨ reference = token) := by
  have hcheck : parseToken reference = .ok token ↔
      IsCanonicalToken (referenceToken reference) ∧ referenceToken reference = token := by
    rw [parseToken, ite_eq_iff, isCanonicalToken_iff]
    simp only [reduceCtorEq, and_false, false_or, not_or, not_not, Except.ok.injEq,
      List.all_eq_true, List.contains_eq_mem, decide_eq_true_eq, ne_eq]
  rw [hcheck]
  constructor
  · intro h
    have hcanonical : IsCanonicalToken token := h.2 ▸ h.1
    exact ⟨hcanonical, (referenceToken_eq_iff hcanonical).1 h.2⟩
  · intro h
    have heq := (referenceToken_eq_iff h.1).2 h.2
    exact ⟨heq ▸ h.1, heq⟩

/-- The two handles of a record with a canonical token name that token, and so does the token. -/
theorem parseToken_handles {entry : ArtifactRefV1} (h : IsCanonicalToken entry.token) :
    parseToken entry.shortRef = .ok entry.token ∧ parseToken entry.uri = .ok entry.token ∧
      parseToken entry.token = .ok entry.token :=
  ⟨parseToken_eq_ok_iff.2 ⟨h, Or.inr (Or.inl rfl)⟩, parseToken_eq_ok_iff.2 ⟨h, Or.inl rfl⟩,
    parseToken_eq_ok_iff.2 ⟨h, Or.inr (Or.inr rfl)⟩⟩

/-! ### Fresh tokens -/

/-- The low bits of an accumulator as characters of the alphabet, from the last character to the
first. -/
def tokenCharacters : ℕ → ℕ → List Char → Except RegistryError (List Char)
  | 0, _, token => .ok token
  | remaining + 1, accumulator, token => do
      let character ← Checks.okOr TOKEN_ALPHABET[accumulator % 32]? .random
      tokenCharacters remaining (accumulator / 32) (character :: token)

/-- A token from `TOKEN_BYTES` random bytes, which fit the accumulator many times over. -/
def randomToken (random : Bytes) : Except RegistryError String := do
  let accumulator := random.foldl (fun accumulator byte => accumulator * 256 + byte.toNat) 0
  let token ← tokenCharacters TOKEN_LENGTH accumulator []
  .ok (String.ofList token)

/-- Five bits always name a character of the alphabet. -/
theorem exists_alphabet_character (accumulator : ℕ) :
    ∃ c, TOKEN_ALPHABET[accumulator % 32]? = some c ∧ tokenPattern c = true := by
  have hall : ∀ n < 32, ∃ c, TOKEN_ALPHABET[n]? = some c ∧ tokenPattern c = true := by
    have hlist : TOKEN_ALPHABET.all tokenPattern = true := by rfl
    intro n hn
    have hlen : n < TOKEN_ALPHABET.length := hn
    exact ⟨TOKEN_ALPHABET[n], List.getElem?_eq_getElem hlen,
      List.all_eq_true.1 hlist _ (List.getElem_mem hlen)⟩
  exact hall _ (Nat.mod_lt _ (by decide))

theorem tokenCharacters_eq_ok (remaining accumulator : ℕ) (token : List Char) :
    ∃ cs, tokenCharacters remaining accumulator token = .ok (cs ++ token) ∧
      cs.length = remaining ∧ ∀ c ∈ cs, tokenPattern c = true := by
  induction remaining generalizing accumulator token with
  | zero => exact ⟨[], rfl, rfl, by simp⟩
  | succ remaining ih =>
      obtain ⟨c, hc, hpattern⟩ := exists_alphabet_character accumulator
      obtain ⟨cs, hcs, hlen, hall⟩ := ih (accumulator / 32) (c :: token)
      refine ⟨cs ++ [c], ?_, by simp [hlen], ?_⟩
      · rw [tokenCharacters, hc, List.append_assoc]
        exact hcs
      · intro d hd
        rcases List.mem_append.1 hd with hd | hd
        · exact hall d hd
        · rw [List.mem_singleton.1 hd]
          exact hpattern

/-- **Fresh tokens are canonical**, and drawing one never fails. -/
theorem canonical_randomToken (random : Bytes) :
    ∃ token, randomToken random = .ok token ∧ IsCanonicalToken token := by
  obtain ⟨cs, hcs, hlen, hall⟩ := tokenCharacters_eq_ok TOKEN_LENGTH
    (random.foldl (fun accumulator byte => accumulator * 256 + byte.toNat) 0) []
  rw [List.append_nil] at hcs
  refine ⟨String.ofList cs, ?_, ?_, ?_⟩
  · rw [randomToken, hcs]
    rfl
  · rw [String.toList_ofList, hlen]
    rfl
  · rw [String.toList_ofList]
    exact hall

theorem canonical_of_randomToken {random : Bytes} {token : String}
    (h : randomToken random = .ok token) : IsCanonicalToken token := by
  obtain ⟨token', htoken', hcanonical⟩ := canonical_randomToken random
  rw [h] at htoken'
  obtain rfl := Except.ok.inj htoken'
  exact hcanonical

/-! ### When the handles of a record name it -/

/-- **When the handles of an accepted record name it**: exactly when its token carries neither of
the prefixes that the reader of references strips. -/
theorem handles_name_token_iff (b64 : Base64.Codec) (entry : ArtifactRefV1)
    (h : entry.validate b64 = .ok ()) :
    (IsCanonicalToken entry.token ∧ parseToken entry.shortRef = .ok entry.token ∧
        parseToken entry.uri = .ok entry.token) ↔
      ¬ "@".toList <+: entry.token.toList ∧
        ¬ ARTIFACT_REF_URI_PREFIX.toList <+: entry.token.toList := by
  constructor
  · intro hhandles
    exact hhandles.1.notStarting_reference
  · intro hprefix
    obtain ⟨-, ⟨token, htoken⟩, -⟩ := (ArtifactRefV1.validate_eq_ok_iff b64).1 h
    obtain ⟨hcanonical, hform⟩ := parseToken_eq_ok_iff.1 htoken
    -- the check has read a canonical token: only an unprefixed one is the token of the record
    have hbare : entry.token = token := by
      rcases hform with huri | hat | hbare
      · rw [huri, String.toList_append] at hprefix
        exact absurd (List.prefix_append _ _) hprefix.2
      · rw [hat, String.toList_append] at hprefix
        exact absurd (List.prefix_append _ _) hprefix.1
      · exact hbare
    rw [← hbare] at hcanonical
    exact ⟨hcanonical, (parseToken_handles hcanonical).1, (parseToken_handles hcanonical).2.1⟩

/-- A record for `/tmp/a` under a given token. -/
def sampleRecord (token : String) : ArtifactRefV1 where
  schema := ARTIFACT_REF_SCHEMA_V1
  token := token
  pathEncoding := "unix-bytes-v1"
  pathBase64 := Base64.standard.encode (Text.asBytes "/tmp/a")
  identity :=
    { size := 1
      modifiedUnixNanos := none
      device := none
      inode := none
      contentSha256Base64 := Base64.standard.encode (List.replicate 32 0) }
  registeredAtUnixMs := 0

/-- A record with a plain token, whose handles name it. -/
theorem handles_name_token_iff_plain :
    IsCanonicalToken "0123456789ABC" ∧ parseToken "@0123456789ABC" = .ok "0123456789ABC" ∧
      parseToken "terminal-interop://artifact/0123456789ABC" = .ok "0123456789ABC" :=
  (handles_name_token_iff Base64.standard (sampleRecord "0123456789ABC") (by rfl)).2
    (by decide)

/-- A record whose token carries the sign of the short form is accepted, although that token is not
canonical and neither handle can be read. -/
theorem prefixed_token_accepted :
    ¬ ∀ entry : ArtifactRefV1, entry.validate Base64.standard = .ok () →
      IsCanonicalToken entry.token ∧ parseToken entry.shortRef = .ok entry.token ∧
        parseToken entry.uri = .ok entry.token := by
  intro h
  have haccepted : (sampleRecord "@0123456789ABC").validate Base64.standard = .ok () := by
    rfl
  have hcanonical : ¬ IsCanonicalToken "@0123456789ABC" := by decide
  exact hcanonical (h _ haccepted).1

end TermInterop
