/-
The documents that are written for registry entries and for callback intents.

They are written as objects with their fields in the order of their declaration.  An endpoint is
written as its text, and a text that is no endpoint is not read.  A number of an identity may take
128 bits.

Main definitions:

* `TermInterop.ArtifactRefV1.serialize`, `TermInterop.OpenIntentV1.serialize`,
  `TermInterop.IntentReceiptV1.serialize`, `TermInterop.IntentReadyV1.serialize` — what is written;
* `TermInterop.ArtifactRefV1.deserialize`, `TermInterop.OpenIntentV1.deserialize`,
  `TermInterop.IntentReceiptV1.deserialize`, `TermInterop.IntentReadyV1.deserialize` — the readers;
* `TermInterop.ArtifactRefV1.toVec` — the compact JSON of an entry.

Main results:

* `TermInterop.ArtifactRefV1.roundTrip`, `TermInterop.OpenIntentV1.roundTrip`,
  `TermInterop.IntentReceiptV1.roundTrip`, `TermInterop.IntentReadyV1.roundTrip` — **each is read
  back**;
* `TermInterop.ArtifactRefV1.write_serialize`, `TermInterop.OpenIntentV1.write_serialize` — their
  compact JSON;
* `TermInterop.ArtifactRefV1.length_toVec_le` — how long that of an entry is.
-/

import TermInterop.ReceiptDocuments
import TermInterop.Registry

set_option relaxedAutoImplicit false
set_option autoImplicit false

namespace TermInterop

open Json (Document RoundTrip Format field optionalField text variant orNull)

-- objects are read member by member
attribute [local simp] field optionalField Json.lookup_cons

/-! ### Registry entries -/

/-- A `u128` is spelled with digits alone, as a `u64` is. -/
def unsigned128 : Document → Option (BitVec 128)
  | .number (.natural n) => if n < 2 ^ 128 then some (BitVec.ofNat 128 n) else none
  | _ => none

theorem unsigned64_roundTrip : RoundTrip 0 (fun n : UInt64 => natural n.toNat) unsigned64 :=
  unsigned64_format.toRoundTrip

theorem unsigned128_roundTrip :
    RoundTrip 0 (fun n : BitVec 128 => natural n.toNat) unsigned128 where
  within n := ⟨n.toNat, n.isLt, rfl⟩
  read_write n := by
    rw [natural, unsigned128, if_pos n.isLt, BitVec.ofNat_toNat, BitVec.setWidth_eq]

def FileIdentity.serialize (identity : FileIdentity) : Document :=
  .object [("size", natural identity.size.toNat),
    ("modified_unix_nanos", orNull (fun n => natural n.toNat) identity.modifiedUnixNanos),
    ("device", orNull (fun n => natural n.toNat) identity.device),
    ("inode", orNull (fun n => natural n.toNat) identity.inode),
    ("content_sha256_base64", .string identity.contentSha256Base64)]

def FileIdentity.deserialize (d : Document) : Option FileIdentity := do
  let members ← d.struct ["size", "modified_unix_nanos", "device", "inode", "content_sha256_base64"]
  let size ← field members "size" unsigned64
  let modifiedUnixNanos ← optionalField members "modified_unix_nanos" unsigned128
  let device ← optionalField members "device" unsigned64
  let inode ← optionalField members "inode" unsigned64
  let contentSha256Base64 ← field members "content_sha256_base64" text
  some ⟨size, modifiedUnixNanos, device, inode, contentSha256Base64⟩

theorem natural_ne_null (n : ℕ) : natural n ≠ .null := by simp [natural]

theorem FileIdentity.roundTrip : RoundTrip 1 serialize deserialize where
  within identity := by
    have hsize := unsigned64_roundTrip.within identity.size
    refine Json.within_object ?_
    simp [hsize, Json.orNull_within unsigned64_roundTrip, Json.orNull_within unsigned128_roundTrip]
  read_write identity := by
    have hsize := unsigned64_roundTrip.read_write identity.size
    have hmodified := Json.nullable_orNull unsigned128_roundTrip (fun n => natural_ne_null n.toNat)
    have hnumber := Json.nullable_orNull unsigned64_roundTrip fun n => natural_ne_null n.toNat
    rw [serialize, deserialize, Json.struct_object (by simp) (by simp)]
    simp [hsize, hmodified, hnumber]

def ArtifactRefV1.serialize (entry : ArtifactRefV1) : Document :=
  .object [("schema", .string entry.schema), ("token", .string entry.token),
    ("path_encoding", .string entry.pathEncoding), ("path_base64", .string entry.pathBase64),
    ("identity", entry.identity.serialize),
    ("registered_at_unix_ms", natural entry.registeredAtUnixMs.toNat)]

def ArtifactRefV1.deserialize (d : Document) : Option ArtifactRefV1 := do
  let members ← d.struct
    ["schema", "token", "path_encoding", "path_base64", "identity", "registered_at_unix_ms"]
  let schema ← field members "schema" text
  let token ← field members "token" text
  let pathEncoding ← field members "path_encoding" text
  let pathBase64 ← field members "path_base64" text
  let identity ← field members "identity" FileIdentity.deserialize
  let registeredAtUnixMs ← field members "registered_at_unix_ms" unsigned64
  some ⟨schema, token, pathEncoding, pathBase64, identity, registeredAtUnixMs⟩

theorem ArtifactRefV1.roundTrip : RoundTrip 2 serialize deserialize where
  within entry := by
    have hregistered := unsigned64_roundTrip.within_of_le (Nat.zero_le 1) entry.registeredAtUnixMs
    exact Json.within_object (by simp [hregistered, FileIdentity.roundTrip.within])
  read_write entry := by
    have hregistered := unsigned64_roundTrip.read_write entry.registeredAtUnixMs
    rw [serialize, deserialize, Json.struct_object (by simp) (by simp)]
    simp [hregistered, FileIdentity.roundTrip.read_write]

/-! ### Intents -/

/-- `Deserialize for EndpointId`: a text is parsed. -/
def EndpointId.deserialize (d : Document) : Option EndpointId :=
  (text d).bind fun value => (EndpointId.parse value).toOption

theorem EndpointId.roundTrip :
    RoundTrip 0 (fun endpoint => .string endpoint.asStr) deserialize where
  within _ := trivial
  read_write endpoint := by
    have hparse : EndpointId.parse endpoint.asStr = .ok endpoint := EndpointId.parse_eq_ok_iff.2 rfl
    simp [deserialize, hparse, Except.toOption]

def IntentAction.deserialize : Document → Option IntentAction :=
  variant (named IntentAction.name [.openArtifact])

theorem IntentAction.roundTrip : RoundTrip 0 (fun action => .string action.name) deserialize :=
  (Format.variants name [openArtifact] (by decide) (by rintro (_ | _); simp)).toRoundTrip

def PathEncoding.deserialize : Document → Option PathEncoding :=
  variant (named PathEncoding.name [.unixBytesBase64urlV1, .utf8Base64urlV1])

theorem PathEncoding.roundTrip : RoundTrip 0 (fun encoding => .string encoding.name) deserialize :=
  (Format.variants name [unixBytesBase64urlV1, utf8Base64urlV1] (by decide)
    (by rintro (_ | _) <;> simp)).toRoundTrip

def IntentDeliveryState.deserialize : Document → Option IntentDeliveryState :=
  variant (named IntentDeliveryState.name [.forwarded, .rejected])

theorem IntentDeliveryState.roundTrip : RoundTrip 0 (fun state => .string state.name) deserialize :=
  (Format.variants name [forwarded, rejected] (by decide) (by rintro (_ | _) <;> simp)).toRoundTrip

def EncodedPathV1.serialize (target : EncodedPathV1) : Document :=
  .object [("encoding", .string target.encoding.name), ("value", .string target.value)]

def EncodedPathV1.deserialize (d : Document) : Option EncodedPathV1 := do
  let members ← d.struct ["encoding", "value"]
  let encoding ← field members "encoding" PathEncoding.deserialize
  let value ← field members "value" text
  some ⟨encoding, value⟩

theorem EncodedPathV1.roundTrip : RoundTrip 1 serialize deserialize where
  within target := Json.within_object (by simp)
  read_write target := by
    have hencoding := PathEncoding.roundTrip.read_write target.encoding
    rw [serialize, deserialize, Json.struct_object (by simp) (by simp)]
    simp [hencoding]

def OpenIntentV1.serialize (intent : OpenIntentV1) : Document :=
  .object [("schema", .string intent.schema), ("endpoint", .string intent.endpoint.asStr),
    ("action", .string intent.action.name), ("target", intent.target.serialize)]

def OpenIntentV1.deserialize (d : Document) : Option OpenIntentV1 := do
  let members ← d.struct ["schema", "endpoint", "action", "target"]
  let schema ← field members "schema" text
  let endpoint ← field members "endpoint" EndpointId.deserialize
  let action ← field members "action" IntentAction.deserialize
  let target ← field members "target" EncodedPathV1.deserialize
  some ⟨schema, endpoint, action, target⟩

theorem OpenIntentV1.roundTrip : RoundTrip 2 serialize deserialize where
  within intent := Json.within_object (by simp [EncodedPathV1.roundTrip.within])
  read_write intent := by
    have hendpoint := EndpointId.roundTrip.read_write intent.endpoint
    have haction := IntentAction.roundTrip.read_write intent.action
    rw [serialize, deserialize, Json.struct_object (by simp) (by simp)]
    simp [hendpoint, haction, EncodedPathV1.roundTrip.read_write]

def IntentReceiptV1.serialize (receipt : IntentReceiptV1) : Document :=
  .object [("schema", .string receipt.schema), ("endpoint", .string receipt.endpoint.asStr),
    ("state", .string receipt.state.name), ("detail", .string receipt.detail)]

def IntentReceiptV1.deserialize (d : Document) : Option IntentReceiptV1 := do
  let members ← d.struct ["schema", "endpoint", "state", "detail"]
  let schema ← field members "schema" text
  let endpoint ← field members "endpoint" EndpointId.deserialize
  let state ← field members "state" IntentDeliveryState.deserialize
  let detail ← field members "detail" text
  some ⟨schema, endpoint, state, detail⟩

theorem IntentReceiptV1.roundTrip : RoundTrip 1 serialize deserialize where
  within receipt := Json.within_object (by simp)
  read_write receipt := by
    have hendpoint := EndpointId.roundTrip.read_write receipt.endpoint
    have hstate := IntentDeliveryState.roundTrip.read_write receipt.state
    rw [serialize, deserialize, Json.struct_object (by simp) (by simp)]
    simp [hendpoint, hstate]

def IntentReadyV1.serialize (ready : IntentReadyV1) : Document :=
  .object [("schema", .string ready.schema), ("endpoint", .string ready.endpoint.asStr),
    ("uri_prefix", .string ready.uriPrefix)]

def IntentReadyV1.deserialize (d : Document) : Option IntentReadyV1 := do
  let members ← d.struct ["schema", "endpoint", "uri_prefix"]
  let schema ← field members "schema" text
  let endpoint ← field members "endpoint" EndpointId.deserialize
  let uriPrefix ← field members "uri_prefix" text
  some ⟨schema, endpoint, uriPrefix⟩

theorem IntentReadyV1.roundTrip : RoundTrip 1 serialize deserialize where
  within ready := Json.within_object (by simp)
  read_write ready := by
    have hendpoint := EndpointId.roundTrip.read_write ready.endpoint
    rw [serialize, deserialize, Json.struct_object (by simp) (by simp)]
    simp [hendpoint]

/-! ### Compact JSON -/

/-- `serde_json::to_vec` on a file identity. -/
def FileIdentity.toVec (identity : FileIdentity) : Bytes :=
  Json.object
    [("size", Json.number identity.size.toNat),
      ("modified_unix_nanos", Json.optional (identity.modifiedUnixNanos.map BitVec.toNat)),
      ("device", Json.optional (identity.device.map UInt64.toNat)),
      ("inode", Json.optional (identity.inode.map UInt64.toNat)),
      ("content_sha256_base64", Json.string identity.contentSha256Base64)]

/-- `serde_json::to_vec` on an entry. -/
def ArtifactRefV1.toVec (entry : ArtifactRefV1) : Bytes :=
  Json.object
    [("schema", Json.string entry.schema), ("token", Json.string entry.token),
      ("path_encoding", Json.string entry.pathEncoding),
      ("path_base64", Json.string entry.pathBase64), ("identity", entry.identity.toVec),
      ("registered_at_unix_ms", Json.number entry.registeredAtUnixMs.toNat)]

section Compact

variable (float : ℚ → Bytes)

attribute [local simp] Json.write_object_compact Json.write_string write_natural

@[local simp] theorem write_orNull_natural {α : Type} (toNat : α → ℕ) (value : Option α) :
    Json.write float none (orNull (fun n => natural (toNat n)) value) =
      Json.optional (value.map toNat) := by
  cases value <;> rfl

/-- **The compact JSON of an entry** is that of its document. -/
theorem ArtifactRefV1.write_serialize (entry : ArtifactRefV1) :
    Json.write float none entry.serialize = entry.toVec := by
  simp [serialize, toVec, FileIdentity.serialize, FileIdentity.toVec]

theorem OpenIntentV1.write_serialize (intent : OpenIntentV1) :
    Json.write float none intent.serialize = intent.toVec := by
  simp [serialize, toVec, EncodedPathV1.serialize, EncodedPathV1.toVec]

theorem IntentReceiptV1.write_serialize (receipt : IntentReceiptV1) :
    Json.write float none receipt.serialize = receipt.toVec := by
  simp [serialize, toVec]

theorem IntentReadyV1.write_serialize (ready : IntentReadyV1) :
    Json.write float none ready.serialize = ready.toVec := by
  simp [serialize, toVec]

end Compact

/-- The JSON of an entry is bounded by its strings. -/
theorem ArtifactRefV1.length_toVec_le (entry : ArtifactRefV1) :
    entry.toVec.length ≤ 6 * entry.textLength + 1024 := by
  have hnames : Json.escapedLength "schema" = 6 ∧ Json.escapedLength "token" = 5 ∧
      Json.escapedLength "path_encoding" = 13 ∧ Json.escapedLength "path_base64" = 11 ∧
      Json.escapedLength "identity" = 8 ∧ Json.escapedLength "registered_at_unix_ms" = 21 ∧
      Json.escapedLength "size" = 4 ∧ Json.escapedLength "modified_unix_nanos" = 19 ∧
      Json.escapedLength "device" = 6 ∧ Json.escapedLength "inode" = 5 ∧
      Json.escapedLength "content_sha256_base64" = 21 := by decide
  have hnumber : ∀ n : UInt64, (Json.number n.toNat).length ≤ 20 := by
    intro n
    have hlt := n.toNat_lt
    exact Json.length_number_le (by decide) (by omega)
  have hmodified :
      (Json.optional (entry.identity.modifiedUnixNanos.map BitVec.toNat)).length ≤ 39 := by
    cases entry.identity.modifiedUnixNanos with
    | none => decide
    | some n =>
        have hlt := n.isLt
        exact Json.length_number_le (by decide) (by omega)
  have hoptional : ∀ value : Option UInt64,
      (Json.optional (value.map UInt64.toNat)).length ≤ 20 := by
    intro value
    cases value with
    | none => decide
    | some n => exact hnumber n
  have h₁ := hnumber entry.registeredAtUnixMs
  have h₂ := hnumber entry.identity.size
  have h₃ := hoptional entry.identity.device
  have h₄ := hoptional entry.identity.inode
  have h₅ := Json.escapedLength_le entry.schema
  have h₆ := Json.escapedLength_le entry.token
  have h₇ := Json.escapedLength_le entry.pathEncoding
  have h₈ := Json.escapedLength_le entry.pathBase64
  have h₉ := Json.escapedLength_le entry.identity.contentSha256Base64
  simp only [ArtifactRefV1.toVec, FileIdentity.toVec, Json.object, Json.member, List.intercalate,
    List.map_cons, List.map_nil, List.intersperse_cons_cons, List.intersperse_singleton,
    List.flatten_cons, List.flatten_nil, List.length_cons, List.length_append, List.length_nil,
    Json.length_string, hnames]
  rw [ArtifactRefV1.textLength]
  omega

end TermInterop
