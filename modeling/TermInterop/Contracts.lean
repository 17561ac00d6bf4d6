/-
The validation of contract documents.

A document names its contract in its member `schema`.  It is read as a record of that contract and
validated; every contract knows its own members and no others, so that a document is only read as
the contract that it was written for.

Main definitions:

* `TermInterop.Contract` — the records that can be validated;
* `TermInterop.validateContract` — the validation.

Main results:

* `TermInterop.ContractKind.read_serialize_iff` — **a document is only read as the contract that it
  was written for**, and as the record that was written;
* `TermInterop.written_contracts_validated` — **what is written is accepted exactly when the record
  is valid and its document is not too long**.
-/

import TermInterop.Framing

set_option relaxedAutoImplicit false
set_option autoImplicit false

namespace TermInterop

open Json (Document Members RoundTrip)

/-! ### Contracts -/

/-- The contracts, in the order in which they are tried. -/
inductive ContractKind
  | receipt
  | negotiation
  | artifactRef
  | openIntent
  | intentReceipt
  | intentReady
  deriving DecidableEq

/-- A record of a contract. -/
inductive Contract
  | receipt (receipt : ProbeReceiptV1)
  | negotiation (n : CapabilityNegotiationV1)
  | artifactRef (entry : ArtifactRefV1)
  | openIntent (intent : OpenIntentV1)
  | intentReceipt (receipt : IntentReceiptV1)
  | intentReady (ready : IntentReadyV1)

/-- Why a record is not valid. -/
inductive ContractViolation
  | receipt (error : ProbeReceiptValidationError)
  | negotiation (error : NegotiationValidationError)
  | artifactRef (error : ArtifactRefValidationError)
  | intent (error : IntentError)

/-- Why a document is not accepted. -/
inductive ContractError
  | json
  | contractLimit
  | contractSchemaMissing
  | unsupportedContractSchema (schema : String)
  | contractInvalid (violation : ContractViolation)

namespace ContractKind

def schema : ContractKind → String
  | receipt => PROBE_RECEIPT_SCHEMA_V1
  | negotiation => CAPABILITY_NEGOTIATION_SCHEMA_V1
  | artifactRef => ARTIFACT_REF_SCHEMA_V1
  | openIntent => OPEN_INTENT_SCHEMA_V1
  | intentReceipt => INTENT_RECEIPT_SCHEMA_V1
  | intentReady => INTENT_READY_SCHEMA_V1

/-- The contract that a schema names. -/
def ofSchema (schema : String) : Option ContractKind :=
  [receipt, negotiation, artifactRef, openIntent, intentReceipt, intentReady].find?
    fun kind => kind.schema = schema

/-- `serde_json::from_slice` at the record of the contract. -/
def read (b64 : Base64.Codec) : ContractKind → Document → Option Contract
  | receipt, d => (ProbeReceiptV1.deserialize d).map .receipt
  | negotiation, d => (CapabilityNegotiationV1.deserialize b64 d).map .negotiation
  | artifactRef, d => (ArtifactRefV1.deserialize d).map .artifactRef
  | openIntent, d => (OpenIntentV1.deserialize d).map .openIntent
  | intentReceipt, d => (IntentReceiptV1.deserialize d).map .intentReceipt
  | intentReady, d => (IntentReadyV1.deserialize d).map .intentReady

/-- The members of a record. -/
def names : ContractKind → List String
  | receipt => ["schema", "observed_at_unix_ms", "capability", "adapter", "correlation", "context",
      "exchange", "assessment"]
  | negotiation => ["schema", "candidates", "selection"]
  | artifactRef =>
      ["schema", "token", "path_encoding", "path_base64", "identity", "registered_at_unix_ms"]
  | openIntent => ["schema", "endpoint", "action", "target"]
  | intentReceipt => ["schema", "endpoint", "state", "detail"]
  | intentReady => ["schema", "endpoint", "uri_prefix"]

end ContractKind

namespace Contract

def kind : Contract → ContractKind
  | receipt _ => .receipt
  | negotiation _ => .negotiation
  | artifactRef _ => .artifactRef
  | openIntent _ => .openIntent
  | intentReceipt _ => .intentReceipt
  | intentReady _ => .intentReady

/-- The schema that a record names. -/
def schema : Contract → String
  | receipt r => r.schema
  | negotiation n => n.schema
  | artifactRef entry => entry.schema
  | openIntent intent => intent.schema
  | intentReceipt r => r.schema
  | intentReady ready => ready.schema

def serialize : Contract → Document
  | receipt r => r.serialize
  | negotiation n => n.serialize
  | artifactRef entry => entry.serialize
  | openIntent intent => intent.serialize
  | intentReceipt r => r.serialize
  | intentReady ready => ready.serialize

def validate (b64 : Base64.Codec) (urlSafe : Base64.CanonicalCodec) :
    Contract → Except ContractViolation Unit
  | receipt r => Checks.mapErr .receipt (r.validate b64)
  | negotiation n => Checks.mapErr .negotiation (n.validate b64)
  | artifactRef entry => Checks.mapErr .artifactRef (entry.validate b64)
  | openIntent intent => Checks.mapErr .intent (intent.validatePortable urlSafe)
  | intentReceipt r => Checks.mapErr .intent r.validate
  | intentReady ready => Checks.mapErr .intent ready.validate

end Contract

/-- The text under the name `schema`, which is the last one where a name comes twice. -/
def schemaIdentity : Document → Option String
  | .object members => (members.reverse.lookup "schema").bind Json.text
  | _ => none

/-- **`validate_contract`**: the line that is printed for a document, unless it is quiet. -/
def validateContract (json : JsonLibrary) (b64 : Base64.Codec) (urlSafe : Base64.CanonicalCodec)
    (file : Bytes) : Except ContractError String := do
  let bytes ← Checks.okOr (readContractDocument file) .contractLimit
  let envelope ← Checks.okOr (json.fromSlice bytes) .json
  let schema ← Checks.okOr (schemaIdentity envelope) .contractSchemaMissing
  let kind ← Checks.okOr (ContractKind.ofSchema schema) (.unsupportedContractSchema schema)
  let contract ← Checks.okOr (kind.read b64 envelope) .json
  Checks.mapErr .contractInvalid (contract.validate b64 urlSafe)
  .ok ("valid\t" ++ schema ++ "\n")

/-! ### What a document is read as -/

section Reading

variable {b64 : Base64.Codec} {urlSafe : Base64.CanonicalCodec} {kind : ContractKind} {d : Document}
  {contract c : Contract}

theorem ContractKind.ofSchema_schema (kind : ContractKind) : ofSchema kind.schema = some kind := by
  cases kind <;> decide

/-- What is read as a record has its members and no others. -/
theorem ContractKind.struct_of_read (h : kind.read b64 d = some c) :
    ∃ members, d.struct kind.names = some members := by
  cases kind with
  | receipt =>
      obtain ⟨r, hread, -⟩ := Option.map_eq_some_iff.1 h
      obtain ⟨members, hstruct, -⟩ := Option.bind_eq_some_iff.1 hread
      exact ⟨members, hstruct⟩
  | negotiation =>
      obtain ⟨n, hread, -⟩ := Option.map_eq_some_iff.1 h
      obtain ⟨wire, hwire, -⟩ := Option.bind_eq_some_iff.1 hread
      obtain ⟨members, hstruct, -⟩ := Option.bind_eq_some_iff.1 hwire
      exact ⟨members, hstruct⟩
  | artifactRef =>
      obtain ⟨entry, hread, -⟩ := Option.map_eq_some_iff.1 h
      obtain ⟨members, hstruct, -⟩ := Option.bind_eq_some_iff.1 hread
      exact ⟨members, hstruct⟩
  | openIntent =>
      obtain ⟨intent, hread, -⟩ := Option.map_eq_some_iff.1 h
      obtain ⟨members, hstruct, -⟩ := Option.bind_eq_some_iff.1 hread
      exact ⟨members, hstruct⟩
  | intentReceipt =>
      obtain ⟨r, hread, -⟩ := Option.map_eq_some_iff.1 h
      obtain ⟨members, hstruct, -⟩ := Option.bind_eq_some_iff.1 hread
      exact ⟨members, hstruct⟩
  | intentReady =>
      obtain ⟨ready, hread, -⟩ := Option.map_eq_some_iff.1 h
      obtain ⟨members, hstruct, -⟩ := Option.bind_eq_some_iff.1 hread
      exact ⟨members, hstruct⟩

/-- A record is written with its members in the order of their declaration. -/
theorem Contract.exists_serialize_eq (contract : Contract) : ∃ members,
    contract.serialize = .object members ∧ members.map Prod.fst = contract.kind.names := by
  cases contract <;> exact ⟨_, rfl, rfl⟩

/-- No contract has all the members of another one. -/
theorem ContractKind.eq_of_names_subset {kind other : ContractKind} (h : kind.names ⊆ other.names) :
    kind = other := by
  cases kind <;> cases other <;> first | rfl | simp [names] at h

/-- A negotiation is read back when it is valid. -/
theorem CapabilityNegotiationV1.deserialize_serialize_iff {n m : CapabilityNegotiationV1} :
    CapabilityNegotiationV1.deserialize b64 n.serialize = some m ↔
      m = n ∧ n.validate b64 = .ok () := by
  rw [CapabilityNegotiationV1.deserialize, CapabilityNegotiationV1.roundTrip.read_write]
  simp only [Option.bind_eq_bind, Option.bind_some]
  cases hvalidate : n.validate b64 with
  | ok u =>
      simp only [Option.some.injEq, and_true]
      exact eq_comm
  | error error => simp

/-- What a record is read as by the reader of its contract. -/
theorem ContractKind.read_kind_iff : contract.kind.read b64 contract.serialize = some c ↔
    c = contract ∧ ∀ n, contract = .negotiation n → n.validate b64 = .ok () := by
  cases contract with
  | negotiation n =>
      simp only [Contract.kind, Contract.serialize, read, Option.map_eq_some_iff,
        CapabilityNegotiationV1.deserialize_serialize_iff, Contract.negotiation.injEq]
      constructor
      · rintro ⟨m, ⟨rfl, hvalid⟩, rfl⟩
        exact ⟨rfl, fun _ heq => heq ▸ hvalid⟩
      · rintro ⟨rfl, hvalid⟩
        exact ⟨n, ⟨rfl, hvalid n rfl⟩, rfl⟩
  | receipt r =>
      simp [Contract.kind, Contract.serialize, read, ProbeReceiptV1.format.read_write, eq_comm]
  | artifactRef entry =>
      simp [Contract.kind, Contract.serialize, read, ArtifactRefV1.roundTrip.read_write, eq_comm]
  | openIntent intent =>
      simp [Contract.kind, Contract.serialize, read, OpenIntentV1.roundTrip.read_write, eq_comm]
  | intentReceipt r =>
      simp [Contract.kind, Contract.serialize, read, IntentReceiptV1.roundTrip.read_write, eq_comm]
  | intentReady ready =>
      simp [Contract.kind, Contract.serialize, read, IntentReadyV1.roundTrip.read_write, eq_comm]

/-- **A document is only read as the contract that it was written for**, and as the record that was
written. -/
theorem ContractKind.read_serialize_iff : kind.read b64 contract.serialize = some c ↔
    kind = contract.kind ∧ c = contract ∧
      ∀ n, contract = .negotiation n → n.validate b64 = .ok () := by
  constructor
  · intro h
    obtain ⟨members, hstruct⟩ := struct_of_read h
    obtain ⟨written, hwritten, hnames⟩ := contract.exists_serialize_eq
    rw [hwritten] at hstruct
    obtain ⟨hmembers, -, hknown⟩ := Json.struct_eq_some_iff.1 hstruct
    obtain rfl := Document.object.inj hmembers
    have hsubset : contract.kind.names ⊆ kind.names := by
      rw [← hnames]
      intro name hname
      obtain ⟨m, hm, rfl⟩ := List.mem_map.1 hname
      exact hknown m hm
    obtain rfl := eq_of_names_subset hsubset
    exact ⟨rfl, read_kind_iff.1 h⟩
  · rintro ⟨rfl, h⟩
    exact read_kind_iff.2 h

theorem schemaIdentity_serialize (contract : Contract) :
    schemaIdentity contract.serialize = some contract.schema := by
  cases contract <;>
    simp [Contract.serialize, Contract.schema, schemaIdentity, ProbeReceiptV1.serialize,
      CapabilityNegotiationV1.serialize, ArtifactRefV1.serialize, OpenIntentV1.serialize,
      IntentReceiptV1.serialize, IntentReadyV1.serialize, Json.lookup_cons, Json.text]

/-- A valid record names its contract. -/
theorem Contract.schema_of_validate (h : contract.validate b64 urlSafe = .ok ()) :
    contract.schema = contract.kind.schema := by
  cases contract with
  | receipt r => exact ((ProbeReceiptV1.validate_eq_ok_iff b64).1 (Checks.mapErr_eq_ok_iff.1 h)).1
  | negotiation n =>
      have hn := (CapabilityNegotiationV1.validate_eq_ok_iff.1 (Checks.mapErr_eq_ok_iff.1 h)).2
      rw [Contract.schema, hn]
      rfl
  | artifactRef entry =>
      exact ((ArtifactRefV1.validate_eq_ok_iff b64).1 (Checks.mapErr_eq_ok_iff.1 h)).1
  | openIntent intent =>
      obtain ⟨bytes, hbytes, -⟩ := Checks.bind_eq_ok_iff.1 (Checks.mapErr_eq_ok_iff.1 h)
      obtain ⟨_, hschema, -⟩ := Checks.bind_eq_ok_iff.1 hbytes
      exact beq_iff_eq.1 (Checks.ensure_eq_ok_iff.1 hschema)
  | intentReceipt r =>
      exact (IntentReceiptV1.validate_eq_ok_iff.1 (Checks.mapErr_eq_ok_iff.1 h)).1
  | intentReady ready =>
      obtain ⟨_, hschema, -⟩ := Checks.bind_eq_ok_iff.1 (Checks.mapErr_eq_ok_iff.1 h)
      exact beq_iff_eq.1 (Checks.ensure_eq_ok_iff.1 hschema)

theorem Contract.within_serialize (contract : Contract) :
    contract.serialize.Within Json.RECURSION_LIMIT := by
  cases contract with
  | receipt r => exact ProbeReceiptV1.format.within_of_le (by decide : 8 ≤ 127) r
  | negotiation n => exact CapabilityNegotiationV1.roundTrip.within_of_le (by decide : 11 ≤ 127) n
  | artifactRef entry => exact ArtifactRefV1.roundTrip.within_of_le (by decide : 2 ≤ 127) entry
  | openIntent intent => exact OpenIntentV1.roundTrip.within_of_le (by decide : 2 ≤ 127) intent
  | intentReceipt r => exact IntentReceiptV1.roundTrip.within_of_le (by decide : 1 ≤ 127) r
  | intentReady ready => exact IntentReadyV1.roundTrip.within_of_le (by decide : 1 ≤ 127) ready

end Reading

/-! ### What is accepted of what is written -/

/-- What is written is accepted exactly when the record is valid and its document is not too
long. -/
theorem validateContract_serialize_iff (json : JsonLibrary) {b64 : Base64.Codec}
    {urlSafe : Base64.CanonicalCodec} {contract : Contract} {pretty : Bool} {line : String} :
    validateContract json b64 urlSafe (json.serializedJson contract.serialize pretty) = .ok line ↔
      (json.serializedJson contract.serialize pretty).length ≤ MAX_CONTRACT_DOCUMENT_BYTES ∧
        contract.validate b64 urlSafe = .ok () ∧ line = "valid\t" ++ contract.schema ++ "\n" := by
  have hread := json.fromSlice_serializedJson contract.within_serialize pretty
  simp only [validateContract, Checks.bind_eq_ok_iff, Checks.okOr_eq_ok_iff,
    Checks.mapErr_eq_ok_iff, readContractDocument_eq_some_iff]
  constructor
  · rintro ⟨bytes, ⟨rfl, hlength⟩, envelope, henvelope, schema, hschema, kind, -, c, hc, ⟨⟩, hvalid,
      hline⟩
    obtain rfl := Option.some.inj (hread.symm.trans henvelope)
    obtain rfl := Option.some.inj ((schemaIdentity_serialize contract).symm.trans hschema)
    obtain ⟨-, rfl, -⟩ := ContractKind.read_serialize_iff.1 hc
    exact ⟨hlength, hvalid, (Except.ok.inj hline).symm⟩
  · rintro ⟨hlength, hvalid, rfl⟩
    have hkind : ContractKind.ofSchema contract.schema = some contract.kind := by
      rw [Contract.schema_of_validate hvalid, ContractKind.ofSchema_schema]
    refine ⟨_, ⟨rfl, hlength⟩, _, hread, _, schemaIdentity_serialize contract, _, hkind, contract,
      ContractKind.read_serialize_iff.2 ⟨rfl, rfl, ?_⟩, (), hvalid, rfl⟩
    rintro n rfl
    exact Checks.mapErr_eq_ok_iff.1 hvalid

/-- **The validation of what is written.**  For every record of a contract, written compactly or in
lines: it is accepted exactly when the record is valid and its document is not too long; and the
reader of no other contract reads it, nor does that of its own read another record. -/
theorem written_contracts_validated (json : JsonLibrary) (b64 : Base64.Codec)
    (urlSafe : Base64.CanonicalCodec) (contract : Contract) (pretty : Bool) :
    (∀ line, validateContract json b64 urlSafe (json.serializedJson contract.serialize pretty) =
        .ok line ↔
      (json.serializedJson contract.serialize pretty).length ≤ MAX_CONTRACT_DOCUMENT_BYTES ∧
        contract.validate b64 urlSafe = .ok () ∧ line = "valid\t" ++ contract.schema ++ "\n") ∧
    ∀ kind d c, json.fromSlice (json.serializedJson contract.serialize pretty) = some d →
      ContractKind.read b64 kind d = some c → kind = contract.kind ∧ c = contract := by
  refine ⟨fun line => validateContract_serialize_iff json, fun kind d c hread hc => ?_⟩
  rw [json.fromSlice_serializedJson contract.within_serialize pretty] at hread
  obtain rfl := Option.some.inj hread
  obtain ⟨hkind, hcontract, -⟩ := ContractKind.read_serialize_iff.1 hc
  exact ⟨hkind, hcontract⟩

/-- The intent to open `/tmp/a`. -/
def sampleContract : Contract :=
  .openIntent (OpenIntentV1.ofTarget Base64.urlSafeNoPad sampleEndpoint (Text.asBytes "/tmp/a"))

/-- The intent is accepted in lines, and its document is read as no other record. -/
theorem written_contracts_validated_intent :
    validateContract parsedJson Base64.standard Base64.urlSafeNoPad
        (parsedJson.serializedJson sampleContract.serialize true) =
          .ok ("valid\t" ++ OPEN_INTENT_SCHEMA_V1 ++ "\n") ∧
      ∀ kind d c, parsedJson.fromSlice (parsedJson.serializedJson sampleContract.serialize true) =
        some d → ContractKind.read Base64.standard kind d = some c →
          kind = .openIntent ∧ c = sampleContract := by
  obtain ⟨haccepted, hread⟩ := written_contracts_validated parsedJson Base64.standard
    Base64.urlSafeNoPad sampleContract true
  refine ⟨(haccepted _).2 ⟨?_, ?_, rfl⟩, hread⟩
  · decide +kernel
  · rfl

end TermInterop
