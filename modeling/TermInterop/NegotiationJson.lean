/-
The JSON of a capability negotiation: its schema, and how it is deserialized.

Every record has a schema in the contract bundle, and a reader that is derived for its type.  Both
know the same members; they differ in what they make of numbers, of members that a record does not
have, and of the schema identity of a receipt.

A reader is given a document that conforms to the schema, where records are objects and names are
strings; it reads no other form of them.

Main definitions:

* `TermInterop.CapabilityNegotiationV1.jsonSchema` — the schema, record by record;
* `TermInterop.ProbeReceiptV1.deserialize` — the reader of a receipt;
* `TermInterop.CapabilityNegotiationV1.deserialize` — the reader of a negotiation, which validates
  what it has read.

Main results:

* `TermInterop.AdapterIdentity.deserialize_eq_some_iff`,
  `TermInterop.CapabilityId.deserialize_eq_some_iff` — **what is read** is in the members;
* `TermInterop.AdapterIdentity.exists_deserialize`, `TermInterop.CapabilityId.exists_deserialize` —
  an identity that conforms is read.
-/

import TermInterop.JsonDocuments
import TermInterop.Negotiation
import TermInterop.ReceiptJson

set_option relaxedAutoImplicit false
set_option autoImplicit false

namespace TermInterop

open Json (Document Members Schema field optionalField text variant list)

/-! ### Numbers and names -/

/-- A `u64` is spelled with digits alone: a number with a sign, a fraction or an exponent is read as
something else, `-0` as a float. -/
def unsigned64 : Document → Option UInt64
  | .number (.natural n) => if n < 2 ^ 64 then some (UInt64.ofNat n) else none
  | _ => none

/-- A `u32`, likewise. -/
def unsigned32 : Document → Option UInt32
  | .number (.natural n) => if n < 2 ^ 32 then some (UInt32.ofNat n) else none
  | _ => none

/-- The names of some variants. -/
def named {α : Type} (snakeCase : α → String) (values : List α) : List (String × α) :=
  values.map fun a => (snakeCase a, a)

theorem unsigned64_eq_some_iff {d : Document} {p : UInt64} :
    unsigned64 d = some p ↔ d = .number (.natural p.toNat) := by
  constructor
  · intro h
    cases d with
    | number n =>
        cases n with
        | natural n =>
            rw [unsigned64, Option.ite_none_right_eq_some] at h
            obtain ⟨hlt, heq⟩ := h
            rw [← Option.some.inj heq, UInt64.toNat_ofNat_of_lt' hlt]
        | _ => cases h
    | _ => cases h
  · rintro rfl
    rw [unsigned64, if_pos p.toNat_lt, UInt64.ofNat_toNat]

/-- A variant is read from its name. -/
theorem eq_of_variant_named {α : Type} {snakeCase : α → String} {values : List α} {d : Document}
    {a : α} (h : variant (named snakeCase values) d = some a) : d = .string (snakeCase a) := by
  obtain ⟨name, hname, hlookup⟩ := Option.bind_eq_some_iff.1 h
  have hmem : (name, a) ∈ named snakeCase values := by
    rw [List.lookup_eq_some_iff] at hlookup
    obtain ⟨before, after, hsplit, -⟩ := hlookup
    rw [hsplit]
    simp
  obtain ⟨b, -, hb⟩ := List.mem_map.1 hmem
  obtain ⟨rfl, rfl⟩ := Prod.mk.inj hb
  exact Json.text_eq_some_iff.1 hname

/-! ### Identities -/

def ProtocolId.jsonSchema : Schema :=
  .object [("namespace", .string), ("name", .string), ("revision", .string)]
    ["namespace", "name", "revision"] .never

def ProtocolId.deserialize (d : Document) : Option ProtocolId := do
  let members ← d.struct ["namespace", "name", "revision"]
  let «namespace» ← field members "namespace" text
  let name ← field members "name" text
  let revision ← field members "revision" text
  some ⟨«namespace», name, revision⟩

def CapabilityId.jsonSchema : Schema :=
  .object [("protocol", ProtocolId.jsonSchema), ("name", .string)] ["protocol", "name"] .never

def CapabilityId.deserialize (d : Document) : Option CapabilityId := do
  let members ← d.struct ["protocol", "name"]
  let protocol ← field members "protocol" ProtocolId.deserialize
  let name ← field members "name" text
  some ⟨protocol, name⟩

def AdapterIdentity.jsonSchema : Schema :=
  .object [("name", .string), ("version", .string)] ["name", "version"] .never

def AdapterIdentity.deserialize (d : Document) : Option AdapterIdentity := do
  let members ← d.struct ["name", "version"]
  let name ← field members "name" text
  let version ← field members "version" text
  some ⟨name, version⟩

def CorrelationId.jsonSchema : Schema :=
  .object [("namespace", .string), ("value", .string)] ["namespace", "value"] .never

def CorrelationId.deserialize (d : Document) : Option CorrelationId := do
  let members ← d.struct ["namespace", "value"]
  let «namespace» ← field members "namespace" text
  let value ← field members "value" text
  some ⟨«namespace», value⟩

section Identities

variable {d : Document}

theorem ProtocolId.deserialize_eq_some_iff {protocol : ProtocolId} :
    ProtocolId.deserialize d = some protocol ↔
      ∃ members, d.struct ["namespace", "name", "revision"] = some members ∧
        members.lookup "namespace" = some (.string protocol.«namespace») ∧
        members.lookup "name" = some (.string protocol.name) ∧
        members.lookup "revision" = some (.string protocol.revision) := by
  obtain ⟨s, n, r⟩ := protocol
  simp only [ProtocolId.deserialize, Option.bind_eq_bind, Option.bind_eq_some_iff,
    Json.field_eq_some_iff, Json.text_eq_some_iff, Option.some.injEq, ProtocolId.mk.injEq,
    exists_eq_right]
  constructor
  · rintro ⟨members, hstruct, s, hs, n, hn, r, hr, rfl, rfl, rfl⟩
    exact ⟨members, hstruct, hs, hn, hr⟩
  · rintro ⟨members, hstruct, hs, hn, hr⟩
    exact ⟨members, hstruct, s, hs, n, hn, r, hr, rfl, rfl, rfl⟩

theorem CapabilityId.deserialize_eq_some_iff {capability : CapabilityId} :
    CapabilityId.deserialize d = some capability ↔
      ∃ members protocol, d.struct ["protocol", "name"] = some members ∧
        members.lookup "protocol" = some protocol ∧
        ProtocolId.deserialize protocol = some capability.protocol ∧
        members.lookup "name" = some (.string capability.name) := by
  obtain ⟨p, n⟩ := capability
  simp only [CapabilityId.deserialize, Option.bind_eq_bind, Option.bind_eq_some_iff,
    Json.field_eq_some_iff, Json.text_eq_some_iff, Option.some.injEq, CapabilityId.mk.injEq,
    exists_eq_right]
  constructor
  · rintro ⟨members, hstruct, p, ⟨protocol, hp, hread⟩, n, hn, rfl, rfl⟩
    exact ⟨members, protocol, hstruct, hp, hread, hn⟩
  · rintro ⟨members, protocol, hstruct, hp, hread, hn⟩
    exact ⟨members, hstruct, p, ⟨protocol, hp, hread⟩, n, hn, rfl, rfl⟩

theorem AdapterIdentity.deserialize_eq_some_iff {adapter : AdapterIdentity} :
    AdapterIdentity.deserialize d = some adapter ↔
      ∃ members, d.struct ["name", "version"] = some members ∧
        members.lookup "name" = some (.string adapter.name) ∧
        members.lookup "version" = some (.string adapter.version) := by
  obtain ⟨n, v⟩ := adapter
  simp only [AdapterIdentity.deserialize, Option.bind_eq_bind, Option.bind_eq_some_iff,
    Json.field_eq_some_iff, Json.text_eq_some_iff, Option.some.injEq, AdapterIdentity.mk.injEq,
    exists_eq_right]
  constructor
  · rintro ⟨members, hstruct, n, hn, v, hv, rfl, rfl⟩
    exact ⟨members, hstruct, hn, hv⟩
  · rintro ⟨members, hstruct, hn, hv⟩
    exact ⟨members, hstruct, n, hn, v, hv, rfl, rfl⟩

/-- A protocol that conforms is read. -/
theorem ProtocolId.exists_deserialize (h : ProtocolId.jsonSchema.accepts d) :
    ∃ protocol, ProtocolId.deserialize d = some protocol := by
  obtain ⟨members, rfl, hstruct⟩ := Json.struct_of_accepts h (List.Subset.refl _)
  obtain ⟨s, hs⟩ := Json.exists_string_of_accepts "namespace" h (by simp) (by simp)
  obtain ⟨n, hn⟩ := Json.exists_string_of_accepts "name" h (by simp) (by simp)
  obtain ⟨r, hr⟩ := Json.exists_string_of_accepts "revision" h (by simp) (by simp)
  exact ⟨⟨s, n, r⟩, ProtocolId.deserialize_eq_some_iff.2 ⟨members, hstruct, hs, hn, hr⟩⟩

theorem CapabilityId.exists_deserialize (h : CapabilityId.jsonSchema.accepts d) :
    ∃ capability, CapabilityId.deserialize d = some capability := by
  obtain ⟨members, rfl, hstruct⟩ := Json.struct_of_accepts h (List.Subset.refl _)
  obtain ⟨protocol, hp, haccepts⟩ := Json.exists_member_of_accepts _ h
    (List.mem_cons_self (a := "protocol")) List.mem_cons_self
  obtain ⟨p, hread⟩ := ProtocolId.exists_deserialize haccepts
  obtain ⟨n, hn⟩ := Json.exists_string_of_accepts "name" h (by simp)
    (List.mem_cons_of_mem _ List.mem_cons_self)
  exact ⟨⟨p, n⟩, CapabilityId.deserialize_eq_some_iff.2 ⟨members, protocol, hstruct, hp, hread, hn⟩⟩

theorem AdapterIdentity.exists_deserialize (h : AdapterIdentity.jsonSchema.accepts d) :
    ∃ adapter, AdapterIdentity.deserialize d = some adapter := by
  obtain ⟨members, rfl, hstruct⟩ := Json.struct_of_accepts h (List.Subset.refl _)
  obtain ⟨n, hn⟩ := Json.exists_string_of_accepts "name" h (by simp) (by simp)
  obtain ⟨v, hv⟩ := Json.exists_string_of_accepts "version" h (by simp) (by simp)
  exact ⟨⟨n, v⟩, AdapterIdentity.deserialize_eq_some_iff.2 ⟨members, hstruct, hn, hv⟩⟩

end Identities

/-! ### The context of a probe -/

/-- A variant without content is its name, and one with content an object with one member. -/
def HintObservation.jsonSchema : Schema :=
  .oneOf [.const "present", .object [("value", .string)] ["value"] .never]

def HintObservation.deserialize : Document → Option HintObservation
  | .string s => if s = "present" then some .present else none
  | .object [("value", .string s)] => some (.value s)
  | _ => none

def EnvironmentHint.jsonSchema : Schema :=
  .object [("name", .string), ("observation", HintObservation.jsonSchema)] ["name", "observation"]
    .never

def EnvironmentHint.deserialize (d : Document) : Option EnvironmentHint := do
  let members ← d.struct ["name", "observation"]
  let name ← field members "name" text
  let observation ← field members "observation" HintObservation.deserialize
  some ⟨name, observation⟩

def PathHop.jsonSchema : Schema :=
  .object [("implementation", .string), ("role", .string), ("version", .anyOf [.string, .null])]
    ["role", "implementation"] .never

def PathHop.deserialize (d : Document) : Option PathHop := do
  let members ← d.struct ["role", "implementation", "version"]
  let role ← field members "role" text
  let implementation ← field members "implementation" text
  let version ← optionalField members "version" text
  some ⟨role, implementation, version⟩

/-- The tag of an internally tagged variant is a member; other members are ignored. -/
def TopologyObservation.jsonSchema : Schema :=
  .oneOf [.object [("state", .const "unknown")] ["state"] .anything,
    .object [("hops", .array PathHop.jsonSchema), ("state", .const "declared")] ["state", "hops"]
      .anything]

def TopologyObservation.deserialize : Document → Option TopologyObservation
  | .object members => do
      let state ← field members "state" text
      if state = "unknown" then some .unknown
      else if state = "declared" then do
        let hops ← field members "hops" (list PathHop.deserialize)
        some (.declared hops)
      else none
  | _ => none

def TransportReadiness.jsonSchema : Schema :=
  .oneOf [.const "not_required", .const "ready", .const "unknown"]

def TransportReadiness.deserialize : Document → Option TransportReadiness :=
  variant (named TransportReadiness.snakeCase [.notRequired, .ready, .unknown])

/-! ### The wire exchange -/

def WireEventRole.jsonSchema : Schema :=
  .oneOf [.const "capability_reply", .const "barrier_reply", .const "unclassified"]

def WireEventRole.deserialize : Document → Option WireEventRole :=
  variant (named WireEventRole.snakeCase [.capabilityReply, .barrierReply, .unclassified])

def WireEvent.jsonSchema : Schema :=
  .object [("correlation", .anyOf [.string, .null]), ("fields", .object [] [] .string),
      ("protocol", .anyOf [ProtocolId.jsonSchema, .null]), ("raw_base64", .string),
      ("role", WireEventRole.jsonSchema), ("sequence", .natural),
      ("status", .anyOf [.string, .null])]
    ["sequence", "role", "fields", "raw_base64"] .never

/-- A map of texts. -/
def fieldsDeserialize : Document → Option Fields
  | .object members => do
      let fields ← members.mapM fun m => (text m.2).map fun value => (m.1, value)
      some (Std.ExtTreeMap.ofList fields)
  | _ => none

def WireEvent.deserialize (d : Document) : Option WireEvent := do
  let members ← d.struct
    ["sequence", "role", "protocol", "correlation", "status", "fields", "raw_base64"]
  let sequence ← field members "sequence" unsigned32
  let role ← field members "role" WireEventRole.deserialize
  let protocol ← optionalField members "protocol" ProtocolId.deserialize
  let correlation ← optionalField members "correlation" text
  let status ← optionalField members "status" text
  let fields ← field members "fields" fieldsDeserialize
  let rawBase64 ← field members "raw_base64" text
  some ⟨sequence, role, protocol, correlation, status, fields, rawBase64⟩

def StopReason.jsonSchema : Schema :=
  .oneOf [.const "capability_and_barrier_observed", .const "barrier_observed", .const "timeout",
    .const "resource_limit", .const "end_of_input"]

def StopReason.deserialize : Document → Option StopReason :=
  variant (named StopReason.snakeCase
    [.capabilityAndBarrierObserved, .barrierObserved, .timeout, .resourceLimit, .endOfInput])

def WireExchange.jsonSchema : Schema :=
  .object [("elapsed_ms", .natural), ("events", .array WireEvent.jsonSchema),
      ("logical_request_base64", .string), ("response_base64", .string),
      ("stop_reason", StopReason.jsonSchema), ("wire_request_base64", .string)]
    ["logical_request_base64", "wire_request_base64", "response_base64", "events", "elapsed_ms",
      "stop_reason"] .never

def WireExchange.deserialize (d : Document) : Option WireExchange := do
  let members ← d.struct ["logical_request_base64", "wire_request_base64", "response_base64",
    "events", "elapsed_ms", "stop_reason"]
  let logicalRequestBase64 ← field members "logical_request_base64" text
  let wireRequestBase64 ← field members "wire_request_base64" text
  let responseBase64 ← field members "response_base64" text
  let events ← field members "events" (list WireEvent.deserialize)
  let elapsedMs ← field members "elapsed_ms" unsigned64
  let stopReason ← field members "stop_reason" StopReason.deserialize
  some ⟨logicalRequestBase64, wireRequestBase64, responseBase64, events, elapsedMs, stopReason⟩

def TransportEvidence.jsonSchema : Schema :=
  .object [("adapter", AdapterIdentity.jsonSchema),
      ("preparation_exchanges", .array WireExchange.jsonSchema),
      ("readiness", TransportReadiness.jsonSchema)]
    ["adapter", "readiness", "preparation_exchanges"] .never

def TransportEvidence.deserialize (d : Document) : Option TransportEvidence := do
  let members ← d.struct ["adapter", "readiness", "preparation_exchanges"]
  let adapter ← field members "adapter" AdapterIdentity.deserialize
  let readiness ← field members "readiness" TransportReadiness.deserialize
  let preparationExchanges ← field members "preparation_exchanges" (list WireExchange.deserialize)
  some ⟨adapter, readiness, preparationExchanges⟩

def ProbeContext.jsonSchema : Schema :=
  .object [("environment_hints", .array EnvironmentHint.jsonSchema),
      ("topology", TopologyObservation.jsonSchema), ("transport", TransportEvidence.jsonSchema),
      ("tty_endpoint", .string)]
    ["tty_endpoint", "transport", "environment_hints", "topology"] .never

def ProbeContext.deserialize (d : Document) : Option ProbeContext := do
  let members ← d.struct ["tty_endpoint", "transport", "environment_hints", "topology"]
  let ttyEndpoint ← field members "tty_endpoint" text
  let transport ← field members "transport" TransportEvidence.deserialize
  let environmentHints ← field members "environment_hints" (list EnvironmentHint.deserialize)
  let topology ← field members "topology" TopologyObservation.deserialize
  some ⟨ttyEndpoint, transport, environmentHints, topology⟩

/-! ### The receipt -/

def Availability.jsonSchema : Schema :=
  .oneOf [.const "available", .const "unavailable", .const "unknown"]

def Availability.deserialize : Document → Option Availability :=
  variant (named Availability.snakeCase [.available, .unavailable, .unknown])

def Conformance.jsonSchema : Schema :=
  .oneOf [.const "conformant", .const "nonconformant", .const "not_applicable",
    .const "inconclusive"]

def Conformance.deserialize : Document → Option Conformance :=
  variant (named Conformance.snakeCase [.conformant, .nonconformant, .notApplicable, .inconclusive])

def AssertionOutcome.jsonSchema : Schema :=
  .oneOf [.const "pass", .const "fail", .const "unknown", .const "not_applicable"]

def AssertionOutcome.deserialize : Document → Option AssertionOutcome :=
  variant (named AssertionOutcome.snakeCase [.pass, .fail, .unknown, .notApplicable])

def AssertionResult.jsonSchema : Schema :=
  .object [("detail", .string), ("id", .string), ("outcome", AssertionOutcome.jsonSchema)]
    ["id", "outcome", "detail"] .never

def AssertionResult.deserialize (d : Document) : Option AssertionResult := do
  let members ← d.struct ["id", "outcome", "detail"]
  let id ← field members "id" text
  let outcome ← field members "outcome" AssertionOutcome.deserialize
  let detail ← field members "detail" text
  some ⟨id, outcome, detail⟩

def Assessment.jsonSchema : Schema :=
  .object [("assertions", .array AssertionResult.jsonSchema),
      ("availability", Availability.jsonSchema), ("conformance", Conformance.jsonSchema)]
    ["availability", "conformance", "assertions"] .never

def Assessment.deserialize (d : Document) : Option Assessment := do
  let members ← d.struct ["availability", "conformance", "assertions"]
  let availability ← field members "availability" Availability.deserialize
  let conformance ← field members "conformance" Conformance.deserialize
  let assertions ← field members "assertions" (list AssertionResult.deserialize)
  some ⟨availability, conformance, assertions⟩

def ProbeReceiptV1.jsonSchema : Schema :=
  .object [("adapter", AdapterIdentity.jsonSchema), ("assessment", Assessment.jsonSchema),
      ("capability", CapabilityId.jsonSchema), ("context", ProbeContext.jsonSchema),
      ("correlation", .anyOf [CorrelationId.jsonSchema, .null]),
      ("exchange", WireExchange.jsonSchema), ("observed_at_unix_ms", .natural),
      ("schema", .string)]
    ["schema", "observed_at_unix_ms", "capability", "adapter", "context", "exchange", "assessment"]
    .never

def ProbeReceiptV1.deserialize (d : Document) : Option ProbeReceiptV1 := do
  let members ← d.struct ["schema", "observed_at_unix_ms", "capability", "adapter", "correlation",
    "context", "exchange", "assessment"]
  let schema ← field members "schema" text
  let observedAtUnixMs ← field members "observed_at_unix_ms" unsigned64
  let capability ← field members "capability" CapabilityId.deserialize
  let adapter ← field members "adapter" AdapterIdentity.deserialize
  let correlation ← optionalField members "correlation" CorrelationId.deserialize
  let context ← field members "context" ProbeContext.deserialize
  let exchange ← field members "exchange" WireExchange.deserialize
  let assessment ← field members "assessment" Assessment.deserialize
  some ⟨schema, observedAtUnixMs, capability, adapter, correlation, context, exchange, assessment⟩

/-- What a reader has seen of a receipt. -/
structure ReadsReceipt (d : Document) (receipt : ProbeReceiptV1) : Prop where
  object : ∃ members, d = .object members
  schema : d.get "schema" = .string receipt.schema
  capability : CapabilityId.deserialize (d.get "capability") = some receipt.capability
  adapter : AdapterIdentity.deserialize (d.get "adapter") = some receipt.adapter
  assessment : ∃ members, d.get "assessment" = .object members
  availability : (d.get "assessment").get "availability" =
    .string receipt.assessment.availability.snakeCase
  conformance : (d.get "assessment").get "conformance" =
    .string receipt.assessment.conformance.snakeCase
  context : ∃ members, d.get "context" = .object members
  transport : ∃ members, (d.get "context").get "transport" = .object members
  readiness : ((d.get "context").get "transport").get "readiness" =
    .string receipt.context.transport.readiness.snakeCase

section Receipt

variable {d : Document} {α : Type} {members : Members} {name : String}
  {read : Document → Option α} {a : α}

/-- What was read from a member is what its value is read as. -/
theorem read_get (h : field members name read = some a) :
    read ((Document.object members).get name) = some a := by
  obtain ⟨d, hd, hread⟩ := Json.field_eq_some_iff.1 h
  rwa [Json.get_of_lookup hd]

theorem Assessment.of_deserialize {assessment : Assessment}
    (h : Assessment.deserialize d = some assessment) :
    (∃ members, d = .object members) ∧
      d.get "availability" = .string assessment.availability.snakeCase ∧
      d.get "conformance" = .string assessment.conformance.snakeCase := by
  obtain ⟨members, hstruct, hrest⟩ := Option.bind_eq_some_iff.1 h
  obtain ⟨availability, ha, hrest⟩ := Option.bind_eq_some_iff.1 hrest
  obtain ⟨conformance, hc, hrest⟩ := Option.bind_eq_some_iff.1 hrest
  obtain ⟨assertions, -, hlast⟩ := Option.bind_eq_some_iff.1 hrest
  obtain rfl := Option.some.inj hlast
  obtain ⟨rfl, -⟩ := Json.struct_eq_some_iff.1 hstruct
  exact ⟨⟨members, rfl⟩, eq_of_variant_named (read_get ha), eq_of_variant_named (read_get hc)⟩

theorem TransportEvidence.of_deserialize {transport : TransportEvidence}
    (h : TransportEvidence.deserialize d = some transport) :
    (∃ members, d = .object members) ∧
      d.get "readiness" = .string transport.readiness.snakeCase := by
  obtain ⟨members, hstruct, hrest⟩ := Option.bind_eq_some_iff.1 h
  obtain ⟨adapter, -, hrest⟩ := Option.bind_eq_some_iff.1 hrest
  obtain ⟨readiness, hr, hrest⟩ := Option.bind_eq_some_iff.1 hrest
  obtain ⟨exchanges, -, hlast⟩ := Option.bind_eq_some_iff.1 hrest
  obtain rfl := Option.some.inj hlast
  obtain ⟨rfl, -⟩ := Json.struct_eq_some_iff.1 hstruct
  exact ⟨⟨members, rfl⟩, eq_of_variant_named (read_get hr)⟩

theorem ProbeContext.of_deserialize {context : ProbeContext}
    (h : ProbeContext.deserialize d = some context) :
    (∃ members, d = .object members) ∧
      TransportEvidence.deserialize (d.get "transport") = some context.transport := by
  obtain ⟨members, hstruct, hrest⟩ := Option.bind_eq_some_iff.1 h
  obtain ⟨endpoint, -, hrest⟩ := Option.bind_eq_some_iff.1 hrest
  obtain ⟨transport, ht, hrest⟩ := Option.bind_eq_some_iff.1 hrest
  obtain ⟨hints, -, hrest⟩ := Option.bind_eq_some_iff.1 hrest
  obtain ⟨topology, -, hlast⟩ := Option.bind_eq_some_iff.1 hrest
  obtain rfl := Option.some.inj hlast
  obtain ⟨rfl, -⟩ := Json.struct_eq_some_iff.1 hstruct
  exact ⟨⟨members, rfl⟩, read_get ht⟩

/-- **What a receipt is read from.** -/
theorem ProbeReceiptV1.reads_of_deserialize {receipt : ProbeReceiptV1}
    (h : ProbeReceiptV1.deserialize d = some receipt) : ReadsReceipt d receipt := by
  obtain ⟨members, hstruct, hrest⟩ := Option.bind_eq_some_iff.1 h
  obtain ⟨schema, hschema, hrest⟩ := Option.bind_eq_some_iff.1 hrest
  obtain ⟨observed, -, hrest⟩ := Option.bind_eq_some_iff.1 hrest
  obtain ⟨capability, hcapability, hrest⟩ := Option.bind_eq_some_iff.1 hrest
  obtain ⟨adapter, hadapter, hrest⟩ := Option.bind_eq_some_iff.1 hrest
  obtain ⟨correlation, -, hrest⟩ := Option.bind_eq_some_iff.1 hrest
  obtain ⟨context, hcontext, hrest⟩ := Option.bind_eq_some_iff.1 hrest
  obtain ⟨exchange, -, hrest⟩ := Option.bind_eq_some_iff.1 hrest
  obtain ⟨assessment, hassessment, hlast⟩ := Option.bind_eq_some_iff.1 hrest
  obtain rfl := Option.some.inj hlast
  obtain ⟨rfl, -⟩ := Json.struct_eq_some_iff.1 hstruct
  obtain ⟨hobject, havailability, hconformance⟩ := Assessment.of_deserialize (read_get hassessment)
  obtain ⟨hcontext, htransport⟩ := ProbeContext.of_deserialize (read_get hcontext)
  obtain ⟨htransport, hreadiness⟩ := TransportEvidence.of_deserialize htransport
  exact ⟨⟨members, rfl⟩, Json.text_eq_some_iff.1 (read_get hschema), read_get hcapability,
    read_get hadapter, hobject, havailability, hconformance, hcontext, htransport, hreadiness⟩

end Receipt

/-! ### The negotiation -/

def CandidateDisposition.snakeCase : CandidateDisposition → String
  | eligible => "eligible"
  | ineligible => "ineligible"

def CandidateDisposition.jsonSchema : Schema := .oneOf [.const "eligible", .const "ineligible"]

def CandidateDisposition.deserialize : Document → Option CandidateDisposition :=
  variant (named CandidateDisposition.snakeCase [.eligible, .ineligible])

def NegotiationCandidateV1.jsonSchema : Schema :=
  .object [("disposition", CandidateDisposition.jsonSchema), ("preference", .natural),
      ("receipt", ProbeReceiptV1.jsonSchema)]
    ["preference", "disposition", "receipt"] .never

def NegotiationCandidateV1.deserialize (d : Document) : Option NegotiationCandidateV1 := do
  let members ← d.struct ["preference", "disposition", "receipt"]
  let preference ← field members "preference" unsigned64
  let disposition ← field members "disposition" CandidateDisposition.deserialize
  let receipt ← field members "receipt" ProbeReceiptV1.deserialize
  some ⟨preference, disposition, receipt⟩

def NegotiationSelectionV1.jsonSchema : Schema :=
  .oneOf [.object [("adapter", AdapterIdentity.jsonSchema), ("capability", CapabilityId.jsonSchema),
        ("preference", .natural), ("state", .const "selected")]
      ["state", "preference", "capability", "adapter"] .anything,
    .object [("state", .const "no_eligible_candidate")] ["state"] .anything]

/-- `serde(tag = "state")`: the members that the variant does not have are ignored. -/
def NegotiationSelectionV1.deserialize : Document → Option NegotiationSelectionV1
  | .object members => do
      let state ← field members "state" text
      if state = "selected" then do
        let preference ← field members "preference" unsigned64
        let capability ← field members "capability" CapabilityId.deserialize
        let adapter ← field members "adapter" AdapterIdentity.deserialize
        some (.selected preference capability adapter)
      else if state = "no_eligible_candidate" then some .noEligibleCandidate
      else none
  | _ => none

/-- **The schema of a negotiation.** -/
def CapabilityNegotiationV1.jsonSchema : Schema :=
  .object [("candidates", .array NegotiationCandidateV1.jsonSchema),
      ("schema", .const CAPABILITY_NEGOTIATION_SCHEMA_V1),
      ("selection", NegotiationSelectionV1.jsonSchema)]
    ["schema", "candidates", "selection"] .never

/-- The members of a negotiation, before it is validated. -/
def CapabilityNegotiationWireV1.deserialize (d : Document) : Option CapabilityNegotiationV1 := do
  let members ← d.struct ["schema", "candidates", "selection"]
  let schema ← field members "schema" text
  let candidates ← field members "candidates" (list NegotiationCandidateV1.deserialize)
  let selection ← field members "selection" NegotiationSelectionV1.deserialize
  some ⟨schema, candidates, selection⟩

/-- **A negotiation is read and validated.** -/
def CapabilityNegotiationV1.deserialize (b64 : Base64.Codec) (d : Document) :
    Option CapabilityNegotiationV1 := do
  let value ← CapabilityNegotiationWireV1.deserialize d
  match value.validate b64 with
  | .ok () => some value
  | .error _ => none

/-! ### What is read from a negotiation that conforms -/

/-- An embedded receipt. -/
def embeddedReceipt (candidate : Document) : Option ProbeReceiptV1 :=
  ProbeReceiptV1.deserialize (candidate.get "receipt")

section Conforming

variable {d : Document}

/-- **What a candidate is read as** whose receipt can be read. -/
theorem NegotiationCandidateV1.deserialize_eq_some_iff {candidate : NegotiationCandidateV1}
    {receipt : ProbeReceiptV1} (hconforms : NegotiationCandidateV1.jsonSchema.accepts d)
    (hreceipt : embeddedReceipt d = some receipt) :
    NegotiationCandidateV1.deserialize d = some candidate ↔
      d.get "preference" = .number (.natural candidate.preference.toNat) ∧
        d.get "disposition" = .string candidate.disposition.snakeCase ∧
        candidate.receipt = receipt := by
  obtain ⟨p, disposition, r⟩ := candidate
  obtain ⟨members, rfl, hstruct⟩ : ∃ members, d = .object members ∧
      d.struct ["preference", "disposition", "receipt"] = some members :=
    Json.struct_of_accepts hconforms (by simp)
  obtain ⟨pd, hp, -⟩ := Json.exists_member_of_accepts "preference" hconforms (by simp)
    (List.mem_cons_of_mem _ List.mem_cons_self)
  obtain ⟨dd, hdd, -⟩ := Json.exists_member_of_accepts "disposition" hconforms (by simp)
    List.mem_cons_self
  obtain ⟨rd, hrd, -⟩ := Json.exists_member_of_accepts "receipt" hconforms (by simp)
    (List.mem_cons_of_mem _ (List.mem_cons_of_mem _ List.mem_cons_self))
  rw [embeddedReceipt, Json.get_of_lookup hrd] at hreceipt
  rw [Json.get_of_lookup hp, Json.get_of_lookup hdd, NegotiationCandidateV1.deserialize, hstruct]
  simp only [Option.bind_eq_bind, Option.bind_some, field, hp, hdd, hrd, hreceipt,
    Option.bind_eq_some_iff, Option.some.injEq, NegotiationCandidateV1.mk.injEq,
    unsigned64_eq_some_iff]
  constructor
  · rintro ⟨p', hpreference, disposition', hdisposition, rfl, rfl, rfl⟩
    exact ⟨hpreference, eq_of_variant_named hdisposition, rfl⟩
  · rintro ⟨hpreference, rfl, rfl⟩
    refine ⟨p, hpreference, disposition, ?_, rfl, rfl, rfl⟩
    cases disposition <;> rfl

/-- **What a selection is read as.** -/
theorem NegotiationSelectionV1.deserialize_eq_some_iff {selection : NegotiationSelectionV1}
    {members : Members} (hobject : d = .object members) :
    NegotiationSelectionV1.deserialize d = some selection ↔
      match selection with
      | .noEligibleCandidate => d.get "state" = .string "no_eligible_candidate"
      | .selected preference capability adapter =>
          d.get "state" = .string "selected" ∧
            d.get "preference" = .number (.natural preference.toNat) ∧
            CapabilityId.deserialize (d.get "capability") = some capability ∧
            AdapterIdentity.deserialize (d.get "adapter") = some adapter := by
  subst hobject
  have hcapability : Json.field members "capability" CapabilityId.deserialize = _ :=
    Json.field_eq_get rfl
  have hadapter : Json.field members "adapter" AdapterIdentity.deserialize = _ :=
    Json.field_eq_get rfl
  rw [NegotiationSelectionV1.deserialize, Json.field_eq_get rfl, Json.field_eq_get rfl, hcapability,
    hadapter]
  cases hstate : text ((Document.object members).get "state") with
  | none =>
      have hnot : ∀ s, (Document.object members).get "state" ≠ .string s := by
        intro s hs
        rw [hs] at hstate
        cases hstate
      cases selection <;> simp [hnot]
  | some state =>
      rw [Json.text_eq_some_iff.1 hstate]
      simp only [Option.bind_eq_bind, Option.bind_some, Document.string.injEq]
      by_cases hselected : state = "selected"
      · subst hselected
        rw [if_pos rfl]
        cases selection with
        | noEligibleCandidate => simp [Option.bind_eq_some_iff]
        | selected preference capability adapter =>
            simp only [Option.bind_eq_some_iff, Option.some.injEq, true_and,
              NegotiationSelectionV1.selected.injEq, unsigned64_eq_some_iff]
            constructor
            · rintro ⟨p, hp, c, hc, a, ha, rfl, rfl, rfl⟩
              exact ⟨hp, hc, ha⟩
            · rintro ⟨hp, hc, ha⟩
              exact ⟨preference, hp, capability, hc, adapter, ha, rfl, rfl, rfl⟩
      · rw [if_neg hselected]
        cases selection <;> by_cases hnone : state = "no_eligible_candidate" <;>
          simp [hselected, hnone]

/-- The items of a negotiation that conforms. -/
structure ConformsNegotiation (d : Document) : Prop where
  object : ∃ members, d = .object members
  schema : d.get "schema" = .string CAPABILITY_NEGOTIATION_SCHEMA_V1
  candidates : d.get "candidates" = .array (d.get "candidates").items
  candidate : ∀ candidate ∈ (d.get "candidates").items,
    NegotiationCandidateV1.jsonSchema.accepts candidate = true
  selection : NegotiationSelectionV1.jsonSchema.accepts (d.get "selection") = true

theorem CapabilityNegotiationV1.conforms (h : CapabilityNegotiationV1.jsonSchema.accepts d) :
    ConformsNegotiation d := by
  obtain ⟨members, rfl⟩ := Json.exists_object_of_accepts h
  obtain ⟨schema, hschema, hconst⟩ := Json.exists_member_of_accepts "schema" h (by simp)
    (List.mem_cons_of_mem _ List.mem_cons_self)
  obtain ⟨candidates, hcandidates, harray⟩ := Json.exists_member_of_accepts "candidates" h
    (by simp) List.mem_cons_self
  obtain ⟨selection, hselection, haccepts⟩ := Json.exists_member_of_accepts "selection" h
    (by simp) (List.mem_cons_of_mem _ (List.mem_cons_of_mem _ List.mem_cons_self))
  obtain ⟨items, rfl, hitems⟩ := Json.exists_of_accepts_array harray
  refine ⟨⟨members, rfl⟩, ?_, ?_, ?_, ?_⟩
  · rw [Json.get_of_lookup hschema]
    exact Json.eq_of_accepts_const hconst
  · rw [Json.get_of_lookup hcandidates]
    rfl
  · rw [Json.get_of_lookup hcandidates]
    exact hitems
  · rw [Json.get_of_lookup hselection]
    exact haccepts

/-- **What a negotiation is read as.** -/
theorem CapabilityNegotiationWireV1.deserialize_eq_some_iff {n : CapabilityNegotiationV1}
    (hconforms : CapabilityNegotiationV1.jsonSchema.accepts d) :
    CapabilityNegotiationWireV1.deserialize d = some n ↔
      n.schema = CAPABILITY_NEGOTIATION_SCHEMA_V1 ∧
        List.Forall₂
          (fun item candidate => NegotiationCandidateV1.deserialize item = some candidate)
            (d.get "candidates").items n.candidates ∧
        NegotiationSelectionV1.deserialize (d.get "selection") = some n.selection := by
  obtain ⟨schema, candidates, selection⟩ := n
  have hparts := CapabilityNegotiationV1.conforms hconforms
  obtain ⟨members, rfl, hstruct⟩ : ∃ members, d = .object members ∧
      d.struct ["schema", "candidates", "selection"] = some members :=
    Json.struct_of_accepts hconforms (by simp)
  have hselection : Json.field members "selection" NegotiationSelectionV1.deserialize = _ :=
    Json.field_eq_get rfl
  rw [CapabilityNegotiationWireV1.deserialize, hstruct, ← Json.list_eq_some_iff,
    ← hparts.candidates]
  simp only [Option.bind_eq_bind, Option.bind_some]
  rw [Json.field_eq_get rfl, Json.field_eq_get rfl, hselection, hparts.schema]
  simp only [text, Option.bind_some, Option.bind_eq_some_iff, Option.some.injEq,
    CapabilityNegotiationV1.mk.injEq]
  constructor
  · rintro ⟨cs, hcs, s, hs, rfl, rfl, rfl⟩
    exact ⟨rfl, hcs, hs⟩
  · rintro ⟨rfl, hcs, hs⟩
    exact ⟨candidates, hcs, selection, hs, rfl, rfl, rfl⟩

end Conforming

end TermInterop
